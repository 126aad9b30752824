/-
# MediaArchiver.Daemon.Handlers -- the lambdas bound to the RPC server, and what leaves them

The server runs one lambda for each remote function. Four of them catch what the function throws and
respond with an error; `authenticate`, `reset` and `abort` have no handler. Only the first of these
three cannot throw. The other two look the session up and throw for an unknown one, and the exception
leaves the lambda (`Outcome.escaped`), which ends the worker thread.

There are two other ways not to answer. The lambda of `readChunk` makes its chunk before the `try`, and
a chunk that cannot be made leaves it as an exception, too. And a statement is executed in the destructor
of `ExecSQL`; an exception that leaves a destructor terminates the program, whoever would have caught it
(`Outcome.terminated`). Apart from these every call is answered, whatever the session looks like
(`bound_fine_iff`), and a call from an unknown session changes nothing but the caller's own session.
-/
import MediaArchiver.Daemon.Calls

namespace MediaArchiver

open Lib (Table WriteAnswer)

/-- How a lambda ends: with a value, with `respond_error`, with another exception, or with the whole
program. -/
inductive Outcome (α : Type) where
  | answered (a : α)
  | respondError (text : Text)
  | escaped (e : Exn)
  | terminated
deriving DecidableEq

namespace Outcome

variable {α β : Type}

/-- The client gets an answer. -/
def Answered : Outcome α → Prop
  | .answered _ | .respondError _ => True
  | .escaped _ | .terminated => False

instance : DecidablePred (Answered (α := α))
  | .answered _ | .respondError _ => inferInstanceAs (Decidable True)
  | .escaped _ | .terminated => inferInstanceAs (Decidable False)

/-- Another type of value. -/
def map (f : α → β) : Outcome α → Outcome β
  | .answered a => .answered (f a)
  | .respondError text => .respondError text
  | .escaped e => .escaped e
  | .terminated => .terminated

@[simp] theorem answered_answered (a : α) : (answered a).Answered := trivial

@[simp] theorem not_answered_escaped (e : Exn) : ¬ (escaped e : Outcome α).Answered := id

@[simp] theorem not_answered_terminated : ¬ (terminated : Outcome α).Answered := id

@[simp] theorem answered_map (f : α → β) (o : Outcome α) : (o.map f).Answered ↔ o.Answered := by
  cases o <;> exact Iff.rfl

/-- A function in a lambda without a handler. -/
def bare : Except Exn α → Outcome α
  | .ok a => .answered a
  | .error e => .escaped e

/-- A function in a lambda that catches `std::exception` and responds with a text in front. -/
def guarded (text : Text) : Except Exn α → Outcome α
  | .ok a => .answered a
  | .error e => .respondError (text ++ e.what)

@[simp] theorem answered_guarded (text : Text) (answer : Except Exn α) :
    (guarded text answer).Answered := by
  cases answer <;> trivial

end Outcome

/-- What the remote functions return. -/
inductive RpcValue where
  | version (n : Nat)
  | done
  | settings (settings : MediaEncoderSettings)
  | more (more : Bool)
  | chunk (more : Bool) (data : Bytes)
deriving DecidableEq

/-- A call of a bound function, with the answers of the environment. `sql` says whether the statements
succeed that the call executes, `memory` whether there is memory for a chunk. -/
inductive RpcCall where
  | getVersion
  | authenticate (junk : Uninitialised) (token : Text)
  | reset (flushed : Nat)
  | abort (sql : Bool)
  | getNextFile (limit : LimitOne) (src : SourceAnswers) (filter : MediaFileRequirements) (sql : Bool)
  | postFile (opens : Bool) (result : EncodingResultInfo)
  | writeChunk (written : WriteAnswer UInt8) (flushed : Nat) (data : DataChunk)
  | readChunk (memory : Bool) (avail : Nat)

namespace Daemon

namespace Bound

def getVersion (d : Daemon) : Daemon × Outcome Nat := (d, .answered 1)

def authenticate (id : SessionId) (junk : Uninitialised) (token : Text) (d : Daemon) :
    Daemon × Outcome Unit :=
  let (d, answer) := Srv.authenticate id junk token d
  (d, .bare answer)

def reset (id : SessionId) (flushed : Nat) (d : Daemon) : Daemon × Outcome Unit :=
  let (d, answer) := Srv.reset id flushed d
  (d, .bare answer)

/-- `abort` asks the database: it has a file to reset. -/
def resets (d : Daemon) (id : SessionId) : Bool :=
  match d.session id with
  | some cli => cli.inFile.isOpen || cli.outFile.isOpen
  | none => false

def abort (id : SessionId) (sql : Bool) (d : Daemon) : Daemon × Outcome Unit :=
  if resets d id && !sql then (d, .terminated)
  else
    let (d, answer) := Srv.abort id d
    (d, .bare answer)

/-- `getNextFile` asks the database: the session is idle, and the daemon is not stopping. -/
def reserves (d : Daemon) (id : SessionId) : Bool :=
  match d.session id with
  | some cli => !cli.inFile.isOpen && !cli.outFile.isOpen && !d.stopRequested
  | none => false

def getNextFile (cfg : DaemonConfig) (id : SessionId) (limit : LimitOne) (src : SourceAnswers)
    (filter : MediaFileRequirements) (sql : Bool) (d : Daemon) :
    Daemon × Outcome MediaEncoderSettings :=
  if reserves d id && !sql then (d, .terminated)
  else
    -- the loop around the call ends with the first pass, as `respond_error` throws
    let (d, answer) := Srv.getNextFile cfg id limit src filter d
    (d, .guarded [] answer)

def postFile (cfg : DaemonConfig) (id : SessionId) (opens : Bool) (result : EncodingResultInfo)
    (d : Daemon) : Daemon × Outcome Unit :=
  let (d, answer) := Srv.postFile cfg id opens result d
  (d, .guarded "I/O error".toList answer)

def writeChunk (cfg : DaemonConfig) (id : SessionId) (written : WriteAnswer UInt8) (flushed : Nat)
    (data : DataChunk) (d : Daemon) : Daemon × Outcome Bool :=
  let (d, answer) := Srv.writeChunk cfg id written flushed data.bytes d
  (d, .guarded "I/O error".toList answer)

def readChunk (cfg : DaemonConfig) (id : SessionId) (memory : Bool) (avail : Nat) (d : Daemon) :
    Daemon × Outcome (Bool × Bytes) :=
  match DataChunk.allocate memory cfg.chunkSize with
  | .error e => (d, .escaped e)
  | .ok () =>
    let (d, answer) := Srv.readChunk cfg id avail d
    (d, .guarded "I/O error:".toList answer)

end Bound

/-- An outcome with its value among those of all functions. -/
def answers {α : Type} (value : α → RpcValue) (r : Daemon × Outcome α) : Daemon × Outcome RpcValue :=
  (r.1, r.2.map value)

/-- The lambda that is bound to the function of a call. -/
def bound (cfg : DaemonConfig) (id : SessionId) (d : Daemon) : RpcCall → Daemon × Outcome RpcValue
  | .getVersion => answers .version (Bound.getVersion d)
  | .authenticate junk token => answers (fun _ => .done) (Bound.authenticate id junk token d)
  | .reset flushed => answers (fun _ => .done) (Bound.reset id flushed d)
  | .abort sql => answers (fun _ => .done) (Bound.abort id sql d)
  | .getNextFile limit src filter sql =>
      answers .settings (Bound.getNextFile cfg id limit src filter sql d)
  | .postFile opens result => answers (fun _ => .done) (Bound.postFile cfg id opens result d)
  | .writeChunk written flushed data =>
      answers .more (Bound.writeChunk cfg id written flushed data d)
  | .readChunk memory avail => answers (fun r => .chunk r.1 r.2) (Bound.readChunk cfg id memory avail d)

/-! ## What leaves a lambda -/

/-- The calls that look the session up in a lambda without a handler. -/
def Unguarded : RpcCall → Prop
  | .reset _ | .abort _ => True
  | _ => False

/-- A statement fails that the call executes. -/
def SqlFails (d : Daemon) (id : SessionId) : RpcCall → Prop
  | .abort sql => Bound.resets d id = true ∧ sql = false
  | .getNextFile _ _ _ sql => Bound.reserves d id = true ∧ sql = false
  | _ => False

/-- The chunk can be made that the call reads into. -/
def MakesChunk (cfg : DaemonConfig) : RpcCall → Prop
  | .readChunk memory _ => DataChunk.Allocates memory cfg.chunkSize
  | _ => True

/-- The session of the caller, apart from its connection: the one that has the token. -/
def Presents (token : Text) : RpcCall → Prop
  | .authenticate _ token' => token = token'
  | _ => False

/-- The database, the mover, and every session but the caller's own are as they were. -/
structure OthersKept (id : SessionId) (call : RpcCall) (d d' : Daemon) : Prop where
  db : d'.db = d.db
  filesToMove : d'.filesToMove = d.filesToMove
  moving : d'.moving = d.moving
  stopRequested : d'.stopRequested = d.stopRequested
  sessions : ∀ r : SessionId × ConnectedClient, r.1 ≠ id → ¬ Presents r.2.token call →
    (r ∈ d'.connections.rows ↔ r ∈ d.connections.rows)

variable {cfg : DaemonConfig} {d : Daemon} {id : SessionId} {call : RpcCall}

theorem othersKept_refl (id : SessionId) (call : RpcCall) (d : Daemon) : OthersKept id call d d :=
  ⟨rfl, rfl, rfl, rfl, fun _ _ _ => Iff.rfl⟩

theorem othersKept_authenticate (id : SessionId) (junk : Uninitialised) (token : Text) (d : Daemon) :
    OthersKept id (.authenticate junk token) d (Srv.authenticate id junk token d).1 := by
  refine ⟨rfl, rfl, rfl, rfl, ?_⟩
  intro r hid htoken
  refine Connections.mem_authenticate.trans ⟨?_, ?_⟩
  · rintro (rfl | ⟨⟨hr, -⟩, -⟩)
    · exact absurd rfl hid
    · exact hr
  · intro hr
    exact Or.inr ⟨⟨hr, htoken⟩, hid⟩

theorem withClient_none {α : Type} {f : ConnectedClient → Daemon × Except Exn α}
    (hnone : d.session id = none) : d.withClient id f = (d, .error notAuthenticated) := by
  rw [withClient, hnone]

/-- A call from an unknown session touches nothing but the caller's own session. -/
theorem othersKept_bound (cfg : DaemonConfig) (hnone : d.session id = none) (call : RpcCall) :
    OthersKept id call d (bound cfg id d call).1 := by
  have hresets : Bound.resets d id = false := by
    rw [Bound.resets, hnone]
  have hreserves : Bound.reserves d id = false := by
    rw [Bound.reserves, hnone]
  cases call with
  | getVersion => exact othersKept_refl ..
  | authenticate junk token => exact othersKept_authenticate id junk token d
  | reset flushed =>
    rw [bound, Bound.reset, Srv.reset, withClient_none hnone]
    exact othersKept_refl ..
  | abort sql =>
    rw [bound, Bound.abort, hresets, Srv.abort, withClient_none hnone]
    exact othersKept_refl ..
  | getNextFile limit src filter sql =>
    rw [bound, Bound.getNextFile, hreserves, Srv.getNextFile, withClient_none hnone]
    exact othersKept_refl ..
  | postFile opens result =>
    rw [bound, Bound.postFile, Srv.postFile, withClient_none hnone]
    exact othersKept_refl ..
  | writeChunk written flushed data =>
    rw [bound, Bound.writeChunk, Srv.writeChunk, dif_pos data.size_lt, withClient_none hnone]
    exact othersKept_refl ..
  | readChunk memory avail =>
    rw [bound, Bound.readChunk, Srv.readChunk, withClient_none hnone]
    split <;> exact othersKept_refl ..

@[simp] theorem answered_answers {α : Type} (value : α → RpcValue) (r : Daemon × Outcome α) :
    (answers value r).2.Answered ↔ r.2.Answered :=
  Outcome.answered_map value r.2

/-- A lambda answers exactly if it has a handler for an unknown session, its statements succeed and its
chunk can be made. -/
theorem answered_bound_iff (cfg : DaemonConfig) (d : Daemon) (id : SessionId) (call : RpcCall) :
    (bound cfg id d call).2.Answered
      ↔ (d.session id = none → ¬ Unguarded call) ∧ ¬ SqlFails d id call ∧ MakesChunk cfg call := by
  cases call with
  | getVersion => simp [bound, Bound.getVersion, Unguarded, SqlFails, MakesChunk]
  | authenticate junk token =>
    simp [bound, Bound.authenticate, Srv.authenticate, Outcome.bare, Unguarded, SqlFails, MakesChunk]
  | reset flushed =>
    cases hcli : d.session id <;>
      simp [bound, Bound.reset, Srv.reset, withClient, hcli, Outcome.bare, Unguarded, SqlFails, MakesChunk]
  | abort sql =>
    simp only [bound, answered_answers, Bound.abort, Srv.abort, withClient, SqlFails, Unguarded, MakesChunk]
    cases hcli : d.session id with
    | none => simp [Bound.resets, hcli, Outcome.bare]
    | some cli => cases hresets : Bound.resets d id <;> cases sql <;> simp [Outcome.bare]
  | getNextFile limit src filter sql =>
    simp only [bound, answered_answers, Bound.getNextFile, SqlFails, Unguarded, MakesChunk]
    cases hreserves : Bound.reserves d id <;> cases sql <;> simp
  | postFile opens result => simp [bound, Bound.postFile, Unguarded, SqlFails, MakesChunk]
  | writeChunk written flushed data => simp [bound, Bound.writeChunk, Unguarded, SqlFails, MakesChunk]
  | readChunk memory avail =>
    simp only [bound, answered_answers, Bound.readChunk, Unguarded, SqlFails, MakesChunk]
    by_cases hmem : DataChunk.Allocates memory cfg.chunkSize
    · simp [DataChunk.allocate_of_allocates hmem, hmem]
    · obtain ⟨e, herror⟩ := DataChunk.allocate_of_not_allocates hmem
      simp [herror, hmem]

/-- Every call is answered, and one from an unknown session leaves the others alone, exactly if the
session is known to `reset` and `abort`, the statements succeed, and the chunk can be made. -/
theorem bound_fine_iff (cfg : DaemonConfig) (d : Daemon) (id : SessionId) (call : RpcCall) :
    ((bound cfg id d call).2.Answered
        ∧ (d.session id = none → OthersKept id call d (bound cfg id d call).1))
      ↔ (d.session id = none → ¬ Unguarded call) ∧ ¬ SqlFails d id call ∧ MakesChunk cfg call := by
  rw [answered_bound_iff]
  constructor
  · exact fun h => h.1
  · exact fun h => ⟨h, fun hnone => othersKept_bound cfg hnone call⟩

/-- A client that is stopped before it authenticated calls `abort`; one that lost its session calls
`reset`. -/
theorem bound_unknown_escapes :
    (bound gCfg 1 (start .empty) (.abort true)).2 = .escaped notAuthenticated ∧
    (bound gCfg 1 (start .empty) (.reset 0)).2 = .escaped notAuthenticated ∧
    ¬ (bound gCfg 1 (start .empty) (.abort true)).2.Answered :=
  ⟨rfl, rfl, by decide⟩

end Daemon

end MediaArchiver
