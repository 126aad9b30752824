/-
# MediaArchiver.Client.Network -- a client and the daemon, and what is between them

The server a client calls is the daemon itself, with its database, its mover and its watcher. What stands
between the two is a `Transport`: it is given a call and what becomes of it, and has its own state around
the daemon's. On the direct one a call is lost, is executed without an answer, or is answered (`Fate`).

A call that the daemon refuses is an `rpc_error` for the client; only `writeChunk` turns it into something
else. A daemon without memory for a chunk throws before it reads, and what leaves the call is not an answer:
to the client such a call is lost. Creating an object is nothing to the daemon, which learns of a client by
its first call, and a connection may have any id, also one that was there before.

The daemon works on while the client does nothing. There is one client, and the daemon is not restarted:
what else happens to it, its mover and its watcher do in the `background`.
-/
import MediaArchiver.Client.Link
import MediaArchiver.Client.Runs
import MediaArchiver.Daemon.OneClient

namespace MediaArchiver

open Lib (Machine WriteAnswer)
open Daemon (Single Srv.step_authenticate Srv.step_getNextFile Srv.step_readChunk Srv.step_postFile
  Srv.step_writeChunk Srv.step_reset Srv.step_abort)

/-- What the daemon's machine answers to the calls of one poll. -/
structure DaemonAnswers where
  junk : Uninitialised
  limit : LimitOne
  src : SourceAnswers
  avail : Nat
  opens : Bool
  written : WriteAnswer UInt8
  flushed : Nat
  resetFlushed : Nat

/-- What the network does in one poll: the connection of a new object, if one can be created; which
connections are up; what becomes of each call; and what the client is told of an error. -/
structure NetworkAnswers extends DaemonAnswers where
  connect : Except Exn SessionId
  isConnected : SessionId → Bool
  authFate : Fate
  getFate : Fate
  readFate : Fate
  postFate : Fate
  writeFate : Fate
  resetFate : Fate
  abortFate : Fate
  told : Exn → Text

/-- How a call gets to the daemon. It comes with the event that it is there. -/
structure Transport (σ : Type) where
  deliver : {α : Type} → Fate → DaemonEvent → (Daemon → Daemon × Except Exn α) → σ → σ × Except Exn α

/-- What gets to the daemon gets there at once. -/
def Transport.direct : Transport Daemon where
  deliver fate _ call := fate.deliver call

/-- The answer to a call, with its error as the client sees it. -/
def relay {α : Type} (seen : Exn → Exn) (call : Daemon → Daemon × Except Exn α) (d : Daemon) :
    Daemon × Except Exn α :=
  ((call d).1, (call d).2.mapError seen)

namespace NetworkAnswers

variable {σ : Type}

/-- An error of the daemon. -/
def refused (n : NetworkAnswers) (e : Exn) : Exn := .rpcError (n.told e)

/-- An error of the daemon's `writeChunk`. -/
def writeRefused (n : NetworkAnswers) (e : Exn) : Exn :=
  .runtimeError ("write chunk: ".toList ++ n.told e)

/-- The daemon as the client sees it in one poll. -/
def remote (n : NetworkAnswers) (cfg : DaemonConfig) (t : Transport σ) : Remote σ where
  createServer s := (s, n.connect)
  isConnected id _ := n.isConnected id
  authenticate id token :=
    t.deliver n.authFate (.authenticate id n.junk token)
      (relay n.refused (Daemon.Srv.authenticate id n.junk token))
  getNextFile id filter :=
    t.deliver n.getFate (.getNextFile id n.limit n.src filter)
      (relay n.refused (Daemon.Srv.getNextFile cfg id n.limit n.src filter))
  readChunk id :=
    t.deliver n.readFate (.readChunk id n.avail)
      (relay n.refused (Daemon.Srv.readChunk cfg id n.avail))
  postFile id result :=
    t.deliver n.postFate (.postFile id n.opens result)
      (relay n.refused (Daemon.Srv.postFile cfg id n.opens result))
  writeChunk id data s :=
    if h : data.length < 2 ^ 63 then
      t.deliver n.writeFate (.writeChunk id n.written n.flushed ⟨data, h⟩)
        (relay n.writeRefused (Daemon.Srv.writeChunk cfg id n.written n.flushed data)) s
    -- no chunk is longer than a vector can be
    else (s, .error (.runtimeError "vector".toList))
  reset id :=
    t.deliver n.resetFate (.reset id n.resetFlushed)
      (relay n.refused (Daemon.Srv.reset id n.resetFlushed))
  abort id := t.deliver n.abortFate (.abort id) (relay n.refused (Daemon.Srv.abort id))

/-- A network on which everything works. -/
def working (conn : SessionId) : NetworkAnswers where
  junk := ⟨0, .zero⟩
  limit := .first
  src := ⟨fun _ => some [7], fun _ => some .zero⟩
  avail := 1
  opens := true
  written := ⟨0, true, []⟩
  flushed := Lib.maxOffset
  resetFlushed := Lib.maxOffset
  connect := .ok conn
  isConnected _ := true
  authFate := .answered
  getFate := .answered
  readFate := .answered
  postFate := .answered
  writeFate := .answered
  resetFate := .answered
  abortFate := .answered
  told := Exn.what

end NetworkAnswers

/-! ## Runs of both -/

/-- What happens to a client and the daemon. -/
inductive NetworkEvent where
  | poll (n : NetworkAnswers) (a : LocalAnswers) (stop : Option Bool)
  | stop (forced : Bool)
  | background (e : DaemonEvent) (he : e.Background)

/-- What that is to the client. -/
def NetworkEvent.toClient (cfg : DaemonConfig) : NetworkEvent → ClientEvent Daemon
  | .poll n a request => .poll (n.remote cfg .direct) a request
  | .stop forced => .stop forced
  | .background e _ => .serve fun d => (Daemon.machine cfg).step d e

namespace Network

/-- A client and the daemon as a machine. -/
def machine (cfg : DaemonConfig) (ccfg : ClientSettings) : Machine (Process Daemon) NetworkEvent :=
  (Process.machine ccfg).comap (NetworkEvent.toClient cfg)

/-- Both when they start, on a database. -/
def start (token : Nat) (db : Store) : Process Daemon := .start token (.start db)

end Network

/-- A poll in which everything works. -/
def Network.smooth : NetworkEvent := .poll (.working 1) (.working [9]) none

/-! ## What a call does -/

@[simp] theorem relay_fst {α : Type} (seen : Exn → Exn) (call : Daemon → Daemon × Except Exn α)
    (d : Daemon) : (relay seen call d).1 = (call d).1 := rfl

theorem relay_ok {α : Type} {seen : Exn → Exn} {call : Daemon → Daemon × Except Exn α} {d : Daemon}
    {x : α} : (relay seen call d).2 = .ok x ↔ (call d).2 = .ok x := by
  unfold relay
  cases (call d).2 <;> simp [Except.mapError]

/-- A call that got an answer was executed; any other may have been. -/
theorem Fate.deliver_cases {σ α : Type} {fate : Fate} {call : σ → σ × Except Exn α} {s s' : σ}
    {answer : Except Exn α} (h : fate.deliver call s = (s', answer)) :
    (s' = s ∧ ∃ e, fate = .lost e ∧ answer = .error e) ∨
      (s' = (call s).1 ∧ ∃ e, fate = .unanswered e ∧ answer = .error e) ∨
      (s' = (call s).1 ∧ fate = .answered ∧ answer = (call s).2) := by
  cases fate with
  | lost e =>
    obtain ⟨rfl, rfl⟩ := Prod.mk.inj h
    exact Or.inl ⟨rfl, e, rfl, rfl⟩
  | unanswered e =>
    obtain ⟨rfl, rfl⟩ := Prod.mk.inj h
    exact Or.inr (Or.inl ⟨rfl, e, rfl, rfl⟩)
  | answered =>
    have hfst : (call s).1 = s' := congrArg Prod.fst h
    have hsnd : (call s).2 = answer := congrArg Prod.snd h
    exact Or.inr (Or.inr ⟨hfst.symm, rfl, hsnd.symm⟩)

/-- What the call itself keeps, it keeps through the network. -/
theorem Fate.keeps_deliver {σ α : Type} {P : σ → Prop} {call : σ → σ × Except Exn α} {s : σ}
    (fate : Fate) (hcall : P s → P (call s).1) (hP : P s) : P (fate.deliver call s).1 := by
  cases fate with
  | lost e => exact hP
  | unanswered e | answered => exact hcall hP

/-- A client with the token calls. -/
def DaemonEvent.Calls (token : Text) : DaemonEvent → Prop
  | .authenticate _ _ token' => token' = token
  | .reset .. | .abort .. | .getNextFile .. | .readChunk .. | .postFile .. | .writeChunk .. => True
  | _ => False

namespace Client

/-- What every call of a client with the token keeps. -/
theorem serverKeeps_of_step (cfg : DaemonConfig) (n : NetworkAnswers) {token : Text} {P : Daemon → Prop}
    (hstep : ∀ d e, e.Calls token → P d → P ((Daemon.machine cfg).step d e)) :
    ServerKeeps (n.remote cfg .direct) token P := by
  have hevent : ∀ {α : Type} {seen : Exn → Exn} {call : Daemon → Daemon × Except Exn α} {d : Daemon}
      {e : DaemonEvent} (fate : Fate), (call d).1 = (Daemon.machine cfg).step d e → e.Calls token →
      P d → P (fate.deliver (relay seen call) d).1 := by
    intro α seen call d e fate heq hcalls hP
    apply fate.keeps_deliver _ hP
    intro h
    rw [relay_fst, heq]
    exact hstep d e hcalls h
  refine ⟨⟨id, ?_, ?_, ?_, ?_⟩, ?_, ?_, ?_⟩
  · intro id d
    exact hevent n.authFate (Srv.step_authenticate n.junk token) rfl
  · intro id filter d
    exact hevent n.getFate (Srv.step_getNextFile n.limit n.src filter) trivial
  · intro id d
    exact hevent n.readFate (Srv.step_readChunk n.avail) trivial
  · intro id result d
    exact hevent n.postFate (Srv.step_postFile n.opens result) trivial
  · intro id data d hP
    by_cases hsize : data.length < 2 ^ 63
    · simp only [NetworkAnswers.remote, hsize, dif_pos]
      exact hevent n.writeFate (Srv.step_writeChunk n.written n.flushed ⟨data, hsize⟩) trivial hP
    · simp only [NetworkAnswers.remote, hsize, dif_neg, not_false_eq_true]
      exact hP
  · intro id d
    exact hevent n.resetFate (Srv.step_reset n.resetFlushed) trivial
  · intro id d
    exact hevent n.abortFate Srv.step_abort trivial

/-- Nobody but the client uses the daemon, and nobody uses another token. -/
theorem serverKeeps_single (cfg : DaemonConfig) (n : NetworkAnswers) (token : Text) :
    ServerKeeps (n.remote cfg .direct) token (Single token) := by
  apply serverKeeps_of_step cfg n
  -- only one of the calls brings a token along
  intro d e hcalls hsingle
  apply (Daemon.step_does cfg d e).single hsingle
  rintro id junk token' rfl
  exact hcalls

end Client

end MediaArchiver
