/-
# MediaArchiver.Daemon.Calls -- the functions that are bound to the server, with their answers

The machine of `MediaArchiver.Daemon.System` has events and no answers, because its invariants are about
what the daemon keeps. A client sees the answers, too. Here each function of the server is given as what it
does to the daemon and what it answers; what it does is an event of the machine (`step_reset` and the
others).

`postFile_again_iff` is about a client that did not see the answer of `postFile` and posts the result
once more, on the same connection or after it came back on another one. A failure is queued a second time
without an id, which the mover drops. For an upload the output file is open already, and the call is
refused.
-/
import MediaArchiver.Daemon.Sessions

namespace MediaArchiver

open Lib (Machine WriteAnswer)
open Connections (TokensUnique)

namespace Daemon

/-- What `checkClient` throws. -/
def notAuthenticated : Exn := .outOfRange "map::at".toList

/-- A function of a client that is known. -/
def withClient {α : Type} (d : Daemon) (id : SessionId)
    (f : ConnectedClient → Daemon × Except Exn α) : Daemon × Except Exn α :=
  match d.session id with
  | some cli => f cli
  | none => (d, .error notAuthenticated)

namespace Srv

def authenticate (id : SessionId) (junk : Uninitialised) (token : Text) (d : Daemon) :
    Daemon × Except Exn Unit :=
  ({ d with connections := d.connections.authenticate id junk token }, .ok ())

def reset (id : SessionId) (flushed : Nat) (d : Daemon) : Daemon × Except Exn Unit :=
  d.withClient id fun cli => (d.store id (cli.reset flushed) none, .ok ())

def abort (id : SessionId) (d : Daemon) : Daemon × Except Exn Unit :=
  d.withClient id fun cli => (d.abort id cli, .ok ())

def getNextFile (cfg : DaemonConfig) (id : SessionId) (limit : LimitOne) (src : SourceAnswers)
    (filter : MediaFileRequirements) (d : Daemon) : Daemon × Except Exn MediaEncoderSettings :=
  d.withClient id fun cli =>
    let (db, cli, answer) := cli.getNextFile cfg d.stopRequested d.db limit src filter
    ({ d.store id cli none with db := db }, answer)

def readChunk (cfg : DaemonConfig) (id : SessionId) (avail : Nat) (d : Daemon) :
    Daemon × Except Exn (Bool × Bytes) :=
  d.withClient id fun cli =>
    let (cli, answer) := cli.readChunk cfg avail
    (d.store id cli none, answer)

def postFile (cfg : DaemonConfig) (id : SessionId) (opens : Bool) (result : EncodingResultInfo)
    (d : Daemon) : Daemon × Except Exn Unit :=
  d.withClient id fun cli =>
    let reply := cli.postFile cfg opens result
    (d.store id reply.client reply.queued, reply.answer)

/-- No message is longer than a vector can be. -/
def writeChunk (cfg : DaemonConfig) (id : SessionId) (written : WriteAnswer UInt8) (flushed : Nat)
    (data : Bytes) (d : Daemon) : Daemon × Except Exn Bool :=
  if h : data.length < 2 ^ 63 then
    d.withClient id fun cli =>
      let reply := cli.writeChunk cfg written flushed ⟨data, h⟩
      (d.store id reply.client reply.queued, reply.answer)
  else (d, .error (.runtimeError "vector".toList))

/-! ## They are the events of the machine -/

variable {cfg : DaemonConfig} {d : Daemon} {id : SessionId}

theorem step_authenticate (junk : Uninitialised) (token : Text) :
    (authenticate id junk token d).1 = (machine cfg).step d (.authenticate id junk token) := rfl

theorem step_reset (flushed : Nat) :
    (reset id flushed d).1 = (machine cfg).step d (.reset id flushed) := by
  simp only [reset, withClient, machine, step]
  cases d.session id <;> rfl

theorem step_abort : (abort id d).1 = (machine cfg).step d (.abort id) := by
  simp only [abort, withClient, machine, step]
  cases d.session id <;> rfl

theorem step_getNextFile (limit : LimitOne) (src : SourceAnswers) (filter : MediaFileRequirements) :
    (getNextFile cfg id limit src filter d).1
      = (machine cfg).step d (.getNextFile id limit src filter) := by
  simp only [getNextFile, withClient, machine, step]
  cases d.session id <;> rfl

theorem step_readChunk (avail : Nat) :
    (readChunk cfg id avail d).1 = (machine cfg).step d (.readChunk id avail) := by
  simp only [readChunk, withClient, machine, step]
  cases d.session id <;> rfl

theorem step_postFile (opens : Bool) (result : EncodingResultInfo) :
    (postFile cfg id opens result d).1 = (machine cfg).step d (.postFile id opens result) := by
  simp only [postFile, withClient, machine, step]
  cases d.session id <;> rfl

theorem step_writeChunk (written : WriteAnswer UInt8) (flushed : Nat) (data : DataChunk) :
    (writeChunk cfg id written flushed data.bytes d).1
      = (machine cfg).step d (.writeChunk id written flushed data) := by
  simp only [writeChunk, withClient, machine, step, data.size_lt, dif_pos]
  cases d.session id <;> rfl

end Srv

end Daemon

/-! ## Posting a result twice -/

namespace ConnectedClient

variable {cfg : DaemonConfig} {cli : ConnectedClient} {opens : Bool} {result : EncodingResultInfo}

/-- An accepted failure clears the session. -/
theorem postFile_failure (hup : ¬ result.Uploads)
    (hans : (cli.postFile cfg opens result).answer = .ok ()) :
    ∃ c, cli.postFile cfg opens result
      = ⟨(prepareNewSession c cfg).1, some (prepareNewSession c cfg).2, .ok ()⟩ := by
  rcases cli.postFile_cases cfg opens result with ⟨c, e, -, heq⟩ | ⟨c, -, -, heq⟩
  · rw [heq] at hans
    cases hans
  · rw [heq] at hans ⊢
    by_cases hopen : c.outFile.isOpen = true
    · simp only [acceptResult, hopen, if_true] at hans
      cases hans
    · refine ⟨{ c with encResult := result }, ?_⟩
      simp only [acceptResult, hopen, hup, if_false, Bool.false_eq_true]

/-- A failure posted to a cleared session is queued without an id, and the session stays cleared. -/
theorem postFile_prepared (cfg : DaemonConfig) (opens : Bool) (hup : ¬ result.Uploads)
    (c : ConnectedClient) : ∃ move, (prepareNewSession c cfg).1.postFile cfg opens result
        = ⟨(prepareNewSession c cfg).1, some move, .ok ()⟩
      ∧ move.result.originalFileId = 0 := by
  refine ⟨(prepareNewSession { (prepareNewSession c cfg).1 with encResult := result } cfg).2, ?_, rfl⟩
  simp only [postFile, prepareNewSession, Lib.InStream.closed, Lib.OutStream.closed, acceptResult,
    hup, if_false, Bool.false_eq_true]

/-- A session that receives an upload takes no result. -/
theorem postFile_of_open (hin : cli.inFile.isOpen = false) (hout : cli.outFile.isOpen = true) :
    cli.postFile cfg opens result
      = ⟨cli, none, .error (.runtimeError "Output file is still open".toList)⟩ := by
  simp only [postFile, hin, acceptResult, hout, if_true, if_false, Bool.false_eq_true]

end ConnectedClient

namespace Daemon

open ConnectedClient (postFile_failure postFile_prepared postFile_of_open)

variable {cfg : DaemonConfig} {d : Daemon} {id : SessionId} {cli : ConnectedClient}

/-- The entries that the mover works on. It drops those without an id. -/
def effects (d : Daemon) : List FileToMove :=
  d.filesToMove.filter fun ftm => ftm.result.originalFileId ≠ 0

/-- The client comes back on another connection, or stays on its own. -/
def comesBack (id : SessionId) (token : Text) (d : Daemon) :
    Option (SessionId × Uninitialised) → SessionId × Daemon
  | some (id', junk) => (id', (Srv.authenticate id' junk token d).1)
  | none => (id, d)

/-- What a client has done to the daemon is the same: its session, the entries for the mover, the
database. -/
structure SameEffects (id : SessionId) (d : Daemon) (id' : SessionId) (d' : Daemon) : Prop where
  session : d'.session id' = d.session id
  effects : d'.effects = d.effects
  moving : d'.moving = d.moving
  db : d'.db = d.db

@[simp] theorem session_store (d : Daemon) (id : SessionId) (cli : ConnectedClient)
    (queued : Option FileToMove) : (d.store id cli queued).session id = some cli :=
  Lib.Table.find?_insert_self ..

/-- A client that comes back finds its session. -/
theorem sameEffects_comesBack (hu : TokensUnique d.connections) (hcli : d.session id = some cli)
    (back : Option (SessionId × Uninitialised)) :
    SameEffects id d (d.comesBack id cli.token back).1 (d.comesBack id cli.token back).2 := by
  cases back with
  | none => exact ⟨rfl, rfl, rfl, rfl⟩
  | some back =>
    obtain ⟨id', junk⟩ := back
    refine ⟨?_, rfl, rfl, rfl⟩
    have hmem : (id, cli) ∈ d.connections.rows := d.connections.find?_eq_some.mp hcli
    show (d.connections.authenticate id' junk cli.token).find? id' = _
    rw [Connections.find?_authenticate, hcli]
    exact congrArg some (Connections.bound_of_mem hu junk hmem)

/-- Posting a result once more succeeds and changes nothing, exactly if the result announces no upload. -/
theorem postFile_again_iff (hu : TokensUnique d.connections) (hcli : d.session id = some cli)
    (result : EncodingResultInfo) (opens opens' : Bool)
    (hfirst : (Srv.postFile cfg id opens result d).2 = .ok ())
    (back : Option (SessionId × Uninitialised)) :
    let first := (Srv.postFile cfg id opens result d).1
    let again := first.comesBack id cli.token back
    let second := Srv.postFile cfg again.1 opens' result again.2
    (second.2 = .ok () ∧ SameEffects id first again.1 second.1) ↔ ¬ result.Uploads := by
  intro first again second
  have hpost : Srv.postFile cfg id opens result d
      = (d.store id (cli.postFile cfg opens result).client (cli.postFile cfg opens result).queued,
          (cli.postFile cfg opens result).answer) := by
    simp only [Srv.postFile, withClient, hcli]
  have hans : (cli.postFile cfg opens result).answer = .ok () := by
    rw [hpost] at hfirst
    exact hfirst
  -- the session after the first call, which the second call finds
  obtain ⟨c, hc⟩ : ∃ c, (cli.postFile cfg opens result).client = c := ⟨_, rfl⟩
  have hfirst' : first = d.store id c (cli.postFile cfg opens result).queued := by
    rw [← hc]
    exact congrArg Prod.fst hpost
  have hsession : first.session id = some c := by
    rw [hfirst', session_store]
  have htoken : c.token = cli.token := by
    rw [← hc]
    rcases cli.postFile_spec cfg opens result with ⟨-, hsame⟩ | ⟨-, move, -, hover⟩
    · exact hsame.token
    · exact hover.token
  have huniq : TokensUnique first.connections := by
    rw [hfirst', connections_store]
    exact Connections.tokensUnique_insert hu hcli htoken
  have hback : SameEffects id first again.1 again.2 := by
    have hsame := sameEffects_comesBack huniq hsession back
    rw [htoken] at hsame
    exact hsame
  have hagain : again.2.session again.1 = some c := hback.session.trans hsession
  have hsecond : second = (again.2.store again.1 (c.postFile cfg opens' result).client
      (c.postFile cfg opens' result).queued, (c.postFile cfg opens' result).answer) := by
    show Srv.postFile cfg again.1 opens' result again.2 = _
    simp only [Srv.postFile, withClient, hagain]
  by_cases hup : result.Uploads
  · -- the output file is open
    refine iff_of_false ?_ (not_not.mpr hup)
    obtain ⟨-, -, hin, hout, -⟩ := cli.postFile_uploads cfg opens hup hans
    rw [hc] at hin hout
    rw [hsecond, postFile_of_open hin (by rw [hout]; rfl)]
    rintro ⟨hok, -⟩
    cases hok
  · refine iff_of_true ?_ hup
    obtain ⟨c₀, hc₀⟩ := postFile_failure hup hans
    rw [hc₀] at hc
    obtain ⟨move, hmove, hid⟩ := postFile_prepared cfg opens' hup c₀
    rw [show c = (c₀.prepareNewSession cfg).1 from hc.symm, hmove] at hsecond
    rw [hsecond]
    refine ⟨rfl, ?_, ?_, hback.moving, hback.db⟩
    · rw [session_store, hsession, ← hc]
    · rw [← hback.effects]
      simp [effects, hid]

/-- A daemon whose one session has downloaded a file of one byte. -/
def afterDownload : Daemon :=
  (machine gCfg).run (start .empty)
    [discovers "a.mov".toList [], .authenticate 1 ⟨0, .zero⟩ "17".toList, fetches 1, .readChunk 1 1]

/-- A failure is posted, and posted again after the client came back on another connection. -/
theorem postFile_again_failure :
    let result : EncodingResultInfo := ⟨-50, 0, "Encoding failed".toList⟩
    let first := (Srv.postFile gCfg 1 true result afterDownload).1
    let again := first.comesBack 1 "17".toList (some (2, ⟨0, .zero⟩))
    let second := Srv.postFile gCfg again.1 true result again.2
    second.2 = .ok () ∧ SameEffects 1 first again.1 second.1 := by
  intro result first again second
  obtain ⟨cli, hcli, htoken⟩ :
      ∃ cli, afterDownload.session 1 = some cli ∧ cli.token = "17".toList := ⟨_, rfl, rfl⟩
  have hup : ¬ result.Uploads := by decide
  have hfirst : (Srv.postFile gCfg 1 true result afterDownload).2 = .ok () := rfl
  have hagain := (postFile_again_iff (tokensUnique_run gCfg .empty _) hcli result true true hfirst
    (some (2, ⟨0, .zero⟩))).mpr hup
  rw [htoken] at hagain
  exact hagain

/-- A result with an upload is posted twice on the same connection. -/
theorem postFile_again_upload :
    let result : EncodingResultInfo := ⟨5, 1, []⟩
    let first := Srv.postFile gCfg 1 true result afterDownload
    let second := Srv.postFile gCfg 1 true result first.1
    first.2 = .ok () ∧ second.2 = .error (.runtimeError "Output file is still open".toList)
      ∧ ¬ (second.2 = .ok () ∧ SameEffects 1 first.1 1 second.1) := by
  refine ⟨rfl, rfl, ?_⟩
  rintro ⟨hok, -⟩
  cases hok

end Daemon

end MediaArchiver
