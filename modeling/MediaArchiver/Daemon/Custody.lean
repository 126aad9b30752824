/-
# MediaArchiver.Daemon.Custody -- whose file a session touches

`abort` resets the id of the session, and the mover records a result under the id the session had when it
queued the entry. Nothing compares these ids with what `getNextFile` returned. So the daemon is watched:
the watcher writes down for each client, known by its token, the file it was given and has neither
handed over nor given up (`Custody`), and for each entry of the mover the file its client had.

A client that was given a file goes by its id, or by none. The exception is a new session, whose id
nothing initialises: the first `getNextFile` sets it, but a client may post a result before, and that is
accepted for whatever stands there. Without such a client every row that `postFile`, `writeChunk`,
`abort` or the mover change is the client's own (`touches_own`).
-/
import Mathlib.Logic.Function.Basic
import MediaArchiver.Store.Frame
import MediaArchiver.Daemon.InOrder
import MediaArchiver.Daemon.Candidates

namespace MediaArchiver

open Lib (Machine Table WriteAnswer)
open Connections (TokensUnique)
open ConnectedClient (SameFile Idle HandsOver Readable)
open Store (ChangesOnly ZeroFree)

/-- What the watcher knows of a client: the file it was given, and whether it ever asked for one. -/
structure Custody where
  file : Option Nat
  asked : Bool
deriving DecidableEq

/-- A client that just came. -/
def Custody.fresh : Custody := ⟨none, false⟩

/-- The daemon, what its clients were given, and what the clients had that the mover's entries are from. -/
structure Watched where
  daemon : Daemon
  sessions : Text → Custody
  queued : List (Option Nat)
  moving : Option Nat

/-- The file that `getNextFile` returns to an idle session. -/
def Daemon.returned (d : Daemon) (limit : LimitOne) (src : SourceAnswers)
    (filter : MediaFileRequirements) : Option Nat :=
  if d.stopRequested then none
  else
    match (d.db.getNextFile limit filter).2 with
    | some (srcId, file) => if Readable src file then some srcId else none
    | none => none

namespace Custody

/-- The session has a stream open, so that it takes no file and has one to give up. -/
def busy (cli : ConnectedClient) : Bool := cli.inFile.isOpen || cli.outFile.isOpen

/-- What the watcher knows after a call. -/
def after (cfg : DaemonConfig) (d : Daemon) (cli : ConnectedClient) (g : Custody) :
    DaemonEvent → Custody
  | .getNextFile _ limit src filter =>
      if busy cli then g else ⟨d.returned limit src filter, true⟩
  | .abort _ => if busy cli then { g with file := none } else g
  | e => if (cli.leaves cfg d e).2.isSome then { g with file := none } else g

end Custody

namespace Watched

/-- A daemon that was just started. -/
def start (db : Store) : Watched := ⟨Daemon.start db, fun _ => .fresh, [], none⟩

/-- The file of the client behind a session. -/
def holds (w : Watched) (id : SessionId) : Option Nat :=
  match w.daemon.session id with
  | some cli => (w.sessions cli.token).file
  | none => none

/-- What the watcher notes of a call. -/
def noteCall (cfg : DaemonConfig) (w : Watched) (id : SessionId) (e : DaemonEvent) : Watched :=
  match w.daemon.session id with
  | some cli =>
      let g := w.sessions cli.token
      { w with
        sessions := Function.update w.sessions cli.token (g.after cfg w.daemon cli e)
        queued := w.queued ++ (cli.leaves cfg w.daemon e).2.toList.map fun _ => g.file }
  | none => w

/-- What the watcher notes of an event. -/
def note (cfg : DaemonConfig) (w : Watched) (e : DaemonEvent) : Watched :=
  match e with
  | .authenticate _ _ token =>
      -- a token that is known brings its file along
      if w.daemon.connections.rows.any fun r => r.2.token = token then w
      else { w with sessions := Function.update w.sessions token .fresh }
  | .reset id _ | .abort id | .getNextFile id .. | .readChunk id _ | .postFile id ..
  | .writeChunk id .. => w.noteCall cfg id e
  | .moverTake =>
      match w.daemon.moving, w.queued with
      | none, own :: rest => { w with queued := rest, moving := own }
      | _, _ => w
  | .restart => start w.daemon.db
  | .fileSystemChange .. | .moverFinish _ | .stop => w

/-- The daemon under watch. Watching does not change it. -/
def machine (cfg : DaemonConfig) : Machine Watched DaemonEvent where
  step w e := { w.note cfg e with daemon := (Daemon.machine cfg).step w.daemon e }

theorem daemon_run (cfg : DaemonConfig) (w : Watched) (es : List DaemonEvent) :
    ((machine cfg).run w es).daemon = (Daemon.machine cfg).run w.daemon es := by
  induction es generalizing w with
  | nil => rfl
  | cons e es ih => exact ih _

end Watched

/-! ## A session goes by the file of its client -/

namespace Custody

/-- The session has no id, or that of its client's file, or it is new and has done nothing yet. -/
def Covers (g : Custody) (cli : ConnectedClient) : Prop :=
  cli.originalFileId = 0 ∨ g.file = some cli.originalFileId ∨ (g.asked = false ∧ busy cli = false)

variable {cfg : DaemonConfig} {d : Daemon} {g : Custody} {cli cli' : ConnectedClient}

theorem busy_eq_false : busy cli = false ↔ cli.inFile.isOpen = false ∧ cli.outFile.isOpen = false :=
  Bool.or_eq_false_iff

theorem Covers.keep (h : g.Covers cli) (same : SameFile cli cli')
    (hidle : busy cli = false → busy cli' = false) : g.Covers cli' := by
  rcases h with hzero | hfile | ⟨hasked, hbusy⟩
  · exact Or.inl (same.id.trans hzero)
  · exact Or.inr (Or.inl (by rw [same.id]; exact hfile))
  · exact Or.inr (Or.inr ⟨hasked, hidle hbusy⟩)

/-- A session that has something open goes by the file of its client, or by none. -/
theorem Covers.of_busy (h : g.Covers cli) (hbusy : busy cli = true) (hid : cli.originalFileId ≠ 0) :
    g.file = some cli.originalFileId := by
  rcases h with hzero | hfile | ⟨-, hidle⟩
  · exact absurd hzero hid
  · exact hfile
  · rw [hidle] at hbusy
    cases hbusy

/-- So does one whose client asked for a file. -/
theorem Covers.of_asked (h : g.Covers cli) (hasked : g.asked = true) (hid : cli.originalFileId ≠ 0) :
    g.file = some cli.originalFileId := by
  rcases h with hzero | hfile | ⟨hnot, -⟩
  · exact absurd hzero hid
  · exact hfile
  · rw [hnot] at hasked
    cases hasked

theorem covers_reset (h : g.Covers cli) (flushed : Nat) : g.Covers (cli.reset flushed) := by
  refine h.keep (cli.reset_spec flushed) fun hidle => ?_
  obtain ⟨hin, hout⟩ := busy_eq_false.mp hidle
  rw [ConnectedClient.reset, hin, hout]
  exact hidle

theorem covers_readChunk (h : g.Covers cli) (avail : Nat) : g.Covers (cli.readChunk cfg avail).1 := by
  refine h.keep (cli.readChunk_spec cfg avail) fun hidle => ?_
  obtain ⟨hin, hout⟩ := busy_eq_false.mp hidle
  rw [ConnectedClient.readChunk, hin]
  exact hidle

/-- An idle session that asked for a file goes by the one it was given. -/
theorem covers_getNextFile (hbusy : busy cli = false) (limit : LimitOne) (src : SourceAnswers)
    (filter : MediaFileRequirements) :
    (Custody.mk (d.returned limit src filter) true).Covers
      (cli.getNextFile cfg d.stopRequested d.db limit src filter).2.1 := by
  obtain ⟨hin, hout⟩ := busy_eq_false.mp hbusy
  rcases ConnectedClient.getNextFile_cases hin hout cfg d.stopRequested d.db limit src filter with
    ⟨-, heq⟩ | ⟨db', srcId, file, hstop, hdb, ⟨-, e, -, heq⟩ | ⟨hread, c, heq, hserves, -, -⟩⟩
  · rw [heq]
    exact Or.inl rfl
  · rw [heq]
    exact Or.inl rfl
  · have hreturned : d.returned limit src filter = some srcId := by
      simp only [Daemon.returned, hstop, hdb, hread, if_true, Bool.false_eq_true, if_false]
    rw [heq, hreturned]
    exact Or.inr (Or.inl (congrArg some hserves.id.symm))

/-- A session that gave its file up or handed it over has no id. -/
theorem covers_idle (idle : Idle cli cli') : g.Covers cli' := Or.inl idle.id

/-- A client posts a result that can be accepted under an id only after it asked for a file. -/
def AsksFirst (g : Custody) (cli : ConnectedClient) (opens : Bool) (result : EncodingResultInfo) :
    Prop :=
  (result.Uploads → opens = true) → cli.originalFileId ≠ 0 → g.asked = true

instance (g : Custody) (cli : ConnectedClient) (opens : Bool) (result : EncodingResultInfo) :
    Decidable (g.AsksFirst cli opens result) :=
  inferInstanceAs (Decidable (_ → _ → _))

/-- The entry goes by a file that the client had, or by none. -/
def Owns (own : Option Nat) (ftm : FileToMove) : Prop :=
  ftm.result.originalFileId ≠ 0 → own = some ftm.result.originalFileId

/-- A result that is refused, for an upload, because the temp file does not open. -/
theorem covers_postFile_refused (h : g.Covers cli) {result : EncodingResultInfo}
    (hup : result.Uploads) (hsame : SameFile cli (cli.postFile cfg false result).client) :
    g.Covers (cli.postFile cfg false result).client := by
  refine h.keep hsame fun hidle => ?_
  obtain ⟨hin, hout⟩ := busy_eq_false.mp hidle
  simp only [ConnectedClient.postFile, hin, ConnectedClient.acceptResult, hout, hup, if_true, if_false,
    Bool.false_eq_true]
  exact busy_eq_false.mpr ⟨hin, rfl⟩

theorem covers_postFile (h : g.Covers cli) {opens : Bool} {result : EncodingResultInfo}
    (hasks : g.AsksFirst cli opens result) :
    (∀ move ∈ (cli.postFile cfg opens result).queued, Owns g.file move) ∧
      (if (cli.postFile cfg opens result).queued.isSome then { g with file := none } else g).Covers
        (cli.postFile cfg opens result).client := by
  rcases cli.postFile_spec cfg opens result with ⟨hq, hsame⟩ | ⟨hup, move, hq, hands⟩
  · rw [hq]
    refine ⟨fun move hmove => (by cases hmove), ?_⟩
    by_cases haccept : result.Uploads → opens = true
    · by_cases hid : cli.originalFileId = 0
      · exact Or.inl (hsame.id.trans hid)
      · refine Or.inr (Or.inl ?_)
        rw [hsame.id]
        exact h.of_asked (hasks haccept hid) hid
    · rw [Classical.not_imp, Bool.not_eq_true] at haccept
      obtain ⟨hup, rfl⟩ := haccept
      exact covers_postFile_refused h hup hsame
  · rw [hq]
    refine ⟨?_, covers_idle hands.toIdle⟩
    intro move' hmove hid
    obtain rfl := Option.some.inj hmove
    rw [hands.moveId] at hid ⊢
    exact h.of_asked (hasks (fun h => absurd h hup) hid) hid

theorem covers_writeChunk (h : g.Covers cli) (written : WriteAnswer UInt8) (flushed : Nat)
    (data : DataChunk) :
    (∀ move ∈ (cli.writeChunk cfg written flushed data).queued, Owns g.file move) ∧
      (if (cli.writeChunk cfg written flushed data).queued.isSome then { g with file := none }
        else g).Covers (cli.writeChunk cfg written flushed data).client := by
  rcases cli.writeChunk_spec cfg written flushed data with ⟨hq, hsame⟩ | ⟨hout, move, hq, hands⟩
  · rw [hq]
    refine ⟨fun move hmove => (by cases hmove), ?_⟩
    refine h.keep hsame fun hidle => ?_
    have hrefuses : cli.refuses data = true := by
      rw [ConnectedClient.refuses, (busy_eq_false.mp hidle).2]
      simp
    rw [ConnectedClient.writeChunk_of_refuses hrefuses]
    exact hidle
  · rw [hq]
    refine ⟨?_, covers_idle hands.toIdle⟩
    intro move' hmove hid
    obtain rfl := Option.some.inj hmove
    rw [hands.moveId] at hid ⊢
    exact h.of_busy (by rw [busy, hout, Bool.or_true]) hid

end Custody

/-! ## The invariant -/

/-- No event gives a row to the id that stands for no file. -/
theorem Daemon.Does.zeroFree {cfg : DaemonConfig} {d d' : Daemon} {e : DaemonEvent}
    (hdoes : Daemon.Does cfg d e d') (h : d.db.ZeroFree)
    (hmoving : ∀ ftm, d.moving = some ftm → ftm.result.originalFileId ≠ 0) : d'.db.ZeroFree := by
  cases hdoes with
  | nothing | authenticate | keep | forget | postFile | writeChunk | drop | take | stop | restart =>
    exact h
  | reserve _ _ _ hdb => exact h.getNextFile hdb
  | strand _ _ _ _ hdb => exact h.getNextFile hdb
  | abort => exact h.reset _
  | addFile => exact h.addFile _ _ _
  | @finish outcome ftm hftm =>
    obtain ⟨file, hfile, hid, -⟩ := ftm.record_spec outcome
    simp only [Store.finishMove, hfile]
    exact h.addEncodedFile (hid ▸ hmoving ftm hftm)

namespace Watched

open Custody (busy busy_eq_false Owns)

variable {cfg : DaemonConfig} {w : Watched} {e : DaemonEvent}

/-- A client with a file of its own posts results for no other: it asks before it posts. -/
def AsksFirst (w : Watched) : DaemonEvent → Prop
  | .postFile id opens result =>
      ∀ cli ∈ w.daemon.session id, (w.sessions cli.token).AsksFirst cli opens result
  | _ => True

instance (w : Watched) : DecidablePred (AsksFirst w)
  | .postFile .. => inferInstanceAs (Decidable (∀ cli ∈ _, Custody.AsksFirst _ _ _ _))
  | .authenticate .. | .reset .. | .abort .. | .getNextFile .. | .readChunk .. | .writeChunk ..
  | .fileSystemChange .. | .moverTake | .moverFinish _ | .stop | .restart =>
      inferInstanceAs (Decidable True)

/-- Every session goes by the file of its client, and every entry by the file its client had. -/
structure Sound (w : Watched) : Prop where
  tokens : TokensUnique w.daemon.connections
  zero : w.daemon.db.ZeroFree
  sessions : ∀ r ∈ w.daemon.connections.rows, (w.sessions r.2.token).Covers r.2
  queued : List.Forall₂ Owns w.queued w.daemon.filesToMove
  moving : ∀ ftm, w.daemon.moving = some ftm →
    ftm.result.originalFileId ≠ 0 ∧ w.moving = some ftm.result.originalFileId

theorem sound_start {db : Store} (h : db.ZeroFree) : Sound (start db) where
  tokens := Daemon.tokensUnique_start db
  zero := h
  sessions := fun _ hr => absurd hr List.not_mem_nil
  queued := .nil
  moving := nofun

theorem Sound.session (h : Sound w) {id : SessionId} {cli : ConnectedClient}
    (hcli : w.daemon.session id = some cli) : (w.sessions cli.token).Covers cli :=
  h.sessions (id, cli) (w.daemon.connections.find?_eq_some.mp hcli)

/-- A session is replaced, with what the watcher knows of its client. -/
theorem Sound.store (h : Sound w) {id : SessionId} {cli cli' : ConnectedClient}
    (hcli : w.daemon.session id = some cli) (htoken : cli'.token = cli.token) {g : Custody}
    (hcovers : g.Covers cli') {queued : Option FileToMove}
    (hqueued : ∀ move ∈ queued, Owns (w.sessions cli.token).file move) {db' : Store}
    (hzero : db'.ZeroFree) :
    Sound
      { daemon := { w.daemon.store id cli' queued with db := db' }
        sessions := Function.update w.sessions cli.token g
        queued := w.queued ++ queued.toList.map fun _ => (w.sessions cli.token).file
        moving := w.moving } := by
  have hmem : (id, cli) ∈ w.daemon.connections.rows := w.daemon.connections.find?_eq_some.mp hcli
  refine ⟨Connections.tokensUnique_insert h.tokens hcli htoken, hzero, ?_, ?_, h.moving⟩
  · intro r hr
    show (Function.update w.sessions cli.token g r.2.token).Covers r.2
    rcases (w.daemon.connections.mem_insert id cli' r).mp hr with rfl | ⟨hr, hid⟩
    · rw [htoken, Function.update_self]
      exact hcovers
    · have hother : r.2.token ≠ cli.token := fun heq =>
        hid (congrArg Prod.fst (h.tokens r hr (id, cli) hmem heq))
      rw [Function.update_of_ne hother]
      exact h.sessions r hr
  · refine List.rel_append h.queued ?_
    cases queued with
    | none => exact .nil
    | some move => exact .cons (hqueued move rfl) .nil

/-- What a call leaves of its session, and what it queues, go by the file of the client. -/
theorem covers_leaves {cli : ConnectedClient} {id : SessionId} (hcovers : (w.sessions cli.token).Covers cli)
    (hcli : w.daemon.session id = some cli) (hid : e.caller = some id) (hasks : AsksFirst w e) :
    (∀ move ∈ (cli.leaves cfg w.daemon e).2, Owns (w.sessions cli.token).file move) ∧
      ((w.sessions cli.token).after cfg w.daemon cli e).Covers (cli.leaves cfg w.daemon e).1 := by
  have hnone : ∀ move ∈ (none : Option FileToMove), Owns (w.sessions cli.token).file move :=
    fun move hmove => by cases hmove
  cases e with
  | reset id' flushed => exact ⟨hnone, Custody.covers_reset hcovers flushed⟩
  | readChunk id' avail => exact ⟨hnone, Custody.covers_readChunk hcovers avail⟩
  | abort id' =>
    refine ⟨hnone, ?_⟩
    rcases cli.abort_spec with ⟨heq, hin, hout⟩ | ⟨-, hidle⟩
    · have hbusy : busy cli = false := busy_eq_false.mpr ⟨hin, hout⟩
      simp only [ConnectedClient.leaves, Custody.after, heq, hbusy, Bool.false_eq_true, if_false]
      exact hcovers
    · exact Custody.covers_idle hidle
  | getNextFile id' limit src filter =>
    refine ⟨hnone, ?_⟩
    simp only [ConnectedClient.leaves, Custody.after]
    by_cases hbusy : busy cli = true
    · obtain ⟨e, heq⟩ := cli.getNextFile_of_busy cfg w.daemon.stopRequested w.daemon.db limit src
        filter (Bool.or_eq_true_iff.mp hbusy)
      rw [heq, if_pos hbusy]
      exact hcovers
    · rw [if_neg hbusy]
      exact Custody.covers_getNextFile (Bool.not_eq_true _ ▸ hbusy) limit src filter
  | postFile id' opens result =>
    obtain rfl := Option.some.inj hid
    exact Custody.covers_postFile hcovers (hasks cli hcli)
  | writeChunk id' written flushed data => exact Custody.covers_writeChunk hcovers written flushed data
  | authenticate | fileSystemChange | moverTake | moverFinish | stop | restart => cases hid

/-- Every call of a session. -/
theorem Sound.call (h : Sound w) {id : SessionId} (hid : e.caller = some id) (hasks : AsksFirst w e) :
    Sound { w.noteCall cfg id e with daemon := (Daemon.machine cfg).step w.daemon e } := by
  have hzero := (Daemon.step_does cfg w.daemon e).zeroFree h.zero fun ftm hftm => (h.moving ftm hftm).1
  rcases Daemon.step_of_caller cfg hid with ⟨hnone, hstep⟩ | ⟨cli, db, hcli, hstep⟩
  · rw [hstep, noteCall, hnone]
    exact h
  · rw [hstep] at hzero
    rw [hstep, noteCall, hcli]
    obtain ⟨hmove, hafter⟩ := covers_leaves (h.session hcli) hcli hid hasks
    exact h.store hcli (cli.token_leaves cfg w.daemon e) hafter hmove hzero

theorem Sound.authenticate (h : Sound w) (cfg : DaemonConfig) (id : SessionId) (junk : Uninitialised)
    (token : Text) : Sound ((machine cfg).step w (.authenticate id junk token)) := by
  have htokens := Connections.tokensUnique_authenticate h.tokens id junk token
  simp only [machine, note]
  rcases w.daemon.connections.known_cases junk token with ⟨hknown, s, hs, hbound⟩ | ⟨hnew, hbound⟩
  · rw [if_pos hknown]
    refine ⟨htokens, h.zero, ?_, h.queued, h.moving⟩
    intro r hr
    rcases Connections.mem_authenticate.mp hr with rfl | ⟨⟨hr, -⟩, -⟩
    · rw [hbound]
      exact h.sessions s hs
    · exact h.sessions r hr
  · rw [if_neg (Bool.not_eq_true _ ▸ hnew)]
    refine ⟨htokens, h.zero, ?_, h.queued, h.moving⟩
    intro r hr
    show (Function.update w.sessions token .fresh r.2.token).Covers r.2
    rcases Connections.mem_authenticate.mp hr with rfl | ⟨⟨hr, htoken⟩, -⟩
    · rw [Connections.token_bound, Function.update_self, hbound]
      exact Or.inr (Or.inr ⟨rfl, rfl⟩)
    · rw [Function.update_of_ne htoken]
      exact h.sessions r hr

/-- The mover takes an entry, and the watcher what it knows of it. -/
theorem Sound.moverTake (h : Sound w) (cfg : DaemonConfig) :
    Sound ((machine cfg).step w .moverTake) := by
  have hqueued := h.queued
  simp only [machine, note, Daemon.machine, Daemon.step, Daemon.moverTake]
  cases hmoving : w.daemon.moving with
  | some ftm => exact ⟨h.tokens, h.zero, h.sessions, hqueued, h.moving⟩
  | none =>
    cases hfiles : w.daemon.filesToMove with
    | nil =>
      rw [hfiles] at hqueued
      rw [List.forall₂_nil_right_iff.mp hqueued]
      exact ⟨h.tokens, h.zero, h.sessions, h.queued, h.moving⟩
    | cons ftm rest =>
      rw [hfiles] at hqueued
      obtain ⟨own, owns, hown, howns, hw⟩ := List.forall₂_cons_right_iff.mp hqueued
      rw [hw]
      by_cases hid : ftm.result.originalFileId = 0
      · -- an entry without an id is dropped
        simp only [hid, if_true]
        exact ⟨h.tokens, h.zero, h.sessions, howns, fun ftm' hftm => by cases hftm⟩
      · simp only [hid, if_false]
        refine ⟨h.tokens, h.zero, h.sessions, howns, fun ftm' hftm => ?_⟩
        obtain rfl := Option.some.inj hftm
        exact ⟨hid, hown hid⟩

/-- Every event. -/
theorem Sound.step (h : Sound w) (cfg : DaemonConfig) (hasks : AsksFirst w e) :
    Sound ((machine cfg).step w e) := by
  have hzero := (Daemon.step_does cfg w.daemon e).zeroFree h.zero fun ftm hftm => (h.moving ftm hftm).1
  cases e with
  | authenticate id junk token => exact h.authenticate cfg id junk token
  | reset | abort | getNextFile | readChunk | postFile | writeChunk => exact h.call rfl hasks
  | moverTake => exact h.moverTake cfg
  | fileSystemChange getFileSize e dst =>
    simp only [Daemon.machine, Daemon.step, Daemon.fileSystemChange] at hzero
    simp only [machine, note, Daemon.machine, Daemon.step, Daemon.fileSystemChange]
    cases hcall : cfg.addFileCall getFileSize e dst with
    | none => exact ⟨h.tokens, h.zero, h.sessions, h.queued, h.moving⟩
    | some call =>
      rw [hcall] at hzero
      exact ⟨h.tokens, hzero, h.sessions, h.queued, h.moving⟩
  | moverFinish outcome =>
    simp only [Daemon.machine, Daemon.step, Daemon.moverFinish] at hzero
    simp only [machine, note, Daemon.machine, Daemon.step, Daemon.moverFinish]
    cases hmoving : w.daemon.moving with
    | none => exact ⟨h.tokens, h.zero, h.sessions, h.queued, h.moving⟩
    | some ftm =>
      rw [hmoving] at hzero
      exact ⟨h.tokens, hzero, h.sessions, h.queued, fun ftm' hftm => by cases hftm⟩
  | stop => exact ⟨h.tokens, h.zero, h.sessions, h.queued, h.moving⟩
  | restart => exact sound_start h.zero

/-! ## What the calls and the mover touch -/

/-- The rows that the event changes are those of the client's file: the file of the client that calls,
or that the client of the entry had. A client without a file changes none. -/
def TouchesOwn (w : Watched) (e : DaemonEvent) (db' : Store) : Prop :=
  match e with
  | .abort id | .postFile id .. | .writeChunk id .. => ChangesOnly (w.holds id) w.daemon.db db'
  | .moverFinish _ => ChangesOnly w.moving w.daemon.db db'
  | _ => True

/-- A session that gives something up gives up the file of its client. -/
theorem Sound.touchesOwn_abort (h : Sound w) (cfg : DaemonConfig) (id : SessionId) :
    TouchesOwn w (.abort id) ((Daemon.machine cfg).step w.daemon (.abort id)).db := by
  simp only [TouchesOwn, holds, Daemon.machine, Daemon.step]
  cases hcli : w.daemon.session id with
  | none => exact Store.changesOnly_refl _ _
  | some cli =>
    simp only [Daemon.call, Daemon.abort]
    rcases cli.abort_spec with ⟨heq, -, -⟩ | ⟨hreleased, -⟩
    · rw [heq]
      exact Store.changesOnly_refl _ _
    · simp only [hreleased]
      by_cases hid : cli.originalFileId = 0
      · rw [hid, h.zero.reset_zero]
        exact Store.changesOnly_refl _ _
      · have hbusy : busy cli = true := by
          by_contra hidle
          have hclosed : ¬ (cli.inFile.isOpen || cli.outFile.isOpen) = true := hidle
          rw [ConnectedClient.abort, if_neg hclosed] at hreleased
          cases hreleased
        rw [(h.session hcli).of_busy hbusy hid]
        exact w.daemon.db.changesOnly_reset cli.originalFileId

/-- Every event of a sound state. -/
theorem Sound.touchesOwn (h : Sound w) (cfg : DaemonConfig) (e : DaemonEvent) :
    TouchesOwn w e ((Daemon.machine cfg).step w.daemon e).db := by
  cases e with
  | abort id => exact h.touchesOwn_abort cfg id
  | postFile id opens result =>
    refine Store.ChangesOnly.of_eq ?_
    simp only [Daemon.machine, Daemon.step]
    cases w.daemon.session id <;> rfl
  | writeChunk id written flushed data =>
    refine Store.ChangesOnly.of_eq ?_
    simp only [Daemon.machine, Daemon.step]
    cases w.daemon.session id <;> rfl
  | moverFinish outcome =>
    simp only [TouchesOwn, Daemon.machine, Daemon.step, Daemon.moverFinish]
    cases hmoving : w.daemon.moving with
    | none => exact Store.changesOnly_refl _ _
    | some ftm =>
      obtain ⟨-, hown⟩ := h.moving ftm hmoving
      obtain ⟨file, hfile, hid, -⟩ := ftm.record_spec outcome
      rw [hown, ← hid]
      simp only [Store.finishMove, hfile]
      exact w.daemon.db.changesOnly_addEncodedFile file
  | authenticate | reset | getNextFile | readChunk | fileSystemChange | moverTake | stop | restart =>
    trivial

/-- In every run in which clients ask before they post, whatever comes next touches its client's own
rows only. -/
theorem touches_own (cfg : DaemonConfig) {es : List DaemonEvent}
    (hasks : (machine cfg).Along AsksFirst (start .empty) es) (e : DaemonEvent) :
    ((machine cfg).run (start .empty) es).daemon = (Daemon.machine cfg).run (Daemon.start .empty) es ∧
      TouchesOwn ((machine cfg).run (start .empty) es) e
        ((Daemon.machine cfg).step ((machine cfg).run (start .empty) es).daemon e).db := by
  refine ⟨daemon_run cfg (start .empty) es, ?_⟩
  have hsound := (machine cfg).invariant (P := Sound) (fun w e h hask => h.step cfg hask)
    (sound_start Store.zeroFree_empty) hasks
  exact hsound.touchesOwn cfg e

/-- Two clients with a file each; one of them comes back on another connection and gives up. -/
theorem touches_own_reconnect :
    let w := (machine gCfg).run (start .empty)
      [Daemon.discovers "a.mov".toList [], Daemon.discovers "b.mov".toList [],
       .authenticate 1 ⟨9, .zero⟩ "first".toList, .authenticate 2 ⟨1, .zero⟩ "second".toList,
       Daemon.fetches 1, Daemon.fetches 2, .authenticate 3 ⟨2, .zero⟩ "first".toList]
    w.holds 3 = some 1 ∧
      ChangesOnly (some 1) w.daemon.db ((Daemon.machine gCfg).step w.daemon (.abort 3)).db := by
  intro w
  have hasks : (machine gCfg).Along AsksFirst (start .empty)
      [Daemon.discovers "a.mov".toList [], Daemon.discovers "b.mov".toList [],
       .authenticate 1 ⟨9, .zero⟩ "first".toList, .authenticate 2 ⟨1, .zero⟩ "second".toList,
       Daemon.fetches 1, Daemon.fetches 2, .authenticate 3 ⟨2, .zero⟩ "first".toList] := by decide
  have hholds : w.holds 3 = some 1 := by decide
  exact ⟨hholds, hholds ▸ (touches_own gCfg hasks (.abort 3)).2⟩

/-- A client that never asked for a file posts a failure. In the memory of its session stands the id of
another client's file, and that is recorded as failed. -/
theorem touches_other :
    let w := (machine gCfg).run (start .empty)
      [Daemon.discovers "a.mov".toList [], .authenticate 1 ⟨0, .zero⟩ "first".toList,
       Daemon.fetches 1, .authenticate 2 ⟨1, .zero⟩ "second".toList,
       .postFile 2 true ⟨-1, 0, []⟩, .moverTake]
    w.holds 1 = some 1 ∧ w.holds 2 = none ∧ w.moving = none ∧
      ¬ TouchesOwn w (.moverFinish .moved)
        ((Daemon.machine gCfg).step w.daemon (.moverFinish .moved)).db := by
  intro w
  refine ⟨by decide, by decide, by decide, fun h => ?_⟩
  have hsame := (h 1 (by decide)).1
  exact absurd hsame (by decide)

end Watched

end MediaArchiver
