/-
# MediaArchiver.Daemon.FileTimes -- the times of an archive

`getNextFile` records the access and modification time of the file that it hands out. They stay with the
session, also when its client comes back on another connection, go into the mover's queue with the result,
and are set when the archive is at its place. On the way they are set on the temp file, too, in
microseconds, but nothing is left of that.

A watcher writes down what was recorded for each client, for each entry of the queue and for the entry that
is moved, and the times of each archive. `moveFile` takes one time only and sets both to it. So the archive
of every run has the recorded times exactly if they were equal (`archived_times`).
-/
import MediaArchiver.Daemon.Custody

namespace MediaArchiver

open Lib (Machine Table WriteAnswer)
open Connections (TokensUnique)
open ConnectedClient (Readable)
open Custody (busy busy_eq_false)

/-! ## Setting times -/

/-- A time in whole microseconds, as `TIMESPEC_TO_TIMEVAL` makes it. -/
def Timespec.toMicroseconds (t : Timespec) : Timespec := { t with nsec := t.nsec / 1000 * 1000 }

/-- The times of a file after `setFileTimes`. -/
def setFileTimes (times : Times) : Times := ⟨times.atime.toMicroseconds, times.mtime.toMicroseconds⟩

/-- The times of an archive after `moveFile`, which is given the modification time. -/
def FileToMove.movedTimes (ftm : FileToMove) : Times := ⟨ftm.mtime, ftm.mtime⟩

theorem Timespec.toMicroseconds_eq_iff (t : Timespec) : t.toMicroseconds = t ↔ 1000 ∣ t.nsec := by
  rw [toMicroseconds, mk.injEq, Int.dvd_iff_emod_eq_zero]
  simp only [true_and]
  omega

/-- `setFileTimes` sets the given times exactly if they are whole microseconds. -/
theorem setFileTimes_eq_iff (times : Times) :
    setFileTimes times = times ↔ 1000 ∣ times.atime.nsec ∧ 1000 ∣ times.mtime.nsec := by
  rw [setFileTimes, Times.mk.injEq, Timespec.toMicroseconds_eq_iff, Timespec.toMicroseconds_eq_iff]

/-! ## What the handlers do to the times of a session -/

namespace ConnectedClient

variable (cli : ConnectedClient) (cfg : DaemonConfig)

@[simp] theorem times_reset (flushed : Nat) : (cli.reset flushed).times = cli.times := by
  unfold reset
  split_ifs <;> rfl

@[simp] theorem times_readChunk (avail : Nat) : (cli.readChunk cfg avail).1.times = cli.times := by
  unfold readChunk
  split_ifs with hopen
  · dsimp only
    split_ifs <;> rfl
  · rfl

@[simp] theorem times_abort : cli.abort.1.times = cli.times := by
  unfold abort
  split_ifs <;> rfl

/-- The entry has the times of the session. -/
def TimesOf (move : FileToMove) : Prop := move.atime = cli.times.atime ∧ move.mtime = cli.times.mtime

/-- The session keeps its times, or hands them over. -/
def HandsTimes (left : ConnectedClient) (queued : Option FileToMove) : Prop :=
  match queued with
  | none => left.times = cli.times
  | some move => cli.TimesOf move

theorem times_acceptResult (opens : Bool) (result : EncodingResultInfo) :
    cli.HandsTimes (cli.acceptResult cfg opens result).client
      (cli.acceptResult cfg opens result).queued := by
  unfold acceptResult
  split_ifs
  · exact rfl
  · exact rfl
  · exact rfl
  · exact ⟨rfl, rfl⟩

theorem times_postFile (opens : Bool) (result : EncodingResultInfo) :
    cli.HandsTimes (cli.postFile cfg opens result).client (cli.postFile cfg opens result).queued := by
  unfold postFile
  split_ifs
  · dsimp only
    split_ifs
    · exact rfl
    · exact times_acceptResult _ cfg opens result
  · exact cli.times_acceptResult cfg opens result

theorem times_writeChunk (written : WriteAnswer UInt8) (flushed : Nat) (data : DataChunk) :
    cli.HandsTimes (cli.writeChunk cfg written flushed data).client
      (cli.writeChunk cfg written flushed data).queued := by
  unfold writeChunk
  split_ifs
  · exact rfl
  · dsimp only
    split_ifs
    · exact rfl
    · exact ⟨rfl, rfl⟩

/-- What an idle session records that is given a file, and that nothing is recorded of it otherwise. -/
theorem times_getNextFile {cli : ConnectedClient} (hin : cli.inFile.isOpen = false)
    (hout : cli.outFile.isOpen = false) {db db' : Store} {limit : LimitOne} {src : SourceAnswers}
    {filter : MediaFileRequirements} {srcId : Nat} {file : BasicFileInfo}
    (hdb : db.getNextFile limit filter = (db', some (srcId, file))) (hread : Readable src file)
    {times : Times} (htimes : src.getFileTimes file.fileName = some times) :
    (cli.getNextFile cfg false db limit src filter).2.1.times = times := by
  obtain ⟨hsize, hcontent, -⟩ := hread
  obtain ⟨content, hcontent⟩ := Option.isSome_iff_exists.mp hcontent
  simp only [getNextFile, hin, hout, if_false, Bool.false_eq_true, hdb, openSource, hsize, hcontent, htimes]
  rfl

end ConnectedClient

/-! ## The watcher -/

/-- An archive that was moved to its place: what was recorded for its client, and its times. -/
structure Archived where
  recorded : Option Times
  times : Times
deriving DecidableEq

/-- The daemon under watch, with the times that were recorded for each client, for the entries of the mover's
queue and for the entry that is moved, and the archives. -/
structure Timed where
  watched : Watched
  recorded : Text → Option Times
  queued : List (Option Times)
  moving : Option Times
  archived : List Archived

/-- The times that `getNextFile` records for an idle session, if it returns a file. -/
def Daemon.recordedTimes (d : Daemon) (limit : LimitOne) (src : SourceAnswers)
    (filter : MediaFileRequirements) : Option Times :=
  if d.stopRequested then none
  else
    match (d.db.getNextFile limit filter).2 with
    | some (_, file) => if Readable src file then src.getFileTimes file.fileName else none
    | none => none

/-- What is recorded after a call. -/
def ConnectedClient.recordedAfter (cli : ConnectedClient) (cfg : DaemonConfig) (d : Daemon)
    (own : Option Times) : DaemonEvent → Option Times
  | .getNextFile _ limit src filter => if busy cli then own else d.recordedTimes limit src filter
  | .abort _ => if busy cli then none else own
  | e => if (cli.leaves cfg d e).2.isSome then none else own

namespace Timed

/-- The daemon that is watched. -/
abbrev daemon (w : Timed) : Daemon := w.watched.daemon

/-- A daemon that was just started. The archives are still there. -/
def start (db : Store) (archived : List Archived) : Timed :=
  ⟨.start db, fun _ => none, [], none, archived⟩

/-- What the watcher notes of a call. -/
def noteCall (cfg : DaemonConfig) (w : Timed) (id : SessionId) (e : DaemonEvent) : Timed :=
  match w.daemon.session id with
  | some cli =>
      let own := w.recorded cli.token
      { w with
        recorded := Function.update w.recorded cli.token (cli.recordedAfter cfg w.daemon own e)
        queued := w.queued ++ (cli.leaves cfg w.daemon e).2.toList.map fun _ => own }
  | none => w

/-- What the watcher notes of an event. -/
def note (cfg : DaemonConfig) (w : Timed) (e : DaemonEvent) : Timed :=
  match e with
  | .authenticate _ _ token =>
      -- a token that is known brings its times along
      if w.daemon.connections.rows.any fun r => r.2.token = token then w
      else { w with recorded := Function.update w.recorded token none }
  | .reset id _ | .abort id | .getNextFile id .. | .readChunk id _ | .postFile id ..
  | .writeChunk id .. => w.noteCall cfg id e
  | .moverTake =>
      match w.daemon.moving, w.queued with
      | none, own :: rest => { w with queued := rest, moving := own }
      | _, _ => w
  | .moverFinish outcome =>
      match w.daemon.moving with
      | some ftm =>
          if ftm.ToBeMoved ∧ outcome = .moved then
            { w with archived := w.archived ++ [⟨w.moving, ftm.movedTimes⟩] }
          else w
      | none => w
  | .restart => start w.daemon.db w.archived
  | .fileSystemChange .. | .stop => w

/-- Watching does not change the daemon. -/
def machine (cfg : DaemonConfig) : Machine Timed DaemonEvent where
  step w e := { w.note cfg e with watched := (Watched.machine cfg).step w.watched e }

theorem watched_run (cfg : DaemonConfig) (w : Timed) (es : List DaemonEvent) :
    ((machine cfg).run w es).watched = (Watched.machine cfg).run w.watched es := by
  induction es generalizing w with
  | nil => rfl
  | cons e es ih => exact ih _

/-! ## The invariant -/

/-- What was recorded for the entry is what it has. -/
def Carries (own : Option Times) (ftm : FileToMove) : Prop :=
  ∀ t, own = some t → ftm.atime = t.atime ∧ ftm.mtime = t.mtime

/-- What was recorded for a client is in its session, in its entry of the queue, and in the entry that is
moved. Of an archive both times are the modification time. -/
structure Kept (w : Timed) : Prop where
  tokens : TokensUnique w.daemon.connections
  sessions : ∀ r ∈ w.daemon.connections.rows, ∀ t, w.recorded r.2.token = some t → r.2.times = t
  queued : List.Forall₂ Carries w.queued w.daemon.filesToMove
  moving : ∀ ftm, w.daemon.moving = some ftm → Carries w.moving ftm
  archived : ∀ a ∈ w.archived, ∀ t, a.recorded = some t → a.times = ⟨t.mtime, t.mtime⟩

variable {cfg : DaemonConfig} {w : Timed} {e : DaemonEvent}

theorem kept_start (db : Store) {archived : List Archived}
    (h : ∀ a ∈ archived, ∀ t, a.recorded = some t → a.times = ⟨t.mtime, t.mtime⟩) :
    Kept (start db archived) where
  tokens := Daemon.tokensUnique_start db
  sessions := fun _ hr => absurd hr List.not_mem_nil
  queued := .nil
  moving := nofun
  archived := h

/-- Where the daemon stays as it is, nothing is noted. -/
theorem Kept.of_daemon_eq (h : Kept w) {watched : Watched} (heq : watched.daemon = w.daemon) :
    Kept { w with watched := watched } := by
  refine ⟨?_, ?_, ?_, ?_, h.archived⟩ <;> simp only [daemon, heq]
  · exact h.tokens
  · exact h.sessions
  · exact h.queued
  · exact h.moving

/-- A reply that keeps the times of its session, or hands them over. -/
theorem handsTimes_recorded {cli left : ConnectedClient} {queued : Option FileToMove} {own : Option Times}
    (hhands : cli.HandsTimes left queued) (hown : ∀ t, own = some t → cli.times = t) :
    (∀ move ∈ queued, Carries own move) ∧
      ∀ t, (if queued.isSome then none else own) = some t → left.times = t := by
  cases queued with
  | none => exact ⟨nofun, fun t ht => hhands.trans (hown t ht)⟩
  | some move =>
    refine ⟨fun move' hmove t ht => ?_, fun t ht => by cases ht⟩
    obtain rfl := Option.some.inj hmove
    rw [← hown t ht]
    exact hhands

/-- What is recorded after a `getNextFile` is in the session. -/
theorem times_of_recorded {cli : ConnectedClient} {d : Daemon} {own : Option Times} {id : SessionId}
    {limit : LimitOne} {src : SourceAnswers} {filter : MediaFileRequirements}
    (hown : ∀ t, own = some t → cli.times = t) {t : Times}
    (ht : cli.recordedAfter cfg d own (.getNextFile id limit src filter) = some t) :
    (cli.getNextFile cfg d.stopRequested d.db limit src filter).2.1.times = t := by
  simp only [ConnectedClient.recordedAfter] at ht
  by_cases hbusy : busy cli = true
  · rw [if_pos hbusy] at ht
    obtain ⟨e, heq⟩ := cli.getNextFile_of_busy cfg d.stopRequested d.db limit src filter
      (Bool.or_eq_true_iff.mp hbusy)
    rw [heq]
    exact hown t ht
  · obtain ⟨hin, hout⟩ := busy_eq_false.mp (Bool.not_eq_true _ ▸ hbusy)
    rw [if_neg hbusy, Daemon.recordedTimes] at ht
    cases hstop : d.stopRequested with
    | true =>
      rw [hstop, if_pos rfl] at ht
      cases ht
    | false =>
      rw [hstop, if_neg Bool.false_ne_true] at ht
      cases hdb : d.db.getNextFile limit filter with
      | mk db' found =>
        rw [hdb] at ht
        cases found with
        | none => cases ht
        | some found =>
          obtain ⟨srcId, file⟩ := found
          dsimp only at ht
          split_ifs at ht with hread
          exact cli.times_getNextFile cfg hin hout hdb hread ht

/-- What a call leaves has what is recorded after it. -/
theorem recorded_leaves (cfg : DaemonConfig) (d : Daemon) {cli : ConnectedClient} {own : Option Times}
    {id : SessionId} (hown : ∀ t, own = some t → cli.times = t) (hid : e.caller = some id) :
    (∀ move ∈ (cli.leaves cfg d e).2, Carries own move) ∧
      ∀ t, cli.recordedAfter cfg d own e = some t → (cli.leaves cfg d e).1.times = t := by
  have hnone : ∀ move ∈ (none : Option FileToMove), Carries own move := fun move hmove => by cases hmove
  cases e with
  | reset id' flushed => exact ⟨hnone, fun t ht => (cli.times_reset flushed).trans (hown t ht)⟩
  | readChunk id' avail => exact ⟨hnone, fun t ht => (cli.times_readChunk cfg avail).trans (hown t ht)⟩
  | abort id' =>
    refine ⟨hnone, fun t ht => cli.times_abort.trans ?_⟩
    simp only [ConnectedClient.recordedAfter] at ht
    split_ifs at ht
    exact hown t ht
  | getNextFile id' limit src filter => exact ⟨hnone, fun t ht => times_of_recorded hown ht⟩
  | postFile id' opens result => exact handsTimes_recorded (cli.times_postFile cfg opens result) hown
  | writeChunk id' written flushed data =>
    exact handsTimes_recorded (cli.times_writeChunk cfg written flushed data) hown
  | authenticate | fileSystemChange | moverTake | moverFinish | stop | restart => cases hid

/-- Every call of a session. -/
theorem Kept.call (h : Kept w) {id : SessionId} (hid : e.caller = some id)
    (hnote : w.note cfg e = w.noteCall cfg id e) : Kept ((machine cfg).step w e) := by
  simp only [machine, hnote]
  have hdaemon : ((Watched.machine cfg).step w.watched e).daemon = (Daemon.machine cfg).step w.daemon e := rfl
  rcases Daemon.step_of_caller cfg hid with ⟨hnone, hstep⟩ | ⟨cli, db, hcli, hstep⟩
  · rw [noteCall, hnone]
    exact h.of_daemon_eq (hdaemon.trans hstep)
  · have hmem : (id, cli) ∈ w.daemon.connections.rows := w.daemon.connections.find?_eq_some.mp hcli
    have htoken := cli.token_leaves cfg w.daemon e
    obtain ⟨hmove, hleft⟩ := recorded_leaves cfg w.daemon (h.sessions _ hmem) hid
    rw [noteCall, hcli]
    refine ⟨?_, ?_, ?_, ?_, h.archived⟩ <;> simp only [daemon, hdaemon, hstep]
    · exact Connections.tokensUnique_insert h.tokens hcli htoken
    · intro r hr t ht
      rcases (w.daemon.connections.mem_insert id _ r).mp hr with rfl | ⟨hr, hne⟩
      · rw [htoken, Function.update_self] at ht
        exact hleft t ht
      · have hother : r.2.token ≠ cli.token := fun heq =>
          hne (congrArg Prod.fst (h.tokens r hr (id, cli) hmem heq))
        rw [Function.update_of_ne hother] at ht
        exact h.sessions r hr t ht
    · refine List.rel_append h.queued ?_
      cases hqueued : (cli.leaves cfg w.daemon e).2 with
      | none => exact .nil
      | some move => exact .cons (hmove move hqueued) .nil
    · exact h.moving

/-- A client that comes back finds what was recorded for it. -/
theorem Kept.authenticate (h : Kept w) (cfg : DaemonConfig) (id : SessionId) (junk : Uninitialised)
    (token : Text) : Kept ((machine cfg).step w (.authenticate id junk token)) := by
  have htokens := Connections.tokensUnique_authenticate h.tokens id junk token
  simp only [machine, note]
  rcases w.daemon.connections.known_cases junk token with ⟨hknown, s, hs, hbound⟩ | ⟨hnew, -⟩
  · rw [if_pos hknown]
    refine ⟨htokens, fun r hr => ?_, h.queued, h.moving, h.archived⟩
    rcases Connections.mem_authenticate.mp hr with rfl | ⟨⟨hr, -⟩, -⟩
    · rw [hbound]
      exact h.sessions s hs
    · exact h.sessions r hr
  · rw [if_neg (Bool.not_eq_true _ ▸ hnew)]
    refine ⟨htokens, fun r hr t ht => ?_, h.queued, h.moving, h.archived⟩
    dsimp only at ht
    rcases Connections.mem_authenticate.mp hr with rfl | ⟨⟨hr, htoken⟩, -⟩
    · rw [Connections.token_bound, Function.update_self] at ht
      cases ht
    · rw [Function.update_of_ne htoken] at ht
      exact h.sessions r hr t ht

/-- The mover takes an entry, and the watcher what was recorded for it. -/
theorem Kept.moverTake (h : Kept w) (cfg : DaemonConfig) : Kept ((machine cfg).step w .moverTake) := by
  have hqueued := h.queued
  have hstep : ((Watched.machine cfg).step w.watched .moverTake).daemon = w.daemon.moverTake := rfl
  unfold Daemon.moverTake at hstep
  simp only [machine, note]
  cases hmoving : w.daemon.moving with
  | some ftm =>
    rw [hmoving] at hstep
    exact h.of_daemon_eq hstep
  | none =>
    rw [hmoving] at hstep
    cases hfiles : w.daemon.filesToMove with
    | nil =>
      rw [hfiles] at hqueued hstep
      rw [List.forall₂_nil_right_iff.mp hqueued]
      exact h.of_daemon_eq hstep
    | cons ftm rest =>
      rw [hfiles] at hqueued hstep
      obtain ⟨own, owns, hown, howns, hw⟩ := List.forall₂_cons_right_iff.mp hqueued
      rw [hw]
      dsimp only at hstep
      split_ifs at hstep with hid <;> refine ⟨?_, ?_, ?_, ?_, h.archived⟩ <;> rw [daemon, hstep]
      · exact h.tokens
      · exact h.sessions
      · exact howns
      · -- an entry without an id is dropped
        intro ftm' hftm
        cases hftm
      · exact h.tokens
      · exact h.sessions
      · exact howns
      · intro ftm' hftm
        obtain rfl := Option.some.inj hftm
        exact hown

/-- The mover is done with an entry. -/
theorem Kept.moverFinish (h : Kept w) (cfg : DaemonConfig) (outcome : MoveOutcome) :
    Kept ((machine cfg).step w (.moverFinish outcome)) := by
  simp only [machine, note, Watched.machine, Watched.note, Daemon.machine, Daemon.step, Daemon.moverFinish]
  cases hmoving : w.daemon.moving with
  | none => exact ⟨h.tokens, h.sessions, h.queued, h.moving, h.archived⟩
  | some ftm =>
    have hnone : ∀ ftm', (none : Option FileToMove) = some ftm' → Carries w.moving ftm' := by
      intro ftm' hftm
      cases hftm
    dsimp only
    split_ifs with hmoved
    · refine ⟨h.tokens, h.sessions, h.queued, hnone, fun a ha t ht => ?_⟩
      rcases List.mem_append.mp ha with hbefore | hnew
      · exact h.archived a hbefore t ht
      · obtain rfl := List.mem_singleton.mp hnew
        rw [FileToMove.movedTimes, (h.moving ftm hmoving t ht).2]
    · exact ⟨h.tokens, h.sessions, h.queued, hnone, h.archived⟩

/-- Every event. -/
theorem Kept.step (h : Kept w) (cfg : DaemonConfig) (e : DaemonEvent) : Kept ((machine cfg).step w e) := by
  cases e with
  | authenticate id junk token => exact h.authenticate cfg id junk token
  | reset | abort | getNextFile | readChunk | postFile | writeChunk => exact h.call rfl rfl
  | moverTake => exact h.moverTake cfg
  | moverFinish outcome => exact h.moverFinish cfg outcome
  | fileSystemChange getFileSize e dst =>
    simp only [machine, note, Watched.machine, Watched.note, Daemon.machine, Daemon.step,
      Daemon.fileSystemChange]
    cases hcall : cfg.addFileCall getFileSize e dst with
    | none => exact ⟨h.tokens, h.sessions, h.queued, h.moving, h.archived⟩
    | some call => exact ⟨h.tokens, h.sessions, h.queued, h.moving, h.archived⟩
  | stop => exact ⟨h.tokens, h.sessions, h.queued, h.moving, h.archived⟩
  | restart => exact kept_start w.daemon.db h.archived

/-- Every run. -/
theorem kept_run (cfg : DaemonConfig) (db : Store) (es : List DaemonEvent) :
    Kept ((machine cfg).run (start db []) es) :=
  (machine cfg).invariant_always (fun _ e h => h.step cfg e)
    (kept_start db fun _ ha => absurd ha List.not_mem_nil) es

/-- An archive that was moved to its place in any run has the times that were recorded when its original was
handed out, exactly if these were equal. -/
theorem archived_times (cfg : DaemonConfig) (db : Store) (es : List DaemonEvent) {a : Archived}
    (ha : a ∈ ((machine cfg).run (start db []) es).archived) {t : Times} (ht : a.recorded = some t) :
    a.times = t ↔ t.atime = t.mtime := by
  rw [(kept_run cfg db es).archived a ha t ht]
  cases t with
  | mk atime mtime =>
    rw [Times.mk.injEq]
    exact ⟨fun h => h.1.symm, fun h => ⟨h.symm, rfl⟩⟩

/-- A session of one film whose client comes back before the upload. The film has the given times. -/
def reconnects (times : Times) : List DaemonEvent :=
  [Daemon.discovers "a.mov".toList [], .authenticate 1 ⟨9, .zero⟩ "first".toList,
   .getNextFile 1 .first ⟨fun _ => some [7], fun _ => some times⟩ ⟨[], 0⟩, .reset 1 0, .readChunk 1 1,
   .authenticate 2 ⟨0, .zero⟩ "first".toList] ++ (Daemon.archives 2).drop 2

/-- A film that nobody looked at since it was made. -/
theorem archived_times_unread :
    let times : Times := ⟨⟨1700000000, 123456789⟩, ⟨1700000000, 123456789⟩⟩
    ((machine gCfg).run (start .empty []) (reconnects times)).archived = [⟨some times, times⟩]
      ∧ (times = times ↔ times.atime = times.mtime) := by
  intro times
  have hrun : ((machine gCfg).run (start .empty []) (reconnects times)).archived
      = [⟨some times, times⟩] := by decide
  exact ⟨hrun, archived_times gCfg .empty (reconnects times) (hrun ▸ List.mem_singleton_self _) rfl⟩

/-- A film that was looked at a second after it was made. The archive has lost that. -/
theorem archived_times_read :
    let times : Times := ⟨⟨1700000001, 0⟩, ⟨1700000000, 0⟩⟩
    ∃ a ∈ ((machine gCfg).run (start .empty []) (reconnects times)).archived,
      a.recorded = some times ∧ a.times ≠ times := by
  intro times
  exact ⟨⟨some times, ⟨times.mtime, times.mtime⟩⟩, by decide, rfl, by decide⟩

/-! ## For which archives something was recorded -/

/-- Times are recorded for a client, an entry or the entry that is moved exactly if a file is. -/
structure Known (w : Timed) : Prop where
  sessions : ∀ token, (w.recorded token).isSome = (w.watched.sessions token).file.isSome
  queued : w.queued.map Option.isSome = w.watched.queued.map Option.isSome
  moving : w.moving.isSome = w.watched.moving.isSome

theorem known_start (db : Store) (archived : List Archived) : Known (start db archived) where
  sessions := fun _ => rfl
  queued := rfl
  moving := rfl

/-- `getNextFile` records times exactly if it returns a file. -/
theorem isSome_recordedTimes (d : Daemon) (limit : LimitOne) (src : SourceAnswers)
    (filter : MediaFileRequirements) :
    (d.recordedTimes limit src filter).isSome = (d.returned limit src filter).isSome := by
  unfold Daemon.recordedTimes Daemon.returned
  split_ifs
  · rfl
  · cases (d.db.getNextFile limit filter).2 with
    | none => rfl
    | some found =>
      dsimp only
      split_ifs with hread
      · exact hread.2.2
      · rfl

theorem isSome_recordedAfter {cli : ConnectedClient} {d : Daemon} {own : Option Times} {g : Custody}
    {id : SessionId} (h : own.isSome = g.file.isSome) (hid : e.caller = some id) :
    (cli.recordedAfter cfg d own e).isSome = (g.after cfg d cli e).file.isSome := by
  have hleaves : ∀ queued : Bool,
      (if queued then none else own).isSome
        = (if queued then { g with file := none } else g).file.isSome := by
    intro queued
    cases queued with
    | false => exact h
    | true => rfl
  cases e with
  | getNextFile id' limit src filter =>
    simp only [ConnectedClient.recordedAfter, Custody.after]
    split_ifs
    · exact h
    · exact isSome_recordedTimes d limit src filter
  | reset | readChunk => exact hleaves false
  | abort | postFile | writeChunk => exact hleaves _
  | authenticate | fileSystemChange | moverTake | moverFinish | stop | restart => cases hid

theorem Known.call (h : Known w) {id : SessionId} (hid : e.caller = some id)
    (hnote : w.note cfg e = w.noteCall cfg id e)
    (hwatch : w.watched.note cfg e = w.watched.noteCall cfg id e) : Known ((machine cfg).step w e) := by
  simp only [machine, Watched.machine, hnote, hwatch]
  rw [noteCall, Watched.noteCall]
  cases hcli : w.daemon.session id with
  | none => exact ⟨h.sessions, h.queued, h.moving⟩
  | some cli =>
    refine ⟨fun token => ?_, ?_, h.moving⟩
    · by_cases htoken : token = cli.token
      · subst htoken
        simp only [Function.update_self]
        exact isSome_recordedAfter (h.sessions _) hid
      · simp only [Function.update_of_ne htoken]
        exact h.sessions token
    · simp only [List.map_append, List.map_map]
      rw [h.queued]
      refine congrArg _ (List.map_congr_left fun _ _ => ?_)
      exact h.sessions cli.token

theorem Known.step (h : Known w) (cfg : DaemonConfig) (e : DaemonEvent) : Known ((machine cfg).step w e) := by
  cases e with
  | reset | abort | getNextFile | readChunk | postFile | writeChunk => exact h.call rfl rfl rfl
  | authenticate id junk token =>
    simp only [machine, note, Watched.machine, Watched.note]
    split_ifs
    · exact ⟨h.sessions, h.queued, h.moving⟩
    · refine ⟨fun token' => ?_, h.queued, h.moving⟩
      by_cases htoken : token' = token
      · subst htoken
        simp only [Function.update_self]
        rfl
      · simp only [Function.update_of_ne htoken]
        exact h.sessions token'
  | moverTake =>
    have hqueued := h.queued
    simp only [machine, note, Watched.machine, Watched.note]
    cases hmoving : w.daemon.moving with
    | some ftm => exact ⟨h.sessions, h.queued, h.moving⟩
    | none =>
      cases hown : w.queued with
      | nil =>
        cases hfile : w.watched.queued with
        | nil => exact ⟨h.sessions, h.queued, h.moving⟩
        | cons file files =>
          rw [hown, hfile] at hqueued
          cases hqueued
      | cons own owns =>
        cases hfile : w.watched.queued with
        | nil =>
          rw [hown, hfile] at hqueued
          cases hqueued
        | cons file files =>
          rw [hown, hfile] at hqueued
          obtain ⟨hhead, htail⟩ := List.cons.inj hqueued
          exact ⟨h.sessions, htail, hhead⟩
  | moverFinish outcome =>
    simp only [machine, note, Watched.machine, Watched.note]
    cases hmoving : w.daemon.moving with
    | none => exact ⟨h.sessions, h.queued, h.moving⟩
    | some ftm =>
      dsimp only
      split_ifs <;> exact ⟨h.sessions, h.queued, h.moving⟩
  | restart => exact known_start _ _
  | fileSystemChange | stop => exact ⟨h.sessions, h.queued, h.moving⟩

/-- Each archive is one of a client for which something was recorded. -/
structure Tracked (w : Timed) : Prop where
  sound : Watched.Sound w.watched
  known : Known w
  archived : ∀ a ∈ w.archived, a.recorded.isSome = true

theorem Tracked.step (h : Tracked w) (cfg : DaemonConfig) (hasks : w.watched.AsksFirst e) :
    Tracked ((machine cfg).step w e) := by
  refine ⟨h.sound.step cfg hasks, h.known.step cfg e, ?_⟩
  cases e with
  | moverFinish outcome =>
    simp only [machine, note]
    cases hmoving : w.daemon.moving with
    | none => exact h.archived
    | some ftm =>
      dsimp only
      split_ifs with hmoved
      · intro a ha
        rcases List.mem_append.mp ha with hbefore | hnew
        · exact h.archived a hbefore
        · obtain rfl := List.mem_singleton.mp hnew
          show w.moving.isSome = true
          rw [h.known.moving, (h.sound.moving ftm hmoving).2]
          rfl
      · exact h.archived
  | reset | abort | getNextFile | readChunk | postFile | writeChunk =>
    simp only [machine, note, noteCall]
    split <;> exact h.archived
  | authenticate id junk token =>
    simp only [machine, note]
    split_ifs <;> exact h.archived
  | moverTake =>
    simp only [machine, note]
    split <;> exact h.archived
  | fileSystemChange | stop | restart => exact h.archived

/-- Where clients ask for a file before they post a result, times were recorded for every archive. -/
theorem isSome_recorded (cfg : DaemonConfig) {db : Store} (hzero : db.ZeroFree) {es : List DaemonEvent}
    (hasks : (machine cfg).Along (fun w e => w.watched.AsksFirst e) (start db []) es) :
    ∀ a ∈ ((machine cfg).run (start db []) es).archived, a.recorded.isSome = true := by
  have hstep : ∀ w e, Tracked w → w.watched.AsksFirst e → Tracked ((machine cfg).step w e) :=
    fun w e h hask => h.step cfg hask
  have hstart : Tracked (start db []) :=
    ⟨Watched.sound_start hzero, known_start db [], fun _ ha => absurd ha List.not_mem_nil⟩
  exact ((machine cfg).invariant hstep hstart hasks).archived

end Timed

end MediaArchiver
