/-
# MediaArchiver.Daemon.Archives -- what the status "done" means, and whether it stays

Status 5 stands for a source whose archive exists. It is written in four places: twice by the source
part and the archive part of `addFile` each, and once by `addEncodedFile` when the mover records a
success. Two questions about whole runs.

Is a done file archived? `addFile` is one call and keeps the two together unless the archive it is
given is known for another source already; the mover keeps them together unless a client posted success
with a length of zero. Away from these two (`Archiving`) done means archived (`done_archived`).

Does a done file stay done? `addFile` never takes the status back and `getNextFile` never offers the
file. But a session may still hold it, if the watcher found the archive in the meantime: then giving
the file up sets the status back, and a failure that the mover records replaces it. Away from these two
(`Settling`) done stays done (`done_stays`). That rests on the tables being in order, which they are as long
as no archive is recorded for an id that nobody catalogued. A new session may go by such an id by accident
(`strays`), and post a result under it.
-/
import MediaArchiver.Daemon.Sessions

namespace MediaArchiver

open Lib (Machine)
open Store (movedStatus not_offerable_done)

namespace Daemon

variable {cfg : DaemonConfig} {d d' : Daemon} {e : DaemonEvent} {strays : List Nat}

/-! ## Done means archived -/

/-- Every done file has an archive, and the catalogue knows each path once. -/
structure DoneArchived (d : Daemon) : Prop where
  paths : d.db.PathsUnique
  done : ∀ id, 5 ∈ d.db.statuses id → d.db.archives.HasKey id

/-- The step records a file as done together with its archive only. -/
def Archiving (cfg : DaemonConfig) (d : Daemon) : DaemonEvent → Prop
  -- an archive that is known already is not reported with a source that has to be queued
  | .fileSystemChange getFileSize e dst =>
      ∀ call ∈ cfg.addFileCall getFileSize e dst, d.db.MayPair call.src call.dst
  -- success without a length is not recorded for a queued file without an archive
  | .moverFinish _ =>
      ∀ ftm ∈ d.moving, ftm.result.result = EncodingResult.ok.value → ftm.result.fileLength = 0 →
        d.db.statuses ftm.result.originalFileId = [] ∨
          d.db.archives.HasKey ftm.result.originalFileId
  | _ => True

instance (cfg : DaemonConfig) (d : Daemon) : DecidablePred (Archiving cfg d)
  | .fileSystemChange .. => inferInstanceAs (Decidable (∀ call ∈ _, Store.MayPair _ _ _))
  | .moverFinish _ => inferInstanceAs (Decidable (∀ ftm ∈ _, _ → _ → _ ∨ _))
  | .authenticate .. | .reset .. | .abort .. | .getNextFile .. | .readChunk .. | .postFile ..
  | .writeChunk .. | .moverTake | .stop | .restart => inferInstanceAs (Decidable True)

theorem DoneArchived.getNextFile (h : DoneArchived d) {limit : LimitOne}
    {filter : MediaFileRequirements} {db' : Store} {srcId : Nat} {file : BasicFileInfo}
    (hdb : d.db.getNextFile limit filter = (db', some (srcId, file))) :
    db'.PathsUnique ∧ ∀ id, 5 ∈ db'.statuses id → db'.archives.HasKey id := by
  have hres := Store.reserves_of_getNextFile hdb
  refine ⟨h.paths.of_eq hres.sourcefiles, ?_⟩
  intro id hst
  rw [hres.archives]
  by_cases hid : id = srcId
  · rw [hid] at hst
    exact absurd (hres.started 5 hst) (by decide)
  · rw [hres.others id hid] at hst
    exact h.done id hst

theorem DoneArchived.finishMove (h : DoneArchived d) {ftm : FileToMove}
    (hftm : ftm.result.result = EncodingResult.ok.value → ftm.result.fileLength = 0 →
      d.db.statuses ftm.result.originalFileId = [] ∨
        d.db.archives.HasKey ftm.result.originalFileId) (outcome : MoveOutcome) (id : Nat)
    (hst : 5 ∈ (d.db.finishMove ftm outcome).statuses id) :
    (d.db.finishMove ftm outcome).archives.HasKey id := by
  rw [Store.hasKey_finishMove]
  rw [Store.statuses_finishMove] at hst
  by_cases hid : id = ftm.result.originalFileId
  · rw [if_pos hid] at hst
    obtain ⟨status, hmem, hfive⟩ := List.mem_map.mp hst
    unfold movedStatus at hfive
    split at hfive
    · exact absurd hfive (by decide)
    · rename_i hmoved
      have hok : ftm.result.result = EncodingResult.ok.value := Int8.toInt_inj.mp hfive
      by_cases hzero : ftm.result.fileLength = 0
      · rcases hftm hok hzero with hnil | hkey
        · rw [hid, hnil] at hmem
          exact absurd hmem List.not_mem_nil
        · exact Or.inr (hid ▸ hkey)
      · refine Or.inl ⟨hid, hzero, fun hto => ?_⟩
        by_contra hne
        exact hmoved ⟨hto, hne⟩
  · rw [if_neg hid] at hst
    exact Or.inr (h.done id hst)

theorem Does.doneArchived (hdoes : Does cfg d e d') (h : DoneArchived d)
    (harchiving : Archiving cfg d e) : DoneArchived d' := by
  cases hdoes with
  | nothing => exact h
  | authenticate => exact ⟨h.paths, h.done⟩
  | keep => exact ⟨h.paths, h.done⟩
  | forget => exact ⟨h.paths, h.done⟩
  | reserve _ _ _ hdb =>
    obtain ⟨hpaths, hdone⟩ := h.getNextFile hdb
    exact ⟨hpaths, hdone⟩
  | strand _ _ _ _ hdb =>
    obtain ⟨hpaths, hdone⟩ := h.getNextFile hdb
    exact ⟨hpaths, hdone⟩
  | abort =>
    refine ⟨h.paths, ?_⟩
    intro id hst
    have hst' : 5 ∈ (d.db.reset _).statuses id := hst
    rw [Store.statuses_reset] at hst'
    split at hst'
    · obtain ⟨_, _, hzero⟩ := List.mem_map.mp hst'
      exact absurd hzero (by decide)
    · exact h.done id hst'
  | postFile => exact ⟨h.paths, h.done⟩
  | writeChunk => exact ⟨h.paths, h.done⟩
  | @addFile getFileSize e dst call hcall =>
    refine ⟨d.db.pathsUnique_addFile call.src call.dst call.queue h.paths, ?_⟩
    intro id hst
    rcases d.db.done_addFile call.src call.dst call.queue h.paths (harchiving call hcall) hst with
      hbefore | hkey
    · exact d.db.hasKey_addFile call.src call.dst call.queue (h.done id hbefore)
    · exact hkey
  | drop => exact ⟨h.paths, h.done⟩
  | take => exact ⟨h.paths, h.done⟩
  | finish hmoving =>
    refine ⟨?_, h.finishMove (harchiving _ hmoving) _⟩
    exact h.paths.of_eq (d.db.sourcefiles_finishMove _ _)
  | stop => exact ⟨h.paths, h.done⟩
  | restart => exact ⟨h.paths, h.done⟩

theorem doneArchived_start : DoneArchived (start .empty) where
  paths := Store.wellFormed_empty.paths
  done := fun _ hst => absurd hst List.not_mem_nil

/-- In every run of archiving steps each done file has an archive. -/
theorem done_archived (cfg : DaemonConfig) {es : List DaemonEvent}
    (hes : (machine cfg).Along (Archiving cfg) (start .empty) es) :
    ∀ id, 5 ∈ ((machine cfg).run (start .empty) es).db.statuses id →
      ((machine cfg).run (start .empty) es).db.archives.HasKey id :=
  ((machine cfg).invariant (fun d e h he => (step_does cfg d e).doneArchived h he)
    doneArchived_start hes).done

/-- A source is archived by a client, and reported again with its archive. -/
theorem done_archived_again :
    let d := (machine gCfg).run (start .empty)
      ([discovers "a.mov".toList [], .authenticate 1 ⟨0, .zero⟩ "t".toList] ++ archives 1
        ++ [discovers "a.mov".toList ["a_archived.mp4".toList]])
    5 ∈ d.db.statuses 1 ∧ d.db.archives.HasKey 1 :=
  ⟨by decide, done_archived gCfg (by decide) 1 (by decide)⟩

/-- A client posts success with a length of zero; and a source is reported whose archive is known as
that of another source. Both files are done, and neither has an archive. -/
theorem done_without_archive :
    (let db := ((machine gCfg).run (start .empty)
        [discovers "a.mov".toList [], .authenticate 1 ⟨0, .zero⟩ "t".toList, fetches 1,
         .readChunk 1 1, .postFile 1 true ⟨5, 0, []⟩, .moverTake, .moverFinish .moved]).db
     5 ∈ db.statuses 1 ∧ ¬ db.archives.HasKey 1) ∧
    (let db := ((machine gCfg).run (start .empty)
        ([discovers "a.mov".toList [], .authenticate 1 ⟨0, .zero⟩ "t".toList] ++ archives 1
          ++ [discovers "a.avi".toList ["a_archived.mp4".toList]])).db
     5 ∈ db.statuses 2 ∧ ¬ db.archives.HasKey 2) := by
  decide

/-! ## Done stays done -/

/-- The step does not take the status of a done file back, and keeps the tables in order. `strays` has the ids
by which new sessions may go. -/
def Settling (strays : List Nat) (d : Daemon) : DaemonEvent → Prop
  | .authenticate _ junk token =>
      (∀ r ∈ d.connections.rows, r.2.token ≠ token) →
        junk.originalFileId = 0 ∨ junk.originalFileId ∈ strays
  -- a session does not give up a file that is done
  | .abort id =>
      ∀ cli ∈ d.session id, cli.inFile.isOpen = true ∨ cli.outFile.isOpen = true →
        5 ∉ d.db.statuses cli.originalFileId
  -- for a file that is done, the mover records a success, and an archive for a file that is catalogued
  | .moverFinish outcome =>
      ∀ ftm ∈ d.moving,
        (5 ∈ d.db.statuses ftm.result.originalFileId →
          ftm.result.result = EncodingResult.ok.value
            ∧ (ftm.result.fileLength ≠ 0 → outcome = .moved)) ∧
          (ftm.result.originalFileId ∈ strays → ftm.result.fileLength ≠ 0 →
            d.db.sourcefiles.HasKey ftm.result.originalFileId)
  | _ => True

instance (strays : List Nat) (d : Daemon) : DecidablePred (Settling strays d)
  | .authenticate .. => inferInstanceAs (Decidable ((∀ r ∈ _, _) → _ ∨ _))
  | .abort _ => inferInstanceAs (Decidable (∀ cli ∈ _, _ ∨ _ → _))
  | .moverFinish _ => inferInstanceAs (Decidable (∀ ftm ∈ _, (_ → _ ∧ (_ → _)) ∧ (_ → _ → _)))
  | .reset .. | .getNextFile .. | .readChunk .. | .postFile .. | .writeChunk .. | .fileSystemChange ..
  | .moverTake | .stop | .restart => inferInstanceAs (Decidable True)

theorem Settling.staysOrdered (h : Settling strays d e) : StaysOrdered strays d e := by
  cases e with
  | authenticate id junk token => exact h
  | moverFinish outcome => exact fun ftm hmoving => (h ftm hmoving).2
  | _ => trivial

theorem movedStatus_done {ftm : FileToMove} {outcome : MoveOutcome}
    (h : ftm.result.result = EncodingResult.ok.value
      ∧ (ftm.result.fileLength ≠ 0 → outcome = .moved)) : movedStatus ftm outcome = 5 := by
  unfold movedStatus
  rw [if_neg, h.1]
  · rfl
  · rintro ⟨hto, hne⟩
    exact hne (h.2 (FileToMove.toBeMoved_iff.mp hto).2)

theorem statuses_getNextFile_done {db db' : Store} {limit : LimitOne}
    {filter : MediaFileRequirements} {srcId : Nat} {file : BasicFileInfo}
    (hdb : db.getNextFile limit filter = (db', some (srcId, file))) {id : Nat}
    (hdone : db.statuses id = [5]) : db'.statuses id = [5] := by
  have hres := Store.reserves_of_getNextFile hdb
  have hne : id ≠ srcId := by
    rintro rfl
    apply not_offerable_done
    rw [← hdone]
    exact hres.offerable
  rw [hres.others id hne, hdone]

theorem Does.done (hdoes : Does cfg d e d') (hknown : Known cfg strays d) (hsettling : Settling strays d e)
    {id : Nat} (hdone : d.db.statuses id = [5]) : d'.db.statuses id = [5] := by
  have hmem : 5 ∈ d.db.statuses id := by
    rw [hdone]
    exact List.mem_singleton.mpr rfl
  cases hdoes with
  | nothing => exact hdone
  | authenticate => exact hdone
  | keep => exact hdone
  | forget => exact hdone
  | reserve _ _ _ hdb => exact statuses_getNextFile_done hdb hdone
  | strand _ _ _ _ hdb => exact statuses_getNextFile_done hdb hdone
  | @abort sid cli cli' hcli hopen _ =>
    have hne : id ≠ cli.originalFileId := by
      rintro rfl
      exact hsettling cli hcli hopen hmem
    show (d.db.reset cli.originalFileId).statuses id = [5]
    rw [Store.statuses_reset, if_neg hne, hdone]
  | postFile => exact hdone
  | writeChunk => exact hdone
  | @addFile getFileSize e dst call _ =>
    have hne : d.db.statuses id ≠ [] := List.ne_nil_of_mem hmem
    rcases d.db.statuses_addFile_of_queued call.src call.dst call.queue
      (hknown.tables.queue id hne) hne with hsame | hset
    · exact hsame.trans hdone
    · rw [hdone] at hset
      exact hset
  | drop => exact hdone
  | take => exact hdone
  | @finish outcome ftm hmoving =>
    show (d.db.finishMove ftm outcome).statuses id = [5]
    rw [Store.statuses_finishMove]
    split
    · rename_i hid
      rw [hdone, List.map_singleton, movedStatus_done ((hsettling ftm hmoving).1 (hid ▸ hmem))]
    · exact hdone
  | stop => exact hdone
  | restart => exact hdone

/-- In every run of settling steps a file that is done at some moment is done ever after, whatever the ids are
by which new sessions go. -/
theorem done_stays (cfg : DaemonConfig) (strays : List Nat) {es fs : List DaemonEvent}
    (hes : (machine cfg).Along (Settling strays) (start .empty) (es ++ fs)) {id : Nat}
    (hdone : 5 ∈ ((machine cfg).run (start .empty) es).db.statuses id) :
    ((machine cfg).run (start .empty) (es ++ fs)).db.statuses id = [5] := by
  rw [Machine.along_append] at hes
  have hstep : ∀ d e, Known cfg strays d → Settling strays d e → Known cfg strays ((machine cfg).step d e) :=
    fun d e h he => (step_does cfg d e).known h he.staysOrdered
  have hknown : Known cfg strays ((machine cfg).run (start .empty) es) :=
    (machine cfg).invariant hstep (known_start cfg Store.wellFormed_empty) hes.1
  rw [Machine.run_append]
  have hrun := (machine cfg).invariant
    (P := fun d => Known cfg strays d ∧ d.db.statuses id = [5])
    (fun d e h he => ⟨hstep d e h.1 he, (step_does cfg d e).done h.1 he h.2⟩)
    ⟨hknown, hknown.tables.statuses_eq hdone⟩ hes.2
  exact hrun.2

/-- A source is archived by a client; then it is reported again, a new session goes by its id, the client asks
for more, and the daemon is restarted. -/
theorem done_stays_through_restart :
    ((machine gCfg).run (start .empty)
      (([discovers "a.mov".toList [], .authenticate 1 ⟨0, .zero⟩ "t".toList] ++ archives 1)
        ++ [discovers "a.mov".toList ["a_archived.mp4".toList], .authenticate 2 ⟨1, .zero⟩ "u".toList,
          fetches 1, .abort 1, .restart])).db.statuses 1 = [5] :=
  done_stays gCfg [1] (by decide) (by decide)

/-- The watcher finds the archive of a file that a client is about to encode. The client gives up, and
the file is handed out again. -/
theorem done_taken_back :
    let es := [discovers "a.mov".toList [], .authenticate 1 ⟨0, .zero⟩ "t".toList, fetches 1,
      discovers "a.mov".toList ["a_archived.mp4".toList]]
    ((machine gCfg).run (start .empty) es).db.statuses 1 = [5]
      ∧ ((machine gCfg).run (start .empty) (es ++ [.abort 1])).db.statuses 1 = [0]
      ∧ ((machine gCfg).run (start .empty) (es ++ [.abort 1, fetches 1])).db.statuses 1 = [1] := by
  decide

end Daemon

end MediaArchiver
