/-
# MediaArchiver.Store.Crashes -- runs in which calls are cut

A daemon that was killed in the middle of a call is started again, and goes on with the tables it finds. So
the databases that can be reached are those after runs of calls of which any may be cut anywhere. The
statements of a call keep the tables in order one by one, hence these databases are in order too, and what
was found about single calls holds of all of them (`calls_all_or_nothing_iff`).
-/
import MediaArchiver.Store.Statements

namespace MediaArchiver

open Lib (Machine AlongPast Table AutoTable Script)

namespace Store

variable {db : Store}

/-! ## Statements and the tables -/

theorem WellFormed.insertSource (h : db.WellFormed) {src : BasicFileInfo}
    (hnew : ∀ row ∈ db.sourcefiles.rows, row.2.path ≠ src.fileName) :
    (db.insertSource src).WellFormed := by
  have hspec := (addSource_spec db src false false).wellFormed h
  rw [addSource_eq h, enter, sourceOf_eq_none.mpr hnew] at hspec
  exact hspec

theorem WellFormed.insertArchive (h : db.WellFormed) {k : Nat} (hkey : db.sourcefiles.HasKey k)
    (path : Path) : (db.insertArchive k path).WellFormed := by
  have hsrc : (db.insertArchive k path).sourcefiles = db.sourcefiles := rfl
  refine h.of_map hsrc ?_ fun id => ⟨_, (List.map_id _).symm⟩
  intro id hid
  rcases (hasKey_insertArchive ..).mp hid with rfl | hid
  · exact hkey
  · exact h.archives id hid

theorem WellFormed.insertQueue (h : db.WellFormed) {row : QueueRow} (hkey : db.sourcefiles.HasKey row.id)
    (hnil : db.statuses row.id = []) : (db.insertQueue row).WellFormed := by
  refine ⟨h.paths, ?_, h.archives, ?_⟩
  · intro id hne
    by_cases hid : id = row.id
    · exact hid ▸ hkey
    · rw [statuses_insertQueue, if_neg hid] at hne
      exact h.queue id hne
  · intro id
    rw [statuses_insertQueue]
    split
    · rename_i hid
      rw [hid, hnil]
      exact le_refl 1
    · exact h.rows id

/-- An update that sets the rows of one id to one status. -/
theorem WellFormed.updateQueue (h : db.WellFormed) (id : Nat) {set : QueueRow → QueueRow} {status : Int}
    (hid : ∀ q, (set q).id = q.id) (hst : ∀ q, (set q).status = status) :
    (db.updateQueue id set).WellFormed := by
  have hsrc : (db.updateQueue id set).sourcefiles = db.sourcefiles := rfl
  refine h.of_map hsrc h.archives fun id' => ?_
  rw [statuses_updateQueue db id set status hid hst]
  split
  · rename_i heq
    exact ⟨fun _ => status, by rw [heq]⟩
  · exact ⟨_, (List.map_id _).symm⟩

/-! ## The scripts and the tables -/

theorem keeps_addEncodedFileScript (h : db.WellFormed) {file : EncodedFile}
    (hkey : db.sourcefiles.HasKey file.originalFileId) :
    (addEncodedFileScript file).Keeps WellFormed db := by
  have hupdate : (db.updateQueue file.originalFileId fun q =>
      { q with status := file.result.toInt, comment := comment file }).WellFormed :=
    h.updateQueue file.originalFileId (fun _ => rfl) fun _ => rfl
  refine ⟨h, ?_⟩
  split
  · exact ⟨hupdate, hupdate.insertArchive hkey file.fileName⟩
  · exact hupdate

theorem keeps_sourceScript (h : db.WellFormed) (src : BasicFileInfo) (dstGiven queue : Bool) :
    (sourceScript src dstGiven queue).Keeps WellFormed db := by
  have hrun : ((sourceWrites src dstGiven queue (db.lookupSource src.fileName)).run db).1.WellFormed := by
    have hspec := (addSource_spec db src dstGiven queue).wellFormed h
    rwa [← run_sourceScript] at hspec
  refine ⟨h, ?_⟩
  show (sourceWrites src dstGiven queue (db.lookupSource src.fileName)).Keeps WellFormed db
  unfold sourceWrites at hrun ⊢
  rw [Script.run_bind] at hrun
  have hfirst : ((if (db.lookupSource src.fileName).srcId = 0 then
      .step (insertSource · src) fun db' =>
        .done { db.lookupSource src.fileName with srcId := db'.sourcefiles.nextKey }
      else .done (db.lookupSource src.fileName) : Script Store SourceLookup)).Keeps WellFormed db := by
    split
    · rename_i hid
      refine ⟨h, h.insertSource ?_⟩
      rcases db.lookupSource_cases src.fileName with ⟨-, hnew⟩ | ⟨file, hmem, -⟩
      · exact hnew
      · exact absurd hid (Nat.ne_of_gt (db.sourcefiles.key_pos _ hmem))
    · exact h
  exact hfirst.bind (Script.keeps_ite hfirst.run hrun id)

theorem keeps_archiveScript (h : db.WellFormed) (dst : BasicFileInfo) {l : SourceLookup} (putToQueue : Bool)
    (hkey : l.srcId ≠ 0 → db.sourcefiles.HasKey l.srcId) (hq : l.srcId ≠ 0 → l.inQueue = true) :
    (archiveScript dst l putToQueue).Keeps WellFormed db := by
  have hrun := (addArchive_spec db dst l putToQueue hq).wellFormed h hkey
  rw [← run_archiveScript] at hrun
  unfold archiveScript at hrun ⊢
  by_cases hname : l.archiveName ≠ [] ∧ dst.fileName = l.archiveName
  · rw [if_pos hname]
    exact h
  rw [if_neg hname] at hrun ⊢
  refine ⟨h, ?_⟩
  change ((archiveWrites dst ((db.archiveRows dst.fileName).foldl ArchiveLookup.assign
    ⟨false, l.srcId, l.inQueue, putToQueue⟩)).run db).1.WellFormed at hrun
  show (archiveWrites dst ((db.archiveRows dst.fileName).foldl ArchiveLookup.assign
    ⟨false, l.srcId, l.inQueue, putToQueue⟩)).Keeps WellFormed db
  -- a new archive goes to the source, which is catalogued
  have hnew : ((db.archiveRows dst.fileName).foldl ArchiveLookup.assign
      ⟨false, l.srcId, l.inQueue, putToQueue⟩).found = false →
      ((db.archiveRows dst.fileName).foldl ArchiveLookup.assign
        ⟨false, l.srcId, l.inQueue, putToQueue⟩).srcId = l.srcId := by
    rw [lookupArchive_eq h]
    cases db.archiveOf dst.fileName with
    | none => exact fun _ => rfl
    | some m => exact fun hfound => absurd hfound (by simp)
  generalize (db.archiveRows dst.fileName).foldl ArchiveLookup.assign
    ⟨false, l.srcId, l.inQueue, putToQueue⟩ = a at hrun hnew ⊢
  unfold archiveWrites at hrun ⊢
  by_cases hid : a.srcId = 0
  · rw [if_pos hid]
    exact h
  rw [if_neg hid] at hrun ⊢
  rw [Script.run_bind] at hrun
  have hfirst : (if a.found then .done () else
      .write (insertArchive · a.srcId dst.fileName) (.done ()) : Script Store Unit).Keeps WellFormed db := by
    split
    · exact h
    · rename_i hfound
      have hsame := hnew (Bool.not_eq_true _ ▸ hfound)
      exact ⟨h, h.insertArchive (hsame ▸ hkey (hsame ▸ hid)) dst.fileName⟩
  exact hfirst.bind (Script.keeps_ite hfirst.run hrun fun hrest => Script.keeps_ite hfirst.run hrest id)

theorem keeps_addFileScript (h : db.WellFormed) (src dst : Option BasicFileInfo) (queue : Bool) :
    (addFileScript src dst queue).Keeps WellFormed db := by
  unfold addFileScript
  cases given src with
  | none =>
    cases given dst with
    | none => exact h
    | some d => exact keeps_archiveScript h d false (fun hne => absurd rfl hne) fun hne => absurd rfl hne
  | some s =>
    have hsource := keeps_sourceScript h s (given dst).isSome queue
    refine hsource.bind ?_
    have hmid := hsource.run
    have hspec := addSource_spec db s (given dst).isSome queue
    rw [run_sourceScript] at hmid ⊢
    cases hdst : given dst with
    | none =>
      rw [hdst] at hmid
      exact hmid
    | some d =>
      rw [hdst] at hmid hspec
      obtain ⟨file, hmem, -⟩ := hspec.catalogued
      exact keeps_archiveScript hmid d _ (fun _ => ⟨file, hmem⟩) fun _ => hspec.queued rfl

/-! ## Runs -/

/-- The database under calls of which any may be cut after some statements. -/
def crashing : Machine Store (StoreCall × Option Nat) where
  step db
    | (call, none) => machine.step db call
    | (.getNextFile limit filter, some n) => (getNextFileScript limit filter).cut n db
    | (.addFile src dst queue, some n) => (addFileScript src dst queue).cut n db
    | (.addEncodedFile file, some n) => (addEncodedFileScript file).cut n db
    -- one statement
    | (.reset srcFileId, some n) => if n = 0 then db else db.reset srcFileId

/-- A call that is cut returns nothing. -/
def answered (db : Store) : StoreCall × Option Nat → Option Nat
  | (call, none) => db.returned call
  | (_, some _) => none

/-- A result is recorded for an id only that an earlier call returned. -/
def RecordsAnswered (past : List (StoreCall × Option Nat)) : StoreCall × Option Nat → Prop
  | (.addEncodedFile file, _) => file.originalFileId ∈ crashing.outputs answered empty past
  | _ => True

instance (past : List (StoreCall × Option Nat)) : DecidablePred (RecordsAnswered past)
  | (.addEncodedFile _, _) => inferInstanceAs (Decidable (_ ∈ _))
  | (.getNextFile .., _) | (.addFile .., _) | (.reset _, _) => inferInstanceAs (Decidable True)

theorem preserves_archiveWrites (dst : BasicFileInfo) (a : ArchiveLookup) (id : Nat) :
    (archiveWrites dst a).Preserves fun db => db.sourcefiles.HasKey id := by
  unfold archiveWrites
  split
  · trivial
  apply Script.Preserves.bind
  · split
    · trivial
    · exact ⟨fun _ h => h, fun _ => trivial⟩
  · intro _
    split
    · exact ⟨fun _ h => h, fun _ => trivial⟩
    split
    · exact ⟨fun _ h => h, fun _ => trivial⟩
    · trivial

theorem preserves_sourceWrites (src : BasicFileInfo) (dstGiven queue : Bool) (l : SourceLookup) (id : Nat) :
    (sourceWrites src dstGiven queue l).Preserves fun db => db.sourcefiles.HasKey id := by
  apply Script.Preserves.bind
  · split
    · refine ⟨?_, fun _ => trivial⟩
      rintro db ⟨file, hmem⟩
      exact ⟨file, (db.sourcefiles.mem_append _ _).mpr (Or.inl hmem)⟩
    · trivial
  · intro l
    split
    · exact ⟨fun _ h => h, fun _ => trivial⟩
    · trivial

/-- No statement deletes a catalogue row. -/
theorem preserves_addFileScript (src dst : Option BasicFileInfo) (queue : Bool) (id : Nat) :
    (addFileScript src dst queue).Preserves fun db => db.sourcefiles.HasKey id := by
  apply Script.Preserves.bind
  · cases given src with
    | none => trivial
    | some s => exact ⟨fun _ h => h, fun db => preserves_sourceWrites s _ queue _ id⟩
  · intro a
    cases given dst with
    | none => trivial
    | some d =>
      show (archiveScript d a.1 a.2).Preserves _
      unfold archiveScript
      split
      · trivial
      · exact ⟨fun _ h => h, fun db => preserves_archiveWrites d _ id⟩

theorem hasKey_crashing (db : Store) (e : StoreCall × Option Nat) {id : Nat}
    (hid : db.sourcefiles.HasKey id) : (crashing.step db e).sourcefiles.HasKey id := by
  obtain ⟨call, _ | n⟩ := e
  · exact db.hasKey_step call hid
  cases call with
  | getNextFile limit filter =>
    have hrun : ((getNextFileScript limit filter).run db).1.sourcefiles.HasKey id := by
      rw [run_getNextFileScript]
      exact db.hasKey_step (.getNextFile limit filter) hid
    exact (db.allOrNothing_getNextFile limit filter).cut (P := fun db => db.sourcefiles.HasKey id) hid
      hrun n
  | addFile src dst queue => exact (preserves_addFileScript src dst queue id).cut hid n
  | addEncodedFile file =>
    have hpres : (addEncodedFileScript file).Preserves fun db => db.sourcefiles.HasKey id := by
      refine ⟨fun _ h => h, fun _ => ?_⟩
      split
      · exact ⟨fun _ h => h, fun _ => trivial⟩
      · trivial
    exact hpres.cut hid n
  | reset srcFileId =>
    show (if n = 0 then db else db.reset srcFileId).sourcefiles.HasKey id
    split
    · exact hid
    · exact hid

theorem hasKey_answered {past : List (StoreCall × Option Nat)} {id : Nat}
    (h : id ∈ crashing.outputs answered empty past) :
    (crashing.run empty past).sourcefiles.HasKey id := by
  refine crashing.stable_outputs answered (P := fun _ => True)
    (Q := fun db id => db.sourcefiles.HasKey id) (fun _ _ _ _ => trivial)
    (fun db e _ hid => hasKey_crashing db e hid) ?_ trivial (crashing.along_true empty past) id h
  rintro db ⟨call, _ | n⟩ id - - hans
  · exact db.hasKey_step call (hasKey_returned hans)
  · cases hans

/-- The tables are in order after any calls, cut or not. -/
theorem wellFormed_crashing {events : List (StoreCall × Option Nat)}
    (h : AlongPast RecordsAnswered [] events) : (crashing.run empty events).WellFormed := by
  refine crashing.invariant_past (P := fun _ db => db.WellFormed) ?_ wellFormed_empty h
  rintro past ⟨call, _ | n⟩ hwf hcall
  · refine hwf.step ?_
    rintro file rfl
    exact hasKey_answered hcall
  cases call with
  | getNextFile limit filter =>
    have hrun := wellFormed_getNextFile hwf limit filter
    rw [← run_getNextFileScript] at hrun
    exact (allOrNothing_getNextFile _ limit filter).cut hwf hrun n
  | addFile src dst queue => exact (keeps_addFileScript hwf src dst queue).cut n
  | addEncodedFile file => exact (keeps_addEncodedFileScript hwf (hasKey_answered hcall)).cut n
  | reset srcFileId =>
    show (if n = 0 then _ else Store.reset _ srcFileId).WellFormed
    split
    · exact hwf
    · exact wellFormed_reset hwf srcFileId

/-- In every database that runs can leave, cut or not: `getNextFile` is all or nothing; `addFile` is exactly
if one write is enough; `addEncodedFile` is exactly if there is no archive to be recorded, or nothing else. -/
theorem calls_all_or_nothing_iff {events : List (StoreCall × Option Nat)}
    (h : AlongPast RecordsAnswered [] events) :
    let db := crashing.run empty events
    (∀ limit filter, (getNextFileScript limit filter).AllOrNothing db) ∧
      (∀ src dst queue,
        (addFileScript src dst queue).AllOrNothing db ↔ db.AtOnce (given src) (given dst) queue) ∧
      ∀ file, (addEncodedFileScript file).AllOrNothing db ↔
        file.fileLength = 0 ∨ db.archives.HasKey file.originalFileId ∨ db.Recorded file := by
  intro db
  have hwf : db.WellFormed := wellFormed_crashing h
  exact ⟨db.allOrNothing_getNextFile, allOrNothing_addFile hwf, db.allOrNothing_addEncodedFile⟩

/-- A source that was handed out, after the daemon died while it was queued. -/
theorem calls_all_or_nothing_iff_started :
    let db := crashing.run empty
      [(.addFile (some ⟨"a.mov".toList, 7⟩) none true, some 2), (.getNextFile .first ⟨[], 0⟩, none)]
    (∀ limit filter, (getNextFileScript limit filter).AllOrNothing db) ∧
      (∀ src dst queue,
        (addFileScript src dst queue).AllOrNothing db ↔ db.AtOnce (given src) (given dst) queue) ∧
      ∀ file, (addEncodedFileScript file).AllOrNothing db ↔
        file.fileLength = 0 ∨ db.archives.HasKey file.originalFileId ∨ db.Recorded file :=
  calls_all_or_nothing_iff (by decide)

/-- The daemon dies while it records a success: the source is done, and its archive is not recorded. -/
theorem addEncodedFile_cut :
    let db := machine.run empty
      [.addFile (some ⟨"a.mov".toList, 7⟩) none true, .getNextFile .first ⟨[], 0⟩]
    let script := addEncodedFileScript ⟨⟨5, 4, []⟩, 1, "a_archived.mp4".toList⟩
    ¬ script.AllOrNothing db ∧ (script.cut 1 db).statuses 1 = [5] ∧
      ¬ (script.cut 1 db).archives.HasKey 1 := by
  intro db script
  have hcut : (script.cut 1 db).statuses 1 = [5] := by decide
  have hnone : ¬ (script.cut 1 db).archives.HasKey 1 := by decide
  refine ⟨?_, hcut, hnone⟩
  intro hall
  rcases hall 1 with hbefore | hafter
  · rw [hbefore] at hcut
    exact absurd hcut (by decide)
  · rw [hafter] at hnone
    exact hnone (by decide)

end Store

end MediaArchiver
