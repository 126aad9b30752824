/-
# MediaArchiver.Store.Frame -- which rows an operation leaves alone

`reset` and `addEncodedFile` are told an id, and change the rows of `queue` and `archives` that have it
and no others, in no column (`ChangesOnly`). The id 0 stands for no file: as long as no row has it
(`ZeroFree`, which every operation keeps), an operation for the id 0 changes nothing.
-/
import MediaArchiver.Store.AddFile

namespace MediaArchiver

open Lib (Table)

namespace Store

/-- The rows of `queue` and `archives` with an id are the same in both databases. -/
def SameRows (id : Nat) (db db' : Store) : Prop :=
  (db'.queue.filter fun q => q.id = id) = db.queue.filter (fun q => q.id = id)
    ∧ db'.archives.find? id = db.archives.find? id

/-- No rows change but those of one id, or no rows at all. -/
def ChangesOnly (own : Option Nat) (db db' : Store) : Prop :=
  ∀ id, own ≠ some id → SameRows id db db'

/-- No row has the id that stands for no file. -/
structure ZeroFree (db : Store) : Prop where
  queue : db.statuses 0 = []
  archives : ¬ db.archives.HasKey 0

theorem changesOnly_refl (own : Option Nat) (db : Store) : ChangesOnly own db db :=
  fun _ _ => ⟨rfl, rfl⟩

theorem ChangesOnly.of_eq {own : Option Nat} {db db' : Store} (h : db' = db) : ChangesOnly own db db' :=
  h ▸ changesOnly_refl own db

theorem changesOnly_updateQueue (db : Store) {id : Nat} {set : QueueRow → QueueRow}
    (hset : ∀ q, (set q).id = q.id) : ChangesOnly (some id) db (db.updateQueue id set) := by
  intro id' hother
  have hne : id ≠ id' := fun h => hother (congrArg some h)
  refine ⟨?_, rfl⟩
  exact filter_updateQueue_other db hset (p := fun i => i = id') (decide_eq_false hne)

/-- An update of an id without rows changes nothing. -/
theorem updateQueue_of_unqueued {db : Store} {id : Nat} (h : db.statuses id = [])
    (set : QueueRow → QueueRow) : db.updateQueue id set = db := by
  have hsame : (db.queue.map fun q => if q.id = id then set q else q) = db.queue := by
    refine (List.map_congr_left fun q hq => ?_).trans (List.map_id db.queue)
    exact if_neg (statuses_eq_nil.mp h q hq)
  exact congrArg (fun queue => { db with queue := queue }) hsame

theorem changesOnly_reset (db : Store) (srcFileId : Nat) :
    ChangesOnly (some srcFileId) db (db.reset srcFileId) :=
  changesOnly_updateQueue db fun _ => rfl

theorem changesOnly_addEncodedFile (db : Store) (file : EncodedFile) :
    ChangesOnly (some file.originalFileId) db (db.addEncodedFile file) := by
  have hupdate : ChangesOnly (some file.originalFileId) db (db.updateQueue file.originalFileId
      fun q => { q with status := file.result.toInt, comment := comment file }) :=
    changesOnly_updateQueue db fun _ => rfl
  intro id hother
  obtain ⟨hqueue, -⟩ := hupdate id hother
  have hne : id ≠ file.originalFileId := fun h => hother (congrArg some h.symm)
  unfold addEncodedFile
  split
  · refine ⟨hqueue, ?_⟩
    show (db.archives.insertNew file.originalFileId file.fileName).find? id = _
    rw [Table.find?_insertNew, if_neg hne]
  · exact ⟨hqueue, rfl⟩

/-! ## The id that stands for no file -/

theorem zeroFree_empty : empty.ZeroFree where
  queue := rfl
  archives := by
    rintro ⟨path, hmem⟩
    exact absurd hmem List.not_mem_nil

/-- A reset of no file. -/
theorem ZeroFree.reset_zero {db : Store} (h : db.ZeroFree) : db.reset 0 = db :=
  updateQueue_of_unqueued h.queue _

theorem ZeroFree.reset {db : Store} (h : db.ZeroFree) (srcFileId : Nat) :
    (db.reset srcFileId).ZeroFree := by
  refine ⟨?_, h.archives⟩
  rw [statuses_reset, h.queue]
  exact ite_self []

theorem ZeroFree.addEncodedFile {db : Store} (h : db.ZeroFree) {file : EncodedFile}
    (hid : file.originalFileId ≠ 0) : (db.addEncodedFile file).ZeroFree := by
  refine ⟨?_, ?_⟩
  · rw [statuses_addEncodedFile, if_neg hid.symm]
    exact h.queue
  · rw [hasKey_addEncodedFile]
    rintro (⟨heq, -⟩ | hkey)
    · exact hid heq.symm
    · exact h.archives hkey

theorem ZeroFree.getNextFile {db db' : Store} (h : db.ZeroFree) {limit : LimitOne}
    {filter : MediaFileRequirements} {found : Option (Nat × BasicFileInfo)}
    (hdb : db.getNextFile limit filter = (db', found)) : db'.ZeroFree := by
  rcases db.getNextFile_cases limit filter with hnone | ⟨db'', id, file, hsome, hres⟩
  · rw [hnone] at hdb
    obtain rfl := (Prod.mk.inj hdb).1
    exact h
  · rw [hsome] at hdb
    obtain rfl := (Prod.mk.inj hdb).1
    have hid : id ≠ 0 := Nat.ne_of_gt (db.sourcefiles.key_pos _ hres.catalogued)
    refine ⟨?_, ?_⟩
    · rw [hres.others 0 hid.symm]
      exact h.queue
    · rw [hres.archives]
      exact h.archives

theorem SourceAdded.zeroFree {db mid : Store} {s : BasicFileInfo} {dstGiven : Bool}
    {l : SourceLookup} (hs : SourceAdded db s dstGiven mid l) (h : db.ZeroFree) : mid.ZeroFree := by
  obtain ⟨file, hmem, -⟩ := hs.catalogued
  have hid : l.srcId ≠ 0 := Nat.ne_of_gt (mid.sourcefiles.key_pos _ hmem)
  refine ⟨?_, ?_⟩
  · rw [hs.others 0 hid.symm]
    exact h.queue
  · rw [hs.archives]
    exact h.archives

theorem ArchiveAdded.zeroFree {mid db' : Store} {dst : BasicFileInfo} {l : SourceLookup}
    (hd : ArchiveAdded mid dst l db') (h : mid.ZeroFree) : db'.ZeroFree := by
  have hkey : ¬ db'.archives.HasKey 0 := by
    intro hkey
    rcases hd.adds 0 hkey with hold | ⟨hzero, hne⟩
    · exact h.archives hold
    · exact hne hzero.symm
  refine ⟨?_, hkey⟩
  rcases hd.statuses 0 with hsame | ⟨hzero, -⟩
  · rw [hsame]
    exact h.queue
  · exact absurd hzero hkey

theorem ZeroFree.addFile {db : Store} (h : db.ZeroFree) (src dst : Option BasicFileInfo)
    (queue : Bool) : (db.addFile src dst queue).1.ZeroFree :=
  addFile_keeps h (fun hs => hs.zeroFree h) (fun hd hmid => hd.zeroFree hmid) src dst queue

end Store

end MediaArchiver
