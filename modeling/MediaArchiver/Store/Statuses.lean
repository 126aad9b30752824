/-
# MediaArchiver.Store.Statuses -- what each store operation does to the queue, one id at a time

The queue is a keyless list of rows that three operations insert into and four update. What the
daemon relies on is only the list of statuses each id has, `Store.statuses`, and that list changes
in very few ways. This module says which, once for each operation; later modules never look into an
operation again.

* `getNextFile` picks a file that is `Offerable` and sets all its rows to started, or gives it its
  first row (`getNextFile_cases`, `Reserves`);
* `addFile` gives an unqueued id one row, or sets all rows of an id to done; it never changes the
  rows of a queued id in another way (`statuses_addFile_of_queued`, `mem_statuses_addFile`);
* `addEncodedFile` and `reset` set all rows of their own id (`statuses_addEncodedFile`,
  `statuses_reset`).
-/
import MediaArchiver.Store.SQLite

namespace MediaArchiver

open Lib (Table AutoTable)

namespace Store

/-! ## Updates and inserts -/

theorem mem_statuses {db : Store} {id : Nat} {status : Int} :
    status ∈ db.statuses id ↔ ∃ q ∈ db.queue, q.id = id ∧ q.status = status := by
  simp only [statuses, List.mem_map, List.mem_filter, decide_eq_true_eq]
  constructor
  · rintro ⟨q, ⟨hq, hid⟩, hst⟩
    exact ⟨q, hq, hid, hst⟩
  · rintro ⟨q, hq, hid, hst⟩
    exact ⟨q, ⟨hq, hid⟩, hst⟩

theorem statuses_eq_nil {db : Store} {id : Nat} : db.statuses id = [] ↔ ∀ q ∈ db.queue, q.id ≠ id := by
  rw [List.eq_nil_iff_forall_not_mem]
  constructor
  · intro h q hq hid
    exact h q.status (mem_statuses.mpr ⟨q, hq, hid, rfl⟩)
  · intro h status hst
    obtain ⟨q, hq, hid, _⟩ := mem_statuses.mp hst
    exact h q hq hid

theorem queued_iff {db : Store} {id : Nat} {p : QueueRow → Bool} :
    db.queued id p = true ↔ ∃ q ∈ db.queue, q.id = id ∧ p q = true := by
  simp only [queued, List.any_eq_true, Bool.and_eq_true, decide_eq_true_eq]

theorem queued_any_iff {db : Store} {id : Nat} :
    db.queued id (fun _ => true) = true ↔ db.statuses id ≠ [] := by
  rw [queued_iff, Ne, statuses_eq_nil]
  simp only [and_true, not_forall, not_not, exists_prop]

/-- The rows of some ids, after an update that leaves the ids as they are. -/
theorem filter_updateQueue (db : Store) (id : Nat) {set : QueueRow → QueueRow}
    (hset : ∀ q, (set q).id = q.id) (p : Nat → Bool) :
    (db.updateQueue id set).queue.filter (fun q => p q.id)
      = (db.queue.filter fun q => p q.id).map fun q => if q.id = id then set q else q := by
  rw [updateQueue, List.filter_map]
  refine congrArg _ (List.filter_congr fun q _ => ?_)
  show p (if q.id = id then set q else q).id = p q.id
  split
  · rw [hset]
  · rfl

/-- The rows of the id are updated. -/
theorem filter_updateQueue_self (db : Store) (id : Nat) {set : QueueRow → QueueRow}
    (hset : ∀ q, (set q).id = q.id) :
    ((db.updateQueue id set).queue.filter fun q => q.id = id)
      = (db.queue.filter fun q => q.id = id).map set := by
  rw [filter_updateQueue db id hset fun id' => id' = id]
  refine List.map_congr_left fun q hq => ?_
  exact if_pos (of_decide_eq_true (List.mem_filter.mp hq).2)

/-- Those of other ids stay. -/
theorem filter_updateQueue_other (db : Store) {id : Nat} {set : QueueRow → QueueRow}
    (hset : ∀ q, (set q).id = q.id) {p : Nat → Bool} (hp : p id = false) :
    (db.updateQueue id set).queue.filter (fun q => p q.id) = db.queue.filter fun q => p q.id := by
  rw [filter_updateQueue db id hset p]
  refine (List.map_congr_left fun q hq => ?_).trans (List.map_id _)
  have hne : q.id ≠ id := by
    rintro rfl
    exact absurd (hp.symm.trans (List.mem_filter.mp hq).2) Bool.false_ne_true
  exact if_neg hne

/-- An update of one id's rows to a fixed status. -/
theorem statuses_updateQueue (db : Store) (id : Nat) (set : QueueRow → QueueRow) (status : Int)
    (hid : ∀ q, (set q).id = q.id) (hst : ∀ q, (set q).status = status) (id' : Nat) :
    (db.updateQueue id set).statuses id'
      = if id' = id then (db.statuses id).map fun _ => status else db.statuses id' := by
  unfold statuses
  split
  · subst id'
    rw [filter_updateQueue_self db id hid, List.map_map, List.map_map]
    exact List.map_congr_left fun q _ => hst q
  · rename_i hne
    rw [filter_updateQueue_other db hid (p := fun i => i = id') (decide_eq_false (Ne.symm hne))]

theorem statuses_insertQueue (db : Store) (row : QueueRow) (id : Nat) :
    (db.insertQueue row).statuses id
      = if id = row.id then db.statuses id ++ [row.status] else db.statuses id := by
  unfold statuses insertQueue
  rw [List.filter_append, List.map_append]
  by_cases h : row.id = id
  · simp [h]
  · simp [h, Ne.symm h]

@[simp] theorem statuses_insertArchive (db : Store) (id : Nat) (path : Path) (id' : Nat) :
    (db.insertArchive id path).statuses id' = db.statuses id' := rfl

@[simp] theorem archives_updateQueue (db : Store) (id : Nat) (set : QueueRow → QueueRow) :
    (db.updateQueue id set).archives = db.archives := rfl

theorem hasKey_insertArchive (db : Store) (id : Nat) (path : Path) (id' : Nat) :
    (db.insertArchive id path).archives.HasKey id' ↔ id' = id ∨ db.archives.HasKey id' :=
  db.archives.hasKey_insertNew id path id'

/-! ## addEncodedFile and reset -/

theorem statuses_addEncodedFile (db : Store) (file : EncodedFile) (id : Nat) :
    (db.addEncodedFile file).statuses id
      = if id = file.originalFileId then (db.statuses id).map fun _ => file.result.toInt
        else db.statuses id := by
  have hupd := db.statuses_updateQueue file.originalFileId
    (fun q => { q with status := file.result.toInt, comment := comment file }) file.result.toInt
    (fun _ => rfl) (fun _ => rfl) id
  unfold addEncodedFile
  split
  · rw [statuses_insertArchive, hupd]
    by_cases h : id = file.originalFileId
    · rw [if_pos h, if_pos h, h]
    · rw [if_neg h, if_neg h]
  · rw [hupd]
    by_cases h : id = file.originalFileId
    · rw [if_pos h, if_pos h, h]
    · rw [if_neg h, if_neg h]

theorem hasKey_addEncodedFile (db : Store) (file : EncodedFile) (id : Nat) :
    (db.addEncodedFile file).archives.HasKey id
      ↔ (id = file.originalFileId ∧ 0 < file.fileLength) ∨ db.archives.HasKey id := by
  unfold addEncodedFile
  by_cases h : 0 < file.fileLength
  · simp only [h, if_true, hasKey_insertArchive, archives_updateQueue, and_true]
  · simp only [h, if_false, archives_updateQueue, and_false, false_or]

@[simp] theorem sourcefiles_addEncodedFile (db : Store) (file : EncodedFile) :
    (db.addEncodedFile file).sourcefiles = db.sourcefiles := by
  unfold addEncodedFile
  split <;> rfl

theorem statuses_reset (db : Store) (srcFileId id : Nat) :
    (db.reset srcFileId).statuses id
      = if id = srcFileId then (db.statuses id).map fun _ => 0 else db.statuses id := by
  have hupd := db.statuses_updateQueue srcFileId (fun q => { q with status := 0 }) 0 (fun _ => rfl)
    (fun _ => rfl) id
  by_cases h : id = srcFileId
  · subst h
    simpa [reset] using hupd
  · rw [if_neg h] at hupd ⊢
    exact hupd

/-! ## getNextFile -/

/-- The statuses an id may have when `getNextFile` returns it. -/
def Offerable (statuses : List Int) : Prop :=
  statuses = [] ∨ ∃ status ∈ statuses, status = 0 ∨ (status < 0 ∧ -99 ≤ status)

/-- A file that is done is not offered. -/
theorem not_offerable_done : ¬ Offerable [5] := by
  rintro (hnil | ⟨status, hmem, hst⟩)
  · exact absurd hnil (List.cons_ne_nil _ _)
  · obtain rfl := List.mem_singleton.mp hmem
    omega

theorem offerable_of_mem_candidates {db : Store} {filter : MediaFileRequirements}
    {r : Nat × SourceFile} (h : r ∈ db.candidates filter) :
    r ∈ db.sourcefiles.rows ∧ Offerable (db.statuses r.1) := by
  simp only [candidates, List.mem_append, List.mem_filter] at h
  rcases h with (⟨⟨hr, _⟩, hq⟩ | ⟨⟨hr, _⟩, hq⟩) | ⟨⟨hr, _⟩, hq⟩
  · obtain ⟨q, hq, hid, hst⟩ := queued_iff.mp hq
    exact ⟨hr, Or.inr ⟨q.status, mem_statuses.mpr ⟨q, hq, hid, rfl⟩, Or.inl (by simpa using hst)⟩⟩
  · refine ⟨hr, Or.inl ?_⟩
    by_contra hne
    rw [queued_any_iff.mpr hne] at hq
    exact absurd hq (by decide)
  · obtain ⟨q, hq, hid, hst⟩ := queued_iff.mp hq
    have hst : q.status < 0 ∧ -99 ≤ q.status ∧ q.count < 3 := by simpa using hst
    exact ⟨hr, Or.inr ⟨q.status, mem_statuses.mpr ⟨q, hq, hid, rfl⟩, Or.inr ⟨hst.1, hst.2.1⟩⟩⟩

/-- A file was reserved: it is in the catalogue and was offerable, it is started now, and nothing else
changed. -/
structure Reserves (db : Store) (id : Nat) (file : BasicFileInfo) (db' : Store) : Prop where
  catalogued : (id, ⟨file.fileName, file.fileSize⟩) ∈ db.sourcefiles.rows
  offerable : Offerable (db.statuses id)
  queued : db'.statuses id ≠ []
  started : ∀ status ∈ db'.statuses id, status = 1
  length : (db'.statuses id).length = max 1 (db.statuses id).length
  others : ∀ id', id' ≠ id → db'.statuses id' = db.statuses id'
  sourcefiles : db'.sourcefiles = db.sourcefiles
  archives : db'.archives = db.archives

/-- A queued file is reserved by an update of its rows. -/
theorem reserves_update {db : Store} {id : Nat} {file : SourceFile}
    (hmem : (id, file) ∈ db.sourcefiles.rows) (hoff : Offerable (db.statuses id))
    (hne : db.statuses id ≠ []) :
    db.Reserves id ⟨file.path, file.size⟩
      (db.updateQueue id fun q => { q with status := 1, count := q.count + 1 }) := by
  have hst := db.statuses_updateQueue id (fun q => { q with status := 1, count := q.count + 1 }) 1
    (fun _ => rfl) (fun _ => rfl)
  have hlen : 0 < (db.statuses id).length := List.length_pos_iff.mpr hne
  refine ⟨hmem, hoff, ?_, ?_, ?_, ?_, rfl, rfl⟩
  · rw [hst, if_pos rfl]
    simpa using hne
  · rw [hst, if_pos rfl]
    intro status hs
    obtain ⟨_, _, rfl⟩ := List.mem_map.mp hs
    rfl
  · rw [hst, if_pos rfl, List.length_map]
    omega
  · intro id' hid
    rw [hst, if_neg hid]

/-- A file that is not queued is reserved by its first row. -/
theorem reserves_insert {db : Store} {id : Nat} {file : SourceFile}
    (hmem : (id, file) ∈ db.sourcefiles.rows) (hnil : db.statuses id = []) :
    db.Reserves id ⟨file.path, file.size⟩ (db.insertQueue ⟨id, 1, 1, none⟩) := by
  have hst := db.statuses_insertQueue ⟨id, 1, 1, none⟩
  have hone : (db.insertQueue ⟨id, 1, 1, none⟩).statuses id = [1] := by
    rw [hst, if_pos rfl, hnil]
    rfl
  refine ⟨hmem, Or.inl hnil, ?_, ?_, ?_, ?_, rfl, rfl⟩
  · rw [hone]
    exact List.cons_ne_nil _ _
  · rw [hone]
    intro status hs
    exact List.mem_singleton.mp hs
  · rw [hone, hnil]
    rfl
  · intro id' hid
    rw [hst, if_neg hid]

/-- `getNextFile` finds no file and changes nothing, or reserves the file it returns. -/
theorem getNextFile_cases (db : Store) (limit : LimitOne) (filter : MediaFileRequirements) :
    db.getNextFile limit filter = (db, none) ∨
      ∃ db' id file, db.getNextFile limit filter = (db', some (id, file))
        ∧ db.Reserves id file db' := by
  unfold getNextFile
  cases hkeep : limit.keep (db.candidates filter) with
  | none => exact Or.inl rfl
  | some r =>
    obtain ⟨id, file⟩ := r
    obtain ⟨hmem, hoff⟩ := offerable_of_mem_candidates (limit.keep_mem hkeep)
    refine Or.inr ⟨_, id, ⟨file.path, file.size⟩, rfl, ?_⟩
    by_cases hq : db.queued id (fun _ => true) = true
    · rw [if_pos hq]
      exact reserves_update hmem hoff (queued_any_iff.mp hq)
    · rw [if_neg hq]
      apply reserves_insert hmem
      by_contra hne
      exact hq (queued_any_iff.mpr hne)

theorem eq_of_getNextFile_none {db db' : Store} {limit : LimitOne} {filter : MediaFileRequirements}
    (h : db.getNextFile limit filter = (db', none)) : db' = db := by
  rcases db.getNextFile_cases limit filter with hnone | ⟨_, _, _, hsome, _⟩
  · rw [hnone] at h
    exact (Prod.mk.inj h).1.symm
  · rw [hsome] at h
    cases h

theorem reserves_of_getNextFile {db db' : Store} {limit : LimitOne} {filter : MediaFileRequirements}
    {id : Nat} {file : BasicFileInfo} (h : db.getNextFile limit filter = (db', some (id, file))) :
    db.Reserves id file db' := by
  rcases db.getNextFile_cases limit filter with hnone | ⟨_, _, _, hsome, hres⟩
  · rw [hnone] at h
    cases h
  · rw [hsome] at h
    cases h
    exact hres

end Store

end MediaArchiver
