/-
# MediaArchiver.Store.Choice -- what `getNextFile` chooses from, and what it does to the choice

The query is a union of three joins and the row it keeps is looked up a second time before its queue row
is written. Seen from outside there is one condition (`Eligible`): the file is small enough, and its queue
row is missing, waiting, or tells of a failure that is worth another try. The call finds nothing exactly
if no file is eligible; otherwise it returns an eligible one and starts its row (`Chosen`).

No file is longer than a signed number of 64 bits can say, and the database has no longer integers either
(`SizesFit`). So the greatest `size_t`, which stands for "no bound", bounds every size there can be.
-/
import MediaArchiver.Store.WellFormed

namespace MediaArchiver

/-- The source behind a row of the catalogue. -/
def SourceFile.info (file : SourceFile) : BasicFileInfo := ⟨file.path, file.size⟩

/-- The row is one that may be handed out: not started, or failed and worth another try. -/
def QueueRow.Due (q : QueueRow) : Prop :=
  q.status = 0 ∨ (-99 ≤ q.status ∧ q.status < 0 ∧ q.count < 3)

/-- `LIMIT 1` of no rows at all. -/
theorem LimitOne.keep_eq_none (limit : LimitOne) {rows : List (Nat × SourceFile)} :
    limit.keep rows = none ↔ rows = [] := by
  constructor
  · intro h
    by_contra hne
    have hsome := limit.keep_isSome hne
    rw [h] at hsome
    cases hsome
  · rintro rfl
    cases h : limit.keep [] with
    | none => rfl
    | some row => exact absurd (limit.keep_mem h) List.not_mem_nil

namespace Store

/-- The queue rows of an id. -/
def queueRows (db : Store) (id : Nat) : List QueueRow := db.queue.filter fun q => q.id = id

/-- The queue has at most one row for each id. -/
def OneRowEach (db : Store) : Prop := ∀ id, (db.queueRows id).length ≤ 1

/-- Every size is one that a file can have and an integer of the database can hold. -/
def SizesFit (db : Store) : Prop := ∀ s ∈ db.sourcefiles.rows, s.2.size ≤ 2 ^ 63 - 1

instance (db : Store) : Decidable db.SizesFit :=
  inferInstanceAs (Decidable (∀ s ∈ _, _))

/-- The file may be handed out. -/
structure Eligible (db : Store) (filter : MediaFileRequirements) (s : Nat × SourceFile) : Prop where
  catalogued : s ∈ db.sourcefiles.rows
  small : filter.maxFileSize = 0 ∨ s.2.size ≤ filter.maxFileSize
  due : db.queueRows s.1 = [] ∨ ∃ q ∈ db.queueRows s.1, q.Due

/-- The queue row of a file that is handed out, given the rows it had. -/
def startedRow (id : Nat) : List QueueRow → QueueRow
  | [] => ⟨id, 1, 1, none⟩
  | q :: _ => { q with status := 1, count := q.count + 1 }

/-- The file was handed out: it was eligible, its row is started, and no other row of any table differs. -/
structure Chosen (db : Store) (filter : MediaFileRequirements) (id : Nat) (file : BasicFileInfo)
    (db' : Store) : Prop where
  id_ne : id ≠ 0
  eligible : db.Eligible filter (id, ⟨file.fileName, file.fileSize⟩)
  own : db'.queueRows id = [startedRow id (db.queueRows id)]
  others : (db'.queue.filter fun q => q.id ≠ id) = db.queue.filter fun q => q.id ≠ id
  sourcefiles : db'.sourcefiles = db.sourcefiles
  archives : db'.archives = db.archives

variable {db : Store} {limit : LimitOne} {filter : MediaFileRequirements}

theorem getNextFile_of_keep_none (h : limit.keep (db.candidates filter) = none) :
    db.getNextFile limit filter = (db, none) := by
  rw [getNextFile, h]

/-- What is picked is reserved. -/
theorem getNextFile_of_keep_some {row : Nat × SourceFile}
    (h : limit.keep (db.candidates filter) = some row) :
    ∃ db', db.getNextFile limit filter = (db', some (row.1, row.2.info)) := by
  rw [getNextFile, h]
  exact ⟨_, rfl⟩

theorem mem_queueRows {id : Nat} {q : QueueRow} : q ∈ db.queueRows id ↔ q ∈ db.queue ∧ q.id = id := by
  rw [queueRows, List.mem_filter, decide_eq_true_iff]

theorem queueRows_eq_nil {id : Nat} : db.queueRows id = [] ↔ db.statuses id = [] := by
  rw [statuses, List.map_eq_nil_iff]
  rfl

theorem length_queueRows (id : Nat) : (db.queueRows id).length = (db.statuses id).length := by
  rw [statuses, List.length_map]
  rfl

theorem WellFormed.oneRowEach (h : db.WellFormed) : db.OneRowEach := by
  intro id
  rw [length_queueRows]
  exact h.rows id

theorem queued_iff_queueRows {id : Nat} {p : QueueRow → Bool} :
    db.queued id p = true ↔ ∃ q ∈ db.queueRows id, p q = true := by
  rw [queued_iff]
  constructor
  · rintro ⟨q, hq, hid, hp⟩
    exact ⟨q, mem_queueRows.mpr ⟨hq, hid⟩, hp⟩
  · rintro ⟨q, hq, hp⟩
    obtain ⟨hmem, hid⟩ := mem_queueRows.mp hq
    exact ⟨q, hmem, hid, hp⟩

/-! ## The union of the three joins -/

/-- The bound that the query states is the bound of the filter, if it has one. -/
theorem le_maxSize_iff {s : Nat × SourceFile} (h : s.2.size ≤ 2 ^ 63 - 1) :
    s.2.size ≤ maxSize filter ↔ filter.maxFileSize = 0 ∨ s.2.size ≤ filter.maxFileSize := by
  unfold maxSize
  split
  · rename_i hpos
    constructor
    · exact Or.inr
    · rintro (hzero | hle)
      · omega
      · exact hle
  · rename_i hpos
    exact iff_of_true (h.trans (by decide)) (Or.inl (by omega))

/-- What the query finds is what is eligible. -/
theorem mem_candidates_iff (hfit : db.SizesFit) {s : Nat × SourceFile} :
    s ∈ db.candidates filter ↔ db.Eligible filter s := by
  have hnil : (!db.queued s.1 fun _ => true) = true ↔ db.queueRows s.1 = [] := by
    rw [Bool.not_eq_true', ← Bool.not_eq_true, queued_any_iff, not_not, queueRows_eq_nil]
  simp only [candidates, List.mem_append, List.mem_filter, decide_eq_true_eq, hnil,
    queued_iff_queueRows]
  constructor
  · rintro ((⟨⟨hs, hle⟩, q, hq, hst⟩ | ⟨⟨hs, hle⟩, hnone⟩) | ⟨⟨hs, hle⟩, q, hq, hst⟩)
    · exact ⟨hs, (le_maxSize_iff (hfit s hs)).mp hle, Or.inr ⟨q, hq, Or.inl hst⟩⟩
    · exact ⟨hs, (le_maxSize_iff (hfit s hs)).mp hle, Or.inl hnone⟩
    · exact ⟨hs, (le_maxSize_iff (hfit s hs)).mp hle,
        Or.inr ⟨q, hq, Or.inr ⟨hst.2.1, hst.1, hst.2.2⟩⟩⟩
  · rintro ⟨hs, hsmall, hdue⟩
    have hle := (le_maxSize_iff (hfit s hs)).mpr hsmall
    rcases hdue with hnone | ⟨q, hq, hst | ⟨hlow, hneg, hcount⟩⟩
    · exact Or.inl (Or.inr ⟨⟨hs, hle⟩, hnone⟩)
    · exact Or.inl (Or.inl ⟨⟨hs, hle⟩, q, hq, hst⟩)
    · exact Or.inr ⟨⟨hs, hle⟩, q, hq, hneg, hlow, hcount⟩

/-! ## The row that is written -/

/-- The update of one id's rows, seen from those rows. -/
theorem queueRows_updateQueue (db : Store) (id : Nat) (set : QueueRow → QueueRow)
    (hset : ∀ q, (set q).id = q.id) : (db.updateQueue id set).queueRows id = (db.queueRows id).map set :=
  filter_updateQueue_self db id hset

/-- The update of one id's rows, seen from all others. -/
theorem others_updateQueue (db : Store) {id : Nat} {set : QueueRow → QueueRow}
    (hset : ∀ q, (set q).id = q.id) :
    ((db.updateQueue id set).queue.filter fun q => q.id ≠ id) = db.queue.filter fun q => q.id ≠ id :=
  filter_updateQueue_other db hset (p := fun i => i ≠ id) (decide_eq_false (not_not.mpr rfl))

/-- A file that is eligible and picked is started, and nothing else happens. -/
theorem chosen_of_keep (hrows : db.OneRowEach) {id : Nat} {file : SourceFile}
    (hkeep : limit.keep (db.candidates filter) = some (id, file)) (helig : db.Eligible filter (id, file)) :
    ∃ db', db.getNextFile limit filter = (db', some (id, file.info))
      ∧ db.Chosen filter id file.info db' := by
  have hid : id ≠ 0 := Nat.ne_of_gt (db.sourcefiles.key_pos _ helig.catalogued)
  unfold getNextFile
  rw [hkeep]
  refine ⟨_, rfl, ?_⟩
  by_cases hq : db.queued id (fun _ => true) = true
  · rw [if_pos hq]
    refine ⟨hid, helig, ?_, others_updateQueue db fun _ => rfl, rfl, rfl⟩
    have hown := db.queueRows_updateQueue id (fun q => { q with status := 1, count := q.count + 1 })
      fun _ => rfl
    rw [hown]
    have hne : db.queueRows id ≠ [] := fun hnil => queued_any_iff.mp hq (queueRows_eq_nil.mp hnil)
    obtain ⟨q, hrow⟩ := List.length_eq_one_iff.mp
      (Nat.le_antisymm (hrows id) (List.length_pos_iff.mpr hne))
    rw [hrow]
    rfl
  · rw [if_neg hq]
    have hnil : db.queueRows id = [] := by
      by_contra hne
      exact hq (queued_any_iff.mpr fun hst => hne (queueRows_eq_nil.mpr hst))
    refine ⟨hid, helig, ?_, ?_, rfl, rfl⟩
    · show (db.queue ++ [QueueRow.mk id 1 1 none]).filter (fun q => q.id = id) = _
      have hown : db.queue.filter (fun q => q.id = id) = [] := hnil
      rw [List.filter_append, hown, hnil]
      simp [startedRow]
    · show (db.queue ++ [QueueRow.mk id 1 1 none]).filter (fun q => q.id ≠ id) = _
      rw [List.filter_append]
      simp

/-- `getNextFile` finds nothing exactly if nothing is eligible; what it finds is eligible, and started. -/
theorem getNextFile_chooses (hrows : db.OneRowEach) (hfit : db.SizesFit) (limit : LimitOne)
    (filter : MediaFileRequirements) :
    ((db.getNextFile limit filter).2 = none ↔ ∀ s, ¬ db.Eligible filter s) ∧
    ((db.getNextFile limit filter).2 = none → (db.getNextFile limit filter).1 = db) ∧
    ∀ id file, (db.getNextFile limit filter).2 = some (id, file) →
      db.Chosen filter id file (db.getNextFile limit filter).1 := by
  cases hkeep : limit.keep (db.candidates filter) with
  | none =>
    have hcall := getNextFile_of_keep_none hkeep
    rw [hcall]
    refine ⟨iff_of_true rfl ?_, fun _ => rfl, fun id file h => absurd h (by simp)⟩
    intro s helig
    have hmem := (mem_candidates_iff hfit).mpr helig
    rw [limit.keep_eq_none.mp hkeep] at hmem
    exact absurd hmem List.not_mem_nil
  | some row =>
    have helig : db.Eligible filter row := (mem_candidates_iff hfit).mp (limit.keep_mem hkeep)
    obtain ⟨db', hcall, hchosen⟩ := chosen_of_keep hrows hkeep helig
    rw [hcall]
    refine ⟨iff_of_false (by simp) fun h => h row helig, fun h => absurd h (by simp), ?_⟩
    rintro id file hret
    obtain ⟨rfl, rfl⟩ := Prod.mk.inj (Option.some.inj hret)
    exact hchosen

/-- Two sources, of which the filter allows one. -/
theorem getNextFile_chooses_smaller :
    let db := ((empty.addFile (some ⟨"a.mov".toList, 9⟩) none true).1.addFile
      (some ⟨"b.mov".toList, 7⟩) none true).1
    db.Chosen ⟨[], 8⟩ 2 ⟨"b.mov".toList, 7⟩ (db.getNextFile .first ⟨[], 8⟩).1 := by
  intro db
  have hwf : db.WellFormed := wellFormed_addFile (wellFormed_addFile wellFormed_empty _ _ _) _ _ _
  have hfit : db.SizesFit := by decide
  exact (getNextFile_chooses hwf.oneRowEach hfit .first ⟨[], 8⟩).2.2 2 ⟨"b.mov".toList, 7⟩ rfl

end Store

end MediaArchiver
