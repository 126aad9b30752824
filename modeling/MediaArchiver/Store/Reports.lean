/-
# MediaArchiver.Store.Reports -- what a report does to tables that are in order

`addFile` decides from two look-ups, and each of them is a scan that keeps what its last row said. In
tables that are in order the scan for a source has one row at most, and the scan for an archive ends with
the greatest id that has its path. So the call is a sequence of four moves, each of which does nothing if
there is nothing to do: `enter` a source into the catalogue, `enqueue` an id, `settle` an id that has an
archive, `attach` an archive to an id (`addFile_eq`).
-/
import MediaArchiver.Store.WellFormed

namespace MediaArchiver

open Lib (Table AutoTable)

namespace Store

/-! ## What the look-ups find -/

/-- The id of the source with a path. -/
def sourceOf (db : Store) (path : Path) : Option Nat :=
  (db.sourcefiles.rows.find? fun s => s.2.path = path).map Prod.fst

/-- The id under which the scan for an archive ends. -/
def archiveOf (db : Store) (path : Path) : Option Nat :=
  (db.archives.rows.filter fun a => a.2 = path).getLast?.map Prod.fst

/-- The id has a final status. -/
def Done (db : Store) (id : Nat) : Prop := ∃ status ∈ db.statuses id, 5 ≤ status

instance (db : Store) (id : Nat) : Decidable (db.Done id) :=
  inferInstanceAs (Decidable (∃ status ∈ _, _))

variable {db : Store}

theorem sourceOf_eq_none {path : Path} :
    db.sourceOf path = none ↔ ∀ row ∈ db.sourcefiles.rows, row.2.path ≠ path := by
  simp only [sourceOf, Option.map_eq_none_iff, List.find?_eq_none, decide_eq_true_eq, ne_eq]

theorem mem_of_sourceOf {path : Path} {k : Nat} (h : db.sourceOf path = some k) :
    ∃ file, (k, file) ∈ db.sourcefiles.rows ∧ file.path = path := by
  obtain ⟨⟨k', file⟩, hfind, rfl⟩ := Option.map_eq_some_iff.mp h
  exact ⟨file, List.mem_of_find?_eq_some hfind, by simpa using List.find?_some hfind⟩

theorem sourceOf_of_mem (hu : db.PathsUnique) {k : Nat} {file : SourceFile}
    (hmem : (k, file) ∈ db.sourcefiles.rows) : db.sourceOf file.path = some k := by
  cases hfind : db.sourceOf file.path with
  | none => exact absurd rfl (sourceOf_eq_none.mp hfind _ hmem)
  | some k' =>
    obtain ⟨file', hmem', hpath⟩ := mem_of_sourceOf hfind
    rw [hu k' k file' file hmem' hmem hpath]

theorem sourceOf_ne_zero {path : Path} {k : Nat} (h : db.sourceOf path = some k) : k ≠ 0 := by
  obtain ⟨file, hmem, -⟩ := mem_of_sourceOf h
  exact Nat.ne_of_gt (db.sourcefiles.key_pos _ hmem)

theorem archiveOf_eq_none {path : Path} : db.archiveOf path = none ↔ ¬ db.Archived path := by
  simp only [archiveOf, Option.map_eq_none_iff, List.getLast?_eq_none_iff, List.filter_eq_nil_iff,
    decide_eq_true_eq, Archived, not_exists, not_and]

/-- The scan runs in the order of the ids, so the id it ends with is the greatest. -/
theorem archiveOf_eq_some {path : Path} {m : Nat} :
    db.archiveOf path = some m ↔
      (m, path) ∈ db.archives.rows ∧ ∀ k, (k, path) ∈ db.archives.rows → k ≤ m := by
  have hmem : ∀ k, (k, path) ∈ db.archives.rows ↔
      (k, path) ∈ db.archives.rows.filter fun a => a.2 = path := by
    intro k
    rw [List.mem_filter, decide_eq_true_iff, and_iff_left rfl]
  have hpaths : ∀ a ∈ db.archives.rows.filter (fun a => a.2 = path), a.2 = path :=
    fun a ha => of_decide_eq_true (List.mem_filter.mp ha).2
  have hsorted : (db.archives.rows.filter fun a => a.2 = path).Pairwise fun a b => a.1 < b.1 :=
    db.archives.sorted.filter _
  simp only [hmem]
  unfold archiveOf
  generalize db.archives.rows.filter (fun a => a.2 = path) = rows at hpaths hsorted ⊢
  rcases List.eq_nil_or_concat rows with rfl | ⟨init, ⟨l, p⟩, rfl⟩
  · simp
  · obtain rfl : p = path := hpaths (l, p) (by simp)
    have hle : ∀ k, (k, p) ∈ init.concat (l, p) → k ≤ l := by
      intro k hk
      rw [List.concat_eq_append] at hk hsorted
      rcases List.mem_append.mp hk with hk | hk
      · exact Nat.le_of_lt ((List.pairwise_append.mp hsorted).2.2 _ hk _ (List.mem_singleton.mpr rfl))
      · exact Nat.le_of_eq (Prod.mk.inj (List.mem_singleton.mp hk)).1
    have hlast : (init.concat (l, p)).getLast? = some (l, p) := by simp
    rw [hlast, Option.map_some, Option.some.injEq]
    constructor
    · rintro rfl
      exact ⟨by simp, hle⟩
    · rintro ⟨hm, hall⟩
      exact Nat.le_antisymm (hall l (by simp)) (hle m hm)

/-- One row at most is one status at most. -/
theorem statuses_cases (h : db.WellFormed) (id : Nat) :
    db.statuses id = [] ∨ ∃ status, db.statuses id = [status] := by
  rcases List.eq_nil_or_concat (db.statuses id) with hnil | ⟨init, status, hst⟩
  · exact Or.inl hnil
  · have hmem : status ∈ db.statuses id := by simp [hst]
    exact Or.inr ⟨status, h.statuses_eq hmem⟩

theorem lookupSource_eq (h : db.WellFormed) (path : Path) :
    db.lookupSource path =
      match db.sourceOf path with
      | none => ⟨0, false, []⟩
      | some k => ⟨k, decide (db.statuses k ≠ []), (db.archives.find? k).getD []⟩ := by
  cases hk : db.sourceOf path with
  | none => exact lookupSource_unknown (sourceOf_eq_none.mp hk)
  | some k =>
    obtain ⟨file, hmem, rfl⟩ := mem_of_sourceOf hk
    have hrow : db.sourcefiles.rows.filter (fun s => s.2.path = file.path) = [(k, file)] := by
      apply db.sourcefiles.filter_eq_singleton hmem (decide_eq_true rfl)
      rintro ⟨k', file'⟩ hmem' hpath
      obtain rfl := h.paths k' k file' file hmem' hmem (of_decide_eq_true hpath)
      rw [db.sourcefiles.eq_of_mem hmem' hmem]
    unfold lookupSource sourceRows
    rw [hrow]
    rcases statuses_cases h k with hst | ⟨status, hst⟩
    all_goals
      simp only [hst, leftJoin, SourceLookup.assign, List.flatMap_cons, List.flatMap_nil,
        List.append_nil, List.map_cons, List.map_nil, List.foldl_cons, List.foldl_nil]
      cases db.archives.find? k with
      | none => rfl
      | some name => by_cases hnil : name = [] <;> simp [hnil]

theorem lookupArchive_eq (h : db.WellFormed) (path : Path) (a : ArchiveLookup) :
    (db.archiveRows path).foldl ArchiveLookup.assign a =
      match db.archiveOf path with
      | none => a
      | some m => ⟨true, m, decide (db.statuses m ≠ []), decide (db.Done m)⟩ := by
  unfold archiveRows archiveOf Done
  rcases List.eq_nil_or_concat (db.archives.rows.filter fun a => a.2 = path) with
    hnil | ⟨init, row, hrows⟩
  · rw [hnil]
    rfl
  · rw [hrows, List.concat_eq_append, List.flatMap_append, List.foldl_append]
    rcases statuses_cases h row.1 with hst | ⟨status, hst⟩ <;>
      simp [hst, leftJoin, ArchiveLookup.assign]

/-! ## The moves -/

/-- Catalogue a source, unless it is. -/
def enter (db : Store) (src : BasicFileInfo) : Store × Nat :=
  match db.sourceOf src.fileName with
  | some k => (db, k)
  | none =>
      ({ db with sourcefiles := db.sourcefiles.append ⟨src.fileName, src.fileSize⟩ },
        db.sourcefiles.nextKey)

/-- Give an id a queue row, unless it has one. -/
def enqueue (db : Store) (k : Nat) (status : Int) : Store :=
  if db.statuses k = [] then db.insertQueue ⟨k, status, 0, none⟩ else db

/-- Set the rows of an id to done. -/
def finish (db : Store) (k : Nat) : Store :=
  db.updateQueue k fun q => { q with status := 5, comment := none }

/-- Make an id done, unless its status is final. -/
def settle (db : Store) (k : Nat) : Store :=
  if db.Done k then db else (db.enqueue k 5).finish k

/-- Give an id an archive, unless it has one, and set it to done. -/
def attach (db : Store) (k : Nat) (path : Path) : Store :=
  (db.insertArchive k path).finish k

/-- A report, as the moves it makes. -/
def report (db : Store) : Option BasicFileInfo → Option BasicFileInfo → Bool → Store × Nat
  | none, none, _ => (db, 0)
  | none, some dst, _ =>
      match db.archiveOf dst.fileName with
      | none => (db, 0)
      | some m => (db.settle m, m)
  | some src, none, queue =>
      let (db, k) := db.enter src
      (if queue then db.enqueue k 0 else db, k)
  | some src, some dst, _ =>
      let (db, k) := db.enter src
      let db := db.enqueue k 5
      if db.archives.find? k = some dst.fileName then (db, k)
      else
        match db.archiveOf dst.fileName with
        | none => (db.attach k dst.fileName, k)
        | some m => (db.settle m, m)

theorem statuses_enqueue (k : Nat) (status : Int) (id : Nat) :
    (db.enqueue k status).statuses id =
      if id = k ∧ db.statuses k = [] then [status] else db.statuses id := by
  unfold enqueue
  by_cases hnil : db.statuses k = []
  · rw [if_pos hnil, statuses_insertQueue]
    by_cases hid : id = k
    · rw [if_pos hid, if_pos ⟨hid, hnil⟩, hid, hnil]
      rfl
    · rw [if_neg hid, if_neg fun h => hid h.1]
  · rw [if_neg hnil, if_neg fun h => hnil h.2]

@[simp] theorem archives_enqueue (k : Nat) (status : Int) :
    (db.enqueue k status).archives = db.archives := by
  unfold enqueue
  split <;> rfl

@[simp] theorem sourcefiles_enqueue (k : Nat) (status : Int) :
    (db.enqueue k status).sourcefiles = db.sourcefiles := by
  unfold enqueue
  split <;> rfl

theorem enqueue_of_queued {k : Nat} (h : db.statuses k ≠ []) (status : Int) :
    db.enqueue k status = db := if_neg h

theorem statuses_finish (k id : Nat) :
    (db.finish k).statuses id = if id = k then (db.statuses k).map (fun _ => 5) else db.statuses id :=
  db.statuses_settle k id

/-- A row that was inserted as done need not be set to done. -/
theorem finish_enqueue {k : Nat} (h : db.statuses k = []) :
    (db.enqueue k 5).finish k = db.enqueue k 5 := by
  have hold : db.queue.map (fun q => if q.id = k then { q with status := 5, comment := none } else q)
      = db.queue := by
    refine (List.map_congr_left fun q hq => ?_).trans (List.map_id db.queue)
    exact if_neg (statuses_eq_nil.mp h q hq)
  unfold enqueue
  rw [if_pos h]
  unfold finish updateQueue insertQueue
  rw [List.map_append, hold]
  simp

theorem enter_of_known {src : BasicFileInfo} {k : Nat} (h : db.sourceOf src.fileName = some k) :
    db.enter src = (db, k) := by
  rw [enter, h]

/-! ## The call is the report -/

theorem statuses_enter (src : BasicFileInfo) (id : Nat) :
    (db.enter src).1.statuses id = db.statuses id := by
  unfold enter
  split <;> rfl

/-- The source part of `addFile`. -/
theorem addSource_eq (h : db.WellFormed) (src : BasicFileInfo) (dstGiven queue : Bool) :
    db.addSource src dstGiven queue =
      let (mid, k) := db.enter src
      (if queue || dstGiven then mid.enqueue k (if dstGiven then 5 else 0) else mid,
        ⟨k, decide (db.statuses k ≠ []) || (queue || dstGiven), (db.archives.find? k).getD []⟩,
        decide (db.statuses k = []) && (queue || dstGiven)) := by
  unfold addSource catalogue
  rw [lookupSource_eq h]
  cases hk : db.sourceOf src.fileName with
  | none =>
    have harch : db.archives.find? db.sourcefiles.nextKey = none := by
      rw [db.archives.find?_eq_none]
      intro hkey
      obtain ⟨file, hmem⟩ := h.archives _ hkey
      exact db.sourcefiles.nextKey_ne hmem rfl
    have hmid : statuses { db with
        sourcefiles := db.sourcefiles.append ⟨src.fileName, src.fileSize⟩ } db.sourcefiles.nextKey = [] :=
      h.statuses_nextKey
    simp only [enter, hk, if_true, harch, h.statuses_nextKey, enqueue, hmid]
    cases queue <;> cases dstGiven <;> rfl
  | some k =>
    have hne := sourceOf_ne_zero hk
    simp only [enter, hk, if_neg hne, enqueue]
    by_cases hnil : db.statuses k = [] <;> cases queue <;> cases dstGiven <;> simp [hnil]

/-- The archive part of `addFile`. -/
theorem addArchive_eq (h : db.WellFormed) (dst : BasicFileInfo) (l : SourceLookup) (putToQueue : Bool)
    (hq : l.srcId ≠ 0 → l.inQueue = true) :
    db.addArchive dst l putToQueue =
      if l.archiveName ≠ [] ∧ dst.fileName = l.archiveName then (db, l.srcId)
      else
        match db.archiveOf dst.fileName with
        | none =>
            if l.srcId = 0 then (db, 0)
            else (if putToQueue then db.insertArchive l.srcId dst.fileName
              else db.attach l.srcId dst.fileName, l.srcId)
        | some m => (db.settle m, m) := by
  unfold addArchive
  split
  · rfl
  rw [lookupArchive_eq h]
  cases hm : db.archiveOf dst.fileName with
  | none =>
    by_cases hid : l.srcId = 0
    · simp only [hid, if_true]
    · simp only [if_neg hid, hq hid, Bool.not_true, Bool.false_eq_true, if_false]
      cases putToQueue <;> rfl
  | some m =>
    have hne : m ≠ 0 := by
      rintro rfl
      obtain ⟨file, hmem⟩ := h.archives 0 ⟨_, (archiveOf_eq_some.mp hm).1⟩
      exact absurd rfl (Nat.ne_of_gt (db.sourcefiles.key_pos _ hmem))
    simp only [if_neg hne, if_true, settle]
    by_cases hnil : db.statuses m = []
    · have hdone : ¬ db.Done m := by simp [Done, hnil]
      rw [if_neg hdone, finish_enqueue hnil, enqueue, if_pos hnil]
      simp [hnil]
    · rw [enqueue_of_queued hnil]
      by_cases hdone : db.Done m <;> simp [hnil, hdone, finish]

theorem enter_ne_zero (src : BasicFileInfo) : (db.enter src).2 ≠ 0 := by
  unfold enter
  split
  · rename_i k hk
    exact sourceOf_ne_zero hk
  · exact Nat.succ_ne_zero _

/-- An id that was queued as done is not set to done again. -/
theorem attach_enqueue {k : Nat} (h : db.statuses k = []) (path : Path) :
    (db.enqueue k 5).attach k path = (db.enqueue k 5).insertArchive k path := by
  have hfinish := finish_enqueue h
  show ((db.enqueue k 5).finish k).insertArchive k path = _
  rw [hfinish]

theorem given_ne_nil {file : Option BasicFileInfo} {f : BasicFileInfo} (h : given file = some f) :
    f.fileName ≠ [] := by
  obtain ⟨-, hname⟩ := Option.filter_eq_some_iff.mp h
  exact of_decide_eq_true hname

theorem given_of_named {file : BasicFileInfo} (h : file.fileName ≠ []) : given (some file) = some file := by
  simp [given, Option.filter, h]

/-- A source that was entered and queued leaves the tables in order. -/
theorem wellFormed_entered (h : db.WellFormed) (src : BasicFileInfo) :
    ((db.enter src).1.enqueue (db.enter src).2 5).WellFormed := by
  have hspec := (addSource_spec db src true true).wellFormed h
  rw [addSource_eq h] at hspec
  exact hspec

/-- In tables that are in order a call makes the moves of a report. -/
theorem addFile_eq (h : db.WellFormed) (src dst : Option BasicFileInfo) (queue : Bool) :
    db.addFile src dst queue = db.report (given src) (given dst) queue := by
  unfold addFile
  cases hsrc : given src with
  | none =>
    cases hdst : given dst with
    | none => rfl
    | some d =>
      have hadd := addArchive_eq h d ⟨0, false, []⟩ false fun hne => absurd rfl hne
      simp only [ne_eq, not_true_eq_false, false_and, if_false, if_true] at hadd
      exact hadd
  | some s =>
    cases hdst : given dst with
    | none =>
      simp only [addSource_eq h, report]
      cases queue <;> rfl
    | some d =>
      have hmid := wellFormed_entered h s
      have hst : (db.enter s).1.statuses (db.enter s).2 = db.statuses (db.enter s).2 :=
        statuses_enter s _
      have harch : (db.enter s).1.archives = db.archives := by
        unfold enter
        split <;> rfl
      have hname : ((db.archives.find? (db.enter s).2).getD [] ≠ []
          ∧ d.fileName = (db.archives.find? (db.enter s).2).getD [])
          ↔ db.archives.find? (db.enter s).2 = some d.fileName := by
        have hne := given_ne_nil hdst
        cases db.archives.find? (db.enter s).2 with
        | none => simp
        | some name =>
          simp only [Option.getD_some, Option.some.injEq]
          constructor
          · exact fun h => h.2.symm
          · rintro rfl
            exact ⟨hne, rfl⟩
      simp only [addSource_eq h, report, Option.isSome_some, Bool.or_true, if_true, Bool.and_true]
      rw [addArchive_eq hmid d _ _ fun _ => rfl]
      simp only [hname, archives_enqueue, harch, enter_ne_zero, if_false]
      split
      · rfl
      split
      · rename_i hknown hm
        by_cases hnil : db.statuses (db.enter s).2 = []
        · rw [if_pos (decide_eq_true hnil), attach_enqueue (hst.trans hnil)]
        · rw [if_neg (by simpa using hnil)]
      · rfl

end Store

end MediaArchiver
