/-
# MediaArchiver.Store.AddFile -- what cataloguing a file can do

`Store.addFile` overwrites its own variables: the id found for the source is replaced by the id found
for the archive, and two flags are used a second time with another meaning. Read as two parts it is
simple. The source part (`SourceAdded`) finds or appends the source and gives an unqueued one a queue
row; the archive part (`ArchiveAdded`) attaches the archive's path to some id and makes sure that this
id is done. When the archive part runs with a source, that source is queued already.
-/
import MediaArchiver.Store.Statuses

namespace MediaArchiver

open Lib (Table AutoTable)

namespace Store

/-! ## The look-ups -/

theorem leftJoin_ne_nil {α : Type} (l : List α) : leftJoin l ≠ [] := by
  cases l <;> simp [leftJoin]

theorem isSome_of_mem_leftJoin {α : Type} {l : List α} {o : Option α} (h : o ∈ leftJoin l) :
    o.isSome = true ↔ l ≠ [] := by
  cases l with
  | nil =>
    rw [List.mem_singleton.mp h]
    simp
  | cons a as =>
    obtain ⟨b, _, rfl⟩ := List.mem_map.mp h
    simp

theorem mem_sourceRows {db : Store} {path : Path} {row : Nat × Option Int × Option Path} :
    row ∈ db.sourceRows path ↔
      ∃ file, (row.1, file) ∈ db.sourcefiles.rows ∧ file.path = path
        ∧ row.2.1 ∈ leftJoin (db.statuses row.1) ∧ row.2.2 = db.archives.find? row.1 := by
  obtain ⟨id, status, archive⟩ := row
  simp only [sourceRows, List.mem_flatMap, List.mem_filter, List.mem_map, decide_eq_true_eq,
    Prod.mk.injEq]
  constructor
  · rintro ⟨⟨id', file⟩, ⟨hmem, hpath⟩, st, hst, rfl, rfl, rfl⟩
    exact ⟨file, hmem, hpath, hst, rfl⟩
  · rintro ⟨file, hmem, hpath, hst, rfl⟩
    exact ⟨(id, file), ⟨hmem, hpath⟩, status, hst, rfl, rfl, rfl⟩

/-- The source look-up finds nothing, or assigns the id of a row with the path. -/
theorem lookupSource_cases (db : Store) (path : Path) :
    (db.lookupSource path = ⟨0, false, []⟩ ∧ ∀ row ∈ db.sourcefiles.rows, row.2.path ≠ path) ∨
    ∃ file, ((db.lookupSource path).srcId, file) ∈ db.sourcefiles.rows ∧ file.path = path
      ∧ ((db.lookupSource path).inQueue = true ↔ db.statuses (db.lookupSource path).srcId ≠ []) := by
  unfold lookupSource
  rcases List.eq_nil_or_concat (db.sourceRows path) with hnil | ⟨init, row, hrows⟩
  · left
    refine ⟨by rw [hnil]; rfl, ?_⟩
    rintro ⟨id, file⟩ hmem hpath
    obtain ⟨status, hst⟩ := List.exists_mem_of_ne_nil _ (leftJoin_ne_nil (db.statuses id))
    have : (id, status, db.archives.find? id) ∈ db.sourceRows path :=
      mem_sourceRows.mpr ⟨file, hmem, hpath, hst, rfl⟩
    rw [hnil] at this
    exact absurd this List.not_mem_nil
  · right
    have hmem : row ∈ db.sourceRows path := by simp [hrows]
    obtain ⟨file, hfile, hpath, hst, _⟩ := mem_sourceRows.mp hmem
    rw [hrows, List.concat_eq_append, List.foldl_append]
    exact ⟨file, hfile, hpath, isSome_of_mem_leftJoin hst⟩

theorem lookupSource_unknown {db : Store} {path : Path} (h : ∀ row ∈ db.sourcefiles.rows, row.2.path ≠ path) :
    db.lookupSource path = ⟨0, false, []⟩ := by
  rcases db.lookupSource_cases path with ⟨hl, -⟩ | ⟨file, hfile, hpath, -⟩
  · exact hl
  · exact absurd hpath (h _ hfile)

/-- The archive name the source look-up assigns is the archive of some row with the path. -/
theorem archiveName_lookupSource (db : Store) (path : Path) :
    (db.lookupSource path).archiveName = [] ∨
    ∃ id file, (id, file) ∈ db.sourcefiles.rows ∧ file.path = path
      ∧ db.archives.find? id = some (db.lookupSource path).archiveName := by
  -- the name survives from row to row, so the claim is about every prefix of the scan
  suffices h : ∀ rows : List (Nat × Option Int × Option Path),
      (∀ row ∈ rows, row ∈ db.sourceRows path) → ∀ l : SourceLookup,
      (l.archiveName = [] ∨ ∃ id file, (id, file) ∈ db.sourcefiles.rows ∧ file.path = path
        ∧ db.archives.find? id = some l.archiveName) →
      ((rows.foldl SourceLookup.assign l).archiveName = [] ∨
        ∃ id file, (id, file) ∈ db.sourcefiles.rows ∧ file.path = path
          ∧ db.archives.find? id = some (rows.foldl SourceLookup.assign l).archiveName) from
    h _ (fun _ => id) ⟨0, false, []⟩ (Or.inl rfl)
  intro rows
  induction rows with
  | nil => exact fun _ _ hl => hl
  | cons row rows ih =>
    intro hrows l hl
    apply ih (fun r hr => hrows r (List.mem_cons_of_mem _ hr))
    obtain ⟨file, hfile, hpath, _, harch⟩ := mem_sourceRows.mp (hrows row List.mem_cons_self)
    cases hname : row.2.2 with
    | none => simpa only [SourceLookup.assign, hname] using hl
    | some name =>
      by_cases hne : name = []
      · simpa only [SourceLookup.assign, hname, hne, if_true] using hl
      · refine Or.inr ⟨row.1, file, hfile, hpath, ?_⟩
        simp only [SourceLookup.assign, hname, hne, if_false]
        rw [← harch, hname]

theorem mem_archiveRows {db : Store} {path : Path} {row : Nat × Option Int} :
    row ∈ db.archiveRows path ↔
      (row.1, path) ∈ db.archives.rows ∧ row.2 ∈ leftJoin (db.statuses row.1) := by
  obtain ⟨id, status⟩ := row
  simp only [archiveRows, List.mem_flatMap, List.mem_filter, List.mem_map, decide_eq_true_eq,
    Prod.mk.injEq]
  constructor
  · rintro ⟨⟨id', path'⟩, ⟨hmem, rfl⟩, st, hst, rfl, rfl⟩
    exact ⟨hmem, hst⟩
  · rintro ⟨hmem, hst⟩
    exact ⟨(id, path), ⟨hmem, rfl⟩, status, hst, rfl, rfl⟩

/-- The path is the path of an archive. -/
def Archived (db : Store) (path : Path) : Prop := ∃ a ∈ db.archives.rows, a.2 = path

instance (db : Store) (path : Path) : Decidable (db.Archived path) :=
  inferInstanceAs (Decidable (∃ a ∈ _, _))

/-- The archive look-up leaves everything as it was, or assigns the id of a row with the path. -/
theorem lookupArchive_cases (db : Store) (path : Path) (a : ArchiveLookup) :
    ((db.archiveRows path).foldl ArchiveLookup.assign a = a ∧ ¬ db.Archived path) ∨
    ∃ id ptq, (id, path) ∈ db.archives.rows
      ∧ (db.archiveRows path).foldl ArchiveLookup.assign a
        = ⟨true, id, decide (db.statuses id ≠ []), ptq⟩ := by
  rcases List.eq_nil_or_concat (db.archiveRows path) with hnil | ⟨init, row, hrows⟩
  · left
    refine ⟨by rw [hnil]; rfl, ?_⟩
    rintro ⟨⟨id, _⟩, hmem, rfl⟩
    obtain ⟨status, hst⟩ := List.exists_mem_of_ne_nil _ (leftJoin_ne_nil (db.statuses id))
    have : (id, status) ∈ db.archiveRows _ := mem_archiveRows.mpr ⟨hmem, hst⟩
    rw [hnil] at this
    exact absurd this List.not_mem_nil
  · right
    have hmem : row ∈ db.archiveRows path := by simp [hrows]
    obtain ⟨harch, hst⟩ := mem_archiveRows.mp hmem
    have hq : row.2.isSome = decide (db.statuses row.1 ≠ []) := by
      rw [Bool.eq_iff_iff, isSome_of_mem_leftJoin hst, decide_eq_true_iff]
    rw [hrows, List.concat_eq_append, List.foldl_append]
    exact ⟨row.1, _, harch, by rw [← hq]; rfl⟩

/-! ## The source part -/

/-- What the source part of `addFile` leaves behind. -/
structure SourceAdded (db : Store) (src : BasicFileInfo) (dstGiven : Bool) (db' : Store)
    (l : SourceLookup) : Prop where
  catalogued : ∃ file, (l.srcId, file) ∈ db'.sourcefiles.rows ∧ file.path = src.fileName
  archives : db'.archives = db.archives
  sourcefiles : (db'.sourcefiles = db.sourcefiles
      ∧ l.archiveName = (db.lookupSource src.fileName).archiveName) ∨
    (db'.sourcefiles = db.sourcefiles.append ⟨src.fileName, src.fileSize⟩
      ∧ (∀ row ∈ db.sourcefiles.rows, row.2.path ≠ src.fileName)
      ∧ l.srcId = db.sourcefiles.nextKey ∧ l.archiveName = [])
  others : ∀ id, id ≠ l.srcId → db'.statuses id = db.statuses id
  own : db'.statuses l.srcId = db.statuses l.srcId ∨
    (db'.statuses l.srcId = db.statuses l.srcId ++ [if dstGiven then 5 else 0]
      ∧ (db.statuses l.srcId = [] ∨ l.srcId = db.sourcefiles.nextKey))
  queued : dstGiven = true → l.inQueue = true

/-- A source that is not known is catalogued and queued. -/
theorem addSource_unknown {db : Store} {src : BasicFileInfo}
    (hnew : ∀ row ∈ db.sourcefiles.rows, row.2.path ≠ src.fileName) {dstGiven queue : Bool}
    (hput : (queue || dstGiven) = true) :
    db.addSource src dstGiven queue
      = ({ db with sourcefiles := db.sourcefiles.append ⟨src.fileName, src.fileSize⟩ }.insertQueue
          ⟨db.sourcefiles.nextKey, if dstGiven then 5 else 0, 0, none⟩,
        ⟨db.sourcefiles.nextKey, true, []⟩, true) := by
  simp only [addSource, catalogue, lookupSource_unknown hnew, if_true, Bool.not_false, hput, Bool.and_self]

theorem addSource_spec (db : Store) (src : BasicFileInfo) (dstGiven queue : Bool) :
    SourceAdded db src dstGiven (db.addSource src dstGiven queue).1
      (db.addSource src dstGiven queue).2.1 := by
  unfold addSource catalogue
  rcases db.lookupSource_cases src.fileName with ⟨hl, hnew⟩ | ⟨file, hfile, hpath, hq⟩
  · rw [hl]
    simp only [if_true, Bool.not_false, Bool.true_and]
    have hmem : (db.sourcefiles.nextKey, SourceFile.mk src.fileName src.fileSize)
        ∈ (db.sourcefiles.append ⟨src.fileName, src.fileSize⟩).rows :=
      (db.sourcefiles.mem_append _ _).mpr (Or.inr rfl)
    by_cases hput : (queue || dstGiven) = true
    · rw [if_pos hput]
      refine ⟨⟨_, hmem, rfl⟩, rfl, Or.inr ⟨rfl, hnew, rfl, rfl⟩, ?_, Or.inr ⟨?_, Or.inr rfl⟩,
        fun _ => rfl⟩
      · intro id hid
        rw [statuses_insertQueue, if_neg hid]
        rfl
      · rw [statuses_insertQueue, if_pos rfl]
        rfl
    · rw [if_neg hput]
      refine ⟨⟨_, hmem, rfl⟩, rfl, Or.inr ⟨rfl, hnew, rfl, rfl⟩, fun _ _ => rfl, Or.inl rfl, ?_⟩
      intro hd
      exact absurd (by rw [hd, Bool.or_true]) hput
  · have hne : (db.lookupSource src.fileName).srcId ≠ 0 :=
      Nat.ne_of_gt (db.sourcefiles.key_pos _ hfile)
    rw [if_neg hne]
    simp only
    by_cases hput : (!(db.lookupSource src.fileName).inQueue && (queue || dstGiven)) = true
    · have hnil : db.statuses (db.lookupSource src.fileName).srcId = [] := by
        by_contra h
        rw [hq.mpr h] at hput
        exact absurd hput (by simp)
      rw [if_pos hput]
      refine ⟨⟨file, hfile, hpath⟩, rfl, Or.inl ⟨rfl, rfl⟩, ?_, Or.inr ⟨?_, Or.inl hnil⟩,
        fun _ => rfl⟩
      · intro id hid
        rw [statuses_insertQueue, if_neg hid]
      · rw [statuses_insertQueue, if_pos rfl]
    · rw [if_neg hput]
      refine ⟨⟨file, hfile, hpath⟩, rfl, Or.inl ⟨rfl, rfl⟩, fun _ _ => rfl, Or.inl rfl, ?_⟩
      intro hd
      rw [hd, Bool.or_true, Bool.and_true] at hput
      simpa using hput

/-! ## The archive part -/

/-- What the archive part of `addFile` leaves behind. -/
structure ArchiveAdded (db : Store) (dst : BasicFileInfo) (l : SourceLookup) (db' : Store) : Prop where
  sourcefiles : db'.sourcefiles = db.sourcefiles
  keeps : ∀ id, db.archives.HasKey id → db'.archives.HasKey id
  adds : ∀ id, db'.archives.HasKey id → db.archives.HasKey id ∨ (id = l.srcId ∧ l.srcId ≠ 0)
  statuses : ∀ id, db'.statuses id = db.statuses id ∨
    (db'.archives.HasKey id ∧ (db'.statuses id = (db.statuses id).map (fun _ => 5) ∨
      (db.statuses id = [] ∧ db'.statuses id = [5])))
  settles : l.srcId ≠ 0 → (l.archiveName ≠ [] ∧ dst.fileName = l.archiveName) ∨
    db.Archived dst.fileName ∨ db'.archives.HasKey l.srcId

/-- Setting all rows of one id to done is all the archive part ever does to a queued id. -/
theorem statuses_settle (db : Store) (k id : Nat) :
    (db.updateQueue k fun q => { q with status := 5, comment := none }).statuses id
      = if id = k then (db.statuses k).map (fun _ => 5) else db.statuses id :=
  db.statuses_updateQueue k (fun q => { q with status := 5, comment := none }) 5 (fun _ => rfl)
    (fun _ => rfl) id

/-- Nothing is done, for one of the reasons there are. -/
theorem ArchiveAdded.refl {db : Store} {dst : BasicFileInfo} {l : SourceLookup}
    (h : l.srcId ≠ 0 → (l.archiveName ≠ [] ∧ dst.fileName = l.archiveName) ∨
      db.Archived dst.fileName ∨ db.archives.HasKey l.srcId) : ArchiveAdded db dst l db :=
  ⟨rfl, fun _ => id, fun _ => Or.inl, fun _ => Or.inl rfl, h⟩

/-- The archive goes to the source. -/
theorem archiveAdded_insertArchive (db : Store) (dst : BasicFileInfo) {l : SourceLookup}
    (hid : l.srcId ≠ 0) : ArchiveAdded db dst l (db.insertArchive l.srcId dst.fileName) := by
  refine ⟨rfl, ?_, ?_, fun _ => Or.inl rfl, fun _ => Or.inr (Or.inr ?_)⟩
  · intro id hkey
    exact (hasKey_insertArchive ..).mpr (Or.inr hkey)
  · intro id hkey
    rcases (hasKey_insertArchive ..).mp hkey with rfl | h
    · exact Or.inr ⟨rfl, hid⟩
    · exact Or.inl h
  · exact (hasKey_insertArchive ..).mpr (Or.inl rfl)

/-- An archived id is set to done on top. -/
theorem ArchiveAdded.settle {db mid : Store} {dst : BasicFileInfo} {l : SourceLookup}
    (h : ArchiveAdded db dst l mid) (hsame : ∀ id, mid.statuses id = db.statuses id) {k : Nat}
    (hkey : mid.archives.HasKey k) :
    ArchiveAdded db dst l (mid.updateQueue k fun q => { q with status := 5, comment := none }) := by
  refine ⟨h.sourcefiles, h.keeps, h.adds, ?_, h.settles⟩
  intro id
  rw [statuses_settle, hsame, hsame]
  by_cases hid : id = k
  · rw [if_pos hid, hid]
    exact Or.inr ⟨hkey, Or.inl rfl⟩
  · rw [if_neg hid]
    exact Or.inl rfl

/-- An archived id without a row gets one on top that says done. -/
theorem ArchiveAdded.enqueue {db mid : Store} {dst : BasicFileInfo} {l : SourceLookup}
    (h : ArchiveAdded db dst l mid) (hsame : ∀ id, mid.statuses id = db.statuses id) {k : Nat}
    (hkey : mid.archives.HasKey k) (hnil : db.statuses k = []) :
    ArchiveAdded db dst l (mid.insertQueue ⟨k, 5, 0, none⟩) := by
  refine ⟨h.sourcefiles, h.keeps, h.adds, ?_, h.settles⟩
  intro id
  rw [statuses_insertQueue, hsame]
  by_cases hid : id = k
  · rw [if_pos hid, hid, hnil]
    exact Or.inr ⟨hkey, Or.inr ⟨rfl, rfl⟩⟩
  · rw [if_neg hid]
    exact Or.inl rfl

theorem addArchive_spec (db : Store) (dst : BasicFileInfo) (l : SourceLookup) (putToQueue : Bool)
    (hq : l.srcId ≠ 0 → l.inQueue = true) :
    ArchiveAdded db dst l (db.addArchive dst l putToQueue).1 := by
  unfold addArchive
  by_cases hsame : l.archiveName ≠ [] ∧ dst.fileName = l.archiveName
  · rw [if_pos hsame]
    exact .refl fun _ => Or.inl hsame
  rw [if_neg hsame]
  rcases db.lookupArchive_cases dst.fileName ⟨false, l.srcId, l.inQueue, putToQueue⟩ with
    ⟨ha, _⟩ | ⟨k, ptq, hk, ha⟩
  · -- the archive is new: it goes to the source, which is queued
    rw [ha]
    by_cases hid : l.srcId = 0
    · simp only [hid, if_true]
      exact .refl fun h => absurd hid h
    · have hadded := archiveAdded_insertArchive db dst hid
      simp only [if_neg hid, Bool.false_eq_true, if_false, hq hid, Bool.not_true]
      cases putToQueue with
      | true =>
        simp only [Bool.not_true, Bool.false_eq_true, if_false]
        exact hadded
      | false =>
        simp only [Bool.not_false, if_true]
        exact hadded.settle (fun _ => rfl) ((hasKey_insertArchive ..).mpr (Or.inl rfl))
  · -- the archive is known: the source gives way to the id it is known under
    rw [ha]
    have hkey : db.archives.HasKey k := ⟨dst.fileName, hk⟩
    have hadded : ArchiveAdded db dst l db := .refl fun _ => Or.inr (Or.inl ⟨_, hk, rfl⟩)
    by_cases hid : k = 0
    · simp only [hid, if_true]
      exact hadded
    · simp only [if_neg hid, if_true]
      by_cases hnil : db.statuses k = []
      · simp only [hnil, ne_eq, not_true_eq_false, decide_false, Bool.not_false, if_true]
        exact hadded.enqueue (fun _ => rfl) hkey hnil
      · simp only [ne_eq, hnil, not_false_eq_true, decide_true, Bool.not_true, Bool.false_eq_true,
          if_false]
        split
        · exact hadded.settle (fun _ => rfl) hkey
        · exact hadded

/-! ## The whole of `addFile` -/

/-- `addFile` is its two parts, one after the other; either may be missing. -/
theorem addFile_parts (db : Store) (src dst : Option BasicFileInfo) (queue : Bool) :
    ∃ mid l,
      ((given src = none ∧ mid = db ∧ l = ⟨0, false, []⟩) ∨
        ∃ s, given src = some s ∧ SourceAdded db s (given dst).isSome mid l) ∧
      ((given dst = none ∧ (db.addFile src dst queue).1 = mid) ∨
        ∃ d, given dst = some d ∧ ArchiveAdded mid d l (db.addFile src dst queue).1) := by
  unfold addFile
  cases hsrc : given src with
  | none =>
    refine ⟨db, ⟨0, false, []⟩, Or.inl ⟨rfl, rfl, rfl⟩, ?_⟩
    cases hdst : given dst with
    | none => exact Or.inl ⟨rfl, rfl⟩
    | some d => exact Or.inr ⟨d, rfl, addArchive_spec db d _ _ fun h => absurd rfl h⟩
  | some s =>
    have hspec := addSource_spec db s (given dst).isSome queue
    refine ⟨_, _, Or.inr ⟨s, rfl, hspec⟩, ?_⟩
    cases hdst : given dst with
    | none => exact Or.inl ⟨rfl, rfl⟩
    | some d =>
      rw [hdst] at hspec
      exact Or.inr ⟨d, rfl, addArchive_spec _ d _ _ fun _ => hspec.queued rfl⟩

theorem SourceAdded.rows_keep {db mid : Store} {s : BasicFileInfo} {dstGiven : Bool}
    {l : SourceLookup} (h : SourceAdded db s dstGiven mid l) {r : Nat × SourceFile}
    (hr : r ∈ db.sourcefiles.rows) : r ∈ mid.sourcefiles.rows := by
  rcases h.sourcefiles with ⟨heq, _⟩ | ⟨heq, _⟩
  · rw [heq]
    exact hr
  · rw [heq]
    exact (db.sourcefiles.mem_append _ _).mpr (Or.inl hr)

/-- The source part leaves the rows of an id alone, or gives it one: done if an archive is given,
not started otherwise. Only an id without rows, or a new id, is given one. -/
theorem SourceAdded.statuses {db mid : Store} {s : BasicFileInfo} {dstGiven : Bool}
    {l : SourceLookup} (h : SourceAdded db s dstGiven mid l) (id : Nat) :
    mid.statuses id = db.statuses id ∨
      (id = l.srcId ∧ mid.statuses id = db.statuses id ++ [if dstGiven then 5 else 0]
        ∧ (db.statuses id = [] ∨ id = db.sourcefiles.nextKey)) := by
  by_cases hid : id = l.srcId
  · subst hid
    rcases h.own with hsame | ⟨hadd, hnew⟩
    · exact Or.inl hsame
    · exact Or.inr ⟨rfl, hadd, hnew⟩
  · exact Or.inl (h.others id hid)

/-- What both parts keep, `addFile` keeps. -/
theorem addFile_keeps {P : Store → Prop} {db : Store} (h : P db)
    (hsrc : ∀ {s dstGiven mid l}, SourceAdded db s dstGiven mid l → P mid)
    (hdst : ∀ {mid d l db'}, ArchiveAdded mid d l db' → P mid → P db')
    (src dst : Option BasicFileInfo) (queue : Bool) : P (db.addFile src dst queue).1 := by
  obtain ⟨mid, l, hs, hd⟩ := db.addFile_parts src dst queue
  have hmid : P mid := by
    rcases hs with ⟨_, rfl, _⟩ | ⟨_, _, hs⟩
    · exact h
    · exact hsrc hs
  rcases hd with ⟨_, heq⟩ | ⟨_, _, hd⟩
  · rw [heq]
    exact hmid
  · exact hdst hd hmid

/-- Catalogued sources stay catalogued. -/
theorem rows_addFile (db : Store) (src dst : Option BasicFileInfo) (queue : Bool)
    {r : Nat × SourceFile} (hr : r ∈ db.sourcefiles.rows) :
    r ∈ (db.addFile src dst queue).1.sourcefiles.rows := by
  apply addFile_keeps (P := fun db => r ∈ db.sourcefiles.rows) hr
  · intro s dstGiven mid l hs
    exact hs.rows_keep hr
  · intro mid d l db' hd hmid
    rw [hd.sourcefiles]
    exact hmid

/-- Archives stay. -/
theorem hasKey_addFile (db : Store) (src dst : Option BasicFileInfo) (queue : Bool) {id : Nat}
    (hid : db.archives.HasKey id) : (db.addFile src dst queue).1.archives.HasKey id := by
  apply addFile_keeps (P := fun db => db.archives.HasKey id) hid
  · intro s dstGiven mid l hs
    rw [hs.archives]
    exact hid
  · intro mid d l db' hd hmid
    exact hd.keeps id hmid

/-- The rows of a catalogued and queued id are left alone, or all set to done. -/
theorem statuses_addFile_of_queued (db : Store) (src dst : Option BasicFileInfo) (queue : Bool)
    {id : Nat} (hcat : db.sourcefiles.HasKey id) (hq : db.statuses id ≠ []) :
    (db.addFile src dst queue).1.statuses id = db.statuses id ∨
      (db.addFile src dst queue).1.statuses id = (db.statuses id).map fun _ => 5 := by
  obtain ⟨mid, l, hs, hd⟩ := db.addFile_parts src dst queue
  have hmid : mid.statuses id = db.statuses id := by
    rcases hs with ⟨_, rfl, _⟩ | ⟨s, _, hs⟩
    · rfl
    · rcases hs.statuses id with hsame | ⟨_, _, hnil | hnew⟩
      · exact hsame
      · exact absurd hnil hq
      · obtain ⟨file, hmem⟩ := hcat
        exact absurd hnew (db.sourcefiles.nextKey_ne hmem)
  rcases hd with ⟨_, heq⟩ | ⟨d, _, hd⟩
  · rw [heq]
    exact Or.inl hmid
  · rcases hd.statuses id with hsame | ⟨_, hset | ⟨hnil, _⟩⟩
    · exact Or.inl (hsame.trans hmid)
    · rw [hset, hmid]
      exact Or.inr rfl
    · rw [hmid] at hnil
      exact absurd hnil hq

/-- `addFile` never writes another status than not started and done. -/
theorem mem_statuses_addFile (db : Store) (src dst : Option BasicFileInfo) (queue : Bool)
    {id : Nat} {status : Int} (hst : status ∈ (db.addFile src dst queue).1.statuses id) :
    status ∈ db.statuses id ∨ status = 0 ∨ status = 5 := by
  obtain ⟨mid, l, hs, hd⟩ := db.addFile_parts src dst queue
  have hmid : status ∈ mid.statuses id → status ∈ db.statuses id ∨ status = 0 ∨ status = 5 := by
    intro h
    rcases hs with ⟨_, rfl, _⟩ | ⟨s, _, hs⟩
    · exact Or.inl h
    · rcases hs.statuses id with hsame | ⟨_, hadd, _⟩
      · exact Or.inl (hsame ▸ h)
      · rw [hadd] at h
        rcases List.mem_append.mp h with h | h
        · exact Or.inl h
        · rw [List.mem_singleton.mp h]
          split <;> simp
  rcases hd with ⟨_, heq⟩ | ⟨d, _, hd⟩
  · exact hmid (heq ▸ hst)
  · rcases hd.statuses id with hsame | ⟨_, hset | ⟨_, hset⟩⟩
    · exact hmid (hsame ▸ hst)
    · rw [hset] at hst
      obtain ⟨_, _, rfl⟩ := List.mem_map.mp hst
      exact Or.inr (Or.inr rfl)
    · rw [hset] at hst
      exact Or.inr (Or.inr (List.mem_singleton.mp hst))

/-! ## Paths are unique -/

/-- No two catalogue rows have the same path. -/
def PathsUnique (db : Store) : Prop :=
  ∀ i j f g, (i, f) ∈ db.sourcefiles.rows → (j, g) ∈ db.sourcefiles.rows → f.path = g.path → i = j

/-- Only the catalogue matters. -/
theorem PathsUnique.of_eq {db db' : Store} (h : db.PathsUnique)
    (hsrc : db'.sourcefiles = db.sourcefiles) : db'.PathsUnique := by
  unfold PathsUnique
  rw [hsrc]
  exact h

theorem SourceAdded.pathsUnique {db mid : Store} {s : BasicFileInfo} {dstGiven : Bool}
    {l : SourceLookup} (h : SourceAdded db s dstGiven mid l) (hu : db.PathsUnique) :
    mid.PathsUnique := by
  rcases h.sourcefiles with ⟨heq, _⟩ | ⟨heq, hnew, _⟩
  · exact hu.of_eq heq
  · intro i j f g hi hj hpath
    rw [heq, db.sourcefiles.mem_append] at hi hj
    rcases hi with hi | hi <;> rcases hj with hj | hj
    · exact hu i j f g hi hj hpath
    · cases hj
      exact absurd hpath (hnew _ hi)
    · cases hi
      exact absurd hpath.symm (hnew _ hj)
    · cases hi
      cases hj
      rfl

theorem pathsUnique_addFile (db : Store) (src dst : Option BasicFileInfo) (queue : Bool)
    (hu : db.PathsUnique) : (db.addFile src dst queue).1.PathsUnique := by
  apply addFile_keeps hu
  · intro s dstGiven mid l hs
    exact hs.pathsUnique hu
  · intro mid d l db' hd hmid
    exact hmid.of_eq hd.sourcefiles

/-! ## When a row becomes done -/

/-- The source of the path has a queue row or an archive already. -/
def Settled (db : Store) (path : Path) : Prop :=
  ∃ s ∈ db.sourcefiles.rows, s.2.path = path ∧ (db.statuses s.1 ≠ [] ∨ db.archives.HasKey s.1)

instance (db : Store) (path : Path) : Decidable (db.Settled path) :=
  inferInstanceAs (Decidable (∃ s ∈ _, _ ∧ _))

/-- A source and an archive may be added together if an archive that is known already does not come
with a source that has to be queued. -/
def MayPair (db : Store) (src dst : Option BasicFileInfo) : Prop :=
  ∀ s ∈ given src, ∀ d ∈ given dst, db.Archived d.fileName → db.Settled s.fileName

instance (db : Store) (src dst : Option BasicFileInfo) : Decidable (db.MayPair src dst) :=
  inferInstanceAs (Decidable (∀ s ∈ _, ∀ d ∈ _, _ → _))

/-- A source that got its row together with an archive has an archive afterwards: each way in which
the archive part leaves it is one. -/
theorem archived_of_new_row {db mid db' : Store} {s d : BasicFileInfo} {dstGiven : Bool}
    {l : SourceLookup} (hs : SourceAdded db s dstGiven mid l) (hd : ArchiveAdded mid d l db')
    (hu : db.PathsUnique) (hsettled : db.Archived d.fileName → db.Settled s.fileName)
    (hnew : db.statuses l.srcId = [] ∨ l.srcId = db.sourcefiles.nextKey) :
    db'.archives.HasKey l.srcId := by
  obtain ⟨file, hfile, hpath⟩ := hs.catalogued
  have hne : l.srcId ≠ 0 := Nat.ne_of_gt (mid.sourcefiles.key_pos _ hfile)
  -- a catalogue row with the path of the source is the row of the source
  have hrow : ∀ i f, (i, f) ∈ db.sourcefiles.rows → f.path = s.fileName →
      i = l.srcId ∧ (l.srcId, file) ∈ db.sourcefiles.rows := by
    intro i f hi hf
    rcases hs.sourcefiles with ⟨hsrc, _⟩ | ⟨_, hnone, _⟩
    · rw [hsrc] at hfile
      exact ⟨hu i l.srcId f file hi hfile (hf.trans hpath.symm), hfile⟩
    · exact absurd hf (hnone _ hi)
  rcases hd.settles hne with ⟨hname, _⟩ | ⟨a, ha, hpath'⟩ | hkey
  · rcases hs.sourcefiles with ⟨_, harch⟩ | ⟨_, _, _, hnil⟩
    · rcases db.archiveName_lookupSource s.fileName with hnil | ⟨i, f, hi, hf, hfind⟩
      · exact absurd (harch.trans hnil) hname
      · obtain ⟨rfl, _⟩ := hrow i f hi hf
        apply hd.keeps
        rw [hs.archives]
        exact db.archives.isSome_find?.mp (by rw [hfind]; rfl)
    · exact absurd hnil hname
  · rw [hs.archives] at ha
    obtain ⟨⟨i, f⟩, hi, hf, hcase⟩ := hsettled ⟨a, ha, hpath'⟩
    obtain ⟨rfl, hmem⟩ := hrow i f hi hf
    rcases hcase with hq | hkey
    · rcases hnew with hnil | hnew
      · exact absurd hnil hq
      · exact absurd hnew (db.sourcefiles.nextKey_ne hmem)
    · apply hd.keeps
      rw [hs.archives]
      exact hkey
  · exact hkey

/-- Under `MayPair`, what `addFile` makes done has an archive. -/
theorem done_addFile (db : Store) (src dst : Option BasicFileInfo) (queue : Bool)
    (hu : db.PathsUnique) (hpair : db.MayPair src dst) {id : Nat}
    (hdone : 5 ∈ (db.addFile src dst queue).1.statuses id) :
    5 ∈ db.statuses id ∨ (db.addFile src dst queue).1.archives.HasKey id := by
  obtain ⟨mid, l, hs, hd⟩ := db.addFile_parts src dst queue
  rcases hd with ⟨hnone, heq⟩ | ⟨d, hsome, hd⟩
  · -- without an archive the source is queued as not started
    rw [heq] at hdone ⊢
    rcases hs with ⟨_, rfl, _⟩ | ⟨s, _, hs⟩
    · exact Or.inl hdone
    · rw [hnone] at hs
      rcases hs.statuses id with hsame | ⟨_, hadd, _⟩
      · exact Or.inl (hsame ▸ hdone)
      · rw [hadd] at hdone
        rcases List.mem_append.mp hdone with h | h
        · exact Or.inl h
        · exact absurd (List.mem_singleton.mp h) (by decide)
  · rcases hd.statuses id with hsame | ⟨hkey, _⟩
    · rw [hsame] at hdone
      rcases hs with ⟨_, rfl, _⟩ | ⟨s, hgiven, hs⟩
      · exact Or.inl hdone
      · rcases hs.statuses id with hsame' | ⟨rfl, _, hnew⟩
        · exact Or.inl (hsame' ▸ hdone)
        · exact Or.inr (archived_of_new_row hs hd hu (hpair s hgiven d hsome) hnew)
    · exact Or.inr hkey

end Store

end MediaArchiver
