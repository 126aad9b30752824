/-
# MediaArchiver.Store.Pairing -- what cataloguing makes of sources and archives

As long as files are only reported and none is handed out, the database is simple to describe. Each
source that was named is catalogued. Each source and archive that were named together are paired, unless
one of the two has been paired before: the archive look-up finds the archive under the id of another
source, or the insert does nothing on a conflict. That is a greedy matching (`MediaArchiver.Lib.Matching`),
taken in the order of the calls, and `Paired` says that the tables hold it.

A source that is paired is done, and a source that was only named is not started. In between is a source
that was named together with an archive but not paired: it is done if the pair was the first thing
reported of it, and not started if it was named alone before.
-/
import MediaArchiver.Lib.Matching
import MediaArchiver.Store.Reports

namespace MediaArchiver

open Lib (Table AutoTable greedy take Compatible)

namespace Store

variable {db : Store}

/-! ## The look-ups of a catalogue in order -/

/-- The source look-up of a catalogued path with one queue row. -/
theorem lookupSource_known (hwf : db.WellFormed) {id : Nat} {file : SourceFile}
    (hmem : (id, file) ∈ db.sourcefiles.rows) {status : Int} (hst : db.statuses id = [status]) :
    db.lookupSource file.path = ⟨id, true, (db.archives.find? id).getD []⟩ := by
  rw [lookupSource_eq hwf, sourceOf_of_mem hwf.paths hmem]
  simp [hst]

/-- The archive look-up of an archive that is known for one source, which is done. -/
theorem archiveRows_known {k : Nat} {path : Path} (hk : db.archives.find? k = some path)
    (hone : ∀ id, db.archives.find? id = some path → id = k) (hst : db.statuses k = [5]) :
    db.archiveRows path = [(k, some 5)] := by
  have hmem : (k, path) ∈ db.archives.rows := db.archives.find?_eq_some.mp hk
  have hrow : db.archives.rows.filter (fun a => a.2 = path) = [(k, path)] := by
    apply db.archives.filter_eq_singleton hmem (decide_eq_true rfl)
    rintro ⟨id, path'⟩ hmem' hpath
    obtain rfl : path' = path := of_decide_eq_true hpath
    rw [hone id (db.archives.find?_eq_some.mpr hmem')]
  unfold archiveRows
  rw [hrow]
  simp only [List.flatMap_cons, List.flatMap_nil, List.append_nil, hst, leftJoin, List.map_cons,
    List.map_nil]

theorem archiveRows_unknown {path : Path} (h : ∀ id, db.archives.find? id ≠ some path) :
    db.archiveRows path = [] := by
  rw [List.eq_nil_iff_forall_not_mem]
  rintro ⟨id, status⟩ hrow
  exact h id (db.archives.find?_eq_some.mpr (mem_archiveRows.mp hrow).1)

/-! ## The two parts of `addFile` in that case -/

theorem addSource_known {src : BasicFileInfo} {id : Nat} {archiveName : Path} (hid : id ≠ 0)
    (hl : db.lookupSource src.fileName = ⟨id, true, archiveName⟩) (dstGiven queue : Bool) :
    db.addSource src dstGiven queue = (db, ⟨id, true, archiveName⟩, false) := by
  simp only [addSource, catalogue, hl, hid, if_false, Bool.not_true, Bool.false_and,
    Bool.false_eq_true]

/-- An archive that is known, for a source that is done, changes nothing. -/
theorem addArchive_known {dst : BasicFileInfo} {k : Nat}
    (hrows : db.archiveRows dst.fileName = [(k, some 5)]) (l : SourceLookup) (putToQueue : Bool) :
    (db.addArchive dst l putToQueue).1 = db := by
  unfold addArchive
  split
  · rfl
  · simp only [hrows, List.foldl_cons, List.foldl_nil, ArchiveLookup.assign, Option.isSome_some,
      if_true, Bool.not_true, Bool.false_eq_true, if_false]
    split
    · rfl
    · simp

/-- An archive that is not known goes to the source, if that has none, and the source is done. -/
theorem addArchive_unknown {dst : BasicFileInfo} {l : SourceLookup}
    (hrows : db.archiveRows dst.fileName = []) (hid : l.srcId ≠ 0) (hq : l.inQueue = true)
    (hname : ¬ (l.archiveName ≠ [] ∧ dst.fileName = l.archiveName)) (putToQueue : Bool) :
    (db.addArchive dst l putToQueue).1
      = if putToQueue then db.insertArchive l.srcId dst.fileName
        else (db.insertArchive l.srcId dst.fileName).updateQueue l.srcId fun q =>
          { q with status := 5, comment := none } := by
  unfold addArchive
  rw [if_neg hname]
  simp only [hrows, List.foldl_nil, hid, if_false, hq, Bool.not_true, Bool.false_eq_true]
  cases putToQueue <;> rfl

theorem addArchive_without_source {dst : BasicFileInfo} (hrows : db.archiveRows dst.fileName = [])
    (hname : dst.fileName ≠ []) (putToQueue : Bool) :
    (db.addArchive dst ⟨0, false, []⟩ putToQueue).1 = db := by
  simp only [addArchive, hrows, List.foldl_nil, if_true, hname, and_false, if_false]

/-! ## The invariant -/

/-- The tables after the sources were named, and the pairs were. -/
structure Paired (db : Store) (sources : List BasicFileInfo) (pairs : List (Path × Path)) : Prop where
  tables : db.WellFormed
  catalogued : ∀ path size, (∃ id, (id, ⟨path, size⟩) ∈ db.sourcefiles.rows) ↔ ⟨path, size⟩ ∈ sources
  archives : ∀ id file a, (id, file) ∈ db.sourcefiles.rows →
    (db.archives.find? id = some a ↔ (file.path, a) ∈ greedy pairs)
  statuses : ∀ id file, (id, file) ∈ db.sourcefiles.rows →
    (db.statuses id = [5] ∧ ∃ a, (file.path, a) ∈ pairs) ∨
      (db.statuses id = [0] ∧ ∀ a, (file.path, a) ∉ greedy pairs)
  named : ∀ e ∈ pairs, e.2 ≠ [] ∧ ∃ s ∈ sources, s.fileName = e.1

theorem paired_empty : Paired empty [] [] where
  tables := wellFormed_empty
  catalogued := by
    intro path size
    refine ⟨?_, fun h => absurd h List.not_mem_nil⟩
    rintro ⟨id, hmem⟩
    exact absurd hmem List.not_mem_nil
  archives := fun _ _ _ hmem => absurd hmem List.not_mem_nil
  statuses := fun _ _ hmem => absurd hmem List.not_mem_nil
  named := fun _ he => absurd he List.not_mem_nil

variable {sources : List BasicFileInfo} {pairs : List (Path × Path)}

/-- A source that has an archive is done. -/
theorem Paired.done (h : Paired db sources pairs) {id : Nat} {path : Path}
    (hfind : db.archives.find? id = some path) : db.statuses id = [5] := by
  obtain ⟨file, hmem⟩ := h.tables.archives id ⟨path, db.archives.find?_eq_some.mp hfind⟩
  rcases h.statuses id file hmem with ⟨hst, _⟩ | ⟨_, hnone⟩
  · exact hst
  · exact absurd ((h.archives id file path hmem).mp hfind) (hnone path)

/-- What the look-up of an archive finds: nothing, or its source, which is done. -/
theorem Paired.archiveRows (h : Paired db sources pairs) (path : Path) :
    (db.archiveRows path = [] ∧ ∀ s, (s, path) ∉ greedy pairs) ∨
      ∃ k file, (k, file) ∈ db.sourcefiles.rows ∧ (file.path, path) ∈ greedy pairs
        ∧ db.archiveRows path = [(k, some 5)] := by
  by_cases hknown : ∃ k, db.archives.find? k = some path
  · right
    obtain ⟨k, hk⟩ := hknown
    obtain ⟨file, hmem⟩ := h.tables.archives k ⟨path, db.archives.find?_eq_some.mp hk⟩
    have hpair := (h.archives k file path hmem).mp hk
    refine ⟨k, file, hmem, hpair, archiveRows_known hk ?_ (h.done hk)⟩
    intro id hid
    obtain ⟨file', hmem'⟩ := h.tables.archives id ⟨path, db.archives.find?_eq_some.mp hid⟩
    have hpair' := (h.archives id file' path hmem').mp hid
    have hsame := Lib.compatible_greedy pairs _ hpair' _ hpair (Or.inr rfl)
    exact h.tables.paths id k file' file hmem' hmem (Prod.mk.inj hsame).1
  · left
    refine ⟨archiveRows_unknown fun id hid => hknown ⟨id, hid⟩, ?_⟩
    intro s hs
    obtain ⟨_, src, hsrc, rfl⟩ := h.named _ (Lib.mem_of_mem_greedy hs)
    obtain ⟨id, hmem⟩ := (h.catalogued src.fileName src.fileSize).mpr hsrc
    exact hknown ⟨id, (h.archives id _ path hmem).mpr hs⟩

/-- An archive that is named without a source changes nothing. -/
theorem Paired.addArchiveOnly (h : Paired db sources pairs) {dst : BasicFileInfo}
    (hname : dst.fileName ≠ []) (queue : Bool) : (db.addFile none (some dst) queue).1 = db := by
  have hgiven : given (some dst) = some dst := by simp [given, Option.filter, hname]
  unfold addFile
  simp only [show given none = none from rfl, hgiven]
  rcases h.archiveRows dst.fileName with ⟨hrows, _⟩ | ⟨k, _, _, _, hrows⟩
  · exact addArchive_without_source hrows hname false
  · exact addArchive_known hrows _ false

/-- A path that no row has is in no pair. -/
theorem Paired.not_paired (h : Paired db sources pairs) {path : Path}
    (hnew : ∀ row ∈ db.sourcefiles.rows, row.2.path ≠ path) (a : Path) : (path, a) ∉ pairs := by
  intro he
  obtain ⟨_, s, hs, rfl⟩ := h.named _ he
  obtain ⟨id, hmem⟩ := (h.catalogued s.fileName s.fileSize).mpr hs
  exact hnew _ hmem rfl

/-- A source whose path is catalogued was named, if no path is named with two sizes. -/
theorem Paired.mem_sources (h : Paired db sources pairs) {src : BasicFileInfo}
    (hsize : ∀ s ∈ sources, s.fileName = src.fileName → s = src) {id : Nat} {file : SourceFile}
    (hmem : (id, file) ∈ db.sourcefiles.rows) (hpath : file.path = src.fileName) : src ∈ sources := by
  have hs : (⟨file.path, file.size⟩ : BasicFileInfo) ∈ sources :=
    (h.catalogued file.path file.size).mp ⟨id, hmem⟩
  rw [← hsize _ hs hpath]
  exact hs

/-- A row of the catalogue after a source was appended. -/
theorem mem_append_iff {src : BasicFileInfo} {id : Nat} {file : SourceFile} :
    (id, file) ∈ (db.sourcefiles.append ⟨src.fileName, src.fileSize⟩).rows ↔
      (id, file) ∈ db.sourcefiles.rows
        ∨ (id = db.sourcefiles.nextKey ∧ file = ⟨src.fileName, src.fileSize⟩) := by
  rw [db.sourcefiles.mem_append, Prod.mk.injEq]

/-- The catalogue after a new source. -/
theorem Paired.catalogued_append (h : Paired db sources pairs) (src : BasicFileInfo) (path : Path)
    (size : Nat) :
    (∃ id, (id, ⟨path, size⟩) ∈ (db.sourcefiles.append ⟨src.fileName, src.fileSize⟩).rows) ↔
      ⟨path, size⟩ ∈ sources ++ [src] := by
  rw [List.mem_append, List.mem_singleton, ← h.catalogued]
  constructor
  · rintro ⟨id, hmem⟩
    rcases mem_append_iff.mp hmem with hold | ⟨_, hnew⟩
    · exact Or.inl ⟨id, hold⟩
    · obtain ⟨rfl, rfl⟩ := SourceFile.mk.inj hnew
      exact Or.inr rfl
  · rintro (⟨id, hmem⟩ | rfl)
    · exact ⟨id, mem_append_iff.mpr (Or.inl hmem)⟩
    · exact ⟨db.sourcefiles.nextKey, mem_append_iff.mpr (Or.inr ⟨rfl, rfl⟩)⟩

/-- The catalogue after a source that is there. -/
theorem Paired.catalogued_mem (h : Paired db sources pairs) {src : BasicFileInfo}
    (hsrc : src ∈ sources) (path : Path) (size : Nat) :
    (∃ id, (id, ⟨path, size⟩) ∈ db.sourcefiles.rows) ↔ ⟨path, size⟩ ∈ sources ++ [src] := by
  rw [h.catalogued, List.mem_append, List.mem_singleton]
  constructor
  · exact Or.inl
  · rintro (hold | rfl)
    · exact hold
    · exact hsrc

theorem find?_archives_nextKey (hwf : db.WellFormed) (a : Path) :
    db.archives.find? db.sourcefiles.nextKey ≠ some a := by
  intro hfind
  obtain ⟨file, hmem⟩ := hwf.archives _ ⟨a, db.archives.find?_eq_some.mp hfind⟩
  exact db.sourcefiles.nextKey_ne hmem rfl

/-- The tables with a new source and its queue row. -/
def withSource (db : Store) (src : BasicFileInfo) (status : Int) : Store :=
  { db with sourcefiles := db.sourcefiles.append ⟨src.fileName, src.fileSize⟩ }.insertQueue
    ⟨db.sourcefiles.nextKey, status, 0, none⟩

theorem statuses_withSource (hwf : db.WellFormed) (src : BasicFileInfo) (status : Int) (id : Nat) :
    (db.withSource src status).statuses id
      = if id = db.sourcefiles.nextKey then [status] else db.statuses id := by
  unfold withSource
  rw [statuses_insertQueue]
  by_cases hid : id = db.sourcefiles.nextKey
  · rw [if_pos hid, if_pos hid, hid]
    exact congrArg (· ++ [status]) hwf.statuses_nextKey
  · rw [if_neg hid, if_neg hid]
    rfl

/-- A source that is named alone is catalogued, and queued if it is new. -/
theorem Paired.addPlain (h : Paired db sources pairs) {src : BasicFileInfo} (hname : src.fileName ≠ [])
    (hsize : ∀ s ∈ sources, s.fileName = src.fileName → s = src) :
    Paired (db.addFile (some src) none true).1 (sources ++ [src]) pairs := by
  have hwf := wellFormed_addFile h.tables (some src) none true
  have hgiven := given_of_named hname
  have hnamed : ∀ e ∈ pairs, e.2 ≠ [] ∧ ∃ s ∈ sources ++ [src], s.fileName = e.1 := by
    intro e he
    obtain ⟨hne, s, hs, hpath⟩ := h.named e he
    exact ⟨hne, s, List.mem_append.mpr (Or.inl hs), hpath⟩
  by_cases hknown : ∃ row ∈ db.sourcefiles.rows, row.2.path = src.fileName
  · obtain ⟨⟨id, file⟩, hmem, hpath⟩ := hknown
    obtain ⟨status, hst⟩ : ∃ status, db.statuses id = [status] := by
      rcases h.statuses id file hmem with ⟨hst, _⟩ | ⟨hst, _⟩ <;> exact ⟨_, hst⟩
    have hl := lookupSource_known h.tables hmem hst
    rw [show file.path = src.fileName from hpath] at hl
    have hsame : (db.addFile (some src) none true).1 = db := by
      unfold addFile
      simp only [hgiven, show given none = none from rfl,
        addSource_known (Nat.ne_of_gt (db.sourcefiles.key_pos _ hmem)) hl]
    rw [hsame]
    exact ⟨h.tables, h.catalogued_mem (h.mem_sources hsize hmem hpath), h.archives, h.statuses, hnamed⟩
  · have hnew : ∀ row ∈ db.sourcefiles.rows, row.2.path ≠ src.fileName :=
      fun row hrow hpath => hknown ⟨row, hrow, hpath⟩
    have hadded : (db.addFile (some src) none true).1 = db.withSource src 0 := by
      unfold addFile
      simp only [hgiven, show given none = none from rfl, Option.isSome_none,
        addSource_unknown hnew (show (true || false) = true from rfl)]
      rfl
    have hnone : ∀ a, (src.fileName, a) ∉ greedy pairs := fun a hf =>
      h.not_paired hnew a (Lib.mem_of_mem_greedy hf)
    rw [hadded] at hwf ⊢
    refine ⟨hwf, h.catalogued_append src, ?_, ?_, hnamed⟩
    · intro id file a hmem
      rcases mem_append_iff.mp hmem with hold | ⟨rfl, rfl⟩
      · exact h.archives id file a hold
      · exact iff_of_false (find?_archives_nextKey h.tables a) (hnone a)
    · intro id file hmem
      rw [statuses_withSource h.tables]
      rcases mem_append_iff.mp hmem with hold | ⟨rfl, rfl⟩
      · rw [if_neg (db.sourcefiles.nextKey_ne hold)]
        exact h.statuses id file hold
      · rw [if_pos rfl]
        exact Or.inr ⟨rfl, hnone⟩

/-- What has to be shown of the tables after a source and an archive were named together. -/
theorem Paired.extend (h : Paired db sources pairs) {src : BasicFileInfo} {d : Path} (hd : d ≠ [])
    {db' : Store} (hwf : db'.WellFormed)
    (hcat : ∀ path size, (∃ id, (id, ⟨path, size⟩) ∈ db'.sourcefiles.rows) ↔
      ⟨path, size⟩ ∈ sources ++ [src])
    (harch : ∀ id file a, (id, file) ∈ db'.sourcefiles.rows →
      (db'.archives.find? id = some a ↔ (file.path, a) ∈ take (greedy pairs) (src.fileName, d)))
    (hst : ∀ id file, (id, file) ∈ db'.sourcefiles.rows →
      (db'.statuses id = [5] ∧ (file.path = src.fileName ∨ ∃ a, (file.path, a) ∈ pairs)) ∨
        (db'.statuses id = [0] ∧ ∀ a, (file.path, a) ∉ take (greedy pairs) (src.fileName, d))) :
    Paired db' (sources ++ [src]) (pairs ++ [(src.fileName, d)]) := by
  refine ⟨hwf, hcat, ?_, ?_, ?_⟩
  · rw [Lib.greedy_concat]
    exact harch
  · rw [Lib.greedy_concat]
    intro id file hmem
    rcases hst id file hmem with ⟨hdone, hwhy⟩ | hready
    · refine Or.inl ⟨hdone, ?_⟩
      rcases hwhy with hpath | ⟨a, ha⟩
      · exact ⟨d, List.mem_append.mpr (Or.inr (List.mem_singleton.mpr (by rw [hpath])))⟩
      · exact ⟨a, List.mem_append.mpr (Or.inl ha)⟩
    · exact Or.inr hready
  · intro e he
    rcases List.mem_append.mp he with he | he
    · obtain ⟨hne, s, hs, hpath⟩ := h.named e he
      exact ⟨hne, s, List.mem_append.mpr (Or.inl hs), hpath⟩
    · rw [List.mem_singleton.mp he]
      exact ⟨hd, src, List.mem_append.mpr (Or.inr (List.mem_singleton.mpr rfl)), rfl⟩

/-- The pair is not taken, and nothing happens but that the source is known. -/
theorem Paired.refuse (h : Paired db sources pairs) {src : BasicFileInfo} {d : Path} (hd : d ≠ [])
    (hsrc : src ∈ sources)
    (htake : take (greedy pairs) (src.fileName, d) = greedy pairs) :
    Paired db (sources ++ [src]) (pairs ++ [(src.fileName, d)]) := by
  refine h.extend hd h.tables (h.catalogued_mem hsrc) ?_ ?_
  · rw [htake]
    exact h.archives
  · rw [htake]
    intro id file hmem
    rcases h.statuses id file hmem with ⟨hdone, hwhy⟩ | hready
    · exact Or.inl ⟨hdone, Or.inr hwhy⟩
    · exact Or.inr hready

/-- A known source is given an archive that is not known; one that it has it keeps. -/
theorem Paired.archives_attach (h : Paired db sources pairs) {d : Path} {id : Nat} {file : SourceFile}
    (hmem : (id, file) ∈ db.sourcefiles.rows) (hfree : ∀ s, (s, d) ∉ greedy pairs) {id' : Nat}
    {file' : SourceFile} (hmem' : (id', file') ∈ db.sourcefiles.rows) (a : Path) :
    (db.archives.insertNew id d).find? id' = some a ↔
      (file'.path, a) ∈ take (greedy pairs) (file.path, d) := by
  rw [db.archives.find?_insertNew]
  by_cases hid : id' = id
  · have hfile : file' = file := db.sourcefiles.eq_of_mem (hid ▸ hmem') hmem
    rw [if_pos hid, hfile]
    cases hown : db.archives.find? id with
    | some d' =>
      have hpair := (h.archives id file d' hmem).mp hown
      have htake : take (greedy pairs) (file.path, d) = greedy pairs :=
        Lib.take_of_taken hpair (Or.inl rfl)
      rw [htake, Option.getD_some, ← hown]
      exact h.archives id file a hmem
    | none =>
      have hnone : ∀ a', (file.path, a') ∉ greedy pairs := by
        intro a' hf
        rw [(h.archives id file a' hmem).mpr hf] at hown
        cases hown
      rw [Option.getD_none, Lib.mem_take_of_free hnone hfree, Option.some_inj]
      exact eq_comm
  · have hne : file'.path ≠ file.path := fun heq => hid (h.tables.paths id' id file' file hmem' hmem heq)
    rw [if_neg hid, Lib.mem_take_of_ne fun heq => hne (Prod.mk.inj heq).1]
    exact h.archives id' file' a hmem'

/-- A known source and an archive that is not known. -/
theorem Paired.attach (h : Paired db sources pairs) {src : BasicFileInfo} {d : Path} (hd : d ≠ [])
    (hsrc : src ∈ sources) {id : Nat} {file : SourceFile} (hmem : (id, file) ∈ db.sourcefiles.rows)
    (hpath : file.path = src.fileName) (hfree : ∀ s, (s, d) ∉ greedy pairs) {db' : Store}
    (hdb : db' = (db.insertArchive id d).updateQueue id fun q => { q with status := 5, comment := none })
    (hwf : db'.WellFormed) : Paired db' (sources ++ [src]) (pairs ++ [(src.fileName, d)]) := by
  have hrows : db'.sourcefiles = db.sourcefiles := by
    rw [hdb]
    rfl
  have hst : ∀ id', db'.statuses id'
      = if id' = id then (db.statuses id).map (fun _ => 5) else db.statuses id' := by
    intro id'
    rw [hdb]
    exact statuses_settle (db.insertArchive id d) id id'
  refine h.extend hd hwf ?_ ?_ ?_
  · rw [hrows]
    exact h.catalogued_mem hsrc
  · rw [hrows, hdb, ← hpath]
    exact fun id' file' a hmem' => h.archives_attach hmem hfree hmem' a
  · rw [hrows]
    intro id' file' hmem'
    rw [hst]
    by_cases hid : id' = id
    · have hfile : file' = file := db.sourcefiles.eq_of_mem (hid ▸ hmem') hmem
      rw [if_pos hid]
      refine Or.inl ⟨?_, Or.inl (hfile ▸ hpath)⟩
      rcases h.statuses id file hmem with ⟨hone, _⟩ | ⟨hone, _⟩ <;> rw [hone] <;> rfl
    · have hne : file'.path ≠ src.fileName := fun heq =>
        hid (h.tables.paths id' id file' file hmem' hmem (heq.trans hpath.symm))
      rw [if_neg hid]
      rcases h.statuses id' file' hmem' with ⟨hdone, hwhy⟩ | ⟨hready, hnone⟩
      · exact Or.inl ⟨hdone, Or.inr hwhy⟩
      · refine Or.inr ⟨hready, fun a ha => ?_⟩
        rcases Lib.mem_of_mem_take ha with hold | hnew
        · exact hnone a hold
        · exact hne (Prod.mk.inj hnew).1

/-- A new source, with whatever archive it gets. -/
theorem Paired.introduce (h : Paired db sources pairs) {src : BasicFileInfo} {d : Path} (hd : d ≠ [])
    (hnew : ∀ row ∈ db.sourcefiles.rows, row.2.path ≠ src.fileName) {db' : Store}
    (hwf : db'.WellFormed)
    (hrows : db'.sourcefiles = db.sourcefiles.append ⟨src.fileName, src.fileSize⟩)
    (hst : ∀ id, db'.statuses id = (db.withSource src 5).statuses id)
    (hothers : ∀ id, id ≠ db.sourcefiles.nextKey → db'.archives.find? id = db.archives.find? id)
    (hown : ∀ a, db'.archives.find? db.sourcefiles.nextKey = some a ↔
      (src.fileName, a) ∈ take (greedy pairs) (src.fileName, d)) :
    Paired db' (sources ++ [src]) (pairs ++ [(src.fileName, d)]) := by
  have hold : ∀ id file a, (id, file) ∈ db.sourcefiles.rows →
      ((file.path, a) ∈ take (greedy pairs) (src.fileName, d) ↔ (file.path, a) ∈ greedy pairs) :=
    fun id file a hmem => Lib.mem_take_of_ne fun heq => hnew _ hmem (Prod.mk.inj heq).1
  refine h.extend hd hwf ?_ ?_ ?_
  · rw [hrows]
    exact h.catalogued_append src
  · rw [hrows]
    intro id file a hmem
    rcases mem_append_iff.mp hmem with hmem | ⟨rfl, rfl⟩
    · rw [hothers id (db.sourcefiles.nextKey_ne hmem), hold id file a hmem]
      exact h.archives id file a hmem
    · exact hown a
  · rw [hrows]
    intro id file hmem
    rw [hst, statuses_withSource h.tables]
    rcases mem_append_iff.mp hmem with hmem | ⟨rfl, rfl⟩
    · rw [if_neg (db.sourcefiles.nextKey_ne hmem)]
      rcases h.statuses id file hmem with ⟨hdone, hwhy⟩ | ⟨hready, hnone⟩
      · exact Or.inl ⟨hdone, Or.inr hwhy⟩
      · exact Or.inr ⟨hready, fun a ha => hnone a ((hold id file a hmem).mp ha)⟩
    · rw [if_pos rfl]
      exact Or.inl ⟨rfl, Or.inl rfl⟩

/-- The archive look-up sees nothing of a new source. -/
theorem archiveRows_withSource (hwf : db.WellFormed) (src : BasicFileInfo) (status : Int)
    (path : Path) : (db.withSource src status).archiveRows path = db.archiveRows path := by
  unfold archiveRows
  refine List.flatMap_congr fun a ha => ?_
  obtain ⟨file, hmem⟩ := hwf.archives a.1 ⟨a.2, List.mem_of_mem_filter ha⟩
  rw [statuses_withSource hwf, if_neg (db.sourcefiles.nextKey_ne hmem)]

/-- A known source that is named with an archive. -/
theorem Paired.addPair_known (h : Paired db sources pairs) {src dst : BasicFileInfo}
    (hname : src.fileName ≠ []) (hd : dst.fileName ≠ [])
    (hsize : ∀ s ∈ sources, s.fileName = src.fileName → s = src) (queue : Bool) {id : Nat}
    {file : SourceFile} (hmem : (id, file) ∈ db.sourcefiles.rows) (hpath : file.path = src.fileName) :
    Paired (db.addFile (some src) (some dst) queue).1 (sources ++ [src])
      (pairs ++ [(src.fileName, dst.fileName)]) := by
  have hid : id ≠ 0 := Nat.ne_of_gt (db.sourcefiles.key_pos _ hmem)
  have hin := h.mem_sources hsize hmem hpath
  obtain ⟨status, hst⟩ : ∃ status, db.statuses id = [status] := by
    rcases h.statuses id file hmem with ⟨hst, _⟩ | ⟨hst, _⟩ <;> exact ⟨_, hst⟩
  have hl := lookupSource_known h.tables hmem hst
  rw [hpath] at hl
  have hadd : (db.addFile (some src) (some dst) queue).1
      = (db.addArchive dst ⟨id, true, (db.archives.find? id).getD []⟩ false).1 := by
    unfold addFile
    simp only [given_of_named hname, given_of_named hd, addSource_known hid hl]
  rcases h.archiveRows dst.fileName with ⟨hrows, hfree⟩ | ⟨k, file', _, hpair, hrows⟩
  · -- the archive is not known, so it is not that of the source
    have hnot : ¬ ((db.archives.find? id).getD [] ≠ []
        ∧ dst.fileName = (db.archives.find? id).getD []) := by
      rintro ⟨hne, heq⟩
      cases hfind : db.archives.find? id with
      | none =>
        rw [hfind] at hne
        exact hne rfl
      | some a =>
        rw [hfind] at heq
        obtain rfl : dst.fileName = a := heq
        exact hfree _ ((h.archives id file _ hmem).mp hfind)
    exact h.attach hd hin hmem hpath hfree (hadd.trans (addArchive_unknown hrows hid rfl hnot false))
      (wellFormed_addFile h.tables (some src) (some dst) queue)
  · rw [hadd, addArchive_known hrows]
    exact h.refuse hd hin (Lib.take_of_taken hpair (Or.inr rfl))

/-- A new source that is named with an archive. -/
theorem Paired.addPair_new (h : Paired db sources pairs) {src dst : BasicFileInfo}
    (hname : src.fileName ≠ []) (hd : dst.fileName ≠ [])
    (hnew : ∀ row ∈ db.sourcefiles.rows, row.2.path ≠ src.fileName) (queue : Bool) :
    Paired (db.addFile (some src) (some dst) queue).1 (sources ++ [src])
      (pairs ++ [(src.fileName, dst.fileName)]) := by
  have hwf := wellFormed_addFile h.tables (some src) (some dst) queue
  have hadd : (db.addFile (some src) (some dst) queue).1
      = ((db.withSource src 5).addArchive dst ⟨db.sourcefiles.nextKey, true, []⟩ true).1 := by
    unfold addFile
    simp only [given_of_named hname, given_of_named hd, Option.isSome_some,
      addSource_unknown hnew (Bool.or_true queue), if_true]
    rfl
  have hnone : ∀ a, (src.fileName, a) ∉ greedy pairs := fun a hf =>
    h.not_paired hnew a (Lib.mem_of_mem_greedy hf)
  have hlook := archiveRows_withSource h.tables src 5 dst.fileName
  rcases h.archiveRows dst.fileName with ⟨hrows, hfree⟩ | ⟨k, file', _, hpair, hrows⟩
  · have hdb := addArchive_unknown (l := ⟨db.sourcefiles.nextKey, true, []⟩) (hlook.trans hrows)
      (Nat.succ_ne_zero _) rfl (fun hne => hne.1 rfl) true
    rw [hadd, hdb, if_pos rfl] at hwf ⊢
    refine h.introduce hd hnew hwf rfl (fun _ => rfl) ?_ ?_
    · intro id hne
      exact (db.archives.find?_insertNew _ _ id).trans (if_neg hne)
    · intro a
      have hfind : db.archives.find? db.sourcefiles.nextKey = none :=
        Option.eq_none_iff_forall_ne_some.mpr (find?_archives_nextKey h.tables)
      show (db.archives.insertNew db.sourcefiles.nextKey dst.fileName).find? _ = some a ↔ _
      rw [db.archives.find?_insertNew, if_pos rfl, hfind, Option.getD_none,
        Lib.mem_take_of_free hnone hfree, Option.some_inj]
      exact eq_comm
  · rw [hadd, addArchive_known (hlook.trans hrows)] at hwf ⊢
    refine h.introduce hd hnew hwf rfl (fun _ => rfl) (fun _ _ => rfl) ?_
    intro a
    have htake : take (greedy pairs) (src.fileName, dst.fileName) = greedy pairs :=
      Lib.take_of_taken hpair (Or.inr rfl)
    rw [htake]
    exact iff_of_false (find?_archives_nextKey h.tables a) (hnone a)

/-- A source and an archive that are named together are paired, unless one of them is already. -/
theorem Paired.addPair (h : Paired db sources pairs) {src dst : BasicFileInfo}
    (hname : src.fileName ≠ []) (hd : dst.fileName ≠ [])
    (hsize : ∀ s ∈ sources, s.fileName = src.fileName → s = src) (queue : Bool) :
    Paired (db.addFile (some src) (some dst) queue).1 (sources ++ [src])
      (pairs ++ [(src.fileName, dst.fileName)]) := by
  by_cases hknown : ∃ row ∈ db.sourcefiles.rows, row.2.path = src.fileName
  · obtain ⟨⟨id, file⟩, hmem, hpath⟩ := hknown
    exact h.addPair_known hname hd hsize queue hmem hpath
  · exact h.addPair_new hname hd (fun row hrow hpath => hknown ⟨row, hrow, hpath⟩) queue

/-! ## What can be seen of the catalogue without its ids -/

/-- Path, size, queue status and archive of each source. -/
def entries (db : Store) : List (Path × Nat × List Int × Option Path) :=
  db.sourcefiles.rows.map fun s => (s.2.path, s.2.size, db.statuses s.1, db.archives.find? s.1)

theorem mem_entries {path : Path} {size : Nat} {status : List Int} {archive : Option Path} :
    (path, size, status, archive) ∈ db.entries ↔
      ∃ id, (id, ⟨path, size⟩) ∈ db.sourcefiles.rows ∧ db.statuses id = status
        ∧ db.archives.find? id = archive := by
  simp only [entries, List.mem_map, Prod.mk.injEq]
  constructor
  · rintro ⟨⟨id, file⟩, hmem, rfl, rfl, rfl, rfl⟩
    exact ⟨id, hmem, rfl, rfl⟩
  · rintro ⟨id, hmem, rfl, rfl⟩
    exact ⟨(id, ⟨path, size⟩), hmem, rfl, rfl, rfl, rfl⟩

/-- The sources in the entries are those that were named. -/
theorem Paired.mem_sources_iff (h : Paired db sources pairs) {path : Path} {size : Nat} :
    (∃ status archive, (path, size, status, archive) ∈ db.entries) ↔ ⟨path, size⟩ ∈ sources := by
  rw [← h.catalogued]
  constructor
  · rintro ⟨status, archive, hentry⟩
    obtain ⟨id, hmem, -⟩ := mem_entries.mp hentry
    exact ⟨id, hmem⟩
  · rintro ⟨id, hmem⟩
    exact ⟨_, _, mem_entries.mpr ⟨id, hmem, rfl, rfl⟩⟩

/-- The pairs in the entries are those that were taken. -/
theorem Paired.mem_greedy_iff (h : Paired db sources pairs) {path a : Path} :
    (∃ size status, (path, size, status, some a) ∈ db.entries) ↔ (path, a) ∈ greedy pairs := by
  constructor
  · rintro ⟨size, status, hentry⟩
    obtain ⟨id, hmem, -, hfind⟩ := mem_entries.mp hentry
    exact (h.archives id _ a hmem).mp hfind
  · intro hpair
    obtain ⟨_, s, hs, rfl⟩ := h.named _ (Lib.mem_of_mem_greedy hpair)
    obtain ⟨id, hmem⟩ := (h.catalogued s.fileName s.fileSize).mpr hs
    exact ⟨s.fileSize, _, mem_entries.mpr ⟨id, hmem, rfl, (h.archives id _ a hmem).mpr hpair⟩⟩

/-- If no two pairs share a member, the entries are told by what was named, in whatever order. -/
theorem Paired.mem_entries_iff (h : Paired db sources pairs) (hcomp : Compatible pairs) {path : Path}
    {size : Nat} {status : List Int} {archive : Option Path} :
    (path, size, status, archive) ∈ db.entries ↔
      ⟨path, size⟩ ∈ sources
        ∧ ((status = [5] ∧ ∃ a, (path, a) ∈ pairs) ∨ (status = [0] ∧ ∀ a, (path, a) ∉ pairs))
        ∧ ∀ a, archive = some a ↔ (path, a) ∈ pairs := by
  have hall : ∀ {e : Path × Path}, e ∈ greedy pairs ↔ e ∈ pairs := Lib.mem_greedy_of_compatible hcomp
  rw [mem_entries, ← h.catalogued]
  constructor
  · rintro ⟨id, hmem, rfl, rfl⟩
    refine ⟨⟨id, hmem⟩, ?_, fun a => (h.archives id _ a hmem).trans hall⟩
    rcases h.statuses id _ hmem with hdone | ⟨hready, hnone⟩
    · exact Or.inl hdone
    · exact Or.inr ⟨hready, fun a ha => hnone a (hall.mpr ha)⟩
  · rintro ⟨⟨id, hmem⟩, hstatus, harchive⟩
    refine ⟨id, hmem, ?_, ?_⟩
    · rcases h.statuses id _ hmem with ⟨hst, a, ha⟩ | ⟨hst, hnone⟩ <;>
        rcases hstatus with ⟨rfl, a', ha'⟩ | ⟨rfl, hnone'⟩
      · exact hst
      · exact absurd ha (hnone' a)
      · exact absurd (hall.mpr ha') (hnone a')
      · exact hst
    · apply Option.ext
      intro a
      exact ((h.archives id _ a hmem).trans hall).trans (harchive a).symm

end Store

end MediaArchiver
