/-
# MediaArchiver.Store.Settlement -- does reporting an archive settle its source?

A source that is reported together with its archive needs no encoding any more: it should be done and
recorded as archived (`Settles`), so that nobody is offered it. Two slips of `addFile` get in the way. If
the archive is recorded for the source already, the call returns before it looks at the status, which may
be any (a failed encoding leaves an archive, a reset forgets that it was done). If it is recorded for
another id, that id takes the place of the source for the rest of the call: the source keeps its status,
or is marked as done without an archive of its own.

So the call settles the source exactly if nobody has the archive yet, or if the source has one and is not
queued or done (`addFile_settles_iff`).
-/
import MediaArchiver.Store.Rediscovery

namespace MediaArchiver

open Lib (Machine AlongPast Table)

namespace Store

/-- The source is done, and has an archive. -/
def Settles (db : Store) (path : Path) : Prop :=
  ∃ s ∈ db.sourcefiles.rows, s.2.path = path ∧ db.statuses s.1 = [5] ∧ db.archives.HasKey s.1

instance (db : Store) (path : Path) : Decidable (db.Settles path) :=
  inferInstanceAs (Decidable (∃ s ∈ _, _ ∧ _))

/-- The source has an archive, and no status but done. -/
def HasArchive (db : Store) (path : Path) : Prop :=
  ∃ s ∈ db.sourcefiles.rows, s.2.path = path ∧ db.archives.HasKey s.1
    ∧ (db.statuses s.1 = [] ∨ db.statuses s.1 = [5])

variable {db : Store}

/-- What is settled is not offered. -/
theorem Settles.not_offered (hwf : db.WellFormed) {path : Path} (h : db.Settles path) {s : Nat × SourceFile}
    (hs : s ∈ db.sourcefiles.rows) (hpath : s.2.path = path) (limit : LimitOne)
    (filter : MediaFileRequirements) : (db.getNextFile limit filter).2.map Prod.fst ≠ some s.1 := by
  obtain ⟨⟨k, file⟩, hmem, hfile, hst, -⟩ := h
  obtain rfl : k = s.1 := hwf.paths k s.1 file s.2 hmem hs (hfile.trans hpath.symm)
  apply not_returned_of_not_offerable
  rw [show db.statuses s.1 = [5] from hst]
  exact not_offerable_done

/-- There is one row with the path. -/
theorem settles_iff (hu : db.PathsUnique) {path : Path} {k : Nat} (hk : db.sourceOf path = some k) :
    db.Settles path ↔ db.statuses k = [5] ∧ db.archives.HasKey k := by
  constructor
  · rintro ⟨⟨k', file⟩, hmem, rfl, hst, hkey⟩
    obtain rfl : k' = k := Option.some.inj ((sourceOf_of_mem hu hmem).symm.trans hk)
    exact ⟨hst, hkey⟩
  · rintro ⟨hst, hkey⟩
    obtain ⟨file, hmem, hpath⟩ := mem_of_sourceOf hk
    exact ⟨(k, file), hmem, hpath, hst, hkey⟩

/-- The id under which a source is entered has an archive only if the source was there. -/
theorem hasArchive_iff (hwf : db.WellFormed) (src : BasicFileInfo) :
    db.HasArchive src.fileName ↔ db.archives.HasKey (db.enter src).2
      ∧ (db.statuses (db.enter src).2 = [] ∨ db.statuses (db.enter src).2 = [5]) := by
  cases hk : db.sourceOf src.fileName with
  | none =>
    apply iff_of_false
    · rintro ⟨s, hmem, hpath, -⟩
      exact sourceOf_eq_none.mp hk s hmem hpath
    · rintro ⟨hkey, -⟩
      obtain ⟨file, hmem⟩ := hwf.archives _ hkey
      have hnew : (db.enter src).2 = db.sourcefiles.nextKey := by
        unfold enter
        rw [hk]
      exact db.sourcefiles.nextKey_ne hmem hnew
  | some k =>
    rw [enter_of_known hk]
    constructor
    · rintro ⟨⟨k', file⟩, hmem, hpath, hkey, hst⟩
      obtain rfl : k' = k := by
        have hsource := sourceOf_of_mem hwf.paths hmem
        rw [show file.path = src.fileName from hpath] at hsource
        exact Option.some.inj (hsource.symm.trans hk)
      exact ⟨hkey, hst⟩
    · rintro ⟨hkey, hst⟩
      obtain ⟨file, hmem, hpath⟩ := mem_of_sourceOf hk
      exact ⟨(k, file), hmem, hpath, hkey, hst⟩

/-- The statuses after the source part: done if there were none, as they were otherwise. -/
theorem statuses_entered (src : BasicFileInfo) :
    ((db.enter src).1.enqueue (db.enter src).2 5).statuses (db.enter src).2 = [5] ↔
      db.statuses (db.enter src).2 = [] ∨ db.statuses (db.enter src).2 = [5] := by
  rw [statuses_enqueue, statuses_enter]
  by_cases hnil : db.statuses (db.enter src).2 = []
  · simp [hnil]
  · simp [hnil]

theorem archives_enter (src : BasicFileInfo) : (db.enter src).1.archives = db.archives := by
  unfold enter
  split <;> rfl

theorem statuses_settle_other {k m : Nat} (h : k ≠ m) : (db.settle m).statuses k = db.statuses k := by
  unfold settle
  split
  · rfl
  · rw [statuses_finish, if_neg h, statuses_enqueue, if_neg fun hk => h hk.1]

/-- A row that is there is one row, and `attach` sets it to done. -/
theorem statuses_attach (hrows : ∀ id, (db.statuses id).length ≤ 1) {k : Nat} (hq : db.statuses k ≠ [])
    (path : Path) : (db.attach k path).statuses k = [5] := by
  obtain ⟨status, hst⟩ := List.length_eq_one_iff.mp
    (Nat.le_antisymm (hrows k) (List.length_pos_iff.mpr hq))
  rw [attach, statuses_finish, if_pos rfl]
  show (db.statuses k).map (fun _ => 5) = [5]
  rw [hst]
  rfl

/-- The report of a source and an archive, seen from the source. -/
theorem settles_report (hwf : db.WellFormed) (src dst : BasicFileInfo) (queue : Bool)
    (hu : (db.report (some src) (some dst) queue).1.PathsUnique) :
    (db.report (some src) (some dst) queue).1.Settles src.fileName ↔
      ¬ db.Archived dst.fileName ∨ db.HasArchive src.fileName := by
  have hrows : ∀ id, (((db.enter src).1.enqueue (db.enter src).2 5).statuses id).length ≤ 1 := by
    intro id
    rw [statuses_enqueue, statuses_enter, statuses_enter]
    split
    · exact le_refl 1
    · exact hwf.rows id
  have harch : ((db.enter src).1.enqueue (db.enter src).2 5).archives = db.archives := by
    rw [archives_enqueue, archives_enter]
  have hqueued := queued_enqueue (db.enter src).1 (db.enter src).2 5
  have hsource := (grows_enqueue _ (db.enter src).2 5).sources (sourceOf_enter db src)
  rw [hasArchive_iff hwf, ← statuses_entered]
  simp only [report] at hu ⊢
  generalize (db.enter src).1.enqueue (db.enter src).2 5 = mid at *
  generalize (db.enter src).2 = k at *
  by_cases hname : mid.archives.find? k = some dst.fileName
  · -- the call returns early: the status stays what it was
    have hkey : db.archives.HasKey k := ⟨_, harch ▸ (Table.find?_eq_some _).mp hname⟩
    have hknown : db.Archived dst.fileName := ⟨_, harch ▸ (Table.find?_eq_some _).mp hname, rfl⟩
    rw [if_pos hname] at hu ⊢
    rw [settles_iff hu hsource, harch]
    simp only [hknown, not_true_eq_false, false_or, hkey, and_true, true_and]
  rw [if_neg hname] at hu ⊢
  cases hm : mid.archiveOf dst.fileName with
  | none =>
    have hnew : ¬ db.Archived dst.fileName := by
      have hmid := archiveOf_eq_none.mp hm
      unfold Archived at hmid ⊢
      rwa [harch] at hmid
    simp only [hm] at hu ⊢
    rw [settles_iff hu ((grows_attach hm hqueued).sources hsource)]
    exact iff_of_true ⟨statuses_attach hrows hqueued dst.fileName,
      (hasKey_insertArchive ..).mpr (Or.inl rfl)⟩ (Or.inl hnew)
  | some m =>
    -- another id takes the place of the source
    have hmem := (archiveOf_eq_some.mp hm).1
    have hknown : db.Archived dst.fileName := ⟨_, harch ▸ hmem, rfl⟩
    have hother : k ≠ m := by
      rintro rfl
      exact hname ((Table.find?_eq_some _).mpr hmem)
    simp only [hm] at hu ⊢
    rw [settles_iff hu ((grows_settle mid m).sources hsource), statuses_settle_other hother,
      archives_settle, harch]
    simp only [hknown, not_true_eq_false, false_or, and_comm]

/-- In every reachable database the report of a source and an archive settles the source exactly if nobody
has the archive, or the source has one and is not queued or done. A source that is settled is not offered. -/
theorem addFile_settles_iff {calls : List StoreCall} (h : AlongPast RecordsReturned [] calls)
    {src dst : BasicFileInfo} (hsrc : src.fileName ≠ []) (hdst : dst.fileName ≠ []) (queue : Bool) :
    let db := machine.run empty calls
    let db' := (db.addFile (some src) (some dst) queue).1
    (db'.Settles src.fileName ↔ ¬ db.Archived dst.fileName ∨ db.HasArchive src.fileName) ∧
      (db'.Settles src.fileName → ∀ s ∈ db'.sourcefiles.rows, s.2.path = src.fileName →
        ∀ limit filter, (db'.getNextFile limit filter).2.map Prod.fst ≠ some s.1) := by
  intro db db'
  have hwf : db.WellFormed := wellFormed_run h
  have hwf' : db'.WellFormed := wellFormed_addFile hwf (some src) (some dst) queue
  have heq : db' = (db.report (some src) (some dst) queue).1 := by
    show (db.addFile (some src) (some dst) queue).1 = _
    rw [addFile_eq hwf, given_of_named hsrc, given_of_named hdst]
  refine ⟨?_, fun hsettles s hs hpath => hsettles.not_offered hwf' hs hpath⟩
  rw [heq]
  exact settles_report hwf src dst queue (heq ▸ hwf'.paths)

/-- The archive of a source that nobody has handed out. -/
theorem addFile_settles_iff_waiting :
    let db := machine.run empty [.addFile (some ⟨"a.mov".toList, 7⟩) none true]
    let db' := (db.addFile (some ⟨"a.mov".toList, 7⟩) (some ⟨"a_archived.mp4".toList, 4⟩) true).1
    (db'.Settles "a.mov".toList ↔
        ¬ db.Archived "a_archived.mp4".toList ∨ db.HasArchive "a.mov".toList) ∧
      (db'.Settles "a.mov".toList → ∀ s ∈ db'.sourcefiles.rows, s.2.path = "a.mov".toList →
        ∀ limit filter, (db'.getNextFile limit filter).2.map Prod.fst ≠ some s.1) :=
  addFile_settles_iff (by decide) (by decide) (by decide) true

/-- An encoding failed and left an archive. The watcher finds both, and the source stays failed, although
it is queued and its archive is recorded: it is offered again. -/
theorem addFile_leaves_failed :
    ¬ ((machine.run empty
      [.addFile (some ⟨"a.mov".toList, 7⟩) none true, .getNextFile .first ⟨[], 0⟩,
       .addEncodedFile ⟨⟨-1, 4, []⟩, 1, "a_archived.mp4".toList⟩]).addFile
      (some ⟨"a.mov".toList, 7⟩) (some ⟨"a_archived.mp4".toList, 4⟩) true).1.Settles "a.mov".toList := by
  decide

end Store

end MediaArchiver
