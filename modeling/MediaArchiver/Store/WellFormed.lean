/-
# MediaArchiver.Store.WellFormed -- the representation invariant of the database

The queue declares no key, and no table declares a reference to another. What keeps the tables in
order is only the way the four operations use them: one path has one source, one source has at most
one queue row, and whatever is queued or archived is catalogued. Every operation keeps this
(`addEncodedFile` as long as it is called for a catalogued source), so it holds from the empty
tables on.
-/
import MediaArchiver.Store.AddFile

namespace MediaArchiver

open Lib (Table AutoTable)

namespace Store

/-- The tables are in order. -/
structure WellFormed (db : Store) : Prop where
  paths : db.PathsUnique
  queue : ∀ id, db.statuses id ≠ [] → db.sourcefiles.HasKey id
  archives : ∀ id, db.archives.HasKey id → db.sourcefiles.HasKey id
  rows : ∀ id, (db.statuses id).length ≤ 1

theorem wellFormed_empty : empty.WellFormed where
  paths := by
    intro i j f g hi
    exact absurd hi List.not_mem_nil
  queue := fun _ h => absurd rfl h
  archives := by
    rintro id ⟨path, hmem⟩
    exact absurd hmem List.not_mem_nil
  rows := fun _ => Nat.zero_le _

/-- In tables that are in order an id that has a status has no other. -/
theorem WellFormed.statuses_eq {db : Store} (h : db.WellFormed) {id : Nat} {status : Int}
    (hst : status ∈ db.statuses id) : db.statuses id = [status] := by
  obtain ⟨a, ha⟩ := List.length_eq_one_iff.mp
    (Nat.le_antisymm (h.rows id) (List.length_pos_of_mem hst))
  rw [ha, List.mem_singleton] at hst
  rw [ha, hst]

theorem WellFormed.statuses_nextKey {db : Store} (h : db.WellFormed) :
    db.statuses db.sourcefiles.nextKey = [] := by
  by_contra hne
  obtain ⟨file, hmem⟩ := h.queue _ hne
  exact absurd rfl (db.sourcefiles.nextKey_ne hmem)

theorem SourceAdded.wellFormed {db mid : Store} {s : BasicFileInfo} {dstGiven : Bool}
    {l : SourceLookup} (h : SourceAdded db s dstGiven mid l) (hwf : db.WellFormed) :
    mid.WellFormed := by
  have hkeep : ∀ id, db.sourcefiles.HasKey id → mid.sourcefiles.HasKey id := by
    rintro id ⟨file, hmem⟩
    exact ⟨file, h.rows_keep hmem⟩
  have hrow : ∀ id, mid.statuses id = db.statuses id ∨
      (id = l.srcId ∧ db.statuses id = [] ∧ (mid.statuses id).length = 1) := by
    intro id
    rcases h.statuses id with hsame | ⟨hid, hadd, hnew⟩
    · exact Or.inl hsame
    · have hnil : db.statuses id = [] := by
        rcases hnew with hnil | hnew
        · exact hnil
        · rw [hnew]
          exact hwf.statuses_nextKey
      refine Or.inr ⟨hid, hnil, ?_⟩
      rw [hadd, hnil]
      rfl
  refine ⟨h.pathsUnique hwf.paths, ?_, ?_, ?_⟩
  · intro id hne
    rcases hrow id with hsame | ⟨rfl, _⟩
    · exact hkeep id (hwf.queue id (hsame ▸ hne))
    · obtain ⟨file, hmem, _⟩ := h.catalogued
      exact ⟨file, hmem⟩
  · intro id harch
    rw [h.archives] at harch
    exact hkeep id (hwf.archives id harch)
  · intro id
    rcases hrow id with hsame | ⟨_, _, hlen⟩
    · rw [hsame]
      exact hwf.rows id
    · exact Nat.le_of_eq hlen

theorem ArchiveAdded.wellFormed {db db' : Store} {d : BasicFileInfo} {l : SourceLookup}
    (h : ArchiveAdded db d l db') (hwf : db.WellFormed)
    (hl : l.srcId ≠ 0 → db.sourcefiles.HasKey l.srcId) : db'.WellFormed := by
  have hcat : ∀ id, db'.archives.HasKey id → db.sourcefiles.HasKey id := by
    intro id hid
    rcases h.adds id hid with hold | ⟨rfl, hne⟩
    · exact hwf.archives id hold
    · exact hl hne
  refine ⟨hwf.paths.of_eq h.sourcefiles, ?_, ?_, ?_⟩
  · intro id hne
    rw [h.sourcefiles]
    rcases h.statuses id with hsame | ⟨hkey, _⟩
    · exact hwf.queue id (hsame ▸ hne)
    · exact hcat id hkey
  · intro id hid
    rw [h.sourcefiles]
    exact hcat id hid
  · intro id
    rcases h.statuses id with hsame | ⟨_, hset | ⟨_, hset⟩⟩
    · rw [hsame]
      exact hwf.rows id
    · rw [hset, List.length_map]
      exact hwf.rows id
    · rw [hset]
      exact Nat.le_refl 1

theorem wellFormed_addFile {db : Store} (hwf : db.WellFormed) (src dst : Option BasicFileInfo)
    (queue : Bool) : (db.addFile src dst queue).1.WellFormed := by
  obtain ⟨mid, l, hs, hd⟩ := db.addFile_parts src dst queue
  have hmid : mid.WellFormed ∧ (l.srcId ≠ 0 → mid.sourcefiles.HasKey l.srcId) := by
    rcases hs with ⟨_, rfl, rfl⟩ | ⟨s, _, hs⟩
    · exact ⟨hwf, fun h => absurd rfl h⟩
    · obtain ⟨file, hmem, _⟩ := hs.catalogued
      exact ⟨hs.wellFormed hwf, fun _ => ⟨file, hmem⟩⟩
  rcases hd with ⟨_, heq⟩ | ⟨d, _, hd⟩
  · rw [heq]
    exact hmid.1
  · exact hd.wellFormed hmid.1 hmid.2

theorem wellFormed_getNextFile {db : Store} (hwf : db.WellFormed) (limit : LimitOne)
    (filter : MediaFileRequirements) : (db.getNextFile limit filter).1.WellFormed := by
  rcases db.getNextFile_cases limit filter with hnone | ⟨db', id, file, hsome, hres⟩
  · rw [hnone]
    exact hwf
  · rw [hsome]
    refine ⟨hwf.paths.of_eq hres.sourcefiles, ?_, ?_, ?_⟩
    · intro id' hne
      rw [hres.sourcefiles]
      by_cases h : id' = id
      · rw [h]
        exact ⟨_, hres.catalogued⟩
      · exact hwf.queue id' (hres.others id' h ▸ hne)
    · intro id' hid
      rw [hres.sourcefiles]
      rw [hres.archives] at hid
      exact hwf.archives id' hid
    · intro id'
      by_cases h : id' = id
      · have hle := hwf.rows id
        rw [h, hres.length]
        omega
      · rw [hres.others id' h]
        exact hwf.rows id'

/-- Statuses may be replaced freely; archives may be added for catalogued sources. -/
theorem WellFormed.of_map {db db' : Store} (hwf : db.WellFormed)
    (hsrc : db'.sourcefiles = db.sourcefiles)
    (harch : ∀ id, db'.archives.HasKey id → db.sourcefiles.HasKey id)
    (hmap : ∀ id, ∃ f, db'.statuses id = (db.statuses id).map f) : db'.WellFormed := by
  refine ⟨hwf.paths.of_eq hsrc, ?_, ?_, ?_⟩
  · intro id hne
    obtain ⟨f, hf⟩ := hmap id
    rw [hsrc]
    apply hwf.queue
    intro hnil
    rw [hf, hnil] at hne
    exact hne rfl
  · intro id hid
    rw [hsrc]
    exact harch id hid
  · intro id
    obtain ⟨f, hf⟩ := hmap id
    rw [hf, List.length_map]
    exact hwf.rows id

theorem wellFormed_addEncodedFile {db : Store} (hwf : db.WellFormed) (file : EncodedFile)
    (hcat : 0 < file.fileLength → db.sourcefiles.HasKey file.originalFileId) :
    (db.addEncodedFile file).WellFormed := by
  apply hwf.of_map (sourcefiles_addEncodedFile db file)
  · intro id hid
    rcases (hasKey_addEncodedFile db file id).mp hid with ⟨rfl, hpos⟩ | hid
    · exact hcat hpos
    · exact hwf.archives id hid
  · intro id
    rw [statuses_addEncodedFile]
    split
    · exact ⟨_, rfl⟩
    · exact ⟨_, (List.map_id _).symm⟩

theorem wellFormed_reset {db : Store} (hwf : db.WellFormed) (srcFileId : Nat) :
    (db.reset srcFileId).WellFormed := by
  have hsrc : (db.reset srcFileId).sourcefiles = db.sourcefiles := rfl
  apply hwf.of_map hsrc hwf.archives
  intro id
  rw [statuses_reset]
  split
  · exact ⟨_, rfl⟩
  · exact ⟨_, (List.map_id _).symm⟩

end Store

end MediaArchiver
