/-
# MediaArchiver.Store.Reservation -- what `getNextFile` handed out is not handed out twice

The store as a machine whose events are the calls its mutex serialises. A call of `getNextFile`
leaves the file it returns `Reserved`: catalogued, queued, every status started or done. No row of a
reserved file is offerable, and until somebody records a result for the file or resets it, no call
changes its statuses other than to done. So the reservation holds from any store, whatever its
tables look like.
-/
import MediaArchiver.Lib.Machine
import MediaArchiver.Store.AddFile

namespace MediaArchiver

open Lib (Machine)

/-- A call of the database. -/
inductive StoreCall where
  | getNextFile (limit : LimitOne) (filter : MediaFileRequirements)
  | addFile (src dst : Option BasicFileInfo) (queue : Bool)
  | addEncodedFile (file : EncodedFile)
  | reset (srcFileId : Nat)

namespace StoreCall

/-- The call records a result for the id, or resets it. -/
def Releases (id : Nat) : StoreCall → Prop
  | .getNextFile .. => False
  | .addFile .. => False
  | .addEncodedFile file => file.originalFileId = id
  | .reset srcFileId => srcFileId = id

instance (id : Nat) : DecidablePred (Releases id)
  | .getNextFile .. => inferInstanceAs (Decidable False)
  | .addFile .. => inferInstanceAs (Decidable False)
  | .addEncodedFile file => inferInstanceAs (Decidable (file.originalFileId = id))
  | .reset srcFileId => inferInstanceAs (Decidable (srcFileId = id))

end StoreCall

namespace Store

/-- The database under a sequence of calls. -/
def machine : Machine Store StoreCall where
  step db
    | .getNextFile limit filter => (db.getNextFile limit filter).1
    | .addFile src dst queue => (db.addFile src dst queue).1
    | .addEncodedFile file => db.addEncodedFile file
    | .reset srcFileId => db.reset srcFileId

/-- No call deletes a catalogue row. -/
theorem rows_step (db : Store) (call : StoreCall) {r : Nat × SourceFile}
    (hr : r ∈ db.sourcefiles.rows) : r ∈ (machine.step db call).sourcefiles.rows := by
  cases call with
  | getNextFile limit filter =>
    show r ∈ (db.getNextFile limit filter).1.sourcefiles.rows
    rcases db.getNextFile_cases limit filter with hnone | ⟨db', id, file, hsome, hres⟩
    · rw [hnone]
      exact hr
    · rw [hsome]
      rw [hres.sourcefiles]
      exact hr
  | addFile src dst queue => exact db.rows_addFile src dst queue hr
  | addEncodedFile file =>
    show r ∈ (db.addEncodedFile file).sourcefiles.rows
    rw [sourcefiles_addEncodedFile]
    exact hr
  | reset srcFileId => exact hr

theorem hasKey_step (db : Store) (call : StoreCall) {id : Nat} (hid : db.sourcefiles.HasKey id) :
    (machine.step db call).sourcefiles.HasKey id := by
  obtain ⟨file, hmem⟩ := hid
  exact ⟨file, db.rows_step call hmem⟩

/-- A file that is not offered is not returned. -/
theorem not_returned_of_not_offerable {db : Store} {id : Nat} (h : ¬ Offerable (db.statuses id))
    (limit : LimitOne) (filter : MediaFileRequirements) :
    (db.getNextFile limit filter).2.map Prod.fst ≠ some id := by
  rcases db.getNextFile_cases limit filter with hnone | ⟨db', id', file, hsome, hres⟩
  · rw [hnone]
    exact nofun
  · rw [hsome]
    intro hret
    obtain rfl : id' = id := Option.some.inj hret
    exact h hres.offerable

/-- A call that does not release a file leaves its rows alone, or sets them all to done, if the file is
catalogued and queued and not offered. -/
theorem statuses_step {db : Store} {id : Nat} (hcat : db.sourcefiles.HasKey id)
    (hq : db.statuses id ≠ []) (hoff : ¬ Offerable (db.statuses id)) (call : StoreCall)
    (hrel : ¬ call.Releases id) :
    (machine.step db call).statuses id = db.statuses id ∨
      (machine.step db call).statuses id = (db.statuses id).map fun _ => 5 := by
  cases call with
  | getNextFile limit filter =>
    have hnot := not_returned_of_not_offerable hoff limit filter
    left
    show (db.getNextFile limit filter).1.statuses id = db.statuses id
    rcases db.getNextFile_cases limit filter with hnone | ⟨db', id', file, hsome, hres⟩
    · rw [hnone]
    · rw [hsome] at hnot ⊢
      exact hres.others id fun h => hnot (by rw [h]; rfl)
  | addFile src dst queue => exact db.statuses_addFile_of_queued src dst queue hcat hq
  | addEncodedFile file =>
    left
    show (db.addEncodedFile file).statuses id = db.statuses id
    rw [statuses_addEncodedFile, if_neg fun h => hrel h.symm]
  | reset srcFileId =>
    left
    show (db.reset srcFileId).statuses id = db.statuses id
    rw [statuses_reset, if_neg fun h => hrel h.symm]

/-- The statuses of a file that somebody holds, or that is done. -/
def Held (statuses : List Int) : Prop :=
  statuses ≠ [] ∧ ∀ status ∈ statuses, status = 1 ∨ status = 5

theorem Held.not_offerable {statuses : List Int} (h : Held statuses) : ¬ Offerable statuses := by
  rintro (hnil | ⟨status, hmem, hst⟩)
  · exact h.1 hnil
  · rcases h.2 status hmem with rfl | rfl <;> omega

theorem Held.map_done {statuses : List Int} (h : Held statuses) :
    Held (statuses.map fun _ => 5) := by
  refine ⟨by simpa using h.1, ?_⟩
  intro status hst
  obtain ⟨_, _, rfl⟩ := List.mem_map.mp hst
  exact Or.inr rfl

/-- A file is reserved. -/
structure Reserved (db : Store) (id : Nat) : Prop where
  catalogued : db.sourcefiles.HasKey id
  held : Held (db.statuses id)

theorem reserved_of_getNextFile {db db' : Store} {limit : LimitOne} {filter : MediaFileRequirements}
    {id : Nat} {file : BasicFileInfo} (h : db.getNextFile limit filter = (db', some (id, file))) :
    db'.Reserved id := by
  have hres := reserves_of_getNextFile h
  refine ⟨?_, hres.queued, fun status hst => Or.inl (hres.started status hst)⟩
  rw [hres.sourcefiles]
  exact ⟨_, hres.catalogued⟩

/-- A reserved file is not returned. -/
theorem Reserved.not_returned {db : Store} {id : Nat} (h : db.Reserved id) (limit : LimitOne)
    (filter : MediaFileRequirements) : (db.getNextFile limit filter).2.map Prod.fst ≠ some id :=
  not_returned_of_not_offerable h.held.not_offerable limit filter

/-- Another call than one that releases the file keeps it reserved. -/
theorem Reserved.step {db : Store} {id : Nat} (h : db.Reserved id) (call : StoreCall)
    (hrel : ¬ call.Releases id) : (machine.step db call).Reserved id := by
  refine ⟨db.hasKey_step call h.catalogued, ?_⟩
  rcases statuses_step h.catalogued h.held.1 h.held.not_offerable call hrel with hsame | hset
  · rw [hsame]
    exact h.held
  · rw [hset]
    exact h.held.map_done

/-- After `getNextFile` returned an id, no call returns it again before it is released. -/
theorem getNextFile_exclusive {db db' : Store} {limit : LimitOne} {filter : MediaFileRequirements}
    {id : Nat} {file : BasicFileInfo} (h : db.getNextFile limit filter = (db', some (id, file)))
    {calls : List StoreCall} (hcalls : ∀ call ∈ calls, ¬ call.Releases id) (limit' : LimitOne)
    (filter' : MediaFileRequirements) :
    ((machine.run db' calls).getNextFile limit' filter').2.map Prod.fst ≠ some id := by
  have hstart : db'.Reserved id := reserved_of_getNextFile h
  have hreserved : (machine.run db' calls).Reserved id :=
    machine.invariant (P := fun db => db.Reserved id) (fun db call hdb => hdb.step call) hstart
      (machine.along_of_forall hcalls db')
  exact hreserved.not_returned limit' filter'

/-- Two sources, two clients, and the watcher reports the archive of the first source in between. -/
theorem getNextFile_exclusive_two_clients :
    let db := (((empty.addFile (some ⟨"a.mov".toList, 7⟩) none true).1.addFile
      (some ⟨"b.mov".toList, 9⟩) none true).1.getNextFile .first ⟨[], 0⟩).1
    ((machine.run db
      [.addFile (some ⟨"a.mov".toList, 7⟩) (some ⟨"a_archived.mp4".toList, 3⟩) true,
       .getNextFile .first ⟨[], 0⟩]).getNextFile .first ⟨[], 0⟩).2.map Prod.fst ≠ some 1 := by
  have hfirst : ((empty.addFile (some ⟨"a.mov".toList, 7⟩) none true).1.addFile
      (some ⟨"b.mov".toList, 9⟩) none true).1.getNextFile .first ⟨[], 0⟩
      = ((((empty.addFile (some ⟨"a.mov".toList, 7⟩) none true).1.addFile
          (some ⟨"b.mov".toList, 9⟩) none true).1.getNextFile .first ⟨[], 0⟩).1,
        some (1, ⟨"a.mov".toList, 7⟩)) := rfl
  exact getNextFile_exclusive hfirst (by decide) .first ⟨[], 0⟩

end Store

end MediaArchiver
