/-
# MediaArchiver.Store.Runs -- whole runs of the database, and the ids they hand out

A run starts from the tables as they are created. What one call may do can depend on what earlier calls
answered: the daemon records results for ids only that `getNextFile` returned before. Such an id is
catalogued, since catalogue rows are never deleted, so the tables stay in order in every run in which
results are recorded that way (`wellFormed_run`). The other three calls need no assumption at all.
-/
import MediaArchiver.Store.Reservation
import MediaArchiver.Store.WellFormed

namespace MediaArchiver

open Lib (Machine AlongPast)

namespace Store

/-- The id that a call returns, if it is `getNextFile` and finds a file. -/
def returned (db : Store) : StoreCall → Option Nat
  | .getNextFile limit filter => (db.getNextFile limit filter).2.map Prod.fst
  | .addFile .. | .addEncodedFile _ | .reset _ => none

/-- The ids that the calls returned, one after the other. -/
def handedOut (calls : List StoreCall) : List Nat := machine.outputs returned empty calls

/-- A result is recorded for an id only that an earlier call returned. -/
def RecordsReturned (past : List StoreCall) : StoreCall → Prop
  | .addEncodedFile file => file.originalFileId ∈ handedOut past
  | _ => True

instance (past : List StoreCall) : DecidablePred (RecordsReturned past)
  | .addEncodedFile _ => inferInstanceAs (Decidable (_ ∈ _))
  | .getNextFile .. | .addFile .. | .reset _ => inferInstanceAs (Decidable True)

/-- What a call returns is catalogued. -/
theorem hasKey_returned {db : Store} {call : StoreCall} {id : Nat}
    (h : db.returned call = some id) : db.sourcefiles.HasKey id := by
  cases call with
  | getNextFile limit filter =>
    rcases db.getNextFile_cases limit filter with hnone | ⟨db', id', file, hsome, hres⟩
    · simp [returned, hnone] at h
    · obtain rfl : id' = id := by simpa [returned, hsome] using h
      exact ⟨_, hres.catalogued⟩
  | addFile src dst queue => cases h
  | addEncodedFile file => cases h
  | reset srcFileId => cases h

theorem hasKey_handedOut {calls : List StoreCall} {id : Nat} (h : id ∈ handedOut calls) :
    (machine.run empty calls).sourcefiles.HasKey id :=
  machine.stable_outputs returned (P := fun _ => True) (Q := fun db id => db.sourcefiles.HasKey id)
    (fun _ _ _ _ => trivial) (fun db call _ h => db.hasKey_step call h)
    (fun db call _ _ _ h => db.hasKey_step call (hasKey_returned h)) trivial
    (machine.along_true empty calls) id h

/-- A call keeps the tables in order, if it records a result for a catalogued id only. -/
theorem WellFormed.step {db : Store} (h : db.WellFormed) {call : StoreCall}
    (hcat : ∀ file, call = .addEncodedFile file → db.sourcefiles.HasKey file.originalFileId) :
    (machine.step db call).WellFormed := by
  cases call with
  | getNextFile limit filter => exact wellFormed_getNextFile h limit filter
  | addFile src dst queue => exact wellFormed_addFile h src dst queue
  | addEncodedFile file => exact wellFormed_addEncodedFile h file fun _ => hcat file rfl
  | reset srcFileId => exact wellFormed_reset h srcFileId

/-- From the empty tables on the tables stay in order, in whatever sequence the calls come, if results
are recorded for ids only that were returned before. -/
theorem wellFormed_run {calls : List StoreCall} (h : AlongPast RecordsReturned [] calls) :
    (machine.run empty calls).WellFormed := by
  refine machine.invariant_past (P := fun _ db => db.WellFormed) ?_ wellFormed_empty h
  intro past call hwf hcall
  refine hwf.step ?_
  rintro file rfl
  exact hasKey_handedOut hcall

/-- Two sources and an archive of one of them; the other is handed out, its failure recorded, and it is
reset. -/
theorem wellFormed_run_mixed :
    (machine.run empty
      [.addFile (some ⟨"a.mov".toList, 7⟩) none true,
       .addFile (some ⟨"b.mov".toList, 9⟩) (some ⟨"b_archived.mp4".toList, 3⟩) true,
       .getNextFile .first ⟨[], 0⟩, .addEncodedFile ⟨⟨-1, 4, []⟩, 1, "a_archived.mp4".toList⟩,
       .addFile none (some ⟨"a_archived.mp4".toList, 4⟩) false, .reset 1]).WellFormed :=
  wellFormed_run (by decide)

end Store

end MediaArchiver
