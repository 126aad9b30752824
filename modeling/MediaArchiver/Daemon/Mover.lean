/-
# MediaArchiver.Daemon.Mover -- one entry of the mover's queue, from the temp file to the database

The mover takes entries one by one. An entry that reports a failure is recorded; one that reports
success is moved to its place and recorded when that worked, and recorded as a server error when it
did not. Whether an archive is entered is decided by `addEncodedFile`, which looks at the length only:
the mover's own error record has length 0, but a client's error record has whatever length the client
posted (`hasKey_finishMove`).
-/
import MediaArchiver.Daemon.Session
import MediaArchiver.Store.Statuses

namespace MediaArchiver

/-- What became of moving a file: `mv` may fail, and setting the times afterwards may. -/
inductive MoveOutcome where
  | moved
  | mvFailed
  | timesFailed
deriving DecidableEq

/-- Move a file to its place. -/
def moveFile (outcome : MoveOutcome) (src dst : Path) : Except Exn Unit :=
  match outcome with
  | .moved => .ok ()
  | .mvFailed =>
      .error (.runtimeError ("Error during moving file: mv \"".toList ++ src ++ "\" \"".toList ++ dst
        ++ "\"".toList))
  | .timesFailed => .error (.runtimeError ("Error modifying time: ".toList ++ dst))

namespace FileToMove

/-- The entry reports a file that has to be moved. -/
def ToBeMoved (ftm : FileToMove) : Prop :=
  ¬ (ftm.result.result ≠ EncodingResult.ok.value ∨ ftm.result.fileLength = 0)

instance (ftm : FileToMove) : Decidable ftm.ToBeMoved := inferInstanceAs (Decidable (¬ _))

theorem toBeMoved_iff {ftm : FileToMove} :
    ftm.ToBeMoved ↔ ftm.result.result = EncodingResult.ok.value ∧ ftm.result.fileLength ≠ 0 := by
  unfold ToBeMoved
  rw [not_or, not_not]

/-- The record of a move that failed. -/
def moveError (ftm : FileToMove) (what : Text) : EncodedFile :=
  { ftm.result with
    error := what
    fileLength := 0
    result := EncodingResult.serverIOError.value }

/-- What the mover records for an entry, if anything. -/
def record (ftm : FileToMove) (outcome : MoveOutcome) : Option EncodedFile :=
  if ftm.result.result ≠ EncodingResult.ok.value ∨ ftm.result.fileLength = 0 then some ftm.result
  else
    match moveFile outcome ftm.tmp.name ftm.result.fileName with
    | .ok () => some ftm.result
    | .error e => if e.what = [] then none else some (ftm.moveError e.what)

/-- An entry is always recorded, under its own id. -/
theorem record_spec (ftm : FileToMove) (outcome : MoveOutcome) :
    ∃ file, ftm.record outcome = some file ∧ file.originalFileId = ftm.result.originalFileId
      ∧ ((file = ftm.result ∧ (ftm.ToBeMoved → outcome = .moved)) ∨
        (ftm.ToBeMoved ∧ outcome ≠ .moved ∧ ∃ what, file = ftm.moveError what)) := by
  unfold record
  by_cases h : ftm.ToBeMoved
  · rw [if_neg h]
    cases outcome with
    | moved => exact ⟨_, rfl, rfl, Or.inl ⟨rfl, fun _ => rfl⟩⟩
    | mvFailed =>
      refine ⟨ftm.moveError _, if_neg ?_, rfl, Or.inr ⟨h, nofun, _, rfl⟩⟩
      exact List.cons_ne_nil _ _
    | timesFailed =>
      refine ⟨ftm.moveError _, if_neg ?_, rfl, Or.inr ⟨h, nofun, _, rfl⟩⟩
      exact List.cons_ne_nil _ _
  · rw [if_pos (not_not.mp h)]
    exact ⟨_, rfl, rfl, Or.inl ⟨rfl, fun h' => absurd h' h⟩⟩

end FileToMove

namespace Store

/-- The mover finishes an entry. -/
def finishMove (db : Store) (ftm : FileToMove) (outcome : MoveOutcome) : Store :=
  match ftm.record outcome with
  | some file => db.addEncodedFile file
  | none => db

@[simp] theorem sourcefiles_finishMove (db : Store) (ftm : FileToMove) (outcome : MoveOutcome) :
    (db.finishMove ftm outcome).sourcefiles = db.sourcefiles := by
  unfold finishMove
  split
  · exact sourcefiles_addEncodedFile ..
  · rfl

/-- The status that the mover writes. -/
def movedStatus (ftm : FileToMove) (outcome : MoveOutcome) : Int :=
  if ftm.ToBeMoved ∧ outcome ≠ .moved then EncodingResult.serverIOError.value.toInt
  else ftm.result.result.toInt

theorem statuses_finishMove (db : Store) (ftm : FileToMove) (outcome : MoveOutcome) (id : Nat) :
    (db.finishMove ftm outcome).statuses id
      = if id = ftm.result.originalFileId then
          (db.statuses id).map fun _ => movedStatus ftm outcome
        else db.statuses id := by
  obtain ⟨file, hfile, hid, hcase⟩ := ftm.record_spec outcome
  have hstatus : file.result.toInt = movedStatus ftm outcome := by
    unfold movedStatus
    rcases hcase with ⟨rfl, hmoved⟩ | ⟨hto, hne, what, rfl⟩
    · rw [if_neg (fun h => h.2 (hmoved h.1))]
    · rw [if_pos ⟨hto, hne⟩]
      rfl
  simp only [finishMove, hfile]
  rw [statuses_addEncodedFile, hid, hstatus]

theorem hasKey_finishMove (db : Store) (ftm : FileToMove) (outcome : MoveOutcome) (id : Nat) :
    (db.finishMove ftm outcome).archives.HasKey id ↔
      (id = ftm.result.originalFileId ∧ ftm.result.fileLength ≠ 0
        ∧ (ftm.ToBeMoved → outcome = .moved)) ∨ db.archives.HasKey id := by
  obtain ⟨file, hfile, hid, hcase⟩ := ftm.record_spec outcome
  simp only [finishMove, hfile]
  rw [hasKey_addEncodedFile, hid]
  rcases hcase with ⟨rfl, hmoved⟩ | ⟨hto, hne, what, rfl⟩
  · rw [UInt64.pos_iff_ne_zero]
    refine or_congr_left (and_congr_right fun _ => ?_)
    exact ⟨fun h => ⟨h, hmoved⟩, And.left⟩
  · have hzero : ¬ 0 < (ftm.moveError what).fileLength := UInt64.lt_irrefl 0
    simp only [hzero, and_false, false_or]
    constructor
    · exact Or.inr
    · rintro (⟨_, _, hmoved⟩ | h)
      · exact absurd (hmoved hto) hne
      · exact h

/-- The mover enters an archive for an entry only if the entry reports success and its file was
moved. -/
def EntersMovedOnly (db : Store) (ftm : FileToMove) (outcome : MoveOutcome) : Prop :=
  (db.finishMove ftm outcome).archives.HasKey ftm.result.originalFileId →
    db.archives.HasKey ftm.result.originalFileId ∨
      (ftm.result.result = EncodingResult.ok.value ∧ outcome = .moved)

instance (db : Store) (ftm : FileToMove) (outcome : MoveOutcome) :
    Decidable (db.EntersMovedOnly ftm outcome) :=
  inferInstanceAs (Decidable (_ → _))

/-- An archive is entered for a moved file only, exactly if the entry does not report a failure with a
length for an id that has no archive yet. -/
theorem entersMovedOnly_iff (db : Store) (ftm : FileToMove) (outcome : MoveOutcome) :
    db.EntersMovedOnly ftm outcome ↔
      (ftm.result.result = EncodingResult.ok.value ∨ ftm.result.fileLength = 0
        ∨ db.archives.HasKey ftm.result.originalFileId) := by
  unfold EntersMovedOnly
  rw [hasKey_finishMove]
  constructor
  · intro h
    by_contra hnot
    rw [not_or, not_or] at hnot
    obtain ⟨hresult, hlength, hkey⟩ := hnot
    have hto : ftm.ToBeMoved → outcome = .moved := fun hto =>
      absurd (FileToMove.toBeMoved_iff.mp hto).1 hresult
    rcases h (Or.inl ⟨rfl, hlength, hto⟩) with h | ⟨h, _⟩
    · exact hkey h
    · exact hresult h
  · rintro hcond (⟨_, hlength, hto⟩ | hkey)
    · rcases hcond with hresult | hzero | hkey
      · exact Or.inr ⟨hresult, hto (FileToMove.toBeMoved_iff.mpr ⟨hresult, hlength⟩)⟩
      · exact absurd hzero hlength
      · exact Or.inl hkey
    · exact Or.inl hkey

/-- A client posts a retriable error with a length. The mover moves nothing, and the file has an
archive. -/
theorem failure_entered :
    ∃ move, ((ConnectedClient.downloaded 1 "a.mov".toList [7]).postFile gCfg true
        ⟨-1, 10, "no space".toList⟩).queued = some move
      ∧ ¬ (empty.addFile (some ⟨"a.mov".toList, 1⟩) none true).1.EntersMovedOnly move .moved :=
  ⟨_, rfl, by decide⟩

end Store

end MediaArchiver
