/-
# MediaArchiver.Lib.InStream -- an input file stream and its end-of-file flags

An input stream over a regular file that nobody else changes while it is open. The three state
flags are kept apart because the operations treat them differently:

* `read` of more bytes than are left delivers what is left and sets `eofbit` *and* `failbit`;
* reading exactly the bytes that are left sets neither;
* `seekg` drops `eofbit` and then does nothing while `failbit` is set;
* `clear` drops all flags and moves nothing.

Hence the order of `seekg` and `clear` decides where the stream stands afterwards, and only after a
short read (`offset_rewind_clear`).
-/
import Mathlib.Data.List.Basic

namespace MediaArchiver.Lib

universe u

/-- An input file stream. -/
structure InStream (α : Type u) where
  isOpen : Bool
  eofbit : Bool
  failbit : Bool
  badbit : Bool
  file : List α
  offset : Nat
  gcount : Nat

namespace InStream

variable {α : Type u}

/-- A stream without a file. -/
def closed : InStream α := ⟨false, false, false, false, [], 0, 0⟩

/-- A stream just opened on a file. -/
def opened (file : List α) : InStream α := ⟨true, false, false, false, file, 0, 0⟩

/-- `open`: the content of the file, if it can be opened. A stream that is open already, and one whose
file does not open, gets `failbit` and stays as it is. -/
def openFile (s : InStream α) (found : Option (List α)) : InStream α :=
  match found with
  | some file => if s.isOpen then { s with failbit := true } else opened file
  | none => { s with failbit := true }

/-- No flag is set. -/
def good (s : InStream α) : Bool := !s.eofbit && !s.failbit && !s.badbit

/-- Some operation failed. -/
def fail (s : InStream α) : Bool := s.failbit || s.badbit

/-- The bytes not read yet. -/
def rest (s : InStream α) : List α := if s.isOpen then s.file.drop s.offset else []

/-- `read(n)`: the stream and the bytes it delivered, `gcount` of them. -/
def read (s : InStream α) (n : Nat) : InStream α × List α :=
  if s.good then
    let got := s.rest.take n
    ({ s with
       offset := s.offset + got.length
       gcount := got.length
       eofbit := decide (got.length < n)
       failbit := decide (got.length < n) }, got)
  else ({ s with failbit := true, gcount := 0 }, [])

/-- `readsome(n)` when `avail` bytes are known to be available: it never waits for more and never
reports the end. -/
def readsome (s : InStream α) (avail n : Nat) : InStream α × List α :=
  if s.good then
    let got := s.rest.take (min avail n)
    ({ s with offset := s.offset + got.length, gcount := got.length }, got)
  else ({ s with failbit := true, gcount := 0 }, [])

/-- `seekg(0, beg)`. -/
def rewind (s : InStream α) : InStream α :=
  if s.failbit || s.badbit then { s with eofbit := false, failbit := true }
  else if s.isOpen then { s with eofbit := false, offset := 0 }
  else { s with eofbit := false, failbit := true }

/-- `clear()`. -/
def clear (s : InStream α) : InStream α :=
  { s with eofbit := false, failbit := false, badbit := false }

/-- `tellg`: the position, or minus one if there is no file; minus one and `failbit` if some flag is
set. -/
def tellg (s : InStream α) : InStream α × Int :=
  if s.good then (s, if s.isOpen then (s.offset : Int) else -1) else ({ s with failbit := true }, -1)

/-- `ignore(max)`: skip to the end of the file, which sets `eofbit` alone. -/
def ignoreAll (s : InStream α) : InStream α :=
  if s.good then
    { s with offset := s.offset + s.rest.length, gcount := s.rest.length, eofbit := true }
  else { s with failbit := true, gcount := 0 }

/-- `close()`. -/
def close (s : InStream α) : InStream α :=
  if s.isOpen then { s with isOpen := false } else { s with failbit := true }

@[simp] theorem isOpen_read (s : InStream α) (n : Nat) : (s.read n).1.isOpen = s.isOpen := by
  unfold read
  split <;> rfl

@[simp] theorem isOpen_readsome (s : InStream α) (avail n : Nat) :
    (s.readsome avail n).1.isOpen = s.isOpen := by
  unfold readsome
  split <;> rfl

@[simp] theorem isOpen_close (s : InStream α) : s.close.isOpen = false := by
  unfold close
  split
  · rfl
  · rename_i hclosed
    simpa using hclosed

@[simp] theorem isOpen_tellg (s : InStream α) : s.tellg.1.isOpen = s.isOpen := by
  unfold tellg
  split <;> rfl

@[simp] theorem isOpen_rewind (s : InStream α) : s.rewind.isOpen = s.isOpen := by
  unfold rewind
  split
  · rfl
  · split <;> rfl

/-- Opening fails, or gives a stream on the file. -/
theorem openFile_cases (s : InStream α) (found : Option (List α)) :
    (s.openFile found).failbit = true ∨ ∃ file ∈ found, s.openFile found = opened file := by
  cases found with
  | none => exact Or.inl rfl
  | some file =>
    unfold openFile
    cases hopen : s.isOpen with
    | true => exact Or.inl rfl
    | false => exact Or.inr ⟨file, rfl, rfl⟩

/-- After a failure nothing is skipped. -/
theorem gcount_ignoreAll {s : InStream α} (h : s.failbit = true) : s.ignoreAll.gcount = 0 := by
  simp [ignoreAll, good, h]

@[simp] theorem isOpen_openFile (s : InStream α) (found : Option (List α)) :
    (s.openFile found).isOpen = (s.isOpen || found.isSome) := by
  cases found with
  | none => simp [openFile]
  | some file =>
    unfold openFile
    cases s.isOpen <;> simp [opened]

@[simp] theorem gcount_ignoreAll_opened (file : List α) :
    (opened file).ignoreAll.gcount = file.length := by
  simp [ignoreAll, good, opened, rest]

/-- A stream that is open already stays with its file, and nothing is skipped. -/
theorem gcount_ignoreAll_openFile (s : InStream α) (found : Option (List α)) :
    (s.openFile found).ignoreAll.gcount = if s.isOpen then 0 else (found.getD []).length := by
  cases found with
  | none => simp [gcount_ignoreAll (s := s.openFile none) rfl]
  | some file =>
    unfold openFile
    cases hopen : s.isOpen with
    | true => exact gcount_ignoreAll rfl
    | false => exact gcount_ignoreAll_opened file

/-- A stream ready for the next read: open, no flag set, not beyond the end. -/
structure Ready (s : InStream α) : Prop where
  isOpen : s.isOpen = true
  eofbit : s.eofbit = false
  failbit : s.failbit = false
  badbit : s.badbit = false
  offset_le : s.offset ≤ s.file.length

theorem Ready.good {s : InStream α} (h : s.Ready) : s.good = true := by
  simp [InStream.good, h.eofbit, h.failbit, h.badbit]

theorem Ready.rest {s : InStream α} (h : s.Ready) : s.rest = s.file.drop s.offset := by
  simp [InStream.rest, h.isOpen]

theorem ready_opened (file : List α) : (opened file).Ready :=
  ⟨rfl, rfl, rfl, rfl, Nat.zero_le _⟩

/-! ## Reading -/

/-- A read that does not reach past the end delivers what was asked for and sets no flag, not even
when it ends exactly at the end. -/
theorem read_full {s : InStream α} (h : s.Ready) {n : Nat} (hn : s.offset + n ≤ s.file.length) :
    s.read n
      = ({ s with offset := s.offset + n, gcount := n }, (s.file.drop s.offset).take n) := by
  have hlen : ((s.file.drop s.offset).take n).length = n := by
    simp only [List.length_take, List.length_drop]
    omega
  simp only [read, h.good, if_true, h.rest, hlen, Nat.lt_irrefl, decide_false, h.eofbit, h.failbit]

/-- A read past the end delivers the rest of the file and sets `eofbit` and `failbit`. -/
theorem read_short {s : InStream α} (h : s.Ready) {n : Nat} (hn : s.file.length < s.offset + n) :
    s.read n
      = ({ s with
           offset := s.file.length
           gcount := s.file.length - s.offset
           eofbit := true
           failbit := true }, s.file.drop s.offset) := by
  have htake : (s.file.drop s.offset).take n = s.file.drop s.offset :=
    List.take_of_length_le (by rw [List.length_drop]; omega)
  have hlt : s.file.length - s.offset < n := by
    have hle := h.offset_le
    omega
  have hend : s.offset + (s.file.length - s.offset) = s.file.length :=
    Nat.add_sub_cancel' h.offset_le
  simp only [read, h.good, if_true, h.rest, htake, List.length_drop, hend, hlt, decide_true]

theorem ready_read_full {s : InStream α} (h : s.Ready) {n : Nat}
    (hn : s.offset + n ≤ s.file.length) : (s.read n).1.Ready := by
  rw [read_full h hn]
  exact ⟨h.isOpen, h.eofbit, h.failbit, h.badbit, hn⟩

/-- What is available is delivered; no flag is ever set. -/
theorem readsome_ready {s : InStream α} (h : s.Ready) (avail n : Nat) :
    (s.readsome avail n).1.Ready ∧ (s.readsome avail n).1.file = s.file
      ∧ (s.readsome avail n).1.offset = s.offset + (s.readsome avail n).2.length
      ∧ (s.readsome avail n).2 <+: s.file.drop s.offset := by
  simp only [readsome, h.good, if_true, h.rest]
  refine ⟨⟨h.isOpen, h.eofbit, h.failbit, h.badbit, ?_⟩, trivial, trivial, List.take_prefix ..⟩
  have hle := h.offset_le
  simp only [List.length_take, List.length_drop]
  omega

/-- If something is available and something is left, something is delivered. -/
theorem readsome_ne_nil {s : InStream α} (h : s.Ready) {avail n : Nat} (havail : 0 < avail) (hn : 0 < n)
    (hleft : s.offset < s.file.length) : (s.readsome avail n).2 ≠ [] := by
  simp only [readsome, h.good, if_true, h.rest]
  apply List.ne_nil_of_length_pos
  simp only [List.length_take, List.length_drop]
  omega

@[simp] theorem file_read (s : InStream α) (n : Nat) : (s.read n).1.file = s.file := by
  unfold read
  split <;> rfl

/-- A read delivers the next piece of the file. -/
theorem read_next {s : InStream α} (h : s.Ready) (n : Nat) :
    (s.read n).2 <+: s.file.drop s.offset ∧ (s.read n).1.offset = s.offset + (s.read n).2.length := by
  simp only [read, h.good, if_true, h.rest]
  exact ⟨List.take_prefix .., trivial⟩

/-- A read that did not report the end got what it asked for. -/
theorem whole_of_eofbit {s : InStream α} (h : s.Ready) {n : Nat}
    (heof : (s.read n).1.eofbit = false) : s.offset + n ≤ s.file.length := by
  by_contra hshort
  rw [read_short h (Nat.lt_of_not_le hshort)] at heof
  cases heof

/-! ## Going back to the start -/

/-- Clearing after the seek makes the stream usable again, but only a stream whose `failbit` was not
set has moved. -/
theorem offset_rewind_clear {s : InStream α} (hopen : s.isOpen = true) (hbad : s.badbit = false) :
    s.rewind.clear.offset = if s.failbit then s.offset else 0 := by
  unfold rewind
  cases hfail : s.failbit <;> simp [hopen, hbad, clear]

theorem ready_rewind_clear {s : InStream α} (hopen : s.isOpen = true) (hbad : s.badbit = false)
    (hle : s.offset ≤ s.file.length) : s.rewind.clear.Ready := by
  unfold rewind
  cases hfail : s.failbit
  · simp only [hbad, Bool.or_self, Bool.false_eq_true, if_false, hopen, if_true]
    exact ⟨rfl, rfl, rfl, rfl, Nat.zero_le _⟩
  · simp only [Bool.true_or, if_true]
    exact ⟨hopen, rfl, rfl, rfl, hle⟩

theorem ready_rewind {s : InStream α} (h : s.Ready) : s.rewind.clear.Ready :=
  ready_rewind_clear h.isOpen h.badbit h.offset_le

/-- A seek without a read before it works. -/
theorem offset_rewind {s : InStream α} (h : s.Ready) : s.rewind.clear.offset = 0 := by
  rw [offset_rewind_clear h.isOpen h.badbit, h.failbit]
  rfl

/-- Whatever a read did to a stream, seeking and clearing makes it ready again. -/
theorem ready_restart {s : InStream α} (h : s.Ready) {n : Nat} :
    (s.read n).1.rewind.clear.Ready := by
  by_cases hwhole : s.offset + n ≤ s.file.length
  · exact ready_rewind (ready_read_full h hwhole)
  · rw [read_short h (Nat.lt_of_not_le hwhole)]
    exact ready_rewind_clear h.isOpen h.badbit (Nat.le_refl _)

/-- It is back at its start exactly if the read got what it asked for, or there is nothing to read. -/
theorem offset_restart {s : InStream α} (h : s.Ready) (hne : s.file ≠ []) {n : Nat} :
    (s.read n).1.rewind.clear.offset = 0 ↔ s.offset + n ≤ s.file.length := by
  have hlen := List.length_pos_iff.mpr hne
  by_cases hwhole : s.offset + n ≤ s.file.length
  · have hready := ready_read_full h hwhole
    rw [offset_rewind_clear hready.isOpen hready.badbit, hready.failbit]
    exact iff_of_true rfl hwhole
  · refine iff_of_false (fun hzero => ?_) hwhole
    have hread := read_short h (Nat.lt_of_not_le hwhole)
    have hopen : (s.read n).1.isOpen = true := (congrArg (·.1.isOpen) hread).trans h.isOpen
    have hbad : (s.read n).1.badbit = false := (congrArg (·.1.badbit) hread).trans h.badbit
    rw [offset_rewind_clear hopen hbad, hread] at hzero
    simp only [if_true] at hzero
    omega

/-- It is back at its start, or at its end. -/
theorem offset_restart_cases {s : InStream α} (h : s.Ready) (n : Nat) :
    (s.read n).1.rewind.clear.offset = 0 ∨ (s.read n).1.rewind.clear.offset = s.file.length := by
  by_cases hwhole : s.offset + n ≤ s.file.length
  · left
    have hready := ready_read_full h hwhole
    rw [offset_rewind_clear hready.isOpen hready.badbit, hready.failbit]
    rfl
  · right
    rw [read_short h (Nat.lt_of_not_le hwhole)]
    exact offset_rewind_clear h.isOpen h.badbit

@[simp] theorem file_rewind_clear (s : InStream α) : s.rewind.clear.file = s.file := by
  unfold rewind
  split
  · rfl
  · split <;> rfl

end InStream

end MediaArchiver.Lib
