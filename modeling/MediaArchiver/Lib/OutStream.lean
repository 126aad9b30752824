/-
# MediaArchiver.Lib.OutStream -- a buffered output file stream, and the cursor it refines

`OutStream` is an output stream over a file buffer: the bytes the device holds, the device offset,
the put area that has not reached the device yet, and the two error flags. What the device does with
the bytes it is handed is the environment's answer to each call (`WriteAnswer`, or the number of
bytes a flush gets through), so a full disk, a short write and a lost buffer are all just answers.

Three facts of such streams matter and are easy to forget:

* a write into the put area succeeds although nothing has reached the device;
* once a flag is set, `tellp` answers minus one and every later operation does nothing;
* rewinding does not truncate.

Over it stands `Cursor`, a file with a position and nothing else. `view` flushes the put area in the
mind: as long as the device takes everything, a stream *is* its cursor (`cursor_write`,
`cursor_rewind`, `file_close`), and `Cursor.Holds` says which bytes the cursor has gone over.
-/
import Mathlib.Algebra.Group.Nat.Defs
import Mathlib.Data.List.Basic
import Mathlib.Data.List.TakeDrop

namespace MediaArchiver.Lib

universe u

variable {α : Type u}

/-! ## A file and a position -/

/-- A cursor: the bytes of a file and the position of the next write. -/
structure Cursor (α : Type u) where
  content : List α
  pos : Nat

namespace Cursor

/-- Go back to the start; the file keeps its bytes. -/
def rewind (c : Cursor α) : Cursor α := ⟨c.content, 0⟩

/-- The bytes before the position are `bytes`. -/
def Holds (c : Cursor α) (bytes : List α) : Prop :=
  c.pos = bytes.length ∧ c.content.take c.pos = bytes

theorem Holds.pos_le {c : Cursor α} {bytes : List α} (h : c.Holds bytes) :
    c.pos ≤ c.content.length := by
  have hlen := congrArg List.length h.2
  rw [List.length_take, ← h.1] at hlen
  omega

theorem holds_rewind (c : Cursor α) : c.rewind.Holds [] := ⟨rfl, rfl⟩

/-- A cursor that has gone over the whole file holds exactly the file. -/
theorem Holds.content_eq {c : Cursor α} {bytes : List α} (h : c.Holds bytes)
    (hend : c.content.length ≤ c.pos) : c.content = bytes := by
  rw [← h.2, List.take_of_length_le hend]

end Cursor

/-! ## The stream -/

/-- The largest stream position: `streamoff` is a signed 64-bit integer. -/
def maxOffset : Nat := 2 ^ 63 - 1

/-- A buffered output file stream. -/
structure OutStream (α : Type u) where
  isOpen : Bool
  failbit : Bool
  badbit : Bool
  /-- The bytes on the device. -/
  file : List α
  /-- The device offset. -/
  offset : Nat
  /-- The put area: accepted from the caller, not yet on the device. -/
  pending : List α

/-- What became of one call that hands data to the buffer: how many bytes of the put area followed
by the new data the device took, whether all of the data found a place, and what was left in the put
area if it did not. -/
structure WriteAnswer (α : Type u) where
  drained : Nat
  complete : Bool
  leftover : List α

namespace OutStream

/-- A stream without a file, as a default constructor leaves it. -/
def closed : OutStream α := ⟨false, false, false, [], 0, []⟩

/-- A stream just opened for writing: the file is truncated and the flags are clear. -/
def opened : OutStream α := ⟨true, false, false, [], 0, []⟩

/-- `open` for writing. A stream that is open already, and one whose file does not open, gets `failbit`
and stays as it is. -/
def openFile (s : OutStream α) (opens : Bool) : OutStream α :=
  if opens && !s.isOpen then opened else { s with failbit := true }

/-- Some operation on the stream failed. -/
def fail (s : OutStream α) : Bool := s.failbit || s.badbit

/-- The position the next byte goes to. -/
def position (s : OutStream α) : Nat := s.offset + s.pending.length

/-- `tellp`: the position, or minus one for a stream that failed or is not open. -/
def tellp (s : OutStream α) : Int := if s.isOpen && !s.fail then (s.position : Int) else -1

/-- The answer to a write is complete: the device and the buffer took all of the data. -/
def Takes (s : OutStream α) (a : WriteAnswer α) (data : List α) : Prop :=
  a.complete = true ∧ s.position + data.length ≤ maxOffset

/-- The device takes the whole put area when it is flushed. -/
def Flushes (s : OutStream α) (n : Nat) : Prop := s.pending.length ≤ n

instance (s : OutStream α) (a : WriteAnswer α) (data : List α) : Decidable (s.Takes a data) :=
  inferInstanceAs (Decidable (_ ∧ _))

instance (s : OutStream α) (n : Nat) : Decidable (s.Flushes n) :=
  inferInstanceAs (Decidable (_ ≤ _))

/-- A stream ready for the next write: open, no error flag, offset inside the file. -/
structure Ready (s : OutStream α) : Prop where
  isOpen : s.isOpen = true
  failbit : s.failbit = false
  badbit : s.badbit = false
  offset_le : s.offset ≤ s.file.length

theorem Ready.fail {s : OutStream α} (h : s.Ready) : s.fail = false := by
  simp [OutStream.fail, h.failbit, h.badbit]

theorem ready_of_fail_eq_false {s : OutStream α} (hopen : s.isOpen = true) (h : s.fail = false)
    (hle : s.offset ≤ s.file.length) : s.Ready := by
  rw [OutStream.fail, Bool.or_eq_false_iff] at h
  exact ⟨hopen, h.1, h.2, hle⟩

theorem ready_opened : (opened : OutStream α).Ready := ⟨rfl, rfl, rfl, Nat.le_refl 0⟩

theorem tellp_ready {s : OutStream α} (h : s.Ready) : s.tellp = (s.position : Int) := by
  simp [tellp, h.isOpen, h.fail]

theorem tellp_fail {s : OutStream α} (h : s.fail = true) : s.tellp = -1 := by
  simp [tellp, h]

@[simp] theorem isOpen_openFile (s : OutStream α) (opens : Bool) :
    (s.openFile opens).isOpen = (opens || s.isOpen) := by
  unfold openFile
  cases opens with
  | false => rfl
  | true => cases hopen : s.isOpen <;> simp [opened]

end OutStream

/-! ## Overwriting -/

/-- The beginning of a list and the next piece of it. -/
theorem take_add_eq {bytes data : List α} {n : Nat} (hdata : data <+: bytes.drop n) :
    bytes.take (n + data.length) = bytes.take n ++ data := by
  rw [List.take_add, ← List.prefix_iff_eq_take.mp hdata]

variable [Inhabited α]

/-- Replace the bytes of a file from an offset on. A gap before the offset reads as zeros. -/
def overwrite (file : List α) (offset : Nat) (data : List α) : List α :=
  (file ++ List.replicate (offset - file.length) default).take offset ++ data
    ++ file.drop (offset + data.length)

theorem overwrite_of_le {file : List α} {offset : Nat} (h : offset ≤ file.length) (data : List α) :
    overwrite file offset data = file.take offset ++ data ++ file.drop (offset + data.length) := by
  rw [overwrite, Nat.sub_eq_zero_of_le h, List.replicate_zero, List.append_nil]

theorem length_overwrite {file : List α} {offset : Nat} (h : offset ≤ file.length) (data : List α) :
    (overwrite file offset data).length = max file.length (offset + data.length) := by
  rw [overwrite_of_le h]
  simp only [List.length_append, List.length_take, List.length_drop]
  omega

theorem overwrite_nil {file : List α} {offset : Nat} (h : offset ≤ file.length) :
    overwrite file offset [] = file := by
  rw [overwrite_of_le h]
  simp

/-- What stands before the end of the written bytes. -/
theorem take_overwrite {file : List α} {offset : Nat} (h : offset ≤ file.length) (data : List α) :
    (overwrite file offset data).take (offset + data.length) = file.take offset ++ data := by
  have hlen : (file.take offset ++ data).length = offset + data.length := by
    rw [List.length_append, List.length_take, Nat.min_eq_left h]
  rw [overwrite_of_le h, List.take_append_of_le_length (Nat.le_of_eq hlen.symm)]
  exact List.take_of_length_le (Nat.le_of_eq hlen)

/-- What is written behind the last byte is appended. -/
theorem overwrite_end (file data : List α) : overwrite file file.length data = file ++ data := by
  rw [overwrite_of_le (Nat.le_refl _), List.take_length, List.drop_eq_nil_of_le (Nat.le_add_right ..),
    List.append_nil]

/-- Writing in two pieces is writing at once. -/
theorem overwrite_append {file : List α} {offset : Nat} (h : offset ≤ file.length)
    (d₁ d₂ : List α) :
    overwrite (overwrite file offset d₁) (offset + d₁.length) d₂
      = overwrite file offset (d₁ ++ d₂) := by
  have hle : offset + d₁.length ≤ (overwrite file offset d₁).length := by
    rw [length_overwrite h]
    omega
  rw [overwrite_of_le hle, take_overwrite h, overwrite_of_le h (d₁ ++ d₂)]
  have hdrop : (overwrite file offset d₁).drop (offset + d₁.length + d₂.length)
      = file.drop (offset + (d₁ ++ d₂).length) := by
    have hpre : (file.take offset ++ d₁).length = offset + d₁.length := by
      simp only [List.length_append, List.length_take]
      omega
    rw [overwrite_of_le h, ← hpre, List.drop_length_add_append, List.drop_drop, hpre,
      List.length_append, Nat.add_assoc]
  rw [hdrop]
  simp only [List.append_assoc]

namespace Cursor

/-- Write at the position and move behind what was written. -/
def write (c : Cursor α) (data : List α) : Cursor α :=
  ⟨overwrite c.content c.pos data, c.pos + data.length⟩

theorem holds_write {c : Cursor α} {bytes : List α} (h : c.Holds bytes) (data : List α) :
    (c.write data).Holds (bytes ++ data) := by
  refine ⟨?_, ?_⟩
  · rw [List.length_append, ← h.1]
    rfl
  · show (overwrite c.content c.pos data).take (c.pos + data.length) = _
    rw [take_overwrite h.pos_le, h.2]

theorem write_nil {c : Cursor α} (h : c.pos ≤ c.content.length) : c.write [] = c := by
  rw [write, overwrite_nil h]
  rfl

/-- A cursor that goes over a given file, written with the next piece of it. -/
theorem holds_write_next {c : Cursor α} {bytes data : List α} (h : c.Holds (bytes.take c.pos))
    (hdata : data <+: bytes.drop c.pos) : (c.write data).Holds (bytes.take (c.write data).pos) := by
  show (c.write data).Holds (bytes.take (c.pos + data.length))
  rw [take_add_eq hdata]
  exact holds_write h data

/-- The beginning of a file, written on with the next piece of it. -/
theorem write_take {bytes data : List α} {n : Nat} (hn : n ≤ bytes.length) (hdata : data <+: bytes.drop n) :
    write ⟨bytes.take n, n⟩ data = ⟨bytes.take (n + data.length), n + data.length⟩ := by
  have hlen : (bytes.take n).length = n := List.length_take_of_le hn
  have hwritten := overwrite_end (bytes.take n) data
  rw [hlen, ← take_add_eq hdata] at hwritten
  rw [write, hwritten]

theorem length_write {c : Cursor α} (h : c.pos ≤ c.content.length) (data : List α) :
    (c.write data).content.length = max c.content.length (c.pos + data.length) :=
  length_overwrite h data

end Cursor

/-! ## Operations on the stream -/

namespace OutStream

/-- The file with the put area written out. -/
def view (s : OutStream α) : List α := overwrite s.file s.offset s.pending

/-- The file and position that the stream stands for. -/
def cursor (s : OutStream α) : Cursor α := ⟨s.view, s.position⟩

/-- Hand the device the first `n` bytes of `data`, leaving `rest` in the put area. -/
def drain (s : OutStream α) (n : Nat) (data rest : List α) : OutStream α :=
  { s with
    file := overwrite s.file s.offset (data.take n)
    offset := s.offset + (data.take n).length
    pending := rest }

/-- `write`: nothing happens on a stream that failed; otherwise the buffer takes the data, or takes
part of it and sets `badbit`. -/
def write (s : OutStream α) (a : WriteAnswer α) (data : List α) : OutStream α :=
  -- the sentry refuses a stream that is not good
  if s.fail then { s with failbit := true }
  else if !s.isOpen then { s with badbit := true }
  else if s.Takes a data then
    s.drain a.drained (s.pending ++ data) ((s.pending ++ data).drop a.drained)
  else { s.drain a.drained (s.pending ++ data) a.leftover with badbit := true }

/-- `seekp(0, beg)`: flush the put area, of which the device takes `n` bytes, and go to the start.
A stream that failed is left where it is; a flush that falls short sets `failbit`. -/
def rewind (s : OutStream α) (n : Nat) : OutStream α :=
  if s.fail then s
  else if !s.isOpen then { s with failbit := true }
  else if s.Flushes n then { s.drain n s.pending [] with offset := 0 }
  else { s.drain n s.pending s.pending with failbit := true }

/-- `close()`: flush the put area, of which the device takes `n` bytes, and give up the file. -/
def close (s : OutStream α) (n : Nat) : OutStream α :=
  if !s.isOpen then { s with failbit := true }
  else
    { s.drain n s.pending [] with
      isOpen := false
      failbit := s.failbit || decide (¬ s.Flushes n) }

@[simp] theorem isOpen_close (s : OutStream α) (n : Nat) : (s.close n).isOpen = false := by
  unfold close
  cases hopen : s.isOpen <;> simp

@[simp] theorem isOpen_write (s : OutStream α) (a : WriteAnswer α) (data : List α) :
    (s.write a data).isOpen = s.isOpen := by
  unfold write
  split
  · rfl
  · split
    · rfl
    · split <;> rfl

@[simp] theorem isOpen_rewind (s : OutStream α) (n : Nat) : (s.rewind n).isOpen = s.isOpen := by
  unfold rewind
  split
  · rfl
  · split
    · rfl
    · split <;> rfl

/-! ## The stream refines the cursor -/

@[simp] theorem cursor_opened : (opened : OutStream α).cursor = ⟨[], 0⟩ := by
  simp [cursor, view, position, opened, overwrite]

theorem cursor_drain {s : OutStream α} (h : s.offset ≤ s.file.length) (n : Nat) (data : List α) :
    (s.drain n data (data.drop n)).cursor
      = ⟨overwrite s.file s.offset data, s.offset + data.length⟩ := by
  have hview : (s.drain n data (data.drop n)).view = overwrite s.file s.offset data := by
    show overwrite (overwrite _ _ (data.take n)) (s.offset + (data.take n).length) (data.drop n) = _
    rw [overwrite_append h, List.take_append_drop]
  have hpos : (s.drain n data (data.drop n)).position = s.offset + data.length := by
    show s.offset + (data.take n).length + (data.drop n).length = _
    rw [Nat.add_assoc, ← List.length_append, List.take_append_drop]
  rw [cursor, hview, hpos]

theorem offset_drain {s : OutStream α} (h : s.offset ≤ s.file.length) (n : Nat)
    (data rest : List α) : (s.drain n data rest).offset ≤ (s.drain n data rest).file.length := by
  show s.offset + (data.take n).length ≤ (overwrite s.file s.offset (data.take n)).length
  rw [length_overwrite h]
  exact Nat.le_max_right ..

/-- A write keeps the device offset inside the file, whatever the device does. -/
theorem offset_write {s : OutStream α} (h : s.offset ≤ s.file.length) (a : WriteAnswer α)
    (data : List α) : (s.write a data).offset ≤ (s.write a data).file.length := by
  unfold write
  split
  · exact h
  · split
    · exact h
    · split
      · exact offset_drain h ..
      · exact offset_drain h _ _ a.leftover

/-- So does a rewind. -/
theorem offset_rewind {s : OutStream α} (h : s.offset ≤ s.file.length) (n : Nat) :
    (s.rewind n).offset ≤ (s.rewind n).file.length := by
  unfold rewind
  split
  · exact h
  · split
    · exact h
    · split
      · exact Nat.zero_le _
      · exact offset_drain h _ _ s.pending

theorem write_of_takes {s : OutStream α} (h : s.Ready) {a : WriteAnswer α} {data : List α}
    (ha : s.Takes a data) :
    s.write a data = s.drain a.drained (s.pending ++ data) ((s.pending ++ data).drop a.drained) := by
  simp [write, h.fail, h.isOpen, ha]

/-- A write the device keeps up with is the cursor's write. -/
theorem cursor_write {s : OutStream α} (h : s.Ready) {a : WriteAnswer α} {data : List α}
    (ha : s.Takes a data) : (s.write a data).cursor = s.cursor.write data := by
  rw [write_of_takes h ha, cursor_drain h.offset_le]
  simp only [Cursor.write, cursor, view, position, List.length_append]
  rw [overwrite_append h.offset_le, Nat.add_assoc]

theorem ready_write {s : OutStream α} (h : s.Ready) {a : WriteAnswer α} {data : List α}
    (ha : s.Takes a data) : (s.write a data).Ready := by
  rw [write_of_takes h ha]
  exact ⟨h.isOpen, h.failbit, h.badbit, offset_drain h.offset_le ..⟩

/-- A write that falls short leaves the stream failed. -/
theorem fail_write {s : OutStream α} {a : WriteAnswer α} {data : List α}
    (ha : ¬ s.Takes a data) : (s.write a data).fail = true := by
  unfold write
  split
  · simp [fail]
  · split
    · simp [fail]
    · simp [fail]

/-- Writing does not mend a failed stream. -/
theorem fail_write_of_fail {s : OutStream α} (h : s.fail = true) (a : WriteAnswer α)
    (data : List α) : (s.write a data).fail = true := by
  rw [write, if_pos h]
  simp [fail]

theorem rewind_of_flushes {s : OutStream α} (h : s.Ready) {n : Nat} (hn : s.Flushes n) :
    s.rewind n = { s.drain n s.pending [] with offset := 0 } := by
  simp [rewind, h.fail, h.isOpen, hn]

theorem rewind_of_fail {s : OutStream α} (h : s.fail = true) (n : Nat) : s.rewind n = s := by
  rw [rewind, if_pos h]

/-- A rewind that cannot flush leaves the stream failed. -/
theorem fail_rewind {s : OutStream α} {n : Nat} (hn : ¬ s.Flushes n) : (s.rewind n).fail = true := by
  unfold rewind
  split
  · rename_i h
    exact h
  · split
    · simp [fail]
    · simp [fail]

/-- A rewind whose flush the device keeps up with is the cursor's rewind. -/
theorem cursor_rewind {s : OutStream α} (h : s.Ready) {n : Nat} (hn : s.Flushes n) :
    (s.rewind n).cursor = s.cursor.rewind := by
  rw [rewind_of_flushes h hn]
  have htake : s.pending.take n = s.pending := List.take_of_length_le hn
  simp only [cursor, view, position, drain, Cursor.rewind, htake]
  rw [overwrite_nil (Nat.zero_le _)]
  rfl

theorem ready_rewind {s : OutStream α} (h : s.Ready) {n : Nat} (hn : s.Flushes n) :
    (s.rewind n).Ready := by
  rw [rewind_of_flushes h hn]
  exact ⟨h.isOpen, h.failbit, h.badbit, Nat.zero_le _⟩

/-- The cursor of a stream in order is inside its file. -/
theorem Ready.pos_le {s : OutStream α} (h : s.Ready) : s.cursor.pos ≤ s.cursor.content.length := by
  show s.offset + s.pending.length ≤ (overwrite s.file s.offset s.pending).length
  rw [length_overwrite h.offset_le]
  exact Nat.le_max_right ..

/-- Closing a stream whose put area the device takes leaves what the cursor held. -/
theorem file_close {s : OutStream α} (h : s.isOpen = true) {n : Nat} (hn : s.Flushes n) :
    (s.close n).file = s.cursor.content := by
  have htake : s.pending.take n = s.pending := List.take_of_length_le hn
  simp [close, h, drain, htake, cursor, view]

end OutStream

end MediaArchiver.Lib
