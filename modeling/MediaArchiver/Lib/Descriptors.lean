/-
# MediaArchiver.Lib.Descriptors -- files, and the numbers that they are open under

The system calls on files: `open`, `lseek`, `posix_fallocate`, `read`, `write`, `close`, `fstat` and
`futimens`. A descriptor is a number that stands for a file and an offset in it, as long as it is not closed.
Two descriptors may stand for the same file, and then each sees what is done through the other.

What the system is free to choose is the answer to a call: the number, how many bytes it reads or writes,
whether it fails. Writing does not set the times of a file at once; they are marked, and the system sets them
by the time a descriptor is closed. `futimens` sets them to given values. On a number that is not open a call
fails, and nothing happens.
-/
import Mathlib.Logic.Function.Basic
import MediaArchiver.Lib.OutStream

namespace MediaArchiver.Lib

universe u v w

variable {ι : Type u} {α : Type v} {τ : Type w}

/-- A file. -/
structure Inode (α : Type v) (τ : Type w) where
  content : List α
  times : τ
  /-- The system is yet to set the times. -/
  marked : Bool

/-- What a descriptor stands for. -/
structure Position (ι : Type u) where
  ino : ι
  offset : Nat

/-- The files, and what is open. -/
structure Kernel (ι : Type u) (α : Type v) (τ : Type w) where
  inode : ι → Inode α τ
  fds : Nat → Option (Position ι)

namespace Kernel

/-- What is open under a number. -/
def lookup (k : Kernel ι α τ) (fd : Int) : Option (Position ι) :=
  if fd < 0 then none else k.fds fd.toNat

/-- `fstat`, as far as the times go. -/
def fstat (k : Kernel ι α τ) (fd : Int) (answer : Bool) : Option τ :=
  match k.lookup fd, answer with
  | some p, true => some (k.inode p.ino).times
  | _, _ => none

/-- Open a descriptor, move it or close it. -/
def setFd (k : Kernel ι α τ) (fd : Int) (p : Option (Position ι)) : Kernel ι α τ :=
  { k with fds := Function.update k.fds fd.toNat p }

@[simp] theorem lookup_natCast (k : Kernel ι α τ) (fd : Nat) : k.lookup (fd : Int) = k.fds fd := by
  rw [lookup, if_neg (by omega), Int.toNat_natCast]

@[simp] theorem inode_setFd (k : Kernel ι α τ) (fd : Int) (p : Option (Position ι)) :
    (k.setFd fd p).inode = k.inode := rfl

@[simp] theorem fds_setFd_self (k : Kernel ι α τ) (fd : Nat) (p : Option (Position ι)) :
    (k.setFd fd p).fds fd = p := by
  simp [setFd]

theorem fds_setFd_of_ne (k : Kernel ι α τ) {fd fd' : Nat} (h : fd' ≠ fd) (p : Option (Position ι)) :
    (k.setFd fd p).fds fd' = k.fds fd' := by
  simp [setFd, h]

@[simp] theorem setFd_setFd (k : Kernel ι α τ) (fd : Int) (p q : Option (Position ι)) :
    (k.setFd fd p).setFd fd q = k.setFd fd q := by
  simp [setFd]

/-- `lseek(fd, 0, SEEK_END)`. -/
def seekEnd (k : Kernel ι α τ) (fd : Int) (answer : Bool) : Kernel ι α τ × Int :=
  match k.lookup fd, answer with
  | some p, true =>
      let size := (k.inode p.ino).content.length
      (k.setFd fd (some { p with offset := size }), size)
  | _, _ => (k, -1)

/-- `lseek(fd, 0, SEEK_SET)`. -/
def seekSet (k : Kernel ι α τ) (fd : Int) : Kernel ι α τ :=
  match k.lookup fd with
  | some p => k.setFd fd (some { p with offset := 0 })
  | none => k

theorem seekEnd_open {k : Kernel ι α τ} {fd : Nat} {p : Position ι} (h : k.fds fd = some p) :
    k.seekEnd fd true = (k.setFd fd (some ⟨p.ino, (k.inode p.ino).content.length⟩),
      ((k.inode p.ino).content.length : Int)) := by
  simp [seekEnd, h]

theorem seekSet_open {k : Kernel ι α τ} {fd : Nat} {p : Position ι} (h : k.fds fd = some p) :
    k.seekSet fd = k.setFd fd (some ⟨p.ino, 0⟩) := by
  simp [seekSet, h]

theorem fstat_open {k : Kernel ι α τ} {fd : Nat} {p : Position ι} (h : k.fds fd = some p) :
    k.fstat fd true = some (k.inode p.ino).times := by
  simp [fstat, h]

variable [DecidableEq ι]

/-- Change a file. -/
def put (k : Kernel ι α τ) (ino : ι) (f : Inode α τ) : Kernel ι α τ :=
  { k with inode := Function.update k.inode ino f }

@[simp] theorem fds_put (k : Kernel ι α τ) (ino : ι) (f : Inode α τ) : (k.put ino f).fds = k.fds := rfl

@[simp] theorem inode_put_self (k : Kernel ι α τ) (ino : ι) (f : Inode α τ) :
    (k.put ino f).inode ino = f := by
  simp [put]

theorem inode_put_of_ne (k : Kernel ι α τ) {ino ino' : ι} (h : ino' ≠ ino) (f : Inode α τ) :
    (k.put ino f).inode ino' = k.inode ino' := by
  simp [put, h]

/-- Marking a file leaves what is in the files, and the marks. -/
theorem content_mark (k : Kernel ι α τ) (ino ino' : ι) :
    ((k.put ino { k.inode ino with marked := true }).inode ino').content = (k.inode ino').content := by
  by_cases h : ino' = ino
  · rw [h, inode_put_self]
  · rw [inode_put_of_ne _ h]

theorem marked_mark {k : Kernel ι α τ} {ino' : ι} (hmarked : (k.inode ino').marked = true) (ino : ι) :
    ((k.put ino { k.inode ino with marked := true }).inode ino').marked = true := by
  by_cases h : ino' = ino
  · rw [h, inode_put_self]
  · rw [inode_put_of_ne _ h, hmarked]

/-- `open` for reading. -/
def openRead (k : Kernel ι α τ) (ino : ι) (answer : Option Nat) : Kernel ι α τ × Int :=
  match answer with
  | some fd => (k.setFd fd (some ⟨ino, 0⟩), fd)
  | none => (k, -1)

/-- `open` for writing: the file is empty then. -/
def openWrite (k : Kernel ι α τ) (ino : ι) (answer : Option Nat) : Kernel ι α τ × Int :=
  match answer with
  | some fd =>
      ((k.put ino { k.inode ino with content := [], marked := true }).setFd fd (some ⟨ino, 0⟩), fd)
  | none => (k, -1)

/-- `close`. -/
def close (k : Kernel ι α τ) (fd : Int) (stamped : τ) : Kernel ι α τ :=
  match k.lookup fd with
  | some p =>
      let f := k.inode p.ino
      (k.put p.ino (if f.marked then { f with times := stamped, marked := false } else f)).setFd fd none
  | none => k

/-- `futimens`. -/
def futimens (k : Kernel ι α τ) (fd : Int) (times : τ) : Kernel ι α τ × Int :=
  match k.lookup fd with
  | some p => (k.put p.ino { k.inode p.ino with times := times, marked := false }, 0)
  | none => (k, -1)

/-- `read`: what it leaves in the buffer, and how many bytes of it are new. At the end of the file there are
none, before it at least one. -/
def read (k : Kernel ι α τ) (fd : Int) (buf : List α) (answer : Option Nat) :
    Kernel ι α τ × List α × Int :=
  match k.lookup fd, answer with
  | some p, some n =>
      let f := k.inode p.ino
      let data := (f.content.drop p.offset).take (max 1 (min n buf.length))
      ((k.put p.ino { f with marked := true }).setFd fd (some { p with offset := p.offset + data.length }),
        data ++ buf.drop data.length, data.length)
  | _, _ => (k, buf, -1)

variable {k : Kernel ι α τ} {fd : Nat} {ino : ι} {offset : Nat}

theorem read_none (k : Kernel ι α τ) (fd : Int) (buf : List α) : k.read fd buf none = (k, buf, -1) := by
  unfold read
  cases k.lookup fd <;> rfl

theorem read_open (h : k.fds fd = some ⟨ino, offset⟩) {buf data : List α} {n : Nat}
    (hdata : data = ((k.inode ino).content.drop offset).take (max 1 (min n buf.length))) :
    k.read fd buf (some n)
      = ((k.put ino { k.inode ino with marked := true }).setFd fd (some ⟨ino, offset + data.length⟩),
        data ++ buf.drop data.length, (data.length : Int)) := by
  simp [read, h, hdata]

theorem close_open (h : k.fds fd = some ⟨ino, offset⟩) (hmarked : (k.inode ino).marked = true) (stamped : τ) :
    k.close fd stamped
      = (k.put ino { k.inode ino with times := stamped, marked := false }).setFd fd none := by
  simp [close, h, hmarked]

/-- Nothing is done to a file through a number that is closed. -/
theorem futimens_closed (h : k.fds fd = none) (times : τ) : k.futimens fd times = (k, -1) := by
  simp [futimens, h]

/-- Closing another descriptor leaves a file that is not marked as it is. -/
theorem inode_close_of_not_marked (h : (k.inode ino).marked = false) (fd : Int) (stamped : τ) :
    (k.close fd stamped).inode ino = k.inode ino := by
  unfold close
  cases k.lookup fd with
  | none => rfl
  | some p =>
    by_cases hino : p.ino = ino
    · subst hino
      simp [h]
    · rw [inode_setFd, inode_put_of_ne _ (Ne.symm hino)]

/-! ### Calls that change the content -/

variable [Inhabited α]

/-- `posix_fallocate(fd, 0, size)`, which wants a size above zero. -/
def fallocate (k : Kernel ι α τ) (fd : Int) (size : Nat) (answer : Bool) : Kernel ι α τ :=
  match k.lookup fd, answer with
  | some p, true =>
      let f := k.inode p.ino
      if size = 0 then k
      else
        k.put p.ino
          { f with
            content := f.content ++ List.replicate (size - f.content.length) default
            marked := true }
  | _, _ => k

/-- A file that was opened for writing gets a size. -/
theorem fallocate_openWrite (k : Kernel ι α τ) (ino : ι) (fd size : Nat) :
    (k.openWrite ino (some fd)).1.fallocate fd size true
      = (k.put ino
          { k.inode ino with content := List.replicate size default, marked := true }).setFd fd
            (some ⟨ino, 0⟩) := by
  simp only [openWrite, fallocate, lookup_natCast, fds_setFd_self]
  split
  · rename_i hzero
    rw [hzero, List.replicate_zero]
  · simp [put, setFd]

/-- `write`. -/
def write (k : Kernel ι α τ) (fd : Int) (data : List α) (answer : Option Nat) : Kernel ι α τ × Int :=
  match k.lookup fd, answer with
  | some p, some n =>
      let f := k.inode p.ino
      let written := data.take n
      ((k.put p.ino { f with content := overwrite f.content p.offset written, marked := true }).setFd fd
          (some { p with offset := p.offset + written.length }),
        written.length)
  | _, _ => (k, -1)

theorem write_none (k : Kernel ι α τ) (fd : Int) (data : List α) : k.write fd data none = (k, -1) := by
  unfold write
  cases k.lookup fd <;> rfl

theorem write_open (h : k.fds fd = some ⟨ino, offset⟩) (data : List α) (n : Nat) :
    k.write fd data (some n)
      = ((k.put ino
            { k.inode ino with
              content := overwrite (k.inode ino).content offset (data.take n)
              marked := true }).setFd fd (some ⟨ino, offset + (data.take n).length⟩),
        ((data.take n).length : Int)) := by
  simp [write, h]

end Kernel

/-! ## Copying piece by piece -/

section Filled

variable [Inhabited α] {file data : List α} {n : Nat}

/-- The beginning of a file, and zeros up to its length. -/
def filled (file : List α) (n : Nat) : List α := file.take n ++ List.replicate (file.length - n) default

@[simp] theorem filled_zero (file : List α) : filled file 0 = List.replicate file.length default := rfl

@[simp] theorem filled_length (file : List α) : filled file file.length = file := by
  simp [filled]

/-- The next piece is written where the zeros begin. -/
theorem overwrite_filled (h : n ≤ file.length) (hdata : data <+: file.drop n) :
    overwrite (filled file n) n data = filled file (n + data.length) := by
  have hlen := hdata.length_le
  rw [List.length_drop] at hlen
  have htake : (file.take n).length = n := List.length_take_of_le h
  have hle : n ≤ (filled file n).length := by
    rw [filled, List.length_append, htake]
    omega
  have hdrop : (filled file n).drop (n + data.length)
      = List.replicate (file.length - (n + data.length)) default := by
    rw [filled, List.drop_append, List.drop_eq_nil_of_le (by omega), List.nil_append, List.drop_replicate,
      htake]
    congr 1
    omega
  rw [overwrite_of_le hle, hdrop, filled, List.take_append_of_le_length (Nat.le_of_eq htake.symm),
    List.take_of_length_le (Nat.le_of_eq htake), filled, take_add_eq hdata]

/-- A piece is written where it is. -/
theorem overwrite_same (h : n ≤ file.length) (hdata : data <+: file.drop n) :
    overwrite file n data = file := by
  rw [overwrite_of_le h, ← take_add_eq hdata, List.take_append_drop]

end Filled

end MediaArchiver.Lib
