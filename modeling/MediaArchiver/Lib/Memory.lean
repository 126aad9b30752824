/-
# MediaArchiver.Lib.Memory -- numbers and strings in a memory of bytes

A memory is the list of its bytes from some address on. A number takes a fixed count of bytes, the lowest
first; a string goes up to the first NUL, wherever that is. What is written is read back whatever lies behind
it (`ofLittleEndian_littleEndian`, `cString_append`), and a string that has no NUL of its own goes on into
what lies behind it.
-/
import Mathlib.Data.Nat.Basic
import Mathlib.Data.List.TakeWhile
import Mathlib.Tactic.Ring

namespace MediaArchiver.Lib

/-! ## Numbers -/

/-- The lowest `k` bytes of a number, the lowest first. -/
def littleEndian : Nat → Nat → List UInt8
  | 0, _ => []
  | k + 1, n => UInt8.ofNat n :: littleEndian k (n / 256)

/-- The number in some bytes. -/
def ofLittleEndian : List UInt8 → Nat
  | [] => 0
  | b :: bs => b.toNat + 256 * ofLittleEndian bs

@[simp] theorem length_littleEndian (k n : Nat) : (littleEndian k n).length = k := by
  induction k generalizing n with
  | zero => rfl
  | succ k ih => rw [littleEndian, List.length_cons, ih]

/-- What does not fit is lost. -/
theorem ofLittleEndian_littleEndian (k n : Nat) : ofLittleEndian (littleEndian k n) = n % 256 ^ k := by
  induction k generalizing n with
  | zero => rw [pow_zero, Nat.mod_one]; rfl
  | succ k ih =>
    have hlowest : (UInt8.ofNat n).toNat = n % 256 := UInt8.toNat_ofNat'
    rw [littleEndian, ofLittleEndian, ih, hlowest, pow_succ']
    exact Nat.mod_mul.symm

/-! ## Words -/

/-- A number of 32 bits. -/
def word (n : UInt32) : List UInt8 := littleEndian 4 n.toNat

/-- The number of 32 bits at the start of a memory. -/
def readWord (memory : List UInt8) : UInt32 := UInt32.ofNat (ofLittleEndian (memory.take 4))

@[simp] theorem length_word (n : UInt32) : (word n).length = 4 := length_littleEndian 4 _

@[simp] theorem drop_word_append (n : UInt32) (behind : List UInt8) : (word n ++ behind).drop 4 = behind :=
  List.drop_left' (length_word n)

@[simp] theorem readWord_word_append (n : UInt32) (behind : List UInt8) :
    readWord (word n ++ behind) = n := by
  have hfits : n.toNat % 256 ^ 4 = n.toNat := Nat.mod_eq_of_lt n.toNat_lt
  rw [readWord, List.take_left' (length_word n), word, ofLittleEndian_littleEndian, hfits, UInt32.ofNat_toNat]

/-- The same 32 bits, read as a number with a sign. -/
def signed (n : UInt32) : Int := n.toBitVec.toInt

/-- The 32 bits of a number with a sign. -/
def unsigned (i : Int) : UInt32 := UInt32.ofBitVec (BitVec.ofInt 32 i)

theorem signed_unsigned {i : Int} (hlow : -2 ^ 31 ≤ i) (hhigh : i < 2 ^ 31) : signed (unsigned i) = i := by
  unfold signed unsigned
  rw [BitVec.toInt_ofInt]
  exact Int.bmod_eq_of_le (by simpa using hlow) (by simpa using hhigh)

/-! ## Strings -/

/-- A character that one byte stands for, and that does not end a string. -/
def IsStringChar (c : Char) : Prop := c.toNat ≠ 0 ∧ c.toNat < 256

instance : DecidablePred IsStringChar := fun _ => inferInstanceAs (Decidable (_ ∧ _))

/-- The bytes of a string. -/
def stringBytes (s : List Char) : List UInt8 := s.map fun c => UInt8.ofNat c.toNat

/-- The string at the start of a memory. -/
def cString (memory : List UInt8) : List Char :=
  (memory.takeWhile (· ≠ 0)).map fun b => Char.ofNat b.toNat

@[simp] theorem length_stringBytes (s : List Char) : (stringBytes s).length = s.length := List.length_map _

theorem cString_append {s : List Char} (hs : ∀ c ∈ s, IsStringChar c) (behind : List UInt8) :
    cString (stringBytes s ++ behind) = s ++ cString behind := by
  induction s with
  | nil => rfl
  | cons c s ih =>
    have hc : c.toNat ≠ 0 ∧ c.toNat < 256 := hs c List.mem_cons_self
    have htoNat : (UInt8.ofNat c.toNat).toNat = c.toNat := by
      rw [UInt8.toNat_ofNat', Nat.mod_eq_of_lt hc.2]
    have hne : UInt8.ofNat c.toNat ≠ 0 := by
      intro hzero
      rw [hzero] at htoNat
      exact hc.1 htoNat.symm
    have hrest := ih fun c' hc' => hs c' (List.mem_cons_of_mem c hc')
    unfold cString stringBytes at hrest ⊢
    rw [List.map_cons, List.cons_append, List.takeWhile_cons_of_pos (by simpa using hne), List.map_cons, hrest,
      htoNat, Char.ofNat_toNat, List.cons_append]

@[simp] theorem cString_zero (behind : List UInt8) : cString (0 :: behind) = [] := rfl

/-- Any string can lie behind. -/
theorem cString_stringBytes {s : List Char} (hs : ∀ c ∈ s, IsStringChar c) :
    cString (stringBytes s ++ [0]) = s := by
  rw [cString_append hs, cString_zero, List.append_nil]

end MediaArchiver.Lib
