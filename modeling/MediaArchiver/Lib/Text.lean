/-
# MediaArchiver.Lib.Text -- searching in strings of characters

The three searches of a string class, with `none` for "not found": the first occurrence of a pattern
from a position on, the last occurrence of a pattern, and the last occurrence of a character. Against
the last one stands `stem`, the part before the last occurrence, defined by recursion on the string
and without positions; `take_findLast` says that cutting at the position found is taking the stem.
-/
import Mathlib.Data.List.Basic

namespace MediaArchiver.Lib

universe u

variable {α : Type u} [DecidableEq α]

/-- The pattern stands at the position. -/
def occursAt (s pat : List α) (i : Nat) : Bool := pat.isPrefixOf (s.drop i)

/-- The first position from `pos` on at which the pattern stands. -/
def findFrom (s pat : List α) (pos : Nat) : Option Nat :=
  (List.range (s.length + 1)).find? fun i => pos ≤ i && occursAt s pat i

/-- The last position at which the pattern stands. -/
def rfind (s pat : List α) : Option Nat :=
  (List.range (s.length + 1)).reverse.find? fun i => occursAt s pat i

/-- The last position of a character. -/
def findLast (c : α) : List α → Option Nat
  | [] => none
  | x :: xs =>
      match findLast c xs with
      | some i => some (i + 1)
      | none => if x = c then some 0 else none

/-- What stands before the last occurrence of a character, or everything. -/
def stem (c : α) : List α → List α
  | [] => []
  | x :: xs => if c ∈ xs then x :: stem c xs else if x = c then [] else x :: stem c xs

/-! ## Occurrences -/

theorem occursAt_iff {s pat : List α} {i : Nat} : occursAt s pat i = true ↔ pat <+: s.drop i :=
  List.isPrefixOf_iff_prefix

/-- Text in front moves every occurrence. -/
theorem occursAt_append_add (s t pat : List α) (i : Nat) :
    occursAt (s ++ t) pat (s.length + i) = occursAt t pat i := by
  rw [occursAt, List.drop_append, List.drop_eq_nil_of_le (by omega), List.nil_append, occursAt]
  congr 2
  omega

theorem isSome_findFrom_iff {s pat : List α} {pos : Nat} :
    (findFrom s pat pos).isSome = true ↔ ∃ i, pos ≤ i ∧ i ≤ s.length ∧ occursAt s pat i = true := by
  rw [findFrom, List.find?_isSome]
  constructor
  · rintro ⟨i, hi, hocc⟩
    rw [Bool.and_eq_true, decide_eq_true_eq] at hocc
    exact ⟨i, hocc.1, Nat.lt_succ_iff.mp (List.mem_range.mp hi), hocc.2⟩
  · rintro ⟨i, hpos, hi, hocc⟩
    refine ⟨i, List.mem_range.mpr (Nat.lt_succ_iff.mpr hi), ?_⟩
    rw [Bool.and_eq_true, decide_eq_true_eq]
    exact ⟨hpos, hocc⟩

/-- A search from the start finds what is somewhere in the text. -/
theorem isSome_findFrom_zero {s pat : List α} : (findFrom s pat 0).isSome = true ↔ pat <:+: s := by
  rw [isSome_findFrom_iff]
  constructor
  · rintro ⟨i, -, -, hocc⟩
    exact (occursAt_iff.mp hocc).isInfix.trans (List.drop_suffix i s).isInfix
  · rintro ⟨before, after, rfl⟩
    refine ⟨before.length, Nat.zero_le _, by simp, ?_⟩
    rw [List.append_assoc, ← Nat.add_zero before.length, occursAt_append_add, occursAt_iff]
    exact List.prefix_append ..

/-- A search from where a pattern would end the text finds it exactly there. -/
theorem isSome_findFrom_end {s pat : List α} (h : pat.length ≤ s.length) :
    (findFrom s pat (s.length - pat.length)).isSome = true ↔ pat <:+ s := by
  rw [isSome_findFrom_iff]
  constructor
  · rintro ⟨i, hpos, hi, hocc⟩
    obtain ⟨after, hafter⟩ := occursAt_iff.mp hocc
    have hlength := congrArg List.length hafter
    rw [List.length_append, List.length_drop] at hlength
    obtain rfl : after = [] := List.length_eq_zero_iff.mp (by omega)
    rw [List.append_nil] at hafter
    exact hafter ▸ List.drop_suffix i s
  · rintro ⟨before, rfl⟩
    refine ⟨before.length, by simp, by simp, ?_⟩
    rw [← Nat.add_zero before.length, occursAt_append_add, occursAt_iff]
    exact List.prefix_rfl

theorem length_le_of_isSome_findFrom {s pat : List α} {pos : Nat}
    (h : (findFrom s pat pos).isSome = true) : pat.length ≤ s.length := by
  obtain ⟨i, -, -, hocc⟩ := isSome_findFrom_iff.mp h
  exact Nat.le_trans (occursAt_iff.mp hocc).length_le (by simp)

/-- The greatest number below a bound. -/
theorem find?_reverse_range_eq_some {p : Nat → Bool} {n i : Nat} :
    (List.range n).reverse.find? p = some i ↔
      i < n ∧ p i = true ∧ ∀ j, i < j → j < n → p j = false := by
  induction n with
  | zero => simp
  | succ n ih =>
    rw [List.range_succ, List.reverse_concat, List.find?_cons]
    cases hn : p n with
    | true =>
      constructor
      · intro h
        obtain rfl : n = i := Option.some.inj h
        exact ⟨Nat.lt_succ_self n, hn, fun j hlt hj => absurd hlt (by omega)⟩
      · rintro ⟨hi, -, hlast⟩
        by_contra hne
        have hlt : i < n := by
          rcases Nat.lt_succ_iff_lt_or_eq.mp hi with hlt | rfl
          · exact hlt
          · exact absurd rfl hne
        rw [hlast n hlt (Nat.lt_succ_self n)] at hn
        cases hn
    | false =>
      rw [ih]
      constructor
      · rintro ⟨hi, hp, hlast⟩
        refine ⟨by omega, hp, fun j hlt hj => ?_⟩
        rcases Nat.lt_succ_iff_lt_or_eq.mp hj with hj | rfl
        · exact hlast j hlt hj
        · exact hn
      · rintro ⟨hi, hp, hlast⟩
        rcases Nat.lt_succ_iff_lt_or_eq.mp hi with hi | rfl
        · exact ⟨hi, hp, fun j hlt hj => hlast j hlt (by omega)⟩
        · rw [hn] at hp
          cases hp

/-- The last occurrence is the one behind which there is none. -/
theorem rfind_eq_some_iff {s pat : List α} {i : Nat} :
    rfind s pat = some i ↔
      i ≤ s.length ∧ occursAt s pat i = true ∧
        ∀ j, i < j → j ≤ s.length → occursAt s pat j = false := by
  simp only [rfind, find?_reverse_range_eq_some, Nat.lt_succ_iff]

/-- Where a pattern stands in the second part of a text, its last occurrence is there. -/
theorem rfind_append {s t pat : List α} {i : Nat} (h : rfind t pat = some i) :
    rfind (s ++ t) pat = some (s.length + i) := by
  obtain ⟨hi, hocc, hlast⟩ := rfind_eq_some_iff.mp h
  rw [rfind_eq_some_iff, List.length_append, occursAt_append_add]
  refine ⟨by omega, hocc, fun j hlt hj => ?_⟩
  obtain ⟨k, rfl⟩ : ∃ k, j = s.length + k := ⟨j - s.length, by omega⟩
  rw [occursAt_append_add]
  exact hlast k (by omega) (by omega)

/-- What is found from some position on has a last occurrence. -/
theorem isSome_rfind {s pat : List α} {pos : Nat} (h : (findFrom s pat pos).isSome = true) :
    (rfind s pat).isSome = true := by
  obtain ⟨i, hi⟩ := Option.isSome_iff_exists.mp h
  have hocc : occursAt s pat i = true := by
    have hfound := List.find?_some hi
    rw [Bool.and_eq_true] at hfound
    exact hfound.2
  unfold rfind
  rw [List.find?_isSome]
  exact ⟨i, List.mem_reverse.mpr (List.mem_of_find?_eq_some hi), hocc⟩

theorem findLast_eq_none {c : α} {s : List α} : findLast c s = none ↔ c ∉ s := by
  induction s with
  | nil => simp [findLast]
  | cons x xs ih =>
    rw [findLast, List.mem_cons]
    cases hxs : findLast c xs with
    | some i =>
      have hmem : c ∈ xs := by
        by_contra h
        rw [ih.mpr h] at hxs
        exact absurd hxs (by simp)
      simp [hmem]
    | none =>
      have hmem : c ∉ xs := ih.mp hxs
      by_cases hx : x = c
      · simp [hx]
      · simp [hx, hmem, Ne.symm hx]

theorem stem_of_not_mem {c : α} {s : List α} (h : c ∉ s) : stem c s = s := by
  induction s with
  | nil => rfl
  | cons x xs ih =>
    rw [List.mem_cons, not_or] at h
    rw [stem, if_neg h.2, if_neg (Ne.symm h.1), ih h.2]

/-- Cutting at the last occurrence leaves the stem. -/
theorem take_findLast {c : α} {s : List α} {i : Nat} (h : findLast c s = some i) :
    s.take i = stem c s := by
  induction s generalizing i with
  | nil => exact absurd h (by simp [findLast])
  | cons x xs ih =>
    rw [findLast] at h
    cases hxs : findLast c xs with
    | some j =>
      have hmem : c ∈ xs := by
        by_contra hnot
        rw [findLast_eq_none.mpr hnot] at hxs
        exact absurd hxs (by simp)
      rw [hxs] at h
      obtain rfl : j + 1 = i := by simpa using h
      rw [List.take_succ_cons, ih hxs, stem, if_pos hmem]
    | none =>
      have hmem : c ∉ xs := findLast_eq_none.mp hxs
      rw [hxs] at h
      by_cases hx : x = c
      · obtain rfl : 0 = i := by simpa [hx] using h
        rw [stem, if_neg hmem, if_pos hx, List.take_zero]
      · exact absurd h (by simp [hx])

end MediaArchiver.Lib
