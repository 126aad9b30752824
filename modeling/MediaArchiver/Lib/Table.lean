/-
# MediaArchiver.Lib.Table -- tables with a primary key, kept in key order

Two things of very different origin have the same shape: an ordered map (iteration in key order,
assignment through the subscript operator overwrites) and a table whose integer primary key is its
row id (a scan runs in key order, an insert can be told to do nothing on a conflict). `Table` is
that shape: a list of keyed rows with strictly increasing keys, the order being a field, so that a
table with two rows under one key cannot be built.

`AutoTable` adds the counter of an `AUTOINCREMENT` key: a key is never handed out twice, not even
after the row it was given to is gone.
-/
import Mathlib.Order.Lattice
import Mathlib.Order.Nat
import Mathlib.Data.List.Basic
import Mathlib.Data.List.Nodup

namespace MediaArchiver.Lib

universe u v w

/-- Rows under pairwise distinct keys, in key order. -/
structure Table (κ : Type u) [LinearOrder κ] (ρ : Type v) where
  rows : List (κ × ρ)
  sorted : rows.Pairwise fun a b => a.1 < b.1

namespace Table

variable {κ : Type u} [LinearOrder κ] {ρ : Type v}

/-- The table without rows. -/
def empty : Table κ ρ := ⟨[], .nil⟩

@[ext] theorem ext {s t : Table κ ρ} (h : s.rows = t.rows) : s = t := by
  cases s
  cases t
  cases h
  rfl

/-- The row stored under a key. -/
def find? (t : Table κ ρ) (k : κ) : Option ρ :=
  (t.rows.find? fun r => r.1 = k).map Prod.snd

/-- There is a row under the key. -/
def HasKey (t : Table κ ρ) (k : κ) : Prop := ∃ v, (k, v) ∈ t.rows

/-- The rows that satisfy a predicate. -/
def filter (t : Table κ ρ) (p : κ × ρ → Bool) : Table κ ρ :=
  ⟨t.rows.filter p, t.sorted.filter p⟩

@[simp] theorem rows_empty : (empty : Table κ ρ).rows = [] := rfl

theorem mem_filter (t : Table κ ρ) (p : κ × ρ → Bool) (a : κ × ρ) :
    a ∈ (t.filter p).rows ↔ a ∈ t.rows ∧ p a = true :=
  List.mem_filter

/-! ## Keys determine rows -/

theorem nodup_keys (t : Table κ ρ) : (t.rows.map Prod.fst).Nodup := by
  have hlt : (t.rows.map Prod.fst).Pairwise (· < ·) := List.pairwise_map.mpr t.sorted
  exact hlt.imp ne_of_lt

/-- Two rows under one key are one row. -/
theorem eq_of_mem (t : Table κ ρ) {k : κ} {v w : ρ} (hv : (k, v) ∈ t.rows) (hw : (k, w) ∈ t.rows) :
    v = w :=
  (Prod.mk.inj (List.inj_on_of_nodup_map t.nodup_keys hv hw rfl)).2

theorem find?_eq_some (t : Table κ ρ) {k : κ} {v : ρ} : t.find? k = some v ↔ (k, v) ∈ t.rows := by
  unfold find?
  constructor
  · intro h
    obtain ⟨⟨k', v'⟩, hfind, rfl⟩ := Option.map_eq_some_iff.mp h
    have hk : k' = k := by simpa using List.find?_some hfind
    exact hk ▸ List.mem_of_find?_eq_some hfind
  · intro hv
    cases hfind : t.rows.find? fun r => r.1 = k with
    | none => exact absurd hv (by simpa using List.find?_eq_none.mp hfind (k, v))
    | some r =>
      obtain ⟨k', v'⟩ := r
      have hk : k' = k := by simpa using List.find?_some hfind
      have hmem : (k, v') ∈ t.rows := hk ▸ List.mem_of_find?_eq_some hfind
      rw [Option.map_some, t.eq_of_mem hmem hv]

theorem find?_eq_none (t : Table κ ρ) {k : κ} : t.find? k = none ↔ ¬ t.HasKey k := by
  rw [Option.eq_none_iff_forall_ne_some]
  constructor
  · rintro h ⟨v, hv⟩
    exact h v (t.find?_eq_some.mpr hv)
  · intro h v hv
    exact h ⟨v, t.find?_eq_some.mp hv⟩

theorem isSome_find? (t : Table κ ρ) {k : κ} : (t.find? k).isSome = true ↔ t.HasKey k := by
  rw [Option.isSome_iff_exists]
  exact exists_congr fun v => t.find?_eq_some

instance (t : Table κ ρ) (k : κ) : Decidable (t.HasKey k) :=
  decidable_of_iff _ t.isSome_find?

/-! ## Insertion -/

/-- Put a row in its place, over the row that has its key if there is one. -/
def insertRow (k : κ) (v : ρ) : List (κ × ρ) → List (κ × ρ)
  | [] => [(k, v)]
  | r :: rs =>
      if k < r.1 then (k, v) :: r :: rs
      else if k = r.1 then (k, v) :: rs
      else r :: insertRow k v rs

/-- Up to order, insertion replaces whatever stood under the key. -/
theorem insertRow_perm (k : κ) (v : ρ) {l : List (κ × ρ)} (hl : l.Pairwise fun a b => a.1 < b.1) :
    (insertRow k v l).Perm ((k, v) :: l.filter fun r => r.1 ≠ k) := by
  induction l with
  | nil => exact .refl _
  | cons r rs ih =>
    obtain ⟨hr, hrs⟩ := List.pairwise_cons.mp hl
    unfold insertRow
    split
    · rename_i hlt
      have hall : ∀ b ∈ r :: rs, decide (b.1 ≠ k) = true := by
        intro b hb
        rcases List.mem_cons.mp hb with rfl | hb
        · exact decide_eq_true (ne_of_gt hlt)
        · exact decide_eq_true (ne_of_gt (lt_trans hlt (hr b hb)))
      rw [List.filter_eq_self.mpr hall]
    · split
      · rename_i _ heq
        have hrest : ∀ b ∈ rs, decide (b.1 ≠ k) = true := fun b hb =>
          decide_eq_true (heq ▸ ne_of_gt (hr b hb))
        rw [List.filter_cons_of_neg (by simp [heq]), List.filter_eq_self.mpr hrest]
      · rename_i _ hne
        rw [List.filter_cons_of_pos (by simpa using fun h => hne h.symm)]
        exact ((ih hrs).cons r).trans (.swap ..)

theorem mem_insertRow {k : κ} {v : ρ} {l : List (κ × ρ)} (hl : l.Pairwise fun a b => a.1 < b.1)
    (a : κ × ρ) : a ∈ insertRow k v l ↔ a = (k, v) ∨ a ∈ l ∧ a.1 ≠ k := by
  rw [(insertRow_perm k v hl).mem_iff, List.mem_cons, List.mem_filter, decide_eq_true_iff]

theorem insertRow_sorted (k : κ) (v : ρ) {l : List (κ × ρ)}
    (hl : l.Pairwise fun a b => a.1 < b.1) :
    (insertRow k v l).Pairwise fun a b => a.1 < b.1 := by
  induction l with
  | nil => simp [insertRow]
  | cons r rs ih =>
    obtain ⟨hr, hrs⟩ := List.pairwise_cons.mp hl
    unfold insertRow
    split
    · rename_i hlt
      refine List.pairwise_cons.mpr ⟨?_, hl⟩
      intro b hb
      rcases List.mem_cons.mp hb with rfl | hb
      · exact hlt
      · exact lt_trans hlt (hr b hb)
    · split
      · rename_i _ heq
        exact List.pairwise_cons.mpr ⟨fun b hb => heq ▸ hr b hb, hrs⟩
      · rename_i hnlt hne
        refine List.pairwise_cons.mpr ⟨?_, ih hrs⟩
        intro b hb
        rcases (mem_insertRow hrs b).mp hb with rfl | ⟨hb, _⟩
        · exact lt_of_le_of_ne (not_lt.mp hnlt) (fun h => hne h.symm)
        · exact hr b hb

/-- Assignment through the subscript operator: the row under `k` becomes `v`. -/
def insert (t : Table κ ρ) (k : κ) (v : ρ) : Table κ ρ :=
  ⟨insertRow k v t.rows, insertRow_sorted k v t.sorted⟩

/-- Insert with `ON CONFLICT DO NOTHING`: a row under `k` is left as it is. -/
def insertNew (t : Table κ ρ) (k : κ) (v : ρ) : Table κ ρ :=
  if (t.find? k).isSome then t else t.insert k v

theorem mem_insert (t : Table κ ρ) (k : κ) (v : ρ) (a : κ × ρ) :
    a ∈ (t.insert k v).rows ↔ a = (k, v) ∨ a ∈ t.rows ∧ a.1 ≠ k :=
  mem_insertRow t.sorted a

@[simp] theorem find?_insert_self (t : Table κ ρ) (k : κ) (v : ρ) :
    (t.insert k v).find? k = some v :=
  (find?_eq_some _).mpr ((t.mem_insert k v _).mpr (Or.inl rfl))

theorem find?_insert (t : Table κ ρ) (k : κ) (v : ρ) (k' : κ) :
    (t.insert k v).find? k' = if k' = k then some v else t.find? k' := by
  split
  · rename_i hk
    rw [hk, find?_insert_self]
  · rename_i hk
    apply Option.ext
    intro w
    have hmem := t.mem_insert k v (k', w)
    have hne : (k', w) ≠ (k, v) := fun h => hk (Prod.mk.inj h).1
    rw [find?_eq_some, hmem, find?_eq_some]
    simp [hne, hk]

/-- Counting rows across an insertion: the replaced row goes, the new one comes. -/
theorem countP_insert (t : Table κ ρ) (k : κ) (v : ρ) (p : κ × ρ → Bool) :
    (t.insert k v).rows.countP p + (t.rows.filter fun r => r.1 = k).countP p
      = t.rows.countP p + if p (k, v) then 1 else 0 := by
  have hsplit := List.countP_eq_countP_filter_add t.rows p fun r => decide (r.1 = k)
  have hneg : (fun r : κ × ρ => !decide (r.1 = k)) = fun r => decide (r.1 ≠ k) := by
    funext r
    simp
  rw [hneg] at hsplit
  have hperm := (insertRow_perm k v t.sorted).countP_eq p
  rw [List.countP_cons] at hperm
  show (insertRow k v t.rows).countP p + _ = _
  omega

/-- A predicate that holds of one row only selects that row. -/
theorem filter_eq_singleton (t : Table κ ρ) {p : κ × ρ → Bool} {r : κ × ρ} (hr : r ∈ t.rows)
    (hp : p r = true) (hone : ∀ s ∈ t.rows, p s = true → s = r) : t.rows.filter p = [r] := by
  have hnodup : t.rows.Nodup := List.Nodup.of_map _ t.nodup_keys
  apply List.perm_singleton.mp
  apply (List.perm_ext_iff_of_nodup (hnodup.filter _) (List.nodup_singleton _)).mpr
  intro s
  rw [List.mem_filter, List.mem_singleton]
  constructor
  · rintro ⟨hs, hps⟩
    exact hone s hs hps
  · rintro rfl
    exact ⟨hr, hp⟩

/-- Counting rows when the row under a key is replaced. -/
theorem countP_insert_of_find? {t : Table κ ρ} {k : κ} {w : ρ} (h : t.find? k = some w) (v : ρ)
    (p : κ × ρ → Bool) :
    (t.insert k v).rows.countP p + (if p (k, w) then 1 else 0)
      = t.rows.countP p + if p (k, v) then 1 else 0 := by
  have hmem : (k, w) ∈ t.rows := t.find?_eq_some.mp h
  have hrow : t.rows.filter (fun r => r.1 = k) = [(k, w)] := by
    apply t.filter_eq_singleton hmem (decide_eq_true rfl)
    rintro ⟨k', w'⟩ hmem' hk
    obtain rfl : k' = k := of_decide_eq_true hk
    rw [t.eq_of_mem hmem hmem']
  have hcount := t.countP_insert k v p
  rw [hrow, List.countP_singleton] at hcount
  exact hcount

theorem find?_insertNew (t : Table κ ρ) (k : κ) (v : ρ) (k' : κ) :
    (t.insertNew k v).find? k' = if k' = k then some ((t.find? k).getD v) else t.find? k' := by
  unfold insertNew
  cases hfind : t.find? k with
  | none =>
    simp only [Option.isSome_none, Bool.false_eq_true, if_false, Option.getD_none]
    exact t.find?_insert k v k'
  | some w =>
    simp only [Option.isSome_some, if_true, Option.getD_some]
    split
    · rename_i hk
      rw [hk, hfind]
    · rfl

theorem hasKey_insertNew (t : Table κ ρ) (k : κ) (v : ρ) (k' : κ) :
    (t.insertNew k v).HasKey k' ↔ k' = k ∨ t.HasKey k' := by
  unfold insertNew
  split
  · rename_i hsome
    have hk : t.HasKey k := t.isSome_find?.mp hsome
    constructor
    · exact Or.inr
    · rintro (rfl | h)
      · exact hk
      · exact h
  · constructor
    · rintro ⟨w, hw⟩
      rcases (t.mem_insert k v _).mp hw with h | ⟨h, _⟩
      · exact Or.inl (Prod.mk.inj h).1
      · exact Or.inr ⟨w, h⟩
    · intro h
      by_cases hk : k' = k
      · exact ⟨v, (t.mem_insert k v _).mpr (Or.inl (by rw [hk]))⟩
      · rcases h with h | ⟨w, hw⟩
        · exact absurd h hk
        · exact ⟨w, (t.mem_insert k v _).mpr (Or.inr ⟨hw, hk⟩)⟩

/-! ## Removal -/

/-- Remove the row under a key. -/
def erase (t : Table κ ρ) (k : κ) : Table κ ρ := t.filter fun r => r.1 ≠ k

theorem find?_erase (t : Table κ ρ) (k k' : κ) :
    (t.erase k).find? k' = if k' = k then none else t.find? k' := by
  have hmem : ∀ v, (k', v) ∈ (t.erase k).rows ↔ (k', v) ∈ t.rows ∧ k' ≠ k := by
    intro v
    rw [erase, mem_filter, decide_eq_true_iff]
  split
  · rename_i hk
    rw [find?_eq_none]
    rintro ⟨v, hv⟩
    exact ((hmem v).mp hv).2 hk
  · rename_i hk
    apply Option.ext
    intro v
    rw [find?_eq_some, find?_eq_some, hmem]
    exact and_iff_left hk

theorem find?_filter (t : Table κ ρ) (p : κ × ρ → Bool) (k : κ) :
    (t.filter p).find? k = (t.find? k).filter fun v => p (k, v) := by
  apply Option.ext
  intro v
  rw [find?_eq_some, mem_filter, Option.filter_eq_some_iff, find?_eq_some]

/-! ## Mapping -/

/-- Change the rows, and leave them under their keys. -/
def map {ρ' : Type w} (f : ρ → ρ') (t : Table κ ρ) : Table κ ρ' where
  rows := t.rows.map fun r => (r.1, f r.2)
  sorted := List.pairwise_map.mpr t.sorted

theorem find?_map {ρ' : Type w} (f : ρ → ρ') (t : Table κ ρ) (k : κ) :
    (t.map f).find? k = (t.find? k).map f := by
  apply Option.ext
  intro v
  rw [find?_eq_some, Option.map_eq_some_iff]
  constructor
  · intro hv
    obtain ⟨⟨k', u⟩, hu, heq⟩ := List.mem_map.mp hv
    obtain ⟨rfl, rfl⟩ := Prod.mk.inj heq
    exact ⟨u, t.find?_eq_some.mpr hu, rfl⟩
  · rintro ⟨u, hu, rfl⟩
    exact List.mem_map.mpr ⟨(k, u), t.find?_eq_some.mp hu, rfl⟩

end Table

/-! ## Automatic keys -/

/-- A table whose keys are handed out by a counter: positive, and none above the counter. -/
structure AutoTable (ρ : Type v) extends Table Nat ρ where
  seq : Nat
  key_pos : ∀ r ∈ rows, 0 < r.1
  key_le : ∀ r ∈ rows, r.1 ≤ seq

namespace AutoTable

variable {ρ : Type v}

/-- The table before the first insert. -/
def empty : AutoTable ρ where
  toTable := .empty
  seq := 0
  key_pos := by simp
  key_le := by simp

/-- The key the next insert gets. -/
def nextKey (t : AutoTable ρ) : Nat := t.seq + 1

/-- Append a row under the next key. -/
def append (t : AutoTable ρ) (v : ρ) : AutoTable ρ where
  rows := t.rows ++ [(t.nextKey, v)]
  sorted := by
    refine List.pairwise_append.mpr ⟨t.sorted, List.pairwise_singleton _ _, ?_⟩
    intro a ha b hb
    rw [List.mem_singleton.mp hb]
    exact Nat.lt_succ_of_le (t.key_le a ha)
  seq := t.nextKey
  key_pos := by
    intro r hr
    rcases List.mem_append.mp hr with hr | hr
    · exact t.key_pos r hr
    · rw [List.mem_singleton.mp hr]
      exact Nat.succ_pos _
  key_le := by
    intro r hr
    rcases List.mem_append.mp hr with hr | hr
    · exact Nat.le_succ_of_le (t.key_le r hr)
    · rw [List.mem_singleton.mp hr]

@[simp] theorem rows_empty : (empty : AutoTable ρ).rows = [] := rfl

@[simp] theorem rows_append (t : AutoTable ρ) (v : ρ) :
    (t.append v).rows = t.rows ++ [(t.nextKey, v)] := rfl

theorem mem_append (t : AutoTable ρ) (v : ρ) (a : Nat × ρ) :
    a ∈ (t.append v).rows ↔ a ∈ t.rows ∨ a = (t.nextKey, v) := by
  rw [rows_append, List.mem_append, List.mem_singleton]

/-- The next key is none of the keys already there. -/
theorem nextKey_ne (t : AutoTable ρ) {a : Nat × ρ} (ha : a ∈ t.rows) : a.1 ≠ t.nextKey :=
  Nat.ne_of_lt (Nat.lt_succ_of_le (t.key_le a ha))

end AutoTable

end MediaArchiver.Lib
