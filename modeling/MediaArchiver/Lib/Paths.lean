/-
# MediaArchiver.Lib.Paths -- names in a hierarchy

A name is a list over any alphabet, with one letter that separates the parts. What is in a folder has the
folder's name and the separator at its beginning; when a folder gets another name, so does everything in it,
and no two names fall together if there was nothing under the new name (`renamed_inj`).
-/
import Mathlib.Data.List.Basic

namespace MediaArchiver.Lib

universe u

variable {α : Type u} {sep : α}

/-- A name in a folder. -/
def child (sep : α) (dir name : List α) : List α := dir ++ sep :: name

/-- The folder itself, or something in it. -/
def Within (sep : α) (dir p : List α) : Prop := p = dir ∨ dir ++ [sep] <+: p

theorem child_ne (dir name : List α) : child sep dir name ≠ dir := by
  intro h
  have hlength := congrArg List.length h
  rw [child, List.length_append, List.length_cons] at hlength
  omega

theorem child_inj {dir a b : List α} : child sep dir a = child sep dir b ↔ a = b :=
  ⟨fun h => (List.cons.inj (List.append_cancel_left h)).2, fun h => h ▸ rfl⟩

theorem child_ne_nil (dir name : List α) : child sep dir name ≠ [] :=
  List.append_ne_nil_of_right_ne_nil _ (List.cons_ne_nil _ _)

theorem ne_nil_of_within {p q : List α} (hp : p ≠ []) (h : Within sep p q) : q ≠ [] := by
  rcases h with rfl | ⟨rest, rfl⟩
  · exact hp
  · exact List.append_ne_nil_of_left_ne_nil (List.append_ne_nil_of_left_ne_nil hp _) _

/-- A name is the folder's name and what comes after it. -/
theorem append_drop_of_within {dir p : List α} (h : Within sep dir p) : dir ++ p.drop dir.length = p := by
  rcases h with rfl | ⟨rest, rfl⟩
  · rw [List.drop_length, List.append_nil]
  · rw [List.append_assoc, List.drop_left]

/-- What is in a folder's folder is in the folder, and is not the folder itself. -/
theorem within_of_child {dir name p : List α} (h : Within sep (child sep dir name) p) :
    Within sep dir p ∧ p ≠ dir := by
  have hprefix : child sep dir name <+: p := by
    rcases h with rfl | h
    · exact List.prefix_refl _
    · exact List.IsPrefix.trans (List.prefix_append _ _) h
  obtain ⟨rest, rfl⟩ := hprefix
  refine ⟨Or.inr ⟨name ++ rest, ?_⟩, fun heq => ?_⟩
  · simp only [child, List.append_assoc, List.cons_append, List.nil_append]
  · have hlength := congrArg List.length heq
    rw [child, List.length_append, List.length_append, List.length_cons] at hlength
    omega

/-- A name does not go on before what ends it. -/
theorem eq_nil_of_ends {a c ending rest : List α} (hname : sep ∉ a ++ c)
    (hends : ending = [] ∨ ∃ more, ending = sep :: more) (hc : ending = c ++ rest) : c = [] := by
  rcases hends with rfl | ⟨more, rfl⟩
  · exact (List.append_eq_nil_iff.mp hc.symm).1
  · cases c with
    | nil => rfl
    | cons x c =>
      obtain ⟨rfl, -⟩ := List.cons.inj hc
      exact absurd (List.mem_append_right a List.mem_cons_self) hname

/-- Nothing is in two things of one folder. -/
theorem eq_of_within_child {dir a b p : List α} (ha : sep ∉ a) (hb : sep ∉ b)
    (hpa : Within sep (child sep dir a) p) (hpb : Within sep (child sep dir b) p) : a = b := by
  -- the name is what there is before the next separator
  have hname : ∀ {n : List α}, sep ∉ n → Within sep (child sep dir n) p →
      ∃ rest, p = dir ++ sep :: (n ++ rest) ∧ (rest = [] ∨ ∃ more, rest = sep :: more) := by
    rintro n - (rfl | ⟨more, rfl⟩)
    · exact ⟨[], by rw [List.append_nil, child], Or.inl rfl⟩
    · refine ⟨sep :: more, ?_, Or.inr ⟨more, rfl⟩⟩
      simp only [child, List.append_assoc, List.cons_append, List.nil_append]
  obtain ⟨restA, hrestA, hendA⟩ := hname ha hpa
  obtain ⟨restB, hrestB, hendB⟩ := hname hb hpb
  have heq : a ++ restA = b ++ restB := by
    have happend := List.append_cancel_left (hrestA.symm.trans hrestB)
    exact (List.cons.inj happend).2
  rcases List.append_eq_append_iff.mp heq with ⟨c, rfl, hc⟩ | ⟨c, rfl, hc⟩
  · rw [eq_nil_of_ends hb hendA hc, List.append_nil]
  · rw [eq_nil_of_ends ha hendB hc, List.append_nil]

section Renamed

variable [DecidableEq α]

instance (dir p : List α) : Decidable (Within sep dir p) := inferInstanceAs (Decidable (_ ∨ _))

/-- The name of a folder once `src` is called `dst`. -/
def renamed (sep : α) (src dst p : List α) : List α :=
  if Within sep src p then dst ++ p.drop src.length else p

variable {src dst p q : List α}

theorem renamed_of_not_within (h : ¬ Within sep src p) : renamed sep src dst p = p := if_neg h

theorem within_renamed (h : Within sep src p) : Within sep dst (renamed sep src dst p) := by
  rw [renamed, if_pos h]
  rcases h with rfl | ⟨rest, rfl⟩
  · left
    rw [List.drop_length, List.append_nil]
  · right
    rw [List.append_assoc, List.drop_left, ← List.append_assoc]
    exact ⟨rest, rfl⟩

/-- A renaming keeps names apart if there is nothing under the new name. -/
theorem renamed_inj (hp : ¬ Within sep dst p) (hq : ¬ Within sep dst q)
    (h : renamed sep src dst p = renamed sep src dst q) : p = q := by
  by_cases hsp : Within sep src p
  · by_cases hsq : Within sep src q
    · rw [renamed, renamed, if_pos hsp, if_pos hsq] at h
      rw [← append_drop_of_within hsp, ← append_drop_of_within hsq, List.append_cancel_left h]
    · have hwithin : Within sep dst (renamed sep src dst p) := within_renamed hsp
      rw [h, renamed_of_not_within hsq] at hwithin
      exact absurd hwithin hq
  · by_cases hsq : Within sep src q
    · have hwithin : Within sep dst (renamed sep src dst q) := within_renamed hsq
      rw [← h, renamed_of_not_within hsp] at hwithin
      exact absurd hwithin hp
    · rwa [renamed_of_not_within hsp, renamed_of_not_within hsq] at h

end Renamed

end MediaArchiver.Lib
