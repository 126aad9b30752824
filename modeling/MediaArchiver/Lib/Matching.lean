/-
# MediaArchiver.Lib.Matching -- pairs taken in the order in which they come

Pairs arrive one after the other, and a pair is taken if neither of its members was taken before. What
has been taken is a matching at every moment (`compatible_greedy`). Which matching it is depends on the
order in general: a pair that comes first is always taken (`mem_greedy_head`), so two pairs that share
a member exclude each other, one in one order and one in the other. If no two pairs share a member all
are taken, in whatever order (`mem_greedy_of_compatible`).
-/
import Mathlib.Data.List.Induction

namespace MediaArchiver.Lib

universe u v

variable {α : Type u} {β : Type v}

/-- Two different pairs of the list share no member. -/
def Compatible (es : List (α × β)) : Prop :=
  ∀ e ∈ es, ∀ f ∈ es, e.1 = f.1 ∨ e.2 = f.2 → e = f

theorem Compatible.mono {es fs : List (α × β)} (h : Compatible fs) (hsub : ∀ e ∈ es, e ∈ fs) :
    Compatible es :=
  fun e he f hf hshare => h e (hsub e he) f (hsub f hf) hshare

variable [DecidableEq α] [DecidableEq β]

instance (es : List (α × β)) : Decidable (Compatible es) :=
  inferInstanceAs (Decidable (∀ e ∈ es, ∀ f ∈ es, _ → _))

/-- Take a pair, unless one of its members is taken. -/
def take (m : List (α × β)) (e : α × β) : List (α × β) :=
  if ∃ f ∈ m, f.1 = e.1 ∨ f.2 = e.2 then m else m ++ [e]

/-- What is taken of a list of pairs. -/
def greedy (es : List (α × β)) : List (α × β) := es.foldl take []

theorem greedy_concat (es : List (α × β)) (e : α × β) : greedy (es ++ [e]) = take (greedy es) e := by
  unfold greedy
  rw [List.foldl_append, List.foldl_cons, List.foldl_nil]

/-- A pair of which nothing is taken is taken. -/
theorem take_of_free {m : List (α × β)} {a : α} {b : β} (ha : ∀ b', (a, b') ∉ m)
    (hb : ∀ a', (a', b) ∉ m) : take m (a, b) = m ++ [(a, b)] := by
  unfold take
  rw [if_neg]
  rintro ⟨⟨a', b'⟩, hf, rfl | rfl⟩
  · exact ha b' hf
  · exact hb a' hf

/-- Then its first member has no other partner. -/
theorem mem_take_of_free {m : List (α × β)} {a : α} {b b' : β} (ha : ∀ b', (a, b') ∉ m)
    (hb : ∀ a', (a', b) ∉ m) : (a, b') ∈ take m (a, b) ↔ b' = b := by
  rw [take_of_free ha hb, List.mem_append, List.mem_singleton, Prod.mk.injEq]
  constructor
  · rintro (hf | ⟨-, heq⟩)
    · exact absurd hf (ha b')
    · exact heq
  · rintro rfl
    exact Or.inr ⟨rfl, rfl⟩

theorem take_of_taken {m : List (α × β)} {e f : α × β} (hf : f ∈ m) (h : f.1 = e.1 ∨ f.2 = e.2) :
    take m e = m :=
  if_pos ⟨f, hf, h⟩

/-- What was taken stays taken. -/
theorem mem_take_of_mem {m : List (α × β)} {f : α × β} (hf : f ∈ m) (e : α × β) : f ∈ take m e := by
  unfold take
  split
  · exact hf
  · exact List.mem_append.mpr (Or.inl hf)

theorem mem_of_mem_take {m : List (α × β)} {e f : α × β} (hf : f ∈ take m e) : f ∈ m ∨ f = e := by
  unfold take at hf
  split at hf
  · exact Or.inl hf
  · rcases List.mem_append.mp hf with hf | hf
    · exact Or.inl hf
    · exact Or.inr (List.mem_singleton.mp hf)

theorem mem_take_of_ne {m : List (α × β)} {e f : α × β} (hne : f ≠ e) : f ∈ take m e ↔ f ∈ m :=
  ⟨fun hf => (mem_of_mem_take hf).resolve_right hne, fun hf => mem_take_of_mem hf e⟩

theorem compatible_take {m : List (α × β)} (h : Compatible m) (e : α × β) : Compatible (take m e) := by
  unfold take
  split
  · exact h
  · rename_i hfree
    intro f hf g hg hshare
    rcases List.mem_append.mp hf with hf | hf <;> rcases List.mem_append.mp hg with hg | hg
    · exact h f hf g hg hshare
    · rw [List.mem_singleton.mp hg] at hshare
      exact absurd ⟨f, hf, hshare⟩ hfree
    · rw [List.mem_singleton.mp hf] at hshare
      exact absurd ⟨g, hg, hshare.imp Eq.symm Eq.symm⟩ hfree
    · rw [List.mem_singleton.mp hf, List.mem_singleton.mp hg]

/-- Only pairs of the list are taken. -/
theorem mem_of_mem_greedy {es : List (α × β)} {e : α × β} (he : e ∈ greedy es) : e ∈ es := by
  induction es using List.reverseRecOn with
  | nil => exact he
  | append_singleton es f ih =>
    rw [greedy_concat] at he
    rcases mem_of_mem_take he with he | rfl
    · exact List.mem_append.mpr (Or.inl (ih he))
    · exact List.mem_append.mpr (Or.inr (List.mem_singleton.mpr rfl))

/-- What is taken is a matching. -/
theorem compatible_greedy (es : List (α × β)) : Compatible (greedy es) := by
  induction es using List.reverseRecOn with
  | nil => exact fun e he => absurd he List.not_mem_nil
  | append_singleton es f ih =>
    rw [greedy_concat]
    exact compatible_take ih f

/-- The first pair is taken. -/
theorem mem_greedy_head (e : α × β) (es : List (α × β)) : e ∈ greedy (e :: es) := by
  induction es using List.reverseRecOn with
  | nil => exact List.mem_singleton.mpr rfl
  | append_singleton es f ih =>
    rw [← List.cons_append, greedy_concat]
    exact mem_take_of_mem ih f

/-- If no two pairs share a member, all are taken. -/
theorem mem_greedy_of_compatible {es : List (α × β)} (h : Compatible es) {e : α × β} :
    e ∈ greedy es ↔ e ∈ es := by
  refine ⟨mem_of_mem_greedy, ?_⟩
  induction es using List.reverseRecOn with
  | nil => exact fun he => he
  | append_singleton es f ih =>
    intro he
    have hsub : ∀ g ∈ es, g ∈ es ++ [f] := fun g hg => List.mem_append.mpr (Or.inl hg)
    rw [greedy_concat]
    rcases List.mem_append.mp he with he | he
    · exact mem_take_of_mem (ih (h.mono hsub) he) f
    · obtain rfl := List.mem_singleton.mp he
      by_cases htaken : ∃ g ∈ greedy es, g.1 = e.1 ∨ g.2 = e.2
      · obtain ⟨g, hg, hshare⟩ := htaken
        have heq : g = e := h g (hsub g (mem_of_mem_greedy hg)) e
          (List.mem_append.mpr (Or.inr (List.mem_singleton.mpr rfl))) hshare
        rw [← heq]
        exact mem_take_of_mem hg g
      · unfold take
        rw [if_neg htaken]
        exact List.mem_append.mpr (Or.inr (List.mem_singleton.mpr rfl))

end MediaArchiver.Lib
