/-
# MediaArchiver.Lib.Script -- programs of separately committed statements

A program that changes a store statement by statement can be cut between any two of them: the process
dies, or a statement fails. `Script` is such a program. What a statement returned is a function of the
store it ran on, so the continuation is one, and a statement that only reads is one that changes nothing.

A script is all-or-nothing on a store if every cut leaves the store as it was or as the whole run leaves
it. For scripts whose statements never undo each other (`Rising`: what changes the store raises a measure)
this is decided statement by statement: at most one of them may change the store
(`allOrNothing_step`, `still_step`).
-/
import Mathlib.Data.Nat.Basic

namespace MediaArchiver.Lib

universe u v w

/-- Statements, one after the other; each is chosen by what the earlier ones returned. -/
inductive Script (σ : Type u) (α : Type v) where
  | done (a : α)
  | step (f : σ → σ) (k : σ → Script σ α)

namespace Script

variable {σ : Type u} {α : Type v} {β : Type w}

/-- A statement that only reads. -/
def select (k : σ → Script σ α) : Script σ α := .step id k

/-- A statement whose return value is not looked at. -/
def write (f : σ → σ) (p : Script σ α) : Script σ α := .step f fun _ => p

/-- The whole run. -/
def run : Script σ α → σ → σ × α
  | .done a, s => (s, a)
  | .step f k, s => (k s).run (f s)

/-- The store when the run ends after some number of statements. -/
def cut : Script σ α → Nat → σ → σ
  | .done _, _, s => s
  | .step _ _, 0, s => s
  | .step f k, n + 1, s => (k s).cut n (f s)

/-- One script after the other. -/
def bind : Script σ α → (α → Script σ β) → Script σ β
  | .done a, g => g a
  | .step f k, g => .step f fun s => (k s).bind g

/-- Every cut leaves the store as it was, or as the run leaves it. -/
def AllOrNothing (p : Script σ α) (s : σ) : Prop :=
  ∀ n, p.cut n s = s ∨ p.cut n s = (p.run s).1

/-- No statement changes the store. -/
def Still (p : Script σ α) (s : σ) : Prop := ∀ n, p.cut n s = s

/-- A statement that changes the store raises the measure, whatever the store is. -/
def Rising (φ : σ → Nat) : Script σ α → Prop
  | .done _ => True
  | .step f k => (∀ s, f s = s ∨ φ s < φ (f s)) ∧ ∀ s, (k s).Rising φ

theorem run_bind (p : Script σ α) (g : α → Script σ β) (s : σ) :
    (p.bind g).run s = (g (p.run s).2).run (p.run s).1 := by
  induction p generalizing s with
  | done a => rfl
  | step f k ih => exact ih s (f s)

theorem cut_zero (p : Script σ α) (s : σ) : p.cut 0 s = s := by
  cases p <;> rfl

/-- The run is the cut behind the last statement. -/
theorem exists_cut_eq_run (p : Script σ α) (s : σ) : ∃ n, p.cut n s = (p.run s).1 := by
  induction p generalizing s with
  | done a => exact ⟨0, rfl⟩
  | step f k ih =>
    obtain ⟨n, hn⟩ := ih s (f s)
    exact ⟨n + 1, hn⟩

theorem rising_bind {φ : σ → Nat} {p : Script σ α} {g : α → Script σ β} (hp : p.Rising φ)
    (hg : ∀ a, (g a).Rising φ) : (p.bind g).Rising φ := by
  induction p with
  | done a => exact hg a
  | step f k ih => exact ⟨hp.1, fun s => ih s (hp.2 s)⟩

theorem rising_select {φ : σ → Nat} {k : σ → Script σ α} (hk : ∀ s, (k s).Rising φ) :
    (select k).Rising φ :=
  ⟨fun _ => Or.inl rfl, hk⟩

/-- A script that rises comes back to no earlier store. -/
theorem Rising.cut {φ : σ → Nat} {p : Script σ α} (h : p.Rising φ) (n : Nat) (s : σ) :
    p.cut n s = s ∨ φ s < φ (p.cut n s) := by
  induction p generalizing n s with
  | done a => exact Or.inl rfl
  | step f k ih =>
    cases n with
    | zero => exact Or.inl rfl
    | succ n =>
      show (k s).cut n (f s) = s ∨ φ s < φ ((k s).cut n (f s))
      rcases h.1 s with hsame | hless
      · rw [hsame]
        exact ih s (h.2 s) n s
      · right
        rcases ih s (h.2 s) n (f s) with hcut | hcut
        · rw [hcut]
          exact hless
        · exact Nat.lt_trans hless hcut

/-- The predicate holds between any two statements. -/
def Keeps (P : σ → Prop) : Script σ α → σ → Prop
  | .done _, s => P s
  | .step f k, s => P s ∧ (k s).Keeps P (f s)

theorem Keeps.cut {P : σ → Prop} {p : Script σ α} {s : σ} (h : p.Keeps P s) (n : Nat) :
    P (p.cut n s) := by
  induction p generalizing n s with
  | done a => exact h
  | step f k ih =>
    cases n with
    | zero => exact h.1
    | succ n => exact ih s h.2 n

theorem Keeps.run {P : σ → Prop} {p : Script σ α} {s : σ} (h : p.Keeps P s) : P (p.run s).1 := by
  obtain ⟨n, hn⟩ := p.exists_cut_eq_run s
  exact hn ▸ h.cut n

/-- The second script starts where the first one ends. -/
theorem Keeps.bind {P : σ → Prop} {p : Script σ α} {g : α → Script σ β} {s : σ} (h : p.Keeps P s)
    (hg : (g (p.run s).2).Keeps P (p.run s).1) : (p.bind g).Keeps P s := by
  induction p generalizing s with
  | done a => exact hg
  | step f k ih => exact ⟨h.1, ih s h.2 hg⟩

/-- Every statement, on whatever store, keeps the predicate. -/
def Preserves (P : σ → Prop) : Script σ α → Prop
  | .done _ => True
  | .step f k => (∀ s, P s → P (f s)) ∧ ∀ s, (k s).Preserves P

theorem Preserves.cut {P : σ → Prop} {p : Script σ α} (h : p.Preserves P) {s : σ} (hs : P s) (n : Nat) :
    P (p.cut n s) := by
  induction p generalizing n s with
  | done a => exact hs
  | step f k ih =>
    cases n with
    | zero => exact hs
    | succ n => exact ih s (h.2 s) (h.1 s hs) n

theorem Preserves.bind {P : σ → Prop} {p : Script σ α} {g : α → Script σ β} (hp : p.Preserves P)
    (hg : ∀ a, (g a).Preserves P) : (p.bind g).Preserves P := by
  induction p with
  | done a => exact hg a
  | step f k ih => exact ⟨hp.1, fun s => ih s (hp.2 s)⟩

/-- A last statement that is executed or not. -/
theorem keeps_ite {P : σ → Prop} {c : Prop} [Decidable c] {f : σ → σ} {a : α} {p : Script σ α} {s : σ}
    (h : P s) (hrun : P ((if c then write f (.done a) else p).run s).1)
    (hp : P (p.run s).1 → p.Keeps P s) : (if c then write f (.done a) else p).Keeps P s := by
  by_cases hc : c
  · rw [if_pos hc] at hrun ⊢
    exact ⟨h, hrun⟩
  · rw [if_neg hc] at hrun ⊢
    exact hp hrun

theorem AllOrNothing.cut {P : σ → Prop} {p : Script σ α} {s : σ} (h : p.AllOrNothing s) (hs : P s)
    (hrun : P (p.run s).1) (n : Nat) : P (p.cut n s) := by
  rcases h n with hbefore | hafter
  · rwa [hbefore]
  · rwa [hafter]

theorem still_done (a : α) (s : σ) : Still (.done a) s := fun _ => rfl

theorem still_step {f : σ → σ} {k : σ → Script σ α} {s : σ} :
    Still (.step f k) s ↔ f s = s ∧ (k s).Still s := by
  constructor
  · intro h
    have hsame : f s = s := by
      have hone := h 1
      rw [Script.cut, cut_zero] at hone
      exact hone
    refine ⟨hsame, fun n => ?_⟩
    have hn := h (n + 1)
    rwa [Script.cut, hsame] at hn
  · rintro ⟨hsame, hk⟩ n
    cases n with
    | zero => rfl
    | succ n => rw [Script.cut, hsame, hk n]

theorem allOrNothing_done (a : α) (s : σ) : AllOrNothing (.done a) s := fun _ => Or.inl rfl

/-- A statement that changes nothing does not count. -/
theorem allOrNothing_step_same {f : σ → σ} {k : σ → Script σ α} {s : σ} (hsame : f s = s) :
    AllOrNothing (.step f k) s ↔ (k s).AllOrNothing s := by
  unfold AllOrNothing
  simp only [Script.run, hsame]
  constructor
  · intro h n
    have hn := h (n + 1)
    rwa [Script.cut, hsame] at hn
  · intro h n
    cases n with
    | zero => exact Or.inl rfl
    | succ n =>
      rw [Script.cut, hsame]
      exact h n

/-- After a statement that changes the store no other may. -/
theorem allOrNothing_step_ne {φ : σ → Nat} {f : σ → σ} {k : σ → Script σ α} {s : σ}
    (hrise : (Script.step f k).Rising φ) (hne : f s ≠ s) :
    AllOrNothing (.step f k) s ↔ (k s).Still (f s) := by
  have hless : φ s < φ (f s) := (hrise.1 s).resolve_left hne
  have hlater : ∀ n, (k s).cut n (f s) ≠ s := by
    intro n heq
    rcases (hrise.2 s).cut n (f s) with hcut | hcut
    · exact hne (hcut.symm.trans heq)
    · rw [heq] at hcut
      exact absurd hcut (Nat.lt_asymm hless)
  constructor
  · intro h
    -- the store after the statement is the final one, so all later ones are
    have hfinal : ∀ n, (k s).cut n (f s) = ((k s).run (f s)).1 := fun n =>
      (h (n + 1)).resolve_left (hlater n)
    intro n
    rw [hfinal n, ← hfinal 0, cut_zero]
  · intro h n
    cases n with
    | zero => exact Or.inl rfl
    | succ n =>
      right
      obtain ⟨last, hlast⟩ := (k s).exists_cut_eq_run (f s)
      show (k s).cut n (f s) = ((k s).run (f s)).1
      rw [h n, ← hlast, h last]

/-- Two statements, whatever they do. -/
theorem allOrNothing_two {f g : σ → σ} {a : α} {s : σ} :
    AllOrNothing (write f (write g (.done a))) s ↔ f s = s ∨ g (f s) = f s := by
  constructor
  · intro h
    rcases h 1 with hfirst | hfinal
    · exact Or.inl hfirst
    · exact Or.inr hfinal.symm
  · intro h n
    match n with
    | 0 => exact Or.inl rfl
    | 1 =>
      rcases h with hfirst | hsecond
      · exact Or.inl hfirst
      · exact Or.inr hsecond.symm
    | n + 2 => exact Or.inr rfl

/-- One statement. -/
theorem allOrNothing_one {f : σ → σ} {a : α} (s : σ) : AllOrNothing (write f (.done a)) s := by
  intro n
  cases n with
  | zero => exact Or.inl rfl
  | succ n => exact Or.inr rfl

end Script

end MediaArchiver.Lib
