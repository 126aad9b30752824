/-
# MediaArchiver.Lib.Exceptions -- exceptions of C++: what a handler matches, what `noexcept` lets out

A computation on a state returns, throws, or ends the whole program. Two rules of the language decide what
becomes of an exception:

* A handler matches the class that is thrown and the bases that are reached from it by public inheritance
  (`ClassChain.Matches`). A private base is none for a handler.
* A function that must not throw ends the program if it does (`Action.noexcept`). A destructor is such a
  function unless it is declared otherwise.

Once the program has ended, nothing around the computation brings it back (`terminated_bind`,
`terminated_tryCatch`, `terminated_noexcept`).
-/
import Mathlib.Data.List.Basic

namespace MediaArchiver.Lib

universe u v w

/-! ## Classes -/

/-- How a class inherits from its base. -/
inductive Inheritance where
  | publicly
  | privately
deriving DecidableEq

/-- A class with its bases, the nearest first, each with how it is inherited. -/
structure ClassChain (C : Type u) where
  self : C
  bases : List (Inheritance × C)

namespace ClassChain

variable {C : Type u}

/-- A handler for the class `handler` takes an exception of this class. -/
def Matches (c : ClassChain C) (handler : C) : Prop :=
  handler = c.self ∨ handler ∈ (c.bases.takeWhile fun b => b.1 = .publicly).map Prod.snd

instance [DecidableEq C] (c : ClassChain C) (handler : C) : Decidable (c.Matches handler) :=
  inferInstanceAs (Decidable (_ ∨ _))

/-- Behind a private base nothing is seen but the class itself. -/
theorem matches_privately {c base handler : C} {bases : List (Inheritance × C)} :
    (⟨c, (.privately, base) :: bases⟩ : ClassChain C).Matches handler ↔ handler = c := by
  simp [Matches]

end ClassChain

/-! ## Computations -/

/-- How a computation ends. -/
inductive Completion (ε : Type u) (α : Type v) where
  | returned (a : α)
  | threw (e : ε)
  | terminated

/-- A computation on a state. -/
def Action (σ : Type u) (ε : Type v) (α : Type w) := σ → σ × Completion ε α

namespace Action

variable {σ : Type u} {ε : Type v} {α β : Type w}

def pure (a : α) : Action σ ε α := fun s => (s, .returned a)

def throw (e : ε) : Action σ ε α := fun s => (s, .threw e)

/-- One computation after the other. -/
def bind (p : Action σ ε α) (f : α → Action σ ε β) : Action σ ε β := fun s =>
  match p s with
  | (s, .returned a) => f a s
  | (s, .threw e) => (s, .threw e)
  | (s, .terminated) => (s, .terminated)

/-- The body of a function that must not throw. -/
def noexcept (p : Action σ ε α) : Action σ ε α := fun s =>
  match p s with
  | (s, .threw _) => (s, .terminated)
  | ended => ended

/-- A `try` block with one handler. -/
def tryCatch (takes : ε → Bool) (p : Action σ ε α) (handler : ε → Action σ ε α) : Action σ ε α :=
  fun s =>
    match p s with
    | (s, .threw e) => if takes e then handler e s else (s, .threw e)
    | ended => ended

variable {p : Action σ ε α} {s s' : σ}

theorem bind_returned {f : α → Action σ ε β} {a : α} (h : p s = (s', .returned a)) :
    p.bind f s = f a s' := by
  rw [bind, h]

theorem terminated_bind {f : α → Action σ ε β} (h : p s = (s', .terminated)) :
    p.bind f s = (s', .terminated) := by
  rw [bind, h]

theorem terminated_tryCatch {takes : ε → Bool} {handler : ε → Action σ ε α}
    (h : p s = (s', .terminated)) : p.tryCatch takes handler s = (s', .terminated) := by
  rw [tryCatch, h]

theorem tryCatch_returned {takes : ε → Bool} {handler : ε → Action σ ε α} {a : α}
    (h : p s = (s', .returned a)) : p.tryCatch takes handler s = (s', .returned a) := by
  rw [tryCatch, h]

theorem noexcept_returned {a : α} (h : p s = (s', .returned a)) : p.noexcept s = (s', .returned a) := by
  rw [noexcept, h]

/-- What must not throw ends the program if it does. -/
theorem noexcept_threw {e : ε} (h : p s = (s', .threw e)) : p.noexcept s = (s', .terminated) := by
  rw [noexcept, h]

theorem terminated_noexcept (h : p s = (s', .terminated)) : p.noexcept s = (s', .terminated) := by
  rw [noexcept, h]

end Action

end MediaArchiver.Lib
