/-
# MediaArchiver.Lib.Transactions -- statements against what is stored, in a transaction or not

A statement outside of a transaction changes what is stored at once. One inside changes what the transaction
has made of it so far, and only `commit` stores that. Statements run one after the other up to the first one
that fails. Whoever opens what is stored again finds it without the transaction.

A list of changes in a transaction is all or nothing: wherever it is cut, and whichever of them fails, what is
stored is what was stored before, or what all changes together make of it (`stored_transaction`).
-/
import Mathlib.Data.List.Basic

namespace MediaArchiver.Lib

universe u v

/-- What is stored, and what the open transaction has made of it. -/
structure Connection (σ : Type u) where
  stored : σ
  pending : Option σ

inductive Statement (σ : Type u) (ε : Type v) where
  | begin
  | commit
  | change (f : σ → Except ε σ)

/-- Why a statement failed. -/
inductive StatementError (ε : Type v) where
  /-- There is a transaction already. -/
  | nested
  /-- There is no transaction. -/
  | inactive
  | failed (e : ε)

namespace Connection

variable {σ : Type u} {ε : Type v}

/-- A statement, with its error if it fails; it changes nothing then. -/
def exec (c : Connection σ) : Statement σ ε → Connection σ × Option (StatementError ε)
  | .begin =>
      match c.pending with
      | none => ({ c with pending := some c.stored }, none)
      | some _ => (c, some .nested)
  | .commit =>
      match c.pending with
      | none => (c, some .inactive)
      | some s => (⟨s, none⟩, none)
  | .change f =>
      match f (c.pending.getD c.stored) with
      | .error e => (c, some (.failed e))
      | .ok s => (if c.pending.isSome then { c with pending := some s } else ⟨s, none⟩, none)

/-- Statements up to the first one that fails. -/
def execAll (c : Connection σ) : List (Statement σ ε) → Connection σ × Option (StatementError ε)
  | [] => (c, none)
  | p :: ps =>
      match c.exec p with
      | (c, none) => c.execAll ps
      | failed => failed

/-- Changes, and what stores them. -/
def committed (fs : List (σ → Except ε σ)) : List (Statement σ ε) := fs.map .change ++ [.commit]

/-- Changes in a transaction. -/
def transaction (fs : List (σ → Except ε σ)) : List (Statement σ ε) := .begin :: committed fs

/-- All changes, one after the other. -/
def changeAll : List (σ → Except ε σ) → σ → Except ε σ
  | [], s => .ok s
  | f :: fs, s =>
      match f s with
      | .error e => .error e
      | .ok s => changeAll fs s

theorem committed_cons (f : σ → Except ε σ) (fs : List (σ → Except ε σ)) :
    committed (f :: fs) = .change f :: committed fs := rfl

/-- A change in a transaction. -/
theorem exec_change {f : σ → Except ε σ} {s s' : σ} (s₀ : σ) (h : f s = .ok s') :
    (⟨s₀, some s⟩ : Connection σ).exec (.change f) = (⟨s₀, some s'⟩, none) := by
  rw [exec, Option.getD_some, h]
  rfl

theorem exec_change_error {f : σ → Except ε σ} {s : σ} {e : ε} (s₀ : σ) (h : f s = .error e) :
    (⟨s₀, some s⟩ : Connection σ).exec (.change f) = (⟨s₀, some s⟩, some (.failed e)) := by
  rw [exec, Option.getD_some, h]

/-- In a transaction, changes do not show before the `commit`. -/
theorem execAll_take_committed (s s₀ : σ) (fs : List (σ → Except ε σ)) (n : Nat) :
    ((⟨s₀, some s⟩ : Connection σ).execAll ((committed fs).take n)).1.stored = s₀ ∨
      ∃ s', changeAll fs s = .ok s' ∧ fs.length < n ∧
        (⟨s₀, some s⟩ : Connection σ).execAll ((committed fs).take n) = (⟨s', none⟩, none) := by
  induction fs generalizing s n with
  | nil =>
    cases n with
    | zero => exact Or.inl rfl
    | succ n =>
      rw [committed, List.map_nil, List.nil_append, List.take_succ_cons, List.take_nil]
      exact Or.inr ⟨s, rfl, Nat.succ_pos n, rfl⟩
  | cons f fs ih =>
    cases n with
    | zero => exact Or.inl rfl
    | succ n =>
      rw [committed_cons, List.take_succ_cons, execAll, changeAll, List.length_cons]
      cases hf : f s with
      | error e =>
        rw [exec_change_error s₀ hf]
        exact Or.inl rfl
      | ok s' =>
        rw [exec_change s₀ hf]
        simp only [Nat.add_lt_add_iff_right]
        exact ih s' n

/-- Wherever a transaction is cut, all of its changes are stored or none. -/
theorem stored_transaction (s : σ) (fs : List (σ → Except ε σ)) (n : Nat) :
    ((⟨s, none⟩ : Connection σ).execAll ((transaction fs).take n)).1.stored = s ∨
      ∃ s', changeAll fs s = .ok s' ∧ fs.length + 1 < n ∧
        (⟨s, none⟩ : Connection σ).execAll ((transaction fs).take n) = (⟨s', none⟩, none) := by
  cases n with
  | zero => exact Or.inl rfl
  | succ n =>
    rw [transaction, List.take_succ_cons, execAll]
    simp only [exec, Nat.add_lt_add_iff_right]
    exact execAll_take_committed s s fs n

/-- Statements of which one fails by itself: those before it run. -/
theorem execAll_set (c : Connection σ) (ps : List (Statement σ ε)) {n : Nat} (hn : n < ps.length) (e : ε) :
    c.execAll (ps.set n (.change fun _ => .error e)) =
      ((c.execAll (ps.take n)).1, some ((c.execAll (ps.take n)).2.getD (.failed e))) := by
  induction ps generalizing c n with
  | nil => exact absurd hn (Nat.not_lt_zero n)
  | cons p ps ih =>
    cases n with
    | zero => rfl
    | succ n =>
      rw [List.set_cons_succ, List.take_succ_cons, execAll, execAll]
      rcases c.exec p with ⟨c', _ | error⟩
      · exact ih c' (Nat.lt_of_succ_lt_succ hn)
      · rfl

/-- A transaction of which a statement fails by itself stores nothing. -/
theorem execAll_transaction_set (s : σ) (fs : List (σ → Except ε σ)) {n : Nat}
    (hn : n < (transaction fs).length) (e : ε) :
    ∃ pending error, (⟨s, none⟩ : Connection σ).execAll
      ((transaction fs).set n (.change fun _ => .error e)) = (⟨s, pending⟩, some error) := by
  have hstored := stored_transaction s fs n
  rw [execAll_set _ _ hn]
  generalize (⟨s, none⟩ : Connection σ).execAll ((transaction fs).take n) = ended at hstored
  obtain ⟨⟨stored, pending⟩, error⟩ := ended
  rcases hstored with rfl | ⟨_, -, hlate, -⟩
  · exact ⟨pending, _, rfl⟩
  · simp only [transaction, committed, List.length_cons, List.length_append, List.length_map,
      List.length_nil] at hn
    omega

/-- A whole transaction fails with the first change that does, and stores all changes else. -/
theorem execAll_transaction (s : σ) (fs : List (σ → Except ε σ)) :
    (∃ s', changeAll fs s = .ok s' ∧
        (⟨s, none⟩ : Connection σ).execAll (transaction fs) = (⟨s', none⟩, none)) ∨
      ∃ e p, changeAll fs s = .error e ∧
        (⟨s, none⟩ : Connection σ).execAll (transaction fs) = (⟨s, some p⟩, some (.failed e)) := by
  suffices hall : ∀ s', (∃ s'', changeAll fs s' = .ok s'' ∧
      (⟨s, some s'⟩ : Connection σ).execAll (committed fs) = (⟨s'', none⟩, none)) ∨
      ∃ e p, changeAll fs s' = .error e ∧
        (⟨s, some s'⟩ : Connection σ).execAll (committed fs) = (⟨s, some p⟩, some (.failed e)) from hall s
  induction fs with
  | nil => exact fun s' => Or.inl ⟨s', rfl, rfl⟩
  | cons f fs ih =>
    intro s'
    rw [committed_cons, execAll, changeAll]
    cases hf : f s' with
    | error e =>
      rw [exec_change_error s hf]
      exact Or.inr ⟨e, s', rfl, rfl⟩
    | ok s'' =>
      rw [exec_change s hf]
      exact ih s''

end Connection

end MediaArchiver.Lib
