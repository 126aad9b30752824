/-
# MediaArchiver.Lib.Delayed -- calls that run after their caller gave them up

A server, and the calls that were made to it. A call that is answered has run when the next one is made.
A call that its caller gives up is `Late`: it may run at any time, once at most, or never. All calls are
numbered, so that one can tell whether another was made after a late one.

What the server keeps whatever runs, it keeps at any time (`answer_server`, `runLate_server`), and what is
true of the late calls stays true while they get fewer (`mem_late_runLate`). Nothing here knows what the
calls are.
-/
import Mathlib.Data.List.Basic

namespace MediaArchiver.Lib

universe u v w

/-- A call that was given up and did not run yet. -/
structure Late (κ : Type v) where
  number : Nat
  call : κ

/-- A server, the number of calls made to it, and those of them that may still run. -/
structure Delayed (σ : Type u) (κ : Type v) where
  server : σ
  sent : Nat
  late : List (Late κ)

namespace Delayed

variable {σ : Type u} {κ : Type v} {β : Type w}

/-- A server that nobody has called yet. -/
def start (server : σ) : Delayed σ κ := ⟨server, 0, []⟩

/-- A call that runs when it is made. -/
def answer (run : σ → σ × β) (s : Delayed σ κ) : Delayed σ κ × β :=
  ({ s with server := (run s.server).1, sent := s.sent + 1 }, (run s.server).2)

/-- A call that is given up. -/
def giveUp (call : κ) (s : Delayed σ κ) : Delayed σ κ :=
  { s with sent := s.sent + 1, late := s.late ++ [⟨s.sent + 1, call⟩] }

/-- One of the late calls runs. -/
def runLate (exec : σ → κ → σ) (i : Nat) (s : Delayed σ κ) : Delayed σ κ :=
  match s.late[i]? with
  | some l => { s with server := exec s.server l.call, late := s.late.eraseIdx i }
  | none => s

/-- No call was made after this one. -/
def Fresh (s : Delayed σ κ) (l : Late κ) : Prop := l.number = s.sent

instance (s : Delayed σ κ) (l : Late κ) : Decidable (s.Fresh l) := inferInstanceAs (Decidable (_ = _))

/-- No two late calls have the same number, and none was made after the last call. -/
structure Numbered (s : Delayed σ κ) : Prop where
  le_sent : ∀ l ∈ s.late, l.number ≤ s.sent
  sorted : s.late.Pairwise fun l l' => l.number < l'.number

theorem numbered_start (server : σ) : (start server : Delayed σ κ).Numbered :=
  ⟨fun _ hl => absurd hl List.not_mem_nil, List.Pairwise.nil⟩

/-- A late call runs, or there is none at the index. -/
theorem runLate_cases (exec : σ → κ → σ) (i : Nat) (s : Delayed σ κ) :
    s.runLate exec i = s ∨
      ∃ l, s.late[i]? = some l ∧ s.runLate exec i
        = { s with server := exec s.server l.call, late := s.late.eraseIdx i } := by
  unfold runLate
  cases hl : s.late[i]? with
  | none => exact Or.inl rfl
  | some l => exact Or.inr ⟨l, rfl, rfl⟩

theorem mem_late_giveUp {call : κ} {s : Delayed σ κ} {l : Late κ} :
    l ∈ (s.giveUp call).late ↔ l ∈ s.late ∨ l = ⟨s.sent + 1, call⟩ := by
  show l ∈ s.late ++ [_] ↔ _
  rw [List.mem_append, List.mem_singleton]

/-- Late calls get fewer. -/
theorem mem_late_runLate {exec : σ → κ → σ} {i : Nat} {s : Delayed σ κ} {l : Late κ}
    (h : l ∈ (s.runLate exec i).late) : l ∈ s.late := by
  rcases s.runLate_cases exec i with heq | ⟨l', -, heq⟩
  · rwa [heq] at h
  · rw [heq] at h
    exact List.mem_of_mem_eraseIdx h

theorem sent_runLate (exec : σ → κ → σ) (i : Nat) (s : Delayed σ κ) :
    (s.runLate exec i).sent = s.sent := by
  rcases s.runLate_cases exec i with heq | ⟨l, -, heq⟩ <;> rw [heq]

/-- What a late call keeps, its running keeps. -/
theorem runLate_server {P : σ → Prop} {exec : σ → κ → σ} {i : Nat} {s : Delayed σ κ}
    (hexec : ∀ l, s.late[i]? = some l → P (exec s.server l.call)) (hP : P s.server) :
    P (s.runLate exec i).server := by
  rcases s.runLate_cases exec i with heq | ⟨l, hl, heq⟩
  · rw [heq]
    exact hP
  · rw [heq]
    exact hexec l hl

theorem Numbered.answer {s : Delayed σ κ} (h : s.Numbered) (run : σ → σ × β) :
    (s.answer run).1.Numbered := ⟨fun l hl => Nat.le_succ_of_le (h.le_sent l hl), h.sorted⟩

theorem Numbered.giveUp {s : Delayed σ κ} (h : s.Numbered) (call : κ) : (s.giveUp call).Numbered := by
  constructor
  · intro l hl
    rcases mem_late_giveUp.mp hl with hl | rfl
    · exact Nat.le_succ_of_le (h.le_sent l hl)
    · exact Nat.le_refl _
  · show (s.late ++ [_]).Pairwise _
    rw [List.pairwise_append]
    refine ⟨h.sorted, List.pairwise_singleton _ _, ?_⟩
    intro l hl l' hl'
    rw [List.mem_singleton.mp hl']
    exact Nat.lt_succ_of_le (h.le_sent l hl)

theorem Numbered.runLate {s : Delayed σ κ} (h : s.Numbered) (exec : σ → κ → σ) (i : Nat) :
    (s.runLate exec i).Numbered := by
  constructor
  · intro l hl
    rw [sent_runLate]
    exact h.le_sent l (mem_late_runLate hl)
  · rcases s.runLate_cases exec i with heq | ⟨l, -, heq⟩
    · rw [heq]
      exact h.sorted
    · rw [heq]
      exact h.sorted.sublist (List.eraseIdx_sublist ..)

/-- The server may change by itself. -/
theorem Numbered.server {s : Delayed σ κ} (h : s.Numbered) (server : σ) :
    ({ s with server := server } : Delayed σ κ).Numbered := ⟨h.le_sent, h.sorted⟩

/-- After another call was made, no earlier one is fresh. -/
theorem Numbered.not_fresh {s s' : Delayed σ κ} (h : s.Numbered) (hsent : s'.sent = s.sent + 1)
    {l : Late κ} (hl : l ∈ s.late) : ¬ s'.Fresh l := by
  intro hfresh
  have hle := h.le_sent l hl
  have heq : l.number = s'.sent := hfresh
  omega

/-- Only one call is fresh, so when it has run, none is. -/
theorem Numbered.not_fresh_runLate {s : Delayed σ κ} (h : s.Numbered) {exec : σ → κ → σ} {i : Nat}
    {l l' : Late κ} (hl : s.late[i]? = some l) (hfresh : s.Fresh l)
    (hl' : l' ∈ (s.runLate exec i).late) : ¬ (s.runLate exec i).Fresh l' := by
  intro hfresh'
  have hsame : l'.number = l.number := by
    have hnumber : l'.number = (s.runLate exec i).sent := hfresh'
    rw [hnumber, sent_runLate]
    exact hfresh.symm
  unfold Delayed.runLate at hl'
  rw [hl] at hl'
  obtain ⟨j, hne, hj⟩ := List.mem_eraseIdx_iff_getElem?.mp hl'
  obtain ⟨hi, rfl⟩ := List.getElem?_eq_some_iff.mp hl
  obtain ⟨hlt', rfl⟩ := List.getElem?_eq_some_iff.mp hj
  have hsorted := List.pairwise_iff_getElem.mp h.sorted
  rcases Nat.lt_or_gt_of_ne hne with hlt | hgt
  · have hless := hsorted j i hlt' hi hlt
    omega
  · have hless := hsorted i j hi hlt' hgt
    omega

end Delayed

end MediaArchiver.Lib
