/-
# MediaArchiver.Daemon.Stopping -- a request to stop, and the loop of `start`

`stop` sets a flag, and that is all: it does not notify the thread. The thread looks at the flag at two
points, and where it is set it calls `isIdle`, which takes the mutex that the thread has at both of them. So
a request to stop is seen by nobody if the thread waits, and is the end of the thread if it is seen: the
thread asks for a mutex that it will not give back. A run goes well exactly as long as the thread does not
look after the request, and the daemon is not idle while the thread waits unnotified (`stop_honoured_iff`).
-/
import MediaArchiver.Daemon.MoverLoop

namespace MediaArchiver

open Lib (Machine Table)

namespace Daemon

/-- `isIdle`, for a thread that gets the mutex. -/
def isIdle (d : Daemon) : Bool :=
  d.connections.rows.all (fun c => !(c.2.inFile.isOpen || c.2.outFile.isOpen)) && d.filesToMove.isEmpty

/-- A daemon with an entry in the queue is not idle. -/
theorem isIdle_eq_false {d : Daemon} (h : d.filesToMove ≠ []) : d.isIdle = false := by
  rw [isIdle, List.isEmpty_eq_false_iff.mpr h, Bool.and_false]

end Daemon

namespace MoverLoop

variable {cfg : DaemonConfig} {s : MoverLoop}

/-- The thread does not ask for the mutex that it has, and it does not wait for a notification that does not
come once the daemon is idle and was asked to stop. -/
structure Honours (s : MoverLoop) : Prop where
  free : s.point ≠ .inIsIdle
  woken : s.daemon.stopRequested = true → s.daemon.isIdle = true → s.point ≠ .waiting false

/-- The thread does not look at the flag after the request; and while it waits unnotified, neither does the
request come to an idle daemon, nor does a daemon that was asked to stop become idle. -/
def Spares (cfg : DaemonConfig) (s : MoverLoop) : MoverEvent → Prop
  | .loop _ => s.daemon.stopRequested = true → s.point ≠ .condition ∧ s.point ≠ .check
  | .call e => s.point = .waiting false → e.outside = true → s.daemon.stopRequested = true ∨ e = .stop →
      ((Daemon.machine cfg).step s.daemon e).isIdle = false
  | .wake => True

theorem honours_start (db : Store) : Honours (start db) :=
  ⟨LoopPoint.noConfusion, fun _ _ => LoopPoint.noConfusion⟩

theorem honours_loop (h : Honours s) (outcome : MoveOutcome)
    (hspares : Spares cfg s (.loop outcome)) : Honours ((machine cfg).step s (.loop outcome)) := by
  show Honours (s.loopStep outcome)
  have hdoes := loopStep_does s outcome
  generalize s.loopStep outcome = s' at hdoes ⊢
  cases hdoes with
  | look hpoint hstop =>
    obtain ⟨hcondition, hcheck⟩ := hspares hstop
    rcases hpoint with hpoint | hpoint
    · exact absurd hpoint hcondition
    · exact absurd hpoint hcheck
  | wait hpoint hgoing hqueue =>
    refine ⟨LoopPoint.noConfusion, fun hstop => ?_⟩
    rw [hgoing] at hstop
    cases hstop
  | rest => exact h
  | _ => exact ⟨LoopPoint.noConfusion, fun _ _ => LoopPoint.noConfusion⟩

/-- A call that is notified about does not leave the thread waiting unnotified. -/
theorem point_call {e : DaemonEvent} (hgoes : s.goesThrough cfg e = true) :
    (((machine cfg).step s (.call e)).point = .inIsIdle ↔ s.point = .inIsIdle) ∧
      (((machine cfg).step s (.call e)).point = .waiting false ↔
        s.point = .waiting false ∧ s.daemon.queuedBy cfg e = none) := by
  have hstep : (machine cfg).step s (.call e) = ⟨(Daemon.machine cfg).step s.daemon e,
      if (s.daemon.queuedBy cfg e).isSome then s.point.notify else s.point⟩ := if_pos hgoes
  rw [hstep]
  cases s.daemon.queuedBy cfg e with
  | none => simp
  | some ftm => cases hpoint : s.point <;> simp [LoopPoint.notify]

theorem honours_call (h : Honours s) (e : DaemonEvent) (hspares : Spares cfg s (.call e)) :
    Honours ((machine cfg).step s (.call e)) := by
  by_cases hgoes : s.goesThrough cfg e = true
  · have houtside : e.outside = true := (Bool.and_eq_true_iff.mp hgoes).1
    have hdaemon : ((machine cfg).step s (.call e)).daemon = (Daemon.machine cfg).step s.daemon e :=
      congrArg MoverLoop.daemon (if_pos hgoes)
    obtain ⟨hfree, hwaiting⟩ := point_call hgoes
    constructor
    · rw [ne_eq, hfree]
      exact h.free
    · intro hstop hidle hpoint
      rw [hdaemon] at hstop hidle
      have hbusy := hspares (hwaiting.mp hpoint).1 houtside
        ((Daemon.step_outside cfg s.daemon houtside).2.2.mp hstop)
      rw [hbusy] at hidle
      cases hidle
  · rw [show (machine cfg).step s (.call e) = s from if_neg hgoes]
    exact h

theorem honours_step (h : Honours s) (e : MoverEvent) (hspares : Spares cfg s e) :
    Honours ((machine cfg).step s e) := by
  cases e with
  | call e => exact honours_call h e hspares
  | loop outcome => exact honours_loop h outcome hspares
  | wake =>
    show Honours (step cfg s .wake)
    rw [step]
    split
    · exact ⟨LoopPoint.noConfusion, fun _ _ => LoopPoint.noConfusion⟩
    · exact h

theorem spares_of_honours (e : MoverEvent) (hnext : Honours ((machine cfg).step s e)) :
    Spares cfg s e := by
  cases e with
  | loop outcome =>
    intro hstop
    -- the thread looks at the flag, and calls `isIdle`
    have hfree : (s.loopStep outcome).point ≠ .inIsIdle := hnext.free
    constructor
    · intro hpoint
      rw [loopStep, hpoint] at hfree
      simp only [hstop, if_true] at hfree
      exact hfree rfl
    · intro hpoint
      rw [loopStep, hpoint] at hfree
      simp only [hstop, if_true] at hfree
      exact hfree rfl
  | call e =>
    intro hpoint houtside hstop
    have hgoes : s.goesThrough cfg e = true := by
      rw [goesThrough, houtside, hpoint, LoopPoint.hasMutex, Bool.and_false]
      rfl
    obtain ⟨hqueue, -, hstopped⟩ := Daemon.step_outside cfg s.daemon houtside
    cases hqueued : s.daemon.queuedBy cfg e with
    | some ftm =>
      rw [hqueued] at hqueue
      apply Daemon.isIdle_eq_false
      rw [hqueue]
      exact List.append_ne_nil_of_right_ne_nil _ (List.cons_ne_nil _ _)
    | none =>
      have hdaemon : ((machine cfg).step s (.call e)).daemon = (Daemon.machine cfg).step s.daemon e :=
        congrArg MoverLoop.daemon (if_pos hgoes)
      have hwaiting := (point_call hgoes).2.mpr ⟨hpoint, hqueued⟩
      rw [← hdaemon, ← Bool.not_eq_true]
      exact fun hidle => hnext.woken (by rw [hdaemon]; exact hstopped.mpr hstop) hidle hwaiting
  | wake => trivial

/-- In every state of a run the thread is neither stuck nor asleep over a request to stop, exactly if it does
not look at the flag after the request, and the daemon is not idle after it while the thread waits. -/
theorem stop_honoured_iff (cfg : DaemonConfig) (db : Store) (es : List MoverEvent) :
    (∀ past, past <+: es → Honours ((machine cfg).run (start db) past)) ↔
      (machine cfg).Along (Spares cfg) (start db) es :=
  (machine cfg).always_iff (I := Honours) (P := Honours) (fun _ h => h)
    (fun _ e h hspares => honours_step h e hspares) (fun _ e _ hnext => spares_of_honours e hnext)
    (honours_start db) es

/-- The request comes before the thread gets to the loop: the thread asks for the mutex that it has. -/
def stopFirst : List MoverEvent := [.call .stop, .loop .moved, .loop .moved]

/-- The request comes while the thread waits and nothing else happens: nobody wakes the thread. -/
def stopLast : List MoverEvent := [.loop .moved, .loop .moved, .call .stop]

theorem stop_not_honoured :
    ((machine gCfg).run (start .empty) stopFirst).point = .inIsIdle ∧
      (((machine gCfg).run (start .empty) stopLast).daemon.stopRequested = true ∧
        ((machine gCfg).run (start .empty) stopLast).daemon.isIdle = true ∧
        ((machine gCfg).run (start .empty) stopLast).point = .waiting false) ∧
      ¬ (∀ past, past <+: stopFirst → Honours ((machine gCfg).run (start .empty) past)) ∧
      ¬ (∀ past, past <+: stopLast → Honours ((machine gCfg).run (start .empty) past)) := by
  refine ⟨rfl, ⟨rfl, rfl, rfl⟩, fun hall => ?_, fun hall => ?_⟩
  · exact (hall stopFirst List.prefix_rfl).free rfl
  · exact (hall stopLast List.prefix_rfl).woken rfl rfl rfl

end MoverLoop

end MediaArchiver
