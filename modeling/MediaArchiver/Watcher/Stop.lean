/-
# MediaArchiver.Watcher.Stop -- `stop` returns

While the owner waits in `stop`, there is a number in the event descriptor, so `select` does not block, and
returns for that number before it does for an event. Each turn brings the thread closer to its end: it handles
an event of the buffer, and there are 64 of them at most, or it gets to the test of `m_stopping`
(`joining_step`). What arrives in the meantime stays in the queue.
-/
import MediaArchiver.Watcher.Delivery

namespace MediaArchiver

open Lib (Machine)

namespace Poller

variable {cfg : DaemonConfig} {s : Poller}

/-! ## The way to the end -/

/-- How many turns the thread takes to its end at most, but for the last one, once `select` does not block. -/
def turnsLeft (s : Poller) : Nat :=
  match s.thread with
  | some .selecting => 1
  -- an event takes 16 bytes at least
  | some (.handling _ u len) => (len - u + 15) / 16 + 1
  | _ => 0

/-- The owner waits in `stop` for a thread that goes on. -/
structure Joining (s : Poller) : Prop where
  live : s.terminated = false
  owner : s.owner = .join
  stopping : s.stopping = true
  thread : s.thread ≠ none
  runs : s.thread ≠ some .ended
  eventfd : s.eventfd = some 1

/-- With a number in the event descriptor each turn brings the thread closer to its end. -/
theorem joining_turn (cfg : DaemonConfig) (h : s.Joining) (t : Turn) :
    (s.threadStep cfg t).terminated = true ∨ (s.threadStep cfg t).thread = some .ended ∨
      (s.threadStep cfg t).terminated = false ∧ (s.threadStep cfg t).turnsLeft + 1 ≤ s.turnsLeft := by
  have hlive := h.live
  unfold threadStep turnsLeft
  rcases hthread : s.thread with _ | _ | _ | ⟨buffer, u, len⟩ | _
  · exact absurd hthread h.thread
  · rw [h.stopping]
    exact Or.inr (Or.inl rfl)
  · -- an interrupted `select` and an internal request lead to the same place
    have hawake : 0 < s.eventfd.getD 0 := by rw [h.eventfd]; exact Nat.one_pos
    dsimp only
    rw [if_pos hawake, ite_self]
    exact Or.inr (Or.inr ⟨hlive, Nat.le_refl 1⟩)
  · dsimp only
    split
    · next hlt =>
      cases cfg.listenAll (s.watcher.reportsOf _) with
      | returned =>
        refine Or.inr (Or.inr ⟨hlive, ?_⟩)
        show (len - (u + (inotifyEventSize + lenAt (buffer.drop u))) + 15) / 16 + 1 + 1
          ≤ (len - u + 15) / 16 + 1
        simp only [inotifyEventSize]
        omega
      | threw x => exact Or.inl rfl
      | terminated => exact Or.inl rfl
    · exact Or.inr (Or.inr ⟨hlive, Nat.le_add_left 1 _⟩)
  · exact absurd hthread h.runs

/-- `stop` has returned. -/
structure Stopped (s : Poller) : Prop where
  owner : s.owner = .outside
  thread : s.thread = none
  stopping : s.stopping = false
  eventfd : s.eventfd = none

/-- The thread is at its end, and the owner is on its way out of `stop`. -/
structure Leaving (s : Poller) : Prop where
  live : s.terminated = false
  stopping : s.stopping = true
  eventfd : s.eventfd = some 1
  place : s.owner = .join ∧ s.thread = some .ended ∨ s.owner = .forget ∧ s.thread = some .ended ∨
    s.owner = .close ∧ s.thread = none

/-- How many statements of `stop` are left, but for the last one. -/
def goesLeft (s : Poller) : Nat :=
  match s.owner with
  | .join => 2
  | .forget => 1
  | _ => 0

/-- In a call, the owner makes no other. -/
theorem call_of_inside (h : s.owner ≠ .outside) :
    (∀ opens, s.callStart opens = s) ∧ s.callStop = s := by
  constructor
  · intro opens
    unfold callStart
    split
    · next hat _ => exact absurd hat h
    · next hat _ => exact absurd hat h
    · rfl
  · unfold callStop
    split
    · next hat _ => exact absurd hat h
    · rfl

theorem joining_step (h : s.Joining) (e : PollerEvent) :
    ((step cfg s e).terminated = true ∨ (step cfg s e).Leaving) ∨
      (step cfg s e).Joining ∧ (step cfg s e).turnsLeft + e.isTurn.toNat ≤ s.turnsLeft := by
  have hcall := s.call_of_inside (by rw [h.owner]; exact nofun)
  rw [step_live h.live]
  cases e with
  | arrive q => exact Or.inr ⟨⟨h.live, h.owner, h.stopping, h.thread, h.runs, h.eventfd⟩, Nat.le_refl _⟩
  | turn t =>
    obtain ⟨hstopping, heventfd, howner, hnone, -⟩ := threadStep_frame cfg s t
    show ((s.threadStep cfg t).terminated = true ∨ (s.threadStep cfg t).Leaving) ∨
      (s.threadStep cfg t).Joining ∧ (s.threadStep cfg t).turnsLeft + 1 ≤ s.turnsLeft
    rcases joining_turn cfg h t with hterm | hend | ⟨hlive, hcloser⟩
    · exact Or.inl (Or.inl hterm)
    · cases hterm : (s.threadStep cfg t).terminated with
      | true => exact Or.inl (Or.inl rfl)
      | false =>
        exact Or.inl (Or.inr ⟨hterm, hstopping.trans h.stopping, heventfd.trans h.eventfd,
          Or.inl ⟨howner.trans h.owner, hend⟩⟩)
    · by_cases hend : (s.threadStep cfg t).thread = some .ended
      · exact Or.inl (Or.inr ⟨hlive, hstopping.trans h.stopping, heventfd.trans h.eventfd,
          Or.inl ⟨howner.trans h.owner, hend⟩⟩)
      · exact Or.inr ⟨⟨hlive, howner.trans h.owner, hstopping.trans h.stopping, hnone.not.mpr h.thread, hend,
          heventfd.trans h.eventfd⟩, hcloser⟩
  | start opens =>
    rw [proceed, hcall.1]
    exact Or.inr ⟨h, Nat.le_refl _⟩
  | stop =>
    rw [proceed, hcall.2]
    exact Or.inr ⟨h, Nat.le_refl _⟩
  | go =>
    have hblocked : s.ownerStep = s := by simp only [ownerStep, h.owner, if_neg h.runs]
    rw [proceed, hblocked]
    exact Or.inr ⟨h, Nat.le_refl _⟩

theorem leaving_step (h : s.Leaving) (e : PollerEvent) :
    (step cfg s e).Stopped ∨
      (step cfg s e).Leaving ∧ (step cfg s e).goesLeft + e.isGo.toNat ≤ s.goesLeft := by
  have hcall := s.call_of_inside (by rcases h.place with hat | hat | hat <;> rw [hat.1] <;> exact nofun)
  rw [step_live h.live]
  cases e with
  | arrive q => exact Or.inr ⟨⟨h.live, h.stopping, h.eventfd, h.place⟩, Nat.le_refl _⟩
  | turn t =>
    have hover : s.threadStep cfg t = s := by
      rcases h.place with hat | hat | hat <;> simp only [threadStep, hat.2]
    rw [proceed, hover]
    exact Or.inr ⟨h, Nat.le_refl _⟩
  | start opens =>
    rw [proceed, hcall.1]
    exact Or.inr ⟨h, Nat.le_refl _⟩
  | stop =>
    rw [proceed, hcall.2]
    exact Or.inr ⟨h, Nat.le_refl _⟩
  | go =>
    rw [proceed, ownerStep, goesLeft, goesLeft]
    rcases h.place with hat | hat | hat
    · simp only [hat.1, hat.2, if_true]
      exact Or.inr ⟨⟨h.live, h.stopping, h.eventfd, Or.inr (Or.inl ⟨rfl, rfl⟩)⟩, Nat.le_refl _⟩
    · simp only [hat.1]
      exact Or.inr ⟨⟨h.live, h.stopping, h.eventfd, Or.inr (Or.inr ⟨rfl, rfl⟩)⟩, Nat.le_refl _⟩
    · simp only [hat.1]
      exact Or.inl ⟨rfl, hat.2, rfl, rfl⟩

theorem stopped_step (h : s.Stopped) {e : PollerEvent} (he : e.isStart = false) :
    (step cfg s e).Stopped ∧ s.handled e = none := by
  unfold step
  cases e with
  | arrive q => exact ⟨by split <;> exact ⟨h.owner, h.thread, h.stopping, h.eventfd⟩, rfl⟩
  | turn t =>
    have hkept : s.threadStep cfg t = s := by simp only [threadStep, h.thread]
    have hnone : s.handling t = none := by simp only [handling, h.thread]
    rw [proceed, hkept, ite_self, handled, hnone, ite_self]
    exact ⟨h, rfl⟩
  | start opens => cases he
  | stop =>
    have hkept : s.callStop = s := by simp only [callStop, h.owner, h.thread]
    rw [proceed, hkept, ite_self]
    exact ⟨h, rfl⟩
  | go =>
    have hkept : s.ownerStep = s := by simp only [ownerStep, h.owner]
    rw [proceed, hkept, ite_self]
    exact ⟨h, rfl⟩

/-- Nothing is handled without a thread, and there is none before the next `start`. -/
theorem stopped_silent (h : s.Stopped) {es : List PollerEvent} (hes : ∀ e ∈ es, e.isStart = false) :
    (machine cfg).outputs handled s es = [] ∧ ((machine cfg).run s es).Stopped := by
  induction es generalizing s with
  | nil => exact ⟨rfl, h⟩
  | cons e es ih =>
    have hnext : (step cfg s e).Stopped ∧ s.handled e = none := stopped_step h (hes e List.mem_cons_self)
    have hrest := ih hnext.1 fun e' he' => hes e' (List.mem_cons_of_mem e he')
    refine ⟨?_, hrest.2⟩
    show (s.handled e).toList ++ (machine cfg).outputs handled (step cfg s e) es = []
    rw [hnext.2, hrest.1]
    rfl

/-! ## The end of `stop` -/

theorem turnsLeft_lt (cfg : DaemonConfig) (w : FileSystemWatcher) (es : List PollerEvent)
    (hlive : ((machine cfg).run (init w) es).terminated = false) :
    ((machine cfg).run (init w) es).turnsLeft < 66 := by
  obtain ⟨done, left, hall⟩ := delivered_run cfg w es
  have hbuffered := hall.buffered hlive
  unfold Buffered at hbuffered
  unfold turnsLeft
  split
  · exact Nat.lt_of_sub_eq_succ rfl
  · next buffer u len hthread =>
    rw [hthread] at hbuffered
    have hle : len ≤ bufferSize := hbuffered.2.2
    rw [bufferSize] at hle
    omega
  · exact Nat.succ_pos 65

/-- The owner who waits in `stop` does so for a thread that goes on, or leaves. -/
theorem joining_or_leaving (hc : s.Consistent) (hlive : s.terminated = false) (hjoin : s.owner = .join) :
    s.Joining ∨ s.Leaving := by
  unfold Consistent at hc
  rw [hjoin] at hc
  by_cases hended : s.thread = some .ended
  · exact Or.inr ⟨hlive, hc.1, hc.2.2, Or.inl ⟨hjoin, hended⟩⟩
  · exact Or.inl ⟨hlive, hjoin, hc.1, hc.2.1, hended, hc.2.2⟩

theorem leaving_stops (cfg : DaemonConfig) (h : s.Leaving) {es : List PollerEvent}
    (hgos : 3 ≤ es.countP PollerEvent.isGo) :
    ∃ past, past <+: es ∧ ((machine cfg).run s past).Stopped := by
  refine (machine cfg).reaches (P := Leaving) goesLeft PollerEvent.isGo (fun _ e hs _ => leaving_step hs e) h
    ((machine cfg).along_true s es) (Nat.lt_of_lt_of_le ?_ hgos)
  unfold goesLeft
  split <;> omega

theorem joining_stops (h : s.Joining) {turns gos : List PollerEvent}
    (hturns : s.turnsLeft < turns.countP PollerEvent.isTurn) (hgos : 3 ≤ gos.countP PollerEvent.isGo) :
    ∃ past, past <+: turns ++ gos ∧
      (((machine cfg).run s past).terminated = true ∨ ((machine cfg).run s past).Stopped) := by
  obtain ⟨past, ⟨rest, rfl⟩, hreached⟩ := (machine cfg).reaches (P := Joining)
    (Q := fun s => s.terminated = true ∨ s.Leaving) turnsLeft PollerEvent.isTurn
    (fun _ e hs _ => joining_step hs e) h ((machine cfg).along_true s turns) hturns
  rcases hreached with hterm | hleaving
  · exact ⟨past, ⟨rest ++ gos, (List.append_assoc past rest gos).symm⟩, Or.inl hterm⟩
  have hcount : 3 ≤ (rest ++ gos).countP PollerEvent.isGo := by
    rw [List.countP_append]
    exact Nat.le_add_left_of_le hgos
  obtain ⟨past', ⟨rest', hrest'⟩, hstopped⟩ := leaving_stops cfg hleaving hcount
  refine ⟨past ++ past', ⟨rest', ?_⟩, Or.inr ?_⟩
  · rw [List.append_assoc, hrest', List.append_assoc]
  · rwa [Machine.run_append]

/-- `stop` returns: if the owner waits for the thread, 66 turns of the thread and three steps of the owner are
enough, whatever arrives and happens besides, or a report ends the program. And nothing is handled any more
until the next `start`. -/
theorem stop_returns (cfg : DaemonConfig) (w : FileSystemWatcher) (es turns gos : List PollerEvent)
    (hjoin : ((machine cfg).run (init w) es).owner = .join)
    (hturns : 66 ≤ turns.countP PollerEvent.isTurn) (hgos : 3 ≤ gos.countP PollerEvent.isGo) :
    ∃ past, past <+: turns ++ gos ∧ (((machine cfg).run (init w) (es ++ past)).terminated = true ∨
      ((machine cfg).run (init w) (es ++ past)).Stopped ∧
        ∀ more, (∀ e ∈ more, PollerEvent.isStart e = false) →
          (machine cfg).outputs handled ((machine cfg).run (init w) (es ++ past)) more = []) := by
  have hreturns : ∃ past, past <+: turns ++ gos ∧
      (((machine cfg).run ((machine cfg).run (init w) es) past).terminated = true ∨
        ((machine cfg).run ((machine cfg).run (init w) es) past).Stopped) := by
    cases hlive : ((machine cfg).run (init w) es).terminated with
    | true => exact ⟨[], List.nil_prefix, Or.inl hlive⟩
    | false =>
      rcases joining_or_leaving (consistent_run w es) hlive hjoin with hjoining | hleaving
      · exact joining_stops hjoining (Nat.lt_of_lt_of_le (turnsLeft_lt cfg w es hlive) hturns) hgos
      · have hcount : 3 ≤ (turns ++ gos).countP PollerEvent.isGo := by
          rw [List.countP_append]
          exact Nat.le_add_left_of_le hgos
        obtain ⟨past, hpast, hstopped⟩ := leaving_stops cfg hleaving hcount
        exact ⟨past, hpast, Or.inr hstopped⟩
  obtain ⟨past, hpast, hend⟩ := hreturns
  rw [← Machine.run_append] at hend
  exact ⟨past, hpast, hend.imp_right fun hstopped =>
    ⟨hstopped, fun more hmore => (stopped_silent hstopped hmore).1⟩⟩

/-- A turn in which nothing is read and no time passes. -/
def idleTurn : PollerEvent := .turn ⟨false, [], 0, fun _ => none, fun _ => ⟨fun _ => none, true⟩⟩

/-- The watcher is started, and stopped while the thread waits. -/
theorem stop_returns_started :
    ∃ past, past <+: List.replicate 66 idleTurn ++ List.replicate 3 .go ∧
      (((machine gCfg).run (init .init)
          ([.start true, .go, .go, idleTurn, .stop, .go] ++ past)).terminated = true ∨
        ((machine gCfg).run (init .init)
            ([.start true, .go, .go, idleTurn, .stop, .go] ++ past)).Stopped ∧
          ∀ more, (∀ e ∈ more, PollerEvent.isStart e = false) →
            (machine gCfg).outputs handled ((machine gCfg).run (init .init)
              ([.start true, .go, .go, idleTurn, .stop, .go] ++ past)) more = []) :=
  stop_returns gCfg .init [.start true, .go, .go, idleTurn, .stop, .go] (List.replicate 66 idleTurn)
    (List.replicate 3 .go) rfl (by decide) (by decide)

end Poller
end MediaArchiver
