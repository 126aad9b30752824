/-
# MediaArchiver.Watcher.Poller -- the thread of the watcher, and who starts and stops it

`threadMain` waits in `select` for events or for a number in the event descriptor, reads a buffer full of
events, and handles one after the other. `stop` sets a flag, writes to the event descriptor, waits for the
thread and closes the descriptor; `start` opens it, resets the flag and makes the thread. Kernel, thread and
owner take turns in any order, each one statement at a time.

What a turn of the thread does is one of five things (`Turned`). What the owner can rely on at each point of
`start` and `stop` is an invariant (`Consistent`): there is a thread only while the descriptor is open, the
thread ends only if it was told to, and the number in the descriptor is 0 unless `stop` wrote it.
-/
import MediaArchiver.Watcher.Buffer
import MediaArchiver.Watcher.Vanished

namespace MediaArchiver

open Lib (Machine)

/-! ## The parties -/

/-- Where the thread is. -/
inductive ThreadPoint where
  /-- At `while(!m_stopping)`. -/
  | testing
  /-- In `select`. -/
  | selecting
  /-- At `while(u < len)`, with the memory from the start of the buffer on. -/
  | handling (buffer : List UInt8) (u len : Nat)
  | ended
deriving DecidableEq

/-- Where the owner of the watcher is, by what it does next. -/
inductive OwnerPoint where
  | outside
  /-- In `start`: `m_stopping = false`. -/
  | clear
  /-- In `start`: make the thread. -/
  | make
  /-- In `stop`: write to the event descriptor. -/
  | wake
  /-- In `stop`: wait for the thread. -/
  | join
  /-- In `stop`: forget the thread. -/
  | forget
  /-- In `stop`: `m_stopping = false`, and close the event descriptor. -/
  | close
deriving DecidableEq

/-- The watcher with its thread. A descriptor that is closed is `none`, else it has its counter. -/
structure Poller where
  queue : List QueuedEvent
  watcher : FileSystemWatcher
  stopping : Bool
  eventfd : Option Nat
  thread : Option ThreadPoint
  owner : OwnerPoint
  terminated : Bool

/-- What the environment decides when the thread takes a step: whether a signal ends `select`, what lies
behind the bytes that are read, the time, the answers of `inotify_add_watch`, and what the reports meet. -/
structure Turn where
  interrupted : Bool
  behind : List UInt8
  now : Nat
  addWatch : Path → Option Int
  meets : Nat → Surroundings

/-- The kernel queues an event, the thread takes a step, the owner calls `start` or `stop`, or goes on. -/
inductive PollerEvent where
  | arrive (q : QueuedEvent)
  | turn (t : Turn)
  | start (opens : Bool)
  | stop
  | go

namespace PollerEvent

/-- The thread takes a turn. -/
def isTurn : PollerEvent → Bool
  | .turn _ => true
  | _ => false

/-- The owner goes on. -/
def isGo : PollerEvent → Bool
  | .go => true
  | _ => false

/-- The owner calls `start`. -/
def isStart : PollerEvent → Bool
  | .start _ => true
  | _ => false

end PollerEvent

/-- `read` takes as many events as there is room for. -/
def kernelRead : Nat → List QueuedEvent → List QueuedEvent × List QueuedEvent
  | _, [] => ([], [])
  | room, q :: qs =>
      if q.bytes.length ≤ room then
        let (read, rest) := kernelRead (room - q.bytes.length) qs
        (q :: read, rest)
      else ([], q :: qs)

/-- The bytes of several events. -/
def bytesOf (qs : List QueuedEvent) : List UInt8 := qs.flatMap QueuedEvent.bytes

namespace Poller

/-- A watcher that is not started yet. -/
def init (w : FileSystemWatcher) : Poller := ⟨[], w, false, none, none, .outside, false⟩

/-- The event that the thread handles in this turn. -/
def handling (s : Poller) (t : Turn) : Option (Arrival × (Nat → Surroundings)) :=
  match s.thread with
  | some (.handling buffer u len) =>
      if u < len then some (⟨eventAt (buffer.drop u), t.now, t.addWatch⟩, t.meets) else none
  | _ => none

/-- The thread takes a step. -/
def threadStep (cfg : DaemonConfig) (s : Poller) (t : Turn) : Poller :=
  match s.thread with
  | none | some .ended => s
  | some .testing =>
      if s.stopping then { s with thread := some .ended } else { s with thread := some .selecting }
  | some .selecting =>
      if t.interrupted then { s with thread := some .testing }
      else if 0 < s.eventfd.getD 0 then
        -- an internal request, and the number stays there
        { s with thread := some .testing }
      else
        match kernelRead bufferSize s.queue with
        | ([], _) => s
        | (read, rest) =>
            { s with
              queue := rest
              thread := some (.handling (bytesOf read ++ t.behind) 0 (bytesOf read).length) }
  | some (.handling buffer u len) =>
      if u < len then
        let a : Arrival := ⟨eventAt (buffer.drop u), t.now, t.addWatch⟩
        match cfg.listenAll (s.watcher.reportsOf (a, t.meets)) with
        | .returned =>
            { s with
              watcher := (s.watcher.handle a).watcher
              thread := some (.handling buffer (u + (inotifyEventSize + lenAt (buffer.drop u))) len) }
        -- nothing catches it in the thread
        | .threw _ | .terminated => { s with terminated := true }
      else { s with thread := some .testing }

/-- The owner calls `start`. It throws if there can be no event descriptor. -/
def callStart (s : Poller) (opens : Bool) : Poller :=
  match s.owner, s.eventfd with
  | .outside, some _ => { s with owner := .clear }
  | .outside, none => if opens then { s with eventfd := some 0, owner := .clear } else s
  | _, _ => s

/-- The owner calls `stop`, which does nothing without a thread. -/
def callStop (s : Poller) : Poller :=
  match s.owner, s.thread with
  | .outside, some _ => { s with stopping := true, owner := .wake }
  | _, _ => s

/-- The owner goes on in `start` or `stop`. -/
def ownerStep (s : Poller) : Poller :=
  match s.owner with
  | .outside => s
  | .clear => { s with stopping := false, owner := .make }
  | .make => { s with thread := some (s.thread.getD .testing), owner := .outside }
  | .wake => { s with eventfd := s.eventfd.map (· + 1), owner := .join }
  | .join => if s.thread = some .ended then { s with owner := .forget } else s
  | .forget => { s with thread := none, owner := .close }
  | .close => { s with stopping := false, eventfd := none, owner := .outside }

/-- What happens as long as the program runs. -/
def proceed (cfg : DaemonConfig) (s : Poller) : PollerEvent → Poller
  | .arrive q => { s with queue := s.queue ++ [q] }
  | .turn t => s.threadStep cfg t
  | .start opens => s.callStart opens
  | .stop => s.callStop
  | .go => s.ownerStep

def step (cfg : DaemonConfig) (s : Poller) (e : PollerEvent) : Poller :=
  if s.terminated then s else s.proceed cfg e

def machine (cfg : DaemonConfig) : Machine Poller PollerEvent := ⟨step cfg⟩

/-- The event that arrives. -/
def arriving (s : Poller) : PollerEvent → Option QueuedEvent
  | .arrive q => if s.terminated then none else some q
  | _ => none

/-- What the thread handles. -/
def handled (s : Poller) : PollerEvent → Option (Arrival × (Nat → Surroundings))
  | .turn t => if s.terminated then none else s.handling t
  | _ => none

variable {cfg : DaemonConfig} {s : Poller} {t : Turn}

/-! ## What a turn does -/

/-- The event that the thread handles next. -/
def arrival (t : Turn) (buffer : List UInt8) (u : Nat) : Arrival :=
  ⟨eventAt (buffer.drop u), t.now, t.addWatch⟩

/-- What a turn does. -/
inductive Turned (cfg : DaemonConfig) (s : Poller) (t : Turn) : Poller → Prop where
  /-- There is nothing to do. -/
  | stays (hnone : s.handling t = none) : Turned cfg s t s
  /-- The thread goes on without an event. -/
  | goes (p : ThreadPoint) (hnone : s.handling t = none)
      (hruns : s.thread ≠ none ∧ s.thread ≠ some .ended)
      (hp : p = .testing ∨ p = .selecting ∨ p = .ended ∧ s.stopping = true)
      (hdone : ∀ buffer u len, s.thread = some (.handling buffer u len) → len ≤ u) :
      Turned cfg s t { s with thread := some p }
  | reads (hnone : s.handling t = none) (hthread : s.thread = some .selecting) :
      Turned cfg s t { s with
        queue := (kernelRead bufferSize s.queue).2
        thread := some (.handling (bytesOf (kernelRead bufferSize s.queue).1 ++ t.behind) 0
          (bytesOf (kernelRead bufferSize s.queue).1).length) }
  | handles (buffer : List UInt8) (u len : Nat) (hthread : s.thread = some (.handling buffer u len))
      (hlt : u < len) (hsome : s.handling t = some (arrival t buffer u, t.meets))
      (hlisten : cfg.listenAll (s.watcher.reportsOf (arrival t buffer u, t.meets)) = .returned) :
      Turned cfg s t { s with
        watcher := (s.watcher.handle (arrival t buffer u)).watcher
        thread := some (.handling buffer (u + (inotifyEventSize + lenAt (buffer.drop u))) len) }
  /-- A report does not return, which ends the program. -/
  | fails (buffer : List UInt8) (u len : Nat) (hthread : s.thread = some (.handling buffer u len))
      (hlt : u < len) (hsome : s.handling t = some (arrival t buffer u, t.meets))
      (hlisten : cfg.listenAll (s.watcher.reportsOf (arrival t buffer u, t.meets)) ≠ .returned) :
      Turned cfg s t { s with terminated := true }

theorem threadStep_turned (cfg : DaemonConfig) (s : Poller) (t : Turn) :
    Turned cfg s t (s.threadStep cfg t) := by
  obtain ⟨queue, watcher, stopping, eventfd, thread, owner, terminated⟩ := s
  rcases thread with _ | _ | _ | ⟨buffer, u, len⟩ | _
  · exact .stays rfl
  · cases stopping with
    | true => exact .goes .ended rfl ⟨nofun, nofun⟩ (Or.inr (Or.inr ⟨rfl, rfl⟩)) (fun _ _ _ => nofun)
    | false => exact .goes .selecting rfl ⟨nofun, nofun⟩ (Or.inr (Or.inl rfl)) (fun _ _ _ => nofun)
  · unfold threadStep
    dsimp only
    split
    · exact .goes .testing rfl ⟨nofun, nofun⟩ (Or.inl rfl) (fun _ _ _ => nofun)
    split
    · exact .goes .testing rfl ⟨nofun, nofun⟩ (Or.inl rfl) (fun _ _ _ => nofun)
    split
    · exact .stays rfl
    · next read rest _ hread =>
      have hreads : Turned cfg ⟨queue, watcher, stopping, eventfd, some .selecting, owner, terminated⟩ t _ :=
        .reads rfl rfl
      rwa [hread] at hreads
  · unfold threadStep
    dsimp only
    split
    · next hlt =>
      have hsome : handling
          ⟨queue, watcher, stopping, eventfd, some (.handling buffer u len), owner, terminated⟩ t
          = some (arrival t buffer u, t.meets) := if_pos hlt
      cases hlisten : cfg.listenAll (watcher.reportsOf (arrival t buffer u, t.meets)) with
      | returned =>
        have hturned : Turned cfg _ t _ := .handles buffer u len rfl hlt hsome hlisten
        unfold arrival at hlisten
        rw [hlisten]
        exact hturned
      | threw x =>
        have hturned : Turned cfg _ t _ := .fails buffer u len rfl hlt hsome (by rw [hlisten]; exact nofun)
        unfold arrival at hlisten
        rw [hlisten]
        exact hturned
      | terminated =>
        have hturned : Turned cfg _ t _ := .fails buffer u len rfl hlt hsome (by rw [hlisten]; exact nofun)
        unfold arrival at hlisten
        rw [hlisten]
        exact hturned
    · next hle =>
      refine .goes .testing (if_neg hle) ⟨nofun, nofun⟩ (Or.inl rfl) fun buffer' u' len' h => ?_
      cases h
      exact Nat.le_of_not_lt hle
  · exact .stays rfl

theorem step_live (hlive : s.terminated = false) (e : PollerEvent) : step cfg s e = s.proceed cfg e := by
  rw [step, hlive, if_neg Bool.false_ne_true]

/-! ## Start and stop -/

/-- What the owner can rely on, wherever it is. The counter is not 0 from `stop` on only, and the descriptor
is open as long as there is a thread. -/
def Consistent (s : Poller) : Prop :=
  match s.owner with
  | .outside => s.stopping = false ∧ s.thread ≠ some .ended ∧
      s.eventfd = if s.thread = none then none else some 0
  | .clear | .make => s.stopping = false ∧ s.thread ≠ some .ended ∧ s.eventfd = some 0
  | .wake => s.stopping = true ∧ s.thread ≠ none ∧ s.eventfd = some 0
  | .join => s.stopping = true ∧ s.thread ≠ none ∧ s.eventfd = some 1
  | .forget => s.stopping = true ∧ s.thread = some .ended ∧ s.eventfd = some 1
  | .close => s.stopping = true ∧ s.thread = none ∧ s.eventfd = some 1

/-- The thread leaves alone what the owner sets, and ends only if it is to. -/
theorem threadStep_frame (cfg : DaemonConfig) (s : Poller) (t : Turn) :
    (s.threadStep cfg t).stopping = s.stopping ∧ (s.threadStep cfg t).eventfd = s.eventfd ∧
      (s.threadStep cfg t).owner = s.owner ∧
      ((s.threadStep cfg t).thread = none ↔ s.thread = none) ∧
      (s.thread = some .ended → (s.threadStep cfg t).thread = some .ended) ∧
      ((s.threadStep cfg t).thread = some .ended → s.thread = some .ended ∨ s.stopping = true) := by
  have hturned := s.threadStep_turned cfg t
  generalize s.threadStep cfg t = s' at hturned ⊢
  cases hturned with
  | stays hnone => exact ⟨rfl, rfl, rfl, Iff.rfl, id, Or.inl⟩
  | goes p hnone hruns hp hdone =>
    refine ⟨rfl, rfl, rfl, iff_of_false nofun hruns.1, fun h => absurd h hruns.2, fun h => Or.inr ?_⟩
    cases h
    exact ((hp.resolve_left nofun).resolve_left nofun).2
  | reads hnone hthread =>
    refine ⟨rfl, rfl, rfl, iff_of_false nofun ?_, fun h => ?_, nofun⟩ <;> rw [hthread] at *
    · exact nofun
    · cases h
  | handles buffer u len hthread hlt hsome hlisten =>
    refine ⟨rfl, rfl, rfl, iff_of_false nofun ?_, fun h => ?_, nofun⟩ <;> rw [hthread] at *
    · exact nofun
    · cases h
  | fails buffer u len hthread hlt hsome hlisten => exact ⟨rfl, rfl, rfl, Iff.rfl, id, Or.inl⟩

theorem consistent_threadStep (h : s.Consistent) : (s.threadStep cfg t).Consistent := by
  obtain ⟨hstopping, heventfd, howner, hnone, hstays, hended⟩ := threadStep_frame cfg s t
  unfold Consistent at h ⊢
  rw [howner]
  have hruns : s.stopping = false → s.thread ≠ some .ended → (s.threadStep cfg t).thread ≠ some .ended := by
    intro hflag hnot hend
    rcases hended hend with hend | htrue
    · exact hnot hend
    · exact absurd (hflag.symm.trans htrue) Bool.false_ne_true
  rw [hstopping, heventfd]
  cases hat : s.owner <;> simp only [hat] at h ⊢
  case outside => exact ⟨h.1, hruns h.1 h.2.1, by simp only [hnone]; exact h.2.2⟩
  case clear => exact ⟨h.1, hruns h.1 h.2.1, h.2.2⟩
  case make => exact ⟨h.1, hruns h.1 h.2.1, h.2.2⟩
  case wake => exact ⟨h.1, hnone.not.mpr h.2.1, h.2.2⟩
  case join => exact ⟨h.1, hnone.not.mpr h.2.1, h.2.2⟩
  case forget => exact ⟨h.1, hstays h.2.1, h.2.2⟩
  case close => exact ⟨h.1, hnone.mpr h.2.1, h.2.2⟩

theorem consistent_callStart (h : s.Consistent) (opens : Bool) : (s.callStart opens).Consistent := by
  obtain ⟨queue, watcher, stopping, eventfd, thread, owner, terminated⟩ := s
  cases owner <;> try exact h
  obtain ⟨hflag, hruns, hfd⟩ : stopping = false ∧ thread ≠ some .ended ∧
      eventfd = if thread = none then none else some 0 := h
  cases thread with
  | none =>
    rw [if_pos rfl] at hfd
    subst hfd
    cases opens with
    | true => exact ⟨hflag, hruns, rfl⟩
    | false => exact ⟨hflag, hruns, rfl⟩
  | some p =>
    rw [if_neg (Option.some_ne_none p)] at hfd
    subst hfd
    exact ⟨hflag, hruns, rfl⟩

theorem consistent_callStop (h : s.Consistent) : s.callStop.Consistent := by
  obtain ⟨queue, watcher, stopping, eventfd, thread, owner, terminated⟩ := s
  cases owner <;> try exact h
  cases thread with
  | none => exact h
  | some p => exact ⟨rfl, Option.some_ne_none p, h.2.2⟩

theorem consistent_ownerStep (h : s.Consistent) : s.ownerStep.Consistent := by
  obtain ⟨queue, watcher, stopping, eventfd, thread, owner, terminated⟩ := s
  cases owner with
  | outside => exact h
  | clear => exact ⟨rfl, h.2.1, h.2.2⟩
  | make =>
    cases thread with
    | none => exact ⟨h.1, by simp [ownerStep], h.2.2⟩
    | some p => exact ⟨h.1, h.2.1, h.2.2⟩
  | wake => exact ⟨h.1, h.2.1, congrArg (Option.map (· + 1)) h.2.2⟩
  | join =>
    show (if thread = some .ended then _ else _ : Poller).Consistent
    split
    · next hended => exact ⟨h.1, hended, h.2.2⟩
    · exact h
  | forget => exact ⟨h.1, rfl, h.2.2⟩
  | close =>
    obtain ⟨-, hnone, -⟩ : _ ∧ thread = none ∧ _ := h
    subst hnone
    exact ⟨rfl, nofun, rfl⟩

theorem consistent_step (h : s.Consistent) (e : PollerEvent) : (step cfg s e).Consistent := by
  unfold step
  split
  · exact h
  unfold proceed
  cases e with
  | arrive q => exact h
  | turn t => exact consistent_threadStep h
  | start opens => exact consistent_callStart h opens
  | stop => exact consistent_callStop h
  | go => exact consistent_ownerStep h

theorem consistent_run (w : FileSystemWatcher) (es : List PollerEvent) :
    ((machine cfg).run (init w) es).Consistent :=
  have hinit : (init w).Consistent := ⟨rfl, nofun, rfl⟩
  (machine cfg).invariant_always (P := Consistent) (fun _ e h => consistent_step h e) hinit es

end Poller
end MediaArchiver
