/-
# MediaArchiver.Daemon.MoverLoop -- the loop of `start`, and the mutex of the mover's queue

The thread in `start` goes round a loop: it waits for an entry, takes it, lets go of the mutex, moves the
file, and takes the mutex again. Meanwhile the sessions go on; a call that hands a file over does so under
the mutex and notifies. `MoverLoop` is the daemon together with the point where the thread is; between two
steps of the thread it has the mutex at some of the points (`LoopPoint.hasMutex`), and a call that needs the
mutex then does not get through.

Every step is one of the daemon or none at all (`step_refines`), so what the other modules say about all
runs of the daemon holds here. What the loop adds: entries are taken in the order in which they came, each
once, and each of them gets one record (`mover_delivers`); and the thread never waits for an entry that is
there already. The step that `wait` may take without any notification is an event of its own.
-/
import MediaArchiver.Daemon.Sessions

namespace MediaArchiver

open Lib (Machine Table)

/-! ## The thread -/

/-- Where the thread in `start` is. -/
inductive LoopPoint where
  /-- It asks for the mutex. -/
  | locking
  /-- At `while(!m_stopRequested || !isIdle())`. -/
  | condition
  /-- In `m_cv.wait`. -/
  | waiting (notified : Bool)
  /-- At `if(m_stopRequested && isIdle())`. -/
  | check
  /-- It has taken an entry and let go of the mutex. -/
  | working
  /-- In `isIdle`, which asks for the mutex that the thread has. -/
  | inIsIdle
deriving DecidableEq

namespace LoopPoint

/-- The thread has the mutex. -/
def hasMutex : LoopPoint → Bool
  | .condition | .check | .inIsIdle => true
  | .locking | .waiting _ | .working => false

/-- `notify_all` -/
def notify : LoopPoint → LoopPoint
  | .waiting _ => .waiting true
  | p => p

end LoopPoint

namespace DaemonEvent

/-- The event is neither of the mover nor the end of the daemon. -/
def outside : DaemonEvent → Bool
  | .moverTake | .moverFinish _ | .restart => false
  | _ => true

end DaemonEvent

namespace Daemon

/-- The entry that a call hands over to the mover. -/
def queuedBy (cfg : DaemonConfig) (d : Daemon) : DaemonEvent → Option FileToMove
  | .postFile id opens result => (d.session id).bind fun cli => (cli.postFile cfg opens result).queued
  | .writeChunk id written flushed data =>
      (d.session id).bind fun cli => (cli.writeChunk cfg written flushed data).queued
  | _ => none

/-- The call takes the mutex. -/
def takesMutex (cfg : DaemonConfig) (d : Daemon) : DaemonEvent → Bool
  | .authenticate .. => true
  -- `abort` takes it if there is something to give up
  | .abort id => (d.session id).any fun cli => cli.inFile.isOpen || cli.outFile.isOpen
  | e => (d.queuedBy cfg e).isSome

/-- What a call does to the mover's side of the daemon. -/
theorem step_outside (cfg : DaemonConfig) (d : Daemon) {e : DaemonEvent} (h : e.outside = true) :
    ((machine cfg).step d e).filesToMove = d.filesToMove ++ (d.queuedBy cfg e).toList ∧
      ((machine cfg).step d e).moving = d.moving ∧
      (((machine cfg).step d e).stopRequested = true ↔ d.stopRequested = true ∨ e = .stop) := by
  show (step cfg d e).filesToMove = _ ∧ (step cfg d e).moving = _ ∧
    ((step cfg d e).stopRequested = true ↔ _)
  cases e with
  | authenticate id junk token => simp [step, queuedBy]
  | reset id flushed => cases hcli : d.session id <;> simp [step, hcli, call, queuedBy, store]
  | abort id =>
    cases hcli : d.session id with
    | none => simp [step, hcli, queuedBy]
    | some cli =>
      simp only [step, hcli, call, abort, queuedBy]
      split <;> simp [store]
  | getNextFile id limit src filter => cases hcli : d.session id <;> simp [step, hcli, call, queuedBy, store]
  | readChunk id avail => cases hcli : d.session id <;> simp [step, hcli, call, queuedBy, store]
  | postFile id opens result => cases hcli : d.session id <;> simp [step, hcli, call, queuedBy, store]
  | writeChunk id written flushed data =>
    cases hcli : d.session id <;> simp [step, hcli, call, queuedBy, store]
  | fileSystemChange getFileSize e dst =>
    simp only [step, fileSystemChange, queuedBy]
    split <;> simp
  | stop => simp [step, queuedBy]
  | moverTake => cases h
  | moverFinish outcome => cases h
  | restart => cases h

end Daemon

/-! ## The system -/

/-- The daemon, and where the thread in `start` is. -/
structure MoverLoop where
  daemon : Daemon
  point : LoopPoint

/-- A call gets to the daemon, the thread takes a step, or `wait` returns without a notification. -/
inductive MoverEvent where
  | call (e : DaemonEvent)
  | loop (outcome : MoveOutcome)
  | wake

namespace MoverLoop

/-- The thread gets to the loop. -/
def start (db : Store) : MoverLoop := ⟨.start db, .locking⟩

/-- The call does not have to wait for the mutex. -/
def goesThrough (cfg : DaemonConfig) (s : MoverLoop) (e : DaemonEvent) : Bool :=
  e.outside && !(s.daemon.takesMutex cfg e && s.point.hasMutex)

/-- One step of the thread. -/
def loopStep (s : MoverLoop) (outcome : MoveOutcome) : MoverLoop :=
  match s.point with
  | .locking => { s with point := .condition }
  | .condition =>
      if s.daemon.stopRequested then { s with point := .inIsIdle }
      else if s.daemon.filesToMove.isEmpty then { s with point := .waiting false }
      else { s with point := .check }
  | .waiting notified => if notified then { s with point := .check } else s
  | .check =>
      if s.daemon.stopRequested then { s with point := .inIsIdle }
      else
        match s.daemon.filesToMove with
        | [] => { s with point := .condition }
        | ftm :: _ => ⟨s.daemon.moverTake, if ftm.result.originalFileId = 0 then .condition else .working⟩
  | .working => ⟨s.daemon.moverFinish outcome, .locking⟩
  -- the mutex is not recursive
  | .inIsIdle => s

def step (cfg : DaemonConfig) (s : MoverLoop) : MoverEvent → MoverLoop
  | .call e =>
      if s.goesThrough cfg e then
        ⟨(Daemon.machine cfg).step s.daemon e,
          if (s.daemon.queuedBy cfg e).isSome then s.point.notify else s.point⟩
      else s
  | .loop outcome => s.loopStep outcome
  | .wake =>
      match s.point with
      | .waiting _ => { s with point := .check }
      | _ => s

def machine (cfg : DaemonConfig) : Machine MoverLoop MoverEvent := ⟨step cfg⟩

/-! ## What the thread does -/

/-- The ways in which the thread takes a step. -/
inductive LoopDoes (s : MoverLoop) (outcome : MoveOutcome) : MoverLoop → Prop
  | lock (hpoint : s.point = .locking) : LoopDoes s outcome { s with point := .condition }
  /-- It looks at the flag, and was asked to stop. -/
  | look (hpoint : s.point = .condition ∨ s.point = .check) (hstop : s.daemon.stopRequested = true) :
      LoopDoes s outcome { s with point := .inIsIdle }
  | wait (hpoint : s.point = .condition) (hgoing : s.daemon.stopRequested = false)
      (hqueue : s.daemon.filesToMove = []) : LoopDoes s outcome { s with point := .waiting false }
  | enter (hpoint : s.point = .condition) (hgoing : s.daemon.stopRequested = false)
      (hqueue : s.daemon.filesToMove ≠ []) : LoopDoes s outcome { s with point := .check }
  | woken (hpoint : s.point = .waiting true) : LoopDoes s outcome { s with point := .check }
  | again (hpoint : s.point = .check) (hgoing : s.daemon.stopRequested = false)
      (hqueue : s.daemon.filesToMove = []) : LoopDoes s outcome { s with point := .condition }
  | drop {ftm rest} (hpoint : s.point = .check) (hgoing : s.daemon.stopRequested = false)
      (hqueue : s.daemon.filesToMove = ftm :: rest) (hid : ftm.result.originalFileId = 0) :
      LoopDoes s outcome ⟨s.daemon.moverTake, .condition⟩
  | take {ftm rest} (hpoint : s.point = .check) (hgoing : s.daemon.stopRequested = false)
      (hqueue : s.daemon.filesToMove = ftm :: rest) (hid : ftm.result.originalFileId ≠ 0) :
      LoopDoes s outcome ⟨s.daemon.moverTake, .working⟩
  | finish (hpoint : s.point = .working) : LoopDoes s outcome ⟨s.daemon.moverFinish outcome, .locking⟩
  /-- It waits, or is stuck. -/
  | rest (hpoint : s.point = .waiting false ∨ s.point = .inIsIdle) : LoopDoes s outcome s

theorem loopStep_does (s : MoverLoop) (outcome : MoveOutcome) : LoopDoes s outcome (s.loopStep outcome) := by
  unfold loopStep
  split
  · rename_i hpoint
    exact .lock hpoint
  · rename_i hpoint
    split
    · rename_i hstop
      exact .look (Or.inl hpoint) hstop
    · rename_i hstop
      split
      · rename_i hqueue
        exact .wait hpoint (Bool.not_eq_true _ ▸ hstop) (List.isEmpty_iff.mp hqueue)
      · rename_i hqueue
        exact .enter hpoint (Bool.not_eq_true _ ▸ hstop) fun h => hqueue (List.isEmpty_iff.mpr h)
  · rename_i notified hpoint
    cases notified with
    | true => exact .woken hpoint
    | false => exact .rest (Or.inl hpoint)
  · rename_i hpoint
    split
    · rename_i hstop
      exact .look (Or.inr hpoint) hstop
    · rename_i hstop
      split
      · rename_i hqueue
        exact .again hpoint (Bool.not_eq_true _ ▸ hstop) hqueue
      · rename_i ftm rest hqueue
        by_cases hid : ftm.result.originalFileId = 0
        · rw [if_pos hid]
          exact .drop hpoint (Bool.not_eq_true _ ▸ hstop) hqueue hid
        · rw [if_neg hid]
          exact .take hpoint (Bool.not_eq_true _ ▸ hstop) hqueue hid
  · rename_i hpoint
    exact .finish hpoint
  · rename_i hpoint
    exact .rest (Or.inr hpoint)

/-- Every step is one of the daemon, or none. -/
theorem step_refines (cfg : DaemonConfig) (s : MoverLoop) (e : MoverEvent) :
    ((machine cfg).step s e).daemon = s.daemon ∨
      ∃ e', ((machine cfg).step s e).daemon = (Daemon.machine cfg).step s.daemon e' := by
  cases e with
  | call e =>
    show (step cfg s (.call e)).daemon = _ ∨ ∃ e', (step cfg s (.call e)).daemon = _
    rw [step]
    split
    · exact Or.inr ⟨e, rfl⟩
    · exact Or.inl rfl
  | loop outcome =>
    show (s.loopStep outcome).daemon = _ ∨ ∃ e', (s.loopStep outcome).daemon = _
    have hdoes := loopStep_does s outcome
    generalize s.loopStep outcome = s' at hdoes ⊢
    cases hdoes with
    | drop => exact Or.inr ⟨.moverTake, rfl⟩
    | take => exact Or.inr ⟨.moverTake, rfl⟩
    | finish => exact Or.inr ⟨.moverFinish outcome, rfl⟩
    | _ => exact Or.inl rfl
  | wake =>
    show (step cfg s .wake).daemon = _ ∨ ∃ e', (step cfg s .wake).daemon = _
    rw [step]
    split <;> exact Or.inl rfl

/-- Every run is one of the daemon, with the calls that got through. -/
theorem run_refines (cfg : DaemonConfig) (s : MoverLoop) (es : List MoverEvent) :
    ∃ es', ((machine cfg).run s es).daemon = (Daemon.machine cfg).run s.daemon es' := by
  induction es generalizing s with
  | nil => exact ⟨[], rfl⟩
  | cons e es ih =>
    obtain ⟨es', hes⟩ := ih ((machine cfg).step s e)
    rw [Machine.run_cons, hes]
    rcases step_refines cfg s e with hstill | ⟨e', hstep⟩
    · exact ⟨es', by rw [hstill]⟩
    · exact ⟨e' :: es', by rw [hstep]; rfl⟩

/-! ## What a step does -/

variable {cfg : DaemonConfig} {s : MoverLoop}

/-- The entry goes by an id, so the thread does not drop it. -/
def hasId (ftm : FileToMove) : Bool := ftm.result.originalFileId ≠ 0

/-- The entry that a step puts into the queue. -/
def pushed (cfg : DaemonConfig) (s : MoverLoop) : MoverEvent → Option FileToMove
  | .call e => if s.goesThrough cfg e then s.daemon.queuedBy cfg e else none
  | _ => none

/-- The entry that a step takes from the queue to work on it. -/
def taken (s : MoverLoop) : MoverEvent → Option FileToMove
  | .loop _ =>
      if s.point = .check ∧ s.daemon.stopRequested = false then s.daemon.filesToMove.head?.filter hasId
      else none
  | _ => none

/-- The entry that a step is done with, and what became of moving it. -/
def finished (s : MoverLoop) : MoverEvent → Option (FileToMove × MoveOutcome)
  | .loop outcome => if s.point = .working then s.daemon.moving.map fun ftm => (ftm, outcome) else none
  | _ => none

/-- The thread works on an entry exactly where it has let go of the mutex to do so; and it does not wait
for an entry that is there. -/
structure Sound (s : MoverLoop) : Prop where
  moving : s.daemon.moving.isSome = true ↔ s.point = .working
  awake : s.point = .waiting false → s.daemon.filesToMove = []

theorem sound_start (db : Store) : Sound (start db) :=
  ⟨by simp [start, Daemon.start], LoopPoint.noConfusion⟩

theorem moving_eq_none (h : Sound s) (hpoint : s.point ≠ .working) : s.daemon.moving = none := by
  cases hmoving : s.daemon.moving with
  | none => rfl
  | some ftm => exact absurd (h.moving.mp (by rw [hmoving]; rfl)) hpoint

/-- At the head of the queue is an entry without an id, or one to work on. -/
theorem moverTake_cons {d : Daemon} {ftm : FileToMove} {rest : List FileToMove} (hmoving : d.moving = none)
    (hqueue : d.filesToMove = ftm :: rest) :
    d.moverTake.filesToMove = rest ∧ d.moverTake.db = d.db ∧
      d.moverTake.stopRequested = d.stopRequested ∧
      d.moverTake.moving = if ftm.result.originalFileId = 0 then none else some ftm := by
  unfold Daemon.moverTake
  rw [hmoving, hqueue]
  dsimp only
  split <;> simp_all

/-- What a step does to the entries: those in the queue and the new one are those that were taken and those
that are in the queue then; those that the thread had or took are those that it is done with or has. -/
structure Accounts (cfg : DaemonConfig) (s : MoverLoop) (e : MoverEvent) : Prop where
  sound : Sound ((machine cfg).step s e)
  queue : (s.daemon.filesToMove ++ (pushed cfg s e).toList).filter hasId
    = (taken s e).toList ++ ((machine cfg).step s e).daemon.filesToMove.filter hasId
  moving : s.daemon.moving.toList ++ (taken s e).toList
    = (finished s e).toList.map Prod.fst ++ ((machine cfg).step s e).daemon.moving.toList

theorem accounts_call (h : Sound s) (e : DaemonEvent) : Accounts cfg s (.call e) := by
  have htaken : taken s (.call e) = none := rfl
  have hfinished : finished s (.call e) = none := rfl
  have hpushed : pushed cfg s (.call e) = if s.goesThrough cfg e then s.daemon.queuedBy cfg e else none := rfl
  have hstep : (machine cfg).step s (.call e) = if s.goesThrough cfg e then
      ⟨(Daemon.machine cfg).step s.daemon e,
        if (s.daemon.queuedBy cfg e).isSome then s.point.notify else s.point⟩ else s := rfl
  by_cases hgoes : s.goesThrough cfg e = true
  · rw [if_pos hgoes] at hpushed hstep
    have houtside : e.outside = true := (Bool.and_eq_true_iff.mp hgoes).1
    obtain ⟨hqueue, hmoving, -⟩ := Daemon.step_outside cfg s.daemon houtside
    constructor
    · rw [hstep]
      constructor
      · show ((Daemon.machine cfg).step s.daemon e).moving.isSome = true ↔ _
        rw [hmoving, h.moving]
        dsimp only
        split
        · cases s.point <;> simp [LoopPoint.notify]
        · exact Iff.rfl
      · intro hpoint
        show ((Daemon.machine cfg).step s.daemon e).filesToMove = []
        dsimp only at hpoint
        split at hpoint
        · cases hp : s.point <;> rw [hp] at hpoint <;> cases hpoint
        · rename_i hnone
          rw [hqueue, h.awake hpoint, Option.not_isSome_iff_eq_none.mp hnone]
          rfl
    · rw [hpushed, htaken, hstep, hqueue]
      rfl
    · rw [htaken, hfinished, hstep, hmoving]
      exact List.append_nil _
  · rw [if_neg hgoes] at hpushed hstep
    constructor
    · rw [hstep]
      exact h
    · rw [hpushed, htaken, hstep, Option.toList_none, List.append_nil]
      rfl
    · rw [htaken, hfinished, hstep]
      exact List.append_nil _

/-- The thread goes from one point to another, and that is all. -/
theorem accounts_point {e : MoverEvent} {p : LoopPoint} (h : Sound s)
    (hstep : (machine cfg).step s e = { s with point := p }) (hpushed : pushed cfg s e = none)
    (htaken : taken s e = none) (hfinished : finished s e = none)
    (hworking : p = .working ↔ s.point = .working)
    (hawake : p = .waiting false → s.daemon.filesToMove = []) : Accounts cfg s e := by
  constructor
  · rw [hstep]
    exact ⟨h.moving.trans hworking.symm, hawake⟩
  · rw [hpushed, htaken, hstep, Option.toList_none, List.append_nil]
    rfl
  · rw [htaken, hfinished, hstep]
    exact List.append_nil _

/-- Only at the check something is taken, and only after working something is done. -/
theorem taken_eq_none (hpoint : s.point ≠ .check) (outcome : MoveOutcome) :
    taken s (.loop outcome) = none :=
  if_neg fun h => hpoint h.1

theorem finished_eq_none (hpoint : s.point ≠ .working) (outcome : MoveOutcome) :
    finished s (.loop outcome) = none :=
  if_neg hpoint

theorem taken_check (hpoint : s.point = .check) (hgoing : s.daemon.stopRequested = false)
    (outcome : MoveOutcome) :
    taken s (.loop outcome) = s.daemon.filesToMove.head?.filter hasId :=
  if_pos ⟨hpoint, hgoing⟩

theorem accounts_loop (h : Sound s) (outcome : MoveOutcome) : Accounts cfg s (.loop outcome) := by
  have hstep : (machine cfg).step s (.loop outcome) = s.loopStep outcome := rfl
  have hpushed : pushed cfg s (.loop outcome) = none := rfl
  have hdoes := loopStep_does s outcome
  generalize s.loopStep outcome = s' at hstep hdoes
  cases hdoes with
  | lock hpoint =>
    exact accounts_point h hstep hpushed (taken_eq_none (by simp [hpoint]) _)
      (finished_eq_none (by simp [hpoint]) _) (by simp [hpoint]) LoopPoint.noConfusion
  | look hpoint hstop =>
    have htaken : taken s (.loop outcome) = none := if_neg fun h => by simp [h.2] at hstop
    have hbusy : s.point ≠ .working := by rcases hpoint with hpoint | hpoint <;> simp [hpoint]
    exact accounts_point h hstep hpushed htaken (finished_eq_none hbusy _) (by simp [hbusy])
      LoopPoint.noConfusion
  | wait hpoint hgoing hqueue =>
    exact accounts_point h hstep hpushed (taken_eq_none (by simp [hpoint]) _)
      (finished_eq_none (by simp [hpoint]) _) (by simp [hpoint]) fun _ => hqueue
  | enter hpoint hgoing hqueue =>
    exact accounts_point h hstep hpushed (taken_eq_none (by simp [hpoint]) _)
      (finished_eq_none (by simp [hpoint]) _) (by simp [hpoint]) LoopPoint.noConfusion
  | woken hpoint =>
    exact accounts_point h hstep hpushed (taken_eq_none (by simp [hpoint]) _)
      (finished_eq_none (by simp [hpoint]) _) (by simp [hpoint]) LoopPoint.noConfusion
  | again hpoint hgoing hqueue =>
    have htaken := taken_check hpoint hgoing outcome
    rw [hqueue] at htaken
    exact accounts_point h hstep hpushed htaken (finished_eq_none (by simp [hpoint]) _) (by simp [hpoint])
      LoopPoint.noConfusion
  | drop hpoint hgoing hqueue hid =>
    rename_i ftm rest
    have hdropped : hasId ftm = false := by simp [hasId, hid]
    have htaken := taken_check hpoint hgoing outcome
    rw [hqueue, List.head?_cons, Option.filter_some, hdropped] at htaken
    have hfinished := finished_eq_none (s := s) (by simp [hpoint]) outcome
    have hnone := moving_eq_none h (by simp [hpoint])
    obtain ⟨hrest, -, -, hmoving⟩ := moverTake_cons hnone hqueue
    rw [if_pos hid] at hmoving
    constructor
    · rw [hstep]
      exact ⟨by simp [hmoving], LoopPoint.noConfusion⟩
    · rw [hpushed, htaken, hstep, hqueue, hrest, Option.toList_none, List.append_nil,
        List.filter_cons_of_neg (by rw [hdropped]; exact Bool.false_ne_true)]
      rfl
    · rw [htaken, hfinished, hstep, hnone, hmoving]
      rfl
  | take hpoint hgoing hqueue hid =>
    rename_i ftm rest
    have hkept : hasId ftm = true := by simp [hasId, hid]
    have htaken := taken_check hpoint hgoing outcome
    rw [hqueue, List.head?_cons, Option.filter_some, hkept] at htaken
    have hfinished := finished_eq_none (s := s) (by simp [hpoint]) outcome
    have hnone := moving_eq_none h (by simp [hpoint])
    obtain ⟨hrest, -, -, hmoving⟩ := moverTake_cons hnone hqueue
    rw [if_neg hid] at hmoving
    constructor
    · rw [hstep]
      exact ⟨by simp [hmoving], LoopPoint.noConfusion⟩
    · rw [hpushed, htaken, hstep, hqueue, hrest, Option.toList_none, List.append_nil,
        List.filter_cons_of_pos hkept]
      rfl
    · rw [htaken, hfinished, hstep, hnone, hmoving]
      rfl
  | finish hpoint =>
    have htaken := taken_eq_none (s := s) (by simp [hpoint]) outcome
    obtain ⟨ftm, hmoving⟩ := Option.isSome_iff_exists.mp (h.moving.mpr hpoint)
    have hfinished : finished s (.loop outcome) = some (ftm, outcome) := by simp [finished, hpoint, hmoving]
    rw [Daemon.moverFinish, hmoving] at hstep
    constructor
    · rw [hstep]
      exact ⟨by simp, LoopPoint.noConfusion⟩
    · rw [hpushed, htaken, hstep, Option.toList_none, List.append_nil]
      rfl
    · rw [htaken, hfinished, hstep, hmoving]
      rfl
  | rest hpoint =>
    have hbusy : s.point ≠ .working := by rcases hpoint with hpoint | hpoint <;> simp [hpoint]
    have hcheck : s.point ≠ .check := by rcases hpoint with hpoint | hpoint <;> simp [hpoint]
    exact accounts_point h hstep hpushed (taken_eq_none hcheck _) (finished_eq_none hbusy _) Iff.rfl h.awake

theorem accounts_wake (h : Sound s) : Accounts cfg s .wake := by
  have hstep : (machine cfg).step s .wake = step cfg s .wake := rfl
  rw [step] at hstep
  cases hpoint : s.point with
  | waiting notified =>
    rw [hpoint] at hstep
    exact accounts_point h hstep rfl rfl rfl (by simp [hpoint]) LoopPoint.noConfusion
  | _ =>
    rw [hpoint] at hstep
    exact accounts_point h hstep rfl rfl rfl Iff.rfl h.awake

theorem step_accounts (h : Sound s) (e : MoverEvent) : Accounts cfg s e := by
  cases e with
  | call e => exact accounts_call h e
  | loop outcome => exact accounts_loop h outcome
  | wake => exact accounts_wake h

/-! ## Runs -/

/-- What was handed over and has an id is what was taken and what is in the queue, in this order; what was
taken is what the thread is done with and what it has. -/
structure Kept (cfg : DaemonConfig) (s₀ : MoverLoop) (past : List MoverEvent) (s : MoverLoop) : Prop where
  sound : Sound s
  queue : ((machine cfg).outputs (pushed cfg) s₀ past).filter hasId
    = (machine cfg).outputs taken s₀ past ++ s.daemon.filesToMove.filter hasId
  moving : (machine cfg).outputs taken s₀ past
    = ((machine cfg).outputs finished s₀ past).map Prod.fst ++ s.daemon.moving.toList

theorem kept_run (cfg : DaemonConfig) (db : Store) (es : List MoverEvent) :
    Kept cfg (start db) es ((machine cfg).run (start db) es) := by
  refine (machine cfg).invariant_past (P := Kept cfg (start db)) (fun past e h _ => ?_)
    ⟨sound_start db, rfl, rfl⟩ (Lib.alongPast_true [] es)
  have hstep : Accounts cfg _ e := step_accounts h.sound e
  refine ⟨hstep.sound, ?_, ?_⟩
  · have hqueue := hstep.queue
    rw [List.filter_append] at hqueue
    rw [Machine.outputs_concat, Machine.outputs_concat, List.filter_append, h.queue, List.append_assoc,
      hqueue, List.append_assoc]
  · rw [Machine.outputs_concat, Machine.outputs_concat, List.map_append, h.moving, List.append_assoc,
      hstep.moving, List.append_assoc]

/-- The thread hands nothing over. -/
theorem outputs_pushed_loop (s : MoverLoop) (outcomes : List MoveOutcome) :
    (machine cfg).outputs (pushed cfg) s (outcomes.map .loop) = [] := by
  induction outcomes generalizing s with
  | nil => rfl
  | cons outcome outcomes ih => exact ih _

/-! ## What is recorded -/

/-- One record is made for the entry: its own result, if there was nothing to move or the move worked, and a
server error if the move failed. -/
def Recorded (db db' : Store) (ftm : FileToMove) (outcome : MoveOutcome) : Prop :=
  ∃ file, db' = db.addEncodedFile file ∧ file.originalFileId = ftm.result.originalFileId ∧
    ((file = ftm.result ∧ (ftm.ToBeMoved → outcome = .moved)) ∨
      (file.result = EncodingResult.serverIOError.value ∧ ftm.ToBeMoved ∧ outcome ≠ .moved))

theorem recorded_finishMove (db : Store) (ftm : FileToMove) (outcome : MoveOutcome) :
    Recorded db (db.finishMove ftm outcome) ftm outcome := by
  obtain ⟨file, hfile, hid, hcase⟩ := ftm.record_spec outcome
  refine ⟨file, by rw [Store.finishMove, hfile], hid, ?_⟩
  rcases hcase with hown | ⟨hto, hne, what, rfl⟩
  · exact Or.inl hown
  · exact Or.inr ⟨rfl, hto, hne⟩

/-- The thread writes to the database when it is done with an entry, and only then. -/
def Records (cfg : DaemonConfig) (s : MoverLoop) (e : MoverEvent) : Prop :=
  ∀ outcome, e = .loop outcome →
    match s.finished e with
    | some (ftm, _) => Recorded s.daemon.db ((machine cfg).step s e).daemon.db ftm outcome
    | none => ((machine cfg).step s e).daemon.db = s.daemon.db

theorem records_step (h : Sound s) (e : MoverEvent) : Records cfg s e := by
  rintro outcome rfl
  have hstep : (machine cfg).step s (.loop outcome) = s.loopStep outcome := rfl
  rw [hstep]
  by_cases hworking : s.point = .working
  · obtain ⟨ftm, hmoving⟩ := Option.isSome_iff_exists.mp (h.moving.mpr hworking)
    have hfinished : finished s (.loop outcome) = some (ftm, outcome) := by
      simp [finished, hworking, hmoving]
    have hdb : (s.loopStep outcome).daemon.db = s.daemon.db.finishMove ftm outcome := by
      rw [loopStep, hworking]
      dsimp only
      rw [Daemon.moverFinish, hmoving]
    rw [hfinished, hdb]
    exact recorded_finishMove ..
  · have hnone := moving_eq_none h hworking
    rw [finished_eq_none hworking]
    show (s.loopStep outcome).daemon.db = _
    have hdoes := loopStep_does s outcome
    generalize s.loopStep outcome = s' at hdoes ⊢
    cases hdoes with
    | drop hpoint hgoing hqueue hid => exact (moverTake_cons hnone hqueue).2.1
    | take hpoint hgoing hqueue hid => exact (moverTake_cons hnone hqueue).2.1
    | finish hpoint => exact absurd hpoint hworking
    | _ => rfl

/-! ## Left alone, the thread takes everything -/

/-- The thread waits, and nobody told it anything. -/
def AtRest (s : MoverLoop) : Prop := s.point = .waiting false

/-- How many steps the thread takes at most until it is at rest. -/
def remaining (s : MoverLoop) : Nat :=
  5 * s.daemon.filesToMove.length +
    match s.point with
    | .locking => 2
    | .condition => 1
    | .waiting notified => if notified then 3 else 0
    | .check => if s.daemon.filesToMove.isEmpty then 2 else 0
    | .working => 3
    | .inIsIdle => 0

/-- Nobody asked the thread to stop. -/
def Going (s : MoverLoop) : Prop := s.daemon.stopRequested = false ∧ s.point ≠ .inIsIdle

theorem going_step (h : Going s) {e : MoverEvent} (he : e ≠ .call .stop) :
    Going ((machine cfg).step s e) := by
  show Going (step cfg s e)
  obtain ⟨hgoing, hpoint⟩ := h
  cases e with
  | call e =>
    rw [step]
    split
    · rename_i hgoes
      have houtside : e.outside = true := (Bool.and_eq_true_iff.mp hgoes).1
      obtain ⟨-, -, hstop⟩ := Daemon.step_outside cfg s.daemon houtside
      constructor
      · rw [← Bool.not_eq_true, hstop, hgoing]
        rintro (h | rfl)
        · cases h
        · exact he rfl
      · dsimp only
        split
        · cases hp : s.point <;> simp [LoopPoint.notify, hp] at hpoint ⊢
        · exact hpoint
    · exact ⟨hgoing, hpoint⟩
  | loop outcome =>
    have htake : s.daemon.moverTake.stopRequested = false := by
      unfold Daemon.moverTake
      split
      · split <;> exact hgoing
      · exact hgoing
    have hfinish : (s.daemon.moverFinish outcome).stopRequested = false := by
      unfold Daemon.moverFinish
      split <;> exact hgoing
    show Going (s.loopStep outcome)
    have hdoes := loopStep_does s outcome
    generalize s.loopStep outcome = s' at hdoes ⊢
    cases hdoes with
    | look hlook hstop =>
      rw [hgoing] at hstop
      cases hstop
    | drop => exact ⟨htake, LoopPoint.noConfusion⟩
    | take => exact ⟨htake, LoopPoint.noConfusion⟩
    | finish => exact ⟨hfinish, LoopPoint.noConfusion⟩
    | rest => exact ⟨hgoing, hpoint⟩
    | _ => exact ⟨hgoing, LoopPoint.noConfusion⟩
  | wake =>
    rw [step]
    split
    · exact ⟨hgoing, LoopPoint.noConfusion⟩
    · exact ⟨hgoing, hpoint⟩

/-- Each step of the thread brings it nearer to rest. -/
theorem remaining_step (cfg : DaemonConfig) (hsound : Sound s) (h : Going s) (outcome : MoveOutcome) :
    (AtRest s ∧ (machine cfg).step s (.loop outcome) = s) ∨
      ((machine cfg).step s (.loop outcome)).remaining < s.remaining := by
  have hstep : (machine cfg).step s (.loop outcome) = s.loopStep outcome := rfl
  obtain ⟨hgoing, hidle⟩ := h
  rw [hstep]
  have hdoes := loopStep_does s outcome
  generalize s.loopStep outcome = s' at hdoes
  cases hdoes with
  | lock hpoint => exact Or.inr (by simp [remaining, hpoint])
  | look hpoint hstop =>
    rw [hgoing] at hstop
    cases hstop
  | wait hpoint _ hqueue => exact Or.inr (by simp [remaining, hpoint])
  | enter hpoint _ hqueue => exact Or.inr (by simp [remaining, hpoint, hqueue])
  | woken hpoint =>
    right
    simp only [remaining, hpoint, if_true]
    split <;> omega
  | again hpoint _ hqueue => exact Or.inr (by simp [remaining, hpoint, hqueue])
  | drop hpoint _ hqueue _ =>
    right
    have hrest := (moverTake_cons (moving_eq_none hsound (by simp [hpoint])) hqueue).1
    simp only [remaining, hpoint, hrest, hqueue, List.length_cons]
    omega
  | take hpoint _ hqueue _ =>
    right
    have hrest := (moverTake_cons (moving_eq_none hsound (by simp [hpoint])) hqueue).1
    simp only [remaining, hpoint, hrest, hqueue, List.length_cons]
    omega
  | finish hpoint =>
    right
    have hqueue : (s.daemon.moverFinish outcome).filesToMove = s.daemon.filesToMove := by
      unfold Daemon.moverFinish
      split <;> rfl
    simp [remaining, hpoint, hqueue]
  | rest hpoint => exact Or.inl ⟨hpoint.resolve_right hidle, rfl⟩

theorem rests (hsound : Sound s) (h : Going s) (outcomes : List MoveOutcome)
    (henough : s.remaining ≤ outcomes.length) : AtRest ((machine cfg).run s (outcomes.map .loop)) := by
  induction outcomes generalizing s with
  | nil =>
    rcases remaining_step cfg hsound h .moved with ⟨hrest, -⟩ | hless
    · exact hrest
    · exact absurd (Nat.lt_of_lt_of_le hless henough) (Nat.not_lt_zero _)
  | cons outcome outcomes ih =>
    have hgoing : Going ((machine cfg).step s (.loop outcome)) := going_step h MoverEvent.noConfusion
    refine ih (step_accounts hsound _).sound hgoing ?_
    rcases remaining_step cfg hsound h outcome with ⟨hrest, hstill⟩ | hless
    · rw [hstill]
      have hzero : s.remaining = 0 := by
        simp only [remaining, show s.point = .waiting false from hrest, hsound.awake hrest]
        rfl
      rw [hzero]
      exact Nat.zero_le _
    · exact Nat.le_of_lt_succ (Nat.lt_of_lt_of_le hless henough)

/-! ## The mover delivers -/

/-- The entries are taken once and in order, each is recorded once, and the thread does not sleep over any. -/
structure Delivers (cfg : DaemonConfig) (s₀ : MoverLoop) (es : List MoverEvent) : Prop where
  kept : Kept cfg s₀ es ((machine cfg).run s₀ es)
  records : ∀ past e, past ++ [e] <+: es → Records cfg ((machine cfg).run s₀ past) e
  awake : AtRest ((machine cfg).run s₀ es) → ((machine cfg).run s₀ es).daemon.filesToMove = []
  /-- Left alone for long enough, the thread has taken and recorded everything. -/
  served : ∀ outcomes : List MoveOutcome, ((machine cfg).run s₀ es).remaining ≤ outcomes.length →
    AtRest ((machine cfg).run s₀ (es ++ outcomes.map .loop)) ∧
      ((machine cfg).outputs finished s₀ (es ++ outcomes.map .loop)).map Prod.fst
        = ((machine cfg).outputs (pushed cfg) s₀ es).filter hasId

/-- A run in which nobody asks the daemon to stop. -/
theorem mover_delivers (cfg : DaemonConfig) (db : Store) (es : List MoverEvent)
    (hgoing : ∀ e ∈ es, e ≠ .call .stop) : Delivers cfg (start db) es where
  kept := kept_run cfg db es
  records past e _ := records_step (kept_run cfg db past).sound e
  awake hrest := (kept_run cfg db es).sound.awake hrest
  served outcomes henough := by
    have hend : Going ((machine cfg).run (start db) es) :=
      (machine cfg).invariant (P := Going) (fun s e h he => going_step h he) ⟨rfl, LoopPoint.noConfusion⟩
        ((machine cfg).along_of_forall hgoing (start db))
    have hrest : AtRest ((machine cfg).run (start db) (es ++ outcomes.map .loop)) := by
      rw [Machine.run_append]
      exact rests (kept_run cfg db es).sound hend outcomes henough
    refine ⟨hrest, ?_⟩
    have hkept := kept_run cfg db (es ++ outcomes.map .loop)
    have hempty := hkept.sound.awake hrest
    have hnone := moving_eq_none hkept.sound (by rw [hrest]; exact LoopPoint.noConfusion)
    have hmoving := hkept.moving
    have hqueue := hkept.queue
    rw [hempty, List.filter_nil, List.append_nil] at hqueue
    rw [hnone, Option.toList_none, List.append_nil] at hmoving
    rw [← hmoving, ← hqueue, Machine.outputs_append, outputs_pushed_loop, List.append_nil]

/-- The thread waits, a session archives a file, and the thread moves it. -/
def oneArchived : List MoverEvent :=
  [.loop .moved, .loop .moved,
    .call (Daemon.discovers "a.mov".toList []), .call (.authenticate 1 ⟨0, .zero⟩ "t".toList)]
    ++ ((Daemon.archives 1).take 4).map .call ++ [.loop .moved, .loop .moved, .loop .moved]

theorem mover_delivers_one : Delivers gCfg (start .empty) oneArchived ∧
    ((machine gCfg).outputs finished (start .empty) oneArchived).map
      (fun f => f.1.result.originalFileId) = [1] := by
  refine ⟨mover_delivers gCfg .empty oneArchived ?_, by decide⟩
  rintro e he rfl
  simp [oneArchived, Daemon.discovers, Daemon.archives, Daemon.fetches] at he

end MoverLoop

end MediaArchiver
