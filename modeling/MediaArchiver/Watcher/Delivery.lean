/-
# MediaArchiver.Watcher.Delivery -- from the queue of the kernel to the listener

The events get through: what arrived is what was handled, then what is left in the buffer, then what is in the
queue of the kernel, in this order, across stops and starts (`Delivered`). The bytes in the buffer are those of
the events that are left (`Buffered`), so each of them is handled once, as what it is but for a name that it
does not have. As long as no such name is used, the thread with its buffer, its `select` and its stops does
what `FileSystemWatcher.threadMain` does with the list of the events (`poller_handles_queue`).
-/
import MediaArchiver.Watcher.Moves
import MediaArchiver.Watcher.Poller

namespace MediaArchiver

open Lib (Machine)

namespace Poller

variable {cfg : DaemonConfig} {s : Poller} {t : Turn}

/-! ## read -/

theorem kernelRead_append (room : Nat) (qs : List QueuedEvent) :
    (kernelRead room qs).1 ++ (kernelRead room qs).2 = qs := by
  induction qs generalizing room with
  | nil => rfl
  | cons q qs ih =>
    rw [kernelRead]
    split
    · exact congrArg (q :: ·) (ih _)
    · rfl

theorem length_kernelRead (room : Nat) (qs : List QueuedEvent) :
    (bytesOf (kernelRead room qs).1).length ≤ room := by
  induction qs generalizing room with
  | nil => exact Nat.zero_le _
  | cons q qs ih =>
    rw [kernelRead]
    split
    · next hroom =>
      have hrest := ih (room - q.bytes.length)
      show (q.bytes ++ bytesOf (kernelRead (room - q.bytes.length) qs).1).length ≤ room
      rw [List.length_append]
      omega
    · exact Nat.zero_le _

/-! ## The events on their way -/

/-- What the thread has read and not handled yet. -/
def Buffered (s : Poller) (left : List QueuedEvent) : Prop :=
  match s.thread with
  | some (.handling buffer u len) =>
      (∃ behind, buffer.drop u = bytesOf left ++ behind) ∧ len = u + (bytesOf left).length ∧ len ≤ bufferSize
  | _ => left = []

/-- Every event that arrived was handled, or is in the buffer, or in the queue, in this order. The thread takes
each event for what it is but for a name that it does not have, and does what `threadMain` does with all that
it has handled. -/
structure Delivered (cfg : DaemonConfig) (w : FileSystemWatcher) (s : Poller) (arrived : List QueuedEvent)
    (handled : List (Arrival × (Nat → Surroundings))) (done left : List QueuedEvent) : Prop where
  arrived : arrived = done ++ left ++ s.queue
  seen : List.Forall₂ (fun q a => ∃ behind, a.1.event = q.seen behind) done handled
  ending : FileSystemWatcher.threadMain cfg w handled = .returned ↔ s.terminated = false
  buffered : s.terminated = false → s.Buffered left
  watcher : s.terminated = false → s.watcher = FileSystemWatcher.machine.run w (handled.map Prod.fst)

variable {w : FileSystemWatcher} {arrived done left : List QueuedEvent}
  {handledBefore : List (Arrival × (Nat → Surroundings))}

theorem bytesOf_cons (q : QueuedEvent) (qs : List QueuedEvent) : bytesOf (q :: qs) = q.bytes ++ bytesOf qs :=
  List.flatMap_cons

/-- A thread that is not in the middle of a buffer has handled all of it. -/
theorem left_nil_of_buffered (h : s.Buffered left)
    (hdone : ∀ buffer u len, s.thread = some (.handling buffer u len) → len ≤ u) : left = [] := by
  unfold Buffered at h
  split at h
  · next buffer u len hthread =>
    have hnone : (bytesOf left).length = 0 := by have hle := hdone buffer u len hthread; omega
    cases left with
    | nil => rfl
    | cons q qs =>
      rw [bytesOf_cons, List.length_append, q.length_bytes, inotifyEventSize] at hnone
      omega
  · exact h

/-- In the middle of a buffer, the thread is at an event. -/
theorem next_of_buffered {buffer : List UInt8} {u len : Nat} (h : s.Buffered left)
    (hthread : s.thread = some (.handling buffer u len)) (hlt : u < len) :
    ∃ q left', left = q :: left' ∧ (∃ behind, eventAt (buffer.drop u) = q.seen behind) ∧
      ∀ watcher, ({ s with
        watcher
        thread := some (.handling buffer (u + (inotifyEventSize + lenAt (buffer.drop u))) len) } :
          Poller).Buffered left' := by
  unfold Buffered at h
  rw [hthread] at h
  obtain ⟨⟨behind, hdrop⟩, hlen, hle⟩ := h
  cases left with
  | nil =>
    rw [hlen] at hlt
    exact absurd hlt (Nat.lt_irrefl u)
  | cons q left' =>
    rw [bytesOf_cons, List.append_assoc] at hdrop
    rw [bytesOf_cons, List.length_append, q.length_bytes] at hlen
    refine ⟨q, left', rfl, ⟨_, hdrop ▸ q.eventAt_bytes _⟩, fun watcher => ?_⟩
    have hsize : lenAt (buffer.drop u) = q.len := hdrop ▸ q.lenAt_bytes _
    refine ⟨⟨behind, ?_⟩, by rw [hsize]; omega, hle⟩
    rw [hsize, ← List.drop_drop, hdrop, List.drop_left' q.length_bytes]

theorem delivered_turn (h : Delivered cfg w s arrived handledBefore done left) (hlive : s.terminated = false)
    (t : Turn) :
    ∃ done' left',
      Delivered cfg w (s.threadStep cfg t) arrived (handledBefore ++ (s.handling t).toList) done' left' := by
  have hbuffered := h.buffered hlive
  have hwatcher := h.watcher hlive
  have hreturned := h.ending.mpr hlive
  have hturned := s.threadStep_turned cfg t
  generalize s.threadStep cfg t = s' at hturned ⊢
  cases hturned with
  | stays hnone =>
    rw [hnone, Option.toList_none, List.append_nil]
    exact ⟨done, left, h⟩
  | goes p hnone hruns hp hdone =>
    obtain rfl := left_nil_of_buffered hbuffered hdone
    rw [hnone, Option.toList_none, List.append_nil]
    refine ⟨done, [], h.arrived, h.seen, h.ending, fun _ => ?_, h.watcher⟩
    rcases hp with rfl | rfl | ⟨rfl, -⟩ <;> rfl
  | reads hnone hthread =>
    obtain rfl := left_nil_of_buffered hbuffered (by rw [hthread]; exact fun _ _ _ => nofun)
    rw [hnone, Option.toList_none, List.append_nil]
    refine ⟨done, (kernelRead bufferSize s.queue).1, ?_, h.seen, h.ending, fun _ => ?_, h.watcher⟩
    · rw [h.arrived, List.append_nil, List.append_assoc, kernelRead_append]
    · exact ⟨⟨t.behind, rfl⟩, (Nat.zero_add _).symm, length_kernelRead _ _⟩
  | handles buffer u len hthread hlt hsome hlisten =>
    obtain ⟨q, left', rfl, hseen, hnext⟩ := next_of_buffered hbuffered hthread hlt
    rw [hsome, Option.toList_some]
    rw [hwatcher] at hlisten
    refine ⟨done ++ [q], left', ?_, ?_, ?_, fun _ => hnext _, fun _ => ?_⟩
    · rw [h.arrived, List.append_assoc done [q], List.singleton_append]
    · exact List.rel_append h.seen (.cons hseen .nil)
    · exact iff_of_true ((FileSystemWatcher.threadMain_concat cfg w _ _).mpr ⟨hreturned, hlisten⟩) hlive
    · show (s.watcher.handle (arrival t buffer u)).watcher = _
      rw [hwatcher, List.map_append, Lib.Machine.run_append]
      rfl
  | fails buffer u len hthread hlt hsome hlisten =>
    obtain ⟨q, left', rfl, hseen, -⟩ := next_of_buffered hbuffered hthread hlt
    rw [hsome, Option.toList_some]
    rw [hwatcher] at hlisten
    refine ⟨done ++ [q], left', ?_, ?_, ?_, nofun, nofun⟩
    · rw [h.arrived, List.append_assoc done [q], List.singleton_append]
    · exact List.rel_append h.seen (.cons hseen .nil)
    · exact iff_of_false (fun hall => hlisten ((FileSystemWatcher.threadMain_concat cfg w _ _).mp hall).2) nofun

/-- What the owner does leaves alone what the thread reads and handles. -/
theorem buffered_owner (hc : s.Consistent) (h : s.Buffered left) :
    (∀ opens, (s.callStart opens).Buffered left) ∧ s.callStop.Buffered left ∧ s.ownerStep.Buffered left := by
  obtain ⟨queue, watcher, stopping, eventfd, thread, owner, terminated⟩ := s
  refine ⟨fun opens => ?_, ?_, ?_⟩
  · cases owner <;> cases eventfd <;> cases opens <;> exact h
  · cases owner <;> cases thread <;> exact h
  · cases owner with
    | outside => exact h
    | clear => exact h
    | make => cases thread <;> exact h
    | wake => exact h
    | join =>
      show (if thread = some .ended then _ else _ : Poller).Buffered left
      split <;> exact h
    | forget =>
      have hended : thread = some .ended := hc.2.1
      subst hended
      exact h
    | close => exact h

theorem owner_frame (s : Poller) :
    (∀ opens, (s.callStart opens).queue = s.queue ∧ (s.callStart opens).watcher = s.watcher ∧
      (s.callStart opens).terminated = s.terminated) ∧
    (s.callStop.queue = s.queue ∧ s.callStop.watcher = s.watcher ∧ s.callStop.terminated = s.terminated) ∧
    (s.ownerStep.queue = s.queue ∧ s.ownerStep.watcher = s.watcher ∧
      s.ownerStep.terminated = s.terminated) := by
  obtain ⟨queue, watcher, stopping, eventfd, thread, owner, terminated⟩ := s
  refine ⟨fun opens => ?_, ?_, ?_⟩
  · cases owner <;> cases eventfd <;> cases opens <;> exact ⟨rfl, rfl, rfl⟩
  · cases owner <;> cases thread <;> exact ⟨rfl, rfl, rfl⟩
  · cases owner <;> try exact ⟨rfl, rfl, rfl⟩
    unfold ownerStep
    dsimp only
    split <;> exact ⟨rfl, rfl, rfl⟩

/-- A step that neither queues nor handles an event. -/
theorem Delivered.frame (h : Delivered cfg w s arrived handledBefore done left) {s' : Poller}
    (hframe : s'.queue = s.queue ∧ s'.watcher = s.watcher ∧ s'.terminated = s.terminated)
    (hbuffered : s.Buffered left → s'.Buffered left) :
    Delivered cfg w s' arrived handledBefore done left where
  arrived := hframe.1 ▸ h.arrived
  seen := h.seen
  ending := hframe.2.2 ▸ h.ending
  buffered hlive := hbuffered (h.buffered (hframe.2.2 ▸ hlive))
  watcher hlive := hframe.2.1.trans (h.watcher (hframe.2.2 ▸ hlive))

theorem delivered_step (hc : s.Consistent) (h : Delivered cfg w s arrived handledBefore done left)
    (e : PollerEvent) :
    ∃ done' left', Delivered cfg w (step cfg s e) (arrived ++ (s.arriving e).toList)
      (handledBefore ++ (s.handled e).toList) done' left' := by
  cases hterm : s.terminated with
  | true =>
    have hdead : step cfg s e = s ∧ s.arriving e = none ∧ s.handled e = none := by
      refine ⟨if_pos hterm, ?_, ?_⟩ <;> cases e <;> simp only [arriving, handled, hterm, if_true]
    simp only [hdead, Option.toList_none, List.append_nil]
    exact ⟨done, left, h⟩
  | false =>
  have hbuffered := h.buffered hterm
  obtain ⟨hstart, hstop, hgo⟩ := s.owner_frame
  obtain ⟨hbstart, hbstop, hbgo⟩ := buffered_owner hc hbuffered
  rw [step_live hterm]
  cases e with
  | arrive q =>
    simp only [arriving, handled, hterm, Bool.false_eq_true, if_false, Option.toList_some, Option.toList_none,
      List.append_nil]
    refine ⟨done, left, ?_, h.seen, h.ending, h.buffered, h.watcher⟩
    rw [h.arrived, List.append_assoc]
    rfl
  | turn t =>
    simp only [arriving, handled, hterm, Bool.false_eq_true, if_false, Option.toList_none, List.append_nil]
    exact delivered_turn h hterm t
  | start opens =>
    simp only [arriving, handled, Option.toList_none, List.append_nil]
    exact ⟨done, left, h.frame (hstart opens) fun _ => hbstart opens⟩
  | stop =>
    simp only [arriving, handled, Option.toList_none, List.append_nil]
    exact ⟨done, left, h.frame hstop fun _ => hbstop⟩
  | go =>
    simp only [arriving, handled, Option.toList_none, List.append_nil]
    exact ⟨done, left, h.frame hgo fun _ => hbgo⟩

/-- In every run, whatever takes turns with what. -/
theorem delivered_run (cfg : DaemonConfig) (w : FileSystemWatcher) (es : List PollerEvent) :
    ∃ done left, Delivered cfg w ((machine cfg).run (init w) es)
      ((machine cfg).outputs arriving (init w) es) ((machine cfg).outputs handled (init w) es) done left := by
  apply (machine cfg).invariant_past (P := fun past s => ∃ done left, Delivered cfg w s
    ((machine cfg).outputs arriving (init w) past) ((machine cfg).outputs handled (init w) past) done left)
    _ _ (Lib.alongPast_true [] es)
  · rintro past e ⟨done, left, hbefore⟩ -
    rw [Machine.outputs_concat, Machine.outputs_concat]
    exact delivered_step (consistent_run w past) hbefore e
  · exact ⟨[], [], rfl, .nil, iff_of_true rfl rfl, fun _ => rfl, fun _ => rfl⟩

/-- What was handled, with the events as they were queued. -/
def asQueued (q : QueuedEvent) (a : Arrival × (Nat → Surroundings)) : Arrival × (Nat → Surroundings) :=
  ({ a.1 with event := q.event }, a.2)

theorem events_asQueued {queued : List QueuedEvent} {handled : List (Arrival × (Nat → Surroundings))}
    (hlength : queued.length = handled.length) :
    (List.zipWith asQueued queued handled).map (fun a => a.1.event) = queued.map QueuedEvent.event := by
  rw [List.map_zipWith, ← List.map_uncurry_zip_eq_zipWith]
  conv_rhs => rw [← List.map_fst_zip (Nat.le_of_eq hlength), List.map_map]
  rfl

/-- For plain events, the thread does what it would do with the events as they were queued. -/
theorem handled_asQueued (cfg : DaemonConfig) {queued : List QueuedEvent}
    {handled : List (Arrival × (Nat → Surroundings))}
    (hseen : List.Forall₂ (fun q a => ∃ behind, a.1.event = q.seen behind) queued handled)
    (hplain : ∀ q ∈ queued, q.Plain) (w : FileSystemWatcher) :
    FileSystemWatcher.threadMain cfg w handled =
        FileSystemWatcher.threadMain cfg w (List.zipWith asQueued queued handled) ∧
      FileSystemWatcher.reported w (handled.map Prod.fst) =
        FileSystemWatcher.reported w ((List.zipWith asQueued queued handled).map Prod.fst) ∧
      FileSystemWatcher.machine.run w (handled.map Prod.fst) =
        FileSystemWatcher.machine.run w ((List.zipWith asQueued queued handled).map Prod.fst) := by
  induction hseen generalizing w with
  | nil => exact ⟨rfl, rfl, rfl⟩
  | @cons q a queued handled hfirst hrest ih =>
    obtain ⟨behind, hevent⟩ := hfirst
    have hsame : w.handle a.1 = w.handle (asQueued q a).1 := by
      show w.handleInotifyEvent a.1.addWatch a.1.now a.1.event = _
      rw [hevent]
      exact QueuedEvent.handle_seen (hplain q List.mem_cons_self) w _ _ behind
    have hreports : w.reportsOf a = w.reportsOf (asQueued q a) := by
      unfold FileSystemWatcher.reportsOf
      rw [hsame]
      rfl
    obtain ⟨hmain, hreported, hrun⟩ :=
      ih (fun q' hq' => hplain q' (List.mem_cons_of_mem q hq')) (w.handle a.1).watcher
    rw [List.zipWith_cons_cons, List.map_cons, List.map_cons]
    refine ⟨?_, ?_, ?_⟩
    · rw [FileSystemWatcher.threadMain, FileSystemWatcher.threadMain, ← hreports, ← hsame, hmain]
    · rw [FileSystemWatcher.reported, FileSystemWatcher.reported, ← hsame, hreported]
    · rw [Machine.run_cons, Machine.run_cons]
      show FileSystemWatcher.machine.run (w.handle a.1).watcher _ =
        FileSystemWatcher.machine.run (w.handle (asQueued q a).1).watcher _
      rw [← hsame, hrun]

/-- Whatever takes turns with what, across stops and starts: what arrived is what was handled, what is left in
the buffer, and what is in the queue, in this order. As long as all that was handled is plain, the reports, the
watcher and whether the program goes on are those of `threadMain` on the events as they were queued. -/
theorem poller_handles_queue (cfg : DaemonConfig) (w : FileSystemWatcher) (es : List PollerEvent) :
    ∃ done left, Delivered cfg w ((machine cfg).run (init w) es)
        ((machine cfg).outputs arriving (init w) es) ((machine cfg).outputs handled (init w) es) done left ∧
      ((∀ q ∈ done, q.Plain) →
        let queued := List.zipWith asQueued done ((machine cfg).outputs handled (init w) es)
        queued.map (fun a => a.1.event) = done.map QueuedEvent.event ∧
        (FileSystemWatcher.threadMain cfg w queued = .returned ↔
          ((machine cfg).run (init w) es).terminated = false) ∧
        FileSystemWatcher.reported w (((machine cfg).outputs handled (init w) es).map Prod.fst) =
          FileSystemWatcher.reported w (queued.map Prod.fst) ∧
        (((machine cfg).run (init w) es).terminated = false → ((machine cfg).run (init w) es).watcher =
          FileSystemWatcher.machine.run w (queued.map Prod.fst))) := by
  obtain ⟨done, left, hall⟩ := delivered_run cfg w es
  refine ⟨done, left, hall, fun hplain => ?_⟩
  obtain ⟨hmain, hreported, hrun⟩ := handled_asQueued cfg hall.seen hplain w
  exact ⟨events_asQueued hall.seen.length_eq, hmain ▸ hall.ending, hreported,
    fun hlive => (hall.watcher hlive).trans hrun⟩

end Poller
end MediaArchiver
