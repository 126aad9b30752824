/-
# MediaArchiver.Client.Delays -- a client and the daemon when calls may come late

On a slow network a call that timed out is not lost: the daemon may still execute it, after other calls of
the same client. `Transport.delayed` keeps such calls until they run.

Two handlers make two calls, the second one while they handle an exception of the first. A late call may
run between the two, so a poll is taken in two steps here: what the handler tries (`attempt`) and, if that
throws, what is done about it (`recover`). Together they are the handler (`handle_of_attempt`), and the
steps are those of `poll` if nothing comes in between (`poll_of_act`).
-/
import MediaArchiver.Lib.Delayed
import MediaArchiver.Client.Network

namespace MediaArchiver

open Lib (Machine Delayed Late)

universe u

/-- The daemon and the calls to it that may still come. -/
abbrev LateDaemon := Delayed Daemon DaemonEvent

/-- What does not get to the daemon may get there later. -/
def Transport.delayed : Transport LateDaemon where
  deliver fate e call s :=
    match fate with
    | .lost ex => (s.giveUp e, .error ex)
    | .unanswered ex => ((s.answer call).1, .error ex)
    | .answered => s.answer call

/-- A call that is not given up has run when it returns, whatever the client learns of it. -/
theorem Transport.delayed_cases {α : Type} {fate : Fate} {e : DaemonEvent}
    {call : Daemon → Daemon × Except Exn α} {s s' : LateDaemon} {answer : Except Exn α}
    (h : Transport.delayed.deliver fate e call s = (s', answer)) :
    (s' = s.giveUp e ∧ ∃ ex, fate = .lost ex ∧ answer = .error ex) ∨
      (s' = (s.answer call).1 ∧ ((∃ ex, fate = .unanswered ex ∧ answer = .error ex) ∨
        (fate = .answered ∧ answer = (call s.server).2))) := by
  cases fate with
  | lost ex =>
    obtain ⟨rfl, rfl⟩ := Prod.mk.inj h
    exact Or.inl ⟨rfl, ex, rfl, rfl⟩
  | unanswered ex =>
    obtain ⟨rfl, rfl⟩ := Prod.mk.inj h
    exact Or.inr ⟨rfl, Or.inl ⟨ex, rfl, rfl⟩⟩
  | answered =>
    obtain ⟨rfl, rfl⟩ := Prod.mk.inj h
    exact Or.inr ⟨rfl, Or.inr ⟨rfl, rfl⟩⟩

namespace Client

variable {σ : Type u} {r : Remote σ} {cfg : ClientSettings} {a : LocalAnswers} {l l' : Line σ}
  {cl cl' : Client} {e : Exn}

/-- What the handler of a state tries. -/
def attempt (r : Remote σ) (cfg : ClientSettings) (a : LocalAnswers) (l : Line σ) (cl : Client) :
    Line σ × Client × Except Exn Unit :=
  match cl.mainState with
  | .receiving =>
      if cl.stopRequested then (l, { cl with shutdown := true }, .ok ())
      else cl.receiveChunk r cfg a l
  | .transmitting =>
      let (l, c, answer) :=
        cl.toMediaArchiverClient.transmitChunk (Line.iServer r) cfg.toClientConfig a.memory l
      (l, { cl with toMediaArchiverClient := c }, answer)
  | _ => cl.handle r cfg a l

/-- What is done about an exception. In the other states nothing is, and it leaves `poll`. -/
def recover (r : Remote σ) (a : LocalAnswers) (l : Line σ) (cl : Client) (e : Exn) :
    Line σ × Client × Except Exn Unit :=
  match cl.mainState with
  | .receiving =>
      let (l, answer) := l.reset r
      (l, { cl with srcFile := cl.srcFile.rewind a.rewound }, answer)
  | .transmitting =>
      let (l, c, answer) := cl.toMediaArchiverClient.restartTransmission (Line.iServer r) l
      (l, { cl with toMediaArchiverClient := c }, answer)
  | _ => (l, cl, .error e)

theorem attempt_of_others (hreceiving : cl.mainState ≠ .receiving)
    (htransmitting : cl.mainState ≠ .transmitting) :
    cl.attempt r cfg a l = cl.handle r cfg a l := by
  unfold attempt
  split
  · exact absurd ‹_› hreceiving
  · exact absurd ‹_› htransmitting
  · rfl

/-- Nothing comes, a chunk comes, or the end comes at the announced length. -/
theorem receiveChunk_cases (r : Remote σ) (cfg : ClientSettings) (a : LocalAnswers) (l : Line σ)
    (cl : Client) :
    (∃ l' e, l.readChunk r = (l', .error e) ∧ cl.receiveChunk r cfg a l = (l', cl, .error e)) ∨
      ∃ l' cont data, l.readChunk r = (l', .ok (cont, data)) ∧
        ((∃ answer, cl.receiveChunk r cfg a l
            = (l', { cl with srcFile := cl.srcFile.write a.written data }, answer)) ∨
          (cont = false ∧ sizeT (cl.srcFile.write a.written data).tellp = cl.encSettings.fileLength ∧
            ∃ cl' answer, cl.receiveChunk r cfg a l = (l'.drop, cl', answer)
              ∧ cl'.srcFile = (cl.srcFile.write a.written data).close a.flushed
              ∧ cl'.token = cl.token ∧ cl'.prevMainState = cl.prevMainState
              ∧ ((answer = .ok () ∧ cl'.mainState = .waitForEncodingFinished) ∨
                (∃ e, answer = .error e) ∧ cl'.mainState = cl.mainState))) := by
  unfold receiveChunk
  cases hread : l.readChunk r with
  | mk l' answer =>
    cases answer with
    | error e => exact Or.inl ⟨l', e, rfl, rfl⟩
    | ok chunk =>
      obtain ⟨cont, data⟩ := chunk
      refine Or.inr ⟨l', cont, data, rfl, ?_⟩
      cases cont with
      | true => exact Or.inl ⟨_, rfl⟩
      | false =>
        by_cases hpos : sizeT (cl.srcFile.write a.written data).tellp = cl.encSettings.fileLength
        · refine Or.inr ⟨rfl, hpos, ?_⟩
          simp only [Bool.false_eq_true, if_false, ne_eq, hpos, not_true_eq_false, launch]
          cases a.launches with
          | true => exact ⟨_, _, rfl, rfl, rfl, rfl, Or.inl ⟨rfl, rfl⟩⟩
          | false => exact ⟨_, _, rfl, rfl, rfl, rfl, Or.inr ⟨⟨_, rfl⟩, rfl⟩⟩
        · simp only [Bool.false_eq_true, if_false, ne_eq, hpos, not_false_eq_true, if_true]
          exact Or.inl ⟨_, rfl⟩

/-- Whatever is thrown, the state stays as it is. -/
theorem mainState_of_handle_error (hreceiving : cl.mainState ≠ .receiving)
    (htransmitting : cl.mainState ≠ .transmitting)
    (h : cl.handle r cfg a l = (l', cl', .error e)) : cl'.mainState = cl.mainState := by
  have hhandles := handle_handles r cfg a l cl
  rw [h] at hhandles
  dsimp only at hhandles
  cases hhandles with
  | authThrows => rfl
  | receiveThrew hstate | receiveShort hstate | receiveLost hstate => exact absurd hstate hreceiving
  | transmitRestart hstate | transmitLacks hstate => exact absurd hstate htransmitting

theorem mainState_of_attempt_error (h : cl.attempt r cfg a l = (l', cl', .error e)) :
    cl'.mainState = cl.mainState := by
  by_cases hreceiving : cl.mainState = .receiving
  · simp only [attempt, hreceiving] at h
    split at h
    · cases h
    · rcases cl.receiveChunk_cases r cfg a l with ⟨l₁, e₁, -, heq⟩ | ⟨l₁, cont, data, -, ⟨answer, heq⟩ |
        ⟨-, -, cl₁, answer, heq, -, -, -, ⟨rfl, -⟩ | ⟨-, hsame⟩⟩⟩
      · rw [heq] at h
        obtain ⟨-, rfl, -⟩ := h
        rfl
      · rw [heq] at h
        obtain ⟨-, rfl, -⟩ := h
        rfl
      · rw [heq] at h
        cases h
      · rw [heq] at h
        obtain ⟨-, rfl, -⟩ := h
        exact hsame
  · by_cases htransmitting : cl.mainState = .transmitting
    · simp only [attempt, htransmitting] at h
      by_cases hmem : DataChunk.Allocates a.memory cfg.chunkSize
      · rcases MediaArchiverClient.transmitChunk_cases (Line.iServer r) cfg.toClientConfig hmem l
          cl.toMediaArchiverClient with ⟨e', heq⟩ | ⟨-, heq⟩ | heq
        · rw [heq] at h
          obtain ⟨-, rfl, -⟩ := h
          rfl
        · rw [heq] at h
          cases h
        · rw [heq] at h
          cases h
      · obtain ⟨e', heq⟩ := MediaArchiverClient.transmitChunk_of_not_allocates
          (Line.iServer r) cfg.toClientConfig hmem l cl.toMediaArchiverClient
        rw [heq] at h
        obtain ⟨-, rfl, -⟩ := h
        rfl
    · rw [attempt_of_others hreceiving htransmitting] at h
      exact mainState_of_handle_error hreceiving htransmitting h

/-- A handler is what it tries, and if that throws what is done about it. -/
theorem handle_of_attempt (r : Remote σ) (cfg : ClientSettings) (a : LocalAnswers) (l : Line σ)
    (cl : Client) :
    cl.handle r cfg a l =
      match cl.attempt r cfg a l with
      | (l, cl', .ok ()) => (l, cl', .ok ())
      | (l, cl', .error e) => cl'.recover r a l e := by
  cases htry : cl.attempt r cfg a l with
  | mk l₁ rest =>
    obtain ⟨cl₁, answer⟩ := rest
    have hsame : ∀ {e}, answer = .error e → cl₁.mainState = cl.mainState := by
      rintro e rfl
      exact mainState_of_attempt_error htry
    by_cases hreceiving : cl.mainState = .receiving
    · simp only [attempt, hreceiving] at htry
      simp only [handle, hreceiving, doReceive]
      split at htry
      · rename_i hstop
        obtain ⟨rfl, rfl, rfl⟩ := htry
        rw [if_pos hstop]
      · rename_i hstop
        rw [if_neg hstop, htry]
        cases answer with
        | ok => rfl
        | error e => simp only [recover, hsame rfl, hreceiving]
    · by_cases htransmitting : cl.mainState = .transmitting
      · simp only [attempt, htransmitting] at htry
        simp only [handle, htransmitting]
        cases hchunk : cl.toMediaArchiverClient.transmitChunk (Line.iServer r) cfg.toClientConfig
            a.memory l with
        | mk l₂ rest =>
          obtain ⟨c, answer'⟩ := rest
          rw [hchunk] at htry
          obtain ⟨rfl, rfl, rfl⟩ := htry
          cases answer' with
          | ok => rw [MediaArchiverClient.doTransmit_of_ok hchunk]
          | error e =>
            rw [MediaArchiverClient.doTransmit_of_error hchunk]
            have hstill : c.mainState = .transmitting := (hsame rfl).trans htransmitting
            simp only [recover, hstill]
      · rw [attempt_of_others hreceiving htransmitting] at htry
        rw [htry]
        cases answer with
        | ok => rfl
        | error e =>
          have hstill := hsame rfl
          simp only [recover]
          split
          · exact absurd (hstill.symm.trans ‹_›) hreceiving
          · exact absurd (hstill.symm.trans ‹_›) htransmitting
          · rfl

/-- What was tried with success is one of the ways in which the handler can go. -/
theorem handles_of_attempt (h : cl.attempt r cfg a l = (l', cl', .ok ())) :
    Handles r cfg a l cl l' cl' (.ok ()) := by
  have hhandles := handle_handles r cfg a l cl
  rw [handle_of_attempt, h] at hhandles
  exact hhandles

end Client

/-! ## Runs with late calls -/

/-- A client, and the exception that its handler has caught. -/
structure Halfway extends Process LateDaemon where
  caught : Option Exn

/-- From here on calls may come late. -/
def Process.delayed (p : Process Daemon) : Halfway where
  client := p.client
  line := ⟨p.line.rpc, p.line.crashed, p.line.calls, .start p.line.server⟩
  ending := p.ending
  caught := none

/-- What happens: the client takes a step, during which it may be asked to stop; it is asked to stop at
another time; a late call runs; or the daemon does something of its own. -/
inductive LateEvent where
  | act (n : NetworkAnswers) (a : LocalAnswers) (stop : Option Bool)
  | stop (forced : Bool)
  | late (i : Nat)
  | background (e : DaemonEvent) (he : e.Background)

namespace Halfway

/-- The client takes a step. -/
def act (r : Remote LateDaemon) (cfg : ClientSettings) (a : LocalAnswers) (stop : Option Bool)
    (p : Halfway) : Halfway :=
  if p.ending.isSome then p
  else
    match p.caught with
    | some e =>
        match p.client.recover r a p.line e with
        | (l, cl, answer) =>
            ⟨((⟨cl, l, Process.outcome l answer⟩ : Process _).signal stop).finish r, none⟩
    | none =>
        match p.client.attempt r cfg a p.line with
        | (l, cl, .ok ()) =>
            ⟨((⟨cl, l, Process.outcome l (.ok ())⟩ : Process _).signal stop).finish r, none⟩
        -- a null pointer that was used here is used again by what follows
        | (l, cl, .error e) => ⟨⟨cl, l, none⟩, some e⟩

/-- The daemon, and the calls that may still come, change without the client. -/
def serve (f : LateDaemon → LateDaemon) (p : Halfway) : Halfway :=
  { p with line := { p.line with server := f p.line.server } }

/-- A client and the daemon, with calls that come late. -/
def machine (cfg : DaemonConfig) (ccfg : ClientSettings) : Machine Halfway LateEvent where
  step p
    | .act n a stop => p.act (n.remote cfg .delayed) ccfg a stop
    | .stop forced => { p with toProcess := p.toProcess.signal (some forced) }
    | .late i => p.serve (Delayed.runLate (Daemon.machine cfg).step i)
    | .background e _ => p.serve fun s => { s with server := (Daemon.machine cfg).step s.server e }

/-- Both when they start, on a database. -/
def start (token : Nat) (db : Store) : Halfway := (Network.start token db).delayed

variable {r : Remote LateDaemon} {cfg : ClientSettings} {a : LocalAnswers} {stop : Option Bool}
  {p : Halfway} {l : Line LateDaemon} {cl : Client}

theorem act_of_ended (hend : p.ending.isSome = true) : p.act r cfg a stop = p := by
  rw [act, if_pos hend]

theorem act_of_caught {e : Exn} (hrun : ¬ p.ending.isSome = true) (hcaught : p.caught = some e)
    {answer : Except Exn Unit} (hrecover : p.client.recover r a p.line e = (l, cl, answer)) :
    p.act r cfg a stop =
      ⟨((⟨cl, l, Process.outcome l answer⟩ : Process _).signal stop).finish r, none⟩ := by
  rw [act, if_neg hrun, hcaught]
  simp only [hrecover]

theorem act_of_attempt (hrun : ¬ p.ending.isSome = true) (hcaught : p.caught = none)
    (htry : p.client.attempt r cfg a p.line = (l, cl, .ok ())) :
    p.act r cfg a stop =
      ⟨((⟨cl, l, Process.outcome l (.ok ())⟩ : Process _).signal stop).finish r, none⟩ := by
  rw [act, if_neg hrun, hcaught]
  simp only [htry]

theorem act_of_attempt_error {e : Exn} (hrun : ¬ p.ending.isSome = true) (hcaught : p.caught = none)
    (htry : p.client.attempt r cfg a p.line = (l, cl, .error e)) :
    p.act r cfg a stop = ⟨⟨cl, l, none⟩, some e⟩ := by
  rw [act, if_neg hrun, hcaught]
  simp only [htry]

/-- If nothing comes in between, the steps are those of `poll`. -/
theorem poll_of_act (hrun : p.ending = none) (hcaught : p.caught = none) :
    p.toProcess.poll r cfg a stop =
      (if (p.act r cfg a stop).caught.isSome then (p.act r cfg a stop).act r cfg a stop
        else p.act r cfg a stop).toProcess := by
  have hnone : ¬ p.ending.isSome = true := by simp [hrun]
  unfold Process.poll Process.handle
  rw [if_neg hnone, Client.handle_of_attempt]
  cases htry : p.client.attempt r cfg a p.line with
  | mk l rest =>
    obtain ⟨cl, answer⟩ := rest
    cases answer with
    | ok =>
      rw [act_of_attempt hnone hcaught htry]
      rfl
    | error e =>
      rw [act_of_attempt_error hnone hcaught htry]
      cases hrecover : cl.recover r a l e with
      | mk l' rest' =>
        simp only [Option.isSome_some, if_true, hrecover]
        rw [act_of_caught (p := ⟨⟨cl, l, none⟩, some e⟩) Bool.false_ne_true rfl hrecover]

end Halfway

end MediaArchiver
