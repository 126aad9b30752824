/-
# MediaArchiver.Client.LateCalls -- the calls of one client, wherever they are

A call that is made runs, or it may come later (`Makes`). The daemon has no other client, so every call on
its way is one that this client made. Whenever they run, the sessions stay in order, and no upload is
queued but by a chunk that is taken (`Awaited.makes`, `Awaited.runLate`).

A client that does not transmit only asks, and resets sessions: nothing it does queues an upload
(`Quiet.asking`). What it has to upload when it begins to transmit is known from the encoder on
(`Prepared`).
-/
import MediaArchiver.Client.Delays
import MediaArchiver.Client.Recovery
import MediaArchiver.Daemon.Pieces

namespace MediaArchiver

open Lib (Delayed Late maxOffset)
open Daemon (Adds Sole Srv.step_authenticate Srv.step_getNextFile Srv.step_readChunk Srv.step_postFile)

universe u

/-! ## Calls -/

/-- A call is made: it is late, or it runs. -/
inductive Makes (cfg : DaemonConfig) (fate : Fate) (e : DaemonEvent) (s : LateDaemon) :
    LateDaemon → Prop
  | late (h : Link.Arrives fate = false) : Makes cfg fate e s (s.giveUp e)
  | runs (h : Link.Arrives fate = true) :
      Makes cfg fate e s ⟨(Daemon.machine cfg).step s.server e, s.sent + 1, s.late⟩

/-- The daemon, and calls that a client with the token made. -/
structure Awaited (token : Text) (s : LateDaemon) : Prop where
  numbered : s.Numbered
  made : ∀ l ∈ s.late, l.call.Made token
  inOrder : Daemon.InOrder token s.server

/-- The client has only asked since the daemon was `d`. -/
structure Quiet (token : Text) (d : Daemon) (s : LateDaemon) : Prop extends Awaited token s where
  kept : ∀ l ∈ s.late, ¬ l.call.TakesBack
  noChunk : ∀ l ∈ s.late, s.Fresh l → l.call.chunk = none
  adds : Adds (fun move => ¬ move.result.Uploads) d s.server

section Calls

variable {cfg : DaemonConfig} {token : Text} {fate : Fate} {e : DaemonEvent} {d : Daemon}
  {s s' : LateDaemon} {n : NetworkAnswers}

/-- A call that was answered has run. -/
theorem makes_of_deliver (cfg : DaemonConfig) {α : Type} {seen : Exn → Exn}
    {call : Daemon → Daemon × Except Exn α} {answer : Except Exn α}
    (hcall : (call s.server).1 = (Daemon.machine cfg).step s.server e)
    (h : Transport.delayed.deliver fate e (relay seen call) s = (s', answer)) :
    Makes cfg fate e s s' ∧
      ∀ x, answer = .ok x → Link.Arrives fate = true ∧ (call s.server).2 = .ok x
        ∧ s' = ⟨(Daemon.machine cfg).step s.server e, s.sent + 1, s.late⟩ := by
  rcases Transport.delayed_cases h with ⟨rfl, ex, rfl, rfl⟩ | ⟨rfl, hanswer⟩
  · exact ⟨.late rfl, nofun⟩
  · have hran : (s.answer (relay seen call)).1
        = ⟨(Daemon.machine cfg).step s.server e, s.sent + 1, s.late⟩ := by
      rw [← hcall]
      rfl
    rw [hran]
    rcases hanswer with ⟨ex, rfl, rfl⟩ | ⟨rfl, rfl⟩
    · exact ⟨.runs rfl, nofun⟩
    · exact ⟨.runs rfl, fun x hx => ⟨rfl, relay_ok.mp hx, rfl⟩⟩

/-- The client makes a call. Of the calls on their way only this one may be the last that was made. -/
theorem Awaited.makes (h : Awaited token s) (hmakes : Makes cfg fate e s s') (hmade : e.Made token)
    (hfiles : Link.Arrives fate = true → e.FilesWork s.server) :
    Awaited token s' ∧ Adds (fun move => e.Idles s.server → ¬ move.result.Uploads) s.server s'.server
      ∧ ∀ l ∈ s'.late, (l ∈ s.late ∧ ¬ s'.Fresh l) ∨ l.call = e := by
  cases hmakes with
  | late hlate =>
    refine ⟨⟨h.numbered.giveUp e, ?_, h.inOrder⟩, Adds.of_eq rfl, ?_⟩
    · intro l hl
      rcases Delayed.mem_late_giveUp.mp hl with hl | rfl
      · exact h.made l hl
      · exact hmade
    · intro l hl
      rcases Delayed.mem_late_giveUp.mp hl with hl | rfl
      · exact Or.inl ⟨hl, h.numbered.not_fresh rfl hl⟩
      · exact Or.inr rfl
  | runs hruns =>
    obtain ⟨horder, hadds⟩ := h.inOrder.step cfg hmade (hfiles hruns)
    have hnumbered : (s.answer fun d => ((Daemon.machine cfg).step d e, ())).1.Numbered :=
      h.numbered.answer _
    exact ⟨⟨hnumbered, h.made, horder⟩, hadds, fun l hl => Or.inl ⟨hl, h.numbered.not_fresh rfl hl⟩⟩

/-- A late call runs. -/
theorem Awaited.runLate (h : Awaited token s) (cfg : DaemonConfig) {i : Nat}
    (hfiles : ∀ l ∈ s.late[i]?, l.call.FilesWork s.server) :
    Awaited token (s.runLate (Daemon.machine cfg).step i) ∧
      Adds (fun move => (∀ l ∈ s.late[i]?, l.call.Idles s.server) → ¬ move.result.Uploads) s.server
        (s.runLate (Daemon.machine cfg).step i).server := by
  have hnumbered := h.numbered.runLate (Daemon.machine cfg).step i
  have hmade : ∀ l ∈ (s.runLate (Daemon.machine cfg).step i).late, l.call.Made token :=
    fun l hl => h.made l (Delayed.mem_late_runLate hl)
  rcases s.runLate_cases (Daemon.machine cfg).step i with heq | ⟨l, hl, heq⟩
  · rw [heq]
    exact ⟨h, Adds.of_eq rfl⟩
  · obtain ⟨horder, hadds⟩ :=
      h.inOrder.step cfg (h.made l (List.mem_of_getElem? hl)) (hfiles l hl)
    rw [heq] at hnumbered hmade ⊢
    exact ⟨⟨hnumbered, hmade, horder⟩, hadds.mono fun move hmove hidles => hmove (hidles l hl)⟩

theorem Awaited.background (h : Awaited token s) (cfg : DaemonConfig) (he : e.Background) :
    Awaited token { s with server := (Daemon.machine cfg).step s.server e } :=
  ⟨h.numbered.server _, h.made, h.inOrder.background cfg he⟩

/-- The files that such a call works on do not matter. -/
theorem filesWork_of_asking (hback : ¬ e.TakesBack) (hchunk : e.chunk = none) : e.FilesWork d := by
  cases e with
  | writeChunk => cases hchunk
  | reset => exact absurd trivial hback
  | _ => trivial

/-- A call that brings no chunk and takes nothing back. -/
theorem Quiet.makes (h : Quiet token d s) (hmakes : Makes cfg fate e s s') (hmade : e.Made token)
    (hback : ¬ e.TakesBack) (hchunk : e.chunk = none) : Quiet token d s' := by
  obtain ⟨hawaited, hadds, hlate⟩ :=
    h.toAwaited.makes hmakes hmade fun _ => filesWork_of_asking hback hchunk
  refine ⟨hawaited, ?_, ?_, ?_⟩
  · intro l hl
    rcases hlate l hl with ⟨hl, -⟩ | heq
    · exact h.kept l hl
    · rw [heq]
      exact hback
  · intro l hl hfresh
    rcases hlate l hl with ⟨-, hold⟩ | heq
    · exact absurd hfresh hold
    · rw [heq]
      exact hchunk
  · exact h.adds.trans (hadds.mono fun move hmove => hmove (DaemonEvent.idles_of_chunk hchunk))

/-- A client that asks does no more. -/
theorem quiet_asking (cfg : DaemonConfig) (n : NetworkAnswers) (token : Text) (d : Daemon) :
    Client.AskingKeeps (n.remote cfg .delayed) token (Quiet token d) := by
  have hasks : ∀ {α : Type} {seen : Exn → Exn} {call : Daemon → Daemon × Except Exn α} {s : LateDaemon}
      {e : DaemonEvent} (fate : Fate), (call s.server).1 = (Daemon.machine cfg).step s.server e →
      e.Made token → ¬ e.TakesBack → e.chunk = none → Quiet token d s →
      Quiet token d (Transport.delayed.deliver fate e (relay seen call) s).1 := by
    intro α seen call s e fate hcall hmade hback hchunk h
    exact h.makes (makes_of_deliver cfg hcall rfl).1 hmade hback hchunk
  refine ⟨id, ?_, ?_, ?_, ?_⟩
  · intro id s
    exact hasks n.authFate (Srv.step_authenticate n.junk token) rfl not_false rfl
  · intro id filter s
    exact hasks n.getFate (Srv.step_getNextFile n.limit n.src filter) trivial not_false rfl
  · intro id s
    exact hasks n.readFate (Srv.step_readChunk n.avail) trivial not_false rfl
  · intro id result s
    exact hasks n.postFate (Srv.step_postFile n.opens result) trivial not_false rfl

end Calls

/-! ## What the client has to upload -/

namespace Client

variable {σ : Type u} {r : Remote σ} {cfg : ClientSettings} {a : LocalAnswers} {l l' : Line σ}
  {cl cl' : Client} {answer : Except Exn Unit} {token : Text} {e : Exn}

/-- A client that is to send a result has the file that it announces. -/
structure Prepared (token : Text) (cl : Client) : Prop where
  token : (toString cl.token).toList = token
  placed : cl.Placed
  announces : cl.HeadsFor .sendResult → cl.encResult.Uploads →
    ∃ content, content.length ≤ maxOffset ∧ cl.Announces content

/-- No file is longer than a file can be. -/
def Fits (a : LocalAnswers) : Prop := ∀ content ∈ a.encoder.encoded, content.length ≤ maxOffset

instance : DecidablePred Fits := fun a =>
  inferInstanceAs (Decidable (∀ content ∈ a.encoder.encoded, _))

theorem prepared_start (n : Nat) : Prepared (toString n).toList (start n) :=
  ⟨rfl, ⟨Or.inl rfl, nofun⟩, by simp [HeadsFor, start, Waits]⟩

/-- Every handler keeps it so. -/
theorem Prepared.handles (h : Prepared token cl) (hfits : Fits a)
    (hhandles : Handles r cfg a l cl l' cl' answer) : Prepared token cl' := by
  have htoken : (toString cl'.token).toList = token := by
    rw [hhandles.token]
    exact h.token
  refine ⟨htoken, h.placed.handles hhandles, ?_⟩
  cases hhandles with
  | refuse | idleStays | waits | convertLost | authRetries | authThrows => exact h.announces
  | idleFailed | idleNone | idleFile | idleUnknown | authForgets => simp [HeadsFor, Waits]
  | authDone hstate =>
    rintro (hsend | ⟨-, hsend⟩) hup
    · exact h.announces (Or.inr ⟨Or.inr hstate, hsend⟩) hup
    · exact h.announces (Or.inr ⟨Or.inr hstate, hsend⟩) hup
  | returns hstate =>
    rintro (hsend | ⟨-, hsend⟩) hup
    · exact h.announces (Or.inr ⟨Or.inl hstate, hsend⟩) hup
    · exact h.announces (Or.inr ⟨Or.inl hstate, hsend⟩) hup
  | receiveMore hstate | receiveThrew hstate | receiveShort hstate | receiveLost hstate =>
    simp [HeadsFor, hstate, Waits]
  | receiveDone => simp [HeadsFor, Waits]
  | convert hstate hproc =>
    rcases (doConvert_converts cfg hproc a.encoder).state with ⟨-, hopened⟩ | ⟨hstays, -⟩
    · intro _ hup
      obtain ⟨content, hcontent, hannounces⟩ := hopened hup
      exact ⟨content, hfits content hcontent, hannounces⟩
    · simp [HeadsFor, hstays, hstate, Waits]
  | sendFailed hstate | sendUnknown hstate => exact fun _ hup => h.announces (Or.inl hstate) hup
  | sendUpload | sendDone | transmitDone => simp [HeadsFor, Waits]
  | transmitMore hstate | transmitRestart hstate | transmitLacks hstate =>
    simp [HeadsFor, hstate, Waits]

/-- Also if it has to be continued. -/
theorem Prepared.attempt (h : Prepared token cl) (hfits : Fits a)
    (htransmitting : cl.mainState ≠ .transmitting) (htry : cl.attempt r cfg a l = (l', cl', answer)) :
    Prepared token cl' := by
  cases answer with
  | ok => exact h.handles hfits (handles_of_attempt htry)
  | error e =>
    by_cases hreceiving : cl.mainState = .receiving
    · have hstate := (mainState_of_attempt_error htry).trans hreceiving
      have hsame : cl'.token = cl.token ∧ cl'.prevMainState = cl.prevMainState := by
        simp only [Client.attempt, hreceiving] at htry
        split at htry
        · cases htry
        · rcases cl.receiveChunk_cases r cfg a l with ⟨l₁, e₁, -, heq⟩ | ⟨l₁, cont, data, -,
            ⟨answer, heq⟩ | ⟨-, -, cl₁, answer, heq, -, htoken, hprev, -⟩⟩
          · rw [heq] at htry
            obtain ⟨-, rfl, -⟩ := htry
            exact ⟨rfl, rfl⟩
          · rw [heq] at htry
            obtain ⟨-, rfl, -⟩ := htry
            exact ⟨rfl, rfl⟩
          · rw [heq] at htry
            obtain ⟨-, rfl, -⟩ := htry
            exact ⟨htoken, hprev⟩
      refine ⟨hsame.1 ▸ h.token, ⟨hsame.2 ▸ h.placed.prev, ?_⟩, ?_⟩
      · intro htrans
        cases hstate.symm.trans htrans
      · simp [HeadsFor, hstate, Waits]
    · rw [attempt_of_others hreceiving htransmitting] at htry
      have hhandles := handle_handles r cfg a l cl
      rw [htry] at hhandles
      exact h.handles hfits hhandles

/-- Outside an upload the client tries nothing but to ask. -/
theorem asking_attempt {P : σ → Prop} (hkeeps : AskingKeeps r (toString cl.token).toList P)
    (htransmitting : cl.mainState ≠ .transmitting) (htry : cl.attempt r cfg a l = (l', cl', answer))
    (hP : P l.server) : P l'.server := by
  by_cases hreceiving : cl.mainState = .receiving
  · simp only [Client.attempt, hreceiving] at htry
    split at htry
    · obtain ⟨rfl, -⟩ := htry
      exact hP
    · rcases cl.receiveChunk_cases r cfg a l with ⟨l₁, e, hread, heq⟩ | ⟨l₁, cont, data, hread,
        ⟨answer, heq⟩ | ⟨-, -, cl₁, answer, heq, -⟩⟩
      · rw [heq] at htry
        obtain ⟨rfl, -⟩ := htry
        exact keeps_call hkeeps.readChunk hread hP
      · rw [heq] at htry
        obtain ⟨rfl, -⟩ := htry
        exact keeps_call hkeeps.readChunk hread hP
      · rw [heq] at htry
        obtain ⟨rfl, -⟩ := htry
        have hafter := keeps_call hkeeps.readChunk hread hP
        exact hafter
  · rw [attempt_of_others hreceiving htransmitting] at htry
    have hhandles := handle_handles r cfg a l cl
    rw [htry] at hhandles
    exact hhandles.asking hreceiving htransmitting hkeeps hP

/-- An upload begins when the result that announces it was accepted. -/
theorem Handles.enters (h : Handles r cfg a l cl l' cl' answer) (hplaced : cl.Placed)
    (hnot : cl.mainState ≠ .transmitting) (htrans : cl'.mainState = .transmitting) :
    cl.mainState = .sendResult ∧ cl.encResult.Uploads ∧ cl'.dstFile = cl.dstFile.rewind.clear
      ∧ ∃ l₁, l.checkCreateRpc r = (l₁, .ok ()) ∧ l₁.postFile r cl.encResult = (l', .ok ()) := by
  have hprev : cl.prevMainState ≠ .transmitting := by
    rcases hplaced.prev with hprev | hprev <;> simp [hprev]
  cases h with
  | sendUpload hstate hauth hcheck hpost hup => exact ⟨hstate, hup, rfl, _, hcheck, hpost⟩
  | authDone | returns => exact absurd htrans hprev
  | convert hstate hproc =>
    rcases (doConvert_converts cfg hproc a.encoder).state with ⟨hsend, -⟩ | ⟨hstays, -⟩
    · cases hsend.symm.trans htrans
    · exact absurd (hstays.symm.trans htrans) hnot
  | refuse | idleStays | waits | convertLost | authRetries | authThrows => exact absurd htrans hnot
  | receiveMore | receiveThrew | receiveShort | receiveLost => exact absurd htrans hnot
  | transmitMore hstate | transmitRestart hstate | transmitLacks hstate => exact absurd hstate hnot
  | _ => cases htrans

end Client

end MediaArchiver
