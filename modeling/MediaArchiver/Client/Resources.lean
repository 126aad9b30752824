/-
# MediaArchiver.Client.Resources -- what the client has in each state

Three states of the client rely on something that an earlier one has provided: `Receiving` on the
connection and the local copy, `WaitForEncodingFinished` on the encoder, `Transmitting` on the connection
and the encoded file. `Resources` says that it is there, and `Supplied` what has to be added for a handler
to keep it: where the client may be sent back to, and that the encoded file stays open while its result
waits to be posted.

In three places the client goes into such a state, or stays in it, although the thing is missing: when the
local copy does not open, when the encoder does not start, and when its second pass does not. They are
the only ones (`resources_run`).
-/
import MediaArchiver.Client.Runs

namespace MediaArchiver

open Lib (Machine InStream OutStream)

universe u

namespace Client

variable {σ : Type u} {r : Remote σ} {cfg : ClientSettings} {a : LocalAnswers} {l l' : Line σ}
  {cl cl' : Client} {answer : Except Exn Unit}

/-- What is there in the states that need it. -/
structure Resources (l : Line σ) (cl : Client) : Prop where
  receiving : cl.mainState = .receiving → l.rpc.isSome = true ∧ cl.srcFile.isOpen = true
  converting : cl.mainState = .waitForEncodingFinished → cl.encodeProcess = true
  transmitting : cl.mainState = .transmitting →
    l.rpc.isSome = true ∧ cl.dstFile.isOpen = true ∧ cl.encResult.Uploads

/-- What keeps it so. -/
structure Supplied (l : Line σ) (cl : Client) : Prop where
  crashed : l.crashed = false
  placed : cl.Placed
  connected : Connected l cl
  receiving : cl.mainState = .receiving → cl.srcFile.isOpen = true
  converting : cl.mainState = .waitForEncodingFinished → cl.encodeProcess = true
  transmitting : cl.mainState = .transmitting → cl.dstFile.isOpen = true
  pending : cl.HeadsFor .sendResult → cl.encResult.Uploads → cl.dstFile.isOpen = true

theorem Supplied.resources (h : Supplied l cl) : Resources l cl where
  receiving hstate := ⟨h.connected (Or.inl hstate), h.receiving hstate⟩
  converting := h.converting
  transmitting hstate :=
    ⟨h.connected (Or.inr hstate), h.transmitting hstate, h.placed.uploads hstate⟩

/-- A file was announced, and its local copy does not open. -/
def OpenLost (r : Remote σ) (a : LocalAnswers) (l : Line σ) (cl : Client) : Prop :=
  (cl.mainState = .idle ∧ cl.stopRequested = false ∧ cl.authenticated = true) ∧ a.opens = false ∧
    ∃ l₁ l₂ settings, l.checkCreateRpc r = (l₁, .ok ())
      ∧ l₁.getNextFile r cl.filter = (l₂, .ok settings) ∧ 0 < settings.fileLength

/-- The three ways to be without what is needed. -/
def Loses (r : Remote σ) (a : LocalAnswers) (l : Line σ) (cl : Client) : Prop :=
  OpenLost r a l cl ∨ LaunchLost r a l cl ∨
    (cl.mainState = .waitForEncodingFinished ∧ Pass2Lost a.encoder cl)

/-- The client is in one of the other states. -/
def Rests (cl : Client) : Prop :=
  Waits cl.mainState ∨ cl.mainState = .idle ∨ cl.mainState = .authenticateing
    ∨ cl.mainState = .sendResult

/-- In these states only the encoded file matters. -/
theorem Rests.supplied (h : cl.Rests) (hcrashed : l.crashed = false) (hplaced : cl.Placed)
    (hconn : Connected l cl)
    (hpending : cl.HeadsFor .sendResult → cl.encResult.Uploads → cl.dstFile.isOpen = true) :
    Supplied l cl := by
  have hreceiving : cl.mainState ≠ .receiving := by
    rintro hstate
    simp [Rests, hstate, Waits] at h
  have hconverting : cl.mainState ≠ .waitForEncodingFinished := by
    rintro hstate
    simp [Rests, hstate, Waits] at h
  have htransmitting : cl.mainState ≠ .transmitting := by
    rintro hstate
    simp [Rests, hstate, Waits] at h
  exact ⟨hcrashed, hplaced, hconn, fun hin => absurd hin hreceiving,
    fun hin => absurd hin hconverting, fun hin => absurd hin htransmitting, hpending⟩

/-- A client that stays in its state and gives nothing away. -/
theorem Supplied.stays (h : Supplied l cl) (hcrashed : l'.crashed = false) (hplaced : cl'.Placed)
    (hconn : Connected l' cl') (hstate : cl'.mainState = cl.mainState)
    (hprev : cl'.prevMainState = cl.prevMainState) (hresult : cl'.encResult = cl.encResult)
    (hsrc : cl'.srcFile.isOpen = cl.srcFile.isOpen) (hdst : cl'.dstFile.isOpen = cl.dstFile.isOpen)
    (hproc : cl'.encodeProcess = cl.encodeProcess) : Supplied l' cl' where
  crashed := hcrashed
  placed := hplaced
  connected := hconn
  receiving hin := hsrc.trans (h.receiving (hstate ▸ hin))
  converting hin := hproc.trans (h.converting (hstate ▸ hin))
  transmitting hin := hdst.trans (h.transmitting (hstate ▸ hin))
  pending := by
    unfold HeadsFor
    rw [hstate, hprev, hresult, hdst]
    exact h.pending

/-- A handler that has what it needs uses no null pointer. -/
theorem Supplied.not_crashed (h : Supplied l cl) (hnot : ¬ Loses r a l cl)
    (hhandles : Handles r cfg a l cl l' cl' answer) : l'.crashed = false := by
  rcases hhandles.crashed h.connected with hsame | hlost | ⟨hstate, hproc⟩
  · exact hsame.trans h.crashed
  · exact absurd (Or.inr (Or.inl hlost)) hnot
  · exact absurd ((h.converting hstate).symm.trans hproc) (by decide)

/-- Every handler leaves what the next one needs. -/
theorem Supplied.handles (h : Supplied l cl) (hnot : ¬ Loses r a l cl)
    (hhandles : Handles r cfg a l cl l' cl' (.ok ())) : Supplied l' cl' := by
  have hcrashed : l'.crashed = false := h.not_crashed hnot hhandles
  have hplaced : cl'.Placed := h.placed.handles hhandles
  have hconn : Connected l' cl' := h.connected.handles h.placed hhandles
  have hback : ∀ {cl₂ : Client}, cl₂.mainState = cl.prevMainState → cl₂.Rests := by
    intro cl₂ hstate
    unfold Rests
    rw [hstate]
    rcases h.placed.prev with hidle | hsend
    · exact Or.inr (Or.inl hidle)
    · exact Or.inr (Or.inr (Or.inr hsend))
  cases hhandles with
  | refuse | authRetries => exact h.stays hcrashed hplaced hconn rfl rfl rfl rfl rfl rfl
  | idleStays | waits => exact h.stays hcrashed hplaced hconn rfl rfl rfl rfl rfl rfl
  | idleFailed | idleNone | authForgets =>
    exact Rests.supplied (Or.inl trivial) hcrashed hplaced hconn (by simp [HeadsFor])
  | idleUnknown =>
    exact Rests.supplied (Or.inr (Or.inr (Or.inl rfl))) hcrashed hplaced hconn (by simp [HeadsFor])
  | idleFile hstate hstop hauth hcheck hget hlength =>
    have hopen : a.opens = true := by
      by_contra hno
      exact hnot (Or.inl ⟨⟨hstate, hstop, hauth⟩, by simpa using hno, _, _, _, hcheck, hget, hlength⟩)
    exact ⟨hcrashed, hplaced, hconn, fun _ => by simp [hopen], nofun, nofun,
      by simp [HeadsFor, Waits]⟩
  | authDone hstate =>
    refine Rests.supplied (hback rfl) hcrashed hplaced hconn ?_
    rintro (hsend | ⟨-, hsend⟩)
    · exact h.pending (Or.inr ⟨Or.inr hstate, hsend⟩)
    · exact h.pending (Or.inr ⟨Or.inr hstate, hsend⟩)
  | returns hstate =>
    refine Rests.supplied (hback rfl) hcrashed hplaced hconn ?_
    rintro (hsend | ⟨-, hsend⟩)
    · exact h.pending (Or.inr ⟨Or.inl hstate, hsend⟩)
    · exact h.pending (Or.inr ⟨Or.inl hstate, hsend⟩)
  | receiveMore =>
    exact h.stays hcrashed hplaced hconn rfl rfl rfl (OutStream.isOpen_write ..) rfl rfl
  | receiveThrew =>
    exact h.stays hcrashed hplaced hconn rfl rfl rfl (OutStream.isOpen_rewind ..) rfl rfl
  | receiveShort =>
    exact h.stays hcrashed hplaced hconn rfl rfl rfl
      ((OutStream.isOpen_rewind ..).trans (OutStream.isOpen_write ..)) rfl rfl
  | receiveDone =>
    exact ⟨hcrashed, hplaced, hconn, nofun, fun _ => rfl, nofun, by simp [HeadsFor, Waits]⟩
  | convert hstate hproc =>
    rcases (doConvert_converts cfg hproc a.encoder).state with ⟨hsend, hopened⟩ | ⟨hstays, hnext⟩
    · refine Rests.supplied (Or.inr (Or.inr (Or.inr hsend))) hcrashed hplaced hconn fun _ hup => ?_
      obtain ⟨content, -, -, hdst⟩ := hopened hup
      rw [hdst]
      rfl
    · have hrunning : (cl.doConvert cfg a.encoder).encodeProcess = true :=
        hnext.resolve_right fun hlost => hnot (Or.inr (Or.inr ⟨hstate, hlost⟩))
      rw [hstate] at hstays
      exact ⟨hcrashed, hplaced, hconn, by simp [hstays], fun _ => hrunning, by simp [hstays],
        by simp [HeadsFor, hstays, Waits]⟩
  | convertLost hstate hproc => exact absurd hcrashed Bool.noConfusion
  | sendFailed hstate =>
    exact Rests.supplied (Or.inl trivial) hcrashed hplaced hconn fun _ => h.pending (Or.inl hstate)
  | sendUnknown hstate =>
    exact Rests.supplied (Or.inr (Or.inr (Or.inl rfl))) hcrashed hplaced hconn
      fun _ => h.pending (Or.inl hstate)
  | sendUpload hstate hauth hcheck hpost hup =>
    have hopen := (InStream.isOpen_rewind _).trans (h.pending (Or.inl hstate) hup)
    exact ⟨hcrashed, hplaced, hconn, nofun, nofun, fun _ => hopen, by simp [HeadsFor, Waits]⟩
  | sendDone | transmitDone =>
    exact Rests.supplied (Or.inr (Or.inl rfl)) hcrashed hplaced hconn (by simp [HeadsFor, Waits])
  | transmitMore =>
    exact h.stays hcrashed hplaced hconn rfl rfl rfl rfl (InStream.isOpen_read ..) rfl
  | transmitRestart =>
    exact h.stays hcrashed hplaced hconn rfl rfl rfl rfl
      ((InStream.isOpen_rewind _).trans (InStream.isOpen_read ..)) rfl
  | transmitLacks =>
    exact h.stays hcrashed hplaced hconn rfl rfl rfl rfl (InStream.isOpen_rewind _) rfl

end Client

namespace Process

open Client (Supplied)

variable {σ : Type u} {cfg : ClientSettings}

/-- No null pointer was used, and as long as the process runs everything is there. -/
def Provided (p : Process σ) : Prop :=
  p.ending ≠ some .nullPointer ∧ (p.ending = none → Client.Resources p.line p.client)

/-- The local copy opens and the encoder starts, whenever it comes to that. -/
def Supplies (p : Process σ) : ClientEvent σ → Prop
  | .poll r a _ => p.ending = none → ¬ Client.Loses r a p.line p.client
  | .stop _ | .serve _ => True

/-- Whatever the server does: as long as files open and programs start, every state has what it needs. -/
theorem resources_run (cfg : ClientSettings) (token : Nat) (s : σ) {es : List (ClientEvent σ)}
    (hsupplies : (machine cfg).Along Supplies (start token s) es) :
    ((machine cfg).run (start token s) es).Provided := by
  have hinv : ((machine cfg).run (start token s) es).ending ≠ some .nullPointer
      ∧ (((machine cfg).run (start token s) es).ending = none →
        Supplied ((machine cfg).run (start token s) es).line
          ((machine cfg).run (start token s) es).client) := by
    apply invariant (I := fun p => p.ending ≠ some .nullPointer
      ∧ (p.ending = none → Supplied p.line p.client)) ?_ ?_ ?_ ?_ ?_ hsupplies
    · rintro r a stop p l cl answer hguard hrun ⟨-, hinv⟩ hhandles
      have hcrashed := (hinv hrun).not_crashed (hguard hrun) hhandles
      constructor
      · cases answer <;> simp [outcome, hcrashed]
      · intro hnone
        obtain ⟨-, rfl⟩ := outcome_eq_none.mp hnone
        exact (hinv hrun).handles (hguard hrun) hhandles
    · intro p q e forced _ _ ⟨hne, hinv⟩
      refine ⟨hne, fun hnone => ?_⟩
      have hsupplied := hinv hnone
      exact hsupplied.stays hsupplied.crashed ⟨hsupplied.placed.prev, hsupplied.placed.uploads⟩
        hsupplied.connected rfl rfl rfl rfl rfl rfl
    · intro r p ⟨hne, hinv⟩
      rcases finish_cases r p with heq | ⟨-, -, l, -, heq⟩
      · rw [heq]
        exact ⟨hne, hinv⟩
      · rw [heq]
        exact ⟨nofun, nofun⟩
    · intro p f _ ⟨hne, hinv⟩
      refine ⟨hne, fun hnone => ?_⟩
      have hsupplied := hinv hnone
      exact hsupplied.stays hsupplied.crashed ⟨hsupplied.placed.prev, hsupplied.placed.uploads⟩
        hsupplied.connected rfl rfl rfl rfl rfl rfl
    · refine ⟨nofun, fun _ => Client.Rests.supplied (Or.inr (Or.inl rfl)) rfl ⟨Or.inl rfl, nofun⟩
        nofun ?_⟩
      simp [Client.HeadsFor, start, Client.start, Client.Waits]
  exact ⟨hinv.1, fun hnone => (hinv.2 hnone).resources⟩

/-- A client that gets a file of two bytes in one chunk and starts the encoder. -/
theorem resources_download :
    let r := Remote.willing ⟨2, "ffmpeg".toList, "mov".toList, ".mp4".toList, []⟩ (false, [7, 8]) true
    let a := LocalAnswers.working [7]
    let p := (machine .gCfg).run (start 3 ())
      [.poll r a none, .poll r a none, .poll r a none, .poll r a none]
    p.client.mainState = .waitForEncodingFinished ∧ p.Provided := by
  intro r a p
  refine ⟨by decide +kernel, resources_run .gCfg 3 () ?_⟩
  have hsupplies : ∀ q : Process Unit, q.Supplies (.poll r a none) := by
    rintro q - (⟨-, hopens, -⟩ | ⟨-, hlaunches, -⟩ | ⟨-, -, -, -, hlaunches⟩)
    · cases hopens
    · cases hlaunches
    · cases hlaunches
  exact ⟨hsupplies _, hsupplies _, hsupplies _, hsupplies _, trivial⟩

/-- The same file, when the local copy does not open, when the encoder does not start, and when it does
not start a second time. -/
theorem resources_missing :
    let r := Remote.willing ⟨2, "ffmpeg".toList, "mov".toList, ".mp4".toList, []⟩ (false, [7, 8]) true
    let a := LocalAnswers.working [7]
    let known : List (ClientEvent Unit) := [.poll r a none, .poll r a none]
    let p (es : List (ClientEvent Unit)) := (machine .gCfg).run (start 3 ()) (known ++ es)
    ¬ (p [.poll r { a with opens := false } none]).Provided
      ∧ ¬ (p [.poll r a none, .poll r { a with launches := false } none]).Provided
      ∧ ¬ (p [.poll r a none, .poll r a none,
            .poll r { a with encoder := { a.encoder with launches := false } } none]).Provided := by
  intro r a known p
  refine ⟨?_, ?_, ?_⟩
  · rintro ⟨-, hprovided⟩
    have hclosed : (p [.poll r { a with opens := false } none]).client.srcFile.isOpen = false := by
      decide +kernel
    have hopen := ((hprovided (by decide +kernel)).receiving (by decide +kernel)).2
    exact absurd (hclosed.symm.trans hopen) (by decide)
  · rintro ⟨hend, -⟩
    exact hend (by decide +kernel)
  · rintro ⟨-, hprovided⟩
    have hnone : (p [.poll r a none, .poll r a none,
        .poll r { a with encoder := { a.encoder with launches := false } } none]).client.encodeProcess
          = false := by
      decide +kernel
    have hsome := (hprovided (by decide +kernel)).converting (by decide +kernel)
    exact absurd (hnone.symm.trans hsome) (by decide)

end Process

end MediaArchiver
