/-
# MediaArchiver.Client.Exceptions -- the polls that do not return

The main loop calls `poll` and has no handler. Every handler of a state has one, but two of these call the
server again: `doReceive` and `doTransmit` reset the session, over the connection that has just failed.
An exception of that reset leaves `poll`. The others are a reset on the object that `doReceive` has dropped
before it starts the encoder, and a look at an encoder that is not there. `Escapes` lists them by state, and
there are no others (`returned_iff`).
-/
import MediaArchiver.Client.Runs

namespace MediaArchiver

open Lib (Machine)

universe u

namespace Client

variable {σ : Type u} {r : Remote σ} {cfg : ClientSettings} {a : LocalAnswers} {l l' : Line σ}
  {cl cl' : Client} {answer : Except Exn Unit}

/-- Reading a chunk throws, or was the last one of a file that has not the announced length. -/
def ReadFails (r : Remote σ) (a : LocalAnswers) (cl : Client) (l l₁ : Line σ) : Prop :=
  (∃ e, l.readChunk r = (l₁, .error e)) ∨
    ∃ data, l.readChunk r = (l₁, .ok (false, data))
      ∧ sizeT (cl.srcFile.write a.written data).tellp ≠ cl.encSettings.fileLength

/-- A chunk cannot be made; or sending it throws, or it was the last one of the file and the server wants
more. -/
def SendFails (r : Remote σ) (cfg : ClientSettings) (a : LocalAnswers) (cl : Client) (l l₁ : Line σ) :
    Prop :=
  if DataChunk.Allocates a.memory cfg.chunkSize then
    ∃ answer, l.writeChunk r (cl.dstFile.read cfg.chunkSize).2 = (l₁, answer)
      ∧ ((∃ e, answer = .error e) ∨
        (answer = .ok true ∧ (cl.dstFile.read cfg.chunkSize).1.eofbit = true))
  else l₁ = l

/-- What makes a poll not return: the reset after a failed chunk throws, the encoder does not start or is
missing, or there is an exception that `doAuth` does not know. -/
def Escapes (r : Remote σ) (cfg : ClientSettings) (a : LocalAnswers) (l : Line σ) (cl : Client) :
    Prop :=
  match cl.mainState with
  | .authenticateing =>
      cl.stopRequested = false ∧ ∃ l' e,
        Throws r True (Line.authenticate r (toString cl.token).toList) l l' e ∧ ¬ Caught e
  | .receiving =>
      (cl.stopRequested = false ∧ ∃ l₁ l' e, ReadFails r a cl l l₁ ∧ l₁.reset r = (l', .error e))
        ∨ LaunchLost r a l cl
  | .waitForEncodingFinished => cl.encodeProcess = false
  | .transmitting => ∃ l₁ l' e, SendFails r cfg a cl l l₁ ∧ l₁.reset r = (l', .error e)
  | _ => False

/-- What authenticating throws is determined by the server. -/
theorem throws_unique {α : Type} {made : Prop} {call : Line σ → Line σ × Except Exn α}
    {l₁ l₂ : Line σ} {e₁ e₂ : Exn} (h₁ : Throws r made call l l₁ e₁)
    (h₂ : Throws r made call l l₂ e₂) : e₁ = e₂ := by
  rcases h₁ with hcheck₁ | ⟨-, m₁, hcheck₁, hcall₁⟩
  · rcases h₂ with hcheck₂ | ⟨-, m₂, hcheck₂, -⟩
    · exact Except.error.inj (Prod.mk.inj (hcheck₁.symm.trans hcheck₂)).2
    · cases (Prod.mk.inj (hcheck₁.symm.trans hcheck₂)).2
  · rcases h₂ with hcheck₂ | ⟨-, m₂, hcheck₂, hcall₂⟩
    · cases (Prod.mk.inj (hcheck₁.symm.trans hcheck₂)).2
    · obtain rfl := (Prod.mk.inj (hcheck₁.symm.trans hcheck₂)).1
      exact Except.error.inj (Prod.mk.inj (hcall₁.symm.trans hcall₂)).2

/-- A read that got more chunks to come has not failed. -/
theorem not_readFails_of_more {data : Bytes} {l₁ : Line σ}
    (hread : l.readChunk r = (l', .ok (true, data))) : ¬ ReadFails r a cl l l₁ := by
  rintro (⟨e, herror⟩ | ⟨data', hlast, -⟩)
  · cases (Prod.mk.inj (hread.symm.trans herror)).2
  · cases (Prod.mk.inj (hread.symm.trans hlast)).2

theorem not_readFails_of_done {data : Bytes} {l₁ : Line σ}
    (hread : l.readChunk r = (l', .ok (false, data)))
    (hpos : sizeT (cl.srcFile.write a.written data).tellp = cl.encSettings.fileLength) :
    ¬ ReadFails r a cl l l₁ := by
  rintro (⟨e, herror⟩ | ⟨data', hlast, hne⟩)
  · cases (Prod.mk.inj (hread.symm.trans herror)).2
  · cases (Prod.mk.inj (hread.symm.trans hlast)).2
    exact hne hpos

/-- Where a read has failed, the line is the one that it left. -/
theorem line_of_readFails {l₁ l₂ : Line σ} {chunk : Except Exn (Bool × Bytes)}
    (hread : l.readChunk r = (l₁, chunk)) (hfails : ReadFails r a cl l l₂) : l₂ = l₁ := by
  rcases hfails with ⟨e, herror⟩ | ⟨data, hlast, -⟩
  · exact (Prod.mk.inj (herror.symm.trans hread)).1
  · exact (Prod.mk.inj (hlast.symm.trans hread)).1

/-- The encoder is not lost where the read has failed. -/
theorem not_launchLost {l₁ : Line σ} (hfails : ReadFails r a cl l l₁) : ¬ LaunchLost r a l cl := by
  rintro ⟨-, -, l₂, data, hread, hpos⟩
  exact not_readFails_of_done hread hpos hfails

/-- After a failed read the reset decides. -/
theorem ends_reading {l₁ : Line σ} {chunk : Except Exn (Bool × Bytes)}
    (hstate : cl.mainState = .receiving) (hstop : cl.stopRequested = false)
    (hread : l.readChunk r = (l₁, chunk)) (hfails : ReadFails r a cl l l₁)
    (hreset : l₁.reset r = (l', answer)) (hcrashed : l'.crashed = false) :
    (l'.crashed = false ∧ answer = .ok ()) ↔ ¬ Escapes r cfg a l cl := by
  cases answer with
  | ok =>
    refine iff_of_true ⟨hcrashed, rfl⟩ ?_
    simp only [Escapes, hstate]
    rintro (⟨-, l₂, l₃, e, hfails₂, hreset₂⟩ | hlost)
    · obtain rfl := line_of_readFails hread hfails₂
      cases (Prod.mk.inj (hreset.symm.trans hreset₂)).2
    · exact not_launchLost hfails hlost
  | error e =>
    refine iff_of_false nofun ?_
    simp only [Escapes, hstate, not_not]
    exact Or.inl ⟨hstop, _, _, _, hfails, hreset⟩

/-- A handler ends well exactly if nothing escapes. -/
theorem Handles.ends_iff (h : Handles r cfg a l cl l' cl' answer) (hconn : Connected l cl)
    (hcrashed : l.crashed = false) :
    (l'.crashed = false ∧ answer = .ok ()) ↔ ¬ Escapes r cfg a l cl := by
  -- where no null pointer is used
  have hsafe : ¬ LaunchLost r a l cl →
      (cl.mainState = .waitForEncodingFinished → cl.encodeProcess = true) → l'.crashed = false := by
    intro hlaunch hproc
    rcases h.crashed hconn with hsame | hlost | ⟨hstate, hnone⟩
    · exact hsame.trans hcrashed
    · exact absurd hlost hlaunch
    · exact absurd ((hproc hstate).symm.trans hnone) (by decide)
  -- in the other states
  have hother : cl.mainState ≠ .receiving → cl.mainState ≠ .waitForEncodingFinished →
      l'.crashed = false := by
    intro hreceiving hconverting
    exact hsafe (fun hlost => hreceiving hlost.1.1) (fun hstate => absurd hstate hconverting)
  cases h with
  | refuse hstate hstop =>
    refine iff_of_true ⟨hcrashed, rfl⟩ ?_
    unfold Escapes
    rcases hstate with hstate | hstate | hstate | ⟨hstate, -⟩
    · simp [hstate]
    · simp [hstate, hstop]
    · simp [hstate, hstop, LaunchLost]
    · cases hmain : cl.mainState <;> simp [hmain, Waits] at hstate ⊢
  | idleFailed hstate | idleStays hstate | idleUnknown hstate | idleNone hstate | idleFile hstate =>
    refine iff_of_true ⟨hother (by simp [hstate]) (by simp [hstate]), rfl⟩ ?_
    simp [Escapes, hstate]
  | sendFailed hstate | sendUnknown hstate | sendUpload hstate | sendDone hstate =>
    refine iff_of_true ⟨hother (by simp [hstate]) (by simp [hstate]), rfl⟩ ?_
    simp [Escapes, hstate]
  | waits hstate | returns hstate =>
    refine iff_of_true ⟨hcrashed, rfl⟩ ?_
    unfold Escapes
    cases hmain : cl.mainState <;> simp [hmain, Waits] at hstate ⊢
  | authRetries hstate hstop hthrow he =>
    refine iff_of_true ⟨hother (by simp [hstate]) (by simp [hstate]), rfl⟩ ?_
    simp only [Escapes, hstate]
    rintro ⟨-, l₂, e₂, hthrow₂, hunknown⟩
    exact hunknown (throws_unique hthrow hthrow₂ ▸ he.1)
  | authForgets hstate hstop hthrow =>
    refine iff_of_true ⟨hother (by simp [hstate]) (by simp [hstate]), rfl⟩ ?_
    simp only [Escapes, hstate]
    rintro ⟨-, l₂, e₂, hthrow₂, hunknown⟩
    exact hunknown (throws_unique hthrow hthrow₂ ▸ trivial)
  | authThrows hstate hstop hthrow he =>
    refine iff_of_false nofun ?_
    simp only [Escapes, hstate, not_not]
    exact ⟨hstop, _, _, hthrow, he⟩
  | authDone hstate hstop hcheck hcall =>
    refine iff_of_true ⟨hother (by simp [hstate]) (by simp [hstate]), rfl⟩ ?_
    simp only [Escapes, hstate]
    rintro ⟨-, l₂, e₂, hthrow | ⟨-, l₁, hcheck₂, hcall₂⟩, -⟩
    · cases (Prod.mk.inj (hcheck.symm.trans hthrow)).2
    · obtain rfl := (Prod.mk.inj (hcheck.symm.trans hcheck₂)).1
      cases (Prod.mk.inj (hcall.symm.trans hcall₂)).2
  | receiveMore hstate hstop hread =>
    have hlost : ¬ LaunchLost r a l cl := by
      rintro ⟨-, -, l₂, data₂, hread₂, -⟩
      cases (Prod.mk.inj (hread.symm.trans hread₂)).2
    refine iff_of_true ⟨hsafe hlost (by simp [hstate]), rfl⟩ ?_
    simp only [Escapes, hstate]
    rintro (⟨-, l₁, l₂, e, hfails, -⟩ | hlost')
    · exact not_readFails_of_more hread hfails
    · exact hlost hlost'
  | receiveDone hstate hstop hread hpos hlaunch =>
    have hlost : ¬ LaunchLost r a l cl := by
      rintro ⟨-, hfalse, -⟩
      exact absurd (hlaunch.symm.trans hfalse) (by decide)
    refine iff_of_true ⟨hsafe hlost (by simp [hstate]), rfl⟩ ?_
    simp only [Escapes, hstate]
    rintro (⟨-, l₁, l₂, e, hfails, -⟩ | hlost')
    · exact not_readFails_of_done hread hpos hfails
    · exact hlost hlost'
  | receiveLost hstate hstop hread hpos hlaunch =>
    refine iff_of_false nofun ?_
    simp only [Escapes, hstate, not_not]
    exact Or.inr ⟨⟨hstate, hstop⟩, hlaunch, _, _, hread, hpos⟩
  | receiveThrew hstate hstop hread hreset =>
    have hfails : ReadFails r a cl l _ := Or.inl ⟨_, hread⟩
    exact ends_reading hstate hstop hread hfails hreset (hsafe (not_launchLost hfails) (by simp [hstate]))
  | receiveShort hstate hstop hread hpos hreset =>
    have hfails : ReadFails r a cl l _ := Or.inr ⟨_, hread, hpos⟩
    exact ends_reading hstate hstop hread hfails hreset (hsafe (not_launchLost hfails) (by simp [hstate]))
  | convert hstate hproc =>
    refine iff_of_true ⟨hcrashed, rfl⟩ ?_
    simp [Escapes, hstate, hproc]
  | convertLost hstate hproc =>
    refine iff_of_false nofun ?_
    simp [Escapes, hstate, hproc]
  | transmitMore hstate hwrite heof hmem =>
    refine iff_of_true ⟨hother (by simp [hstate]) (by simp [hstate]), rfl⟩ ?_
    simp only [Escapes, hstate, SendFails, if_pos hmem]
    rintro ⟨l₁, l₂, e, ⟨answer, hwrite₂, ⟨e', rfl⟩ | ⟨rfl, heof₂⟩⟩, -⟩
    · cases (Prod.mk.inj (hwrite.symm.trans hwrite₂)).2
    · exact absurd (heof.symm.trans heof₂) (by decide)
  | transmitDone hstate hwrite heof hmem =>
    refine iff_of_true ⟨hother (by simp [hstate]) (by simp [hstate]), rfl⟩ ?_
    simp only [Escapes, hstate, SendFails, if_pos hmem]
    rintro ⟨l₁, l₂, e, ⟨answer, hwrite₂, ⟨e', rfl⟩ | ⟨rfl, -⟩⟩, -⟩
    · cases (Prod.mk.inj (hwrite.symm.trans hwrite₂)).2
    · cases (Prod.mk.inj (hwrite.symm.trans hwrite₂)).2
  | transmitRestart hstate hwrite hfail hreset hmem =>
    have hsafe' := hother (by simp [hstate]) (by simp [hstate])
    cases answer with
    | ok =>
      refine iff_of_true ⟨hsafe', rfl⟩ ?_
      simp only [Escapes, hstate, SendFails, if_pos hmem]
      rintro ⟨l₁, l₂, e, ⟨answer, hwrite₂, -⟩, hreset₂⟩
      obtain rfl := (Prod.mk.inj (hwrite.symm.trans hwrite₂)).1
      cases (Prod.mk.inj (hreset.symm.trans hreset₂)).2
    | error e =>
      refine iff_of_false nofun ?_
      simp only [Escapes, hstate, not_not, SendFails, if_pos hmem]
      exact ⟨_, _, _, ⟨_, hwrite, hfail⟩, hreset⟩
  | transmitLacks hstate hmem hreset =>
    have hsafe' := hother (by simp [hstate]) (by simp [hstate])
    cases answer with
    | ok =>
      refine iff_of_true ⟨hsafe', rfl⟩ ?_
      simp only [Escapes, hstate, SendFails, if_neg hmem]
      rintro ⟨l₁, l₂, e, rfl, hreset₂⟩
      cases (Prod.mk.inj (hreset.symm.trans hreset₂)).2
    | error e =>
      refine iff_of_false nofun ?_
      simp only [Escapes, hstate, not_not, SendFails, if_neg hmem]
      exact ⟨_, _, _, rfl, hreset⟩

end Client

namespace Process

variable {σ : Type u}

/-- In every state that the client gets to, a poll returns exactly if nothing escapes. -/
theorem returned_iff (cfg : ClientSettings) (token : Nat) (s : σ) {es : List (ClientEvent σ)}
    (r : Remote σ) (a : LocalAnswers) (stop : Option Bool)
    (hrun : ((machine cfg).run (start token s) es).ending = none) :
    let p := (machine cfg).run (start token s) es
    (p.poll r cfg a stop).Returned ↔ ¬ Client.Escapes r cfg a p.line p.client := by
  intro p
  obtain ⟨hcrashed, hconn⟩ := connected_run cfg token s hrun
  obtain ⟨l, cl, answer, hhandles, heq⟩ := handle_of_running r cfg a hrun
  rw [poll_returned hrun, heq, ← hhandles.ends_iff hconn hcrashed]
  exact outcome_eq_none

/-- The connection is lost while a file is received; the reset throws, too. -/
theorem throws_out_of_poll :
    let r := Remote.willing ⟨2, "ffmpeg".toList, "mov".toList, ".mp4".toList, []⟩ (true, [7]) true
    let a := LocalAnswers.working [7]
    let p := (machine .gCfg).run (start 3 ()) [.poll r a none, .poll r a none, .poll r a none]
    let lost : Remote Unit :=
      { r with
        readChunk := fun _ s => (s, .error (.rpcTimeout "read chunk: timeout".toList))
        reset := fun _ s => (s, .error (.systemError "broken pipe".toList)) }
    ¬ (p.poll lost .gCfg a none).Returned
      ∧ (p.poll lost .gCfg a none).ending = some (.uncaught (.systemError "broken pipe".toList)) := by
  decide +kernel

/-- If the reset is answered, the poll returns. -/
theorem returned_reset :
    let r := Remote.willing ⟨2, "ffmpeg".toList, "mov".toList, ".mp4".toList, []⟩ (true, [7]) true
    let a := LocalAnswers.working [7]
    let p := (machine .gCfg).run (start 3 ()) [.poll r a none, .poll r a none, .poll r a none]
    let slow : Remote Unit :=
      { r with readChunk := fun _ s => (s, .error (.rpcTimeout "read chunk: timeout".toList)) }
    (p.poll slow .gCfg a none).Returned := by
  intro r a p slow
  refine (returned_iff .gCfg 3 () slow a none (by decide +kernel)).mpr ?_
  have hstate : p.client.mainState = .receiving := by decide +kernel
  have hreset : ∀ l₁ l' : Line Unit, ∀ e, l₁.reset slow = (l', .error e) → l₁.rpc = none := by
    intro l₁ l' e hreset
    cases hrpc : l₁.rpc with
    | none => rfl
    | some rpc =>
      have hanswer := (Line.call_of_some hrpc).symm.trans hreset
      cases (Prod.mk.inj hanswer).2
  simp only [Client.Escapes]
  rw [hstate]
  have hsome : p.line.rpc.isSome = true := by decide +kernel
  rintro (⟨-, l₁, l', e, ⟨e', hread⟩ | ⟨data, hread, -⟩, hfails⟩ | ⟨-, hlaunches, -⟩)
  · rw [(Line.rpc_of_call hread).symm.trans (hreset l₁ l' e hfails)] at hsome
    cases hsome
  · rw [(Line.rpc_of_call hread).symm.trans (hreset l₁ l' e hfails)] at hsome
    cases hsome
  · cases hlaunches

end Process

end MediaArchiver
