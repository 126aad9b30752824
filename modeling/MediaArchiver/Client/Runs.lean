/-
# MediaArchiver.Client.Runs -- what handlers, polls and runs of the client keep

Some facts hold for every handler: records only grow, a client shuts down only if it was asked to, a null
pointer is used in two places. They are stated once here.

Over them stand the rules for polls and runs. A poll is its handler, a stop request, and the look at the
shutdown flag; `invariant` needs to know of each of them what it keeps, and of the server that it is not
looked at. `invariant_running` is the same for properties that only have to hold while the process runs.
-/
import MediaArchiver.Client.Handles

namespace MediaArchiver

open Lib (Machine)

universe u

namespace Client

variable {σ : Type u} {r : Remote σ} {cfg : ClientSettings} {a : LocalAnswers} {l : Line σ}
  {cl : Client}

/-! ## What every handler does -/

variable {l' : Line σ} {cl' : Client} {answer : Except Exn Unit}

theorem prefix_of_throws {α : Type} {made : Prop} {call : Line σ → Line σ × Except Exn α} {e : Exn}
    (hcall : ∀ {l₁ : Line σ}, call l₁ = (l', .error e) → l₁.calls <+: l'.calls)
    (hthrow : Throws r made call l l' e) : l.calls <+: l'.calls := by
  rcases hthrow with hcheck | ⟨-, l₁, hcheck, hthrown⟩
  · exact Line.prefix_of_checkCreateRpc hcheck
  · exact (Line.prefix_of_checkCreateRpc hcheck).trans (hcall hthrown)

/-- The records only grow. -/
theorem Handles.calls_prefix (h : Handles r cfg a l cl l' cl' answer) : l.calls <+: l'.calls := by
  cases h with
  | refuse | waits | returns | convert | convertLost => exact List.prefix_rfl
  | idleFailed hstate hstop hthrow | idleStays hstate hstop hthrow =>
    exact prefix_of_throws Line.prefix_of_call hthrow
  | sendFailed hstate hthrow => exact prefix_of_throws Line.prefix_of_call hthrow
  | authRetries hstate hstop hthrow he | authThrows hstate hstop hthrow he =>
    exact prefix_of_throws Line.prefix_of_authenticate hthrow
  | authForgets hstate hstop hthrow => exact prefix_of_throws Line.prefix_of_authenticate hthrow
  | idleUnknown hstate hstop hauth hcheck | sendUnknown hstate hauth hcheck =>
    exact Line.prefix_of_checkCreateRpc hcheck
  | idleNone hstate hstop hauth hcheck hget hlength | idleFile hstate hstop hauth hcheck hget hlength =>
    have hgrows := (Line.prefix_of_checkCreateRpc hcheck).trans (Line.prefix_of_call hget)
    exact hgrows
  | sendUpload hstate hauth hcheck hpost hup | sendDone hstate hauth hcheck hpost hup =>
    exact (Line.prefix_of_checkCreateRpc hcheck).trans (Line.prefix_of_call hpost)
  | authDone hstate hstop hcheck hcall =>
    exact (Line.prefix_of_checkCreateRpc hcheck).trans (Line.prefix_of_authenticate hcall)
  | receiveMore hstate hstop hread | receiveDone hstate hstop hread hpos hlaunch
  | receiveLost hstate hstop hread hpos hlaunch =>
    have hgrows := Line.prefix_of_call hread
    exact hgrows
  | receiveThrew hstate hstop hread hreset | receiveShort hstate hstop hread hpos hreset =>
    exact (Line.prefix_of_call hread).trans (Line.prefix_of_call hreset)
  | transmitMore hstate hwrite heof | transmitDone hstate hwrite heof =>
    exact Line.prefix_of_call hwrite
  | transmitRestart hstate hwrite hfail hreset =>
    exact (Line.prefix_of_call hwrite).trans (Line.prefix_of_call hreset)
  | transmitLacks hstate hmem hreset => exact Line.prefix_of_call hreset

/-- A handler lets the client shut down if a stop was requested, or forced while it ran. -/
theorem Handles.shutdown (h : Handles r cfg a l cl l' cl' answer) :
    cl'.shutdown = cl.shutdown ∨ (cl.Refuses ∧ cl.stopRequested = true) ∨
      (cl.mainState = .waitForEncodingFinished ∧ a.encoder.forced = true) := by
  cases h with
  | refuse hstate hstop => exact Or.inr (Or.inl ⟨hstate, hstop⟩)
  | convert hstate hproc =>
    rcases (doConvert_converts cfg hproc a.encoder).shutdown with hsame | hforced
    · exact Or.inl hsame
    · exact Or.inr (Or.inr ⟨hstate, hforced⟩)
  | _ => exact Or.inl rfl

/-- No handler touches the token. -/
theorem Handles.token (h : Handles r cfg a l cl l' cl' answer) : cl'.token = cl.token := by
  cases h with
  | convert hstate hproc => exact (doConvert_converts cfg hproc a.encoder).token
  | _ => rfl

/-- A client that encodes looks at its encoder, or uses one that is not there. -/
theorem Handles.converting (h : Handles r cfg a l cl l' cl' answer)
    (hstate : cl.mainState = .waitForEncodingFinished) :
    (cl.encodeProcess = true ∧ cl' = cl.doConvert cfg a.encoder) ∨ l'.crashed = true := by
  cases h with
  | convert hstate' hproc => exact Or.inl ⟨hproc, rfl⟩
  | convertLost hstate' hproc => exact Or.inr rfl
  | refuse hrefuses => exact absurd hstate hrefuses.not_encoding
  | waits hin | returns hin =>
    rw [hstate] at hin
    cases hin
  | idleFailed hin | idleStays hin | idleUnknown hin | idleNone hin | idleFile hin | authRetries hin
  | authForgets hin | authThrows hin | authDone hin | receiveMore hin | receiveThrew hin
  | receiveShort hin | receiveDone hin | receiveLost hin | sendFailed hin | sendUnknown hin
  | sendUpload hin | sendDone hin | transmitMore hin | transmitDone hin | transmitRestart hin
  | transmitLacks hin => cases hin.symm.trans hstate

/-! ## What the server keeps -/

/-- Whatever a client with this token asks for, something stays true of the server. -/
structure AskingKeeps (r : Remote σ) (token : Text) (P : σ → Prop) : Prop where
  createServer : ∀ {s}, P s → P (r.createServer s).1
  authenticate : ∀ {id s}, P s → P (r.authenticate id token s).1
  getNextFile : ∀ {id filter s}, P s → P (r.getNextFile id filter s).1
  readChunk : ∀ {id s}, P s → P (r.readChunk id s).1
  postFile : ∀ {id result s}, P s → P (r.postFile id result s).1

/-- It stays true whatever the client calls. -/
structure ServerKeeps (r : Remote σ) (token : Text) (P : σ → Prop) : Prop
    extends AskingKeeps r token P where
  writeChunk : ∀ {id data s}, P s → P (r.writeChunk id data s).1
  reset : ∀ {id s}, P s → P (r.reset id s).1
  abort : ∀ {id s}, P s → P (r.abort id s).1

section ServerKeeps

variable {P : σ → Prop}

theorem keeps_call {α : Type} {function : RpcFunction} {seen : α → Bool}
    {f : SessionId → σ → σ × Except Exn α} {answer : Except Exn α}
    (hf : ∀ {id s}, P s → P (f id s).1) (h : l.call function seen f = (l', answer))
    (hP : P l.server) : P l'.server := by
  rcases Line.server_of_call h with ⟨heq, -⟩ | ⟨rpc, -, heq⟩
  · rw [heq]
    exact hP
  · have hserver : (f rpc.conn l.server).1 = l'.server := congrArg Prod.fst heq
    exact hserver ▸ hf hP

theorem keeps_checkCreateRpc {answer : Except Exn Unit}
    (hcreate : ∀ {s}, P s → P (r.createServer s).1) (h : l.checkCreateRpc r = (l', answer))
    (hP : P l.server) : P l'.server := by
  rcases Line.server_of_checkCreateRpc h with heq | heq
  · rw [heq]
    exact hP
  · rw [heq]
    exact hcreate hP

theorem keeps_authenticate {token : Text} {answer : Except Exn Unit}
    (hauth : ∀ {id s}, P s → P (r.authenticate id token s).1)
    (h : l.authenticate r token = (l', answer)) (hP : P l.server) : P l'.server := by
  rcases Line.server_of_authenticate h with ⟨heq, -⟩ | ⟨rpc, -, heq⟩
  · rw [heq]
    exact hP
  · have hserver : (r.authenticate rpc.conn token l.server).1 = l'.server := congrArg Prod.fst heq
    exact hserver ▸ hauth hP

theorem keeps_throws {α : Type} {made : Prop} {call : Line σ → Line σ × Except Exn α} {e : Exn}
    (hcreate : ∀ {s}, P s → P (r.createServer s).1)
    (hcall : ∀ {l₁ : Line σ}, call l₁ = (l', .error e) → P l₁.server → P l'.server)
    (hthrow : Throws r made call l l' e) (hP : P l.server) : P l'.server := by
  rcases hthrow with hcheck | ⟨-, l₁, hcheck, hthrown⟩
  · exact keeps_checkCreateRpc hcreate hcheck hP
  · exact hcall hthrown (keeps_checkCreateRpc hcreate hcheck hP)

/-- Handlers that neither receive nor transmit only ask. -/
theorem Handles.asking (h : Handles r cfg a l cl l' cl' answer) (hreceiving : cl.mainState ≠ .receiving)
    (htransmitting : cl.mainState ≠ .transmitting)
    (hkeeps : AskingKeeps r (toString cl.token).toList P) (hP : P l.server) : P l'.server := by
  cases h with
  | refuse | waits | returns | convert | convertLost => exact hP
  | idleFailed hstate hstop hthrow | idleStays hstate hstop hthrow =>
    exact keeps_throws hkeeps.createServer (keeps_call hkeeps.getNextFile) hthrow hP
  | sendFailed hstate hthrow =>
    exact keeps_throws hkeeps.createServer (keeps_call hkeeps.postFile) hthrow hP
  | authRetries hstate hstop hthrow he | authThrows hstate hstop hthrow he =>
    exact keeps_throws hkeeps.createServer (keeps_authenticate hkeeps.authenticate) hthrow hP
  | authForgets hstate hstop hthrow =>
    exact keeps_throws hkeeps.createServer (keeps_authenticate hkeeps.authenticate) hthrow hP
  | idleUnknown hstate hstop hauth hcheck | sendUnknown hstate hauth hcheck =>
    exact keeps_checkCreateRpc hkeeps.createServer hcheck hP
  | idleNone hstate hstop hauth hcheck hget hlength | idleFile hstate hstop hauth hcheck hget hlength =>
    have hafter := keeps_call hkeeps.getNextFile hget (keeps_checkCreateRpc hkeeps.createServer hcheck hP)
    exact hafter
  | sendUpload hstate hauth hcheck hpost hup | sendDone hstate hauth hcheck hpost hup =>
    exact keeps_call hkeeps.postFile hpost (keeps_checkCreateRpc hkeeps.createServer hcheck hP)
  | authDone hstate hstop hcheck hcall =>
    exact keeps_authenticate hkeeps.authenticate hcall
      (keeps_checkCreateRpc hkeeps.createServer hcheck hP)
  | receiveMore hstate | receiveDone hstate | receiveLost hstate | receiveThrew hstate
  | receiveShort hstate => exact absurd hstate hreceiving
  | transmitMore hstate | transmitDone hstate | transmitRestart hstate | transmitLacks hstate =>
    exact absurd hstate htransmitting

/-- What all calls keep, every handler keeps. -/
theorem Handles.server (h : Handles r cfg a l cl l' cl' answer)
    (hkeeps : ServerKeeps r (toString cl.token).toList P) (hP : P l.server) : P l'.server := by
  by_cases hasks : cl.mainState ≠ .receiving ∧ cl.mainState ≠ .transmitting
  · exact h.asking hasks.1 hasks.2 hkeeps.toAskingKeeps hP
  cases h with
  | receiveMore hstate hstop hread => exact keeps_call hkeeps.readChunk hread hP
  | receiveDone hstate hstop hread hpos hlaunch | receiveLost hstate hstop hread hpos hlaunch =>
    have hafter := keeps_call hkeeps.readChunk hread hP
    exact hafter
  | receiveThrew hstate hstop hread hreset | receiveShort hstate hstop hread hpos hreset =>
    exact keeps_call hkeeps.reset hreset (keeps_call hkeeps.readChunk hread hP)
  | transmitMore hstate hwrite heof | transmitDone hstate hwrite heof =>
    exact keeps_call hkeeps.writeChunk hwrite hP
  | transmitRestart hstate hwrite hfail hreset =>
    exact keeps_call hkeeps.reset hreset (keeps_call hkeeps.writeChunk hwrite hP)
  | transmitLacks hstate hmem hreset => exact keeps_call hkeeps.reset hreset hP
  | refuse | waits | returns | convert | convertLost => exact hP
  | _ => simp_all

end ServerKeeps

/-! ## Where the client goes back to -/

/-- The state to return to is one of two, and a transmission has something to transmit. -/
structure Placed (cl : Client) : Prop where
  prev : cl.prevMainState = .idle ∨ cl.prevMainState = .sendResult
  uploads : cl.mainState = .transmitting → cl.encResult.Uploads

/-- Every handler keeps to that. -/
theorem Placed.handles (h : Placed cl)
    (hhandles : Handles r cfg a l cl l' cl' answer) : Placed cl' := by
  -- neither of the two is the transmission
  have hprev : cl.prevMainState ≠ .transmitting := by
    rcases h.prev with hprev | hprev <;> simp [hprev]
  cases hhandles with
  | refuse | idleStays | authRetries | authThrows | receiveMore | receiveThrew | receiveShort
  | waits | convertLost | transmitMore | transmitRestart | transmitLacks => exact ⟨h.prev, h.uploads⟩
  | idleFailed | idleUnknown | idleNone | idleFile | authForgets => exact ⟨Or.inl rfl, nofun⟩
  | authDone | returns => exact ⟨h.prev, fun hstate => absurd hstate hprev⟩
  | receiveDone => exact ⟨h.prev, nofun⟩
  | receiveLost hstate =>
    refine ⟨h.prev, fun htrans => ?_⟩
    cases hstate.symm.trans htrans
  | convert hstate hproc =>
    have hconverts := doConvert_converts cfg hproc a.encoder
    refine ⟨hconverts.prev ▸ h.prev, fun htrans => ?_⟩
    rcases hconverts.state with ⟨hsend, -⟩ | ⟨hstays, -⟩
    · cases hsend.symm.trans htrans
    · cases hstate.symm.trans (hstays.symm.trans htrans)
  | sendFailed | sendUnknown => exact ⟨Or.inr rfl, nofun⟩
  | sendUpload hstate hauth hcheck hpost hup => exact ⟨h.prev, fun _ => hup⟩
  | sendDone | transmitDone => exact ⟨h.prev, nofun⟩

/-! ## Null pointers -/

/-- A client that receives or transmits has an object for it. -/
def Connected (l : Line σ) (cl : Client) : Prop :=
  cl.mainState = .receiving ∨ cl.mainState = .transmitting → l.rpc.isSome = true

/-- A file was received, and the encoder does not start. -/
def LaunchLost (r : Remote σ) (a : LocalAnswers) (l : Line σ) (cl : Client) : Prop :=
  (cl.mainState = .receiving ∧ cl.stopRequested = false) ∧ a.launches = false ∧
    ∃ l₁ data, l.readChunk r = (l₁, .ok (false, data))
      ∧ sizeT (cl.srcFile.write a.written data).tellp = cl.encSettings.fileLength

/-- Throwing does no harm either. -/
theorem crashed_of_throws {α : Type} {made : Prop} {call : Line σ → Line σ × Except Exn α} {e : Exn}
    (hcall : ∀ {l₁ : Line σ}, l₁.rpc.isSome = true → call l₁ = (l', .error e) →
      l'.crashed = l₁.crashed)
    (hthrow : Throws r made call l l' e) : l'.crashed = l.crashed := by
  rcases hthrow with hcheck | ⟨-, l₁, hcheck, hthrown⟩
  · exact (Line.calls_of_checkCreateRpc hcheck).2
  · rw [hcall (Line.isSome_of_checkCreateRpc hcheck) hthrown]
    exact (Line.calls_of_checkCreateRpc hcheck).2

/-- A null pointer is used if the encoder does not start, and in the next poll if there is none. -/
theorem Handles.crashed (h : Handles r cfg a l cl l' cl' answer) (hconn : Connected l cl) :
    l'.crashed = l.crashed ∨ LaunchLost r a l cl ∨
      (cl.mainState = .waitForEncodingFinished ∧ cl.encodeProcess = false) := by
  -- a call on the object that the check has left
  have hchecked : ∀ {α : Type} {function : RpcFunction} {seen : α → Bool}
      {f : SessionId → σ → σ × Except Exn α} {answer : Except Exn α} {l₁ l₂ : Line σ},
      l.checkCreateRpc r = (l₁, .ok ()) → l₁.call function seen f = (l₂, answer) →
      l₂.crashed = l.crashed := by
    intro α function seen f answer l₁ l₂ hcheck hcall
    rw [Line.crashed_of_call hcall (Line.isSome_of_checkCreateRpc hcheck),
      (Line.calls_of_checkCreateRpc hcheck).2]
  -- two calls on the object that is there
  have hcalls : ∀ {α β : Type} {function function' : RpcFunction} {seen : α → Bool}
      {seen' : β → Bool} {f : SessionId → σ → σ × Except Exn α}
      {f' : SessionId → σ → σ × Except Exn β} {answer : Except Exn α} {answer' : Except Exn β}
      {l₁ l₂ : Line σ}, l.rpc.isSome = true → l.call function seen f = (l₁, answer) →
      l₁.call function' seen' f' = (l₂, answer') → l₂.crashed = l.crashed := by
    intro α β function function' seen seen' f f' answer answer' l₁ l₂ hrpc hfirst hsecond
    rw [Line.crashed_of_call hsecond ((congrArg Option.isSome (Line.rpc_of_call hfirst)).trans hrpc),
      Line.crashed_of_call hfirst hrpc]
  cases h with
  | refuse | waits | returns | convert => exact Or.inl rfl
  | idleFailed hstate hstop hthrow | idleStays hstate hstop hthrow =>
    exact Or.inl (crashed_of_throws (fun hrpc hcall => Line.crashed_of_call hcall hrpc) hthrow)
  | sendFailed hstate hthrow =>
    exact Or.inl (crashed_of_throws (fun hrpc hcall => Line.crashed_of_call hcall hrpc) hthrow)
  | authRetries hstate hstop hthrow he | authThrows hstate hstop hthrow he =>
    exact Or.inl (crashed_of_throws (fun hrpc hcall => Line.crashed_of_authenticate hcall hrpc) hthrow)
  | authForgets hstate hstop hthrow =>
    exact Or.inl (crashed_of_throws (fun hrpc hcall => Line.crashed_of_authenticate hcall hrpc) hthrow)
  | idleUnknown hstate hstop hauth hcheck | sendUnknown hstate hauth hcheck =>
    exact Or.inl (Line.calls_of_checkCreateRpc hcheck).2
  | idleNone hstate hstop hauth hcheck hget hlength | idleFile hstate hstop hauth hcheck hget hlength =>
    have hcrashed := hchecked hcheck hget
    exact Or.inl hcrashed
  | sendUpload hstate hauth hcheck hpost hup | sendDone hstate hauth hcheck hpost hup =>
    exact Or.inl (hchecked hcheck hpost)
  | authDone hstate hstop hcheck hcall =>
    left
    rw [Line.crashed_of_authenticate hcall (Line.isSome_of_checkCreateRpc hcheck),
      (Line.calls_of_checkCreateRpc hcheck).2]
  | receiveMore hstate hstop hread | receiveDone hstate hstop hread hpos hlaunch =>
    have hcrashed := Line.crashed_of_call hread (hconn (Or.inl hstate))
    exact Or.inl hcrashed
  | receiveThrew hstate hstop hread hreset | receiveShort hstate hstop hread hpos hreset =>
    exact Or.inl (hcalls (hconn (Or.inl hstate)) hread hreset)
  | receiveLost hstate hstop hread hpos hlaunch =>
    exact Or.inr (Or.inl ⟨⟨hstate, hstop⟩, hlaunch, _, _, hread, hpos⟩)
  | convertLost hstate hproc => exact Or.inr (Or.inr ⟨hstate, hproc⟩)
  | transmitMore hstate hwrite heof | transmitDone hstate hwrite heof =>
    exact Or.inl (Line.crashed_of_call hwrite (hconn (Or.inr hstate)))
  | transmitRestart hstate hwrite hfail hreset =>
    exact Or.inl (hcalls (hconn (Or.inr hstate)) hwrite hreset)
  | transmitLacks hstate hmem hreset =>
    exact Or.inl (Line.crashed_of_call hreset (hconn (Or.inr hstate)))

/-- The object is there as long as it is needed, unless the process ends. -/
theorem Connected.handles (h : Connected l cl) (hplaced : cl.Placed)
    (hhandles : Handles r cfg a l cl l' cl' (.ok ())) : Connected l' cl' := by
  -- in the other states nothing is needed
  have hfree : ∀ {l₂ : Line σ} {cl₂ : Client}, cl₂.mainState ≠ .receiving →
      cl₂.mainState ≠ .transmitting → Connected l₂ cl₂ := by
    intro l₂ cl₂ hreceiving htransmitting hstate
    exact absurd hstate (not_or.mpr ⟨hreceiving, htransmitting⟩)
  -- the way back leads to none of the two
  have hback : cl.prevMainState ≠ .receiving ∧ cl.prevMainState ≠ .transmitting := by
    rcases hplaced.prev with hprev | hprev <;> simp [hprev]
  -- calls leave the object where it is
  have hsame : ∀ {l₂ : Line σ} {cl₂ : Client}, cl₂.mainState = cl.mainState →
      l₂.rpc = l.rpc → Connected l₂ cl₂ := by
    intro l₂ cl₂ hstate hrpc hin
    rw [hrpc]
    exact h (hstate ▸ hin)
  cases hhandles with
  | refuse hstate hstop => exact hsame rfl rfl
  | waits | convertLost => exact hsame rfl rfl
  | idleFailed | idleUnknown | idleNone | authForgets => exact hfree nofun nofun
  | idleStays hstate => exact hfree (by simp [hstate]) (by simp [hstate])
  | authRetries hstate => exact hfree (by simp [hstate]) (by simp [hstate])
  | idleFile hstate hstop hauth hcheck hget hlength =>
    intro _
    rw [Line.rpc_of_call hget]
    exact Line.isSome_of_checkCreateRpc hcheck
  | authDone | returns => exact hfree hback.1 hback.2
  | receiveMore hstate hstop hread => exact hsame rfl (Line.rpc_of_call hread)
  | receiveThrew hstate hstop hread hreset | receiveShort hstate hstop hread hpos hreset =>
    exact hsame rfl ((Line.rpc_of_call hreset).trans (Line.rpc_of_call hread))
  | receiveDone => exact hfree nofun nofun
  | convert hstate hproc =>
    rcases (doConvert_converts cfg hproc a.encoder).state with ⟨hsend, -⟩ | ⟨hstays, -⟩
    · exact hfree (by simp [hsend]) (by simp [hsend])
    · exact hfree (by simp [hstays, hstate]) (by simp [hstays, hstate])
  | sendFailed | sendUnknown | sendDone | transmitDone => exact hfree nofun nofun
  | sendUpload hstate hauth hcheck hpost hup =>
    intro _
    rw [Line.rpc_of_call hpost]
    exact Line.isSome_of_checkCreateRpc hcheck
  | transmitMore hstate hwrite heof => exact hsame rfl (Line.rpc_of_call hwrite)
  | transmitRestart hstate hwrite hfail hreset =>
    exact hsame rfl ((Line.rpc_of_call hreset).trans (Line.rpc_of_call hwrite))
  | transmitLacks hstate hmem hreset => exact hsame rfl (Line.rpc_of_call hreset)

end Client

/-! ## Polls and runs -/

namespace Process

open Client (Handles handle_handles)

variable {σ : Type u} {r : Remote σ} {cfg : ClientSettings} {a : LocalAnswers} {p : Process σ}

theorem outcome_eq_none {l : Line σ} {answer : Except Exn Unit} :
    outcome l answer = none ↔ l.crashed = false ∧ answer = .ok () := by
  unfold outcome
  cases l.crashed <;> cases answer <;> simp

/-- A running process handles its state in one of the ways. -/
theorem handle_of_running (r : Remote σ) (cfg : ClientSettings) (a : LocalAnswers)
    (hrun : p.ending = none) : ∃ l cl answer,
    Handles r cfg a p.line p.client l cl answer ∧ p.handle r cfg a = ⟨cl, l, outcome l answer⟩ := by
  refine ⟨_, _, _, handle_handles r cfg a p.line p.client, ?_⟩
  simp [handle, hrun]

theorem handle_of_ended (hend : p.ending ≠ none) : p.handle r cfg a = p := by
  unfold handle
  rw [if_pos (Option.isSome_iff_ne_none.mpr hend)]

@[simp] theorem signal_ending (stop : Option Bool) : (p.signal stop).ending = p.ending := by
  cases stop <;> rfl

/-- Whoever is not to end goes on. -/
theorem finish_of_goesOn (h : p.ending.isSome = true ∨ p.client.shutdown = false) :
    p.finish r = p := by
  unfold finish
  rw [if_pos]
  simpa using h

theorem finish_ending (hrun : p.ending = none) :
    (p.finish r).ending = none ↔ p.client.shutdown = false := by
  unfold finish
  cases hshut : p.client.shutdown <;> simp [hrun]

/-- A process that still runs after `finish` is the one before. -/
theorem finish_of_running (hrun : (p.finish r).ending = none) : p.finish r = p := by
  by_cases hend : p.ending.isSome = true
  · exact finish_of_goesOn (Or.inl hend)
  · rw [Bool.not_eq_true, Option.isSome_eq_false_iff, Option.isNone_iff_eq_none] at hend
    exact finish_of_goesOn (Or.inr ((finish_ending hend).mp hrun))

/-- At the end of `poll` nothing happens, or the file is given back, if there is a connection for it, and
everything is closed. -/
theorem finish_cases (r : Remote σ) (p : Process σ) :
    p.finish r = p ∨
      (p.ending = none ∧ p.client.shutdown = true ∧ ∃ l,
        (l = p.line ∨ l = (p.line.abort r).1)
          ∧ p.finish r = ⟨p.client.leave, l.drop, some .finished⟩) := by
  unfold finish
  split
  · exact Or.inl rfl
  · rename_i hgoes
    rw [Bool.or_eq_true, not_or] at hgoes
    refine Or.inr ⟨by simpa using hgoes.1, by simpa using hgoes.2, _, ?_, rfl⟩
    split
    · split
      · exact Or.inr rfl
      · exact Or.inl rfl
    · exact Or.inl rfl

theorem calls_finish (r : Remote σ) (p : Process σ) : p.line.calls <+: (p.finish r).line.calls := by
  rcases finish_cases r p with heq | ⟨-, -, l, rfl | rfl, heq⟩
  · exact heq.symm ▸ List.prefix_rfl
  · exact heq.symm ▸ List.prefix_rfl
  · rw [heq]
    have habort : p.line.abort r = ((p.line.abort r).1, (p.line.abort r).2) := rfl
    have hgrows := Line.prefix_of_call habort
    exact hgrows

/-- A client that still runs after a poll is not to shut down. -/
theorem shutdown_of_poll {stop : Option Bool} (hrun : (p.poll r cfg a stop).ending = none) :
    (p.poll r cfg a stop).client.shutdown = false := by
  unfold poll at hrun ⊢
  have heq := finish_of_running hrun
  rw [heq] at hrun ⊢
  exact (finish_ending (r := r) hrun).mp (heq.symm ▸ hrun)

/-- `poll` returns unless the handler throws or uses a null pointer. -/
theorem poll_returned {stop : Option Bool} (hrun : p.ending = none) :
    (p.poll r cfg a stop).Returned ↔ (p.handle r cfg a).ending = none := by
  unfold poll
  cases hend : (p.handle r cfg a).ending with
  | some ending =>
    rw [finish_of_goesOn (Or.inl (by simp [hend]))]
    obtain ⟨l, cl, answer, -, heq⟩ := handle_of_running r cfg a hrun
    have houtcome : outcome l answer = some ending := by
      rw [← hend, heq]
    have hne : ending ≠ .finished := by
      rintro rfl
      revert houtcome
      unfold outcome
      cases l.crashed <;> cases answer <;> simp
    simp [Returned, hend, hne]
  | none =>
    simp only [iff_true]
    unfold finish
    split
    · exact Or.inl (by simp [hend])
    · exact Or.inr rfl

/-- A process that still runs after a poll was running before, and nothing but a stop request came after
its handler. -/
theorem poll_of_running {stop : Option Bool} (hrun : (p.poll r cfg a stop).ending = none) :
    p.ending = none ∧ ∃ l cl, Handles r cfg a p.line p.client l cl (.ok ()) ∧ l.crashed = false
      ∧ p.handle r cfg a = ⟨cl, l, none⟩
      ∧ (machine cfg).step p (.poll r a stop) = (⟨cl, l, none⟩ : Process σ).signal stop := by
  have hfinish : p.poll r cfg a stop = (p.handle r cfg a).signal stop := finish_of_running hrun
  have hhandle : (p.handle r cfg a).ending = none := by
    rwa [hfinish, signal_ending] at hrun
  have hbefore : p.ending = none := by
    by_contra hend
    have hsame : p.handle r cfg a = p := handle_of_ended hend
    exact hend (hsame ▸ hhandle)
  obtain ⟨l, cl, answer, hhandles, heq⟩ := handle_of_running r cfg a hbefore
  rw [heq] at hhandle
  obtain ⟨hcrashed, rfl⟩ := outcome_eq_none.mp hhandle
  have hnone : p.handle r cfg a = ⟨cl, l, none⟩ := by
    rw [heq]
    exact congrArg (Process.mk cl l) hhandle
  have hstep : p.poll r cfg a stop = (⟨cl, l, none⟩ : Process σ).signal stop := by rw [hfinish, hnone]
  exact ⟨hbefore, l, cl, hhandles, hcrashed, hnone, hstep⟩

/-- The process runs, and nobody has asked it to stop. -/
structure Undisturbed (p : Process σ) : Prop where
  ending : p.ending = none
  crashed : p.line.crashed = false
  stopRequested : p.client.stopRequested = false
  shutdown : p.client.shutdown = false

/-- A handler that returns, on a line that is in order. -/
theorem Undisturbed.poll (h : p.Undisturbed) {l : Line σ} {cl : Client}
    (hhandle : p.client.handle r cfg a p.line = (l, cl, .ok ())) (hcrashed : l.crashed = false)
    (hstop : cl.stopRequested = false) (hshutdown : cl.shutdown = false) :
    p.poll r cfg a none = ⟨cl, l, none⟩ ∧ Undisturbed ⟨cl, l, none⟩ := by
  have houtcome : outcome l (.ok ()) = none := outcome_eq_none.mpr ⟨hcrashed, rfl⟩
  have hrun : p.handle r cfg a = ⟨cl, l, none⟩ := by
    simp [Process.handle, h.ending, hhandle, houtcome]
  refine ⟨?_, rfl, hcrashed, hstop, hshutdown⟩
  simp [Process.poll, hrun, signal, finish, hshutdown]

/-- What all calls keep, a poll keeps. -/
theorem keeps_poll {P : σ → Prop} (hkeeps : Client.ServerKeeps r (toString p.client.token).toList P)
    (stop : Option Bool) (hP : P p.line.server) : P (p.poll r cfg a stop).line.server := by
  have hnow : P (p.handle r cfg a).line.server := by
    by_cases hrun : p.ending = none
    · obtain ⟨l, cl, answer, hhandles, heq⟩ := handle_of_running r cfg a hrun
      rw [heq]
      exact hhandles.server hkeeps hP
    · rw [handle_of_ended hrun]
      exact hP
  have hsignal : P ((p.handle r cfg a).signal stop).line.server := by cases stop <;> exact hnow
  unfold poll
  rcases finish_cases r ((p.handle r cfg a).signal stop) with heq | ⟨-, -, l, rfl | rfl, heq⟩
  · rw [heq]
    exact hsignal
  · rw [heq]
    exact hsignal
  · rw [heq]
    have habort : ((p.handle r cfg a).signal stop).line.abort r = (_, _) := rfl
    have hafter := Client.keeps_call hkeeps.abort habort hsignal
    exact hafter

/-- What the handlers, a stop request, the end of `poll` and the server keep, a run keeps. -/
theorem invariant {I : Process σ → Prop} {guard : Process σ → ClientEvent σ → Prop}
    (hhandle : ∀ {r a stop p l cl answer}, guard p (.poll r a stop) → p.ending = none → I p →
      Handles r cfg a p.line p.client l cl answer → I ⟨cl, l, outcome l answer⟩)
    (hsignal : ∀ {p q e forced}, guard p e → e.stops = some forced → I q →
      I (q.signal (some forced)))
    (hfinish : ∀ {r p}, I p → I (p.finish r))
    (hserve : ∀ {p f}, guard p (.serve f) → I p →
      I { p with line := { p.line with server := f p.line.server } })
    (hp : I p) {es : List (ClientEvent σ)} (hg : (machine cfg).Along guard p es) :
    I ((machine cfg).run p es) := by
  apply (machine cfg).invariant ?_ hp hg
  intro p e hI hguard
  cases e with
  | poll r a stop =>
    have hnow : I (p.handle r cfg a) := by
      by_cases hrun : p.ending = none
      · obtain ⟨l, cl, answer, hhandles, heq⟩ := handle_of_running r cfg a hrun
        rw [heq]
        exact hhandle hguard hrun hI hhandles
      · rw [handle_of_ended hrun]
        exact hI
    apply hfinish
    cases stop with
    | none => exact hnow
    | some forced => exact hsignal hguard rfl hnow
  | stop forced => exact hsignal hguard rfl hI
  | serve f => exact hserve hguard hI

/-- The same for what has to hold only as long as the process runs. -/
theorem invariant_running (cfg : ClientSettings) (I : Line σ → Client → Prop)
    {guard : Process σ → ClientEvent σ → Prop}
    (hhandle : ∀ {r a stop p l cl}, guard p (.poll r a stop) → p.ending = none →
      I p.line p.client → Handles r cfg a p.line p.client l cl (.ok ()) → l.crashed = false → I l cl)
    (hstop : ∀ {p e forced l cl}, guard p e → e.stops = some forced → I l cl → I l (cl.stop forced))
    (hserve : ∀ {p f l cl}, guard p (.serve f) → I l cl → I { l with server := f l.server } cl)
    (hp : p.ending = none → I p.line p.client) {es : List (ClientEvent σ)}
    (hg : (machine cfg).Along guard p es) (hrun : ((machine cfg).run p es).ending = none) :
    I ((machine cfg).run p es).line ((machine cfg).run p es).client := by
  refine invariant (I := fun p => p.ending = none → I p.line p.client) ?_ ?_ ?_ ?_ hp hg hrun
  · intro r a stop p l cl answer hguard hrun hI hhandles hnone
    obtain ⟨hcrashed, rfl⟩ := outcome_eq_none.mp hnone
    exact hhandle hguard hrun (hI hrun) hhandles hcrashed
  · intro p q e forced hguard hstops hI hnone
    exact hstop hguard hstops (hI hnone)
  · intro r p hI hnone
    have heq := finish_of_running hnone
    rw [heq] at hnone ⊢
    exact hI hnone
  · intro p f hguard hI hnone
    exact hserve hguard (hI hnone)

theorem placed_run (cfg : ClientSettings) (token : Nat) (s : σ) (es : List (ClientEvent σ)) :
    ((machine cfg).run (start token s) es).client.Placed := by
  apply invariant (I := fun p => p.client.Placed) ?_ ?_ ?_ ?_ ?_ ((machine cfg).along_true _ es)
  · intro r a stop p l cl answer _ _ hI hhandles
    exact hI.handles hhandles
  · intro p q e forced _ _ hI
    exact ⟨hI.prev, hI.uploads⟩
  · intro r p hI
    rcases finish_cases r p with heq | ⟨-, -, l, -, heq⟩
    · rw [heq]
      exact hI
    · rw [heq]
      exact ⟨hI.prev, hI.uploads⟩
  · intro p f _ hI
    exact hI
  · exact ⟨Or.inl rfl, nofun⟩

/-- What is true of every client that runs. -/
theorem connected_run (cfg : ClientSettings) (token : Nat) (s : σ) {es : List (ClientEvent σ)}
    (hrun : ((machine cfg).run (start token s) es).ending = none) :
    ((machine cfg).run (start token s) es).line.crashed = false
      ∧ Client.Connected ((machine cfg).run (start token s) es).line
        ((machine cfg).run (start token s) es).client := by
  have hinv := invariant_running cfg
    (fun l cl => cl.Placed ∧ l.crashed = false ∧ Client.Connected l cl) ?_ ?_ ?_ ?_
    ((machine cfg).along_true (start token s) es) hrun
  · exact hinv.2
  · rintro r a stop p l cl - - ⟨hplaced, -, hconn⟩ hhandles hcrashed
    exact ⟨hplaced.handles hhandles, hcrashed, hconn.handles hplaced hhandles⟩
  · rintro p e forced l cl - - ⟨hplaced, hinv⟩
    exact ⟨⟨hplaced.prev, hplaced.uploads⟩, hinv⟩
  · rintro p f l cl - hinv
    exact hinv
  · rintro -
    exact ⟨⟨Or.inl rfl, nofun⟩, rfl, nofun⟩

end Process

end MediaArchiver
