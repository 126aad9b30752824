/-
# MediaArchiver.Client.Authentication -- what the client believes about its connection

`m_authenticated` says that `authenticate` has succeeded, but not on which object. `checkCreateRpc` puts
a new object in the place of one that lost its connection, and leaves the flag as it is; only `disconnect`
and `doAuth` clear it. So the flag is right as long as the object is the one that authenticated:
`authenticates_run` keeps it along every run in which no authenticated client finds its connection lost
when it asks for a file or posts a result. Where one does, it goes on with an object that the daemon does
not know (`asks_unknown`).
-/
import MediaArchiver.Client.Runs

namespace MediaArchiver

open Lib (Machine)

universe u

/-- A call that the daemon answers on authenticated connections only. -/
def CallRecord.Asks (c : CallRecord) : Prop :=
  c.function = .getNextFile ∨ ∃ result, c.function = .postFile result

namespace Client

variable {σ : Type u} {r : Remote σ} {cfg : ClientSettings} {a : LocalAnswers} {l l' : Line σ}
  {cl cl' : Client} {answer : Except Exn Unit}

/-- A client that believes to be authenticated has an object, and that is. -/
def Authenticates (l : Line σ) (cl : Client) : Prop :=
  cl.authenticated = true → ∃ rpc, l.rpc = some rpc ∧ rpc.authenticated = true

/-- The calls that need it were made on authenticated objects. -/
def AllKnown (l : Line σ) : Prop := ∀ c ∈ l.calls, c.Asks → c.authenticated = true

/-- The states in which an authenticated client goes on without authenticating. -/
def Proceeds (cl : Client) : Prop :=
  ((cl.mainState = .idle ∧ cl.stopRequested = false) ∨ cl.mainState = .sendResult)
    ∧ cl.authenticated = true

/-- A client that proceeds finds its object connected, or cannot replace it. -/
def KeepsObject (r : Remote σ) (l : Line σ) (cl : Client) : Prop :=
  cl.Proceeds → ∀ rpc, l.rpc = some rpc →
    r.isConnected rpc.conn l.server = true ∨ ∃ s e, r.createServer l.server = (s, .error e)

theorem not_asks_of_function {c : CallRecord} {function : RpcFunction} (h : c.function = function)
    (hget : function ≠ .getNextFile) (hpost : ∀ result, function ≠ .postFile result) : ¬ c.Asks := by
  rintro (hc | ⟨result, hc⟩)
  · exact hget (h.symm.trans hc)
  · exact hpost result (h.symm.trans hc)

/-- Calls of the other kind do not matter. -/
theorem AllKnown.of_mem (h : AllKnown l) (hmem : ∀ c ∈ l'.calls, c ∈ l.calls ∨ ¬ c.Asks) :
    AllKnown l' := by
  intro c hc hasks
  rcases hmem c hc with hold | hnot
  · exact h c hold hasks
  · exact absurd hasks hnot

theorem AllKnown.call {α : Type} {function : RpcFunction} {seen : α → Bool}
    {f : SessionId → σ → σ × Except Exn α} {answer : Except Exn α} (h : AllKnown l)
    (hcall : l.call function seen f = (l', answer))
    (hknown : ∀ rpc, l.rpc = some rpc → rpc.authenticated = true ∨
      (function ≠ .getNextFile ∧ ∀ result, function ≠ .postFile result)) : AllKnown l' := by
  intro c hc hasks
  rcases Line.mem_calls_of_call hcall hc with hold | ⟨rpc, hrpc, rfl⟩
  · exact h c hold hasks
  · rcases hknown rpc hrpc with hauth | ⟨hget, hpost⟩
    · exact hauth
    · exact absurd hasks (not_asks_of_function rfl hget hpost)

/-- An authenticated client that keeps its object has the same one after the check. -/
theorem checkCreateRpc_keeps (hkeep : KeepsObject r l cl) (hproceeds : cl.Proceeds)
    (hinv : Authenticates l cl) (hcheck : l.checkCreateRpc r = (l', .ok ())) : l' = l := by
  obtain ⟨rpc, hrpc, -⟩ := hinv hproceeds.2
  obtain ⟨rpc', -, ⟨rfl, -⟩ | ⟨hlost, s, hcreate, -⟩⟩ := Line.checkCreateRpc_ok hcheck
  · rfl
  · rcases hkeep hproceeds rpc hrpc with hconn | ⟨s', e, hfails⟩
    · exact absurd (hconn.symm.trans (hlost rpc hrpc)) (by decide)
    · cases (Prod.mk.inj (hcreate.symm.trans hfails)).2

/-- What was thrown left the object in its place, and a call before was made on it. -/
theorem throws_keeps {α : Type} {call : Line σ → Line σ × Except Exn α} {function : RpcFunction}
    {seen : α → Bool} {f : SessionId → σ → σ × Except Exn α}
    (hcalls : call = Line.call function seen f) {e : Exn}
    (hkeep : KeepsObject r l cl)
    (hstate : (cl.mainState = .idle ∧ cl.stopRequested = false) ∨ cl.mainState = .sendResult)
    (hinv : Authenticates l cl) (hknown : AllKnown l)
    (hthrow : Throws r (cl.authenticated = true) call l l' e) :
    l'.rpc = l.rpc ∧ AllKnown l' := by
  subst hcalls
  rcases hthrow with hcheck | ⟨hauth, l₁, hcheck, hcall⟩
  · obtain ⟨-, s, -, rfl⟩ := Line.checkCreateRpc_error hcheck
    exact ⟨rfl, hknown⟩
  · have hsame := checkCreateRpc_keeps hkeep ⟨hstate, hauth⟩ hinv hcheck
    subst hsame
    refine ⟨Line.rpc_of_call hcall, hknown.call hcall ?_⟩
    intro rpc hrpc
    obtain ⟨rpc', hrpc', hauth'⟩ := hinv hauth
    rw [hrpc, Option.some.injEq] at hrpc'
    exact Or.inl (hrpc' ▸ hauth')

/-- To authenticate needs no authentication, nor does what was thrown instead. -/
theorem AllKnown.throws (h : AllKnown l) {made : Prop} {token : Text} {e : Exn}
    (hthrow : Throws r made (Line.authenticate r token) l l' e) : AllKnown l' := by
  rcases hthrow with hcheck | ⟨-, l₁, hcheck, hcall⟩
  · intro c hc
    rw [(Line.calls_of_checkCreateRpc hcheck).1] at hc
    exact h c hc
  · apply h.of_mem
    intro c hc
    rw [← (Line.calls_of_checkCreateRpc hcheck).1]
    refine (Line.mem_calls_of_authenticate hcall hc).imp_right ?_
    exact fun hfunction => not_asks_of_function hfunction nofun nofun

/-- Calls that need no authentication. -/
theorem AllKnown.unasked {α : Type} {function : RpcFunction} {seen : α → Bool}
    {f : SessionId → σ → σ × Except Exn α} {answer : Except Exn α} (h : AllKnown l)
    (hcall : l.call function seen f = (l', answer)) (hget : function ≠ .getNextFile)
    (hpost : ∀ result, function ≠ .postFile result) : AllKnown l' :=
  h.call hcall fun _ _ => Or.inr ⟨hget, hpost⟩

/-- The call that an authenticated client makes after the check is made on its own object. -/
theorem proceeds_call {α : Type} {function : RpcFunction} {seen : α → Bool}
    {f : SessionId → σ → σ × Except Exn α} {answer : Except Exn α} {l₁ : Line σ}
    (hkeep : KeepsObject r l cl) (hproceeds : cl.Proceeds) (hinv : Authenticates l cl)
    (hknown : AllKnown l) (hcheck : l.checkCreateRpc r = (l₁, .ok ()))
    (hcall : l₁.call function seen f = (l', answer)) : l'.rpc = l.rpc ∧ AllKnown l' := by
  have hsame := checkCreateRpc_keeps hkeep hproceeds hinv hcheck
  subst hsame
  refine ⟨Line.rpc_of_call hcall, hknown.call hcall ?_⟩
  intro rpc hrpc
  obtain ⟨rpc', hrpc', hauth⟩ := hinv hproceeds.2
  rw [hrpc, Option.some.injEq] at hrpc'
  exact Or.inl (hrpc' ▸ hauth)

/-- What every handler keeps of it, if the object is kept. -/
theorem authenticates_handles (hkeep : KeepsObject r l cl) (hinv : Authenticates l cl)
    (hknown : AllKnown l) (h : Handles r cfg a l cl l' cl' answer) :
    Authenticates l' cl' ∧ AllKnown l' := by
  -- the flag and the object stay as they are
  have hsame : ∀ {l₂ : Line σ} {cl₂ : Client}, l₂.rpc = l.rpc →
      cl₂.authenticated = cl.authenticated → Authenticates l₂ cl₂ := by
    intro l₂ cl₂ hrpc hauth htrue
    rw [hrpc]
    exact hinv (hauth ▸ htrue)
  have hunknown : ∀ {l₂ : Line σ} {cl₂ : Client}, cl₂.authenticated = false →
      Authenticates l₂ cl₂ := by
    intro l₂ cl₂ hfalse htrue
    exact absurd (hfalse.symm.trans htrue) (by decide)
  cases h with
  | refuse hstate hstop => exact ⟨hinv, hknown⟩
  | idleFailed hstate hstop hthrow | idleStays hstate hstop hthrow =>
    obtain ⟨hrpc, hknown'⟩ :=
      throws_keeps rfl hkeep (Or.inl ⟨hstate, hstop⟩) hinv hknown hthrow
    exact ⟨hsame hrpc rfl, hknown'⟩
  | idleUnknown hstate hstop hauth hcheck | sendUnknown hstate hauth hcheck =>
    refine ⟨hunknown hauth, hknown.of_mem ?_⟩
    intro c hc
    rw [(Line.calls_of_checkCreateRpc hcheck).1] at hc
    exact Or.inl hc
  | idleNone hstate hstop hauth hcheck hget hlength =>
    have hcall := proceeds_call hkeep ⟨Or.inl ⟨hstate, hstop⟩, hauth⟩ hinv hknown hcheck hget
    exact ⟨hunknown rfl, hcall.2⟩
  | idleFile hstate hstop hauth hcheck hget hlength =>
    have hcall := proceeds_call hkeep ⟨Or.inl ⟨hstate, hstop⟩, hauth⟩ hinv hknown hcheck hget
    exact ⟨hsame hcall.1 rfl, hcall.2⟩
  | authRetries hstate hstop hthrow he | authThrows hstate hstop hthrow he =>
    exact ⟨hunknown rfl, hknown.throws hthrow⟩
  | authForgets hstate hstop hthrow => exact ⟨hunknown rfl, hknown.throws hthrow⟩
  | authDone hstate hstop hcheck hcall =>
    obtain ⟨rpc, -, -, hrpc, -⟩ := Line.authenticate_ok hcall
    refine ⟨fun _ => ⟨_, hrpc, rfl⟩, hknown.of_mem ?_⟩
    intro c hc
    rw [← (Line.calls_of_checkCreateRpc hcheck).1]
    refine (Line.mem_calls_of_authenticate hcall hc).imp_right ?_
    exact fun hfunction => not_asks_of_function hfunction nofun nofun
  | receiveMore hstate hstop hread =>
    exact ⟨hsame (Line.rpc_of_call hread) rfl, hknown.unasked hread nofun nofun⟩
  | receiveThrew hstate hstop hread hreset | receiveShort hstate hstop hread hpos hreset =>
    refine ⟨?_, (hknown.unasked hread nofun nofun).unasked hreset nofun nofun⟩
    exact hsame ((Line.rpc_of_call hreset).trans (Line.rpc_of_call hread)) rfl
  | receiveDone hstate hstop hread hpos hlaunch | receiveLost hstate hstop hread hpos hlaunch =>
    have hknown' := hknown.unasked hread nofun nofun
    exact ⟨hunknown rfl, hknown'⟩
  | waits hstate => exact ⟨hinv, hknown⟩
  | returns hstate hstop => exact ⟨hinv, hknown⟩
  | convert hstate hproc =>
    exact ⟨hsame rfl (doConvert_converts cfg hproc a.encoder).authenticated, hknown⟩
  | convertLost hstate hproc => exact ⟨hinv, hknown⟩
  | sendFailed hstate hthrow =>
    obtain ⟨hrpc, hknown'⟩ := throws_keeps rfl hkeep (Or.inr hstate) hinv hknown hthrow
    exact ⟨hsame hrpc rfl, hknown'⟩
  | sendUpload hstate hauth hcheck hpost hup | sendDone hstate hauth hcheck hpost hup =>
    have hcall := proceeds_call hkeep ⟨Or.inr hstate, hauth⟩ hinv hknown hcheck hpost
    exact ⟨hsame hcall.1 rfl, hcall.2⟩
  | transmitMore hstate hwrite heof | transmitDone hstate hwrite heof =>
    exact ⟨hsame (Line.rpc_of_call hwrite) rfl, hknown.unasked hwrite nofun nofun⟩
  | transmitRestart hstate hwrite hfail hreset =>
    refine ⟨?_, (hknown.unasked hwrite nofun nofun).unasked hreset nofun nofun⟩
    exact hsame ((Line.rpc_of_call hreset).trans (Line.rpc_of_call hwrite)) rfl
  | transmitLacks hstate hmem hreset =>
    exact ⟨hsame (Line.rpc_of_call hreset) rfl, hknown.unasked hreset nofun nofun⟩

end Client

namespace Process

variable {σ : Type u} {cfg : ClientSettings}

/-- No poll of the run finds the connection of an authenticated client lost and replaces it. -/
def KeepsObject (p : Process σ) : ClientEvent σ → Prop
  | .poll r _ _ => p.ending = none → Client.KeepsObject r p.line p.client
  | .stop _ | .serve _ => True

/-- As long as no object is replaced behind the flag, the flag tells the truth, and nothing is asked on an
object that has not authenticated. -/
theorem authenticates_run (cfg : ClientSettings) (token : Nat) (s : σ) {es : List (ClientEvent σ)}
    (hkeep : (machine cfg).Along KeepsObject (start token s) es) :
    let p := (machine cfg).run (start token s) es
    Client.Authenticates p.line p.client ∧ Client.AllKnown p.line := by
  apply invariant (I := fun p => Client.Authenticates p.line p.client ∧ Client.AllKnown p.line)
    ?_ ?_ ?_ ?_ ?_ hkeep
  · intro r a stop p l cl answer hguard hrun ⟨hinv, hknown⟩ hhandles
    exact Client.authenticates_handles (hguard hrun) hinv hknown hhandles
  · intro p q e forced _ _ hI
    exact hI
  · intro r p hI
    rcases finish_cases r p with heq | ⟨-, -, l, hl, heq⟩
    · rw [heq]
      exact hI
    · rw [heq]
      refine ⟨fun htrue => absurd htrue Bool.false_ne_true, ?_⟩
      rcases hl with rfl | rfl
      · exact hI.2
      · have habort : p.line.abort r = ((p.line.abort r).1, (p.line.abort r).2) := rfl
        have hknown := hI.2.unasked habort nofun nofun
        exact hknown
  · intro p f _ hI
    exact hI
  · exact ⟨nofun, nofun⟩

/-- A client that connects, authenticates and gets a file over one connection. -/
theorem authenticates_download :
    let r := Remote.willing ⟨2, "ffmpeg".toList, "mov".toList, ".mp4".toList, []⟩ (true, [7]) true
    let a := LocalAnswers.working [7]
    let p := (machine .gCfg).run (start 3 ())
      [.poll r a none, .poll r a none, .poll r a none, .poll r a none]
    p.client.mainState = .receiving ∧ Client.Authenticates p.line p.client
      ∧ Client.AllKnown p.line := by
  intro r a p
  refine ⟨by decide +kernel, authenticates_run .gCfg 3 () ?_⟩
  have hkeeps : ∀ q : Process Unit, q.KeepsObject (.poll r a none) :=
    fun q _ _ _ _ => Or.inl rfl
  exact ⟨hkeeps _, hkeeps _, hkeeps _, hkeeps _, trivial⟩

/-- The connection is lost while the client is idle. A new object takes the place of the one that had
authenticated, and the client asks for a file on it. -/
theorem asks_unknown :
    let r := Remote.willing noSettings (true, []) true
    let a := LocalAnswers.working []
    let p := (machine .gCfg).run (start 3 ())
      [.poll r a none, .poll r a none,
        .poll { r with
          createServer := fun s => (s, .ok 2)
          isConnected := fun _ _ => false
          getNextFile := fun _ _ s => (s, .error (.rpcError "not authenticated".toList)) } a none]
    ¬ (Client.Authenticates p.line p.client ∧ Client.AllKnown p.line)
      ∧ p.client.authenticated = true
      ∧ p.line.calls = [⟨.authenticate, false, some true⟩, ⟨.getNextFile, false, none⟩] := by
  intro r a p
  have hcalls : p.line.calls = [⟨.authenticate, false, some true⟩, ⟨.getNextFile, false, none⟩] := by
    decide +kernel
  refine ⟨?_, by decide +kernel, hcalls⟩
  rintro ⟨-, hknown⟩
  have hlast : ⟨.getNextFile, false, none⟩ ∈ p.line.calls := by
    rw [hcalls]
    decide
  exact absurd (hknown _ hlast (Or.inl rfl)) Bool.false_ne_true

end Process

end MediaArchiver
