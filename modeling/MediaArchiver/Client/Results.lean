/-
# MediaArchiver.Client.Results -- a result until the daemon has it

From `SendResult` on the client has a result to deliver. It posts it, uploads the file that belongs to it,
and meanwhile waits, reconnects and authenticates as often as it has to: all that time it is on the way
back to `SendResult` or in `Transmitting` (`Awaits`). It leaves that with the daemon's acceptance, and
through two more doors, both in `doAuth`. A failure of the system makes it forget where it was going, and a
stop request makes it shut down although it had something to deliver. `Abandons` is when one of them
opens; without it the result is delivered before the client is idle again (`result_kept`), and a stop
request lets it be delivered before the client shuts down (`job_kept`).
-/
import MediaArchiver.Client.Runs

namespace MediaArchiver

open Lib (Machine)

universe u

/-- The answer with which the daemon accepts a result: to the post, or to the chunk that completes the
upload. -/
def CallRecord.Accepts (result : EncodingResultInfo) (c : CallRecord) : Prop :=
  if result.Uploads then (∃ data, c.function = .writeChunk data) ∧ c.answer = some false
  else c.function = .postFile result ∧ c.answer = some true

/-- A result was accepted after the calls before. -/
def Line.Accepted {σ : Type u} (result : EncodingResultInfo) (before : List CallRecord) (l : Line σ) :
    Prop :=
  ∃ new, l.calls = before ++ new ∧ ∃ c ∈ new, c.Accepts result

/-- No forced stop. -/
def ClientEvent.Unforced {σ : Type u} (e : ClientEvent σ) : Prop :=
  e.stops ≠ some true ∧
    match e with
    | .poll _ a _ => a.encoder.forced = false
    | .stop _ | .serve _ => True

namespace Client

variable {σ : Type u} {r : Remote σ} {cfg : ClientSettings} {a : LocalAnswers} {l l' : Line σ}
  {cl cl' : Client} {answer : Except Exn Unit} {result : EncodingResultInfo}
  {before : List CallRecord}

theorem accepted_mono (h : l.Accepted result before) (hgrows : l.calls <+: l'.calls) :
    l'.Accepted result before := by
  obtain ⟨new, hcalls, c, hc, haccepts⟩ := h
  obtain ⟨more, hmore⟩ := hgrows
  refine ⟨new ++ more, ?_, c, List.mem_append_left more hc, haccepts⟩
  rw [← hmore, hcalls, List.append_assoc]

/-- A call that accepts comes after whatever was before. -/
theorem accepted_of_call {c : CallRecord} (hbefore : before <+: l.calls)
    (hcalls : l'.calls = l.calls ++ [c]) (haccepts : c.Accepts result) :
    l'.Accepted result before := by
  obtain ⟨new, hnew⟩ := hbefore
  refine ⟨new ++ [c], ?_, c, List.mem_append_right new (List.mem_singleton_self c), haccepts⟩
  rw [hcalls, ← hnew, List.append_assoc]

/-- A result is to be delivered: to be posted, or to be uploaded. -/
def Awaits (result : EncodingResultInfo) (cl : Client) : Prop :=
  cl.encResult = result ∧
    (cl.HeadsFor .sendResult ∨ (cl.mainState = .transmitting ∧ result.Uploads))

/-- The system fails while a client authenticates that has a result to post. -/
def Forgets (r : Remote σ) (l : Line σ) (cl : Client) : Prop :=
  (cl.mainState = .authenticateing ∧ cl.prevMainState = .sendResult) ∧ cl.stopRequested = false ∧
    ∃ l' what, Throws r True (Line.authenticate r (toString cl.token).toList) l l' (.systemError what)

/-- The same, or a stop was requested when it authenticates. -/
def Abandons (r : Remote σ) (l : Line σ) (cl : Client) : Prop :=
  Forgets r l cl ∨ ((cl.mainState = .authenticateing ∧ cl.prevMainState = .sendResult)
    ∧ cl.stopRequested = true)

/-- A client that has a result to deliver keeps it, or it was accepted just now. -/
theorem Awaits.handles (h : cl.Awaits result) (hnot : ¬ Forgets r l cl)
    (hbefore : before <+: l.calls) (hhandles : Handles r cfg a l cl l' cl' answer) :
    cl'.Awaits result ∨ l'.Accepted result before := by
  obtain ⟨rfl, hwhere⟩ := h
  -- it is in one of three kinds of states
  have hstates : cl.mainState = .sendResult ∨ cl.mainState = .transmitting ∨
      ((Waits cl.mainState ∨ cl.mainState = .authenticateing) ∧ cl.prevMainState = .sendResult) := by
    rcases hwhere with (hsend | hback) | ⟨htrans, -⟩
    · exact Or.inl hsend
    · exact Or.inr (Or.inr hback)
    · exact Or.inr (Or.inl htrans)
  have hidle : cl.mainState ≠ .idle := by
    rintro hstate
    simp [hstate, Waits] at hstates
  have hreceiving : cl.mainState ≠ .receiving := by
    rintro hstate
    simp [hstate, Waits] at hstates
  have hconverting : cl.mainState ≠ .waitForEncodingFinished := by
    rintro hstate
    simp [hstate, Waits] at hstates
  cases hhandles with
  | refuse | waits => exact Or.inl ⟨rfl, hwhere⟩
  | idleFailed hstate | idleStays hstate | idleUnknown hstate | idleNone hstate | idleFile hstate =>
    exact absurd hstate hidle
  | receiveMore hstate | receiveThrew hstate | receiveShort hstate | receiveDone hstate
  | receiveLost hstate =>
    exact absurd hstate hreceiving
  | convert hstate | convertLost hstate => exact absurd hstate hconverting
  | authRetries hstate hstop hthrow he => exact Or.inl ⟨rfl, hwhere⟩
  | authThrows hstate hstop hthrow he => exact Or.inl ⟨rfl, hwhere⟩
  | authForgets hstate hstop hthrow =>
    have hprev : cl.prevMainState = .sendResult := by simpa [hstate] using hstates
    exact absurd ⟨⟨hstate, hprev⟩, hstop, _, _, hthrow⟩ hnot
  | authDone hstate hstop hcheck hcall =>
    have hprev : cl.prevMainState = .sendResult := by simpa [hstate] using hstates
    exact Or.inl ⟨rfl, Or.inl (Or.inl hprev)⟩
  | returns hstate hstop =>
    rcases hstates with hsend | htrans | ⟨-, hprev⟩
    · rw [hsend] at hstate
      cases hstate
    · rw [htrans] at hstate
      cases hstate
    · exact Or.inl ⟨rfl, Or.inl (Or.inl hprev)⟩
  | sendFailed hstate hthrow => exact Or.inl ⟨rfl, Or.inl (Or.inr ⟨Or.inl trivial, rfl⟩)⟩
  | sendUnknown hstate hauth hcheck => exact Or.inl ⟨rfl, Or.inl (Or.inr ⟨Or.inr rfl, rfl⟩)⟩
  | sendUpload hstate hauth hcheck hpost hup => exact Or.inl ⟨rfl, Or.inr ⟨rfl, hup⟩⟩
  | sendDone hstate hauth hcheck hpost hup =>
    obtain ⟨rpc, -, hcalls⟩ := Line.calls_of_answered hpost
    refine Or.inr (accepted_of_call (hbefore.trans (Line.prefix_of_checkCreateRpc hcheck)) hcalls ?_)
    rw [CallRecord.Accepts, if_neg hup]
    exact ⟨rfl, rfl⟩
  | transmitMore hstate hwrite heof =>
    rcases hwhere with hheads | ⟨-, hup⟩
    · simp [HeadsFor, hstate, Waits] at hheads
    · exact Or.inl ⟨rfl, Or.inr ⟨hstate, hup⟩⟩
  | transmitRestart hstate | transmitLacks hstate =>
    rcases hwhere with hheads | ⟨-, hup⟩
    · simp [HeadsFor, hstate, Waits] at hheads
    · exact Or.inl ⟨rfl, Or.inr ⟨hstate, hup⟩⟩
  | transmitDone hstate hwrite heof =>
    rcases hwhere with hheads | ⟨-, hup⟩
    · simp [HeadsFor, hstate, Waits] at hheads
    · obtain ⟨rpc, -, hcalls⟩ := Line.calls_of_answered hwrite
      refine Or.inr (accepted_of_call hbefore hcalls ?_)
      rw [CallRecord.Accepts, if_pos hup]
      exact ⟨⟨_, rfl⟩, rfl⟩

/-- There is a job whose result the daemon does not have yet. -/
def Busy (cl : Client) : Prop :=
  cl.mainState = .waitForEncodingFinished ∨ cl.HeadsFor .sendResult ∨ cl.mainState = .transmitting

theorem Busy.awaits (h : cl.Busy) (hplaced : cl.Placed)
    (hstate : cl.mainState ≠ .waitForEncodingFinished) : cl.Awaits cl.encResult := by
  rcases h with hconverting | hheads | htrans
  · exact absurd hconverting hstate
  · exact ⟨rfl, Or.inl hheads⟩
  · exact ⟨rfl, Or.inr ⟨htrans, hplaced.uploads htrans⟩⟩

/-- The job of a client that is not to shut down: it is being encoded, or its result is to be delivered. If
its result is known already, it is `known`. -/
def Works (known : Option EncodingResultInfo) (cl : Client) : Prop :=
  cl.shutdown = false ∧
    (cl.mainState = .waitForEncodingFinished ∧ known = none ∨
      ∃ result, (∀ result' ∈ known, result = result') ∧ cl.Awaits result)

/-- Without a forced stop the client works on, or its result was accepted just now. -/
theorem Works.handles {known : Option EncodingResultInfo} (h : cl.Works known)
    (hforced : a.encoder.forced = false) (hnot : ¬ Abandons r l cl) (hbefore : before <+: l.calls)
    (hhandles : Handles r cfg a l cl l' cl' answer) :
    cl'.Works known ∨ ∃ result, (∀ result' ∈ known, result = result')
      ∧ l'.Accepted result before := by
  obtain ⟨hshut, ⟨hconverting, rfl⟩ | ⟨result, hknown, hawaits⟩⟩ := h
  · -- the encoder runs, or has just finished
    cases hhandles with
    | convert hstate hproc =>
      have hconverts := doConvert_converts cfg hproc a.encoder
      have hshut' : (cl.doConvert cfg a.encoder).shutdown = false := by
        rcases hconverts.shutdown with hsame | hforced'
        · exact hsame.trans hshut
        · exact absurd (hforced.symm.trans hforced') (by decide)
      refine Or.inl ⟨hshut', ?_⟩
      rcases hconverts.state with ⟨hsend, -⟩ | ⟨hstays, -⟩
      · exact Or.inr ⟨_, nofun, rfl, Or.inl (Or.inl hsend)⟩
      · exact Or.inl ⟨hstays.trans hstate, rfl⟩
    | convertLost hstate hproc => exact Or.inl ⟨hshut, Or.inl ⟨hstate, rfl⟩⟩
    | refuse hstate hstop =>
      rcases hstate with hstate | hstate | hstate | ⟨hstate, -⟩
      · cases hconverting.symm.trans hstate
      · cases hconverting.symm.trans hstate
      · cases hconverting.symm.trans hstate
      · rw [hconverting] at hstate
        cases hstate
    | waits hstate | returns hstate hstop =>
      rw [hconverting] at hstate
      cases hstate
    | idleFailed hstate | idleStays hstate | idleUnknown hstate | idleNone hstate | idleFile hstate
    | authRetries hstate | authForgets hstate | authThrows hstate | authDone hstate
    | receiveMore hstate | receiveThrew hstate | receiveShort hstate | receiveDone hstate
    | receiveLost hstate | sendFailed hstate | sendUnknown hstate | sendUpload hstate
    | sendDone hstate | transmitMore hstate | transmitDone hstate | transmitRestart hstate
    | transmitLacks hstate => cases hconverting.symm.trans hstate
  · have hshut' : cl'.shutdown = false := by
      rcases hhandles.shutdown with hsame | ⟨hrefuses, hstop⟩ | ⟨hconverting, -⟩
      · exact hsame.trans hshut
      · -- only in `Authenticateing`, which is ruled out
        exfalso
        rcases hawaits.2 with hsend | ⟨htrans, -⟩
        · rcases hsend with hsend | ⟨hauth | hauth, hprev⟩
          · simp [Refuses, hsend, Waits] at hrefuses
          · rcases hrefuses with hstate | hstate | hstate | ⟨-, hidle⟩
            · rw [hstate] at hauth
              cases hauth
            · rw [hstate] at hauth
              cases hauth
            · rw [hstate] at hauth
              cases hauth
            · cases hprev.symm.trans hidle
          · exact hnot (Or.inr ⟨⟨hauth, hprev⟩, hstop⟩)
        · simp [Refuses, htrans, Waits] at hrefuses
      · exfalso
        have hwhere := hawaits.2
        simp [HeadsFor, hconverting, Waits] at hwhere
    rcases hawaits.handles (fun hforgets => hnot (Or.inl hforgets)) hbefore hhandles with
      hawaits' | haccepted
    · exact Or.inl ⟨hshut', Or.inr ⟨result, hknown, hawaits'⟩⟩
    · exact Or.inr ⟨result, hknown, haccepted⟩

end Client

namespace Process

open Client (Awaits accepted_mono)

variable {σ : Type u} {cfg : ClientSettings} {p : Process σ} {result : EncodingResultInfo}
  {before : List CallRecord}

/-- The system does not fail while a result waits for the client to authenticate. -/
def Remembers (p : Process σ) : ClientEvent σ → Prop
  | .poll r _ _ => p.ending = none → ¬ Client.Forgets r p.line p.client
  | .stop _ | .serve _ => True

/-- No stop is forced, and no result waits for a client that authenticates after a stop request or when
the system fails. -/
def Persists (p : Process σ) (e : ClientEvent σ) : Prop :=
  e.Unforced ∧
    match e with
    | .poll r _ _ => p.ending = none → ¬ Client.Abandons r p.line p.client
    | .stop _ | .serve _ => True

/-- From `SendResult` the client gets to `Idle` only with the result accepted. -/
theorem result_kept (hstate : p.client.mainState = .sendResult) {es : List (ClientEvent σ)}
    (hes : (machine cfg).Along Remembers p es)
    (hidle : ((machine cfg).run p es).client.mainState = .idle) :
    ((machine cfg).run p es).line.Accepted p.client.encResult p.line.calls := by
  have hinv : p.line.calls <+: ((machine cfg).run p es).line.calls
      ∧ (((machine cfg).run p es).client.Awaits p.client.encResult
        ∨ ((machine cfg).run p es).line.Accepted p.client.encResult p.line.calls) := by
    generalize hresult : p.client.encResult = result
    generalize hcalls : p.line.calls = before
    apply invariant (I := fun q => before <+: q.line.calls
      ∧ (q.client.Awaits result ∨ q.line.Accepted result before)) ?_ ?_ ?_ ?_ ?_ hes
    · rintro r a stop q l cl answer hguard hrun ⟨hbefore, hor⟩ hhandles
      refine ⟨hbefore.trans hhandles.calls_prefix, ?_⟩
      rcases hor with hawaits | haccepted
      · exact hawaits.handles (hguard hrun) hbefore hhandles
      · exact Or.inr (accepted_mono haccepted hhandles.calls_prefix)
    · intro q q' e forced _ _ hI
      exact hI
    · rintro r q ⟨hbefore, hor⟩
      refine ⟨hbefore.trans (calls_finish r q), ?_⟩
      rcases hor with hawaits | haccepted
      · rcases finish_cases r q with heq | ⟨-, -, l, -, heq⟩
        · exact Or.inl (heq.symm ▸ hawaits)
        · rw [heq]
          exact Or.inl hawaits
      · exact Or.inr (accepted_mono haccepted (calls_finish r q))
    · intro q f _ hI
      exact hI
    · exact ⟨hcalls ▸ List.prefix_rfl, Or.inl ⟨hresult, Or.inl (Or.inl hstate)⟩⟩
  rcases hinv.2 with hawaits | haccepted
  · exfalso
    have hwhere := hawaits.2
    simp [Client.HeadsFor, hidle, Client.Waits] at hwhere
  · exact haccepted

/-- A server that gives out a file of two bytes, takes everything and throws nothing. -/
def obliging : Remote Unit :=
  .willing ⟨2, "ffmpeg".toList, "mov".toList, ".mp4".toList, "-crf 20".toList⟩ (false, [7, 8]) false

theorem not_throws_obliging {made : Prop} {token : Text} {l l' : Line Unit} {e : Exn} :
    ¬ Client.Throws obliging made (Line.authenticate obliging token) l l' e := by
  rintro (hcheck | ⟨-, l₁, hcheck, hcall⟩)
  · obtain ⟨-, s, hcreate, -⟩ := Line.checkCreateRpc_error hcheck
    cases (Prod.mk.inj hcreate).2
  · obtain ⟨rpc, hrpc⟩ := Option.isSome_iff_exists.mp (Line.isSome_of_checkCreateRpc hcheck)
    rw [Line.authenticate_of_some hrpc] at hcall
    cases (Prod.mk.inj hcall).2

/-- A poll of a client that gets on with its work. -/
def smooth : ClientEvent Unit := .poll obliging (.working [9]) none

theorem remembers_smooth (q : Process Unit) : q.Remembers smooth := by
  rintro - ⟨-, -, l', what, hthrow⟩
  exact not_throws_obliging hthrow

/-- A job from its result to the next one. -/
theorem result_kept_upload :
    let p := (machine .gCfg).run (start 3 ()) [smooth, smooth, smooth, smooth, smooth]
    ((machine .gCfg).run p [smooth, smooth, smooth, smooth]).line.Accepted p.client.encResult
      p.line.calls := by
  intro p
  have hsmooth := remembers_smooth
  exact result_kept (by decide +kernel)
    ⟨hsmooth _, hsmooth _, hsmooth _, hsmooth _, trivial⟩ (by decide +kernel)

/-- The system fails when the client authenticates to post its result. It waits, and asks for the next
file. -/
theorem result_forgotten :
    let p := (machine .gCfg).run (start 3 ()) [smooth, smooth, smooth, smooth, smooth]
    let q := (machine .gCfg).run p
      [smooth,
        .poll { obliging with
          authenticate := fun _ _ s => (s, .error (.systemError "connection reset".toList)) }
          (.working [9]) none,
        smooth]
    p.client.mainState = .sendResult ∧ p.client.encResult.Uploads ∧ q.client.mainState = .idle
      ∧ ¬ q.line.Accepted p.client.encResult p.line.calls := by
  intro p q
  have hcalls : q.line.calls = p.line.calls ++ [⟨.authenticate, false, none⟩] := by decide +kernel
  refine ⟨by decide +kernel, by decide +kernel, by decide +kernel, ?_⟩
  rintro ⟨new, hnew, c, hc, haccepts⟩
  rw [hcalls, List.append_cancel_left_eq] at hnew
  subst hnew
  rw [List.mem_singleton.mp hc, CallRecord.Accepts] at haccepts
  split at haccepts
  · cases haccepts.2
  · cases haccepts.2

/-- As long as no stop is forced, a client that runs is not to shut down. -/
theorem shutdown_of_unforced (cfg : ClientSettings) (token : Nat) (s : σ)
    {es : List (ClientEvent σ)} (hes : ∀ e ∈ es, e.Unforced)
    (hrun : ((machine cfg).run (start token s) es).ending = none) :
    ((machine cfg).run (start token s) es).client.shutdown = false := by
  have hunforced : (machine cfg).Along (fun _ e => e.Unforced) (start token s) es :=
    (machine cfg).along_of_forall hes _
  refine (machine cfg).invariant (P := fun p => p.ending = none → p.client.shutdown = false)
    ?_ (fun _ => rfl) hunforced hrun
  intro p e hI hunforced hnone
  cases e with
  | poll r a stop => exact shutdown_of_poll hnone
  | stop forced =>
    have hforced : forced = false := by simpa [ClientEvent.Unforced, ClientEvent.stops] using hunforced
    subst hforced
    have hshut := hI hnone
    simp [machine, signal, Client.stop, hshut]
  | serve f => exact hI hnone

/-- A client that is asked to stop, but not forced, delivers the result of its job before it shuts
down. -/
theorem job_kept (cfg : ClientSettings) (token : Nat) (s : σ) {es fs : List (ClientEvent σ)}
    (hes : ∀ e ∈ es, e.Unforced) (hrun : ((machine cfg).run (start token s) es).ending = none)
    (hbusy : ((machine cfg).run (start token s) es).client.Busy)
    (hfs : (machine cfg).Along Persists ((machine cfg).run (start token s) es) fs) :
    let p := (machine cfg).run (start token s) es
    let q := (machine cfg).run p fs
    q.client.shutdown = true → ∃ result,
      (p.client.mainState ≠ .waitForEncodingFinished → result = p.client.encResult)
        ∧ q.line.Accepted result p.line.calls := by
  intro p q hshut
  have hplaced : p.client.Placed := placed_run cfg token s es
  -- what is known of the result when the job is looked at first
  obtain ⟨known, hknown, hworks⟩ : ∃ known : Option EncodingResultInfo,
      (p.client.mainState ≠ .waitForEncodingFinished → known = some p.client.encResult)
        ∧ p.client.Works known := by
    have hshut₀ := shutdown_of_unforced cfg token s hes hrun
    by_cases hstate : p.client.mainState = .waitForEncodingFinished
    · exact ⟨none, fun hne => absurd hstate hne, hshut₀, Or.inl ⟨hstate, rfl⟩⟩
    · refine ⟨some p.client.encResult, fun _ => rfl, hshut₀,
        Or.inr ⟨p.client.encResult, ?_, ?_⟩⟩
      · rintro result' ⟨⟩
        rfl
      · exact Client.Busy.awaits hbusy hplaced hstate
  have hinv : p.line.calls <+: q.line.calls
      ∧ (q.client.Works known ∨ ∃ result, (∀ result' ∈ known, result = result')
        ∧ q.line.Accepted result p.line.calls) := by
    apply invariant (I := fun q => p.line.calls <+: q.line.calls
      ∧ (q.client.Works known ∨ ∃ result, (∀ result' ∈ known, result = result')
        ∧ q.line.Accepted result p.line.calls)) ?_ ?_ ?_ ?_ ?_ hfs
    · rintro r a stop q l cl answer ⟨hunforced, hnot⟩ hrun ⟨hbefore, hor⟩ hhandles
      refine ⟨hbefore.trans hhandles.calls_prefix, ?_⟩
      rcases hor with hworks | ⟨result, htie, haccepted⟩
      · exact hworks.handles hunforced.2 (hnot hrun) hbefore hhandles
      · exact Or.inr ⟨result, htie, accepted_mono haccepted hhandles.calls_prefix⟩
    · rintro q q' e forced ⟨hunforced, -⟩ hstops ⟨hbefore, hor⟩
      refine ⟨hbefore, hor.imp_left ?_⟩
      rintro ⟨hshut, hwhere⟩
      have hforced : forced = false := by
        cases forced with
        | false => rfl
        | true => exact absurd hstops hunforced.1
      subst hforced
      exact ⟨by simp [signal, Client.stop, hshut], hwhere⟩
    · rintro r q ⟨hbefore, hor⟩
      refine ⟨hbefore.trans (calls_finish r q), ?_⟩
      rcases hor with hworks | ⟨result, htie, haccepted⟩
      · rw [finish_of_goesOn (Or.inr hworks.1)]
        exact Or.inl hworks
      · exact Or.inr ⟨result, htie, accepted_mono haccepted (calls_finish r q)⟩
    · intro q f _ hI
      exact hI
    · exact ⟨List.prefix_rfl, Or.inl hworks⟩
  rcases hinv.2 with hworks | ⟨result, htie, haccepted⟩
  · exact absurd (hworks.1.symm.trans hshut) (by decide)
  · refine ⟨result, fun hstate => htie _ ?_, haccepted⟩
    rw [hknown hstate]
    rfl

theorem persists_smooth (q : Process Unit) (hstop : q.client.stopRequested = false ∨
    q.client.mainState ≠ .authenticateing) : q.Persists smooth := by
  refine ⟨⟨nofun, rfl⟩, ?_⟩
  rintro - (⟨-, -, l', what, hthrow⟩ | ⟨⟨hauth, -⟩, hstopped⟩)
  · exact not_throws_obliging hthrow
  · rcases hstop with hstop | hstate
    · exact absurd (hstop.symm.trans hstopped) (by decide)
    · exact hstate hauth

/-- A stop is requested when the client has authenticated to post its result. It uploads the file and
shuts down. -/
theorem job_kept_upload :
    let p := (machine .gCfg).run (start 3 ()) [smooth, smooth, smooth, smooth]
    let q := (machine .gCfg).run p
      [smooth, smooth, smooth, .stop false, smooth, smooth, smooth]
    q.ending = some .finished ∧ ∃ result,
      (p.client.mainState ≠ .waitForEncodingFinished → result = p.client.encResult)
        ∧ q.line.Accepted result p.line.calls := by
  intro p q
  have hsmooth := persists_smooth
  refine ⟨by decide +kernel, job_kept .gCfg 3 () ?_ (by decide +kernel) (Or.inl (by decide +kernel))
    ⟨hsmooth _ (by decide +kernel), hsmooth _ (by decide +kernel), hsmooth _ (by decide +kernel),
      ⟨⟨nofun, trivial⟩, trivial⟩, hsmooth _ (by decide +kernel), hsmooth _ (by decide +kernel),
      hsmooth _ (by decide +kernel), trivial⟩ (by decide +kernel)⟩
  intro e he
  rw [List.eq_of_mem_replicate (n := 4) (b := e) (a := smooth) he]
  exact ⟨nofun, rfl⟩

/-- A stop is requested while the client encodes. It shuts down as soon as it has to authenticate for the
result. -/
theorem job_dropped :
    let p := (machine .gCfg).run (start 3 ()) [smooth, smooth, smooth, smooth]
    let q := (machine .gCfg).run p [.stop false, smooth, smooth, smooth]
    p.client.mainState = .waitForEncodingFinished ∧ q.client.shutdown = true
      ∧ ∀ result, ¬ q.line.Accepted result p.line.calls := by
  intro p q
  have hcalls : q.line.calls = p.line.calls ++ [⟨.abort, false, some true⟩] := by decide +kernel
  refine ⟨by decide +kernel, by decide +kernel, ?_⟩
  rintro result ⟨new, hnew, c, hc, haccepts⟩
  rw [hcalls, List.append_cancel_left_eq] at hnew
  subst hnew
  rw [List.mem_singleton.mp hc, CallRecord.Accepts] at haccepts
  split at haccepts
  · obtain ⟨⟨data, hfunction⟩, -⟩ := haccepts
    cases hfunction
  · cases haccepts.1

end Process

end MediaArchiver
