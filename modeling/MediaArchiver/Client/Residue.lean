/-
# MediaArchiver.Client.Residue -- what one job leaves for the next

Most members that a job uses are assigned when it begins. Two are not: `m_stdOut` collects what encoders
print and is never cleared, and `m_dstFile` stays open if its job is given up. Besides, `doConvert` puts
its line buffer into the error text even if `fgets` has not filled it.

How a job ends, apart from these, is a function of the encoder's answers (`jobEnd`), and what is posted is
one of that end and the residue (`posted_of_job`). So two clients that run the same job post the same
result if their residues and line buffers are the same as far as the job uses them (`posted_agree`). Only
two buffers that differ can make up for two residues that differ.
-/
import MediaArchiver.Client.Verdict

namespace MediaArchiver

open Lib (Machine InStream)

universe u v

/-- How a job ends: what was noted of the encoder's output, what the buffer held in the last poll, whether
the last pass and its checks went well, and the encoded file, if it is there. -/
structure JobEnd where
  printed : Text
  last : Text
  passed : Bool
  encoded : Option Bytes

/-- The polls of a job, up to its end. A job that goes on has not passed. -/
def jobEnd : Nat → Text → List EncoderAnswers → JobEnd
  | _, printed, [] => ⟨printed, [], false, none⟩
  | passNo, printed, a :: as =>
      if !a.eof then jobEnd passNo (printed ++ a.buffer) as
      else if a.exit = 0 ∧ passNo = 1 ∧ a.passLog = true then jobEnd 2 printed as
      else ⟨printed, a.buffer, decide (a.exit = 0 ∧ passNo ≠ 1 ∧ Client.Approves a), a.encoded⟩

/-- The pass that a job begins with. -/
def MediaEncoderSettings.firstPass (settings : MediaEncoderSettings) : Nat :=
  if settings.pass2Enabled then 1 else 2

/-- What earlier jobs have left: the output of their encoders, and whether the stream of the encoded file
is open. -/
structure Residue where
  stdOut : Text
  opened : Bool

def Client.residue (cl : Client) : Residue := ⟨cl.stdOut, cl.dstFile.isOpen⟩

namespace JobEnd

/-- The encoded file counts as open. -/
def Succeeds (left : Residue) (e : JobEnd) : Prop :=
  e.passed = true ∧ (left.opened = true ∨ e.encoded.isSome = true)

instance (left : Residue) (e : JobEnd) : Decidable (e.Succeeds left) :=
  inferInstanceAs (Decidable (_ ∧ _))

/-- The text for a failure. -/
def text (left : Residue) (e : JobEnd) : Text := left.stdOut ++ e.printed ++ e.last

/-- What is posted. -/
def result (left : Residue) (e : JobEnd) : EncodingResultInfo :=
  if e.Succeeds left then
    ⟨EncodingResult.ok.value,
      UInt64.ofNat (if left.opened then 0 else (e.encoded.getD []).length), []⟩
  else ⟨EncodingResult.unknownError.value, 0, e.text left⟩

end JobEnd

/-! ## A job and its end -/

namespace Client

variable {cfg : ClientSettings} {a : EncoderAnswers} {cl : Client} {settings : MediaEncoderSettings}
  {left : Residue} {as : List EncoderAnswers}

/-- An encoder runs, and what is still to come decides how the job ends. -/
structure Encoding (settings : MediaEncoderSettings) (left : Residue) (as : List EncoderAnswers)
    (printed : Text) (cl : Client) : Prop where
  state : cl.mainState = .waitForEncodingFinished
  stdOut : cl.stdOut = left.stdOut ++ printed
  opened : cl.dstFile.isOpen = left.opened
  length : cl.encResult.fileLength = 0
  rest : ∀ more, jobEnd settings.firstPass [] (as ++ more) = jobEnd cl.passNo printed more

theorem Encoding.running {printed : Text} (h : Encoding settings left as printed cl)
    (heof : a.eof = false) (hshut : cl.shutdown = false) :
    Encoding settings left (as ++ [a]) (printed ++ a.buffer) (cl.doConvert cfg a) := by
  rw [doConvert_of_running heof hshut]
  refine ⟨h.state, ?_, h.opened, h.length, fun more => ?_⟩
  · rw [h.stdOut, List.append_assoc]
  · rw [List.append_assoc, List.singleton_append, h.rest, jobEnd]
    simp [heof]

/-- The poll in which the encoder is found to have exited is the last one, unless it is the first pass that
went well. -/
theorem Encoding.jobEnd_of_exited {printed : Text} (h : Encoding settings left as printed cl)
    (heof : a.eof = true) (hlast : ¬ (a.exit = 0 ∧ cl.passNo = 1 ∧ a.passLog = true)) :
    jobEnd settings.firstPass [] (as ++ [a])
      = ⟨printed, a.buffer, decide (a.exit = 0 ∧ cl.passNo ≠ 1 ∧ Approves a), a.encoded⟩ := by
  rw [h.rest, jobEnd, if_neg (by simp [heof]), if_neg hlast]

/-- A failure is that of the job. -/
theorem Encoding.failed {printed : Text} (h : Encoding settings left as printed cl)
    (heof : a.eof = true) (hlast : ¬ (a.exit = 0 ∧ cl.passNo = 1 ∧ a.passLog = true))
    (hnot : ¬ (a.exit = 0 ∧ cl.passNo ≠ 1 ∧ Approves a) ∨
      (cl.dstFile.isOpen = false ∧ a.encoded = none)) :
    (⟨EncodingResult.unknownError.value, cl.encResult.fileLength, cl.stdOut ++ a.buffer⟩ :
        EncodingResultInfo)
      = (jobEnd settings.firstPass [] (as ++ [a])).result left := by
  have hfails : ¬ (jobEnd settings.firstPass [] (as ++ [a])).Succeeds left := by
    rw [h.jobEnd_of_exited heof hlast]
    rintro ⟨hpassed, hthere⟩
    rcases hnot with hnot | ⟨hclosed, hnone⟩
    · exact hnot (of_decide_eq_true hpassed)
    · simp [← h.opened, hclosed, hnone] at hthere
  rw [JobEnd.result, if_neg hfails, JobEnd.text, h.jobEnd_of_exited heof hlast, h.length, h.stdOut]

/-- After the encoder has exited it runs again, or was lost, or the result is that of the job. -/
theorem Encoding.exited {printed : Text} (h : Encoding settings left as printed cl)
    (hexited : Exited a cl) :
    (Encoding settings left (as ++ [a]) printed (cl.doConvert cfg a)
        ∧ (cl.doConvert cfg a).encodeProcess = true) ∨
      ((cl.doConvert cfg a).mainState = .waitForEncodingFinished
        ∧ (cl.doConvert cfg a).encodeProcess = false) ∨
      ((cl.doConvert cfg a).mainState = .sendResult
        ∧ (cl.doConvert cfg a).encResult = (jobEnd settings.firstPass [] (as ++ [a])).result left) := by
  have heof := hexited.1
  by_cases hexit : a.exit = 0
  · by_cases hpass : cl.passNo = 1
    · rw [doConvert_of_exited hexited, hexit, finishPass_of_first hpass]
      cases hlog : a.passLog with
      | true =>
        cases hlaunch : a.launches with
        | true =>
          refine Or.inl ⟨⟨h.state, h.stdOut, h.opened, h.length, fun more => ?_⟩, rfl⟩
          rw [List.append_assoc, List.singleton_append, h.rest, jobEnd, if_neg (by simp [heof]),
            if_pos ⟨hexit, hpass, hlog⟩]
          rfl
        | false => exact Or.inr (Or.inl ⟨h.state, rfl⟩)
      | false =>
        exact Or.inr (Or.inr ⟨rfl, h.failed heof (by simp [hlog]) (Or.inl (by simp [hpass]))⟩)
    · have hlast : ¬ (a.exit = 0 ∧ cl.passNo = 1 ∧ a.passLog = true) := by simp [hpass]
      by_cases happroves : Approves a
      · rw [doConvert_of_completes cfg ⟨hexited, hexit, hpass, happroves⟩]
        by_cases hthere : (cl.dstFile.isOpen || a.encoded.isSome) = true
        · rw [if_pos hthere]
          refine Or.inr (Or.inr ⟨rfl, ?_⟩)
          have hsucceeds : (jobEnd settings.firstPass [] (as ++ [a])).Succeeds left := by
            rw [h.jobEnd_of_exited heof hlast]
            refine ⟨decide_eq_true ⟨hexit, hpass, happroves⟩, ?_⟩
            rwa [← h.opened, ← Bool.or_eq_true]
          rw [JobEnd.result, if_pos hsucceeds, h.jobEnd_of_exited heof hlast, h.opened]
        · rw [if_neg hthere]
          rw [Bool.not_eq_true, Bool.or_eq_false_iff, Option.isSome_eq_false_iff,
            Option.isNone_iff_eq_none] at hthere
          exact Or.inr (Or.inr ⟨rfl, h.failed heof hlast (Or.inr hthere)⟩)
      · rw [doConvert_of_exited hexited, hexit, finishPass_of_not_approves hpass happroves]
        exact Or.inr (Or.inr ⟨rfl, h.failed heof hlast (Or.inl fun hpassed => happroves hpassed.2.2)⟩)
  · rw [doConvert_of_exited hexited, finishPass_of_failed hexit]
    exact Or.inr (Or.inr ⟨rfl, h.failed heof (fun hfirst => hexit hfirst.1)
      (Or.inl fun hpassed => hexit hpassed.1)⟩)

/-- Where a client is with a job: its encoder runs; or is lost; its result is to be delivered; or the client
is done with it, or has given it up. -/
inductive Stage (settings : MediaEncoderSettings) (left : Residue) (as : List EncoderAnswers)
    (cl : Client) : Prop where
  | encoding {printed : Text} (h : Encoding settings left as printed cl)
      (hproc : cl.encodeProcess = true)
  | lost (hstate : cl.mainState = .waitForEncodingFinished) (hproc : cl.encodeProcess = false)
  | posting (hwhere : cl.HeadsFor .sendResult ∨ cl.mainState = .transmitting)
      (hresult : cl.encResult = (jobEnd settings.firstPass [] as).result left)
  | heading (hheads : cl.HeadsFor .idle)

variable {σ : Type u} {r : Remote σ} {b : LocalAnswers} {l l' : Line σ} {cl' : Client}

/-- A poll of a client that encodes. -/
theorem Stage.converts (h : Stage settings left as cl) (hproc : cl.encodeProcess = true)
    (hstate : cl.mainState = .waitForEncodingFinished)
    (hshut : (cl.doConvert cfg a).shutdown = false) :
    Stage settings left (as ++ [a]) (cl.doConvert cfg a) := by
  cases h with
  | encoding h hproc' =>
    rcases not_givenUp hshut with hexited | ⟨heof, hshut'⟩
    · rcases h.exited hexited with ⟨hagain, hproc''⟩ | ⟨hstate', hproc''⟩ | ⟨hsend, hresult⟩
      · exact .encoding hagain hproc''
      · exact .lost hstate' hproc''
      · exact .posting (Or.inl (Or.inl hsend)) hresult
    · refine .encoding (h.running heof hshut') ?_
      rw [doConvert_of_running heof hshut']
      exact hproc
  | lost hstate' hproc' => cases hproc.symm.trans hproc'
  | posting hwhere hresult => simp [HeadsFor, hstate, Waits] at hwhere
  | heading hheads => simp [HeadsFor, hstate, Waits] at hheads

/-- The other polls of a client that is not idle. -/
theorem Stage.handles (h : Stage settings left as cl) (hidle : cl.mainState ≠ .idle)
    (hother : cl.mainState ≠ .waitForEncodingFinished)
    (hhandles : Handles r cfg b l cl l' cl' (.ok ())) : Stage settings left as cl' := by
  cases h with
  | encoding h => exact absurd h.state hother
  | lost hstate => exact absurd hstate hother
  | posting hwhere hresult =>
    have hreceiving : cl.mainState ≠ .receiving := by
      rintro hstate
      simp [HeadsFor, hstate, Waits] at hwhere
    have hback : Waits cl.mainState ∨ cl.mainState = .authenticateing →
        cl.prevMainState = .sendResult := by
      intro hstate
      rcases hwhere with (hsend | ⟨-, hprev⟩) | htrans
      · simp [hsend, Waits] at hstate
      · exact hprev
      · simp [htrans, Waits] at hstate
    cases hhandles with
    | refuse | waits | authRetries => exact .posting hwhere hresult
    | authForgets => exact .heading (Or.inr ⟨Or.inl trivial, rfl⟩)
    | authDone hstate => exact .posting (Or.inl (Or.inl (hback (Or.inr hstate)))) hresult
    | returns hstate => exact .posting (Or.inl (Or.inl (hback (Or.inl hstate)))) hresult
    | sendFailed => exact .posting (Or.inl (Or.inr ⟨Or.inl trivial, rfl⟩)) hresult
    | sendUnknown => exact .posting (Or.inl (Or.inr ⟨Or.inr rfl, rfl⟩)) hresult
    | sendUpload => exact .posting (Or.inr rfl) hresult
    | sendDone | transmitDone => exact .heading (Or.inl rfl)
    | transmitMore hstate | transmitRestart hstate | transmitLacks hstate =>
      exact .posting (Or.inr hstate) hresult
    | idleFailed hstate | idleStays hstate | idleUnknown hstate | idleNone hstate
    | idleFile hstate => exact absurd hstate hidle
    | receiveMore hstate | receiveThrew hstate | receiveShort hstate | receiveDone hstate =>
      exact absurd hstate hreceiving
    | convert hstate | convertLost hstate => exact absurd hstate hother
  | heading hheads =>
    obtain ⟨hstate, hprev⟩ := hheads.resolve_left hidle
    have hreceiving : cl.mainState ≠ .receiving := by
      rintro hin
      simp [hin, Waits] at hstate
    have hsend : cl.mainState ≠ .sendResult := by
      rintro hin
      simp [hin, Waits] at hstate
    have htransmitting : cl.mainState ≠ .transmitting := by
      rintro hin
      simp [hin, Waits] at hstate
    cases hhandles with
    | refuse | waits | authRetries => exact .heading hheads
    | authForgets => exact .heading (Or.inr ⟨Or.inl trivial, rfl⟩)
    | authDone | returns => exact .heading (Or.inl hprev)
    | idleFailed hin | idleStays hin | idleUnknown hin | idleNone hin | idleFile hin =>
      exact absurd hin hidle
    | receiveMore hin | receiveThrew hin | receiveShort hin | receiveDone hin =>
      exact absurd hin hreceiving
    | sendFailed hin | sendUnknown hin | sendUpload hin | sendDone hin => exact absurd hin hsend
    | transmitMore hin | transmitRestart hin | transmitDone hin | transmitLacks hin =>
      exact absurd hin htransmitting
    | convert hin | convertLost hin => exact absurd hin hother

theorem Stage.stop (h : Stage settings left as cl) (forced : Bool) :
    Stage settings left as (cl.stop forced) := by
  cases h with
  | encoding h hproc => exact .encoding ⟨h.state, h.stdOut, h.opened, h.length, h.rest⟩ hproc
  | lost hstate hproc => exact .lost hstate hproc
  | posting hwhere hresult => exact .posting hwhere hresult
  | heading hheads => exact .heading hheads

/-- The result that a client is to post. -/
def toPost (cl : Client) : Option EncodingResultInfo :=
  if cl.mainState = .sendResult then some cl.encResult else none

/-- The calls that were added post nothing but this result. -/
def PostsOnly (result : Option EncodingResultInfo) (before after : List CallRecord) : Prop :=
  ∃ new, after = before ++ new
    ∧ ∀ c ∈ new, ∀ posted, c.function = .postFile posted → some posted = result

section PostsOnly

variable {result : Option EncodingResultInfo} {before : List CallRecord}

theorem postsOnly_refl : PostsOnly result before before :=
  ⟨[], (List.append_nil before).symm, nofun⟩

theorem PostsOnly.concat {after : List CallRecord} (h : PostsOnly result before after) {c : CallRecord}
    (hc : ∀ posted, c.function = .postFile posted → some posted = result) :
    PostsOnly result before (after ++ [c]) := by
  obtain ⟨new, rfl, hnew⟩ := h
  refine ⟨new ++ [c], List.append_assoc .., fun d hd => ?_⟩
  rcases List.mem_append.mp hd with hd | hd
  · exact hnew d hd
  · exact List.mem_singleton.mp hd ▸ hc

variable {σ : Type u} {r : Remote σ} {l l' : Line σ}

theorem PostsOnly.call {α : Type} {function : RpcFunction} {seen : α → Bool}
    {f : SessionId → σ → σ × Except Exn α} {answer : Except Exn α}
    (h : PostsOnly result before l.calls) (hcall : l.call function seen f = (l', answer))
    (hfunction : ∀ posted, function = .postFile posted → some posted = result) :
    PostsOnly result before l'.calls := by
  rcases Line.calls_of_call hcall with hcalls | ⟨c, rfl, hcalls⟩
  · rwa [hcalls]
  · rw [hcalls]
    exact h.concat hfunction

theorem PostsOnly.other {α : Type} {function : RpcFunction} {seen : α → Bool}
    {f : SessionId → σ → σ × Except Exn α} {answer : Except Exn α}
    (h : PostsOnly result before l.calls) (hcall : l.call function seen f = (l', answer))
    (hother : ∀ posted, function ≠ .postFile posted) : PostsOnly result before l'.calls :=
  h.call hcall fun posted hposted => absurd hposted (hother posted)

theorem PostsOnly.authenticate {token : Text} {answer : Except Exn Unit}
    (h : PostsOnly result before l.calls) (hcall : l.authenticate r token = (l', answer)) :
    PostsOnly result before l'.calls := by
  rcases Line.calls_of_authenticate hcall with hcalls | ⟨c, hfunction, hcalls⟩
  · rwa [hcalls]
  · rw [hcalls]
    exact h.concat fun posted hposted => by cases hfunction.symm.trans hposted

theorem postsOnly_checkCreateRpc {answer : Except Exn Unit}
    (hcheck : l.checkCreateRpc r = (l', answer)) : PostsOnly result l.calls l'.calls := by
  rw [(Line.calls_of_checkCreateRpc hcheck).1]
  exact postsOnly_refl

theorem postsOnly_throws {α : Type} {made : Prop} {call : Line σ → Line σ × Except Exn α} {e : Exn}
    (hcalls : ∀ {l₁ : Line σ}, call l₁ = (l', .error e) → PostsOnly result l.calls l₁.calls →
      PostsOnly result l.calls l'.calls)
    (hthrow : Throws r made call l l' e) : PostsOnly result l.calls l'.calls := by
  rcases hthrow with hcheck | ⟨-, l₁, hcheck, hcall⟩
  · exact postsOnly_checkCreateRpc hcheck
  · exact hcalls hcall (postsOnly_checkCreateRpc hcheck)

end PostsOnly

/-- Nothing else is ever posted. -/
theorem Handles.posts {answer : Except Exn Unit} (h : Handles r cfg b l cl l' cl' answer) :
    PostsOnly cl.toPost l.calls l'.calls := by
  have hsame : PostsOnly cl.toPost l.calls l.calls := postsOnly_refl
  cases h with
  | refuse | waits | returns | convert | convertLost => exact hsame
  | idleFailed hstate hstop hthrow | idleStays hstate hstop hthrow =>
    exact postsOnly_throws (fun hcall hbefore => hbefore.other hcall (by simp)) hthrow
  | idleUnknown hstate hstop hauth hcheck | sendUnknown hstate hauth hcheck =>
    exact postsOnly_checkCreateRpc hcheck
  | idleNone hstate hstop hauth hcheck hget hlength
  | idleFile hstate hstop hauth hcheck hget hlength =>
    have hbefore : PostsOnly cl.toPost l.calls _ := postsOnly_checkCreateRpc hcheck
    have hcalls := hbefore.other hget (by simp)
    exact hcalls
  | authRetries hstate hstop hthrow he | authThrows hstate hstop hthrow he =>
    exact postsOnly_throws (fun hcall hbefore => hbefore.authenticate hcall) hthrow
  | authForgets hstate hstop hthrow =>
    exact postsOnly_throws (fun hcall hbefore => hbefore.authenticate hcall) hthrow
  | authDone hstate hstop hcheck hcall => exact (postsOnly_checkCreateRpc hcheck).authenticate hcall
  | receiveMore hstate hstop hread => exact hsame.other hread (by simp)
  | receiveThrew hstate hstop hread hreset | receiveShort hstate hstop hread hpos hreset =>
    exact (hsame.other hread (by simp)).other hreset (by simp)
  | receiveDone hstate hstop hread hpos hlaunch | receiveLost hstate hstop hread hpos hlaunch =>
    have hcalls := hsame.other hread (by simp)
    exact hcalls
  | sendFailed hstate hthrow =>
    refine postsOnly_throws (fun hcall hbefore => hbefore.call hcall fun posted hposted => ?_) hthrow
    rw [toPost, if_pos hstate, RpcFunction.postFile.inj hposted]
  | sendUpload hstate hauth hcheck hpost hup | sendDone hstate hauth hcheck hpost hup =>
    refine (postsOnly_checkCreateRpc hcheck).call hpost fun posted hposted => ?_
    rw [toPost, if_pos hstate, RpcFunction.postFile.inj hposted]
  | transmitMore hstate hwrite heof | transmitDone hstate hwrite heof =>
    exact hsame.other hwrite (by simp)
  | transmitRestart hstate hwrite hfail hreset =>
    exact (hsame.other hwrite (by simp)).other hreset (by simp)
  | transmitLacks hstate hmem hreset => exact hsame.other hreset (by simp)

end Client

/-! ## Jobs of a run -/

namespace Process

open Client (Stage Handles PostsOnly)

variable {σ : Type u} {cfg : ClientSettings} {token : Nat} {s : σ} {p : Process σ}

instance (p : Process σ) : Decidable p.Converts := inferInstanceAs (Decidable (_ ∧ _ ∧ _))

/-- What is seen of the encoder in an event, if the client looks at it. -/
def looksAt (p : Process σ) : ClientEvent σ → Option EncoderAnswers
  | .poll _ a _ => if p.Converts then some a.encoder else none
  | .stop _ | .serve _ => none

/-- All that is seen of the encoder. -/
def encoderAnswers (cfg : ClientSettings) (p : Process σ) (es : List (ClientEvent σ)) :
    List EncoderAnswers :=
  (machine cfg).outputs looksAt p es

/-- A result that is posted in an event. -/
def Posts (cfg : ClientSettings) (p : Process σ) (e : ClientEvent σ) (result : EncodingResultInfo) :
    Prop :=
  ∃ c ∈ ((machine cfg).step p e).line.calls.drop p.line.calls.length, c.function = .postFile result

/-- With the events `es` a file was received and the encoder was started; in `fs` the client does not
become idle, and the next event posts the result. -/
structure Job (cfg : ClientSettings) (token : Nat) (s : σ) (es fs : List (ClientEvent σ))
    (result : EncodingResultInfo) : Prop where
  starts : ∃ past e, es = past ++ [e]
    ∧ ((machine cfg).run (start token s) past).client.mainState = .receiving
    ∧ ((machine cfg).run (start token s) es).client.mainState = .waitForEncodingFinished
  busy : (machine cfg).Along (fun p _ => p.client.mainState ≠ .idle)
    ((machine cfg).run (start token s) es) fs
  posts : ∃ e, Posts cfg ((machine cfg).run (start token s) (es ++ fs)) e result

/-- An event adds the calls of the handler, and perhaps one at the end. -/
theorem postsOnly_step (cfg : ClientSettings) (h : p.ending = none) (e : ClientEvent σ) :
    PostsOnly p.client.toPost p.line.calls ((machine cfg).step p e).line.calls := by
  cases e with
  | stop | serve => exact Client.postsOnly_refl
  | poll r a stop =>
    obtain ⟨l, cl, answer, hhandles, heq⟩ := handle_of_running r cfg a h
    have hline : ((p.handle r cfg a).signal stop).line = l := by
      rw [heq]
      cases stop <;> rfl
    change PostsOnly _ _ (((p.handle r cfg a).signal stop).finish r).line.calls
    rcases finish_cases r ((p.handle r cfg a).signal stop) with hfin | ⟨-, -, l', hl', hfin⟩
    · rw [hfin, hline]
      exact hhandles.posts
    · rw [hfin]
      rcases hl' with rfl | rfl
      · rw [hline]
        exact hhandles.posts
      · rw [hline]
        have habort : l.abort r = ((l.abort r).1, (l.abort r).2) := rfl
        have hcalls := hhandles.posts.other habort (by simp)
        exact hcalls

/-- An ended process does not post. -/
theorem calls_step_of_ended (h : p.ending ≠ none) (e : ClientEvent σ) :
    ((machine cfg).step p e).line.calls = p.line.calls := by
  cases e with
  | stop | serve => rfl
  | poll r a stop =>
    have hend : ((p.handle r cfg a).signal stop).ending.isSome = true := by
      rw [signal_ending, handle_of_ended h, Option.isSome_iff_ne_none]
      exact h
    change (((p.handle r cfg a).signal stop).finish r).line.calls = _
    rw [finish_of_goesOn (Or.inl hend), handle_of_ended h]
    cases stop <;> rfl

/-- Only a running client posts, and it posts the result that it has. -/
theorem toPost_of_posts {e : ClientEvent σ} {result : EncodingResultInfo} (h : Posts cfg p e result) :
    p.ending = none ∧ p.client.toPost = some result := by
  obtain ⟨c, hc, hfunction⟩ := h
  have hrun : p.ending = none := by
    by_contra hend
    rw [calls_step_of_ended hend, List.drop_length] at hc
    cases hc
  obtain ⟨new, hcalls, hnew⟩ := postsOnly_step cfg hrun e
  rw [hcalls, List.drop_left] at hc
  exact ⟨hrun, (hnew c hc result hfunction).symm⟩

/-- A running client is in one of the stages of its job. -/
theorem stage_run {settings : MediaEncoderSettings} {left : Residue}
    (hp : Stage settings left [] p.client) {fs : List (ClientEvent σ)}
    (hbusy : (machine cfg).Along (fun p _ => p.client.mainState ≠ .idle) p fs)
    (hrun : ((machine cfg).run p fs).ending = none) :
    Stage settings left (encoderAnswers cfg p fs) ((machine cfg).run p fs).client := by
  have hinv := (machine cfg).invariant_past (s := p)
    (P := fun past q => q.ending = none → Stage settings left (encoderAnswers cfg p past) q.client)
    ?_ ?_ ((machine cfg).alongPast_of_along hbusy)
  · exact hinv hrun
  · intro past e hpast hidle hnone
    rw [encoderAnswers, Machine.outputs_concat, ← encoderAnswers]
    cases e with
    | stop forced =>
      rw [looksAt, Option.toList_none, List.append_nil]
      exact (hpast hnone).stop forced
    | serve f =>
      rw [looksAt, Option.toList_none, List.append_nil]
      exact hpast hnone
    | poll r a stop =>
      generalize encoderAnswers cfg p past = as at hpast ⊢
      generalize (machine cfg).run p past = q at *
      obtain ⟨hbefore, l, cl, hhandles, hcrashed, -, hstep⟩ := poll_of_running hnone
      have hshut : cl.shutdown = false := by
        have hafter : ((machine cfg).step q (.poll r a stop)).client.shutdown = false :=
          shutdown_of_poll hnone
        rw [hstep] at hafter
        cases stop with
        | none => exact hafter
        | some forced => exact (Bool.or_eq_false_iff.mp hafter).1
      have hstage : Stage settings left (as ++ (looksAt q (.poll r a stop)).toList) cl := by
        by_cases hstate : q.client.mainState = .waitForEncodingFinished
        · rcases hhandles.converting hstate with ⟨hproc, rfl⟩ | hlost
          · have hlooks : looksAt q (.poll r a stop) = some a.encoder :=
              if_pos ⟨hbefore, hstate, hproc⟩
            rw [hlooks]
            exact (hpast hbefore).converts hproc hstate hshut
          · exact absurd (hcrashed.symm.trans hlost) (by decide)
        · have hlooks : looksAt q (.poll r a stop) = none := if_neg fun h => hstate h.2.1
          rw [hlooks, Option.toList_none, List.append_nil]
          exact (hpast hbefore).handles hidle hstate hhandles
      rw [hstep]
      cases stop with
      | none => exact hstage
      | some forced => exact hstage.stop forced
  · exact fun _ => hp

/-- Nobody runs again. -/
theorem running_before {fs : List (ClientEvent σ)} (h : ((machine cfg).run p fs).ending = none) :
    p.ending = none := by
  by_contra hend
  refine (machine cfg).invariant_always (P := fun q => q.ending ≠ none) ?_ hend fs h
  intro q e hq hnone
  cases e with
  | stop | serve => exact hq hnone
  | poll r a stop => exact hq (poll_of_running hnone).1

/-- A client that has just started the encoder has its residue from earlier jobs. -/
theorem encoding_of_started {q : Process σ} {e : ClientEvent σ} (hbefore : p.client.mainState = .receiving)
    (hstep : (machine cfg).step p e = q) (hafter : q.client.mainState = .waitForEncodingFinished)
    (hrun : q.ending = none) : Stage q.client.encSettings q.client.residue [] q.client := by
  cases e with
  | stop | serve =>
    subst hstep
    cases hbefore.symm.trans hafter
  | poll r a stop =>
    subst hstep
    obtain ⟨-, l, cl, hhandles, -, -, hstep⟩ := poll_of_running hrun
    rw [hstep] at hafter ⊢
    have hcl : cl.mainState = .waitForEncodingFinished := by
      cases stop <;> exact hafter
    have hstage : Stage cl.encSettings cl.residue [] cl := by
      cases hhandles with
      | receiveDone =>
        exact .encoding ⟨rfl, (List.append_nil _).symm, rfl, rfl, fun more => rfl⟩ rfl
      | receiveMore hstate | receiveThrew hstate | receiveShort hstate =>
        cases hstate.symm.trans hcl
      | refuse | waits | authRetries | idleStays | transmitMore | transmitRestart | transmitLacks =>
        cases hbefore.symm.trans hcl
      | convert hstate | convertLost hstate | authDone hstate =>
        cases hbefore.symm.trans hstate
      | returns hstate =>
        rw [hbefore] at hstate
        cases hstate
      | idleFailed | idleUnknown | idleNone | idleFile | authForgets | sendFailed | sendUnknown
      | sendUpload | sendDone | transmitDone => cases hcl
    cases stop with
    | none => exact hstage
    | some forced => exact hstage.stop forced

/-- What is posted for a job is determined by the job and the residue. -/
theorem posted_of_job {es fs : List (ClientEvent σ)} {result : EncodingResultInfo}
    (h : Job cfg token s es fs result) :
    result = (jobEnd ((machine cfg).run (start token s) es).client.encSettings.firstPass []
      (encoderAnswers cfg ((machine cfg).run (start token s) es) fs)).result
        ((machine cfg).run (start token s) es).client.residue := by
  obtain ⟨past, e, rfl, hbefore, hafter⟩ := h.starts
  obtain ⟨f, hposts⟩ := h.posts
  have hbusy := h.busy
  simp only [Machine.run_append, Machine.run_cons, Machine.run_nil] at hposts hafter hbusy ⊢
  generalize (machine cfg).run (start token s) past = p at *
  obtain ⟨hrun, hpost⟩ := toPost_of_posts hposts
  have hstarted : ((machine cfg).step p e).ending = none := running_before hrun
  have hstage := stage_run (encoding_of_started hbefore rfl hafter hstarted) hbusy hrun
  unfold Client.toPost at hpost
  split at hpost
  · rename_i hsend
    cases hstage with
    | encoding h => cases h.state.symm.trans hsend
    | lost hstate => cases hstate.symm.trans hsend
    | posting hwhere hresult => exact (Option.some.inj hpost).symm.trans hresult
    | heading hheads =>
      simp [Client.HeadsFor, hsend, Client.Waits] at hheads
  · cases hpost

end Process

/-! ## Two clients and one job -/

/-- The same is seen of the encoder. At the end of its output `fgets` may deliver nothing, and the buffer
holds what it happens to hold. -/
structure EncoderAnswers.SameLook (a b : EncoderAnswers) : Prop where
  eof : a.eof = b.eof
  buffer : a.eof = false → a.buffer = b.buffer
  exit : a.exit = b.exit
  passLog : a.passLog = b.passLog
  probeOut : a.probeOut = b.probeOut
  probeIn : a.probeIn = b.probeIn
  encoded : a.encoded = b.encoded

instance (a b : EncoderAnswers) : Decidable (a.SameLook b) :=
  decidable_of_iff (a.eof = b.eof ∧ (a.eof = false → a.buffer = b.buffer) ∧ a.exit = b.exit
      ∧ a.passLog = b.passLog ∧ a.probeOut = b.probeOut ∧ a.probeIn = b.probeIn ∧ a.encoded = b.encoded)
    ⟨fun ⟨heof, hbuffer, hexit, hlog, hout, hin, hencoded⟩ =>
        ⟨heof, hbuffer, hexit, hlog, hout, hin, hencoded⟩,
      fun h => ⟨h.eof, h.buffer, h.exit, h.passLog, h.probeOut, h.probeIn, h.encoded⟩⟩

/-- The same job ends in the same way, up to the buffer. -/
theorem jobEnd_same {as bs : List EncoderAnswers} (h : List.Forall₂ EncoderAnswers.SameLook as bs)
    (passNo : Nat) (printed : Text) :
    (jobEnd passNo printed bs).printed = (jobEnd passNo printed as).printed
      ∧ (jobEnd passNo printed bs).passed = (jobEnd passNo printed as).passed
      ∧ (jobEnd passNo printed bs).encoded = (jobEnd passNo printed as).encoded := by
  induction h generalizing passNo printed with
  | nil => exact ⟨rfl, rfl, rfl⟩
  | @cons a b as bs hab _ ih =>
    have happroves : Client.Approves a ↔ Client.Approves b := by
      unfold Client.Approves
      rw [hab.probeOut, hab.probeIn]
    simp only [jobEnd, ← hab.eof, ← hab.exit, ← hab.passLog, ← hab.encoded, happroves]
    cases heof : a.eof with
    | false =>
      simp only [Bool.not_false, if_true, ← hab.buffer heof]
      exact ih passNo _
    | true =>
      simp only [Bool.not_true, Bool.false_eq_true, if_false]
      split
      · exact ih 2 printed
      · exact ⟨rfl, rfl, rfl⟩

/-- The residues make no difference: if both jobs fail, earlier encoders have printed the same and the line
buffer holds the same in the last poll; if the encoder succeeds, both streams are open, or both are not, or
the encoded file is empty. -/
structure Agrees (left₁ left₂ : Residue) (e₁ e₂ : JobEnd) : Prop where
  stdOut : ¬ e₁.Succeeds left₁ → ¬ e₂.Succeeds left₂ → left₁.stdOut = left₂.stdOut
  last : ¬ e₁.Succeeds left₁ → ¬ e₂.Succeeds left₂ → e₁.last = e₂.last
  stream : e₁.passed = true → left₁.opened ≠ left₂.opened →
    ∃ content ∈ e₁.encoded, UInt64.ofNat content.length = 0

namespace JobEnd

theorem result_of_succeeds {left : Residue} {e : JobEnd} (h : e.Succeeds left) : e.result left =
    ⟨EncodingResult.ok.value,
      UInt64.ofNat (if left.opened then 0 else (e.encoded.getD []).length), []⟩ := if_pos h

theorem result_of_fails {left : Residue} {e : JobEnd} (h : ¬ e.Succeeds left) :
    e.result left = ⟨EncodingResult.unknownError.value, 0, e.text left⟩ := if_neg h

/-- A success and a failure are told apart. -/
theorem result_ne {left₁ left₂ : Residue} {e₁ e₂ : JobEnd} (h₁ : e₁.Succeeds left₁)
    (h₂ : ¬ e₂.Succeeds left₂) : e₁.result left₁ ≠ e₂.result left₂ := by
  rw [result_of_succeeds h₁, result_of_fails h₂]
  intro heq
  exact Client.unknownError_ne_ok (congrArg EncodingResultInfo.result heq).symm

/-- A success with a closed stream has the length of the encoded file, one with an open stream none. -/
theorem result_eq_iff_of_opened {left₁ left₂ : Residue} {e₁ e₂ : JobEnd} (h₁ : e₁.Succeeds left₁)
    (h₂ : e₂.Succeeds left₂) (hopen : left₁.opened = true) (hclosed : left₂.opened = false) :
    e₁.result left₁ = e₂.result left₂ ↔
      ∃ content ∈ e₂.encoded, UInt64.ofNat content.length = 0 := by
  obtain ⟨content, hcontent⟩ : ∃ content, e₂.encoded = some content :=
    Option.isSome_iff_exists.mp (h₂.2.resolve_left (by simp [hclosed]))
  rw [result_of_succeeds h₁, result_of_succeeds h₂, hopen, hclosed, hcontent]
  simp [eq_comm]

/-- The texts of two failures of one job, where the line buffer holds the same. -/
theorem text_eq_iff (left₁ left₂ : Residue) {e₁ e₂ : JobEnd} (hprinted : e₂.printed = e₁.printed)
    (hlast : e₁.last = e₂.last) : e₁.text left₁ = e₂.text left₂ ↔ left₁.stdOut = left₂.stdOut := by
  rw [text, text, hprinted, hlast, List.append_left_inj, List.append_left_inj]

/-- Two ends of one job, with the same in the line buffer if both fail, give the same result exactly if the
residues make no difference. -/
theorem result_eq_iff {left₁ left₂ : Residue} {e₁ e₂ : JobEnd} (hprinted : e₂.printed = e₁.printed)
    (hpassed : e₂.passed = e₁.passed) (hencoded : e₂.encoded = e₁.encoded)
    (hlast : ¬ e₁.Succeeds left₁ → ¬ e₂.Succeeds left₂ → e₁.last = e₂.last) :
    e₁.result left₁ = e₂.result left₂ ↔ Agrees left₁ left₂ e₁ e₂ := by
  by_cases h₁ : e₁.Succeeds left₁
  · by_cases h₂ : e₂.Succeeds left₂
    · have hstream : Agrees left₁ left₂ e₁ e₂ ↔ (left₁.opened ≠ left₂.opened →
          ∃ content ∈ e₁.encoded, UInt64.ofNat content.length = 0) :=
        ⟨fun h => h.stream h₁.1, fun h => ⟨fun hnot => absurd h₁ hnot, hlast, fun _ => h⟩⟩
      rw [hstream]
      cases hopen₁ : left₁.opened <;> cases hopen₂ : left₂.opened
      · rw [result_of_succeeds h₁, result_of_succeeds h₂, hopen₁, hopen₂, hencoded]
        simp
      · rw [eq_comm, result_eq_iff_of_opened h₂ h₁ hopen₂ hopen₁]
        simp
      · rw [result_eq_iff_of_opened h₁ h₂ hopen₁ hopen₂, hencoded]
        simp
      · rw [result_of_succeeds h₁, result_of_succeeds h₂, hopen₁, hopen₂]
        simp
    · refine iff_of_false (result_ne h₁ h₂) fun h => ?_
      have hnone : left₂.opened = false ∧ e₁.encoded = none := by
        simpa [Succeeds, hpassed, hencoded, h₁.1] using h₂
      have hopen : left₁.opened = true := h₁.2.resolve_right (by simp [hnone.2])
      obtain ⟨content, hcontent, -⟩ := h.stream h₁.1 (by simp [hopen, hnone.1])
      cases hnone.2.symm.trans hcontent
  · by_cases h₂ : e₂.Succeeds left₂
    · refine iff_of_false (result_ne h₂ h₁).symm fun h => ?_
      have hpassed₁ : e₁.passed = true := hpassed.symm.trans h₂.1
      have hnone : left₁.opened = false ∧ e₁.encoded = none := by
        simpa [Succeeds, hpassed₁] using h₁
      have hopen : left₂.opened = true := h₂.2.resolve_right (by simp [hencoded, hnone.2])
      obtain ⟨content, hcontent, -⟩ := h.stream hpassed₁ (by simp [hopen, hnone.1])
      cases hnone.2.symm.trans hcontent
    · have htext := text_eq_iff left₁ left₂ hprinted (hlast h₁ h₂)
      rw [result_of_fails h₁, result_of_fails h₂]
      constructor
      · intro heq
        refine ⟨fun _ _ => htext.mp (congrArg EncodingResultInfo.error heq), hlast,
          fun hpassed₁ hne => ?_⟩
        have hclosed₁ : left₁.opened = false := by
          by_contra hopen
          exact h₁ ⟨hpassed₁, Or.inl (by simpa using hopen)⟩
        have hclosed₂ : left₂.opened = false := by
          by_contra hopen
          exact h₂ ⟨hpassed.trans hpassed₁, Or.inl (by simpa using hopen)⟩
        exact absurd (hclosed₁.trans hclosed₂.symm) hne
      · intro h
        rw [htext.mpr (h.stdOut h₁ h₂)]

end JobEnd

namespace Process

variable {σ : Type u} {τ : Type v} {cfg : ClientSettings}

/-- After any two histories the same job has the same result posted if the residues of the two clients make no
difference to it; and only then, where the line buffers hold the same. -/
theorem posted_agree {token₁ token₂ : Nat} {s₁ : σ} {s₂ : τ} {es₁ fs₁ : List (ClientEvent σ)}
    {es₂ fs₂ : List (ClientEvent τ)} {result₁ result₂ : EncodingResultInfo}
    (h₁ : Job cfg token₁ s₁ es₁ fs₁ result₁) (h₂ : Job cfg token₂ s₂ es₂ fs₂ result₂)
    (hsettings : ((machine cfg).run (start token₁ s₁) es₁).client.encSettings
      = ((machine cfg).run (start token₂ s₂) es₂).client.encSettings)
    (hlooks : List.Forall₂ EncoderAnswers.SameLook
      (encoderAnswers cfg ((machine cfg).run (start token₁ s₁) es₁) fs₁)
      (encoderAnswers cfg ((machine cfg).run (start token₂ s₂) es₂) fs₂)) :
    let p₁ := (machine cfg).run (start token₁ s₁) es₁
    let p₂ := (machine cfg).run (start token₂ s₂) es₂
    let e₁ := jobEnd p₁.client.encSettings.firstPass [] (encoderAnswers cfg p₁ fs₁)
    let e₂ := jobEnd p₂.client.encSettings.firstPass [] (encoderAnswers cfg p₂ fs₂)
    (Agrees p₁.client.residue p₂.client.residue e₁ e₂ → result₁ = result₂) ∧
      (e₁.last = e₂.last → result₁ = result₂ →
        Agrees p₁.client.residue p₂.client.residue e₁ e₂) := by
  intro p₁ p₂ e₁ e₂
  obtain ⟨hprinted, hpassed, hencoded⟩ := jobEnd_same hlooks p₁.client.encSettings.firstPass []
  have hsecond : e₂ = jobEnd p₁.client.encSettings.firstPass [] (encoderAnswers cfg p₂ fs₂) := by
    rw [hsettings]
  rw [posted_of_job h₁, posted_of_job h₂]
  change (_ → e₁.result p₁.client.residue = e₂.result p₂.client.residue) ∧
    (_ → e₁.result p₁.client.residue = e₂.result p₂.client.residue → _)
  rw [hsecond]
  refine ⟨fun hagrees => ?_, fun hlast heq => ?_⟩
  · exact (JobEnd.result_eq_iff hprinted hpassed hencoded hagrees.last).mpr hagrees
  · exact (JobEnd.result_eq_iff hprinted hpassed hencoded fun _ _ => hlast).mp heq

/-- An encoder that prints something and fails. -/
def failing (output : Text) : ClientEvent Unit :=
  .poll obliging { LocalAnswers.working [9] with
    encoder := { (LocalAnswers.working [9]).encoder with buffer := output, exit := 1 } } none

/-- A file is received and the encoder is started. -/
def begun : List (ClientEvent Unit) := [smooth, smooth, smooth, smooth]

/-- The encoder fails and the client authenticates. -/
def failed (output : Text) : List (ClientEvent Unit) := [failing output, smooth, smooth]

/-- The first job of a client posts what the encoder printed. -/
theorem first_job : Job .gCfg 3 () begun (failed "y".toList)
    ⟨EncodingResult.unknownError.value, 0, "y".toList⟩ :=
  ⟨⟨[smooth, smooth, smooth], smooth, rfl, by decide +kernel, by decide +kernel⟩, by decide +kernel,
    smooth, ⟨.postFile ⟨EncodingResult.unknownError.value, 0, "y".toList⟩, true, some true⟩,
    by decide +kernel, rfl⟩

/-- The same failure in the first job of a client, and after one that went well. -/
theorem posted_agree_after_success :
    let es := begun ++ [smooth, smooth, smooth, smooth, smooth, smooth, smooth]
    ∃ result₁ result₂, Job .gCfg 3 () begun (failed "y".toList) result₁ ∧
      Job .gCfg 3 () es (failed "y".toList) result₂ ∧ result₁ = result₂ := by
  intro es
  have hsecond : Job .gCfg 3 () es (failed "y".toList)
      ⟨EncodingResult.unknownError.value, 0, "y".toList⟩ :=
    ⟨⟨begun ++ [smooth, smooth, smooth, smooth, smooth, smooth], smooth, rfl, by decide +kernel,
        by decide +kernel⟩, by decide +kernel,
      smooth, ⟨.postFile ⟨EncodingResult.unknownError.value, 0, "y".toList⟩, true, some true⟩,
      by decide +kernel, rfl⟩
  refine ⟨_, _, first_job, hsecond, ?_⟩
  refine (posted_agree first_job hsecond (by decide +kernel) (by decide +kernel)).1 ⟨?_, ?_, ?_⟩
  · exact fun _ _ => by decide +kernel
  · exact fun _ _ => by decide +kernel
  · exact fun _ hne => absurd (by decide +kernel) hne

/-- After a job that failed, too, its output is posted once more. -/
theorem output_posted_again :
    let es := begun ++ [failing "x".toList, smooth, smooth, smooth, smooth, smooth]
    ¬ ∀ result₁ result₂, Job .gCfg 3 () begun (failed "y".toList) result₁ →
      Job .gCfg 3 () es (failed "y".toList) result₂ →
      List.Forall₂ EncoderAnswers.SameLook
        (encoderAnswers .gCfg ((machine .gCfg).run (start 3 ()) begun) (failed "y".toList))
        (encoderAnswers .gCfg ((machine .gCfg).run (start 3 ()) es) (failed "y".toList)) →
      ((machine .gCfg).run (start 3 ()) begun).client.encSettings
        = ((machine .gCfg).run (start 3 ()) es).client.encSettings → result₁ = result₂ := by
  intro es h
  have hsecond : Job .gCfg 3 () es (failed "y".toList)
      ⟨EncodingResult.unknownError.value, 0, "xy".toList⟩ :=
    ⟨⟨begun ++ [failing "x".toList, smooth, smooth, smooth, smooth], smooth, rfl, by decide +kernel,
        by decide +kernel⟩, by decide +kernel,
      smooth, ⟨.postFile ⟨EncodingResult.unknownError.value, 0, "xy".toList⟩, true, some true⟩,
      by decide +kernel, rfl⟩
  exact absurd (h _ _ first_job hsecond (by decide +kernel) (by decide +kernel)) (by decide)

end Process

end MediaArchiver
