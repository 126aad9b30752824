/-
# MediaArchiver.Client.Verdict -- when an encoding counts as a success

The client says OK when the last pass has exited with 0, the probe has told the durations of both files,
and the encoded file is open. What it saw of the encoder on the way is recorded here (`encoderLog`); an
OK is earned if the records of this job end with its passes, all exited with 0, and the length posted is
that of the file.

Everything but the length always holds. The stream of the encoded file can still be open, on the file
of a job that was given up: then the new file does not open, nothing is skipped, and zero is posted.
-/
import MediaArchiver.Client.Results

namespace MediaArchiver

open Lib (Machine InStream)

universe u

/-- What the client sees of the encoder: with which command line it starts, and how it exits. -/
inductive EncoderRecord where
  | started (cmdLine : Text)
  | exited (status : Int)
deriving DecidableEq

/-- The probe exits with 0, and prints a duration of so many seconds. -/
def ProbeAnswers.Tells (probe : ProbeAnswers) (seconds : Nat) : Prop :=
  probe.launches = true ∧ probe.exit = 0 ∧ ∃ h m s, findDuration probe.output = some (h, m, s)
    ∧ seconds = 3600 * atoi h + 60 * atoi m + atoi s

/-- The duration, if the probe prints one and exits with 0. -/
def ProbeAnswers.told (probe : ProbeAnswers) : Option Nat :=
  if probe.launches = true ∧ probe.exit = 0 then
    (findDuration probe.output).map fun (h, m, s) => 3600 * atoi h + 60 * atoi m + atoi s
  else none

theorem ProbeAnswers.tells_iff {probe : ProbeAnswers} {seconds : Nat} :
    probe.Tells seconds ↔ probe.told = some seconds := by
  unfold Tells told
  constructor
  · rintro ⟨hlaunch, hexit, h, m, s, hfind, rfl⟩
    rw [if_pos ⟨hlaunch, hexit⟩, hfind, Option.map_some]
  · intro htold
    split at htold
    · rename_i hdone
      obtain ⟨⟨h, m, s⟩, hfind, rfl⟩ := Option.map_eq_some_iff.mp htold
      exact ⟨hdone.1, hdone.2, h, m, s, hfind, rfl⟩
    · cases htold

namespace ClientSettings

/-- What is seen of an encoder of which a pass is running. -/
def runningPass (cfg : ClientSettings) (settings : MediaEncoderSettings) (passNo : Nat) :
    List EncoderRecord :=
  if settings.pass2Enabled && passNo = 2 then
    [.started (cfg.getTranscodeCommand settings 1), .exited 0,
      .started (cfg.getTranscodeCommand settings 2)]
  else [.started (cfg.getTranscodeCommand settings passNo)]

/-- What is seen of an encoder that has done its work: the only pass exited with 0, or the second one
after the first. -/
def donePasses (cfg : ClientSettings) (settings : MediaEncoderSettings) : List EncoderRecord :=
  cfg.runningPass settings 2 ++ [.exited 0]

/-- What a probe that starts is taken to say. -/
theorem getMovieLength_of_launches {cfg : ClientSettings} {path : Path} {probe : ProbeAnswers}
    (h : probe.launches = true) : cfg.getMovieLength path probe = .ok
      (match findDuration probe.output with
      | some (hours, minutes, seconds) =>
          if probe.exit = 0 then 3600 * atoi hours + 60 * atoi minutes + atoi seconds else -1
      | none => -1) := by
  unfold getMovieLength launch
  rw [if_pos h]
  cases findDuration probe.output <;> rfl

/-- A length that is not minus one was told. -/
theorem getMovieLength_eq_ok {cfg : ClientSettings} {path : Path} {probe : ProbeAnswers} {n : Int}
    (h : cfg.getMovieLength path probe = .ok n) :
    n = -1 ∨ ∃ seconds : Nat, n = seconds ∧ probe.Tells seconds := by
  cases hlaunch : probe.launches with
  | false =>
    unfold getMovieLength launch at h
    rw [hlaunch] at h
    cases h
  | true =>
    rw [getMovieLength_of_launches hlaunch] at h
    have hn := Except.ok.inj h
    cases hfind : findDuration probe.output with
    | none =>
      rw [hfind] at hn
      exact Or.inl hn.symm
    | some times =>
      obtain ⟨hours, minutes, seconds⟩ := times
      rw [hfind] at hn
      by_cases hexit : probe.exit = 0
      · refine Or.inr ⟨3600 * atoi hours + 60 * atoi minutes + atoi seconds, ?_, hlaunch, hexit, hours,
          minutes, seconds, hfind, rfl⟩
        rw [← hn]
        simp only [if_pos hexit]
        omega
      · left
        rw [← hn]
        simp only [if_neg hexit]

/-- What was told is the length. -/
theorem getMovieLength_of_tells {cfg : ClientSettings} {path : Path} {probe : ProbeAnswers}
    {seconds : Nat} (h : probe.Tells seconds) : cfg.getMovieLength path probe = .ok seconds := by
  obtain ⟨hlaunch, hexit, hours, minutes, secs, hfind, rfl⟩ := h
  rw [getMovieLength_of_launches hlaunch, hfind]
  simp only [if_pos hexit]
  refine congrArg Except.ok ?_
  omega

end ClientSettings

namespace Client

variable {cfg : ClientSettings} {a : EncoderAnswers} {cl : Client}

/-- The encoder is found to have exited, and nobody has given it up. -/
def Exited (a : EncoderAnswers) (cl : Client) : Prop :=
  a.eof = true ∧ cl.shutdown = false ∧ a.forced = false

instance : Decidable (Exited a cl) := inferInstanceAs (Decidable (_ ∧ _))

/-- Both durations were told, the encoded file lasts at least a second, and they are about the same. -/
def Approves (a : EncoderAnswers) : Prop :=
  ∃ lenOut lenIn : Nat, a.probeOut.Tells lenOut ∧ a.probeIn.Tells lenIn ∧ 1 ≤ lenOut
    ∧ ((lenOut : Int) - lenIn).natAbs ≤ 1

instance : Decidable (Approves a) :=
  decidable_of_iff (∃ lenOut ∈ a.probeOut.told, ∃ lenIn ∈ a.probeIn.told,
      1 ≤ lenOut ∧ ((lenOut : Int) - lenIn).natAbs ≤ 1) <| by
    simp only [Approves, ProbeAnswers.tells_iff, Option.mem_def]
    constructor
    · rintro ⟨lenOut, hout, lenIn, hin, h⟩
      exact ⟨lenOut, lenIn, hout, hin, h⟩
    · rintro ⟨lenOut, lenIn, hout, hin, h⟩
      exact ⟨lenOut, hout, lenIn, hin, h⟩

/-- The last pass has exited with 0, and the durations are in order: the encoded file is opened. -/
def Completes (a : EncoderAnswers) (cl : Client) : Prop :=
  Exited a cl ∧ a.exit = 0 ∧ cl.passNo ≠ 1 ∧ Approves a

/-- What a poll sees of the encoder. -/
def encoderRecords (cfg : ClientSettings) (a : EncoderAnswers) (cl : Client) : List EncoderRecord :=
  if Exited a cl then
    .exited a.exit ::
      if (cl.doConvert cfg a).encodeProcess then
        [.started (cfg.getTranscodeCommand cl.encSettings (cl.doConvert cfg a).passNo)]
      else []
  else []

/-! ## The checks of the last pass -/

/-- With durations that are in order, only the encoded file matters. -/
theorem checkEncoded_of_approves (h : Approves a) : cl.checkEncoded cfg a =
    if (cl.dstFile.openFile a.encoded).isOpen then
      ({ cl with
         dstFile := (cl.dstFile.openFile a.encoded).ignoreAll
         encResult := ⟨EncodingResult.ok.value,
           UInt64.ofNat (cl.dstFile.openFile a.encoded).ignoreAll.gcount, []⟩ }, .ok ())
    else ({ cl with dstFile := cl.dstFile.openFile a.encoded }, .error (.runtimeError "3".toList)) := by
  obtain ⟨lenOut, lenIn, hout, hin, hpos, hdiff⟩ := h
  have hlong : ¬ (lenOut : Int) ≤ 0 := by omega
  have hclose : ¬ 1 < ((lenOut : Int) - lenIn).natAbs := by omega
  unfold checkEncoded
  simp only [ClientSettings.getMovieLength_of_tells hout, if_neg hlong,
    ClientSettings.getMovieLength_of_tells hin, if_neg hclose]
  cases (cl.dstFile.openFile a.encoded).isOpen <;> rfl

/-- Otherwise an exception is thrown before anything is opened. Minus one is too far from every length
that passes the first check. -/
theorem checkEncoded_of_not_approves (cfg : ClientSettings) (cl : Client) (h : ¬ Approves a) :
    ∃ e, cl.checkEncoded cfg a = (cl, .error e) := by
  unfold checkEncoded
  cases hout : cfg.getMovieLength (cfg.outFile cl.encSettings) a.probeOut with
  | error e => exact ⟨e, rfl⟩
  | ok lenOut =>
    by_cases hlong : lenOut ≤ 0
    · exact ⟨_, if_pos hlong⟩
    simp only [if_neg hlong]
    cases hin : cfg.getMovieLength (cfg.inFile cl.encSettings) a.probeIn with
    | error e => exact ⟨e, rfl⟩
    | ok lenIn =>
      have hfar : 1 < (lenOut - lenIn).natAbs := by
        by_contra hclose
        rcases ClientSettings.getMovieLength_eq_ok hout with rfl | ⟨out, rfl, htellsOut⟩
        · omega
        · rcases ClientSettings.getMovieLength_eq_ok hin with rfl | ⟨inp, rfl, htellsIn⟩
          · omega
          · exact h ⟨out, inp, htellsOut, htellsIn, by omega, by omega⟩
      exact ⟨_, if_pos hfar⟩

/-! ## One poll -/

/-- The encoder runs on. -/
theorem doConvert_of_running (heof : a.eof = false) (hshut : cl.shutdown = false) :
    cl.doConvert cfg a = { cl with stdOut := cl.stdOut ++ a.buffer } := by
  simp [doConvert, heof, hshut]

/-- The encoder exited. -/
theorem doConvert_of_exited (h : Exited a cl) : cl.doConvert cfg a = cl.finishPass cfg a a.exit := by
  obtain ⟨heof, hshut, hforced⟩ := h
  simp [doConvert, heof, hshut, hforced]

/-- The encoder was given up. -/
theorem doConvert_of_givenUp (cfg : ClientSettings) (hend : a.eof = true ∨ cl.shutdown = true)
    (h : ¬ Exited a cl) :
    ∃ cl₁, (cl₁ = cl ∨ cl₁ = cl.stop true) ∧ cl₁.shutdown = true
      ∧ cl.doConvert cfg a = cl₁.finishPass cfg a (-1) := by
  unfold doConvert
  rw [if_pos (by simpa using hend)]
  cases hforced : a.forced with
  | true => exact ⟨_, Or.inr rfl, by simp [stop], by simp [stop]⟩
  | false =>
    cases hshut : cl.shutdown with
    | true => exact ⟨cl, Or.inl rfl, hshut, by simp [hshut]⟩
    | false => exact absurd ⟨hend.resolve_right (by simp [hshut]), hshut, hforced⟩ h

theorem finishPass_of_failed {retcode : Int} (h : retcode ≠ 0) : cl.finishPass cfg a retcode =
    { ({ cl with encodeProcess := false } : Client).convertFailed a.buffer with
      mainState := .sendResult } := by
  simp [finishPass, h]

/-- A client that is not to shut down afterwards has not given up the encoder. -/
theorem not_givenUp (hshut : (cl.doConvert cfg a).shutdown = false) :
    Exited a cl ∨ (a.eof = false ∧ cl.shutdown = false) := by
  by_cases hexited : Exited a cl
  · exact Or.inl hexited
  · right
    by_contra hnot
    rw [not_and_or, Bool.not_eq_false, Bool.not_eq_false] at hnot
    obtain ⟨cl₁, -, hshut₁, heq⟩ := doConvert_of_givenUp cfg hnot hexited
    rw [heq, finishPass_of_failed (by decide)] at hshut
    exact absurd (hshut₁.symm.trans hshut) (by decide)

theorem finishPass_of_completes (hpass : cl.passNo ≠ 1) (h : Approves a) :
    cl.finishPass cfg a 0 =
      if (cl.dstFile.openFile a.encoded).isOpen then
        { cl with
          encodeProcess := false
          dstFile := (cl.dstFile.openFile a.encoded).ignoreAll
          encResult := ⟨EncodingResult.ok.value,
            UInt64.ofNat (cl.dstFile.openFile a.encoded).ignoreAll.gcount, []⟩
          mainState := .sendResult }
      else
        { ({ cl with encodeProcess := false, dstFile := cl.dstFile.openFile a.encoded } :
            Client).convertFailed a.buffer with mainState := .sendResult } := by
  simp only [finishPass, hpass, if_true, if_false, checkEncoded_of_approves h]
  cases (cl.dstFile.openFile a.encoded).isOpen <;> rfl

theorem finishPass_of_not_approves (hpass : cl.passNo ≠ 1) (h : ¬ Approves a) :
    cl.finishPass cfg a 0 =
      { ({ cl with encodeProcess := false } : Client).convertFailed a.buffer with
        mainState := .sendResult } := by
  obtain ⟨e, heq⟩ := checkEncoded_of_not_approves cfg { cl with encodeProcess := false } h
  simp only [finishPass, hpass, if_true, if_false, heq]

theorem finishPass_of_first (hpass : cl.passNo = 1) : cl.finishPass cfg a 0 =
    if a.passLog then
      if a.launches then { cl with encodeProcess := true, passNo := 2 }
      else ({ cl with encodeProcess := false, passNo := 2 } : Client).convertFailed a.buffer
    else
      { ({ cl with encodeProcess := false } : Client).convertFailed a.buffer with
        mainState := .sendResult } := by
  simp only [finishPass, startPass2, hpass, if_true]
  cases a.passLog with
  | false => rfl
  | true => cases hlaunch : a.launches <;> simp [launch]

/-! ## What is earned -/

/-- After `doConvert`: an OK comes from passes that have exited with 0, from durations that are in order,
and with the length of the encoded file; anything else comes without a length. -/
structure Earned (cfg : ClientSettings) (log : List EncoderRecord) (a : EncoderAnswers) (cl : Client) :
    Prop where
  passes : cl.encResult.result = EncodingResult.ok.value → cfg.donePasses cl.encSettings <:+ log
  durations : cl.encResult.result = EncodingResult.ok.value → Approves a
  length : cl.encResult.result = EncodingResult.ok.value →
    ∃ content ∈ a.encoded, cl.encResult.fileLength = UInt64.ofNat content.length
  failed : cl.encResult.result ≠ EncodingResult.ok.value → cl.encResult.fileLength = 0

/-- When the encoded file is opened, its stream is not still open, or there is nothing in the file. -/
def OpensAnew (a : EncoderAnswers) (cl : Client) : Prop :=
  Completes a cl → cl.dstFile.isOpen = true →
    ∃ content ∈ a.encoded, UInt64.ofNat content.length = 0

/-- As long as the encoder runs there is no result yet. -/
structure Pending (cfg : ClientSettings) (log : List EncoderRecord) (cl : Client) : Prop where
  result : cl.encResult.result = EncodingResult.unknownError.value
  length : cl.encResult.fileLength = 0
  pass : cl.passNo = 1 ∧ cl.encSettings.pass2Enabled = true ∨ cl.passNo = 2
  records : cfg.runningPass cl.encSettings cl.passNo <:+ log

variable {log : List EncoderRecord}

theorem unknownError_ne_ok : EncodingResult.unknownError.value ≠ EncodingResult.ok.value := by decide

/-- Without the last checks the stream stays as it is, and so does the result, or it becomes that of a
failure. -/
theorem doConvert_of_not_completes (cfg : ClientSettings) (h : ¬ Completes a cl) :
    (cl.doConvert cfg a).dstFile = cl.dstFile ∧
      ((cl.doConvert cfg a).encResult = cl.encResult ∨ ∃ error, (cl.doConvert cfg a).encResult
        = { cl.encResult with result := EncodingResult.unknownError.value, error := error }) := by
  by_cases hexited : Exited a cl
  · rw [doConvert_of_exited hexited]
    by_cases hexit : a.exit = 0
    · rw [hexit]
      by_cases hpass : cl.passNo = 1
      · rw [finishPass_of_first hpass]
        split
        · split
          · exact ⟨rfl, Or.inl rfl⟩
          · exact ⟨rfl, Or.inr ⟨_, rfl⟩⟩
        · exact ⟨rfl, Or.inr ⟨_, rfl⟩⟩
      · rw [finishPass_of_not_approves hpass fun happroves => h ⟨hexited, hexit, hpass, happroves⟩]
        exact ⟨rfl, Or.inr ⟨_, rfl⟩⟩
    · rw [finishPass_of_failed hexit]
      exact ⟨rfl, Or.inr ⟨_, rfl⟩⟩
  · by_cases hend : a.eof = true ∨ cl.shutdown = true
    · obtain ⟨cl₁, hsame, -, heq⟩ := doConvert_of_givenUp cfg hend hexited
      rw [heq, finishPass_of_failed (by decide)]
      rcases hsame with rfl | rfl
      · exact ⟨rfl, Or.inr ⟨_, rfl⟩⟩
      · exact ⟨rfl, Or.inr ⟨_, rfl⟩⟩
    · rw [not_or, Bool.not_eq_true, Bool.not_eq_true] at hend
      rw [doConvert_of_running hend.1 hend.2]
      exact ⟨rfl, Or.inl rfl⟩

/-- There is no OK then, and no length. -/
theorem Pending.failed (h : Pending cfg log cl) (hnot : ¬ Completes a cl) :
    (cl.doConvert cfg a).encResult.result = EncodingResult.unknownError.value
      ∧ (cl.doConvert cfg a).encResult.fileLength = 0 := by
  rcases (doConvert_of_not_completes cfg hnot).2 with hsame | ⟨error, hfailed⟩
  · rw [hsame]
    exact ⟨h.result, h.length⟩
  · rw [hfailed]
    exact ⟨rfl, h.length⟩

/-- With them it comes to whether the stream was open. -/
theorem doConvert_of_completes (cfg : ClientSettings) (h : Completes a cl) : cl.doConvert cfg a =
    if cl.dstFile.isOpen || a.encoded.isSome then
      { cl with
        encodeProcess := false
        dstFile := (cl.dstFile.openFile a.encoded).ignoreAll
        encResult := ⟨EncodingResult.ok.value,
          UInt64.ofNat (if cl.dstFile.isOpen then 0 else (a.encoded.getD []).length), []⟩
        mainState := .sendResult }
    else
      { ({ cl with encodeProcess := false, dstFile := cl.dstFile.openFile a.encoded } :
          Client).convertFailed a.buffer with mainState := .sendResult } := by
  obtain ⟨hexited, hexit, hpass, happroves⟩ := h
  rw [doConvert_of_exited hexited, hexit, finishPass_of_completes hpass happroves,
    InStream.isOpen_openFile, InStream.gcount_ignoreAll_openFile]

/-- The records of a job that has come to its last check. -/
theorem Pending.donePasses (h : Pending cfg log cl) (hdone : Completes a cl) :
    cfg.donePasses cl.encSettings <:+ log ++ encoderRecords cfg a cl := by
  have hstopped : (cl.doConvert cfg a).encodeProcess = false := by
    rw [doConvert_of_completes cfg hdone]
    split <;> rfl
  obtain ⟨hexited, hexit, hpass, -⟩ := hdone
  have htwo : cl.passNo = 2 := h.pass.resolve_left fun hone => hpass hone.1
  obtain ⟨before, hbefore⟩ := h.records
  have hrecords : encoderRecords cfg a cl = [.exited 0] := by
    simp only [encoderRecords, if_pos hexited, hexit, hstopped, Bool.false_eq_true, if_false]
  refine ⟨before, ?_⟩
  rw [hrecords, ← hbefore, htwo, ClientSettings.donePasses, List.append_assoc]

/-- An encoder that runs on, or again, leaves no result yet. -/
theorem Pending.doConvert (h : Pending cfg log cl) (hstate : (cl.doConvert cfg a).mainState ≠ .sendResult)
    (hproc : (cl.doConvert cfg a).encodeProcess = true) :
    Pending cfg (log ++ encoderRecords cfg a cl) (cl.doConvert cfg a) := by
  by_cases hexited : Exited a cl
  · have heq : cl.doConvert cfg a = cl.finishPass cfg a a.exit := doConvert_of_exited hexited
    have hexit : a.exit = 0 := by
      by_contra hne
      rw [heq, finishPass_of_failed hne] at hstate
      exact hstate rfl
    have hone : cl.passNo = 1 := by
      by_contra hne
      by_cases happroves : Approves a
      · rw [doConvert_of_completes cfg ⟨hexited, hexit, hne, happroves⟩] at hproc
        split at hproc <;> cases hproc
      · rw [heq, hexit, finishPass_of_not_approves hne happroves] at hproc
        cases hproc
    rw [hexit, finishPass_of_first hone] at heq
    have hnext : cl.doConvert cfg a = { cl with encodeProcess := true, passNo := 2 } := by
      rw [heq]
      split
      · split
        · rfl
        · rename_i hlog hlaunch
          rw [heq, if_pos hlog, if_neg hlaunch] at hproc
          cases hproc
      · rename_i hlog
        rw [heq, if_neg hlog] at hproc
        cases hproc
    have hsecond : cl.encSettings.pass2Enabled = true := by
      rcases h.pass with hfirst | htwo
      · exact hfirst.2
      · exact absurd (hone.symm.trans htwo) (by decide)
    obtain ⟨before, hbefore⟩ := h.records
    refine ⟨?_, ?_, ?_, before, ?_⟩
    · rw [hnext]
      exact h.result
    · rw [hnext]
      exact h.length
    · rw [hnext]
      exact Or.inr rfl
    · simp only [encoderRecords, if_pos hexited, hexit, hnext, if_true, ← hbefore, hone]
      simp [ClientSettings.runningPass, hsecond]
  · by_cases hend : a.eof = true ∨ cl.shutdown = true
    · obtain ⟨cl₁, -, -, heq⟩ := doConvert_of_givenUp cfg hend hexited
      rw [heq, finishPass_of_failed (by decide)] at hstate
      exact absurd rfl hstate
    · rw [not_or, Bool.not_eq_true, Bool.not_eq_true] at hend
      have hrecords : encoderRecords cfg a cl = [] := if_neg hexited
      rw [doConvert_of_running hend.1 hend.2, hrecords, List.append_nil]
      exact ⟨h.result, h.length, h.pass, h.records⟩

/-- What `doConvert` leaves is earned unless the stream of the encoded file was still open. -/
theorem Pending.earned_iff (h : Pending cfg log cl) :
    Earned cfg (log ++ encoderRecords cfg a cl) a (cl.doConvert cfg a) ↔ OpensAnew a cl := by
  by_cases hdone : Completes a cl
  · have hpasses := h.donePasses hdone
    have heq := doConvert_of_completes cfg hdone
    have hsettings : (cl.doConvert cfg a).encSettings = cl.encSettings := by
      rw [heq]
      split <;> rfl
    cases hopen : cl.dstFile.isOpen with
    | true =>
      have hresult : (cl.doConvert cfg a).encResult = ⟨EncodingResult.ok.value, 0, []⟩ := by
        rw [heq, hopen]
        rfl
      constructor
      · intro hearned _ _
        obtain ⟨content, hcontent, hlength⟩ := hearned.length (by rw [hresult])
        rw [hresult] at hlength
        exact ⟨content, hcontent, hlength.symm⟩
      · intro hanew
        obtain ⟨content, hcontent, hlength⟩ := hanew hdone hopen
        refine ⟨fun _ => hsettings ▸ hpasses, fun _ => hdone.2.2.2, fun _ => ⟨content, hcontent, ?_⟩,
          fun hnot => absurd (by rw [hresult]) hnot⟩
        rw [hresult, hlength]
    | false =>
      refine iff_of_true ?_ fun _ hopen' => absurd (hopen.symm.trans hopen') (by decide)
      cases hencoded : a.encoded with
      | some content =>
        have hresult : (cl.doConvert cfg a).encResult
            = ⟨EncodingResult.ok.value, UInt64.ofNat content.length, []⟩ := by
          rw [heq, hopen, hencoded]
          rfl
        refine ⟨fun _ => hsettings ▸ hpasses, fun _ => hdone.2.2.2, fun _ => ⟨content, hencoded, ?_⟩,
          fun hnot => absurd (by rw [hresult]) hnot⟩
        rw [hresult]
      | none =>
        have hresult : (cl.doConvert cfg a).encResult.result = EncodingResult.unknownError.value
            ∧ (cl.doConvert cfg a).encResult.fileLength = 0 := by
          rw [heq, hopen, hencoded]
          exact ⟨rfl, h.length⟩
        have hnot := hresult.1 ▸ unknownError_ne_ok
        exact ⟨fun hok => absurd hok hnot, fun hok => absurd hok hnot, fun hok => absurd hok hnot,
          fun _ => hresult.2⟩
  · obtain ⟨hresult, hlength⟩ := h.failed hdone
    have hnot := hresult ▸ unknownError_ne_ok
    exact iff_of_true ⟨fun hok => absurd hok hnot, fun hok => absurd hok hnot,
      fun hok => absurd hok hnot, fun _ => hlength⟩ fun hdone' => absurd hdone' hdone

/-! ## Whose stream is open -/

/-- The stream of the encoded file is open only for a result that is to be delivered. -/
def Holds (cl : Client) : Prop :=
  cl.dstFile.isOpen = true → cl.HeadsFor .sendResult ∨ cl.mainState = .transmitting

theorem isOpen_doConvert (cfg : ClientSettings) (a : EncoderAnswers) (hclosed : cl.dstFile.isOpen = false)
    (hopen : (cl.doConvert cfg a).dstFile.isOpen = true) :
    (cl.doConvert cfg a).mainState = .sendResult := by
  by_cases hdone : Completes a cl
  · rw [doConvert_of_completes cfg hdone]
    split <;> rfl
  · rw [(doConvert_of_not_completes cfg hdone).1, hclosed] at hopen
    cases hopen

/-- Every handler keeps to that, unless a result is forgotten. -/
theorem Holds.handles {σ : Type u} {r : Remote σ} {b : LocalAnswers} {l l' : Line σ} {cl' : Client}
    {answer : Except Exn Unit} (h : cl.Holds) (hnot : ¬ Forgets r l cl)
    (hhandles : Handles r cfg b l cl l' cl' answer) : cl'.Holds := by
  -- in the other states the stream is closed
  have hclosed : ¬ (cl.HeadsFor .sendResult ∨ cl.mainState = .transmitting) →
      cl.dstFile.isOpen = false := fun hother => by simpa using mt h hother
  have hidle : cl.mainState = .idle → cl.dstFile.isOpen = false := fun hstate =>
    hclosed (by simp [HeadsFor, hstate, Waits])
  have hreceiving : cl.mainState = .receiving → cl.dstFile.isOpen = false := fun hstate =>
    hclosed (by simp [HeadsFor, hstate, Waits])
  have hreturns : Waits cl.mainState ∨ cl.mainState = .authenticateing →
      cl.dstFile.isOpen = true → cl.prevMainState = .sendResult := by
    intro hstate hopen
    rcases h hopen with (hsend | ⟨-, hprev⟩) | htrans
    · simp [hsend, Waits] at hstate
    · exact hprev
    · simp [htrans, Waits] at hstate
  cases hhandles with
  | refuse | waits | convertLost => exact h
  | idleStays hstate | idleFailed hstate | idleUnknown hstate | idleNone hstate | idleFile hstate =>
    exact fun hopen => absurd ((hidle hstate).symm.trans hopen) (by decide)
  | receiveMore hstate | receiveThrew hstate | receiveShort hstate | receiveDone hstate
  | receiveLost hstate =>
    exact fun hopen => absurd ((hreceiving hstate).symm.trans hopen) (by decide)
  | authRetries | authThrows => exact h
  | authForgets hstate hstop hthrow =>
    intro hopen
    exact absurd ⟨⟨hstate, hreturns (Or.inr hstate) hopen⟩, hstop, _, _, hthrow⟩ hnot
  | authDone hstate => exact fun hopen => Or.inl (Or.inl (hreturns (Or.inr hstate) hopen))
  | returns hstate => exact fun hopen => Or.inl (Or.inl (hreturns (Or.inl hstate) hopen))
  | convert hstate hproc =>
    intro hopen
    have hbefore := hclosed (by simp [HeadsFor, hstate, Waits])
    exact Or.inl (Or.inl (isOpen_doConvert cfg b.encoder hbefore hopen))
  | sendFailed => exact fun _ => Or.inl (Or.inr ⟨Or.inl trivial, rfl⟩)
  | sendUnknown => exact fun _ => Or.inl (Or.inr ⟨Or.inr rfl, rfl⟩)
  | sendUpload => exact fun _ => Or.inr rfl
  | sendDone =>
    intro hopen
    have hshut := MediaArchiverClient.isOpen_dstFile_cleanUp cl.toMediaArchiverClient
    exact absurd (hshut.symm.trans hopen) (by decide)
  | transmitDone =>
    intro hopen
    have hshut := MediaArchiverClient.isOpen_dstFile_cleanUp
      { cl.toMediaArchiverClient with dstFile := (cl.dstFile.read cfg.chunkSize).1 }
    exact absurd (hshut.symm.trans hopen) (by decide)
  | transmitMore hstate | transmitRestart hstate | transmitLacks hstate => exact fun _ => Or.inr hstate

end Client

namespace Process

open Client (Pending OpensAnew Earned Handles)

variable {σ : Type u} {cfg : ClientSettings} {token : Nat} {s : σ}

/-- What an event shows of the encoder: it is started when the file is there, and looked at from then
on. -/
def encoderRecords (cfg : ClientSettings) (p : Process σ) : ClientEvent σ → List EncoderRecord
  | .poll r a _ =>
      if p.ending.isSome then []
      else
        match p.client.mainState with
        | .receiving =>
            let cl := (p.handle r cfg a).client
            if cl.mainState = .waitForEncodingFinished then
              [.started (cfg.getTranscodeCommand cl.encSettings cl.passNo)]
            else []
        | .waitForEncodingFinished =>
            if p.client.encodeProcess then p.client.encoderRecords cfg a.encoder else []
        | _ => []
  | .stop _ | .serve _ => []

/-- All that was seen of encoders in a run. -/
def encoderLog (cfg : ClientSettings) (p : Process σ) (es : List (ClientEvent σ)) :
    List EncoderRecord :=
  ((machine cfg).outputs (fun p e => some (encoderRecords cfg p e)) p es).flatten

theorem encoderLog_concat (p : Process σ) (es : List (ClientEvent σ)) (e : ClientEvent σ) :
    encoderLog cfg p (es ++ [e])
      = encoderLog cfg p es ++ encoderRecords cfg ((machine cfg).run p es) e := by
  simp [encoderLog, Machine.outputs_concat]

/-- The encoder is looked at. -/
def Converts (p : Process σ) : Prop :=
  p.ending = none ∧ p.client.mainState = .waitForEncodingFinished ∧ p.client.encodeProcess = true

theorem encoderRecords_of_converts {p : Process σ} (h : p.Converts) {r : Remote σ} {a : LocalAnswers}
    {stop : Option Bool} :
    encoderRecords cfg p (.poll r a stop) = p.client.encoderRecords cfg a.encoder := by
  obtain ⟨hrun, hstate, hproc⟩ := h
  simp [encoderRecords, hrun, hstate, hproc]

/-- The handler after which an encoder runs has started it, or left it as it was. -/
theorem pending_handle {p : Process σ} {log : List EncoderRecord} {r : Remote σ} {a : LocalAnswers}
    {l : Line σ} {cl : Client} (stop : Option Bool) (hrun : p.ending = none) (hplaced : p.client.Placed)
    (hpending : p.Converts → Pending cfg log p.client)
    (hhandles : Handles r cfg a p.line p.client l cl (.ok ())) (hcrashed : l.crashed = false)
    (hhandle : p.handle r cfg a = ⟨cl, l, none⟩) (hstate : cl.mainState = .waitForEncodingFinished)
    (hproc : cl.encodeProcess = true) :
    Pending cfg (log ++ encoderRecords cfg p (.poll r a stop)) cl := by
  have hback : p.client.prevMainState ≠ .waitForEncodingFinished := by
    rcases hplaced.prev with hprev | hprev <;> simp [hprev]
  cases hhandles with
  | receiveDone hreceiving hstop hread hpos hlaunch =>
    have hrecords : encoderRecords cfg p (.poll r a stop)
        = [.started (cfg.getTranscodeCommand p.client.encSettings
            (if p.client.encSettings.pass2Enabled then 1 else 2))] := by
      simp [encoderRecords, hrun, hreceiving, hhandle]
    rw [hrecords]
    refine ⟨rfl, rfl, ?_, log, ?_⟩
    · cases htwo : p.client.encSettings.pass2Enabled with
      | true => exact Or.inl ⟨rfl, rfl⟩
      | false => exact Or.inr rfl
    · unfold ClientSettings.runningPass
      cases htwo : p.client.encSettings.pass2Enabled <;> simp
  | convert hbefore hproc' =>
    have hconverts : p.Converts := ⟨hrun, hbefore, hproc'⟩
    rw [encoderRecords_of_converts hconverts]
    exact (hpending hconverts).doConvert (by simp [hstate]) hproc
  | convertLost => cases hcrashed
  | authDone | returns => exact absurd hstate hback
  | refuse hrefuses => exact absurd hstate hrefuses.not_encoding
  | waits hin =>
    rw [hstate] at hin
    cases hin
  | idleStays hin | authRetries hin | receiveMore hin | receiveThrew hin | receiveShort hin
  | transmitMore hin | transmitRestart hin | transmitLacks hin => cases hin.symm.trans hstate
  | idleFailed | idleUnknown | idleNone | idleFile | authForgets | sendFailed | sendUnknown
  | sendUpload | sendDone | transmitDone => cases hstate

/-- Of an encoder that runs the log has what was seen. -/
theorem pending_run (cfg : ClientSettings) (token : Nat) (s : σ) (es : List (ClientEvent σ))
    (h : ((machine cfg).run (start token s) es).Converts) :
    Pending cfg (encoderLog cfg (start token s) es) ((machine cfg).run (start token s) es).client := by
  have hinv := (machine cfg).invariant_past (s := start token s)
    (P := fun past p => p.Converts → Pending cfg (encoderLog cfg (start token s) past) p.client)
    ?_ ?_ (Lib.alongPast_true [] es)
  · exact hinv h
  · rintro past e hpast - ⟨hrun, hstate, hproc⟩
    rw [encoderLog_concat]
    cases e with
    | stop forced =>
      rw [encoderRecords, List.append_nil]
      have hpending := hpast ⟨hrun, hstate, hproc⟩
      exact ⟨hpending.result, hpending.length, hpending.pass, hpending.records⟩
    | serve f =>
      rw [encoderRecords, List.append_nil]
      exact hpast ⟨hrun, hstate, hproc⟩
    | poll r a stop =>
      generalize hlog : encoderLog cfg (start token s) past = log at hpast ⊢
      have hplaced := placed_run cfg token s past
      generalize (machine cfg).run (start token s) past = p at *
      obtain ⟨hbefore, l, cl, hhandles, hcrashed, hhandle, hstep⟩ := poll_of_running hrun
      rw [hstep] at hstate hproc ⊢
      have hpending := fun hin hproc' =>
        pending_handle stop hbefore hplaced hpast hhandles hcrashed hhandle hin hproc'
      cases stop with
      | none => exact hpending hstate hproc
      | some forced =>
        have hnow := hpending hstate hproc
        exact ⟨hnow.result, hnow.length, hnow.pass, hnow.records⟩
  · rintro ⟨-, hstate, -⟩
    cases hstate

/-- Whenever the encoded file is opened, its stream is not open. -/
def OpensFiles (p : Process σ) : ClientEvent σ → Prop
  | .poll _ a _ => p.Converts → OpensAnew a.encoder p.client
  | .stop _ | .serve _ => True

/-- What `doConvert` leaves is earned in every poll of a run exactly if the stream of the encoded file was
never still open when a file was to be opened. -/
theorem result_earned_iff (cfg : ClientSettings) (token : Nat) (s : σ) (es : List (ClientEvent σ)) :
    (∀ past r a stop, past ++ [.poll r a stop] <+: es →
      ((machine cfg).run (start token s) past).Converts →
      Earned cfg (encoderLog cfg (start token s) (past ++ [.poll r a stop])) a.encoder
        (((machine cfg).run (start token s) past).client.doConvert cfg a.encoder)) ↔
      (machine cfg).Along OpensFiles (start token s) es := by
  have hpoll : ∀ past r a stop, ((machine cfg).run (start token s) past).Converts →
      (Earned cfg (encoderLog cfg (start token s) (past ++ [.poll r a stop])) a.encoder
        (((machine cfg).run (start token s) past).client.doConvert cfg a.encoder) ↔
      OpensAnew a.encoder ((machine cfg).run (start token s) past).client) := by
    intro past r a stop hconverts
    rw [encoderLog_concat, encoderRecords_of_converts hconverts]
    exact (pending_run cfg token s past hconverts).earned_iff
  rw [Machine.along_iff]
  constructor
  · rintro hall past (⟨r, a, stop⟩ | forced | f) hpast
    · exact fun hconverts => (hpoll past r a stop hconverts).mp (hall past r a stop hpast hconverts)
    · trivial
    · trivial
  · intro hall past r a stop hpast hconverts
    exact (hpoll past r a stop hconverts).mpr (hall past (.poll r a stop) hpast hconverts)

/-- No stream is open when a file is to be opened, as long as no result is forgotten. -/
theorem opensFiles_of_remembers (cfg : ClientSettings) (token : Nat) (s : σ) {es : List (ClientEvent σ)}
    (hes : (machine cfg).Along Remembers (start token s) es) :
    (machine cfg).Along OpensFiles (start token s) es := by
  rw [Machine.along_iff] at hes ⊢
  intro past e hpast
  cases e with
  | stop | serve => trivial
  | poll r a stop =>
    intro hconverts _ hopen
    have hguard : (machine cfg).Along Remembers (start token s) past := by
      rw [Machine.along_iff]
      exact fun past' e' hpast' => hes past' e'
        (hpast'.trans ((List.prefix_append past [.poll r a stop]).trans hpast))
    have hinv := invariant_running cfg (fun _ cl => cl.Holds) ?_ ?_ ?_ ?_ hguard hconverts.1
    · exfalso
      have hwhere := hinv hopen
      simp [Client.HeadsFor, hconverts.2.1, Client.Waits] at hwhere
    · rintro r a stop p l cl hremembers hrun hholds hhandles -
      exact hholds.handles (hremembers hrun) hhandles
    · rintro p e forced l cl - - hholds
      exact hholds
    · rintro p f l cl - hholds
      exact hholds
    · rintro - hopen
      cases hopen

/-- The system fails when the client authenticates to post its result. It does the next job, and posts its
success with length zero. -/
theorem length_lost :
    let fails : ClientEvent Unit := .poll { obliging with
      authenticate := fun _ _ s => (s, .error (.systemError "connection reset".toList)) }
      (.working [9]) none
    let es : List (ClientEvent Unit) :=
      [smooth, smooth, smooth, smooth, smooth, smooth, fails, smooth, smooth, smooth, smooth, smooth,
        smooth]
    ¬ ∀ past r a stop, past ++ [.poll r a stop] <+: es →
      ((machine .gCfg).run (start 3 ()) past).Converts →
      Earned .gCfg (encoderLog .gCfg (start 3 ()) (past ++ [.poll r a stop])) a.encoder
        (((machine .gCfg).run (start 3 ()) past).client.doConvert .gCfg a.encoder) := by
  intro fails es hall
  let past : List (ClientEvent Unit) :=
    [smooth, smooth, smooth, smooth, smooth, smooth, fails, smooth, smooth, smooth, smooth, smooth]
  have hlast : ((machine .gCfg).run (start 3 ()) past).Converts :=
    ⟨by decide +kernel, by decide +kernel, by decide +kernel⟩
  have hposted : (((machine .gCfg).run (start 3 ()) past).client.doConvert .gCfg
      (LocalAnswers.working [9]).encoder).encResult = ⟨EncodingResult.ok.value, 0, []⟩ := by
    decide +kernel
  have hearned := hall past obliging (.working [9]) none ⟨[], rfl⟩ hlast
  obtain ⟨content, hcontent, hlength⟩ := hearned.length (by rw [hposted])
  obtain rfl : content = [9] := (Option.some.inj hcontent).symm
  rw [hposted] at hlength
  exact absurd hlength (by decide)

end Process

end MediaArchiver
