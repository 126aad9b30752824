/-
# MediaArchiver.Client.Handles -- what a handler of the client can do

`Handles` lists, state by state, the ways in which a handler can leave the line and the client, and with
which outcome; `handle_handles` says that there are no others. Each way comes with what the calls on the
line answered. The invariants of the following modules are case analyses over it and never look into a
handler.

`doConvert` calls nobody, and what it does inside is of little interest to the others. `Converts` says
what it leaves.
-/
import MediaArchiver.Client.Line

namespace MediaArchiver

open Lib (InStream)

universe u

namespace Client

variable {σ : Type u}

/-- One of the three states of waiting. -/
def Waits : MainStates → Prop
  | .waitForConnect | .waitForFileCheck | .waitForReconnect => True
  | _ => False

instance : DecidablePred Waits
  | .waitForConnect | .waitForFileCheck | .waitForReconnect => isTrue trivial
  | .idle | .authenticateing | .receiving | .waitForEncodingFinished | .sendResult
  | .transmitting => isFalse not_false

/-- The client shuts down where it is, if it is asked to stop. -/
def Refuses (cl : Client) : Prop :=
  cl.mainState = .idle ∨ cl.mainState = .authenticateing ∨ cl.mainState = .receiving ∨
    (Waits cl.mainState ∧ cl.prevMainState = .idle)

/-- A client that encodes does not shut down at once. -/
theorem Refuses.not_encoding {cl : Client} (h : cl.Refuses) :
    cl.mainState ≠ .waitForEncodingFinished := by
  intro hstate
  rcases h with hin | hin | hin | ⟨hin, -⟩
  · cases hin.symm.trans hstate
  · cases hin.symm.trans hstate
  · cases hin.symm.trans hstate
  · rw [hstate] at hin
    cases hin

/-- Something was thrown by the check of the object, or by the call after it, if that is made. -/
def Throws {α : Type} (r : Remote σ) (made : Prop) (call : Line σ → Line σ × Except Exn α)
    (l l' : Line σ) (e : Exn) : Prop :=
  l.checkCreateRpc r = (l', .error e) ∨
    (made ∧ ∃ l₁, l.checkCreateRpc r = (l₁, .ok ()) ∧ call l₁ = (l', .error e))

/-- The client is in a state, or waits or authenticates on the way back to it. -/
def HeadsFor (state : MainStates) (cl : Client) : Prop :=
  cl.mainState = state ∨
    ((Waits cl.mainState ∨ cl.mainState = .authenticateing) ∧ cl.prevMainState = state)

/-- Exceptions that `doAuth` knows. -/
def Caught : Exn → Prop
  | .rpcTimeout _ | .rpcError _ | .systemError _ => True
  | _ => False

instance : DecidablePred Caught
  | .rpcTimeout _ | .rpcError _ | .systemError _ => isTrue trivial
  | .runtimeError _ | .ioError _ | .networkError _ | .outOfRange _ | .lengthError _ | .badAlloc _ =>
    isFalse not_false

/-- The ways in which a handler can go. -/
inductive Handles (r : Remote σ) (cfg : ClientSettings) (a : LocalAnswers) (l : Line σ)
    (cl : Client) : Line σ → Client → Except Exn Unit → Prop
  /-- A stop was requested, and the state does not keep the client from it. -/
  | refuse (hstate : cl.Refuses) (hstop : cl.stopRequested = true) :
      Handles r cfg a l cl l { cl with shutdown := true } (.ok ())
  /-- Asking for a file threw; the client waits, or stays. -/
  | idleFailed {l' e} {t : Int} (hstate : cl.mainState = .idle) (hstop : cl.stopRequested = false)
      (hthrow : Throws r (cl.authenticated = true) (Line.getNextFile r cl.filter) l l' e) :
      Handles r cfg a l cl l'
        { cl with timeToWait := t, prevMainState := .idle, mainState := .waitForReconnect } (.ok ())
  | idleStays {l' e} (hstate : cl.mainState = .idle) (hstop : cl.stopRequested = false)
      (hthrow : Throws r (cl.authenticated = true) (Line.getNextFile r cl.filter) l l' e) :
      Handles r cfg a l cl l' cl (.ok ())
  | idleUnknown {l'} (hstate : cl.mainState = .idle) (hstop : cl.stopRequested = false)
      (hauth : cl.authenticated = false) (hcheck : l.checkCreateRpc r = (l', .ok ())) :
      Handles r cfg a l cl l' { cl with prevMainState := .idle, mainState := .authenticateing }
        (.ok ())
  /-- There is no file. -/
  | idleNone {l₁ l' settings} (hstate : cl.mainState = .idle) (hstop : cl.stopRequested = false)
      (hauth : cl.authenticated = true) (hcheck : l.checkCreateRpc r = (l₁, .ok ()))
      (hget : l₁.getNextFile r cl.filter = (l', .ok settings)) (hlength : settings.fileLength = 0) :
      Handles r cfg a l cl l'.drop
        { cl with
          encSettings := settings
          authenticated := false
          timeToWait := cfg.checkForNewFileInterval
          prevMainState := .idle
          mainState := .waitForFileCheck } (.ok ())
  /-- There is a file; whether its local copy opens does not matter. -/
  | idleFile {l₁ l' settings} (hstate : cl.mainState = .idle) (hstop : cl.stopRequested = false)
      (hauth : cl.authenticated = true) (hcheck : l.checkCreateRpc r = (l₁, .ok ()))
      (hget : l₁.getNextFile r cl.filter = (l', .ok settings)) (hlength : 0 < settings.fileLength) :
      Handles r cfg a l cl l'
        { cl with
          encSettings := settings
          srcFile := cl.srcFile.openFile a.opens
          prevMainState := .idle
          mainState := .receiving } (.ok ())
  | authRetries {l' e} (hstate : cl.mainState = .authenticateing)
      (hstop : cl.stopRequested = false)
      (hthrow : Throws r True (Line.authenticate r (toString cl.token).toList) l l' e)
      (he : Caught e ∧ ∀ what, e ≠ .systemError what) :
      Handles r cfg a l cl l' { cl with authenticated := false } (.ok ())
  /-- The system failed, and the client forgets what it was doing. -/
  | authForgets {l' what} (hstate : cl.mainState = .authenticateing)
      (hstop : cl.stopRequested = false)
      (hthrow : Throws r True (Line.authenticate r (toString cl.token).toList) l l'
        (.systemError what)) :
      Handles r cfg a l cl l'
        { cl with
          authenticated := false
          prevMainState := .idle
          mainState := .waitForReconnect
          timeToWait := cfg.serverConnectionTimeout } (.ok ())
  | authThrows {l' e} (hstate : cl.mainState = .authenticateing)
      (hstop : cl.stopRequested = false)
      (hthrow : Throws r True (Line.authenticate r (toString cl.token).toList) l l' e)
      (he : ¬ Caught e) :
      Handles r cfg a l cl l' { cl with authenticated := false } (.error e)
  | authDone {l₁ l'} (hstate : cl.mainState = .authenticateing) (hstop : cl.stopRequested = false)
      (hcheck : l.checkCreateRpc r = (l₁, .ok ()))
      (hcall : l₁.authenticate r (toString cl.token).toList = (l', .ok ())) :
      Handles r cfg a l cl l' { cl with authenticated := true, mainState := cl.prevMainState }
        (.ok ())
  | receiveMore {l' data} (hstate : cl.mainState = .receiving) (hstop : cl.stopRequested = false)
      (hread : l.readChunk r = (l', .ok (true, data))) :
      Handles r cfg a l cl l' { cl with srcFile := cl.srcFile.write a.written data } (.ok ())
  /-- Reading threw: start over. -/
  | receiveThrew {l₁ l' e answer} (hstate : cl.mainState = .receiving)
      (hstop : cl.stopRequested = false) (hread : l.readChunk r = (l₁, .error e))
      (hreset : l₁.reset r = (l', answer)) :
      Handles r cfg a l cl l' { cl with srcFile := cl.srcFile.rewind a.rewound } answer
  /-- The file came to its end at the wrong place: start over. -/
  | receiveShort {l₁ l' data answer} (hstate : cl.mainState = .receiving)
      (hstop : cl.stopRequested = false) (hread : l.readChunk r = (l₁, .ok (false, data)))
      (hpos : sizeT (cl.srcFile.write a.written data).tellp ≠ cl.encSettings.fileLength)
      (hreset : l₁.reset r = (l', answer)) :
      Handles r cfg a l cl l'
        { cl with srcFile := (cl.srcFile.write a.written data).rewind a.rewound } answer
  | receiveDone {l' data} (hstate : cl.mainState = .receiving) (hstop : cl.stopRequested = false)
      (hread : l.readChunk r = (l', .ok (false, data)))
      (hpos : sizeT (cl.srcFile.write a.written data).tellp = cl.encSettings.fileLength)
      (hlaunch : a.launches = true) :
      Handles r cfg a l cl l'.drop
        { cl with
          srcFile := (cl.srcFile.write a.written data).close a.flushed
          authenticated := false
          encResult := ⟨EncodingResult.unknownError.value, 0, cl.stdOut⟩
          passNo := if cl.encSettings.pass2Enabled then 1 else 2
          encodeProcess := true
          mainState := .waitForEncodingFinished } (.ok ())
  /-- The encoder did not start, and the handler uses the object that is gone. -/
  | receiveLost {l' data e} (hstate : cl.mainState = .receiving)
      (hstop : cl.stopRequested = false) (hread : l.readChunk r = (l', .ok (false, data)))
      (hpos : sizeT (cl.srcFile.write a.written data).tellp = cl.encSettings.fileLength)
      (hlaunch : a.launches = false) :
      Handles r cfg a l cl { l'.drop with crashed := true }
        { cl with
          srcFile := ((cl.srcFile.write a.written data).close a.flushed).rewind a.rewound
          authenticated := false
          encResult := ⟨EncodingResult.unknownError.value, 0, cl.stdOut⟩
          passNo := if cl.encSettings.pass2Enabled then 1 else 2 } (.error e)
  | waits (hstate : Waits cl.mainState) : Handles r cfg a l cl l cl (.ok ())
  | returns (hstate : Waits cl.mainState)
      (hstop : cl.stopRequested = false ∨ cl.prevMainState ≠ .idle) :
      Handles r cfg a l cl l { cl with mainState := cl.prevMainState } (.ok ())
  | convert (hstate : cl.mainState = .waitForEncodingFinished) (hproc : cl.encodeProcess = true) :
      Handles r cfg a l cl l (cl.doConvert cfg a.encoder) (.ok ())
  | convertLost (hstate : cl.mainState = .waitForEncodingFinished)
      (hproc : cl.encodeProcess = false) :
      Handles r cfg a l cl { l with crashed := true } cl (.ok ())
  | sendFailed {l' e} (hstate : cl.mainState = .sendResult)
      (hthrow : Throws r (cl.authenticated = true)
        (Line.postFile r cl.encResult) l l' e) :
      Handles r cfg a l cl l'
        { cl with
          timeToWait := cfg.reconnectDelay
          prevMainState := .sendResult
          mainState := .waitForReconnect } (.ok ())
  | sendUnknown {l'} (hstate : cl.mainState = .sendResult) (hauth : cl.authenticated = false)
      (hcheck : l.checkCreateRpc r = (l', .ok ())) :
      Handles r cfg a l cl l'
        { cl with prevMainState := .sendResult, mainState := .authenticateing } (.ok ())
  | sendUpload {l₁ l'} (hstate : cl.mainState = .sendResult) (hauth : cl.authenticated = true)
      (hcheck : l.checkCreateRpc r = (l₁, .ok ()))
      (hpost : l₁.postFile r cl.encResult = (l', .ok ()))
      (hup : cl.encResult.Uploads) :
      Handles r cfg a l cl l'
        { cl with dstFile := cl.dstFile.rewind.clear, mainState := .transmitting } (.ok ())
  | sendDone {l₁ l'} (hstate : cl.mainState = .sendResult) (hauth : cl.authenticated = true)
      (hcheck : l.checkCreateRpc r = (l₁, .ok ()))
      (hpost : l₁.postFile r cl.encResult = (l', .ok ()))
      (hup : ¬ cl.encResult.Uploads) :
      Handles r cfg a l cl l'
        { cl with
          toMediaArchiverClient := { cl.toMediaArchiverClient.cleanUp with mainState := .idle } }
        (.ok ())
  | transmitMore {l' res} (hstate : cl.mainState = .transmitting)
      (hwrite : l.writeChunk r (cl.dstFile.read cfg.chunkSize).2 = (l', .ok res))
      (heof : (cl.dstFile.read cfg.chunkSize).1.eofbit = false)
      (hmem : DataChunk.Allocates a.memory cfg.chunkSize) :
      Handles r cfg a l cl l' { cl with dstFile := (cl.dstFile.read cfg.chunkSize).1 } (.ok ())
  | transmitDone {l'} (hstate : cl.mainState = .transmitting)
      (hwrite : l.writeChunk r (cl.dstFile.read cfg.chunkSize).2 = (l', .ok false))
      (heof : (cl.dstFile.read cfg.chunkSize).1.eofbit = true)
      (hmem : DataChunk.Allocates a.memory cfg.chunkSize) :
      Handles r cfg a l cl l'
        { cl with
          toMediaArchiverClient :=
            { ({ cl.toMediaArchiverClient with dstFile := (cl.dstFile.read cfg.chunkSize).1 } :
                MediaArchiverClient).cleanUp with mainState := .idle } } (.ok ())
  /-- Sending threw, or the server wants more than there is: start over. -/
  | transmitRestart {l₁ l' answer answer'} (hstate : cl.mainState = .transmitting)
      (hwrite : l.writeChunk r (cl.dstFile.read cfg.chunkSize).2 = (l₁, answer))
      (hfail : (∃ e, answer = .error e) ∨
        (answer = .ok true ∧ (cl.dstFile.read cfg.chunkSize).1.eofbit = true))
      (hreset : l₁.reset r = (l', answer'))
      (hmem : DataChunk.Allocates a.memory cfg.chunkSize) :
      Handles r cfg a l cl l'
        { cl with
          dstFile :=
            if answer'.isOk then (cl.dstFile.read cfg.chunkSize).1.rewind.clear
            else (cl.dstFile.read cfg.chunkSize).1 } answer'
  /-- There is no chunk to read into: start over, too. -/
  | transmitLacks {l' answer'} (hstate : cl.mainState = .transmitting)
      (hmem : ¬ DataChunk.Allocates a.memory cfg.chunkSize) (hreset : l.reset r = (l', answer')) :
      Handles r cfg a l cl l'
        { cl with dstFile := if answer'.isOk then cl.dstFile.rewind.clear else cl.dstFile } answer'

variable {r : Remote σ} {cfg : ClientSettings} {a : LocalAnswers} {l : Line σ} {cl : Client}

/-- After an exception the client waits, or stays in the state that was chosen. -/
theorem idleFailed_cases (cfg : ClientSettings) (next : MainStates) (cl : Client) (e : Exn) :
    (∃ t, cl.idleFailed cfg next e = ({ cl with timeToWait := t }, .waitForReconnect)) ∨
      cl.idleFailed cfg next e = (cl, next) := by
  cases e with
  | ioError what => exact Or.inr rfl
  | _ => exact Or.inl ⟨_, rfl⟩

theorem doIdle_handles (hstate : cl.mainState = .idle) :
    Handles r cfg a l cl (cl.doIdle r cfg a l).1 (cl.doIdle r cfg a l).2 (.ok ()) := by
  unfold doIdle
  by_cases hstop : cl.stopRequested = true
  · rw [if_pos hstop]
    exact .refuse (Or.inl hstate) hstop
  rw [if_neg hstop]
  rw [Bool.not_eq_true] at hstop
  have hfail : ∀ {l' e},
      Throws r (cl.authenticated = true) (Line.getNextFile r cl.filter) l l' e →
      Handles r cfg a l cl l'
        ((cl.idleFailed cfg cl.mainState e).1.goOn (cl.idleFailed cfg cl.mainState e).2)
        (.ok ()) := by
    intro l' e hthrow
    rcases idleFailed_cases cfg cl.mainState cl e with ⟨t, heq⟩ | heq
    · rw [heq]
      simpa [goOn, hstate] using Handles.idleFailed hstate hstop hthrow
    · rw [heq]
      simpa [goOn] using Handles.idleStays hstate hstop hthrow
  unfold askForFile
  cases hcheck : l.checkCreateRpc r with
  | mk l₁ answer =>
    cases answer with
    | error e => exact hfail (Or.inl hcheck)
    | ok =>
      by_cases hauth : cl.authenticated = true
      · have hknown : ¬ (!cl.authenticated) = true := by simp [hauth]
        simp only [if_neg hknown]
        cases hget : l₁.getNextFile r cl.filter with
        | mk l' answer =>
          cases answer with
          | error e => exact hfail (Or.inr ⟨hauth, l₁, hcheck, hget⟩)
          | ok settings =>
            by_cases hlength : 0 < settings.fileLength
            · simp only [hlength, if_true]
              by_cases hopen : (cl.srcFile.openFile a.opens).fail = true
              · simpa [hopen, idleFailed, goOn, hstate] using
                  Handles.idleFile hstate hstop hauth hcheck hget hlength
              · simpa [hopen, goOn, hstate] using
                  Handles.idleFile hstate hstop hauth hcheck hget hlength
            · simp only [hlength, if_false]
              simpa [goOn, hstate] using Handles.idleNone hstate hstop hauth hcheck hget
                (Nat.eq_zero_of_not_pos hlength)
      · rw [Bool.not_eq_true] at hauth
        simpa [hauth, goOn, hstate] using Handles.idleUnknown hstate hstop hauth hcheck

/-- What `doAuth` makes of an exception. -/
theorem authFailed_handles (hstate : cl.mainState = .authenticateing)
    (hstop : cl.stopRequested = false) {l' : Line σ} {e : Exn}
    (hthrow : Throws r True (Line.authenticate r (toString cl.token).toList) l l' e) :
    Handles r cfg a l cl l' (({ cl with authenticated := false } : Client).authFailed cfg e).1
      (({ cl with authenticated := false } : Client).authFailed cfg e).2 := by
  cases e with
  | systemError what => exact .authForgets hstate hstop hthrow
  | rpcTimeout what => exact .authRetries hstate hstop hthrow ⟨trivial, nofun⟩
  | rpcError what => exact .authRetries hstate hstop hthrow ⟨trivial, nofun⟩
  | _ => exact .authThrows hstate hstop hthrow not_false

theorem doAuth_handles (hstate : cl.mainState = .authenticateing) :
    Handles r cfg a l cl (cl.doAuth r cfg l).1 (cl.doAuth r cfg l).2.1 (cl.doAuth r cfg l).2.2 := by
  unfold doAuth
  by_cases hstop : cl.stopRequested = true
  · rw [if_pos hstop]
    exact .refuse (Or.inr (Or.inl hstate)) hstop
  rw [if_neg hstop]
  rw [Bool.not_eq_true] at hstop
  cases hcheck : l.checkCreateRpc r with
  | mk l₁ answer =>
    cases answer with
    | error e => exact authFailed_handles hstate hstop (Or.inl hcheck)
    | ok =>
      dsimp only
      cases hcall : l₁.authenticate r (toString cl.token).toList with
      | mk l' answer =>
        cases answer with
        | error e => exact authFailed_handles hstate hstop (Or.inr ⟨trivial, l₁, hcheck, hcall⟩)
        | ok => exact .authDone hstate hstop hcheck hcall

theorem doReceive_handles (hstate : cl.mainState = .receiving) :
    Handles r cfg a l cl (cl.doReceive r cfg a l).1 (cl.doReceive r cfg a l).2.1
      (cl.doReceive r cfg a l).2.2 := by
  unfold doReceive
  by_cases hstop : cl.stopRequested = true
  · rw [if_pos hstop]
    exact .refuse (Or.inr (Or.inr (Or.inl hstate))) hstop
  rw [if_neg hstop]
  rw [Bool.not_eq_true] at hstop
  unfold receiveChunk
  cases hread : l.readChunk r with
  | mk l₁ answer =>
    cases answer with
    | error e => exact .receiveThrew hstate hstop hread rfl
    | ok chunk =>
      obtain ⟨cont, data⟩ := chunk
      cases cont with
      | true => exact .receiveMore hstate hstop hread
      | false =>
        by_cases hpos : sizeT (cl.srcFile.write a.written data).tellp = cl.encSettings.fileLength
        · cases hlaunch : a.launches with
          | true =>
            have hdone : Handles r cfg a l cl _ _ _ :=
              .receiveDone hstate hstop hread hpos hlaunch
            simpa [hpos, launch, hlaunch] using hdone
          | false =>
            have hreset : l₁.drop.reset r = ({ l₁.drop with crashed := true }, .error _) :=
              Line.call_of_none rfl
            simp only [Bool.false_eq_true, if_false, hpos, ne_eq, not_true_eq_false, launch, hreset]
            exact .receiveLost hstate hstop hread hpos hlaunch
        · simp only [Bool.false_eq_true, if_false, ne_eq, hpos, not_false_eq_true, if_true]
          exact .receiveShort hstate hstop hread hpos rfl

theorem doWait_handles (hstate : Waits cl.mainState) :
    Handles r cfg a l cl l (cl.doWait a) (.ok ()) := by
  unfold doWait
  by_cases hstop : (cl.stopRequested && cl.prevMainState = .idle) = true
  · rw [if_pos hstop]
    rw [Bool.and_eq_true, decide_eq_true_eq] at hstop
    exact .refuse (Or.inr (Or.inr (Or.inr ⟨hstate, hstop.2⟩))) hstop.1
  · rw [if_neg hstop]
    split
    · apply Handles.returns hstate
      rw [Bool.and_eq_true, decide_eq_true_eq, not_and_or, Bool.not_eq_true] at hstop
      exact hstop
    · exact .waits hstate

theorem doSendResult_handles (hstate : cl.mainState = .sendResult) :
    Handles r cfg a l cl
      (cl.toMediaArchiverClient.doSendResult (Line.iServer r) cfg.toClientConfig l).1
      { cl with
        toMediaArchiverClient :=
          (cl.toMediaArchiverClient.doSendResult (Line.iServer r) cfg.toClientConfig l).2 }
      (.ok ()) := by
  have hfail : ∀ {l' e}, Throws r (cl.authenticated = true)
        (Line.postFile r cl.encResult) l l' e →
      Handles r cfg a l cl l'
        { cl with
          toMediaArchiverClient := cl.toMediaArchiverClient.sendResultFailed cfg.toClientConfig }
        (.ok ()) := by
    intro l' e hthrow
    simpa [MediaArchiverClient.sendResultFailed, hstate] using Handles.sendFailed hstate hthrow
  unfold MediaArchiverClient.doSendResult
  cases hcheck : (Line.iServer r).checkCreateRpc l with
  | mk l₁ answer =>
    have hcheck' : l.checkCreateRpc r = (l₁, answer) := hcheck
    cases answer with
    | error e => exact hfail (Or.inl hcheck')
    | ok =>
      by_cases hauth : cl.authenticated = true
      · have hknown : ¬ (!cl.authenticated) = true := by simp [hauth]
        simp only [if_neg hknown]
        cases hpost : (Line.iServer r).postFile l₁ cl.encResult with
        | mk l' answer =>
          cases answer with
          | error e => exact hfail (Or.inr ⟨hauth, l₁, hcheck', hpost⟩)
          | ok =>
            by_cases hup : cl.encResult.Uploads
            · simp only [hup, if_true]
              exact .sendUpload hstate hauth hcheck' hpost hup
            · simp only [hup, if_false]
              exact .sendDone hstate hauth hcheck' hpost hup
      · rw [Bool.not_eq_true] at hauth
        simpa [hauth, hstate] using Handles.sendUnknown hstate hauth hcheck'

theorem doTransmit_handles (hstate : cl.mainState = .transmitting) :
    Handles r cfg a l cl
      (cl.toMediaArchiverClient.doTransmit (Line.iServer r) cfg.toClientConfig a.memory l).1
      { cl with
        toMediaArchiverClient :=
          (cl.toMediaArchiverClient.doTransmit (Line.iServer r) cfg.toClientConfig a.memory l).2.1 }
      (cl.toMediaArchiverClient.doTransmit (Line.iServer r) cfg.toClientConfig a.memory l).2.2 := by
  -- what a failure leaves is decided by the reset
  have hrestart : ∀ {l₁ dstFile e},
      cl.toMediaArchiverClient.transmitChunk (Line.iServer r) cfg.toClientConfig a.memory l
        = (l₁, { cl.toMediaArchiverClient with dstFile := dstFile }, .error e) →
      (∀ {l' answer}, l₁.reset r = (l', answer) →
        Handles r cfg a l cl l'
          { cl with dstFile := if answer.isOk then dstFile.rewind.clear else dstFile } answer) →
      Handles r cfg a l cl
        (cl.toMediaArchiverClient.doTransmit (Line.iServer r) cfg.toClientConfig a.memory l).1
        { cl with
          toMediaArchiverClient :=
            (cl.toMediaArchiverClient.doTransmit (Line.iServer r) cfg.toClientConfig a.memory l).2.1 }
        (cl.toMediaArchiverClient.doTransmit (Line.iServer r) cfg.toClientConfig a.memory l).2.2 := by
    intro l₁ dstFile e htry hgoes
    rw [MediaArchiverClient.doTransmit_of_error htry]
    have hreset : (Line.iServer r).reset l₁ = l₁.reset r := rfl
    unfold MediaArchiverClient.restartTransmission
    rw [hreset]
    cases hanswer : l₁.reset r with
    | mk l' answer' =>
      have hhandles := hgoes hanswer
      cases answer' with
      | error e' => simpa [Except.isOk, Except.toBool] using hhandles
      | ok => simpa [Except.isOk, Except.toBool] using hhandles
  by_cases hmem : DataChunk.Allocates a.memory cfg.chunkSize
  · have halloc := DataChunk.allocate_of_allocates hmem
    cases hwrite : (Line.iServer r).writeChunk l (cl.dstFile.read cfg.chunkSize).2 with
    | mk l₁ answer =>
      cases answer with
      | error e =>
        have htry :
            cl.toMediaArchiverClient.transmitChunk (Line.iServer r) cfg.toClientConfig a.memory l
            = (l₁, { cl.toMediaArchiverClient with
                dstFile := (cl.dstFile.read cfg.chunkSize).1 }, .error e) := by
          simp only [MediaArchiverClient.transmitChunk, halloc, hwrite]
        apply hrestart htry
        exact fun hreset => .transmitRestart hstate hwrite (Or.inl ⟨e, rfl⟩) hreset hmem
      | ok res =>
        by_cases heof : (cl.dstFile.read cfg.chunkSize).1.eofbit = true
        · cases res with
          | true =>
            obtain ⟨e, htry⟩ : ∃ e,
                cl.toMediaArchiverClient.transmitChunk (Line.iServer r) cfg.toClientConfig a.memory l
                  = (l₁, { cl.toMediaArchiverClient with
                      dstFile := (cl.dstFile.read cfg.chunkSize).1 }, .error e) := by
              simp only [MediaArchiverClient.transmitChunk, halloc, hwrite, heof, if_true]
              exact ⟨_, rfl⟩
            apply hrestart htry
            exact fun hreset => .transmitRestart hstate hwrite (Or.inr ⟨rfl, heof⟩) hreset hmem
          | false =>
            have htry :
                cl.toMediaArchiverClient.transmitChunk (Line.iServer r) cfg.toClientConfig a.memory l
                = (l₁, { ({ cl.toMediaArchiverClient with
                      dstFile := (cl.dstFile.read cfg.chunkSize).1 } : MediaArchiverClient).cleanUp with
                    mainState := .idle }, .ok ()) := by
              simp only [MediaArchiverClient.transmitChunk, halloc, hwrite, heof, if_true,
                Bool.false_eq_true, if_false]
            rw [MediaArchiverClient.doTransmit_of_ok htry]
            exact .transmitDone hstate hwrite heof hmem
        · rw [Bool.not_eq_true] at heof
          have htry :
              cl.toMediaArchiverClient.transmitChunk (Line.iServer r) cfg.toClientConfig a.memory l
              = (l₁, { cl.toMediaArchiverClient with
                  dstFile := (cl.dstFile.read cfg.chunkSize).1 }, .ok ()) := by
            simp only [MediaArchiverClient.transmitChunk, halloc, hwrite, heof, Bool.false_eq_true,
              if_false]
          rw [MediaArchiverClient.doTransmit_of_ok htry]
          exact .transmitMore hstate hwrite heof hmem
  · obtain ⟨e, htry⟩ := MediaArchiverClient.transmitChunk_of_not_allocates
      (Line.iServer r) cfg.toClientConfig hmem l cl.toMediaArchiverClient
    exact hrestart htry fun hreset => .transmitLacks hstate hmem hreset

/-- Every handler goes one of these ways. -/
theorem handle_handles (r : Remote σ) (cfg : ClientSettings) (a : LocalAnswers) (l : Line σ)
    (cl : Client) :
    Handles r cfg a l cl (cl.handle r cfg a l).1 (cl.handle r cfg a l).2.1
      (cl.handle r cfg a l).2.2 := by
  cases hstate : cl.mainState with
  | idle => simpa only [handle, hstate] using doIdle_handles hstate
  | authenticateing => simpa only [handle, hstate] using doAuth_handles hstate
  | receiving => simpa only [handle, hstate] using doReceive_handles hstate
  | waitForConnect | waitForFileCheck | waitForReconnect =>
    simp only [handle, hstate]
    apply doWait_handles
    rw [hstate]
    trivial
  | waitForEncodingFinished =>
    simp only [handle, hstate]
    split
    · rename_i hproc
      exact .convert hstate hproc
    · rename_i hproc
      exact .convertLost hstate (by simpa using hproc)
  | sendResult => simpa only [handle, hstate] using doSendResult_handles hstate
  | transmitting => simpa only [handle, hstate] using doTransmit_handles hstate

/-! ## What `doConvert` leaves -/

/-- The second pass does not start although everything else is in order. -/
def Pass2Lost (a : EncoderAnswers) (cl : Client) : Prop :=
  (a.eof = true ∧ a.exit = 0) ∧ cl.passNo = 1 ∧ a.passLog = true ∧ a.launches = false

/-- The encoded file is open, at its end, and the result tells its length. -/
def Announces (content : Bytes) (cl : Client) : Prop :=
  cl.encResult = (MediaArchiverClient.encoded content).encResult
    ∧ cl.dstFile = (MediaArchiverClient.encoded content).dstFile

/-- The client goes on waiting with an encoder, or without one if the second pass was lost; or it goes
over to sending the result, and if that announces an upload, it is that of the encoded file. -/
structure Converts (a : EncoderAnswers) (cl cl' : Client) : Prop where
  prev : cl'.prevMainState = cl.prevMainState
  authenticated : cl'.authenticated = cl.authenticated
  srcFile : cl'.srcFile = cl.srcFile
  token : cl'.token = cl.token
  shutdown : cl'.shutdown = cl.shutdown ∨ a.forced = true
  stopRequested : cl'.stopRequested = cl.stopRequested ∨ a.forced = true
  state : (cl'.mainState = .sendResult ∧
      (cl'.encResult.Uploads → ∃ content ∈ a.encoded, Announces content cl')) ∨
    (cl'.mainState = cl.mainState ∧ (cl'.encodeProcess = true ∨ Pass2Lost a cl))

theorem not_uploads_convertFailed (buffer : Text) (cl : Client) :
    ¬ (cl.convertFailed buffer).encResult.Uploads := by
  rintro ⟨hresult, -⟩
  have hnot : EncodingResult.unknownError.value ≠ EncodingResult.ok.value := by decide
  exact hnot hresult

/-- A failure leaves a result without an upload. -/
theorem converts_failed {b : EncoderAnswers} {cl₁ : Client} (hprev : cl₁.prevMainState = cl.prevMainState)
    (hauth : cl₁.authenticated = cl.authenticated) (hsrc : cl₁.srcFile = cl.srcFile)
    (htoken : cl₁.token = cl.token) (hshut : cl₁.shutdown = cl.shutdown ∨ b.forced = true)
    (hstop : cl₁.stopRequested = cl.stopRequested ∨ b.forced = true) :
    Converts b cl { cl₁.convertFailed b.buffer with mainState := .sendResult } where
  prev := hprev
  authenticated := hauth
  srcFile := hsrc
  token := htoken
  shutdown := hshut
  stopRequested := hstop
  state := Or.inl ⟨rfl, fun hup => absurd hup (not_uploads_convertFailed b.buffer cl₁)⟩

/-- Checking the encoded file opens it and takes its length, or fails. -/
theorem checkEncoded_cases (cfg : ClientSettings) (b : EncoderAnswers) (cl : Client) :
    (∃ dstFile e, cl.checkEncoded cfg b = ({ cl with dstFile := dstFile }, .error e)) ∨
      ∃ dstFile : InStream UInt8,
        (dstFile.gcount ≠ 0 → ∃ content ∈ b.encoded, dstFile = (InStream.opened content).ignoreAll)
          ∧ cl.checkEncoded cfg b =
            ({ cl with
               dstFile := dstFile
               encResult := ⟨EncodingResult.ok.value, UInt64.ofNat dstFile.gcount, []⟩ }, .ok ()) := by
  unfold checkEncoded
  split
  · exact Or.inl ⟨cl.dstFile, _, rfl⟩
  · split
    · exact Or.inl ⟨cl.dstFile, _, rfl⟩
    · split
      · exact Or.inl ⟨cl.dstFile, _, rfl⟩
      · split
        · exact Or.inl ⟨cl.dstFile, _, rfl⟩
        · dsimp only
          split
          · exact Or.inl ⟨cl.dstFile.openFile b.encoded, _, rfl⟩
          · refine Or.inr ⟨(cl.dstFile.openFile b.encoded).ignoreAll, ?_, rfl⟩
            intro hcount
            rcases cl.dstFile.openFile_cases b.encoded with hfail | ⟨content, hcontent, hopened⟩
            · exact absurd (InStream.gcount_ignoreAll hfail) hcount
            · exact ⟨content, hcontent, congrArg _ hopened⟩

theorem finishPass_converts {b : EncoderAnswers} {cl₁ : Client} {retcode : Int}
    (hretcode : retcode = 0 → b.eof = true ∧ b.exit = 0)
    (hsame : cl₁ = cl ∨ (cl₁ = cl.stop true ∧ b.forced = true)) :
    Converts b cl (cl₁.finishPass cfg b retcode) := by
  have hpass : cl₁.passNo = cl.passNo := by
    rcases hsame with rfl | ⟨rfl, -⟩ <;> rfl
  have hprev : cl₁.prevMainState = cl.prevMainState := by
    rcases hsame with rfl | ⟨rfl, -⟩ <;> rfl
  have hauth : cl₁.authenticated = cl.authenticated := by
    rcases hsame with rfl | ⟨rfl, -⟩ <;> rfl
  have hsrc : cl₁.srcFile = cl.srcFile := by
    rcases hsame with rfl | ⟨rfl, -⟩ <;> rfl
  have htoken : cl₁.token = cl.token := by
    rcases hsame with rfl | ⟨rfl, -⟩ <;> rfl
  have hmain : cl₁.mainState = cl.mainState := by
    rcases hsame with rfl | ⟨rfl, -⟩ <;> rfl
  have hshut : cl₁.shutdown = cl.shutdown ∨ b.forced = true :=
    hsame.imp (fun h => by rw [h]) And.right
  have hstop : cl₁.stopRequested = cl.stopRequested ∨ b.forced = true :=
    hsame.imp (fun h => by rw [h]) And.right
  unfold finishPass
  dsimp only
  split
  · rename_i hzero
    split
    · rename_i hone
      unfold startPass2
      dsimp only
      split
      · exact converts_failed hprev hauth hsrc htoken hshut hstop
      · rename_i hlog
        cases hlaunch : b.launches with
        | true =>
          simp only [launch, if_true]
          exact ⟨hprev, hauth, hsrc, htoken, hshut, hstop, Or.inr ⟨hmain, Or.inl rfl⟩⟩
        | false =>
          simp only [launch, Bool.false_eq_true, if_false]
          refine ⟨hprev, hauth, hsrc, htoken, hshut, hstop, Or.inr ⟨hmain, Or.inr ?_⟩⟩
          exact ⟨hretcode hzero, hpass ▸ hone, by simpa using hlog, hlaunch⟩
    · rcases checkEncoded_cases cfg b { cl₁ with encodeProcess := false } with
        ⟨dstFile, e, heq⟩ | ⟨dstFile, hopened, heq⟩
      · rw [heq]
        exact converts_failed hprev hauth hsrc htoken hshut hstop
      · rw [heq]
        refine ⟨hprev, hauth, hsrc, htoken, hshut, hstop, Or.inl ⟨rfl, ?_⟩⟩
        rintro ⟨-, hlength⟩
        have hcount : dstFile.gcount ≠ 0 := by
          intro hzero
          rw [hzero] at hlength
          cases hlength
        obtain ⟨content, hcontent, rfl⟩ := hopened hcount
        exact ⟨content, hcontent, rfl, rfl⟩
  · exact converts_failed hprev hauth hsrc htoken hshut hstop

theorem doConvert_converts (cfg : ClientSettings) (hproc : cl.encodeProcess = true)
    (b : EncoderAnswers) :
    Converts b cl (cl.doConvert cfg b) := by
  unfold doConvert
  split
  · rename_i hend
    cases hforced : b.forced with
    | true =>
      simp only [if_true]
      refine finishPass_converts ?_ (Or.inr ⟨rfl, hforced⟩)
      intro hzero
      simp [stop] at hzero
    | false =>
      simp only [Bool.false_eq_true, if_false]
      refine finishPass_converts ?_ (Or.inl rfl)
      intro hzero
      rw [Bool.or_eq_true] at hend
      split at hzero
      · cases hzero
      · rename_i hshut
        exact ⟨hend.resolve_right hshut, hzero⟩
  · exact ⟨rfl, rfl, rfl, rfl, Or.inl rfl, Or.inl rfl, Or.inr ⟨rfl, Or.inl hproc⟩⟩

end Client

end MediaArchiver
