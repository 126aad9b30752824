/-
# MediaArchiver.Client.Client -- the client's half of an upload

The client is polled; each poll runs the handler of its main state. Two states belong to the upload:
`SendResult`, where the result is posted, and `Transmitting`, where each poll reads one chunk of the
encoded file and sends it. The end of the upload is where the *file* ends: a read that did not get a
whole chunk. On any failure, one to make the chunk among them, the client resets the session and goes
back to the start of its file.

The server is a parameter, a record of calls on a state: the daemon's session in the following modules.
A call answers a value or an exception. An exception of the reset in `doTransmit`'s handler leaves
`doTransmit`; the handler is not protected.
-/
import MediaArchiver.Lib.InStream
import MediaArchiver.Lib.OutStream
import MediaArchiver.Server

namespace MediaArchiver

open Lib (InStream OutStream)

universe u

/-- The states of the client's main loop. -/
inductive MainStates where
  | idle
  | waitForReconnect
  | waitForConnect
  | waitForFileCheck
  | authenticateing
  | receiving
  | waitForEncodingFinished
  | sendResult
  | transmitting
deriving DecidableEq

/-- The client's settings that the upload uses. -/
structure ClientConfig where
  chunkSize : Nat
  reconnectDelay : Int

/-- What the upload calls of the server, and the connection it is called through. -/
structure IServer (σ : Type u) where
  checkCreateRpc : σ → σ × Except Exn Unit
  postFile : σ → EncodingResultInfo → σ × Except Exn Unit
  writeChunk : σ → Bytes → σ × Except Exn Bool
  reset : σ → σ × Except Exn Unit

/-- The client. `encodeProcess` tells whether an encoder runs. -/
structure MediaArchiverClient where
  mainState : MainStates
  prevMainState : MainStates
  authenticated : Bool
  encResult : EncodingResultInfo
  encodeProcess : Bool
  srcFile : OutStream UInt8
  dstFile : InStream UInt8
  timeToWait : Int

namespace MediaArchiverClient

variable {σ : Type u}

/-- Close whatever is open. The temp files that are removed are not part of the state. -/
def cleanUp (cl : MediaArchiverClient) : MediaArchiverClient :=
  { cl with
    encodeProcess := false
    srcFile := if cl.srcFile.isOpen then cl.srcFile.close cl.srcFile.pending.length else cl.srcFile
    dstFile := if cl.dstFile.isOpen then cl.dstFile.close else cl.dstFile }

@[simp] theorem isOpen_dstFile_cleanUp (cl : MediaArchiverClient) :
    cl.cleanUp.dstFile.isOpen = false := by
  cases hopen : cl.dstFile.isOpen <;> simp [cleanUp, hopen]

/-- The handler of `doSendResult`'s exceptions. -/
def sendResultFailed (cl : MediaArchiverClient) (cfg : ClientConfig) : MediaArchiverClient :=
  { cl with
    timeToWait := cfg.reconnectDelay
    prevMainState := cl.mainState
    mainState := .waitForReconnect }

/-- Post the result, and go over to the upload if there is one. -/
def doSendResult (srv : IServer σ) (cfg : ClientConfig) (s : σ) (cl : MediaArchiverClient) :
    σ × MediaArchiverClient :=
  match srv.checkCreateRpc s with
  | (s, .error _) => (s, cl.sendResultFailed cfg)
  | (s, .ok ()) =>
      if !cl.authenticated then
        (s, { cl with prevMainState := cl.mainState, mainState := .authenticateing })
      else
        match srv.postFile s cl.encResult with
        | (s, .error _) => (s, cl.sendResultFailed cfg)
        | (s, .ok ()) =>
            if cl.encResult.Uploads then
              (s, { cl with dstFile := cl.dstFile.rewind.clear, mainState := .transmitting })
            else (s, { cl.cleanUp with mainState := .idle })

/-- An authenticated client waits if something fails; otherwise the result is posted, and what comes
next depends on whether it announces an upload. -/
theorem doSendResult_cases (srv : IServer σ) (cfg : ClientConfig) (s : σ) (cl : MediaArchiverClient)
    (hauth : cl.authenticated = true) :
    (∃ s', cl.doSendResult srv cfg s = (s', cl.sendResultFailed cfg)) ∨
    (cl.encResult.Uploads
      ∧ (srv.postFile (srv.checkCreateRpc s).1 cl.encResult).2 = .ok ()
      ∧ cl.doSendResult srv cfg s
        = ((srv.postFile (srv.checkCreateRpc s).1 cl.encResult).1,
            { cl with dstFile := cl.dstFile.rewind.clear, mainState := .transmitting })) ∨
    (∃ s', cl.doSendResult srv cfg s = (s', { cl.cleanUp with mainState := .idle })) := by
  have hcheck : srv.checkCreateRpc s = ((srv.checkCreateRpc s).1, (srv.checkCreateRpc s).2) := rfl
  have hpost : srv.postFile (srv.checkCreateRpc s).1 cl.encResult
      = ((srv.postFile (srv.checkCreateRpc s).1 cl.encResult).1,
          (srv.postFile (srv.checkCreateRpc s).1 cl.encResult).2) := rfl
  unfold doSendResult
  rw [hcheck]
  cases (srv.checkCreateRpc s).2 with
  | error e => exact Or.inl ⟨_, rfl⟩
  | ok =>
    simp only [hauth, Bool.not_true, Bool.false_eq_true, if_false]
    rw [hpost]
    cases (srv.postFile (srv.checkCreateRpc s).1 cl.encResult).2 with
    | error e => exact Or.inl ⟨_, rfl⟩
    | ok =>
      by_cases hup : cl.encResult.Uploads
      · exact Or.inr (Or.inl ⟨hup, rfl, if_pos hup⟩)
      · exact Or.inr (Or.inr ⟨_, if_neg hup⟩)

/-- The handler of `doTransmit`'s exceptions: after an error the transmission starts from the
beginning. -/
def restartTransmission (srv : IServer σ) (s : σ) (cl : MediaArchiverClient) :
    σ × MediaArchiverClient × Except Exn Unit :=
  match srv.reset s with
  | (s, .error e) => (s, cl, .error e)
  -- the seek comes first
  | (s, .ok ()) => (s, { cl with dstFile := cl.dstFile.rewind.clear }, .ok ())

/-- What `doTransmit` tries: send the next chunk. -/
def transmitChunk (srv : IServer σ) (cfg : ClientConfig) (memory : Bool) (s : σ)
    (cl : MediaArchiverClient) : σ × MediaArchiverClient × Except Exn Unit :=
  match DataChunk.allocate memory cfg.chunkSize with
  | .error e => (s, cl, .error e)
  | .ok () =>
    let (dstFile, chunk) := cl.dstFile.read cfg.chunkSize
    let cl := { cl with dstFile := dstFile }
    match srv.writeChunk s chunk with
    | (s, .error e) => (s, cl, .error e)
    | (s, .ok res) =>
        if dstFile.eofbit then
          if res then
            (s, cl, .error (.networkError
              ("Server still wants to receive data but end of local file has been "
                ++ "reached").toList))
          else (s, { cl.cleanUp with mainState := .idle }, .ok ())
        -- away from the end of the file the answer is not looked at
        else (s, cl, .ok ())

/-- Without a chunk nothing is read and nothing is sent. -/
theorem transmitChunk_of_not_allocates (srv : IServer σ) (cfg : ClientConfig) {memory : Bool}
    (hmem : ¬ DataChunk.Allocates memory cfg.chunkSize) (s : σ) (cl : MediaArchiverClient) :
    ∃ e, cl.transmitChunk srv cfg memory s = (s, cl, .error e) := by
  obtain ⟨e, halloc⟩ := DataChunk.allocate_of_not_allocates hmem
  exact ⟨e, by rw [transmitChunk, halloc]⟩

/-- The chunk that was read is sent in any case. Either something fails, or more is to come, or the file
is at its end and the client is done. -/
theorem transmitChunk_cases (srv : IServer σ) (cfg : ClientConfig) {memory : Bool}
    (hmem : DataChunk.Allocates memory cfg.chunkSize) (s : σ) (cl : MediaArchiverClient) :
    let chunk := cl.dstFile.read cfg.chunkSize
    let sent := (srv.writeChunk s chunk.2).1
    (∃ e, cl.transmitChunk srv cfg memory s = (sent, { cl with dstFile := chunk.1 }, .error e)) ∨
    (chunk.1.eofbit = false
      ∧ cl.transmitChunk srv cfg memory s = (sent, { cl with dstFile := chunk.1 }, .ok ())) ∨
    cl.transmitChunk srv cfg memory s
      = (sent, { ({ cl with dstFile := chunk.1 } : MediaArchiverClient).cleanUp with
          mainState := .idle }, .ok ()) := by
  intro chunk sent
  have hsent : srv.writeChunk s chunk.2 = (sent, (srv.writeChunk s chunk.2).2) := rfl
  unfold transmitChunk
  rw [DataChunk.allocate_of_allocates hmem]
  dsimp only
  rw [hsent]
  cases (srv.writeChunk s chunk.2).2 with
  | error e => exact Or.inl ⟨e, rfl⟩
  | ok res =>
    dsimp only
    by_cases heof : chunk.1.eofbit = true
    · rw [if_pos heof]
      cases res with
      | true => exact Or.inl ⟨_, rfl⟩
      | false => exact Or.inr (Or.inr rfl)
    · rw [if_neg heof]
      exact Or.inr (Or.inl ⟨by simpa using heof, rfl⟩)

/-- Send the next chunk, or start over. -/
def doTransmit (srv : IServer σ) (cfg : ClientConfig) (memory : Bool) (s : σ)
    (cl : MediaArchiverClient) : σ × MediaArchiverClient × Except Exn Unit :=
  match cl.transmitChunk srv cfg memory s with
  | (s, cl, .ok ()) => (s, cl, .ok ())
  | (s, cl, .error _) => cl.restartTransmission srv s

theorem doTransmit_of_error {srv : IServer σ} {cfg : ClientConfig} {memory : Bool} {s s' : σ}
    {cl cl' : MediaArchiverClient} {e : Exn}
    (h : cl.transmitChunk srv cfg memory s = (s', cl', .error e)) :
    cl.doTransmit srv cfg memory s = cl'.restartTransmission srv s' := by
  rw [doTransmit, h]

theorem doTransmit_of_ok {srv : IServer σ} {cfg : ClientConfig} {memory : Bool} {s s' : σ}
    {cl cl' : MediaArchiverClient} (h : cl.transmitChunk srv cfg memory s = (s', cl', .ok ())) :
    cl.doTransmit srv cfg memory s = (s', cl', .ok ()) := by
  rw [doTransmit, h]

/-- The handler returns exactly if the reset does, and then the file was sought and cleared. -/
theorem restartTransmission_of_isOk {srv : IServer σ} {s : σ} {cl : MediaArchiverClient}
    (h : (cl.restartTransmission srv s).2.2.isOk = true) :
    cl.restartTransmission srv s
      = ((srv.reset s).1, { cl with dstFile := cl.dstFile.rewind.clear }, .ok ()) := by
  have hreset : srv.reset s = ((srv.reset s).1, (srv.reset s).2) := rfl
  unfold restartTransmission at h ⊢
  rw [hreset] at h ⊢
  cases hans : (srv.reset s).2 with
  | error e =>
    rw [hans] at h
    cases h
  | ok => rfl

/-- The polls of an upload. A poll in another state does not belong to it. -/
def poll (srv : IServer σ) (cfg : ClientConfig) (memory : Bool) (s : σ) (cl : MediaArchiverClient) :
    σ × MediaArchiverClient × Except Exn Unit :=
  match cl.mainState with
  | .sendResult =>
      let (s, cl) := cl.doSendResult srv cfg s
      (s, cl, .ok ())
  | .transmitting => cl.doTransmit srv cfg memory s
  | _ => (s, cl, .ok ())

/-- A client as the encoding leaves it: the encoded file is open, its length was taken by skipping to
its end, and the result is about to be posted. -/
def encoded (content : Bytes) : MediaArchiverClient where
  mainState := .sendResult
  prevMainState := .idle
  authenticated := true
  encResult := ⟨EncodingResult.ok.value, UInt64.ofNat content.length, []⟩
  encodeProcess := false
  srcFile := .closed
  dstFile := (InStream.opened content).ignoreAll
  timeToWait := 0

end MediaArchiverClient

end MediaArchiver
