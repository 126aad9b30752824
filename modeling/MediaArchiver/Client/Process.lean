/-
# MediaArchiver.Client.Process -- the whole client, poll by poll

The client proper is a record of flags, streams and settings, driven by `poll`. It reaches the daemon
through one object, `m_rpc`, that it creates, drops and replaces; the object and everything behind it is
the `Line`. What the calls do is a parameter (`Remote`), so one event of the machine brings along an
arbitrary server, which may answer, throw, or remember what it did before.

* An exception that leaves a handler leaves `poll`, and the main loop has no handler: the process ends.
* Using a null pointer ends it, too. The line notes it (`crashed`); the rest of that poll is of no
  interest any more.
* `poll` runs the handler of the main state, and then looks whether to shut down. A stop request may come
  in between; one that comes earlier is one that came before the poll, because every handler looks at the
  flags once, when it begins. `doConvert` alone looks twice.

The two states of an upload are those of `MediaArchiver.Client.Client`. When something happened is read
by `doWait` only, which is told how much time has passed; the start time is left out. The temp files that
`cleanUp` removes are not part of the state.
-/
import MediaArchiver.Lib.Machine
import MediaArchiver.Client.Encoder
import MediaArchiver.Daemon.Connections

namespace MediaArchiver

open Lib (Machine InStream OutStream WriteAnswer maxOffset)

universe u

/-! ## The line to the server -/

/-- The functions a client calls. -/
inductive RpcFunction where
  | authenticate
  | getNextFile
  | readChunk
  | postFile (result : EncodingResultInfo)
  | writeChunk (data : Bytes)
  | reset
  | abort
deriving DecidableEq

/-- A call that was made: whether the object had authenticated before, and what was returned. A call
that threw has no answer; one that returns nothing answers `true`. -/
structure CallRecord where
  function : RpcFunction
  authenticated : Bool
  answer : Option Bool
deriving DecidableEq

/-- The `IServer` object: the id of its connection, and whether `authenticate` succeeded on it. Nothing
in the code looks at the latter. -/
structure Rpc where
  conn : SessionId
  authenticated : Bool

/-- `m_rpc` and what is behind it. Of the calls a record is kept. -/
structure Line (σ : Type u) where
  rpc : Option Rpc
  crashed : Bool
  calls : List CallRecord
  server : σ

/-- What the server and the network do in one poll. -/
structure Remote (σ : Type u) where
  createServer : σ → σ × Except Exn SessionId
  isConnected : SessionId → σ → Bool
  authenticate : SessionId → Text → σ → σ × Except Exn Unit
  getNextFile : SessionId → MediaFileRequirements → σ → σ × Except Exn MediaEncoderSettings
  readChunk : SessionId → σ → σ × Except Exn (Bool × Bytes)
  postFile : SessionId → EncodingResultInfo → σ → σ × Except Exn Unit
  writeChunk : SessionId → Bytes → σ → σ × Except Exn Bool
  reset : SessionId → σ → σ × Except Exn Unit
  abort : SessionId → σ → σ × Except Exn Unit

namespace Line

variable {σ : Type u} {α : Type}

/-- A new object takes the place of the old one, if it can be created. -/
def createRpc (r : Remote σ) (l : Line σ) : Line σ × Except Exn Unit :=
  match r.createServer l.server with
  | (s, .ok conn) => ({ l with server := s, rpc := some ⟨conn, false⟩ }, .ok ())
  | (s, .error e) => ({ l with server := s }, .error e)

/-- Make sure that there is an object and that it is connected. -/
def checkCreateRpc (r : Remote σ) (l : Line σ) : Line σ × Except Exn Unit :=
  match l.rpc with
  | some rpc => if r.isConnected rpc.conn l.server then (l, .ok ()) else l.createRpc r
  | none => l.createRpc r

/-- `m_rpc.reset()`. -/
def drop (l : Line σ) : Line σ := { l with rpc := none }

/-- Call a function of the object. What of the answer is recorded, `seen` tells. -/
def call (function : RpcFunction) (seen : α → Bool) (f : SessionId → σ → σ × Except Exn α)
    (l : Line σ) : Line σ × Except Exn α :=
  match l.rpc with
  | some rpc =>
      let (s, answer) := f rpc.conn l.server
      ({ l with
         server := s
         calls := l.calls ++ [⟨function, rpc.authenticated, answer.toOption.map seen⟩] }, answer)
  | none => ({ l with crashed := true }, .error (.runtimeError "null pointer".toList))

def authenticate (r : Remote σ) (token : Text) (l : Line σ) : Line σ × Except Exn Unit :=
  match l.call .authenticate (fun _ => true) (r.authenticate · token) with
  | (l, .ok ()) =>
      ({ l with rpc := l.rpc.map fun rpc => { rpc with authenticated := true } }, .ok ())
  | (l, .error e) => (l, .error e)

def getNextFile (r : Remote σ) (filter : MediaFileRequirements) :
    Line σ → Line σ × Except Exn MediaEncoderSettings :=
  call .getNextFile (fun settings => 0 < settings.fileLength) (r.getNextFile · filter)

def readChunk (r : Remote σ) : Line σ → Line σ × Except Exn (Bool × Bytes) :=
  call .readChunk Prod.fst r.readChunk

def postFile (r : Remote σ) (result : EncodingResultInfo) : Line σ → Line σ × Except Exn Unit :=
  call (.postFile result) (fun _ => true) (r.postFile · result)

def writeChunk (r : Remote σ) (data : Bytes) : Line σ → Line σ × Except Exn Bool :=
  call (.writeChunk data) id (r.writeChunk · data)

def reset (r : Remote σ) : Line σ → Line σ × Except Exn Unit :=
  call .reset (fun _ => true) r.reset

def abort (r : Remote σ) : Line σ → Line σ × Except Exn Unit :=
  call .abort (fun _ => true) r.abort

/-- The line as the upload sees it. -/
def iServer (r : Remote σ) : IServer (Line σ) where
  checkCreateRpc l := l.checkCreateRpc r
  postFile l result := l.postFile r result
  writeChunk l data := l.writeChunk r data
  reset l := l.reset r

end Line

/-! ## The client -/

/-- What the encoder and the probe do while a poll looks at them: what the buffer holds after a line was
read, whether that was the end of the output, how the encoder exited, whether the log of the first pass
exists, whether the second pass starts, what the probe says about both files, and the encoded file if it
opens. `forced` is a forced stop between the two looks at the flag. -/
structure EncoderAnswers where
  buffer : Text
  eof : Bool
  forced : Bool
  exit : Int
  passLog : Bool
  launches : Bool
  probeOut : ProbeAnswers
  probeIn : ProbeAnswers
  encoded : Option Bytes

/-- What the client's own machine does in one poll. `memory` tells whether there is memory for a chunk. -/
structure LocalAnswers where
  memory : Bool
  opens : Bool
  written : WriteAnswer UInt8
  flushed : Nat
  rewound : Nat
  launches : Bool
  waited : Int
  encoder : EncoderAnswers

/-- The client. -/
structure Client extends MediaArchiverClient where
  shutdown : Bool
  stopRequested : Bool
  filter : MediaFileRequirements
  encSettings : MediaEncoderSettings
  stdOut : Text
  token : Nat
  passNo : Nat

namespace Client

/-- A new client. Settings, result, pass and waiting time have no initialiser; they are assigned before
they are read. -/
def start (token : Nat) : Client where
  mainState := .idle
  prevMainState := .idle
  authenticated := false
  encResult := noResult
  encodeProcess := false
  srcFile := .closed
  dstFile := .closed
  timeToWait := 0
  shutdown := false
  stopRequested := false
  -- a product of unsigned 32-bit numbers, which is zero
  filter := ⟨"ffmpeg".toList, (4 * 1024 * 1024 * 1024 : UInt32).toNat⟩
  encSettings := noSettings
  stdOut := []
  token := token
  passNo := 0

/-- `stop`, from a signal handler. -/
def stop (forced : Bool) (cl : Client) : Client :=
  { cl with stopRequested := true, shutdown := cl.shutdown || forced }

variable {σ : Type u}

/-! ## Idle -/

/-- What `doIdle` tries: ask for a file. Besides the outcome there is the next state as far as it was
decided before an exception. -/
def askForFile (r : Remote σ) (cfg : ClientSettings) (a : LocalAnswers) (l : Line σ) (cl : Client) :
    Line σ × Client × MainStates × Except Exn Unit :=
  match l.checkCreateRpc r with
  | (l, .error e) => (l, cl, cl.mainState, .error e)
  | (l, .ok ()) =>
      if !cl.authenticated then (l, cl, .authenticateing, .ok ())
      else
        match l.getNextFile r cl.filter with
        | (l, .error e) => (l, cl, cl.mainState, .error e)
        | (l, .ok settings) =>
            let cl := { cl with encSettings := settings }
            if 0 < settings.fileLength then
              -- the state is chosen before the file is opened
              let cl := { cl with srcFile := cl.srcFile.openFile a.opens }
              if cl.srcFile.fail then
                (l, cl, .receiving, .error (.ioError
                  ("could not open file \"".toList ++ inTmpFileName ++ ".".toList
                    ++ settings.fileExtension ++ "\" for write".toList)))
              else (l, cl, .receiving, .ok ())
            else
              (l.drop, { cl with authenticated := false, timeToWait := cfg.checkForNewFileInterval },
                .waitForFileCheck, .ok ())

/-- The handlers of `doIdle`'s exceptions. An `IOError` changes nothing about the next state. -/
def idleFailed (cfg : ClientSettings) (next : MainStates) (cl : Client) :
    Exn → Client × MainStates
  | .systemError _ => ({ cl with timeToWait := cfg.serverConnectionTimeout }, .waitForReconnect)
  | .ioError _ => (cl, next)
  | _ => ({ cl with timeToWait := cfg.reconnectDelay }, .waitForReconnect)

/-- Go over to the next state and remember the last one. -/
def goOn (next : MainStates) (cl : Client) : Client :=
  if next ≠ cl.mainState then { cl with prevMainState := cl.mainState, mainState := next } else cl

def doIdle (r : Remote σ) (cfg : ClientSettings) (a : LocalAnswers) (l : Line σ) (cl : Client) :
    Line σ × Client :=
  if cl.stopRequested then (l, { cl with shutdown := true })
  else
    match cl.askForFile r cfg a l with
    | (l, cl, next, .ok ()) => (l, cl.goOn next)
    | (l, cl, next, .error e) =>
        -- the flag `m_authenticated` stays as it is
        let (cl, next) := cl.idleFailed cfg next e
        (l, cl.goOn next)

/-! ## Authenticateing -/

/-- The handlers of `doAuth`'s exceptions. Others leave the function. -/
def authFailed (cfg : ClientSettings) (cl : Client) : Exn → Client × Except Exn Unit
  | .rpcTimeout _ | .rpcError _ => (cl, .ok ())
  | .systemError _ =>
      -- whatever the client was about to do is forgotten
      ({ cl with
         prevMainState := .idle
         mainState := .waitForReconnect
         timeToWait := cfg.serverConnectionTimeout }, .ok ())
  | e => (cl, .error e)

def doAuth (r : Remote σ) (cfg : ClientSettings) (l : Line σ) (cl : Client) :
    Line σ × Client × Except Exn Unit :=
  -- also when the result of a job is still to be sent
  if cl.stopRequested then (l, { cl with shutdown := true }, .ok ())
  else
    let cl := { cl with authenticated := false }
    match l.checkCreateRpc r with
    | (l, .error e) => (l, cl.authFailed cfg e)
    | (l, .ok ()) =>
        match l.authenticate r (toString cl.token).toList with
        | (l, .error e) => (l, cl.authFailed cfg e)
        | (l, .ok ()) => (l, { cl with authenticated := true, mainState := cl.prevMainState }, .ok ())

/-! ## Receiving -/

/-- What `doReceive` tries: take a chunk, and after the last one start the encoder. -/
def receiveChunk (r : Remote σ) (cfg : ClientSettings) (a : LocalAnswers) (l : Line σ) (cl : Client) :
    Line σ × Client × Except Exn Unit :=
  match l.readChunk r with
  | (l, .error e) => (l, cl, .error e)
  | (l, .ok (cont, data)) =>
      let cl := { cl with srcFile := cl.srcFile.write a.written data }
      if cont then (l, cl, .ok ())
      else if sizeT cl.srcFile.tellp ≠ cl.encSettings.fileLength then
        (l, cl, .error (.networkError
          "Received file size is different to one reported by server".toList))
      else
        let passNo := if cl.encSettings.pass2Enabled then 1 else 2
        let cl :=
          { cl with
            srcFile := cl.srcFile.close a.flushed
            authenticated := false
            encResult := ⟨EncodingResult.unknownError.value, 0, cl.stdOut⟩
            passNo := passNo }
        -- the object is gone when the encoder is started
        match launch (cfg.getTranscodeCommand cl.encSettings passNo) a.launches with
        | .error e => (l.drop, cl, .error e)
        | .ok () =>
            (l.drop, { cl with encodeProcess := true, mainState := .waitForEncodingFinished }, .ok ())

def doReceive (r : Remote σ) (cfg : ClientSettings) (a : LocalAnswers) (l : Line σ) (cl : Client) :
    Line σ × Client × Except Exn Unit :=
  if cl.stopRequested then (l, { cl with shutdown := true }, .ok ())
  else
    match cl.receiveChunk r cfg a l with
    | (l, cl, .ok ()) => (l, cl, .ok ())
    | (l, cl, .error _) =>
        -- the handler itself calls the server, and nothing protects it
        let (l, answer) := l.reset r
        (l, { cl with srcFile := cl.srcFile.rewind a.rewound }, answer)

/-! ## Waiting -/

def doWait (a : LocalAnswers) (cl : Client) : Client :=
  if cl.stopRequested && cl.prevMainState = .idle then { cl with shutdown := true }
  else if cl.timeToWait ≤ a.waited then { cl with mainState := cl.prevMainState }
  else cl

/-! ## WaitForEncodingFinished -/

/-- The encoding failed; the result has what the encoder printed. -/
def convertFailed (buffer : Text) (cl : Client) : Client :=
  { cl with
    stdOut := cl.stdOut ++ buffer
    encResult :=
      { cl.encResult with
        result := EncodingResult.unknownError.value
        error := cl.stdOut ++ buffer } }

/-- The first pass has exited with 0. -/
def startPass2 (cfg : ClientSettings) (a : EncoderAnswers) (cl : Client) : Client :=
  if !a.passLog then { cl.convertFailed a.buffer with mainState := .sendResult }
  else
    let cl := { cl with passNo := 2 }
    match launch (cfg.getTranscodeCommand cl.encSettings 2) a.launches with
    | .ok () => { cl with encodeProcess := true }
    -- the state was to stay as it is even before the second pass was started
    | .error _ => cl.convertFailed a.buffer

/-- The last pass has exited with 0: compare the durations and open the encoded file. -/
def checkEncoded (cfg : ClientSettings) (a : EncoderAnswers) (cl : Client) :
    Client × Except Exn Unit :=
  match cfg.getMovieLength (cfg.outFile cl.encSettings) a.probeOut with
  | .error e => (cl, .error e)
  | .ok lenOut =>
      if lenOut ≤ 0 then (cl, .error (.runtimeError "1".toList))
      else
        match cfg.getMovieLength (cfg.inFile cl.encSettings) a.probeIn with
        | .error e => (cl, .error e)
        | .ok lenIn =>
            if 1 < (lenOut - lenIn).natAbs then (cl, .error (.runtimeError "2".toList))
            else
              let dstFile := cl.dstFile.openFile a.encoded
              if !dstFile.isOpen then
                ({ cl with dstFile := dstFile }, .error (.runtimeError "3".toList))
              else
                let dstFile := dstFile.ignoreAll
                ({ cl with
                   dstFile := dstFile
                   encResult := ⟨EncodingResult.ok.value, UInt64.ofNat dstFile.gcount, []⟩ }, .ok ())

/-- The encoder has exited, or was given up. -/
def finishPass (cfg : ClientSettings) (a : EncoderAnswers) (retcode : Int) (cl : Client) : Client :=
  let cl := { cl with encodeProcess := false }
  if retcode = 0 then
    if cl.passNo = 1 then cl.startPass2 cfg a
    else
      match cl.checkEncoded cfg a with
      | (cl, .ok ()) => { cl with mainState := .sendResult }
      | (cl, .error _) => { cl.convertFailed a.buffer with mainState := .sendResult }
  else { cl.convertFailed a.buffer with mainState := .sendResult }

def doConvert (cfg : ClientSettings) (a : EncoderAnswers) (cl : Client) : Client :=
  if a.eof || cl.shutdown then
    let cl := if a.forced then cl.stop true else cl
    cl.finishPass cfg a (if cl.shutdown then -1 else a.exit)
  else { cl with stdOut := cl.stdOut ++ a.buffer }

/-! ## poll -/

/-- What a shutdown leaves: `disconnect` and `cleanUp`, as far as they concern the client. -/
def leave (cl : Client) : Client :=
  { cl with
    toMediaArchiverClient :=
      ({ cl.toMediaArchiverClient with authenticated := false } : MediaArchiverClient).cleanUp }

/-- The `switch` of `poll`. -/
def handle (r : Remote σ) (cfg : ClientSettings) (a : LocalAnswers) (l : Line σ) (cl : Client) :
    Line σ × Client × Except Exn Unit :=
  match cl.mainState with
  | .idle =>
      let (l, cl) := cl.doIdle r cfg a l
      (l, cl, .ok ())
  | .authenticateing => cl.doAuth r cfg l
  | .receiving => cl.doReceive r cfg a l
  | .waitForConnect | .waitForFileCheck | .waitForReconnect => (l, cl.doWait a, .ok ())
  | .waitForEncodingFinished =>
      -- the output is read from `m_encodeProcess`
      if cl.encodeProcess then (l, cl.doConvert cfg a.encoder, .ok ())
      else ({ l with crashed := true }, cl, .ok ())
  | .sendResult =>
      let (l, c) := cl.toMediaArchiverClient.doSendResult (Line.iServer r) cfg.toClientConfig l
      (l, { cl with toMediaArchiverClient := c }, .ok ())
  | .transmitting =>
      let (l, c, answer) :=
        cl.toMediaArchiverClient.doTransmit (Line.iServer r) cfg.toClientConfig a.memory l
      (l, { cl with toMediaArchiverClient := c }, answer)

end Client

/-- How the process ends: `poll` returned 1, an exception left it, or a null pointer was used. -/
inductive Ending where
  | finished
  | uncaught (e : Exn)
  | nullPointer
deriving DecidableEq

/-- The running client. -/
structure Process (σ : Type u) where
  client : Client
  line : Line σ
  ending : Option Ending

namespace Process

variable {σ : Type u}

/-- The process when it starts: no connection yet. -/
def start (token : Nat) (s : σ) : Process σ := ⟨.start token, ⟨none, false, [], s⟩, none⟩

/-- What a handler's end means for the process. -/
def outcome (l : Line σ) (answer : Except Exn Unit) : Option Ending :=
  if l.crashed then some .nullPointer
  else
    match answer with
    | .ok () => none
    | .error e => some (.uncaught e)

/-- The handler of the main state runs. -/
def handle (r : Remote σ) (cfg : ClientSettings) (a : LocalAnswers) (p : Process σ) : Process σ :=
  if p.ending.isSome then p
  else
    match p.client.handle r cfg a p.line with
    | (l, cl, answer) => ⟨cl, l, outcome l answer⟩

/-- A stop request comes in. -/
def signal (stop : Option Bool) (p : Process σ) : Process σ :=
  match stop with
  | some forced => { p with client := p.client.stop forced }
  | none => p

/-- What `poll` does after the `switch`: give the file back and end, if it is time. -/
def finish (r : Remote σ) (p : Process σ) : Process σ :=
  if p.ending.isSome || !p.client.shutdown then p
  else
    let l :=
      match p.line.rpc with
      -- an exception of `abort` is only logged
      | some rpc => if r.isConnected rpc.conn p.line.server then (p.line.abort r).1 else p.line
      | none => p.line
    ⟨p.client.leave, l.drop, some .finished⟩

/-- `poll`, with a stop request that comes in after the handler. -/
def poll (r : Remote σ) (cfg : ClientSettings) (a : LocalAnswers) (stop : Option Bool)
    (p : Process σ) : Process σ :=
  ((p.handle r cfg a).signal stop).finish r

/-- `poll` returned a value. -/
def Returned (p : Process σ) : Prop := p.ending = none ∨ p.ending = some .finished

instance (p : Process σ) : Decidable p.Returned := inferInstanceAs (Decidable (_ ∨ _))

end Process

/-- What happens to the client: it is polled, it is asked to stop, or something changes behind the line
without it. -/
inductive ClientEvent (σ : Type u) where
  | poll (r : Remote σ) (a : LocalAnswers) (stop : Option Bool)
  | stop (forced : Bool)
  | serve (f : σ → σ)

/-- The stop request that an event brings along. -/
def ClientEvent.stops {σ : Type u} : ClientEvent σ → Option Bool
  | .poll _ _ request => request
  | .stop forced => some forced
  | .serve _ => none

namespace Process

variable {σ : Type u}

/-- The client as a machine. -/
def machine (cfg : ClientSettings) : Machine (Process σ) (ClientEvent σ) where
  step p
    | .poll r a stop => p.poll r cfg a stop
    | .stop forced => p.signal (some forced)
    | .serve f => { p with line := { p.line with server := f p.line.server } }

end Process

/-! ## Fair weather -/

/-- A server that answers every call. It remembers nothing. -/
def Remote.willing (settings : MediaEncoderSettings) (chunk : Bool × Bytes) (more : Bool) :
    Remote Unit where
  createServer s := (s, .ok 1)
  isConnected _ _ := true
  authenticate _ _ s := (s, .ok ())
  getNextFile _ _ s := (s, .ok settings)
  readChunk _ s := (s, .ok chunk)
  postFile _ _ s := (s, .ok ())
  writeChunk _ _ s := (s, .ok more)
  reset _ s := (s, .ok ())
  abort _ s := (s, .ok ())

/-- A machine on which everything works, with an encoder that is done at once and leaves a file. -/
def LocalAnswers.working (encoded : Bytes) : LocalAnswers where
  memory := true
  opens := true
  written := ⟨0, true, []⟩
  flushed := maxOffset
  rewound := maxOffset
  launches := true
  waited := 60000
  encoder :=
    { buffer := []
      eof := true
      forced := false
      exit := 0
      passLog := true
      launches := true
      probeOut := ⟨true, "Duration: 00:00:01.00".toList, 0⟩
      probeIn := ⟨true, "Duration: 00:00:01.00".toList, 0⟩
      encoded := some encoded }

end MediaArchiver
