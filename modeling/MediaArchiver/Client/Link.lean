/-
# MediaArchiver.Client.Link -- a client that uploads to a session of the daemon

The server that the client calls is a session of the daemon. Between the two stands the network: a call
may get lost on its way, it may be executed and its answer get lost, or it is answered (`Fate`). What
the network and the device do in one poll is the event of the machine; its state is the client, the
session, what the session queued for the mover, and the record of all `writeChunk` calls the client
made, each with the answer the client saw. Whether the client has memory for a chunk is part of the
event, too.
-/
import MediaArchiver.Client.Client
import MediaArchiver.Daemon.Upload

namespace MediaArchiver

open Lib (Machine OutStream InStream WriteAnswer)

/-- What becomes of a call: it never arrives, it is executed but the answer never arrives, or it is
answered. The client sees an exception in the first two cases. -/
inductive Fate where
  | lost (e : Exn)
  | unanswered (e : Exn)
  | answered

/-- A call through the network. -/
def Fate.deliver {σ α : Type} (fate : Fate) (call : σ → σ × Except Exn α) (s : σ) :
    σ × Except Exn α :=
  match fate with
  | .lost e => (s, .error e)
  | .unanswered e => ((call s).1, .error e)
  | .answered => call s

/-- What the network, the device and the client's machine do in one poll. -/
structure PollAnswers where
  memory : Bool
  opens : Bool
  postFate : Fate
  written : WriteAnswer UInt8
  flushed : Nat
  writeFate : Fate
  resetFlushed : Nat
  resetFate : Fate

/-- The daemon's side, and the record of the `writeChunk` calls: what was sent, and the answer seen. -/
structure Wire where
  session : ConnectedClient
  queued : List FileToMove
  log : List (Bytes × Option Bool)

namespace Wire

/-- `postFile` in the daemon. -/
def postFile (cfg : DaemonConfig) (opens : Bool) (result : EncodingResultInfo) (w : Wire) :
    Wire × Except Exn Unit :=
  let reply := w.session.postFile cfg opens result
  ({ w with session := reply.client, queued := w.queued ++ reply.queued.toList }, reply.answer)

/-- `writeChunk` in the daemon. No message is longer than a vector can be. -/
def writeChunk (cfg : DaemonConfig) (written : WriteAnswer UInt8) (flushed : Nat) (data : Bytes)
    (w : Wire) : Wire × Except Exn Bool :=
  if h : data.length < 2 ^ 63 then
    let reply := w.session.writeChunk cfg written flushed ⟨data, h⟩
    ({ w with session := reply.client, queued := w.queued ++ reply.queued.toList }, reply.answer)
  else (w, .error (.runtimeError "vector".toList))

/-- `reset` in the daemon. -/
def reset (flushed : Nat) (w : Wire) : Wire × Except Exn Unit :=
  ({ w with session := w.session.reset flushed }, .ok ())

/-- The server a client sees in one poll. -/
def server (cfg : DaemonConfig) (a : PollAnswers) : IServer Wire where
  checkCreateRpc w := (w, .ok ())
  postFile w result := a.postFate.deliver (postFile cfg a.opens result) w
  writeChunk w data :=
    let (w, answer) := a.writeFate.deliver (writeChunk cfg a.written a.flushed data) w
    ({ w with log := w.log ++ [(data, answer.toOption)] }, answer)
  reset w := a.resetFate.deliver (reset a.resetFlushed) w

end Wire

/-- A client and the daemon's side of its upload. -/
structure Link where
  client : MediaArchiverClient
  wire : Wire

namespace Link

/-- The client is polled. -/
def machine (cfg : DaemonConfig) (ccfg : ClientConfig) : Machine Link PollAnswers where
  step u a :=
    let (wire, client, _) := u.client.poll (Wire.server cfg a) ccfg a.memory u.wire
    ⟨client, wire⟩

/-- A client that has encoded a file, and the session it got the file from. -/
def start (content : Bytes) (session : ConnectedClient) : Link :=
  ⟨.encoded content, ⟨session, [], []⟩⟩

end Link

end MediaArchiver
