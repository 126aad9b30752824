/-
# MediaArchiver.Client.Jobs -- a job gets to its end

A client that is idle authenticates, asks for a file, receives it, has it encoded, authenticates again on a
new connection, posts the result and transmits it. Here nothing fails (`Works`): calls are answered, devices
take what they are given, and the encoder, once it has exited, has made a file of the right duration. What
else the daemon does, it may do at any time, as long as it has a file when the client asks for one.

Then each poll brings the job closer to its end (`stage_poll`), apart from those that find the encoder at
work. So with enough polls that do not, the mover is handed the encoded file, under the source's id, and what
was encoded is the source (`delivered`). The last chunk of the upload must not be a whole one.
-/
import MediaArchiver.Client.Network
import MediaArchiver.Client.Transmit
import MediaArchiver.Client.Verdict

namespace MediaArchiver

open Lib (Machine OutStream InStream Cursor WriteAnswer maxOffset)
open Daemon (Single Sole Closed)
open Process (Undisturbed)

/-- A file that the daemon hands out, and what the encoder makes of it. -/
structure Job where
  id : Nat
  name : Path
  content : Bytes
  encoded : Bytes

namespace Job

/-- What the client posts. -/
def result (job : Job) : EncodingResultInfo :=
  ⟨EncodingResult.ok.value, UInt64.ofNat job.encoded.length, []⟩

/-- Both files fit into a stream, both sides have chunks of a size that can be made, and the last chunk of
the upload is not a whole one. -/
structure Fits (cfg : DaemonConfig) (ccfg : ClientSettings) (job : Job) : Prop where
  id : job.id ≠ 0
  nonempty : job.content ≠ []
  content : job.content.length ≤ maxOffset
  encoded : job.encoded.length ≤ maxOffset
  daemonChunk : 0 < cfg.chunkSize
  daemonSize : cfg.chunkSize < 2 ^ 63
  clientChunk : 0 < ccfg.chunkSize
  clientSize : ccfg.chunkSize < 2 ^ 63
  last : ¬ ccfg.chunkSize ∣ job.encoded.length

/-- The encoder has exited, and has done what it was started for. -/
structure Encodes (ccfg : ClientSettings) (settings : MediaEncoderSettings) (job : Job)
    (b : EncoderAnswers) : Prop where
  forced : b.forced = false
  exit : b.exit = 0
  passLog : b.passLog = true
  launches : b.launches = true
  durations : ∃ lenOut lenIn, ccfg.getMovieLength (ccfg.outFile settings) b.probeOut = .ok lenOut ∧
    ccfg.getMovieLength (ccfg.inFile settings) b.probeIn = .ok lenIn ∧
      0 < lenOut ∧ (lenOut - lenIn).natAbs ≤ 1
  encoded : b.encoded = some job.encoded

/-- The daemon has the file, and can open it. -/
structure Offers (job : Job) (d : Daemon) (n : NetworkAnswers) (filter : MediaFileRequirements) : Prop where
  going : d.stopRequested = false
  picks : ∃ db', d.db.getNextFile n.limit filter = (db', some (job.id, ⟨job.name, job.content.length⟩))
  content : n.src.content job.name = some job.content
  times : (n.src.getFileTimes job.name).isSome = true

/-- Nothing fails in the poll. -/
structure Works (ccfg : ClientSettings) (job : Job) (p : Process Daemon) (n : NetworkAnswers)
    (a : LocalAnswers) : Prop where
  connect : ∃ conn, n.connect = .ok conn
  isConnected : ∀ conn, n.isConnected conn = true
  authFate : n.authFate = .answered
  getFate : n.getFate = .answered
  readFate : n.readFate = .answered
  postFate : n.postFate = .answered
  writeFate : n.writeFate = .answered
  avail : 0 < n.avail
  opens : n.opens = true
  written : n.written.complete = true
  flushed : maxOffset ≤ n.flushed
  memory : a.memory = true
  localOpens : a.opens = true
  localWritten : a.written.complete = true
  localFlushed : maxOffset ≤ a.flushed
  launches : a.launches = true
  offers : p.client.mainState = .idle → p.client.authenticated = true →
    job.Offers p.line.server n p.client.filter
  encodes : a.encoder.eof = true → Encodes ccfg p.client.encSettings job a.encoder

/-- The client is polled, and nothing fails; or the daemon does something without it. -/
def Obliging (ccfg : ClientSettings) (job : Job) (p : Process Daemon) : NetworkEvent → Prop
  | .poll n a stop => stop = none ∧ Works ccfg job p n a
  | .stop _ => False
  | .background .. => True

/-! ## The stages of a job -/

/-- The session has read the source up to a position. -/
structure Reads (job : Job) (pos : Nat) (cli : ConnectedClient) : Prop where
  id : cli.originalFileId = job.id
  name : cli.originalFileName = job.name
  ready : cli.inFile.Ready
  file : cli.inFile.file = job.content
  offset : cli.inFile.offset = pos
  length : cli.encSettings.fileLength = job.content.length
  outFile : cli.outFile.isOpen = false

/-- The session has written the result up to a position. -/
structure Receives (job : Job) (pos : Nat) (cli : ConnectedClient) : Prop where
  id : cli.originalFileId = job.id
  name : cli.originalFileName = job.name
  ready : cli.outFile.Ready
  cursor : cli.outFile.cursor = ⟨job.encoded.take pos, pos⟩
  result : cli.encResult = job.result

/-- There is an object, and the daemon knows its connection. -/
def Connected (p : Process Daemon) : Prop :=
  ∃ rpc, p.line.rpc = some rpc ∧ (p.line.server.session rpc.conn).isSome = true

/-- The token of the client. -/
def token (p : Process Daemon) : Text := (toString p.client.token).toList

/-- Neither side has a file open. -/
structure Resting (p : Process Daemon) : Prop where
  srcFile : p.client.srcFile.isOpen = false
  dstFile : p.client.dstFile.isOpen = false
  single : Single (token p) p.line.server
  closed : Closed p.line.server

/-- The client has its copy of the source, and the daemon waits for the result. -/
structure Copied (job : Job) (p : Process Daemon) : Prop where
  srcFile : p.client.srcFile.isOpen = false
  copy : p.client.srcFile.file = job.content
  session : Sole (token p) (job.Reads job.content.length) p.line.server

/-- The client is about to post the result. -/
structure Encoded (job : Job) (p : Process Daemon) : Prop extends Copied job p where
  encResult : p.client.encResult = job.result
  dstFile : p.client.dstFile = (InStream.opened job.encoded).ignoreAll

/-- What there is to be done. -/
inductive Stage (ccfg : ClientSettings) (job : Job) (p : Process Daemon) : Prop
  | idle (hstate : p.client.mainState = .idle) (hauth : p.client.authenticated = false)
      (hrest : Resting p)
  | login (hstate : p.client.mainState = .authenticateing) (hprev : p.client.prevMainState = .idle)
      (hrpc : p.line.rpc.isSome = true) (hrest : Resting p)
  | asking (hstate : p.client.mainState = .idle) (hauth : p.client.authenticated = true)
      (hrest : Resting p) (hconn : Connected p)
  | receiving {pos : Nat} (hstate : p.client.mainState = .receiving)
      (hlength : p.client.encSettings.fileLength = job.content.length)
      (hready : p.client.srcFile.Ready) (hcursor : p.client.srcFile.cursor = ⟨job.content.take pos, pos⟩)
      (hdst : p.client.dstFile.isOpen = false)
      (hsession : Sole (token p) (job.Reads pos) p.line.server) (hconn : Connected p)
  | encoding (hstate : p.client.mainState = .waitForEncodingFinished)
      (hproc : p.client.encodeProcess = true) (hauth : p.client.authenticated = false)
      (hdst : p.client.dstFile.isOpen = false) (hcopied : Copied job p)
  | posting (hstate : p.client.mainState = .sendResult) (hauth : p.client.authenticated = false)
      (hencoded : Encoded job p)
  | relogin (hstate : p.client.mainState = .authenticateing) (hprev : p.client.prevMainState = .sendResult)
      (hrpc : p.line.rpc.isSome = true) (hencoded : Encoded job p)
  | sending (hstate : p.client.mainState = .sendResult) (hauth : p.client.authenticated = true)
      (hencoded : Encoded job p) (hconn : Connected p)
  | transmitting {pos : Nat} (hstate : p.client.mainState = .transmitting)
      (hsrc : p.client.srcFile.isOpen = false) (hcopy : p.client.srcFile.file = job.content)
      (hready : p.client.dstFile.Ready) (hfile : p.client.dstFile.file = job.encoded)
      (hoffset : p.client.dstFile.offset = pos) (hpos : pos < job.encoded.length)
      (hchunks : ccfg.chunkSize ∣ pos)
      (hsession : Sole (token p) (job.Receives pos) p.line.server) (hconn : Connected p)

/-- How many polls there are at most before the last one, without those that find the encoder at work. -/
def rank (job : Job) (p : Process Daemon) : Nat :=
  match p.client.mainState with
  | .idle => job.content.length + job.encoded.length + if p.client.authenticated then 6 else 8
  | .authenticateing =>
      if p.client.prevMainState = .idle then job.content.length + job.encoded.length + 7
      else job.encoded.length + 1
  | .receiving => job.content.length - p.client.srcFile.position + job.encoded.length + 5
  | .waitForEncodingFinished => job.encoded.length + if p.client.passNo = 1 then 4 else 3
  | .sendResult => job.encoded.length + if p.client.authenticated then 0 else 2
  | .transmitting => job.encoded.length - 1 - p.client.dstFile.offset
  | _ => 0

variable {cfg : DaemonConfig} {ccfg : ClientSettings} {job : Job} {p : Process Daemon}
  {n : NetworkAnswers} {a : LocalAnswers}

/-! ## One poll -/

/-- The poll brings the job closer to its end. -/
inductive Advances (cfg : DaemonConfig) (ccfg : ClientSettings) (job : Job) (p : Process Daemon)
    (n : NetworkAnswers) (a : LocalAnswers) : Prop
  | intro {p' : Process Daemon} (hpoll : p.poll (n.remote cfg .direct) ccfg a none = p') (hp' : p'.Undisturbed)
      (hstage : Stage ccfg job p') (hrank : rank job p' < rank job p)

/-- The check finds an object or makes one. -/
theorem Works.checkCreateRpc (h : Works ccfg job p n a) (cfg : DaemonConfig) (l : Line Daemon) :
    ∃ rpc, (∀ old, l.rpc = some old → rpc = old) ∧
      l.checkCreateRpc (n.remote cfg .direct) = ({ l with rpc := some rpc }, .ok ()) := by
  obtain ⟨conn, hconnect⟩ := h.connect
  cases hrpc : l.rpc with
  | none =>
    refine ⟨⟨conn, false⟩, nofun, ?_⟩
    simp [Line.checkCreateRpc, hrpc, Line.createRpc, NetworkAnswers.remote, hconnect]
  | some rpc =>
    refine ⟨rpc, fun old hold => (Option.some.inj hold), ?_⟩
    have hsame : { l with rpc := some rpc } = l := by rw [← hrpc]
    simp [Line.checkCreateRpc, hrpc, NetworkAnswers.remote, h.isConnected, hsame]

/-- It changes nothing if there is one. -/
theorem Works.checkCreateRpc_of_some (h : Works ccfg job p n a) (cfg : DaemonConfig) {l : Line Daemon}
    {rpc : Rpc} (hrpc : l.rpc = some rpc) : l.checkCreateRpc (n.remote cfg .direct) = (l, .ok ()) := by
  obtain ⟨rpc', hsame, hcheck⟩ := h.checkCreateRpc cfg l
  obtain rfl := hsame rpc hrpc
  rw [hcheck, ← hrpc]

/-- A call that is answered. -/
theorem call_answered {α : Type} (function : RpcFunction) (seen : α → Bool)
    (f : SessionId → Daemon → Daemon × Except Exn α) {l : Line Daemon} {rpc : Rpc} {d : Daemon} {x : α}
    (hrpc : l.rpc = some rpc) (hf : f rpc.conn l.server = (d, .ok x)) :
    ∃ calls, l.call function seen f = ({ l with server := d, calls := calls }, .ok x) := by
  rw [Line.call_of_some hrpc, hf]
  exact ⟨_, rfl⟩

theorem relay_of_ok {α : Type} {seen : Exn → Exn} {call : Daemon → Daemon × Except Exn α} {d d' : Daemon}
    {x : α} (h : call d = (d', .ok x)) : relay seen call d = (d', .ok x) := by
  rw [relay, h]
  rfl

theorem Works.authenticate (h : Works ccfg job p n a) (cfg : DaemonConfig) {l : Line Daemon} {rpc : Rpc}
    (hrpc : l.rpc = some rpc) (token : Text) :
    ∃ calls, l.authenticate (n.remote cfg .direct) token
      = ({ l with
           rpc := some ⟨rpc.conn, true⟩
           server := (Daemon.Srv.authenticate rpc.conn n.junk token l.server).1
           calls := calls }, .ok ()) := by
  have hf : (n.remote cfg .direct).authenticate rpc.conn token l.server
      = ((Daemon.Srv.authenticate rpc.conn n.junk token l.server).1, .ok ()) := by
    simp only [NetworkAnswers.remote, Transport.direct, h.authFate, Fate.deliver]
    exact relay_of_ok rfl
  obtain ⟨calls, hcall⟩ := call_answered .authenticate (fun _ => true)
    ((n.remote cfg .direct).authenticate · token) hrpc hf
  refine ⟨calls, ?_⟩
  rw [Line.authenticate, hcall]
  simp [hrpc]

/-- A client that comes to authenticate goes back to where it was. -/
theorem poll_login (hp : p.Undisturbed) (hw : Works ccfg job p n a) (cfg : DaemonConfig)
    (hstate : p.client.mainState = .authenticateing) (hrpc : p.line.rpc.isSome = true) :
    ∃ p', p.poll (n.remote cfg .direct) ccfg a none = p' ∧ p'.Undisturbed ∧
      p'.client = { p.client with authenticated := true, mainState := p.client.prevMainState } ∧
      ∃ rpc, p'.line.rpc = some rpc ∧
        p'.line.server = (Daemon.Srv.authenticate rpc.conn n.junk (token p) p.line.server).1 := by
  obtain ⟨rpc, hrpc⟩ := Option.isSome_iff_exists.mp hrpc
  obtain ⟨calls, hcall⟩ := hw.authenticate cfg hrpc (token p)
  have hhandle : p.client.handle (n.remote cfg .direct) ccfg a p.line
      = ({ p.line with
           rpc := some ⟨rpc.conn, true⟩
           server := (Daemon.Srv.authenticate rpc.conn n.junk (token p) p.line.server).1
           calls := calls },
          { p.client with authenticated := true, mainState := p.client.prevMainState }, .ok ()) := by
    simp only [Client.handle, hstate, Client.doAuth, hp.stopRequested, Bool.false_eq_true, if_false,
      hw.checkCreateRpc_of_some cfg hrpc]
    rw [token] at hcall
    rw [hcall]
    rfl
  obtain ⟨hpoll, hp'⟩ := hp.poll hhandle hp.crashed hp.stopRequested hp.shutdown
  exact ⟨_, hpoll, hp', rfl, _, rfl, rfl⟩

/-- Nothing is done but to make sure of a connection. -/
theorem stage_idle (cfg : DaemonConfig) (hp : p.Undisturbed) (hw : Works ccfg job p n a)
    (hstate : p.client.mainState = .idle) (hauth : p.client.authenticated = false) (hrest : Resting p) :
    Advances cfg ccfg job p n a := by
  obtain ⟨rpc, -, hcheck⟩ := hw.checkCreateRpc cfg p.line
  have hhandle : p.client.handle (n.remote cfg .direct) ccfg a p.line
      = ({ p.line with rpc := some rpc },
          { p.client with prevMainState := .idle, mainState := .authenticateing }, .ok ()) := by
    simp [Client.handle, hstate, Client.doIdle, hp.stopRequested, Client.askForFile, hcheck, hauth,
      Client.goOn]
  obtain ⟨hpoll, hp'⟩ := hp.poll hhandle hp.crashed hp.stopRequested hp.shutdown
  refine ⟨hpoll, hp', .login rfl rfl rfl ⟨hrest.srcFile, hrest.dstFile, hrest.single, hrest.closed⟩, ?_⟩
  simp [rank, hstate, hauth]

theorem session_authenticate (conn : SessionId) (junk : Uninitialised) (token : Text) (d : Daemon) :
    ((Daemon.Srv.authenticate conn junk token d).1.session conn).isSome = true := by
  show ((d.connections.authenticate conn junk token).find? conn).isSome = true
  rw [Connections.find?_authenticate]
  rfl

theorem stage_login (cfg : DaemonConfig) (hp : p.Undisturbed) (hw : Works ccfg job p n a)
    (hstate : p.client.mainState = .authenticateing) (hprev : p.client.prevMainState = .idle)
    (hrpc : p.line.rpc.isSome = true) (hrest : Resting p) :
    Advances cfg ccfg job p n a := by
  obtain ⟨p', hpoll, hp', hclient, rpc, hrpc', hserver⟩ := poll_login hp hw cfg hstate hrpc
  have htoken : token p' = token p := by rw [token, hclient, token]
  have hsingle : Single (token p) p'.line.server := by
    rw [hserver]
    have hdoes := Daemon.step_does cfg p.line.server (.authenticate rpc.conn n.junk (token p))
    refine hdoes.single hrest.single ?_
    rintro id junk token' ⟨⟩
    rfl
  have hrest' : Resting p' := by
    refine ⟨by rw [hclient]; exact hrest.srcFile, by rw [hclient]; exact hrest.dstFile, htoken ▸ hsingle, ?_⟩
    rw [hserver]
    exact hrest.closed.authenticate rpc.conn n.junk (token p)
  have hconn : Connected p' := ⟨rpc, hrpc', by rw [hserver]; exact session_authenticate ..⟩
  refine ⟨hpoll, hp', .asking (by rw [hclient]; exact hprev) (by rw [hclient]) hrest' hconn, ?_⟩
  simp [rank, hclient, hprev, hstate]

/-- A session that asks is given the file. -/
theorem Offers.getNextFile {d : Daemon} {filter : MediaFileRequirements} (h : job.Offers d n filter)
    (cfg : DaemonConfig) (hnonempty : job.content ≠ []) {tok : Text} (hsingle : Single tok d)
    (hclosed : Closed d) {conn : SessionId} (hconn : (d.session conn).isSome = true) :
    ∃ d' settings, Daemon.Srv.getNextFile cfg conn n.limit n.src filter d = (d', .ok settings) ∧
      settings.fileLength = job.content.length ∧ (d'.session conn).isSome = true ∧
        Sole tok (job.Reads 0) d' := by
  obtain ⟨cli, hcli⟩ := Option.isSome_iff_exists.mp hconn
  obtain ⟨hin, hout⟩ := hclosed (conn, cli) (d.connections.find?_eq_some.mp hcli)
  obtain ⟨db', hpicks⟩ := h.picks
  have hread : ConnectedClient.Readable n.src ⟨job.name, job.content.length⟩ :=
    ⟨fun hzero => hnonempty (List.length_eq_zero_iff.mp hzero), by rw [h.content]; rfl, h.times⟩
  obtain ⟨cli', hget, hserves, htoken, hout'⟩ :=
    ConnectedClient.getNextFile_of_readable cfg hin hout hpicks hread
  obtain ⟨content, hcontent, hopened⟩ := hserves.source
  obtain rfl : job.content = content := Option.some.inj (h.content.symm.trans hcontent)
  have hreads : job.Reads 0 cli' := by
    refine ⟨hserves.id, hserves.name, ?_, ?_, ?_, hserves.length, hout' ▸ hout⟩ <;> rw [hopened]
    · exact Lib.InStream.ready_opened job.content
    · rfl
    · rfl
  refine ⟨{ d.store conn cli' none with db := db' }, cli'.encSettings, ?_, hserves.length, ?_, ?_⟩
  · simp only [Daemon.Srv.getNextFile, Daemon.withClient, hcli, h.going, hget]
  · exact Option.isSome_iff_exists.mpr ⟨cli', Daemon.session_store d conn cli' none⟩
  · have htok := htoken.trans (hsingle.tokens _ (d.connections.find?_eq_some.mp hcli))
    have hsole : Sole tok (fun _ => True) d := hsingle.sole hcli trivial
    exact (hsole.store hcli htok hreads none).of_connections rfl

theorem stage_asking (hfits : job.Fits cfg ccfg) (hp : p.Undisturbed) (hw : Works ccfg job p n a)
    (hstate : p.client.mainState = .idle) (hauth : p.client.authenticated = true) (hrest : Resting p)
    (hconn : Connected p) :
    Advances cfg ccfg job p n a := by
  obtain ⟨rpc, hrpc, hknown⟩ := hconn
  obtain ⟨d, settings, hget, hlength, hknown', hsession⟩ := (hw.offers hstate hauth).getNextFile cfg
    hfits.nonempty hrest.single hrest.closed hknown
  have hf : (n.remote cfg .direct).getNextFile rpc.conn p.client.filter p.line.server
      = (d, .ok settings) := by
    simp only [NetworkAnswers.remote, Transport.direct, hw.getFate, Fate.deliver]
    exact relay_of_ok hget
  obtain ⟨calls, hcall⟩ := call_answered .getNextFile (fun settings => 0 < settings.fileLength)
    ((n.remote cfg .direct).getNextFile · p.client.filter) hrpc hf
  have hpos : 0 < settings.fileLength := by
    rw [hlength]
    exact List.length_pos_iff.mpr hfits.nonempty
  have hopened : p.client.srcFile.openFile a.opens = .opened := by
    rw [OutStream.openFile, hw.localOpens, hrest.srcFile]
    rfl
  have hhandle : p.client.handle (n.remote cfg .direct) ccfg a p.line
      = ({ p.line with server := d, calls := calls },
          { p.client with
            encSettings := settings
            srcFile := .opened
            prevMainState := .idle
            mainState := .receiving }, .ok ()) := by
    simp only [Client.handle, hstate, Client.doIdle, hp.stopRequested, Bool.false_eq_true, if_false,
      Client.askForFile, hw.checkCreateRpc_of_some cfg hrpc, hauth, Bool.not_true, Line.getNextFile, hcall,
      hpos, if_true, hopened]
    simp [OutStream.fail, OutStream.opened, Client.goOn]
  obtain ⟨hpoll, hp'⟩ := hp.poll hhandle hp.crashed hp.stopRequested hp.shutdown
  have hcursor : (OutStream.opened : OutStream UInt8).cursor = ⟨job.content.take 0, 0⟩ :=
    Lib.OutStream.cursor_opened
  refine ⟨hpoll, hp', .receiving rfl hlength Lib.OutStream.ready_opened hcursor hrest.dstFile
    hsession ⟨rpc, hrpc, hknown'⟩, ?_⟩
  · simp [rank, hstate, hauth, OutStream.position, OutStream.opened]

section Receiving

variable {r : Remote Daemon} {l l' : Line Daemon} {cl : Client} {data : Bytes}

theorem receiveChunk_more (hread : l.readChunk r = (l', .ok (true, data))) :
    cl.receiveChunk r ccfg a l
      = (l', { cl with srcFile := cl.srcFile.write a.written data }, .ok ()) := by
  rw [Client.receiveChunk, hread]
  rfl

theorem receiveChunk_last (hread : l.readChunk r = (l', .ok (false, data)))
    (hall : sizeT (cl.srcFile.write a.written data).tellp = cl.encSettings.fileLength)
    (hlaunches : a.launches = true) :
    cl.receiveChunk r ccfg a l
      = (l'.drop, { cl with
          srcFile := (cl.srcFile.write a.written data).close a.flushed
          authenticated := false
          encResult := ⟨EncodingResult.unknownError.value, 0, cl.stdOut⟩
          passNo := if cl.encSettings.pass2Enabled then 1 else 2
          encodeProcess := true
          mainState := .waitForEncodingFinished }, .ok ()) := by
  rw [Client.receiveChunk, hread]
  simp [hall, launch, hlaunches]

end Receiving

/-- A session that reads on gets something, unless it is at the end. -/
theorem readChunk_served (cfg : DaemonConfig) {tok : Text} {pos : Nat} {d : Daemon}
    (hsession : Sole tok (job.Reads pos) d) {conn : SessionId} (hconn : (d.session conn).isSome = true)
    {avail : Nat} (havail : 0 < avail) (hchunk : 0 < cfg.chunkSize) :
    ∃ d' data, Daemon.Srv.readChunk cfg conn avail d = (d', .ok (decide (data.length ≠ 0), data)) ∧
      data <+: job.content.drop pos ∧ (data = [] → pos = job.content.length) ∧
      (d'.session conn).isSome = true ∧ Sole tok (job.Reads (pos + data.length)) d' := by
  obtain ⟨cli, hcli⟩ := Option.isSome_iff_exists.mp hconn
  obtain ⟨htok, hreads⟩ := hsession.of_session hcli
  obtain ⟨hready, hfile, hoffset, hnext⟩ := Lib.InStream.readsome_ready hreads.ready avail cfg.chunkSize
  rw [hreads.file, hreads.offset] at hnext
  have hread : Daemon.Srv.readChunk cfg conn avail d
      = (d.store conn { cli with inFile := (cli.inFile.readsome avail cfg.chunkSize).1 } none,
          .ok (decide ((cli.inFile.readsome avail cfg.chunkSize).2.length ≠ 0),
            (cli.inFile.readsome avail cfg.chunkSize).2)) := by
    simp only [Daemon.Srv.readChunk, Daemon.withClient, hcli, ConnectedClient.readChunk_ready hreads.ready]
  refine ⟨_, _, hread, hnext, ?_, ?_, ?_⟩
  · intro hnil
    have hend := hreads.ready.offset_le
    by_contra hne
    refine Lib.InStream.readsome_ne_nil hreads.ready havail hchunk ?_ hnil
    rw [hreads.file, hreads.offset] at hend ⊢
    omega
  · rw [Daemon.session_store]
    rfl
  · have hreads' : job.Reads (pos + (cli.inFile.readsome avail cfg.chunkSize).2.length)
        { cli with inFile := (cli.inFile.readsome avail cfg.chunkSize).1 } := by
      refine ⟨hreads.id, hreads.name, hready, hfile.trans hreads.file, ?_, hreads.length, hreads.outFile⟩
      rw [hoffset, hreads.offset]
    exact hsession.store hcli (by exact htok) hreads' none

/-- The copy is at the position of the session. -/
theorem stage_receiving (hfits : job.Fits cfg ccfg) (hp : p.Undisturbed) (hw : Works ccfg job p n a)
    (hstate : p.client.mainState = .receiving)
    {pos : Nat} (hlength : p.client.encSettings.fileLength = job.content.length)
    (hready : p.client.srcFile.Ready) (hcursor : p.client.srcFile.cursor = ⟨job.content.take pos, pos⟩)
    (hdst : p.client.dstFile.isOpen = false) (hsession : Sole (token p) (job.Reads pos) p.line.server)
    (hconn : Connected p) :
    Advances cfg ccfg job p n a := by
  obtain ⟨rpc, hrpc, hknown⟩ := hconn
  obtain ⟨d, data, hread, hnext, hend, hknown', hsession'⟩ :=
    readChunk_served cfg hsession hknown hw.avail hfits.daemonChunk
  have hf : (n.remote cfg .direct).readChunk rpc.conn p.line.server
      = (d, .ok (decide (data.length ≠ 0), data)) := by
    simp only [NetworkAnswers.remote, Transport.direct, hw.readFate, Fate.deliver]
    exact relay_of_ok hread
  obtain ⟨calls, hcall⟩ := call_answered .readChunk Prod.fst (n.remote cfg .direct).readChunk hrpc hf
  have hposition : p.client.srcFile.position = pos := congrArg Cursor.pos hcursor
  have hle : pos ≤ job.content.length := by
    obtain ⟨id, cli, ⟨-, hreads⟩, -⟩ := hsession
    rw [← hreads.offset, ← hreads.file]
    exact hreads.ready.offset_le
  have hfit : pos + data.length ≤ job.content.length := by
    have hdata := hnext.length_le
    rw [List.length_drop] at hdata
    omega
  have htakes : p.client.srcFile.Takes a.written data :=
    ⟨hw.localWritten, by rw [hposition]; exact Nat.le_trans hfit hfits.content⟩
  have hwritten := Lib.OutStream.ready_write hready htakes
  have hcursor' := Lib.OutStream.cursor_write hready htakes
  rw [hcursor, Cursor.write_take hle hnext] at hcursor'
  have hposition' : (p.client.srcFile.write a.written data).position = pos + data.length :=
    congrArg Cursor.pos hcursor'
  have hhandle : ∀ {l cl}, p.client.receiveChunk (n.remote cfg .direct) ccfg a p.line = (l, cl, .ok ()) →
      p.client.handle (n.remote cfg .direct) ccfg a p.line = (l, cl, .ok ()) := by
    intro l cl hreceive
    simp only [Client.handle, hstate, Client.doReceive, hp.stopRequested, Bool.false_eq_true, if_false,
      hreceive]
  by_cases hmore : data.length ≠ 0
  · rw [decide_eq_true hmore] at hcall
    obtain ⟨hpoll, hp'⟩ :=
      hp.poll (hhandle (receiveChunk_more hcall)) hp.crashed hp.stopRequested hp.shutdown
    refine ⟨hpoll, hp', .receiving hstate hlength hwritten hcursor' hdst hsession' ⟨rpc, hrpc, hknown'⟩, ?_⟩
    simp only [rank, hstate, hposition, hposition']
    omega
  · have hnil : data = [] := List.length_eq_zero_iff.mp (not_not.mp hmore)
    obtain rfl := hend hnil
    rw [decide_eq_false hmore] at hcall
    have hall : sizeT (p.client.srcFile.write a.written data).tellp = p.client.encSettings.fileLength := by
      rw [Lib.OutStream.tellp_ready hwritten, hposition', hnil, hlength]
      exact sizeT_natCast (Nat.lt_of_le_of_lt hfits.content (by decide))
    have hflushes : (p.client.srcFile.write a.written data).Flushes a.flushed := by
      have hpending : (p.client.srcFile.write a.written data).pending.length
          ≤ (p.client.srcFile.write a.written data).position := Nat.le_add_left ..
      exact Nat.le_trans hpending (by rw [hposition']; exact (hfit.trans hfits.content).trans hw.localFlushed)
    have hcopy : ((p.client.srcFile.write a.written data).close a.flushed).file = job.content := by
      rw [Lib.OutStream.file_close hwritten.isOpen hflushes, hcursor', hnil]
      exact List.take_length
    rw [hnil] at hsession'
    obtain ⟨hpoll, hp'⟩ := hp.poll (hhandle (receiveChunk_last hcall hall hw.launches)) hp.crashed
      hp.stopRequested hp.shutdown
    refine ⟨hpoll, hp', .encoding rfl rfl rfl hdst ⟨OutStream.isOpen_close .., hcopy, hsession'⟩, ?_⟩
    simp only [rank, hstate]
    cases p.client.encSettings.pass2Enabled with
    | true =>
      show job.encoded.length + 4 < _
      omega
    | false =>
      show job.encoded.length + 3 < _
      omega

/-- The durations agree, and the file that was made is measured. -/
theorem Encodes.checkEncoded (cl : Client) {b : EncoderAnswers} (h : Encodes ccfg cl.encSettings job b)
    (hdst : cl.dstFile.isOpen = false) :
    cl.checkEncoded ccfg b
      = ({ cl with
           dstFile := (InStream.opened job.encoded).ignoreAll
           encResult := job.result }, .ok ()) := by
  obtain ⟨lenOut, lenIn, hout, hin, hpositive, hnear⟩ := h.durations
  have hopened : cl.dstFile.openFile b.encoded = .opened job.encoded := by
    rw [h.encoded, InStream.openFile, hdst]
    rfl
  rw [Client.checkEncoded, hout]
  simp only [Int.not_le.mpr hpositive, if_false, hin, Nat.not_lt.mpr hnear, hopened,
    Lib.InStream.gcount_ignoreAll_opened]
  rfl

/-- The encoder works on, starts over for its second pass, or is done. -/
theorem stage_encoding (cfg : DaemonConfig) (hp : p.Undisturbed) (hw : Works ccfg job p n a)
    (hstate : p.client.mainState = .waitForEncodingFinished) (hproc : p.client.encodeProcess = true)
    (hauth : p.client.authenticated = false) (hdst : p.client.dstFile.isOpen = false)
    (hcopied : Copied job p) :
    ∃ p', p.poll (n.remote cfg .direct) ccfg a none = p' ∧ p'.Undisturbed ∧ Stage ccfg job p' ∧
      rank job p' + a.encoder.eof.toNat ≤ rank job p := by
  have hhandle : p.client.handle (n.remote cfg .direct) ccfg a p.line
      = (p.line, p.client.doConvert ccfg a.encoder, .ok ()) := by
    simp only [Client.handle, hstate, hproc, if_true]
  cases heof : a.encoder.eof with
  | false =>
    rw [Client.doConvert_of_running heof hp.shutdown] at hhandle
    obtain ⟨hpoll, hp'⟩ := hp.poll hhandle hp.crashed hp.stopRequested hp.shutdown
    refine ⟨_, hpoll, hp', .encoding hstate hproc hauth hdst ?_, Nat.le_refl _⟩
    exact ⟨hcopied.srcFile, hcopied.copy, hcopied.session⟩
  | true =>
    have hdone := hw.encodes heof
    rw [Client.doConvert_of_exited ⟨heof, hp.shutdown, hdone.forced⟩, hdone.exit] at hhandle
    by_cases hpass : p.client.passNo = 1
    · have hfinish : p.client.finishPass ccfg a.encoder 0
          = { p.client with encodeProcess := true, passNo := 2 } := by
        simp only [Client.finishPass, if_true, hpass, Client.startPass2, hdone.passLog, Bool.not_true,
          Bool.false_eq_true, if_false, launch, hdone.launches]
      rw [hfinish] at hhandle
      obtain ⟨hpoll, hp'⟩ := hp.poll hhandle hp.crashed hp.stopRequested hp.shutdown
      refine ⟨_, hpoll, hp', .encoding hstate rfl hauth hdst ?_, ?_⟩
      · exact ⟨hcopied.srcFile, hcopied.copy, hcopied.session⟩
      · simp [rank, hstate, hpass]
    · have hchecked := Encodes.checkEncoded { p.client with encodeProcess := false } hdone hdst
      have hfinish : p.client.finishPass ccfg a.encoder 0
          = { p.client with
              encodeProcess := false
              dstFile := (InStream.opened job.encoded).ignoreAll
              encResult := job.result
              mainState := .sendResult } := by
        simp only [Client.finishPass, if_true, hpass, if_false, hchecked]
      rw [hfinish] at hhandle
      obtain ⟨hpoll, hp'⟩ := hp.poll hhandle hp.crashed hp.stopRequested hp.shutdown
      refine ⟨_, hpoll, hp', .posting rfl hauth ⟨?_, rfl, rfl⟩, ?_⟩
      · exact ⟨hcopied.srcFile, hcopied.copy, hcopied.session⟩
      · simp [rank, hstate, hpass, hauth]

/-- Before it posts the result the client has to authenticate again. -/
theorem stage_posting (cfg : DaemonConfig) (hp : p.Undisturbed) (hw : Works ccfg job p n a)
    (hstate : p.client.mainState = .sendResult) (hauth : p.client.authenticated = false)
    (hencoded : Encoded job p) :
    Advances cfg ccfg job p n a := by
  obtain ⟨rpc, -, hcheck⟩ := hw.checkCreateRpc cfg p.line
  have hhandle : p.client.handle (n.remote cfg .direct) ccfg a p.line
      = ({ p.line with rpc := some rpc },
          { p.client with prevMainState := .sendResult, mainState := .authenticateing }, .ok ()) := by
    simp only [Client.handle, hstate, MediaArchiverClient.doSendResult, Line.iServer, hcheck, hauth,
      Bool.not_false, if_true]
  obtain ⟨hpoll, hp'⟩ := hp.poll hhandle hp.crashed hp.stopRequested hp.shutdown
  refine ⟨hpoll, hp', .relogin rfl rfl rfl ⟨?_, hencoded.encResult, hencoded.dstFile⟩, ?_⟩
  · exact ⟨hencoded.srcFile, hencoded.copy, hencoded.session⟩
  · simp [rank, hstate, hauth]

/-- The daemon gives the new connection the session that has the token. -/
theorem stage_relogin (cfg : DaemonConfig) (hp : p.Undisturbed) (hw : Works ccfg job p n a)
    (hstate : p.client.mainState = .authenticateing) (hprev : p.client.prevMainState = .sendResult)
    (hrpc : p.line.rpc.isSome = true) (hencoded : Encoded job p) :
    Advances cfg ccfg job p n a := by
  obtain ⟨p', hpoll, hp', hclient, rpc, hrpc', hserver⟩ := poll_login hp hw cfg hstate hrpc
  have htoken : token p' = token p := by rw [token, hclient, token]
  have hsession : Sole (token p') (job.Reads job.content.length) p'.line.server := by
    rw [hserver, htoken]
    exact hencoded.session.authenticate cfg rpc.conn n.junk
  have hencoded' : Encoded job p' := by
    refine ⟨⟨?_, ?_, hsession⟩, ?_, ?_⟩ <;> rw [hclient]
    · exact hencoded.srcFile
    · exact hencoded.copy
    · exact hencoded.encResult
    · exact hencoded.dstFile
  have hconn : Connected p' := ⟨rpc, hrpc', by rw [hserver]; exact session_authenticate ..⟩
  refine ⟨hpoll, hp', .sending (by rw [hclient]; exact hprev) (by rw [hclient]) hencoded' hconn, ?_⟩
  simp [rank, hclient, hprev, hstate]

theorem Fits.encoded_ne_nil (hfits : job.Fits cfg ccfg) : job.encoded ≠ [] := by
  intro hnil
  have hlast := hfits.last
  rw [hnil] at hlast
  exact hlast (Nat.dvd_zero _)

theorem Fits.uploads (hfits : job.Fits cfg ccfg) : job.result.Uploads :=
  Link.uploads_encoded hfits.encoded_ne_nil hfits.encoded

/-- A session that has read all of its source takes the result. -/
theorem postFile_accepted (hfits : job.Fits cfg ccfg) {tok : Text} {d : Daemon}
    (hsession : Sole tok (job.Reads job.content.length) d) {conn : SessionId}
    (hconn : (d.session conn).isSome = true) :
    ∃ d', Daemon.Srv.postFile cfg conn true job.result d = (d', .ok ()) ∧
      (d'.session conn).isSome = true ∧ Sole tok (job.Receives 0) d' := by
  obtain ⟨cli, hcli⟩ := Option.isSome_iff_exists.mp hconn
  obtain ⟨htok, hreads⟩ := hsession.of_session hcli
  have htold : cli.inFile.tellg = (cli.inFile, (job.content.length : Int)) := by
    simp [InStream.tellg, hreads.ready.good, hreads.ready.isOpen, hreads.offset]
  have hall : sizeT (job.content.length : Int) = cli.encSettings.fileLength := by
    rw [hreads.length]
    exact sizeT_natCast (Nat.lt_of_le_of_lt hfits.content (by decide))
  have hans : (cli.postFile cfg true job.result).answer = .ok () := by
    simp [ConnectedClient.postFile, hreads.ready.isOpen, htold, hall, ConnectedClient.acceptResult,
      hreads.outFile, hfits.uploads]
  obtain ⟨hqueued, hsame, -, hout, henc⟩ := cli.postFile_uploads cfg true hfits.uploads hans
  have hreceives : job.Receives 0 (cli.postFile cfg true job.result).client := by
    refine ⟨hsame.id.trans hreads.id, hsame.name.trans hreads.name, ?_, ?_, henc⟩ <;> rw [hout]
    · exact Lib.OutStream.ready_opened
    · exact Lib.OutStream.cursor_opened
  refine ⟨d.store conn (cli.postFile cfg true job.result).client none, ?_, ?_,
    hsession.store hcli (hsame.token.trans htok) hreceives none⟩
  · simp only [Daemon.Srv.postFile, Daemon.withClient, hcli, hans, hqueued]
  · rw [Daemon.session_store]
    rfl

/-- The result is posted, and the encoded file is read from its start. -/
theorem stage_sending (hfits : job.Fits cfg ccfg) (hp : p.Undisturbed) (hw : Works ccfg job p n a)
    (hstate : p.client.mainState = .sendResult) (hauth : p.client.authenticated = true)
    (hencoded : Encoded job p) (hconn : Connected p) :
    Advances cfg ccfg job p n a := by
  obtain ⟨rpc, hrpc, hknown⟩ := hconn
  obtain ⟨d, hpost, hknown', hsession⟩ := postFile_accepted hfits hencoded.session hknown
  have hf : (n.remote cfg .direct).postFile rpc.conn job.result p.line.server = (d, .ok ()) := by
    simp only [NetworkAnswers.remote, Transport.direct, hw.postFate, Fate.deliver, hw.opens]
    exact relay_of_ok hpost
  obtain ⟨calls, hcall⟩ := call_answered (.postFile job.result) (fun _ => true)
    ((n.remote cfg .direct).postFile · job.result) hrpc hf
  have hhandle : p.client.handle (n.remote cfg .direct) ccfg a p.line
      = ({ p.line with server := d, calls := calls },
          { p.client with
            dstFile := p.client.dstFile.rewind.clear
            mainState := .transmitting }, .ok ()) := by
    simp only [Client.handle, hstate, MediaArchiverClient.doSendResult, Line.iServer,
      hw.checkCreateRpc_of_some cfg hrpc, hauth, Bool.not_true, Bool.false_eq_true, if_false, Line.postFile,
      hencoded.encResult, hcall, hfits.uploads, if_true]
  obtain ⟨hpoll, hp'⟩ := hp.poll hhandle hp.crashed hp.stopRequested hp.shutdown
  have hdst : p.client.dstFile.rewind.clear = (InStream.opened job.encoded).ignoreAll.rewind.clear := by
    rw [hencoded.dstFile]
  have hlength := List.length_pos_iff.mpr hfits.encoded_ne_nil
  have hoffset : p.client.dstFile.rewind.clear.offset = 0 := by
    rw [hdst]
    exact Lib.InStream.offset_rewind_clear rfl rfl
  refine ⟨hpoll, hp', .transmitting rfl hencoded.srcFile hencoded.copy (hdst ▸ Link.ready_encoded job.encoded)
    (hdst ▸ InStream.file_rewind_clear _) hoffset hlength (Nat.dvd_zero _) hsession ⟨rpc, hrpc, hknown'⟩, ?_⟩
  simp only [rank, hstate, hauth, if_true, hoffset]
  omega

/-- What came of the job: the mover is to move what was encoded of the source. -/
structure Delivered (cfg : DaemonConfig) (job : Job) (p : Process Daemon) : Prop where
  undisturbed : p.Undisturbed
  state : p.client.mainState = .idle
  resting : Resting p
  copy : p.client.srcFile.file = job.content
  queued : ∃ before move, p.line.server.filesToMove = before ++ [move] ∧
    move.result = ⟨job.result, job.id, cfg.getArchivedFileName job.name⟩ ∧ move.tmp.content = job.encoded

section Transmitting

variable {tok : Text} {pos : Nat} {d : Daemon} {conn : SessionId} {data : Bytes} {written : WriteAnswer UInt8}
  {flushed : Nat}

/-- The next piece of the result is accepted. -/
theorem Receives.next {cli : ConnectedClient} (h : job.Receives pos cli) (hfits : job.Fits cfg ccfg)
    (hnext : data <+: job.encoded.drop pos) (hpos : pos < job.encoded.length) (hsize : data.length < 2 ^ 63)
    (hwritten : written.complete = true) :
    cli.encResult.fileLength.toNat = job.encoded.length ∧ cli.outFile.position = pos ∧
      cli.refuses ⟨data, hsize⟩ = false ∧ cli.outFile.Takes written data ∧
      (cli.outFile.write written data).cursor
        = ⟨job.encoded.take (pos + data.length), pos + data.length⟩ := by
  have hlength : cli.encResult.fileLength.toNat = job.encoded.length := by
    rw [h.result]
    exact Link.toNat_length hfits.encoded
  have hposition : cli.outFile.position = pos := congrArg Cursor.pos h.cursor
  have hfit : pos + data.length ≤ job.encoded.length := by
    have hdata := hnext.length_le
    rw [List.length_drop] at hdata
    omega
  have htakes : cli.outFile.Takes written data :=
    ⟨hwritten, by rw [hposition]; exact Nat.le_trans hfit hfits.encoded⟩
  refine ⟨hlength, hposition, ?_, htakes, ?_⟩
  · refine ConnectedClient.refuses_eq_false (h.id ▸ hfits.id) h.ready ?_ ?_ <;> rw [hlength]
    · omega
    · rw [hposition]
      exact hfit
  · rw [Lib.OutStream.cursor_write h.ready htakes, h.cursor, Cursor.write_take hpos.le hnext]

/-- A piece of the result that is not the last one. -/
theorem writeChunk_next (flushed : Nat) (hfits : job.Fits cfg ccfg) (hsession : Sole tok (job.Receives pos) d)
    (hconn : (d.session conn).isSome = true) (hnext : data <+: job.encoded.drop pos)
    (hsize : data.length < 2 ^ 63) (hwritten : written.complete = true)
    (hmore : pos + data.length < job.encoded.length) :
    ∃ d', Daemon.Srv.writeChunk cfg conn written flushed data d = (d', .ok true) ∧
      (d'.session conn).isSome = true ∧ Sole tok (job.Receives (pos + data.length)) d' := by
  obtain ⟨cli, hcli⟩ := Option.isSome_iff_exists.mp hconn
  obtain ⟨htok, hreceives⟩ := hsession.of_session hcli
  obtain ⟨hlength, hposition, hrefuses, htakes, hcursor⟩ :=
    hreceives.next hfits hnext (Nat.lt_of_le_of_lt (Nat.le_add_right ..) hmore) hsize hwritten
  have hwrite : cli.writeChunk cfg written flushed ⟨data, hsize⟩ = ⟨_, none, .ok true⟩ :=
    ConnectedClient.writeChunk_more hrefuses hreceives.ready htakes (by rw [hlength, hposition]; exact hmore)
  have hreceives' : job.Receives (pos + data.length)
      { cli with outFile := cli.outFile.write written data } :=
    ⟨hreceives.id, hreceives.name, Lib.OutStream.ready_write hreceives.ready htakes, hcursor,
      hreceives.result⟩
  refine ⟨d.store conn { cli with outFile := cli.outFile.write written data } none, ?_, ?_,
    hsession.store hcli (by exact htok) hreceives' none⟩
  · simp only [Daemon.Srv.writeChunk, hsize, dif_pos, Daemon.withClient, hcli, hwrite]
  · rw [Daemon.session_store]
    rfl

/-- The last piece. -/
theorem writeChunk_end (hfits : job.Fits cfg ccfg) (hsession : Sole tok (job.Receives pos) d)
    (hconn : (d.session conn).isSome = true) (hdata : data = job.encoded.drop pos)
    (hpos : pos < job.encoded.length) (hsize : data.length < 2 ^ 63) (hwritten : written.complete = true)
    (hflushed : maxOffset ≤ flushed) :
    ∃ d' move, Daemon.Srv.writeChunk cfg conn written flushed data d = (d', .ok false) ∧
      Sole tok ConnectedClient.Closed d' ∧ d'.filesToMove = d.filesToMove ++ [move] ∧
      move.result = ⟨job.result, job.id, cfg.getArchivedFileName job.name⟩ ∧
      move.tmp.content = job.encoded := by
  obtain ⟨cli, hcli⟩ := Option.isSome_iff_exists.mp hconn
  obtain ⟨htok, hreceives⟩ := hsession.of_session hcli
  have hend : pos + data.length = job.encoded.length := by
    rw [hdata, List.length_drop]
    omega
  obtain ⟨hlength, hposition, hrefuses, htakes, hcursor⟩ :=
    hreceives.next hfits (hdata ▸ List.prefix_refl _) hpos hsize hwritten
  obtain ⟨cli', hcli'⟩ : ∃ cli' : ConnectedClient,
      cli' = { cli with outFile := (cli.outFile.write written data).close flushed } := ⟨_, rfl⟩
  have hwrite : cli.writeChunk cfg written flushed ⟨data, hsize⟩
      = ⟨(cli'.prepareNewSession cfg).1, some (cli'.prepareNewSession cfg).2, .ok false⟩ := by
    rw [hcli']
    exact ConnectedClient.writeChunk_last hrefuses hreceives.ready htakes
      (by rw [hlength, hposition]; exact hend.ge)
  have hflushes : (cli.outFile.write written data).Flushes flushed := by
    have hpending : (cli.outFile.write written data).pending.length
        ≤ (cli.outFile.write written data).cursor.pos := Nat.le_add_left ..
    rw [hcursor] at hpending
    exact hpending.trans ((hend.le.trans hfits.encoded).trans hflushed)
  have hfile : ((cli.outFile.write written data).close flushed).file = job.encoded := by
    rw [Lib.OutStream.file_close ((Lib.OutStream.isOpen_write ..).trans hreceives.ready.isOpen) hflushes,
      hcursor, hend]
    exact List.take_length
  refine ⟨d.store conn (cli'.prepareNewSession cfg).1 (some (cli'.prepareNewSession cfg).2),
    (cli'.prepareNewSession cfg).2, ?_, ?_, rfl, ?_, ?_⟩
  · simp only [Daemon.Srv.writeChunk, hsize, dif_pos, Daemon.withClient, hcli, hwrite]
  · refine hsession.store hcli ?_ (ConnectedClient.closed_prepareNewSession cli' cfg) _
    rw [hcli']
    exact htok
  · simp only [ConnectedClient.prepareNewSession, hcli', hreceives.id, hreceives.name, hreceives.result]
  · rw [hcli']
    exact hfile

end Transmitting

/-- The one session is closed. -/
theorem Sole.resting {tok : Text} {d : Daemon} (h : Sole tok ConnectedClient.Closed d) :
    Single tok d ∧ Closed d := by
  obtain ⟨id, cli, ⟨htok, hclosed⟩, honly⟩ := h
  refine ⟨⟨?_, ?_⟩, ?_⟩
  · intro r hr
    rw [(honly r).mp hr]
    exact htok
  · intro r hr s hs _
    exact ((honly r).mp hr).trans ((honly s).mp hs).symm
  · intro r hr
    rw [(honly r).mp hr]
    exact hclosed

/-- The call that sends a chunk. -/
theorem Works.writeChunk (h : Works ccfg job p n a) {l : Line Daemon} {rpc : Rpc} (hrpc : l.rpc = some rpc)
    {data : Bytes} (hsize : data.length < 2 ^ 63) {d : Daemon} {res : Bool}
    (hwrite : Daemon.Srv.writeChunk cfg rpc.conn n.written n.flushed data l.server = (d, .ok res)) :
    ∃ calls, l.writeChunk (n.remote cfg .direct) data
      = ({ l with server := d, calls := calls }, .ok res) := by
  have hf : (n.remote cfg .direct).writeChunk rpc.conn data l.server = (d, .ok res) := by
    simp only [NetworkAnswers.remote, Transport.direct, hsize, dif_pos, h.writeFate, Fate.deliver]
    exact relay_of_ok hwrite
  exact call_answered (.writeChunk data) _ ((n.remote cfg .direct).writeChunk · data) hrpc hf

section DoTransmit

variable {r : Remote Daemon} {ucfg : ClientConfig} {memory : Bool} {l l' : Line Daemon}
  {cl : MediaArchiverClient}

theorem doTransmit_more {res : Bool} (hmem : DataChunk.Allocates memory ucfg.chunkSize)
    (hwrite : l.writeChunk r (cl.dstFile.read ucfg.chunkSize).2 = (l', .ok res))
    (heof : (cl.dstFile.read ucfg.chunkSize).1.eofbit = false) :
    cl.doTransmit (Line.iServer r) ucfg memory l
      = (l', { cl with dstFile := (cl.dstFile.read ucfg.chunkSize).1 }, .ok ()) := by
  apply MediaArchiverClient.doTransmit_of_ok
  simp only [MediaArchiverClient.transmitChunk, DataChunk.allocate_of_allocates hmem, Line.iServer, hwrite,
    heof, Bool.false_eq_true, if_false]

theorem doTransmit_last (hmem : DataChunk.Allocates memory ucfg.chunkSize)
    (hwrite : l.writeChunk r (cl.dstFile.read ucfg.chunkSize).2 = (l', .ok false))
    (heof : (cl.dstFile.read ucfg.chunkSize).1.eofbit = true) :
    cl.doTransmit (Line.iServer r) ucfg memory l
      = (l', { ({ cl with dstFile := (cl.dstFile.read ucfg.chunkSize).1 } : MediaArchiverClient).cleanUp with
          mainState := .idle }, .ok ()) := by
  apply MediaArchiverClient.doTransmit_of_ok
  simp only [MediaArchiverClient.transmitChunk, DataChunk.allocate_of_allocates hmem, Line.iServer, hwrite,
    heof, if_true, Bool.false_eq_true, if_false]

end DoTransmit

/-- A chunk is sent; the last one is short. -/
theorem stage_transmitting (hfits : job.Fits cfg ccfg) (hp : p.Undisturbed) (hw : Works ccfg job p n a)
    (hstate : p.client.mainState = .transmitting) {pos : Nat} (hsrc : p.client.srcFile.isOpen = false)
    (hcopy : p.client.srcFile.file = job.content) (hready : p.client.dstFile.Ready)
    (hfile : p.client.dstFile.file = job.encoded) (hoffset : p.client.dstFile.offset = pos)
    (hpos : pos < job.encoded.length) (hchunks : ccfg.chunkSize ∣ pos)
    (hsession : Sole (token p) (job.Receives pos) p.line.server) (hconn : Connected p) :
    Advances cfg ccfg job p n a ∨ Delivered cfg job (p.poll (n.remote cfg .direct) ccfg a none) := by
  obtain ⟨rpc, hrpc, hknown⟩ := hconn
  have hmax : job.encoded.length < 2 ^ 63 := Nat.lt_of_le_of_lt hfits.encoded (by decide)
  have hmem : DataChunk.Allocates a.memory ccfg.chunkSize := ⟨hfits.clientSize, Or.inr hw.memory⟩
  by_cases hmore : pos + ccfg.chunkSize < job.encoded.length
  · have hwhole : p.client.dstFile.offset + ccfg.chunkSize ≤ p.client.dstFile.file.length := by
      rw [hoffset, hfile]
      exact hmore.le
    obtain ⟨hnext, hoffset'⟩ := Lib.InStream.read_next hready ccfg.chunkSize
    have hread := Lib.InStream.ready_read_full hready hwhole
    have hlen : (p.client.dstFile.read ccfg.chunkSize).2.length = ccfg.chunkSize := by
      rw [Lib.InStream.read_full hready hwhole, List.length_take, List.length_drop]
      omega
    rw [hfile, hoffset] at hnext
    rw [hoffset, hlen] at hoffset'
    have hsize : (p.client.dstFile.read ccfg.chunkSize).2.length < 2 ^ 63 := by omega
    obtain ⟨d, hwrite, hknown', hsession'⟩ := writeChunk_next n.flushed hfits hsession hknown hnext
      hsize hw.written (by rw [hlen]; exact hmore)
    obtain ⟨calls, hcall⟩ := hw.writeChunk hrpc hsize hwrite
    have hhandle : p.client.handle (n.remote cfg .direct) ccfg a p.line
        = ({ p.line with server := d, calls := calls },
            { p.client with dstFile := (p.client.dstFile.read ccfg.chunkSize).1 }, .ok ()) := by
      have hsend : p.client.doTransmit (Line.iServer (n.remote cfg .direct)) ccfg.toClientConfig a.memory
          p.line = _ := doTransmit_more hmem hcall hread.eofbit
      simp only [Client.handle, hstate, hsend]
    obtain ⟨hpoll, hp'⟩ := hp.poll hhandle hp.crashed hp.stopRequested hp.shutdown
    rw [hlen] at hsession'
    refine Or.inl ⟨hpoll, hp', .transmitting hstate hsrc hcopy hread ?_ hoffset' hmore
      (Nat.dvd_add hchunks (Nat.dvd_refl _)) hsession' ⟨rpc, hrpc, hknown'⟩, ?_⟩
    · exact (Lib.InStream.file_read ..).trans hfile
    · simp only [rank, hstate, hoffset, hoffset']
      have hchunk := hfits.clientChunk
      omega
  · have hshort : p.client.dstFile.file.length < p.client.dstFile.offset + ccfg.chunkSize := by
      rw [hoffset, hfile]
      refine Nat.lt_of_le_of_ne (Nat.not_lt.mp hmore) fun heq => hfits.last ?_
      rw [heq]
      exact Nat.dvd_add hchunks (Nat.dvd_refl _)
    have hread := Lib.InStream.read_short hready hshort
    have hdata : (p.client.dstFile.read ccfg.chunkSize).2 = job.encoded.drop pos := by
      rw [hread, hfile, hoffset]
    have heof : (p.client.dstFile.read ccfg.chunkSize).1.eofbit = true := by rw [hread]
    have hsize : (p.client.dstFile.read ccfg.chunkSize).2.length < 2 ^ 63 := by
      rw [hdata, List.length_drop]
      omega
    obtain ⟨d, move, hwrite, hsole, hqueue, hresult, hcontent⟩ :=
      writeChunk_end hfits hsession hknown hdata hpos hsize hw.written hw.flushed
    obtain ⟨calls, hcall⟩ := hw.writeChunk hrpc hsize hwrite
    have hhandle : p.client.handle (n.remote cfg .direct) ccfg a p.line
        = ({ p.line with server := d, calls := calls },
            { p.client with toMediaArchiverClient :=
              { ({ p.client.toMediaArchiverClient with
                    dstFile := (p.client.dstFile.read ccfg.chunkSize).1 } : MediaArchiverClient).cleanUp with
                mainState := .idle } }, .ok ()) := by
      have hsend : p.client.doTransmit (Line.iServer (n.remote cfg .direct)) ccfg.toClientConfig a.memory
          p.line = _ := doTransmit_last hmem hcall heof
      simp only [Client.handle, hstate, hsend]
    obtain ⟨hpoll, hp'⟩ := hp.poll hhandle hp.crashed hp.stopRequested hp.shutdown
    obtain ⟨hsingle, hclosed⟩ := Sole.resting hsole
    have hkept : ({ p.client.toMediaArchiverClient with
        dstFile := (p.client.dstFile.read ccfg.chunkSize).1 } : MediaArchiverClient).cleanUp.srcFile
          = p.client.srcFile := if_neg (ne_true_of_eq_false hsrc)
    rw [hpoll]
    refine Or.inr ⟨hp', rfl, ⟨?_, ?_, hsingle, hclosed⟩, ?_, _, move, hqueue, hresult, hcontent⟩
    · exact (congrArg OutStream.isOpen hkept).trans hsrc
    · exact MediaArchiverClient.isOpen_dstFile_cleanUp _
    · exact (congrArg OutStream.file hkept).trans hcopy

/-! ## All polls -/

/-- A poll brings the job closer to its end, unless it finds the encoder at work. -/
theorem stage_poll (hfits : job.Fits cfg ccfg) (hp : p.Undisturbed) (hstage : Stage ccfg job p)
    (hw : Works ccfg job p n a) :
    ∃ p', p.poll (n.remote cfg .direct) ccfg a none = p' ∧
      ((p'.Undisturbed ∧ Stage ccfg job p' ∧ rank job p' + a.encoder.eof.toNat ≤ rank job p) ∨
        Delivered cfg job p') := by
  -- all stages but that of the encoder come closer in any case
  have hcloser : Advances cfg ccfg job p n a → ∃ p', p.poll (n.remote cfg .direct) ccfg a none = p' ∧
      ((p'.Undisturbed ∧ Stage ccfg job p' ∧ rank job p' + a.encoder.eof.toNat ≤ rank job p) ∨
        Delivered cfg job p') := by
    rintro ⟨hpoll, hp', hstage', hrank⟩
    have hle := Bool.toNat_le a.encoder.eof
    exact ⟨_, hpoll, Or.inl ⟨hp', hstage', by omega⟩⟩
  cases hstage with
  | idle hstate hauth hrest => exact hcloser (stage_idle cfg hp hw hstate hauth hrest)
  | login hstate hprev hrpc hrest => exact hcloser (stage_login cfg hp hw hstate hprev hrpc hrest)
  | asking hstate hauth hrest hconn => exact hcloser (stage_asking hfits hp hw hstate hauth hrest hconn)
  | receiving hstate hlength hready hcursor hdst hsession hconn =>
    exact hcloser (stage_receiving hfits hp hw hstate hlength hready hcursor hdst hsession hconn)
  | encoding hstate hproc hauth hdst hcopied =>
    obtain ⟨p', hpoll, hp', hstage', hrank⟩ := stage_encoding cfg hp hw hstate hproc hauth hdst hcopied
    exact ⟨p', hpoll, Or.inl ⟨hp', hstage', hrank⟩⟩
  | posting hstate hauth hencoded => exact hcloser (stage_posting cfg hp hw hstate hauth hencoded)
  | relogin hstate hprev hrpc hencoded => exact hcloser (stage_relogin cfg hp hw hstate hprev hrpc hencoded)
  | sending hstate hauth hencoded hconn =>
    exact hcloser (stage_sending hfits hp hw hstate hauth hencoded hconn)
  | transmitting hstate hsrc hcopy hready hfile hoffset hpos hchunks hsession hconn =>
    rcases stage_transmitting hfits hp hw hstate hsrc hcopy hready hfile hoffset hpos hchunks hsession
      hconn with hadvances | hdone
    · exact hcloser hadvances
    · exact ⟨_, rfl, Or.inr hdone⟩

/-- What the daemon does without the client leaves the stage as it is. -/
theorem Stage.background (hstage : Stage ccfg job p) {d : Daemon}
    (hd : d.connections = p.line.server.connections) :
    Stage ccfg job { p with line := { p.line with server := d } } := by
  have hsole : ∀ {P : ConnectedClient → Prop}, Sole (token p) P p.line.server → Sole (token p) P d :=
    fun h => h.of_connections hd
  have hrest : Resting p → Resting { p with line := { p.line with server := d } } := by
    rintro ⟨hsrc, hdst, ⟨htokens, hunique⟩, hclosed⟩
    rw [Closed, ← hd] at hclosed
    rw [← hd] at htokens hunique
    exact ⟨hsrc, hdst, ⟨htokens, hunique⟩, hclosed⟩
  have hconn : Connected p → Connected { p with line := { p.line with server := d } } := by
    rintro ⟨rpc, hrpc, hknown⟩
    rw [Daemon.session, ← hd] at hknown
    exact ⟨rpc, hrpc, hknown⟩
  have hcopied : Copied job p → Copied job { p with line := { p.line with server := d } } :=
    fun h => ⟨h.srcFile, h.copy, hsole h.session⟩
  have hencoded : Encoded job p → Encoded job { p with line := { p.line with server := d } } :=
    fun h => ⟨hcopied h.toCopied, h.encResult, h.dstFile⟩
  cases hstage with
  | idle hstate hauth h => exact .idle hstate hauth (hrest h)
  | login hstate hprev hrpc h => exact .login hstate hprev hrpc (hrest h)
  | asking hstate hauth h hc => exact .asking hstate hauth (hrest h) (hconn hc)
  | receiving hstate hlength hready hcursor hdst hs hc =>
    exact .receiving hstate hlength hready hcursor hdst (hsole hs) (hconn hc)
  | encoding hstate hproc hauth hdst h => exact .encoding hstate hproc hauth hdst (hcopied h)
  | posting hstate hauth h => exact .posting hstate hauth (hencoded h)
  | relogin hstate hprev hrpc h => exact .relogin hstate hprev hrpc (hencoded h)
  | sending hstate hauth h hc => exact .sending hstate hauth (hencoded h) (hconn hc)
  | transmitting hstate hsrc hcopy hready hfile hoffset hpos hchunks hs hc =>
    exact .transmitting hstate hsrc hcopy hready hfile hoffset hpos hchunks (hsole hs) (hconn hc)

/-- The client is polled, and if an encoder runs, it has exited. -/
def exited : NetworkEvent → Bool
  | .poll _ a _ => a.encoder.eof
  | _ => false

/-- Every event brings the job closer to its end, or leaves it where it is. -/
theorem stage_step (hfits : job.Fits cfg ccfg) {e : NetworkEvent} (hp : p.Undisturbed)
    (hstage : Stage ccfg job p) (hobliging : Obliging ccfg job p e) :
    Delivered cfg job ((Network.machine cfg ccfg).step p e) ∨
      (((Network.machine cfg ccfg).step p e).Undisturbed ∧
          Stage ccfg job ((Network.machine cfg ccfg).step p e)) ∧
        rank job ((Network.machine cfg ccfg).step p e) + (exited e).toNat ≤ rank job p := by
  cases e with
  | poll n a stop =>
    obtain ⟨rfl, hw⟩ := hobliging
    obtain ⟨p', rfl, ⟨hp', hstage', hrank⟩ | hdone⟩ := stage_poll hfits hp hstage hw
    · exact Or.inr ⟨⟨hp', hstage'⟩, hrank⟩
    · exact Or.inl hdone
  | stop forced => exact hobliging.elim
  | background e he =>
    have hp' : ((Network.machine cfg ccfg).step p (.background e he)).Undisturbed :=
      ⟨hp.ending, hp.crashed, hp.stopRequested, hp.shutdown⟩
    refine Or.inr ⟨⟨hp', hstage.background (Daemon.connections_background cfg he)⟩, ?_⟩
    exact Nat.le_refl (rank job p)

/-- After enough polls the mover has the encoded file. -/
theorem delivered (hfits : job.Fits cfg ccfg) (hp : p.Undisturbed) (hstage : Stage ccfg job p)
    {es : List NetworkEvent} (hes : (Network.machine cfg ccfg).Along (Obliging ccfg job) p es)
    (hcount : rank job p < es.countP exited) :
    ∃ past, past <+: es ∧ Delivered cfg job ((Network.machine cfg ccfg).run p past) :=
  (Network.machine cfg ccfg).reaches (P := fun p => p.Undisturbed ∧ Stage ccfg job p) (rank job) exited
    (fun _ _ hp hobliging => stage_step hfits hp.1 hp.2 hobliging) ⟨hp, hstage⟩ hes hcount

/-- A client and a daemon that start are at the beginning. -/
theorem stage_start (ccfg : ClientSettings) (job : Job) (tok : Nat) (db : Store) :
    (Network.start tok db).Undisturbed ∧ Stage ccfg job (Network.start tok db) :=
  ⟨⟨rfl, rfl, rfl, rfl⟩, .idle rfl rfl ⟨rfl, rfl, Daemon.single_start _ db, Daemon.closed_start db⟩⟩

/-- A file of one byte, which becomes another one in two passes. -/
def oneByte : Job := ⟨1, "a.mov".toList, [7], [9]⟩

def twoPasses : DaemonConfig := { gCfg with crf := -1 }

/-- An encoder that is done at once has done what it should. -/
theorem encodes_working (ccfg : ClientSettings) (settings : MediaEncoderSettings) (job : Job) :
    Encodes ccfg settings job (LocalAnswers.working job.encoded).encoder :=
  ⟨rfl, rfl, rfl, rfl, ⟨1, 1, rfl, rfl, by decide, by decide⟩, rfl⟩

/-- The daemon has the file, if the client asks for one. -/
def Offered (p : Process Daemon) : Prop :=
  p.client.mainState = .idle → p.client.authenticated = true →
    p.line.server.stopRequested = false ∧
      (p.line.server.db.getNextFile .first p.client.filter).2 = some (1, ⟨"a.mov".toList, 1⟩)

instance : DecidablePred Offered := fun _ => inferInstanceAs (Decidable (_ → _ → _ ∧ _))

/-- Then nothing fails in a smooth poll. -/
theorem Offered.obliging (h : Offered p) (ccfg : ClientSettings) :
    Obliging ccfg oneByte p Network.smooth := by
  refine ⟨rfl, ⟨1, rfl⟩, fun _ => rfl, rfl, rfl, rfl, rfl, rfl, by decide, rfl, rfl, Nat.le_refl _, rfl, rfl,
    rfl, Nat.le_refl _, rfl, ?_, fun _ => encodes_working ..⟩
  intro hstate hauth
  obtain ⟨hgoing, hpicks⟩ := h hstate hauth
  exact ⟨hgoing, ⟨_, Prod.ext rfl hpicks⟩, rfl, rfl⟩

theorem along_smooth {guard : Process Daemon → NetworkEvent → Prop} {P : Process Daemon → Prop}
    (hguard : ∀ q, P q → guard q Network.smooth) {k : Nat}
    (h : (Network.machine cfg ccfg).Along (fun q _ => P q) p (List.replicate k Network.smooth)) :
    (Network.machine cfg ccfg).Along guard p (List.replicate k Network.smooth) := by
  induction k generalizing p with
  | zero => trivial
  | succ k ih => exact ⟨hguard p h.1, ih h.2⟩

/-- The file is discovered, and the client polled eleven times. -/
theorem delivered_one_byte :
    let discovery := NetworkEvent.background (Daemon.discovers "a.mov".toList []) trivial
    ∃ past, past <+: discovery :: List.replicate 11 Network.smooth ∧
      Delivered twoPasses oneByte ((Network.machine twoPasses .gCfg).run (Network.start 3 .empty) past) := by
  have hfits : oneByte.Fits twoPasses .gCfg :=
    ⟨by decide, by decide, by decide, by decide, by decide, by decide, by decide, by decide, by decide⟩
  intro discovery
  obtain ⟨hrunning, hstage⟩ := stage_start .gCfg oneByte 3 .empty
  refine delivered hfits hrunning hstage ?_ (by decide)
  exact ⟨trivial, along_smooth (P := Offered) (fun _ h => h.obliging .gCfg) (by decide +kernel)⟩

end Job

end MediaArchiver
