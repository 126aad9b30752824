/-
# MediaArchiver.Client.Download -- a download is the source or is not finished

The client appends what it is given; the daemon reads on from where it is. A call that is lost, late or
executed without an answer moves the daemon and not the client, so the client's copy is never ahead
(`Follows.behind`), and as long as the two are level, the copy is what the daemon has read
(`Follows.holds`). A reset makes them level again; what it leaves of the copy is overwritten or belongs to
the bytes before the end, because the copy is never longer than the source.

At the end only the length is compared. If the copy is as long as the source, the daemon cannot be ahead of
it, so the copy is the source.

The daemon has other clients, which call it at any time (`CrowdEvent`), and it may be restarted. The others do
not call on the session (`DaemonEvent.Foreign`); if one takes its place, there is nothing to be read any more.
-/
import MediaArchiver.Client.Delays
import MediaArchiver.Daemon.OwnToken

namespace MediaArchiver

open Lib (Machine OutStream Cursor WriteAnswer Delayed Late maxOffset)
open Daemon (Own)
open DaemonEvent (Early Foreign)

universe u

/-! ## The copy and the source -/

/-- A copy that is written, and is not longer than the source. -/
structure PartCopy (content : Bytes) (copy : OutStream UInt8) : Prop where
  ready : copy.Ready
  length_le : copy.cursor.content.length ≤ content.length

/-- A copy of the session's source that is not ahead of the daemon. -/
structure Follows (content : Bytes) (copy : OutStream UInt8) (cli : ConnectedClient) : Prop
    extends PartCopy content copy where
  source : cli.inFile.Ready
  file : cli.inFile.file = content
  behind : copy.position ≤ cli.inFile.offset
  holds : copy.position = cli.inFile.offset → copy.cursor.Holds (content.take copy.position)

section Follows

variable {content : Bytes} {copy : OutStream UInt8} {cli : ConnectedClient} {cfg : DaemonConfig}

theorem partCopy_opened (content : Bytes) : PartCopy content .opened := by
  refine ⟨Lib.OutStream.ready_opened, ?_⟩
  rw [Lib.OutStream.cursor_opened]
  exact Nat.zero_le _

theorem PartCopy.rewind (h : PartCopy content copy) {rewound : Nat} (hflush : copy.Flushes rewound) :
    PartCopy content (copy.rewind rewound) := by
  refine ⟨Lib.OutStream.ready_rewind h.ready hflush, ?_⟩
  rw [Lib.OutStream.cursor_rewind h.ready hflush]
  exact h.length_le

theorem follows_opened (hcli : cli.inFile = .opened content) : Follows content .opened cli := by
  refine ⟨partCopy_opened content, ?_, ?_, Nat.zero_le _, ?_⟩
  · rw [hcli]
    exact Lib.InStream.ready_opened content
  · rw [hcli]
    rfl
  · intro _
    rw [Lib.OutStream.cursor_opened]
    exact ⟨rfl, rfl⟩

/-- The daemon reads, and nobody hears of it. -/
theorem Follows.skip (h : Follows content copy cli) (avail : Nat) :
    Follows content copy (cli.readChunk cfg avail).1 := by
  obtain ⟨hready, hfile, hoffset, -⟩ := Lib.InStream.readsome_ready h.source avail cfg.chunkSize
  rw [ConnectedClient.readChunk_ready h.source]
  refine ⟨h.toPartCopy, hready, hfile.trans h.file, ?_, ?_⟩
  · show copy.position ≤ (cli.inFile.readsome avail cfg.chunkSize).1.offset
    have hbehind := h.behind
    omega
  · intro (hlevel : copy.position = (cli.inFile.readsome avail cfg.chunkSize).1.offset)
    -- then nothing was read
    have hbehind := h.behind
    apply h.holds
    omega

/-- The daemon reads, and the client writes what was read. -/
theorem Follows.read (h : Follows content copy cli) {avail : Nat} {written : WriteAnswer UInt8}
    (htakes : copy.Takes written (cli.inFile.readsome avail cfg.chunkSize).2) :
    Follows content (copy.write written (cli.inFile.readsome avail cfg.chunkSize).2)
      (cli.readChunk cfg avail).1 := by
  obtain ⟨hready, hfile, hoffset, hnext⟩ := Lib.InStream.readsome_ready h.source avail cfg.chunkSize
  have hcursor := Lib.OutStream.cursor_write h.ready htakes
  have hpos : (copy.write written (cli.inFile.readsome avail cfg.chunkSize).2).position
      = copy.position + (cli.inFile.readsome avail cfg.chunkSize).2.length :=
    congrArg Cursor.pos hcursor
  have hbehind := h.behind
  rw [ConnectedClient.readChunk_ready h.source]
  refine ⟨⟨Lib.OutStream.ready_write h.ready htakes, ?_⟩, hready, hfile.trans h.file, ?_, ?_⟩
  · -- the daemon is inside the source, and the client is not ahead
    have hend := hready.offset_le
    rw [hfile, h.file] at hend
    rw [hcursor, Cursor.length_write h.ready.pos_le]
    apply Nat.max_le.mpr
    refine ⟨h.length_le, ?_⟩
    show copy.position + _ ≤ content.length
    omega
  · show _ ≤ (cli.inFile.readsome avail cfg.chunkSize).1.offset
    omega
  · intro (hlevel : _ = (cli.inFile.readsome avail cfg.chunkSize).1.offset)
    have hbefore : copy.position = cli.inFile.offset := by omega
    rw [← hbefore, h.file] at hnext
    have hholds := Cursor.holds_write_next (h.holds hbefore) hnext
    rw [← hcursor] at hholds
    exact hholds

/-- Both go back to the start. -/
theorem Follows.restart (h : Follows content copy cli) {rewound : Nat} (hflush : copy.Flushes rewound)
    (flushed : Nat) : Follows content (copy.rewind rewound) (cli.reset flushed) := by
  have hcursor := Lib.OutStream.cursor_rewind h.ready hflush
  have hreset : cli.reset flushed = { cli with inFile := cli.inFile.rewind } := by
    rw [ConnectedClient.reset, if_pos h.source.isOpen]
  have hrewind : cli.inFile.rewind = { cli.inFile with eofbit := false, offset := 0 } := by
    simp [Lib.InStream.rewind, h.source.failbit, h.source.badbit, h.source.isOpen]
  rw [hreset]
  refine ⟨h.toPartCopy.rewind hflush, ?_, ?_, ?_, ?_⟩
  · show cli.inFile.rewind.Ready
    rw [hrewind]
    exact ⟨h.source.isOpen, rfl, h.source.failbit, h.source.badbit, Nat.zero_le _⟩
  · show cli.inFile.rewind.file = content
    rw [hrewind]
    exact h.file
  · show (copy.rewind rewound).cursor.pos ≤ _
    rw [hcursor]
    exact Nat.zero_le _
  · intro _
    show (copy.rewind rewound).cursor.Holds (content.take (copy.rewind rewound).cursor.pos)
    rw [hcursor]
    exact Cursor.holds_rewind _

/-- A copy of the source's length is the source. -/
theorem Follows.complete (h : Follows content copy cli) (hlength : copy.position = content.length) :
    copy.cursor.content = content := by
  have hbehind := h.behind
  have hend := h.source.offset_le
  rw [h.file] at hend
  have hholds := h.holds (by omega)
  rw [hlength, List.take_length] at hholds
  apply hholds.content_eq
  show copy.cursor.content.length ≤ copy.position
  rw [hlength]
  exact h.length_le

/-- The copy follows the session, if that has a source open. -/
def Tracks (content : Bytes) (copy : OutStream UInt8) (cli : ConnectedClient) : Prop :=
  cli.inFile.isOpen = true → Follows content copy cli

theorem tracks_fresh (content : Bytes) (copy : OutStream UInt8) (junk : Uninitialised) (token : Text) :
    Tracks content copy { ConnectedClient.fresh junk with token := token } := nofun

theorem Tracks.skip (h : Tracks content copy cli) (avail : Nat) :
    Tracks content copy (cli.readChunk cfg avail).1 := by
  intro hopen
  rw [(cli.readChunk_same cfg avail).2.1] at hopen
  exact (h hopen).skip avail

theorem Tracks.restart (h : Tracks content copy cli) {rewound : Nat} (hflush : copy.Flushes rewound)
    (flushed : Nat) : Tracks content (copy.rewind rewound) (cli.reset flushed) := by
  intro hopen
  by_cases hbefore : cli.inFile.isOpen = true
  · exact (h hbefore).restart hflush flushed
  · -- the source is not what a reset is about
    have hsame : (cli.reset flushed).inFile = cli.inFile := by
      unfold ConnectedClient.reset
      rw [if_neg hbefore]
      split <;> rfl
    rw [hsame] at hopen
    exact absurd hopen hbefore

end Follows

/-! ## The daemon's side -/

/-- The client's session is followed by the copy, and the calls that may still come do not disturb it. -/
structure Served (token : Text) (conn : SessionId) (content : Bytes) (copy : OutStream UInt8)
    (s : LateDaemon) : Prop where
  session : Own token conn (Tracks content copy) s.server
  partCopy : PartCopy content copy
  late : ∀ l ∈ s.late, Early token l.call

section Served

variable {token : Text} {conn : SessionId} {content : Bytes} {copy : OutStream UInt8} {cfg : DaemonConfig}
  {s : LateDaemon}

theorem Served.early (h : Served token conn content copy s) (cfg : DaemonConfig) {e : DaemonEvent}
    (he : e.Early token) : Own token conn (Tracks content copy) ((Daemon.machine cfg).step s.server e) :=
  h.session.early cfg he (fun _ _ hcli => hcli.skip _) fun junk => tracks_fresh content copy junk token

theorem Served.runLate (h : Served token conn content copy s) (i : Nat) :
    Served token conn content copy (s.runLate (Daemon.machine cfg).step i) where
  session := Delayed.runLate_server (fun l hl => h.early cfg (h.late l (List.mem_of_getElem? hl))) h.session
  partCopy := h.partCopy
  late _ hl := h.late _ (Delayed.mem_late_runLate hl)

theorem Served.background (h : Served token conn content copy s) {e : DaemonEvent} (he : e.Background) :
    Served token conn content copy { s with server := (Daemon.machine cfg).step s.server e } where
  session := h.session.of_connections (Daemon.connections_background cfg he)
  partCopy := h.partCopy
  late := h.late

theorem Served.foreign (h : Served token conn content copy s) {e : DaemonEvent}
    (he : e.Foreign token conn s.server) :
    Served token conn content copy { s with server := (Daemon.machine cfg).step s.server e } where
  session := h.session.foreign cfg he
  partCopy := h.partCopy
  late := h.late

/-- Whatever becomes of the call, the copy does not get ahead. If a chunk came, there is a session that it
follows. -/
theorem Served.readChunk (h : Served token conn content copy s) {n : NetworkAnswers}
    {s' : LateDaemon} {answer : Except Exn (Bool × Bytes)}
    (hread : (n.remote cfg .delayed).readChunk conn s = (s', answer)) :
    (∀ e, answer = .error e → Served token conn content copy s') ∧
      ∀ cont data written, answer = .ok (cont, data) → copy.Takes written data →
        Served token conn content (copy.write written data) s' ∧
          ∃ cli, Follows content (copy.write written data) cli := by
  rcases Transport.delayed_cases hread with ⟨rfl, ex, -, rfl⟩ | ⟨rfl, hanswer⟩
  · refine ⟨?_, nofun⟩
    rintro e -
    refine ⟨h.session, h.partCopy, ?_⟩
    intro l hl
    rcases Delayed.mem_late_giveUp.mp hl with hl | rfl
    · exact h.late l hl
    · exact trivial
  · -- the call has run
    have hskip : Own token conn (Tracks content copy) (Daemon.Srv.readChunk cfg conn n.avail s.server).1 := by
      rw [Daemon.Srv.step_readChunk]
      exact h.early cfg trivial
    refine ⟨fun _ _ => ⟨hskip, h.partCopy, h.late⟩, ?_⟩
    intro cont data written hok htakes
    rcases hanswer with ⟨ex, -, herror⟩ | ⟨-, hanswer⟩
    · rw [herror] at hok
      cases hok
    rw [hanswer, relay_ok] at hok
    have hstored : ∃ cli, Follows content (copy.write written data) cli ∧
        Own token conn (Tracks content (copy.write written data))
          (Daemon.Srv.readChunk cfg conn n.avail s.server).1 := by
      unfold Daemon.Srv.readChunk Daemon.withClient at hok ⊢
      cases hcli : s.server.session conn with
      | none =>
        rw [hcli] at hok
        cases hok
      | some cli =>
        simp only [hcli] at hok ⊢
        have hopen : cli.inFile.isOpen = true := by
          by_contra hclosed
          rw [ConnectedClient.readChunk, if_neg hclosed] at hok
          cases hok
        have hfollows := (h.session.of_session hcli).2 hopen
        have hsame := (cli.readChunk_spec cfg n.avail).token
        rw [ConnectedClient.readChunk_ready hfollows.source] at hok
        obtain ⟨-, rfl⟩ := Prod.mk.inj (Except.ok.inj hok)
        have hafter := hfollows.read htakes
        exact ⟨_, hafter, h.session.replace hcli hsame (fun _ => hafter) none⟩
    obtain ⟨cli, hfollows, hsession⟩ := hstored
    exact ⟨⟨hsession, hfollows.toPartCopy, h.late⟩, cli, hfollows⟩

/-- A reset that was answered makes both start again. -/
theorem Served.reset (h : Served token conn content copy s) {n : NetworkAnswers} {s' : LateDaemon}
    {rewound : Nat} (hflush : copy.Flushes rewound)
    (hreset : (n.remote cfg .delayed).reset conn s = (s', .ok ())) :
    Served token conn content (copy.rewind rewound) s' := by
  rcases Transport.delayed_cases hreset with ⟨rfl, ex, -, hanswer⟩ | ⟨rfl, hanswer⟩
  · cases hanswer
  · rcases hanswer with ⟨ex, -, herror⟩ | ⟨-, hanswer⟩
    · cases herror
    · refine ⟨?_, h.partCopy.rewind hflush, h.late⟩
      have hok := relay_ok.mp hanswer.symm
      show Own token conn _ (Daemon.Srv.reset conn n.resetFlushed s.server).1
      unfold Daemon.Srv.reset Daemon.withClient at hok ⊢
      cases hcli : s.server.session conn with
      | none =>
        rw [hcli] at hok
        cases hok
      | some cli =>
        exact h.session.replace hcli (cli.reset_spec n.resetFlushed).token
          ((h.session.of_session hcli).2.restart hflush n.resetFlushed) none

end Served

/-! ## The client's side -/

namespace Halfway

variable {cfg : DaemonConfig} {ccfg : ClientSettings} {token : Text} {conn : SessionId}
  {content : Bytes} {p : Halfway} {n : NetworkAnswers} {a : LocalAnswers}

/-- What came finds a place, and when it was the end, all of the copy gets to the disk. -/
def Stores (copy : OutStream UInt8) (a : LocalAnswers) : Except Exn (Bool × Bytes) → Prop
  | .ok (cont, data) =>
      copy.Takes a.written data ∧ (cont = false → (copy.write a.written data).Flushes a.flushed)
  | .error _ => True

instance (copy : OutStream UInt8) (a : LocalAnswers) : DecidablePred (Stores copy a)
  | .ok _ => inferInstanceAs (Decidable (_ ∧ (_ = _ → _)))
  | .error _ => isTrue trivial

/-- What happens: something to the client or to the daemon it calls; or another client calls the daemon. -/
inductive CrowdEvent where
  | own (e : LateEvent)
  | other (e : DaemonEvent)

/-- A client and the daemon, and the calls of other clients. -/
def crowd (cfg : DaemonConfig) (ccfg : ClientSettings) : Machine Halfway CrowdEvent where
  step p
    | .own e => (machine cfg ccfg).step p e
    | .other e => p.serve fun s => { s with server := (Daemon.machine cfg).step s.server e }

/-- The client is at its download, and its disk takes what is written to it. Nobody else uses its token, its
connection or its session. -/
def KeepsUp (cfg : DaemonConfig) (token : Text) (conn : SessionId) (p : Halfway) : CrowdEvent → Prop
  | .own (.act n a _) =>
      p.client.mainState = .receiving ∧
        if p.caught.isSome then p.client.srcFile.Flushes a.rewound
        else p.client.stopRequested = false →
          Stores p.client.srcFile a (p.line.readChunk (n.remote cfg .delayed)).2
  | .own (.stop _) | .own (.late _) | .own (.background ..) => True
  | .other e => e.Foreign token conn p.line.server.server

instance (cfg : DaemonConfig) (token : Text) (conn : SessionId) (p : Halfway) :
    DecidablePred (KeepsUp cfg token conn p)
  | .own (.act ..) => inferInstanceAs (Decidable (_ ∧ ite _ _ (_ → _)))
  | .own (.stop _) | .own (.late _) | .own (.background ..) => isTrue trivial
  | .other e => inferInstanceAs (Decidable (e.Foreign token conn p.line.server.server))

/-- A download that begins: the daemon has opened the source for the client's session and announced its
length, and the client has opened its copy. There may be any sessions beside that one. -/
structure Begins (token : Text) (conn : SessionId) (content : Bytes) (p : Halfway) : Prop where
  mainState : p.client.mainState = .receiving
  fileLength : p.client.encSettings.fileLength = content.length
  srcFile : p.client.srcFile = .opened
  object : ∀ rpc, p.line.rpc = some rpc → rpc.conn = conn
  session : Own token conn (fun cli => cli.inFile = .opened content) p.line.server.server
  late : ∀ l ∈ p.line.server.late, Early token l.call

/-- That is what an idle client that opens its copy comes to, if the source has the length that the
database knows. -/
theorem begins_of_handle {q : Process Daemon} (hown : Own token conn (fun _ => True) q.line.server)
    (hconn : ∀ rpc, (q.handle (n.remote cfg .direct) ccfg a).line.rpc = some rpc → rpc.conn = conn)
    (hrun : q.ending = none) (hidle : q.client.mainState = .idle) (hclosed : q.client.srcFile.isOpen = false)
    (hopens : a.opens = true)
    (hstate : (q.handle (n.remote cfg .direct) ccfg a).client.mainState = .receiving) :
    ∃ name content, n.src.content name = some content ∧
      ((q.handle (n.remote cfg .direct) ccfg a).client.encSettings.fileLength = content.length →
        Begins token conn content (q.handle (n.remote cfg .direct) ccfg a).delayed) := by
  obtain ⟨l, cl, answer, hhandles, heq⟩ :=
    Process.handle_of_running (n.remote cfg .direct) ccfg a hrun
  rw [heq] at hstate hconn ⊢
  cases hhandles with
  | @idleFile l₁ l' settings _ hstop hauth hcheck hget hlength =>
    have hsame : l₁.server = q.line.server := by
      rcases Line.server_of_checkCreateRpc hcheck with heq | heq <;> exact heq
    rcases Line.server_of_call hget with ⟨-, e, herror⟩ | ⟨rpc, hrpc, hcall⟩
    · cases herror
    obtain rfl := hconn rpc ((Line.rpc_of_call hget).trans hrpc)
    rcases Fate.deliver_cases hcall with ⟨-, e, -, herror⟩ | ⟨-, e, -, herror⟩ | ⟨hserver, -, hanswer⟩
    · cases herror
    · cases herror
    have hok := relay_ok.mp hanswer.symm
    rw [relay_fst] at hserver
    rw [hsame] at hok hserver
    obtain ⟨name, content, hcontent, hsession⟩ := hown.getNextFile hok hlength
    refine ⟨name, content, hcontent, fun hfits => ⟨rfl, hfits, ?_, hconn, ?_, nofun⟩⟩
    · show q.client.srcFile.openFile a.opens = .opened
      rw [OutStream.openFile, hopens, hclosed]
      rfl
    · show Own token rpc.conn _ l.server
      rw [hserver]
      exact hsession
  | _ => simp_all [Client.Waits]

/-- How it goes on. -/
inductive Downloads (token : Text) (conn : SessionId) (content : Bytes) (p : Halfway) : Prop
  | receives (hstate : p.client.mainState = .receiving)
      (hlength : p.client.encSettings.fileLength = content.length)
      (hconn : ∀ rpc, p.line.rpc = some rpc → rpc.conn = conn)
      (hserved : Served token conn content p.client.srcFile p.line.server)
  /-- The process has ended, or will, because its object is gone. -/
  | lost (hstate : p.client.mainState = .receiving)
      (hlost : p.ending.isSome = true ∨ (p.caught.isSome = true ∧ p.line.rpc = none))
  | done (hstate : p.client.mainState = .waitForEncodingFinished)
      (hclosed : p.client.srcFile.isOpen = false) (hfile : p.client.srcFile.file = content)

theorem Begins.downloads (h : Begins token conn content p) : Downloads token conn content p := by
  refine .receives h.mainState h.fileLength h.object ⟨?_, ?_, h.late⟩ <;> rw [h.srcFile]
  · exact h.session.mono fun _ hcli _ => follows_opened hcli
  · exact partCopy_opened content

/-- A stop request changes nothing about it. -/
theorem Downloads.signal (h : Downloads token conn content p) (stop : Option Bool) :
    Downloads token conn content { p with toProcess := p.toProcess.signal stop } := by
  cases stop with
  | none => exact h
  | some forced =>
    cases h with
    | receives hstate hlength hconn hserved => exact .receives hstate hlength hconn hserved
    | lost hstate hlost => exact .lost hstate hlost
    | done hstate hclosed hfile => exact .done hstate hclosed hfile

/-- A client that shuts down leaves its copy as it is. -/
theorem Downloads.finish {q : Process LateDaemon} (h : Downloads token conn content ⟨q, none⟩)
    (r : Remote LateDaemon) : Downloads token conn content ⟨q.finish r, none⟩ := by
  rcases q.finish_cases r with heq | ⟨-, -, l, -, heq⟩
  · rw [heq]
    exact h
  · rw [heq]
    cases h with
    | receives hstate | lost hstate => exact .lost hstate (Or.inl rfl)
    | done hstate hclosed hfile =>
      have hnot : ¬ q.client.srcFile.isOpen = true := ne_true_of_eq_false hclosed
      have hleave : q.client.leave.srcFile = q.client.srcFile := if_neg hnot
      refine .done hstate ?_ ?_
      · exact (congrArg OutStream.isOpen hleave).trans hclosed
      · exact (congrArg OutStream.file hleave).trans hfile

/-- What the daemon's side keeps, `serve` keeps. -/
theorem Downloads.serve (h : Downloads token conn content p) {f : LateDaemon → LateDaemon}
    (hf : ∀ copy, Served token conn content copy p.line.server →
      Served token conn content copy (f p.line.server)) :
    Downloads token conn content (p.serve f) := by
  cases h with
  | receives hstate hlength hconn hserved => exact .receives hstate hlength hconn (hf _ hserved)
  | lost hstate hlost => exact .lost hstate hlost
  | done hstate hclosed hfile => exact .done hstate hclosed hfile

/-- A call that threw leaves the copy behind the daemon. -/
theorem served_of_error {l l' : Line LateDaemon} {copy : OutStream UInt8} {e : Exn}
    (hconn : ∀ rpc, l.rpc = some rpc → rpc.conn = conn) (hserved : Served token conn content copy l.server)
    (hread : l.readChunk (n.remote cfg .delayed) = (l', .error e)) :
    Served token conn content copy l'.server := by
  rcases Line.server_of_call hread with ⟨heq, -⟩ | ⟨rpc, hrpc, hcall⟩
  · rw [heq]
    exact hserved
  · obtain rfl := hconn rpc hrpc
    exact (hserved.readChunk hcall).1 e rfl

/-- A chunk that came is written. -/
theorem served_of_chunk {l l' : Line LateDaemon} {copy : OutStream UInt8} {cont : Bool} {data : Bytes}
    {written : WriteAnswer UInt8} (hconn : ∀ rpc, l.rpc = some rpc → rpc.conn = conn)
    (hserved : Served token conn content copy l.server)
    (hread : l.readChunk (n.remote cfg .delayed) = (l', .ok (cont, data)))
    (htakes : copy.Takes written data) :
    Served token conn content (copy.write written data) l'.server ∧
      ∃ cli, Follows content (copy.write written data) cli := by
  rcases Line.server_of_call hread with ⟨-, e, herror⟩ | ⟨rpc, hrpc, hcall⟩
  · cases herror
  · obtain rfl := hconn rpc hrpc
    exact (hserved.readChunk hcall).2 cont data written rfl htakes

/-- What the copy is when the end comes at the announced length. -/
theorem file_of_follows {cli : ConnectedClient} {copy : OutStream UInt8} {data : Bytes}
    {written : WriteAnswer UInt8} {flushed : Nat} (hfollows : Follows content (copy.write written data) cli)
    (hready : copy.Ready) (htakes : copy.Takes written data)
    (hpos : sizeT (copy.write written data).tellp = content.length)
    (hflush : (copy.write written data).Flushes flushed) :
    ((copy.write written data).close flushed).file = content := by
  have hwritten := Lib.OutStream.ready_write hready htakes
  have hlt : (copy.write written data).position < 2 ^ 64 := by
    have hlevel : (copy.write written data).position = copy.position + data.length :=
      congrArg Cursor.pos (Lib.OutStream.cursor_write hready htakes)
    rw [hlevel]
    exact Nat.lt_of_le_of_lt htakes.2 (by decide)
  rw [Lib.OutStream.tellp_ready hwritten, sizeT_natCast hlt] at hpos
  rw [Lib.OutStream.file_close hwritten.isOpen hflush]
  exact hfollows.complete hpos

/-- The client reads. -/
theorem Downloads.receiveChunk (hstate : p.client.mainState = .receiving)
    (hlength : p.client.encSettings.fileLength = content.length)
    (hconn : ∀ rpc, p.line.rpc = some rpc → rpc.conn = conn)
    (hserved : Served token conn content p.client.srcFile p.line.server)
    (hrun : ¬ p.ending.isSome = true) (hcaught : p.caught = none)
    (hstop : p.client.stopRequested = false)
    (hstores : Stores p.client.srcFile a (p.line.readChunk (n.remote cfg .delayed)).2)
    (stop : Option Bool) :
    Downloads token conn content (p.act (n.remote cfg .delayed) ccfg a stop) := by
  have htry : p.client.attempt (n.remote cfg .delayed) ccfg a p.line
      = p.client.receiveChunk (n.remote cfg .delayed) ccfg a p.line := by
    simp only [Client.attempt, hstate, hstop, Bool.false_eq_true, if_false]
  -- with or without an exception
  have hact : ∀ {l cl answer}, p.client.receiveChunk (n.remote cfg .delayed) ccfg a p.line = (l, cl, answer) →
      (∀ ending caught, (answer = .ok () ∨ caught.isSome = true) →
        Downloads token conn content ⟨⟨cl, l, ending⟩, caught⟩) →
      Downloads token conn content (p.act (n.remote cfg .delayed) ccfg a stop) := by
    intro l cl answer heq hafter
    cases answer with
    | ok =>
      rw [act_of_attempt hrun hcaught (htry.trans heq)]
      exact ((hafter _ none (Or.inl rfl)).signal stop).finish _
    | error e =>
      rw [act_of_attempt_error hrun hcaught (htry.trans heq)]
      exact hafter none (some e) (Or.inr rfl)
  have hafter : ∀ {l' answer}, p.line.readChunk (n.remote cfg .delayed) = (l', answer) →
      ∀ rpc, l'.rpc = some rpc → rpc.conn = conn :=
    fun hread rpc hrpc => hconn rpc ((Line.rpc_of_call hread).symm.trans hrpc)
  rcases p.client.receiveChunk_cases (n.remote cfg .delayed) ccfg a p.line with
    ⟨l', e, hread, heq⟩ | ⟨l', cont, data, hread, ⟨answer, heq⟩ | ⟨rfl, hpos, cl', answer, heq,
      hfile, -, -, hstate'⟩⟩
  · exact hact heq fun _ _ _ => .receives hstate hlength (hafter hread) (served_of_error hconn hserved hread)
  · rw [hread] at hstores
    exact hact heq fun _ _ _ =>
      .receives hstate hlength (hafter hread) (served_of_chunk hconn hserved hread hstores.1).1
  · rw [hread] at hstores
    obtain ⟨-, cli, hfollows⟩ := served_of_chunk hconn hserved hread hstores.1
    have hcopied : cl'.srcFile.file = content := by
      rw [hfile]
      exact file_of_follows hfollows hserved.partCopy.ready hstores.1 (hpos.trans hlength) (hstores.2 rfl)
    have hclosed : cl'.srcFile.isOpen = false := by
      rw [hfile]
      exact OutStream.isOpen_close ..
    refine hact heq fun ending caught hanswer => ?_
    rcases hstate' with ⟨-, hdone⟩ | ⟨⟨e, rfl⟩, hsame⟩
    · exact .done hdone hclosed hcopied
    · -- the encoder did not start, and the object is gone
      exact .lost (hsame.trans hstate) (Or.inr ⟨hanswer.resolve_left (fun hans => by cases hans), rfl⟩)

/-- The client starts over, or its process ends. -/
theorem Downloads.reset (hstate : p.client.mainState = .receiving)
    (hlength : p.client.encSettings.fileLength = content.length)
    (hconn : ∀ rpc, p.line.rpc = some rpc → rpc.conn = conn)
    (hserved : Served token conn content p.client.srcFile p.line.server)
    (hrun : ¬ p.ending.isSome = true) {e : Exn} (hcaught : p.caught = some e)
    (hflush : p.client.srcFile.Flushes a.rewound) (stop : Option Bool) :
    Downloads token conn content (p.act (n.remote cfg .delayed) ccfg a stop) := by
  cases hreset : p.line.reset (n.remote cfg .delayed) with
  | mk l answer =>
    have hrecover : p.client.recover (n.remote cfg .delayed) a p.line e
        = (l, { p.client with srcFile := p.client.srcFile.rewind a.rewound }, answer) := by
      simp only [Client.recover, hstate, hreset]
    rw [act_of_caught hrun hcaught hrecover]
    refine (Downloads.signal (p := ⟨⟨_, l, _⟩, none⟩) ?_ stop).finish _
    cases answer with
    | error e' =>
      refine .lost hstate (Or.inl ?_)
      show (Process.outcome l (.error e')).isSome = true
      unfold Process.outcome
      cases l.crashed <;> rfl
    | ok =>
      rcases Line.server_of_call hreset with ⟨-, e, herror⟩ | ⟨rpc, hrpc, hcall⟩
      · cases herror
      · obtain rfl := hconn rpc hrpc
        refine .receives hstate hlength (fun rpc' hrpc' => ?_) (hserved.reset hflush hcall)
        exact hconn rpc' ((Line.rpc_of_call hreset).symm.trans hrpc')

theorem Downloads.act (h : Downloads token conn content p) {stop : Option Bool}
    (hg : KeepsUp cfg token conn p (.own (.act n a stop))) :
    Downloads token conn content (p.act (n.remote cfg .delayed) ccfg a stop) := by
  by_cases hrun : p.ending.isSome = true
  · rw [act_of_ended hrun]
    exact h
  obtain ⟨hreceiving, hg⟩ := hg
  cases hcaught : p.caught with
  | none =>
    simp only [hcaught, Option.isSome_none, Bool.false_eq_true, if_false] at hg
    cases h with
    | receives hstate hlength hconn hserved =>
      cases hstop : p.client.stopRequested with
      | false =>
        exact Downloads.receiveChunk hstate hlength hconn hserved hrun hcaught hstop (hg hstop) stop
      | true =>
        have htry : p.client.attempt (n.remote cfg .delayed) ccfg a p.line
            = (p.line, { p.client with shutdown := true }, .ok ()) := by
          simp only [Client.attempt, hstate, hstop, if_true]
        rw [act_of_attempt hrun hcaught htry]
        refine (Downloads.signal (p := ⟨⟨_, _, _⟩, none⟩) ?_ stop).finish _
        exact .receives hstate hlength hconn hserved
    | lost hstate hlost =>
      have hsome := (hlost.resolve_left hrun).1
      rw [hcaught] at hsome
      cases hsome
    | done hstate => cases hstate.symm.trans hreceiving
  | some e =>
    simp only [hcaught, Option.isSome_some, if_true] at hg
    cases h with
    | receives hstate hlength hconn hserved =>
      exact Downloads.reset hstate hlength hconn hserved hrun hcaught hg stop
    | lost hstate hlost =>
      obtain ⟨-, hrpc⟩ := hlost.resolve_left hrun
      have hreset : p.line.reset (n.remote cfg .delayed)
          = ({ p.line with crashed := true }, .error (.runtimeError "null pointer".toList)) :=
        Line.call_of_none hrpc
      have hrecover : p.client.recover (n.remote cfg .delayed) a p.line e
          = ({ p.line with crashed := true },
              { p.client with srcFile := p.client.srcFile.rewind a.rewound },
              .error (.runtimeError "null pointer".toList)) := by
        simp only [Client.recover, hstate, hreset]
      rw [act_of_caught hrun hcaught hrecover]
      refine (Downloads.signal (p := ⟨⟨_, _, _⟩, none⟩) ?_ stop).finish _
      exact .lost hstate (Or.inl rfl)
    | done hstate => cases hstate.symm.trans hreceiving

/-- However its calls fail, whenever those given up run, and whatever others call, a client that goes on to
encode has a copy of the source. -/
theorem download_intact (cfg : DaemonConfig) (ccfg : ClientSettings) (hp : Begins token conn content p)
    {es : List CrowdEvent} (hes : (crowd cfg ccfg).Along (KeepsUp cfg token conn) p es)
    (hdone : ((crowd cfg ccfg).run p es).client.mainState = .waitForEncodingFinished) :
    ((crowd cfg ccfg).run p es).client.srcFile.file = content := by
  have hdownloads : Downloads token conn content ((crowd cfg ccfg).run p es) := by
    refine (crowd cfg ccfg).invariant (P := Downloads token conn content) ?_ hp.downloads hes
    intro p e h hg
    cases e with
    | own e =>
      cases e with
      | act n a stop => exact h.act hg
      | stop forced => exact h.signal (some forced)
      | late i => exact h.serve fun _ hserved => hserved.runLate i
      | background e he =>
        exact h.serve (f := fun s => { s with server := (Daemon.machine cfg).step s.server e })
          fun _ hserved => hserved.background he
    | other e =>
      exact h.serve (f := fun s => { s with server := (Daemon.machine cfg).step s.server e })
        fun _ hserved => hserved.foreign hg
  cases hdownloads with
  | receives hstate | lost hstate => cases hstate.symm.trans hdone
  | done hstate hclosed hfile => exact hfile

/-- A daemon with two sessions, of which the first has been given a file of two bytes. -/
def sourceOpened : Daemon :=
  (Daemon.machine gCfg).run (.start .empty)
    [.fileSystemChange (fun name => if name = "a.mov".toList then some 2 else none) .fileDiscovered
      "a.mov".toList,
     .authenticate 1 ⟨0, .zero⟩ "3".toList, .authenticate 2 ⟨0, .zero⟩ "5".toList,
     .getNextFile 1 .first ⟨fun _ => some [7, 8], fun _ => some .zero⟩ ⟨[], 0⟩]

/-- The client that has the file. -/
def granted : Halfway where
  client :=
    { Client.start 3 with
      mainState := .receiving
      authenticated := true
      encSettings := { noSettings with fileLength := 2 }
      srcFile := .opened }
  line := ⟨some ⟨1, true⟩, false, [], .start sourceOpened⟩
  ending := none
  caught := none

/-- A step in which everything works, and one in which a read is given up. -/
def smoothly : CrowdEvent := .own (.act (.working 1) (.working []) none)

def readGivenUp : CrowdEvent :=
  .own (.act { NetworkAnswers.working 1 with readFate := .lost (.rpcTimeout []) } (.working []) none)

/-- The first read is given up, and runs when the client has started over. The client misses a byte, learns
of it at the end and starts over again. Meanwhile the other client comes back over another connection, and
finds no file. -/
theorem download_intact_late_read :
    let p := (crowd gCfg .gCfg).run granted
      [readGivenUp, smoothly, .own (.late 0), .other (.authenticate 3 ⟨0, .zero⟩ "5".toList), smoothly,
       smoothly, .other (Daemon.fetches 3), smoothly, smoothly, smoothly, smoothly]
    p.client.mainState = .waitForEncodingFinished ∧ p.client.srcFile.file = [7, 8] := by
  intro p
  have hsession : Own "3".toList 1 (fun cli => cli.inFile = .opened [7, 8]) sourceOpened := by
    refine ⟨Daemon.tokensUnique_run gCfg .empty _, by decide, fun r hr => ?_⟩
    rcases List.mem_cons.mp hr with rfl | hr
    · exact fun _ => rfl
    · rw [List.mem_singleton.mp hr]
      exact fun htoken => absurd htoken (by decide)
  have hbegins : Begins "3".toList 1 [7, 8] granted := by
    refine ⟨rfl, rfl, rfl, fun rpc hrpc => ?_, hsession, nofun⟩
    obtain rfl := Option.some.inj hrpc
    rfl
  have hdone : p.client.mainState = .waitForEncodingFinished := by decide +kernel
  exact ⟨hdone, download_intact gCfg .gCfg hbegins (by decide +kernel) hdone⟩

end Halfway

end MediaArchiver
