/-
# MediaArchiver.Client.LateChunks -- an upload when chunks may come late

A chunk says nothing about where it belongs; the daemon appends it where the session is. A chunk that was
given up and runs after the client has gone on is therefore appended at the wrong place, and the chunks
after it are shifted. The only check is that of the length.

A late chunk does no harm if it runs before the client sends anything else: it is the next piece then, and
the reset that follows takes it back. Nor does one that is just what is left of the file that the client
sends, as every chunk of a file that fits into one is: it ends the upload. `Orderly` leaves out every other
late chunk that is taken and has bytes, and a late `getNextFile` that gives the session of a transmitting
client another file. In every run without these, whatever upload a step queues is the file of the client that transmits (`upload_intact_run`).
With one, a file that is as long as the client's but not the same may be queued (`chunk_twice`).
-/
import MediaArchiver.Client.LateCalls

namespace MediaArchiver

open Lib (Machine InStream Delayed Late maxOffset)
open Daemon (Adds Sole Srv.step_postFile Srv.step_writeChunk Srv.step_reset)
open ConnectedClient (PartAt)
open Client (Fits Prepared)

universe u

/-- The result that announces an encoded file. -/
abbrev announced (content : Bytes) : EncodingResultInfo :=
  (MediaArchiverClient.encoded content).encResult

/-! ## The daemon's side -/

/-- A daemon whose session is sent the file, with the calls to it. A chunk after which the client made no
call belongs where the session is. -/
structure Uploading (token : Text) (content : Bytes) (X : Nat → Prop) (s : LateDaemon) : Prop
    extends Awaited token s where
  kept : ∀ l ∈ s.late, ¬ l.call.TakesBack
  next : ∀ l ∈ s.late, s.Fresh l → ∀ data, l.call.chunk = some data →
    ∀ pos, X pos → data.bytes <+: content.drop pos
  part : Sole token (PartAt content (announced content) X) s.server

/-- No chunk was the last call. -/
def NoChunk (s : LateDaemon) : Prop := ∀ l ∈ s.late, s.Fresh l → l.call.chunk = none

theorem NoChunk.runLate {s : LateDaemon} (h : NoChunk s) {cfg : DaemonConfig} {i : Nat} :
    NoChunk (s.runLate (Daemon.machine cfg).step i) := by
  intro l hl hfresh
  rw [Delayed.Fresh, Delayed.sent_runLate] at hfresh
  exact h l (Delayed.mem_late_runLate hl) hfresh

section Uploading

variable {cfg : DaemonConfig} {token : Text} {content : Bytes} {X Y : Nat → Prop} {s s' : LateDaemon}
  {n : NetworkAnswers} {id : SessionId}

/-- Where the session is does not matter as long as no chunk belongs there. -/
theorem Uploading.mono (h : Uploading token content X s) (hnoChunk : NoChunk s)
    (hXY : ∀ pos, X pos → Y pos) : Uploading token content Y s := by
  refine ⟨h.toAwaited, h.kept, ?_, h.part.mono fun _ _ hcli => hcli.mono hXY⟩
  intro l hl hfresh data hdata
  cases (hnoChunk l hl hfresh).symm.trans hdata

/-- The client sends the next chunk. If it learns that the chunk was taken, it knows where the session
is. -/
theorem Uploading.writeChunk (h : Uploading token content X s) (data : DataChunk)
    (hlen : (announced content).fileLength.toNat = content.length)
    (hfiles : Link.Arrives n.writeFate = true →
      (DaemonEvent.writeChunk id n.written n.flushed data).FilesWork s.server)
    (hnext : ∀ pos, X pos → data.bytes <+: content.drop pos)
    (hY : ∀ pos, X pos → Y (pos + data.size)) {answer : Except Exn Bool}
    (hwrite : (n.remote cfg .delayed).writeChunk id data.bytes s = (s', answer)) :
    Adds (Carries content) s.server s'.server ∧ (∃ Z, Uploading token content Z s') ∧
      ∀ res, answer = .ok res → Uploading token content Y s' ∧ NoChunk s' := by
  have hdeliver : Transport.delayed.deliver n.writeFate (.writeChunk id n.written n.flushed data)
      (relay n.writeRefused (Daemon.Srv.writeChunk cfg id n.written n.flushed data.bytes)) s
        = (s', answer) := by
    rw [← hwrite]
    simp only [NetworkAnswers.remote, data.size_lt, dif_pos]
  obtain ⟨hmakes, hok⟩ := makes_of_deliver cfg (Srv.step_writeChunk n.written n.flushed data) hdeliver
  obtain ⟨hawaited, -, hlate⟩ := h.toAwaited.makes hmakes trivial hfiles
  have hkept : ∀ l ∈ s'.late, ¬ l.call.TakesBack := by
    intro l hl
    rcases hlate l hl with ⟨hl, -⟩ | heq
    · exact h.kept l hl
    · rw [heq]
      exact not_false
  cases hmakes with
  | late =>
    refine ⟨Adds.of_eq rfl, ⟨X, hawaited, hkept, ?_, h.part⟩, ?_⟩
    · intro l hl hfresh data' hdata
      rcases hlate l hl with ⟨-, hold⟩ | heq
      · exact absurd hfresh hold
      · rw [heq] at hdata
        obtain rfl := Option.some.inj hdata
        exact hnext
    · intro res hans
      have hsent := congrArg (·.late.length) (hok res hans).2.2
      simp [Delayed.giveUp] at hsent
  | runs hruns =>
    obtain ⟨hpart, hadds, htaken⟩ := h.part.writeNext cfg hlen (hfiles hruns) hnext hY
    -- no other call is the last one
    have hnone : NoChunk ⟨(Daemon.machine cfg).step s.server (.writeChunk id n.written n.flushed data),
        s.sent + 1, s.late⟩ := fun l hl hfresh => absurd hfresh (h.numbered.not_fresh rfl hl)
    refine ⟨hadds, ⟨fun _ => True, hawaited, hkept, ?_, hpart⟩, ?_⟩
    · intro l hl hfresh data' hdata
      cases (hnone l hl hfresh).symm.trans hdata
    · intro res hans
      refine ⟨⟨hawaited, hkept, ?_, htaken res (hok res hans).2.1⟩, hnone⟩
      intro l hl hfresh data' hdata
      cases (hnone l hl hfresh).symm.trans hdata

/-- The client resets the session, whatever it was doing. -/
theorem Awaited.reset (h : Awaited token s)
    (hfiles : Link.Arrives n.resetFate = true →
      (DaemonEvent.reset id n.resetFlushed).FilesWork s.server) {answer : Except Exn Unit}
    (hreset : (n.remote cfg .delayed).reset id s = (s', answer)) :
    Awaited token s' ∧ Adds (fun move => ¬ move.result.Uploads) s.server s'.server ∧ NoChunk s' ∧
      (answer = .ok () → Link.Arrives n.resetFate = true
        ∧ (Daemon.Srv.reset id n.resetFlushed s.server).2 = .ok ()
        ∧ s' = ⟨(Daemon.machine cfg).step s.server (.reset id n.resetFlushed), s.sent + 1, s.late⟩) := by
  obtain ⟨hmakes, hok⟩ := makes_of_deliver cfg (Srv.step_reset n.resetFlushed) hreset
  obtain ⟨hawaited, hadds, hlate⟩ := h.makes hmakes trivial hfiles
  refine ⟨hawaited, hadds.mono fun move hmove => hmove trivial, ?_, hok ()⟩
  intro l hl hfresh
  rcases hlate l hl with ⟨-, hold⟩ | heq
  · exact absurd hfresh hold
  · rw [heq]
    rfl

/-- If the client learns of it, the session waits for the first chunk again. -/
theorem Uploading.reset (h : Uploading token content X s)
    (hfiles : (DaemonEvent.reset id n.resetFlushed).FilesWork s.server)
    (hok : (Daemon.Srv.reset id n.resetFlushed s.server).2 = .ok ())
    (hs' : s' = ⟨(Daemon.machine cfg).step s.server (.reset id n.resetFlushed), s.sent + 1, s.late⟩)
    (hawaited : Awaited token s') (hnoChunk : NoChunk s') : Uploading token content (· = 0) s' := by
  subst hs'
  refine ⟨hawaited, h.kept, ?_, h.part.reset cfg hfiles hok⟩
  intro l hl hfresh data hdata
  cases (hnoChunk l hl hfresh).symm.trans hdata

/-- A late call runs, and the session is at a place where it may have been before. -/
theorem Uploading.runLate (h : Uploading token content X s) {i : Nat}
    (hfiles : ∀ l ∈ s.late[i]?, l.call.FilesWork s.server)
    (hpart : Sole token (PartAt content (announced content) X)
      (s.runLate (Daemon.machine cfg).step i).server) :
    Uploading token content X (s.runLate (Daemon.machine cfg).step i) := by
  refine ⟨(h.toAwaited.runLate cfg hfiles).1, ?_, ?_, hpart⟩
  · exact fun l hl => h.kept l (Delayed.mem_late_runLate hl)
  · intro l hl hfresh
    rw [Delayed.Fresh, Delayed.sent_runLate] at hfresh
    exact h.next l (Delayed.mem_late_runLate hl) hfresh

/-- A late call runs of which nothing is taken. -/
theorem Uploading.idles (h : Uploading token content X s) {i : Nat}
    (hfiles : ∀ l ∈ s.late[i]?, l.call.FilesWork s.server)
    (hidles : ∀ l ∈ s.late[i]?, l.call.Idles s.server)
    (hnothing : ∀ l ∈ s.late[i]?, l.call.GetsNothing cfg s.server) :
    Uploading token content X (s.runLate (Daemon.machine cfg).step i) := by
  refine h.runLate hfiles ?_
  apply Delayed.runLate_server (P := Sole token _) ?_ h.part
  intro l hl
  have hmem := List.mem_of_getElem? hl
  exact h.part.idles (h.made l hmem) (h.kept l hmem) (hfiles l hl) (hidles l hl) (hnothing l hl)

/-- A late chunk runs that is the rest of the file. -/
theorem Uploading.ends (h : Uploading token content X s) (cfg : DaemonConfig)
    (hlen : (announced content).fileLength.toNat = content.length) {i : Nat} {l : Late DaemonEvent}
    (hl : s.late[i]? = some l) (hends : l.call.Ends content s.server)
    (hfiles : ∀ l ∈ s.late[i]?, l.call.FilesWork s.server) :
    Uploading token content X (s.runLate (Daemon.machine cfg).step i)
      ∧ Adds (Carries content) s.server (s.runLate (Daemon.machine cfg).step i).server := by
  have hruns : (s.runLate (Daemon.machine cfg).step i).server
      = (Daemon.machine cfg).step s.server l.call := by
    unfold Delayed.runLate
    rw [hl]
  obtain ⟨hpart, hadds⟩ := h.part.ends cfg hlen (hfiles l hl) hends
  rw [← hruns] at hpart hadds
  exact ⟨h.runLate hfiles hpart, hadds⟩

/-- A late chunk runs after which the client made no call. -/
theorem Uploading.piece (h : Uploading token content X s) (cfg : DaemonConfig)
    (hlen : (announced content).fileLength.toNat = content.length) {i : Nat} {l : Late DaemonEvent}
    (hl : s.late[i]? = some l) (hfresh : s.Fresh l) (hchunk : l.call.chunk ≠ none)
    (hfiles : ∀ l ∈ s.late[i]?, l.call.FilesWork s.server) :
    Uploading token content (fun _ => True) (s.runLate (Daemon.machine cfg).step i)
      ∧ Adds (Carries content) s.server (s.runLate (Daemon.machine cfg).step i).server := by
  have hawaited := (h.toAwaited.runLate cfg hfiles).1
  have hkept : ∀ l ∈ (s.runLate (Daemon.machine cfg).step i).late, ¬ l.call.TakesBack :=
    fun l hl => h.kept l (Delayed.mem_late_runLate hl)
  have hruns : (s.runLate (Daemon.machine cfg).step i).server
      = (Daemon.machine cfg).step s.server l.call := by
    unfold Delayed.runLate
    rw [hl]
  have hnext := h.next l (List.mem_of_getElem? hl) hfresh
  have hworks := hfiles l hl
  have hpiece : Sole token (PartAt content (announced content) fun _ => True)
        ((Daemon.machine cfg).step s.server l.call)
      ∧ Adds (Carries content) s.server ((Daemon.machine cfg).step s.server l.call) := by
    cases hcall : l.call with
    | writeChunk id written flushed data =>
      rw [hcall] at hnext hworks
      obtain ⟨hpart, hadds, -⟩ := h.part.writeNext (Y := fun _ => True) cfg hlen hworks (hnext data rfl)
        fun _ _ => trivial
      exact ⟨hpart, hadds⟩
    | _ =>
      rw [hcall] at hchunk
      exact absurd rfl hchunk
  rw [← hruns] at hpiece
  refine ⟨⟨hawaited, hkept, ?_, hpiece.1⟩, hpiece.2⟩
  intro l' hl' hfresh'
  exact absurd hfresh' (h.numbered.not_fresh_runLate hl hfresh hl')

theorem Uploading.background (h : Uploading token content X s) (cfg : DaemonConfig) {e : DaemonEvent}
    (he : e.Background) :
    Uploading token content X { s with server := (Daemon.machine cfg).step s.server e } :=
  ⟨h.toAwaited.background cfg he, h.kept, h.next,
    h.part.of_connections (Daemon.connections_background cfg he)⟩

/-- The result was accepted. -/
theorem Quiet.accepted {d : Daemon} (h : Quiet token d s') (hup : (announced content).Uploads)
    (horder : Daemon.InOrder token s.server)
    (hpost : (n.remote cfg .delayed).postFile id (announced content) s = (s', .ok ())) :
    Uploading token content (· = 0) s' := by
  obtain ⟨-, hok⟩ := makes_of_deliver cfg (Srv.step_postFile n.opens (announced content)) hpost
  obtain ⟨-, hanswer, rfl⟩ := hok () rfl
  refine ⟨h.toAwaited, h.kept, ?_, horder.accepted cfg hup hanswer⟩
  intro l hl hfresh data hdata
  cases (h.noChunk l hl hfresh).symm.trans hdata

end Uploading

/-! ## The client's side -/

namespace Client

variable {σ : Type u} {r : Remote σ} {cfg : ClientSettings} {a : LocalAnswers} {l : Line σ} {cl : Client}

variable (r cfg a l) in
/-- The chunk is what the client tries to send. -/
theorem attempt_eq_transmitChunk (hstate : cl.mainState = .transmitting) :
    cl.attempt r cfg a l
      = ((cl.toMediaArchiverClient.transmitChunk (Line.iServer r) cfg.toClientConfig a.memory l).1,
        { cl with
          toMediaArchiverClient :=
            (cl.toMediaArchiverClient.transmitChunk (Line.iServer r) cfg.toClientConfig a.memory l).2.1 },
        (cl.toMediaArchiverClient.transmitChunk (Line.iServer r) cfg.toClientConfig a.memory l).2.2) := by
  simp only [attempt, hstate]

variable (r l) in
/-- Without a chunk nothing is sent. -/
theorem attempt_lacking (hstate : cl.mainState = .transmitting)
    (hmem : ¬ DataChunk.Allocates a.memory cfg.chunkSize) :
    ∃ e, cl.attempt r cfg a l = (l, cl, .error e) := by
  obtain ⟨e, htry⟩ := MediaArchiverClient.transmitChunk_of_not_allocates (Line.iServer r)
    cfg.toClientConfig hmem l cl.toMediaArchiverClient
  refine ⟨e, ?_⟩
  rw [attempt_eq_transmitChunk r cfg a l hstate, htry]

variable (r l) in
/-- A chunk is read and sent. Either something fails, or the chunk was answered. -/
theorem attempt_transmitting (hstate : cl.mainState = .transmitting)
    (hmem : DataChunk.Allocates a.memory cfg.chunkSize) :
    ∃ l' answer, l.writeChunk r (cl.dstFile.read cfg.chunkSize).2 = (l', answer) ∧
      ((∃ e, cl.attempt r cfg a l
          = (l', { cl with dstFile := (cl.dstFile.read cfg.chunkSize).1 }, .error e)) ∨
        ∃ res, answer = .ok res ∧
          (((cl.dstFile.read cfg.chunkSize).1.eofbit = false ∧ cl.attempt r cfg a l
              = (l', { cl with dstFile := (cl.dstFile.read cfg.chunkSize).1 }, .ok ())) ∨
            ∃ cl', cl'.mainState = .idle ∧ cl.attempt r cfg a l = (l', cl', .ok ()))) := by
  rw [attempt_eq_transmitChunk r cfg a l hstate]
  cases hwrite : (Line.iServer r).writeChunk l (cl.dstFile.read cfg.chunkSize).2 with
  | mk l' answer =>
    refine ⟨l', answer, hwrite, ?_⟩
    simp only [MediaArchiverClient.transmitChunk, DataChunk.allocate_of_allocates hmem, hwrite]
    cases answer with
    | error e => exact Or.inl ⟨e, rfl⟩
    | ok res =>
      by_cases heof : (cl.dstFile.read cfg.chunkSize).1.eofbit = true
      · simp only [heof, if_true]
        cases res with
        | true => exact Or.inl ⟨_, rfl⟩
        | false => exact Or.inr ⟨_, rfl, Or.inr ⟨_, rfl, rfl⟩⟩
      · simp only [heof]
        exact Or.inr ⟨res, rfl, Or.inl ⟨by simp, rfl⟩⟩

variable (r a l) in
/-- Sending starts from the beginning if the session does. -/
theorem recover_transmitting (hstate : cl.mainState = .transmitting) (e₀ : Exn) :
    ∃ l' answer, l.reset r = (l', answer) ∧
      ((∃ e cl', answer = .error e ∧ cl.recover r a l e₀ = (l', cl', .error e)) ∨
        (answer = .ok () ∧ cl.recover r a l e₀
          = (l', { cl with dstFile := cl.dstFile.rewind.clear }, .ok ()))) := by
  have hreset : (Line.iServer r).reset l = l.reset r := rfl
  simp only [recover, hstate, MediaArchiverClient.restartTransmission, hreset]
  cases l.reset r with
  | mk l' answer =>
    cases answer with
    | error e => exact ⟨l', _, rfl, Or.inl ⟨e, _, rfl, rfl⟩⟩
    | ok => exact ⟨l', _, rfl, Or.inr ⟨rfl, rfl⟩⟩

end Client

/-- What a chunk that was read is to the session. -/
theorem next_of_read {s : InStream UInt8} (hready : s.Ready) (k : Nat) :
    ∀ pos, (pos = s.offset ∨ s.offset = s.file.length) →
      (s.read k).2 <+: s.file.drop pos ∧
        (pos + (s.read k).2.length = (s.read k).1.offset ∨ (s.read k).1.offset = s.file.length) := by
  obtain ⟨hnext, hoffset⟩ := InStream.read_next hready k
  rintro pos (rfl | hend)
  · exact ⟨hnext, Or.inl hoffset.symm⟩
  · -- nothing is left to be read
    rw [hend, List.drop_length, List.prefix_nil] at hnext
    rw [hnext] at hoffset ⊢
    exact ⟨List.nil_prefix, Or.inr (hoffset.trans hend)⟩

namespace Halfway

/-- The file that the client uploads. -/
abbrev content (p : Halfway) : Bytes := p.client.dstFile.file

/-- How far an upload is. -/
inductive Phase (token : Text) (ccfg : ClientSettings) (p : Halfway) : Prop
  /-- There is none. -/
  | apart (hapart : p.ending.isSome = true ∨ p.client.mainState ≠ .transmitting)
      (hnoChunk : NoChunk p.line.server)
  /-- The session is where the client is, or the client is at the end of its file. -/
  | sends (hrun : p.ending = none) (hstate : p.client.mainState = .transmitting)
      (hcaught : p.caught = none) {rpc : Rpc} (hrpc : p.line.rpc = some rpc)
      (hready : p.client.dstFile.Ready) (hmax : p.content.length ≤ maxOffset)
      (huploading : Uploading token p.content (fun pos =>
        pos = p.client.dstFile.offset ∨ p.client.dstFile.offset = p.content.length) p.line.server)
      (hnoChunk : NoChunk p.line.server)
  /-- Something failed, with a chunk read or without, and the client is about to start over. -/
  | restarts {X : Nat → Prop} {s : InStream UInt8} (hrun : p.ending = none)
      (hstate : p.client.mainState = .transmitting) (hcaught : p.caught.isSome = true) {rpc : Rpc}
      (hrpc : p.line.rpc = some rpc) (hready : s.Ready)
      (hread : p.client.dstFile = s ∨ p.client.dstFile = (s.read ccfg.chunkSize).1)
      (hmax : p.content.length ≤ maxOffset) (huploading : Uploading token p.content X p.line.server)

/-- What holds at any time: the calls are the client's and do not disturb an upload that goes on, and a
client that runs has what it announces. -/
structure Intact (token : Text) (ccfg : ClientSettings) (p : Halfway) : Prop where
  awaited : Awaited token p.line.server
  running : p.ending = none → p.client.Prepared token ∧ ∀ l ∈ p.line.server.late, ¬ l.call.TakesBack
  phase : Phase token ccfg p

/-- What a step adds to the queue. -/
def Gains (R : FileToMove → Prop) (p q : Halfway) : Prop :=
  Adds R p.line.server.server q.line.server.server

/-- In a step the mover took entries at most, or there are new ones: an upload among them is one of the client
that transmits, and its temp file is the client's file. -/
def QueuesOwn (p q : Halfway) : Prop :=
  q.line.server.server.filesToMove <:+ p.line.server.server.filesToMove ∨
    Gains (fun move => move.result.Uploads →
      p.client.mainState = .transmitting ∧ move.tmp.content = p.content) p q

/-- No file operation fails. -/
def FilesWork (ccfg : ClientSettings) (p : Halfway) : LateEvent → Prop
  | .act n a _ =>
      Fits a ∧ ∀ rpc ∈ p.line.rpc,
        if p.caught.isSome then
          Link.Arrives n.resetFate = true →
            (DaemonEvent.reset rpc.conn n.resetFlushed).FilesWork p.line.server.server
        else
          p.client.mainState = .transmitting → Link.Arrives n.writeFate = true →
            ∀ hsize : (p.client.dstFile.read ccfg.chunkSize).2.length < 2 ^ 63,
              (DaemonEvent.writeChunk rpc.conn n.written n.flushed
                ⟨(p.client.dstFile.read ccfg.chunkSize).2, hsize⟩).FilesWork p.line.server.server
  | .late i => ∀ l ∈ p.line.server.late[i]?, l.call.FilesWork p.line.server.server
  | .stop _ | .background .. => True

/-- The client uploads a file, and the call is what the session has not got of it yet. -/
def Completes (p : Halfway) (call : DaemonEvent) : Prop :=
  p.ending = none ∧ p.client.mainState = .transmitting ∧ call.Ends p.content p.line.server.server

instance (p : Halfway) : DecidablePred (Completes p) :=
  fun _ => inferInstanceAs (Decidable (_ ∧ _ ∧ _))

/-- A late chunk that runs is the last call that was made, or nothing is taken of it, or it completes the
client's upload; and a late `getNextFile` gets nothing while the client transmits. -/
def Orderly (cfg : DaemonConfig) (p : Halfway) : LateEvent → Prop
  | .late i =>
      ∀ l ∈ p.line.server.late[i]?,
        (p.line.server.Fresh l ∨ l.call.Idles p.line.server.server ∨ p.Completes l.call) ∧
          (p.ending = none → p.client.mainState = .transmitting →
            l.call.GetsNothing cfg p.line.server.server)
  | .act .. | .stop _ | .background .. => True

instance (ccfg : ClientSettings) (p : Halfway) : DecidablePred (FilesWork ccfg p)
  | .act .. => inferInstanceAs (Decidable (_ ∧ ∀ rpc ∈ p.line.rpc, ite _ _ _))
  | .late i => inferInstanceAs (Decidable (∀ l ∈ p.line.server.late[i]?, _))
  | .stop _ | .background .. => isTrue trivial

instance (cfg : DaemonConfig) (p : Halfway) : DecidablePred (Orderly cfg p)
  | .late i =>
      inferInstanceAs (Decidable (∀ l ∈ p.line.server.late[i]?, (_ ∨ _ ∨ _) ∧ (_ = _ → _ = _ → _)))
  | .act .. | .stop _ | .background .. => isTrue trivial

section Intact

variable {cfg : DaemonConfig} {ccfg : ClientSettings} {token : Text} {p : Halfway} {n : NetworkAnswers}
  {a : LocalAnswers} {R S : FileToMove → Prop}

theorem Phase.noChunk (h : Phase token ccfg p) (hcaught : p.caught = none) : NoChunk p.line.server := by
  cases h with
  | apart hapart hnoChunk => exact hnoChunk
  | sends hrun hstate hnone hrpc hready hmax huploading hnoChunk => exact hnoChunk
  | restarts hrun hstate hsome =>
    rw [hcaught] at hsome
    cases hsome

/-- A client that transmits has caught nothing, or is about to start over. -/
theorem Phase.apart_of (h : Phase token ccfg p) (hapart : p.client.mainState ≠ .transmitting) :
    NoChunk p.line.server := by
  cases h with
  | apart _ hnoChunk => exact hnoChunk
  | sends hrun hstate | restarts hrun hstate => exact absurd hstate hapart

section Phase

variable {cl : Client} {l : Line LateDaemon} {rpc : Rpc} {file : Bytes}

/-- The client transmits a file, and the session is where it is. -/
theorem phase_sends (hstate : cl.mainState = .transmitting) (hrpc : l.rpc = some rpc)
    (hready : cl.dstFile.Ready) (hfile : cl.dstFile.file = file) (hmax : file.length ≤ maxOffset)
    (huploading : Uploading token file (fun pos =>
      pos = cl.dstFile.offset ∨ cl.dstFile.offset = file.length) l.server)
    (hnoChunk : NoChunk l.server) : Phase token ccfg ⟨⟨cl, l, none⟩, none⟩ := by
  subst hfile
  exact .sends rfl hstate rfl hrpc hready hmax huploading hnoChunk

/-- Reading does not change the file. -/
theorem file_of_read {s t : InStream UInt8} {k : Nat} (h : t = s ∨ t = (s.read k).1) : t.file = s.file := by
  rcases h with rfl | rfl
  · rfl
  · exact InStream.file_read ..

/-- Going back to the start leads there, or the stream stays at its end. -/
theorem offset_of_read {s t : InStream UInt8} {k : Nat} (hready : s.Ready)
    (h : t = s ∨ t = (s.read k).1) :
    t.rewind.clear.Ready ∧ (t.rewind.clear.offset = 0 ∨ t.rewind.clear.offset = s.file.length) := by
  rcases h with rfl | rfl
  · exact ⟨InStream.ready_rewind hready, Or.inl (InStream.offset_rewind hready)⟩
  · exact ⟨InStream.ready_restart hready, InStream.offset_restart_cases hready k⟩

/-- Something failed. -/
theorem phase_restarts {X : Nat → Prop} {s : InStream UInt8} {e : Exn}
    (hstate : cl.mainState = .transmitting) (hrpc : l.rpc = some rpc) (hready : s.Ready)
    (hread : cl.dstFile = s ∨ cl.dstFile = (s.read ccfg.chunkSize).1) (hfile : s.file = file)
    (hmax : file.length ≤ maxOffset) (huploading : Uploading token file X l.server) :
    Phase token ccfg ⟨⟨cl, l, none⟩, some e⟩ := by
  have hcontent : cl.dstFile.file = file := (file_of_read hread).trans hfile
  subst hcontent
  exact .restarts rfl hstate rfl hrpc hready hread hmax huploading

end Phase

/-- Stop requests change nothing about an upload. -/
theorem Intact.signal (h : Intact token ccfg p) (stop : Option Bool) :
    Intact token ccfg { p with toProcess := p.toProcess.signal stop } := by
  cases stop with
  | none => exact h
  | some forced =>
    refine ⟨h.awaited, ?_, ?_⟩
    · intro hrun
      obtain ⟨hprepared, hkept⟩ := h.running hrun
      exact ⟨⟨hprepared.token, ⟨hprepared.placed.prev, hprepared.placed.uploads⟩, hprepared.announces⟩,
        hkept⟩
    · cases h.phase with
      | apart hapart hnoChunk => exact .apart hapart hnoChunk
      | sends hrun hstate hcaught hrpc hready hmax huploading hnoChunk =>
        exact .sends hrun hstate hcaught hrpc hready hmax huploading hnoChunk
      | restarts hrun hstate hcaught hrpc hready hread hmax huploading =>
        exact .restarts hrun hstate hcaught hrpc hready hread hmax huploading

/-- A client that shuts down may take its session back. -/
theorem Intact.finish {q : Process LateDaemon} (h : Intact token ccfg ⟨q, none⟩)
    (cfg : DaemonConfig) (n : NetworkAnswers) :
    Intact token ccfg ⟨q.finish (n.remote cfg .delayed), none⟩
      ∧ Gains (fun move => ¬ move.result.Uploads) ⟨q, none⟩ ⟨q.finish (n.remote cfg .delayed), none⟩ := by
  rcases q.finish_cases (n.remote cfg .delayed) with heq | ⟨-, -, l, hl, heq⟩
  · rw [heq]
    exact ⟨h, Adds.of_eq rfl⟩
  · rw [heq]
    have hsame : ∀ {l : Line LateDaemon}, l.server = q.line.server →
        Intact token ccfg ⟨⟨q.client.leave, l.drop, some .finished⟩, none⟩
          ∧ Gains (fun move => ¬ move.result.Uploads) ⟨q, none⟩
            ⟨⟨q.client.leave, l.drop, some .finished⟩, none⟩ := by
      intro l hserver
      have hawaited : Awaited token l.server := hserver.symm ▸ h.awaited
      have hnoChunk : NoChunk l.server := hserver.symm ▸ h.phase.noChunk rfl
      refine ⟨⟨hawaited, nofun, .apart (Or.inl rfl) hnoChunk⟩, Adds.of_eq ?_⟩
      exact congrArg (·.server.filesToMove) hserver
    rcases hl with rfl | rfl
    · exact hsame rfl
    · have habort : q.line.abort (n.remote cfg .delayed)
          = ((q.line.abort (n.remote cfg .delayed)).1, (q.line.abort (n.remote cfg .delayed)).2) := rfl
      rcases Line.server_of_call habort with ⟨hserver, -⟩ | ⟨rpc, -, hcall⟩
      · exact hsame hserver
      · obtain ⟨hmakes, -⟩ := makes_of_deliver cfg Daemon.Srv.step_abort hcall
        obtain ⟨hawaited, hadds, hlate⟩ := h.awaited.makes hmakes trivial fun _ => trivial
        refine ⟨⟨hawaited, nofun, .apart (Or.inl rfl) ?_⟩, hadds.mono fun move hmove => hmove trivial⟩
        intro l hl hfresh
        rcases hlate l hl with ⟨-, hold⟩ | hcall'
        · exact absurd hfresh hold
        · rw [hcall']
          rfl

/-- What follows a handler. -/
theorem Intact.settle {q : Process LateDaemon} (h : Intact token ccfg ⟨q, none⟩) (stop : Option Bool)
    (cfg : DaemonConfig) (n : NetworkAnswers) (hgains : Gains R p ⟨q, none⟩)
    (hR : ∀ move, ¬ move.result.Uploads → R move) :
    Intact token ccfg ⟨(q.signal stop).finish (n.remote cfg .delayed), none⟩
      ∧ Gains R p ⟨(q.signal stop).finish (n.remote cfg .delayed), none⟩ := by
  obtain ⟨hintact, hfinish⟩ := (h.signal stop).finish cfg n
  refine ⟨hintact, hgains.trans ?_⟩
  have hsame : (q.signal stop).line = q.line := by
    cases stop <;> rfl
  have hadds : Adds R (q.signal stop).line.server.server _ := hfinish.mono hR
  rw [hsame] at hadds
  exact hadds

/-- An upload begins, or none does. -/
theorem Intact.phase_of_attempt (h : Intact token ccfg p) (hprepared : p.client.Prepared token)
    (hapart : p.client.mainState ≠ .transmitting) {l : Line LateDaemon} {cl : Client}
    (htry : p.client.attempt (n.remote cfg .delayed) ccfg a p.line = (l, cl, .ok ()))
    (hquiet : Quiet token p.line.server.server l.server) :
    Phase token ccfg ⟨⟨cl, l, Process.outcome l (.ok ())⟩, none⟩ := by
  by_cases htrans : cl.mainState = .transmitting ∧ Process.outcome l (.ok ()) = none
  · obtain ⟨hsend, hup, hdst, l₁, hcheck, hpost⟩ :=
      (Client.handles_of_attempt htry).enters hprepared.placed hapart htrans.1
    obtain ⟨file, hmax, hresult, hfile⟩ := hprepared.announces (Or.inl hsend) hup
    have hserver : l₁.server = p.line.server := by
      rcases Line.server_of_checkCreateRpc hcheck with heq | heq <;> exact heq
    obtain ⟨rpc, hrpc, -⟩ := Line.checkCreateRpc_ok hcheck
    obtain ⟨hcall, hrpc'⟩ := Line.server_of_call_some hrpc hpost
    rw [hserver, hresult] at hcall
    rw [hresult] at hup
    have huploading := hquiet.accepted hup h.awaited.inOrder hcall
    have hstart : cl.dstFile.offset = 0 := by
      rw [hdst, hfile]
      exact InStream.offset_rewind_clear rfl rfl
    rw [htrans.2]
    refine phase_sends htrans.1 hrpc' ?_ ?_ hmax ?_ hquiet.noChunk
    · rw [hdst, hfile]
      exact Link.ready_encoded file
    · rw [hdst, hfile]
      exact InStream.file_rewind_clear _
    · exact huploading.mono hquiet.noChunk fun pos hpos => Or.inl (hpos.trans hstart.symm)
  · refine .apart ?_ hquiet.noChunk
    rcases not_and_or.mp htrans with hstate | hends
    · exact Or.inr hstate
    · exact Or.inl (Option.isSome_iff_ne_none.mpr hends)

/-- A client that does not transmit makes a step. -/
theorem Intact.ask (h : Intact token ccfg p) (hrun : ¬ p.ending.isSome = true) (hcaught : p.caught = none)
    (hapart : p.client.mainState ≠ .transmitting) (hfits : Fits a) (cfg : DaemonConfig)
    (n : NetworkAnswers) (stop : Option Bool) :
    Intact token ccfg (p.act (n.remote cfg .delayed) ccfg a stop)
      ∧ Gains (fun move => ¬ move.result.Uploads) p (p.act (n.remote cfg .delayed) ccfg a stop) := by
  obtain ⟨hprepared, hkept⟩ := h.running (by simpa using hrun)
  have hquiet : Quiet token p.line.server.server p.line.server :=
    ⟨h.awaited, hkept, h.phase.noChunk hcaught, Adds.of_eq rfl⟩
  have hkeeps : Client.AskingKeeps (n.remote cfg .delayed) (toString p.client.token).toList
      (Quiet token p.line.server.server) := by
    rw [hprepared.token]
    exact quiet_asking cfg n token _
  cases htry : p.client.attempt (n.remote cfg .delayed) ccfg a p.line with
  | mk l rest =>
    obtain ⟨cl, answer⟩ := rest
    have hafter := Client.asking_attempt hkeeps hapart htry hquiet
    have hprepared' := hprepared.attempt hfits hapart htry
    cases answer with
    | error e =>
      rw [act_of_attempt_error hrun hcaught htry]
      have hstate : cl.mainState ≠ .transmitting := by
        rw [Client.mainState_of_attempt_error htry]
        exact hapart
      exact ⟨⟨hafter.toAwaited, fun _ => ⟨hprepared', hafter.kept⟩, .apart (Or.inr hstate) hafter.noChunk⟩,
        hafter.adds⟩
    | ok =>
      rw [act_of_attempt hrun hcaught htry]
      have hphase := h.phase_of_attempt hprepared hapart htry hafter
      exact Intact.settle ⟨hafter.toAwaited, fun _ => ⟨hprepared', hafter.kept⟩, hphase⟩ stop cfg n hafter.adds
        fun _ => id

/-- A client that transmits sends the next chunk. -/
theorem Intact.send (h : Intact token ccfg p) (hrun : ¬ p.ending.isSome = true) (hcaught : p.caught = none)
    (hstate : p.client.mainState = .transmitting) {stop : Option Bool}
    (hfiles : FilesWork ccfg p (.act n a stop)) (cfg : DaemonConfig) :
    Intact token ccfg (p.act (n.remote cfg .delayed) ccfg a stop)
      ∧ Gains (Carries p.content) p (p.act (n.remote cfg .delayed) ccfg a stop) := by
  cases h.phase with
  | apart hapart => exact absurd hstate (hapart.resolve_left hrun)
  | restarts _ _ hsome =>
    rw [hcaught] at hsome
    cases hsome
  | @sends hnone _ _ rpc hrpc hready hmax huploading hnoChunk =>
    obtain ⟨hprepared, hkept⟩ := h.running hnone
    by_cases hmem : DataChunk.Allocates a.memory ccfg.chunkSize
    case neg =>
      -- no chunk, no call
      obtain ⟨e, htry⟩ := Client.attempt_lacking (n.remote cfg .delayed) p.line hstate hmem
      rw [act_of_attempt_error hrun hcaught htry]
      exact ⟨⟨h.awaited, fun _ => ⟨hprepared, hkept⟩,
        phase_restarts hstate hrpc hready (Or.inl rfl) rfl hmax huploading⟩, Adds.of_eq rfl⟩
    have hpiece := next_of_read hready ccfg.chunkSize
    have hsize : (p.client.dstFile.read ccfg.chunkSize).2.length < 2 ^ 63 := by
      have hle := (InStream.read_next hready ccfg.chunkSize).1.length_le
      have hbound : maxOffset < 2 ^ 63 := by decide
      have hlength : p.client.dstFile.file.length ≤ maxOffset := hmax
      rw [List.length_drop] at hle
      omega
    have hworks := hfiles.2 rpc hrpc
    simp only [hcaught, Option.isSome_none, Bool.false_eq_true, if_false] at hworks
    obtain ⟨l', answer, hwrite, hresult⟩ := Client.attempt_transmitting (n.remote cfg .delayed)
      p.line hstate hmem
    obtain ⟨hcall, hrpc'⟩ := Line.server_of_call_some hrpc hwrite
    obtain ⟨hadds, ⟨Z, hinterrupted⟩, htaken⟩ := huploading.writeChunk
      (Y := fun pos => pos = (p.client.dstFile.read ccfg.chunkSize).1.offset
        ∨ (p.client.dstFile.read ccfg.chunkSize).1.offset = p.content.length)
      ⟨(p.client.dstFile.read ccfg.chunkSize).2, hsize⟩ (Link.toNat_length hmax)
      (fun hsent => hworks hstate hsent hsize)
      (fun pos hpos => (hpiece pos hpos).1) (fun pos hpos => (hpiece pos hpos).2) hcall
    rcases hresult with ⟨e, htry⟩ | ⟨res, hok, ⟨heof, htry⟩ | ⟨cl', hidle, htry⟩⟩
    · rw [act_of_attempt_error hrun hcaught htry]
      have hprepared' : Client.Prepared token
          { p.client with dstFile := (p.client.dstFile.read ccfg.chunkSize).1 } :=
        ⟨hprepared.token, ⟨hprepared.placed.prev, hprepared.placed.uploads⟩,
          by simp [Client.HeadsFor, hstate, Client.Waits]⟩
      refine ⟨⟨hinterrupted.toAwaited, fun _ => ⟨hprepared', hinterrupted.kept⟩, ?_⟩, hadds⟩
      exact phase_restarts hstate hrpc' hready (Or.inr rfl) rfl hmax hinterrupted
    · rw [act_of_attempt hrun hcaught htry]
      have hprepared' := hprepared.handles hfiles.1 (Client.handles_of_attempt htry)
      obtain ⟨huploading', hnoChunk'⟩ := htaken res hok
      refine Intact.settle ⟨huploading'.toAwaited, fun _ => ⟨hprepared', huploading'.kept⟩, ?_⟩ stop cfg n
        hadds fun move hnot hup => absurd hup hnot
      by_cases hends : Process.outcome l' (.ok ()) = none
      · have hready' := InStream.ready_read_full hready (InStream.whole_of_eofbit hready heof)
        rw [hends]
        exact phase_sends hstate hrpc' hready' (InStream.file_read ..) hmax huploading' hnoChunk'
      · exact .apart (Or.inl (Option.isSome_iff_ne_none.mpr hends)) hnoChunk'
    · rw [act_of_attempt hrun hcaught htry]
      have hprepared' := hprepared.handles hfiles.1 (Client.handles_of_attempt htry)
      obtain ⟨huploading', hnoChunk'⟩ := htaken res hok
      have hapart : cl'.mainState ≠ .transmitting := by simp [hidle]
      exact Intact.settle ⟨huploading'.toAwaited, fun _ => ⟨hprepared', huploading'.kept⟩,
        .apart (Or.inr hapart) hnoChunk'⟩ stop cfg n hadds fun move hnot hup => absurd hup hnot

/-- What was done about an exception. -/
theorem Intact.recovered {l : Line LateDaemon} {cl : Client} {answer : Except Exn Unit} {e : Exn}
    (hrun : ¬ p.ending.isSome = true) (hcaught : p.caught = some e) (stop : Option Bool)
    (hrecover : p.client.recover (n.remote cfg .delayed) a p.line e = (l, cl, answer))
    (hawaited : Awaited token l.server) (hnoChunk : NoChunk l.server)
    (hadds : Adds (fun move => ¬ move.result.Uploads) p.line.server.server l.server.server)
    (hgoes : answer = .ok () → cl.Prepared token ∧ (∀ c ∈ l.server.late, ¬ c.call.TakesBack) ∧
      (Process.outcome l answer = none → Phase token ccfg ⟨⟨cl, l, none⟩, none⟩)) :
    Intact token ccfg (p.act (n.remote cfg .delayed) ccfg a stop)
      ∧ Gains (fun move => ¬ move.result.Uploads) p (p.act (n.remote cfg .delayed) ccfg a stop) := by
  rw [act_of_caught hrun hcaught hrecover]
  refine Intact.settle ⟨hawaited, ?_, ?_⟩ stop cfg n hadds fun _ => id
  · intro hnone
    obtain ⟨hprepared, hkept, -⟩ := hgoes (Process.outcome_eq_none.mp hnone).2
    exact ⟨hprepared, hkept⟩
  · by_cases hends : Process.outcome l answer = none
    · rw [hends]
      exact (hgoes (Process.outcome_eq_none.mp hends).2).2.2 hends
    · exact .apart (Or.inl (Option.isSome_iff_ne_none.mpr hends)) hnoChunk

/-- A client starts over, or its process ends. -/
theorem Intact.startOver (h : Intact token ccfg p) (hrun : ¬ p.ending.isSome = true) {e : Exn}
    (hcaught : p.caught = some e) {stop : Option Bool} (hfiles : FilesWork ccfg p (.act n a stop))
    (cfg : DaemonConfig) :
    Intact token ccfg (p.act (n.remote cfg .delayed) ccfg a stop)
      ∧ Gains (fun move => ¬ move.result.Uploads) p (p.act (n.remote cfg .delayed) ccfg a stop) := by
  obtain ⟨hprepared, hkept⟩ := h.running (by simpa using hrun)
  have hworks : ∀ {rpc : Rpc}, p.line.rpc = some rpc → Link.Arrives n.resetFate = true →
      (DaemonEvent.reset rpc.conn n.resetFlushed).FilesWork p.line.server.server := by
    intro rpc hrpc
    have hreset := hfiles.2 rpc hrpc
    simpa only [hcaught, Option.isSome_some, if_true] using hreset
  by_cases htransmitting : p.client.mainState = .transmitting
  · cases h.phase with
    | apart hapart => exact absurd htransmitting (hapart.resolve_left hrun)
    | sends _ _ hnone =>
      rw [hcaught] at hnone
      cases hnone
    | @restarts X s _ _ _ rpc hrpc hready hread hmax huploading =>
      obtain ⟨l', answer, hreset, hresult⟩ := Client.recover_transmitting (n.remote cfg .delayed) a p.line
        htransmitting e
      obtain ⟨hcall, hrpc'⟩ := Line.server_of_call_some hrpc hreset
      obtain ⟨hawaited, hadds, hnoChunk, hok⟩ := h.awaited.reset (hworks hrpc) hcall
      rcases hresult with ⟨e', cl', rfl, hrecover⟩ | ⟨rfl, hrecover⟩
      · exact Intact.recovered hrun hcaught stop hrecover hawaited hnoChunk hadds fun hans => by cases hans
      · refine Intact.recovered hrun hcaught stop hrecover hawaited hnoChunk hadds fun _ => ?_
        obtain ⟨harrives, hanswer, hserver⟩ := hok rfl
        have hback := huploading.reset (hworks hrpc harrives) hanswer hserver hawaited hnoChunk
        refine ⟨?_, hback.kept, fun _ => ?_⟩
        · exact ⟨hprepared.token, ⟨hprepared.placed.prev, hprepared.placed.uploads⟩,
            by simp [Client.HeadsFor, htransmitting, Client.Waits]⟩
        · have hcontent : p.content = s.file := file_of_read hread
          obtain ⟨hready', hoffset⟩ := offset_of_read hready hread
          rw [← hcontent] at hoffset
          refine phase_sends htransmitting hrpc' hready' (InStream.file_rewind_clear _) hmax ?_ hnoChunk
          apply hback.mono hnoChunk
          rintro pos rfl
          exact hoffset.imp Eq.symm id
  · have hnoChunk := h.phase.apart_of htransmitting
    by_cases hreceiving : p.client.mainState = .receiving
    · cases hreset : p.line.reset (n.remote cfg .delayed) with
      | mk l answer =>
        have hrecover : p.client.recover (n.remote cfg .delayed) a p.line e
            = (l, { p.client with srcFile := p.client.srcFile.rewind a.rewound }, answer) := by
          simp only [Client.recover, hreceiving, hreset]
        rcases Line.server_of_call hreset with ⟨hserver, e', rfl⟩ | ⟨rpc, hrpc, hcall⟩
        · exact Intact.recovered hrun hcaught stop hrecover (hserver.symm ▸ h.awaited)
            (hserver.symm ▸ hnoChunk) (Adds.of_eq (congrArg (·.server.filesToMove) hserver))
            fun hans => by cases hans
        · obtain ⟨hawaited, hadds, hnoChunk', hok⟩ := h.awaited.reset (hworks hrpc) hcall
          refine Intact.recovered hrun hcaught stop hrecover hawaited hnoChunk' hadds fun hans => ?_
          refine ⟨⟨hprepared.token, ⟨hprepared.placed.prev, hprepared.placed.uploads⟩,
            hprepared.announces⟩, ?_, fun _ => .apart (Or.inr htransmitting) hnoChunk'⟩
          rw [(hok hans).2.2]
          exact hkept
    · have hrecover : p.client.recover (n.remote cfg .delayed) a p.line e = (p.line, p.client, .error e) := by
        unfold Client.recover
        split
        · exact absurd ‹_› hreceiving
        · exact absurd ‹_› htransmitting
        · rfl
      exact Intact.recovered hrun hcaught stop hrecover h.awaited hnoChunk (Adds.of_eq rfl)
        fun hans => by cases hans

/-- A step of the client queues no upload but that of the file that it transmits. -/
theorem Intact.act (h : Intact token ccfg p) {stop : Option Bool} (hfiles : FilesWork ccfg p (.act n a stop))
    (cfg : DaemonConfig) :
    Intact token ccfg (p.act (n.remote cfg .delayed) ccfg a stop)
      ∧ Gains (fun move => move.result.Uploads →
          p.client.mainState = .transmitting ∧ move.tmp.content = p.content) p
        (p.act (n.remote cfg .delayed) ccfg a stop) := by
  by_cases hrun : p.ending.isSome = true
  · rw [act_of_ended hrun]
    exact ⟨h, Adds.of_eq rfl⟩
  cases hcaught : p.caught with
  | some e =>
    obtain ⟨hintact, hgains⟩ := h.startOver hrun hcaught hfiles cfg
    exact ⟨hintact, hgains.mono fun move hnot hup => absurd hup hnot⟩
  | none =>
    by_cases hstate : p.client.mainState = .transmitting
    · obtain ⟨hintact, hgains⟩ := h.send hrun hcaught hstate hfiles cfg
      exact ⟨hintact, hgains.mono fun move hcarries hup => ⟨hstate, hcarries hup⟩⟩
    · obtain ⟨hintact, hgains⟩ := h.ask hrun hcaught hstate hfiles.1 cfg n stop
      exact ⟨hintact, hgains.mono fun move hnot hup => absurd hup hnot⟩

/-- A late chunk is taken that completes the client's upload. -/
theorem Intact.completes (h : Intact token ccfg p) {i : Nat} (hfiles : FilesWork ccfg p (.late i))
    {l : Late DaemonEvent} (hl : p.line.server.late[i]? = some l) (hcompletes : p.Completes l.call)
    (cfg : DaemonConfig) :
    Intact token ccfg (p.serve (Delayed.runLate (Daemon.machine cfg).step i))
      ∧ Gains (Carries p.content) p (p.serve (Delayed.runLate (Daemon.machine cfg).step i)) := by
  obtain ⟨hnone, htransmits, hends⟩ := hcompletes
  obtain ⟨hprepared, hkept⟩ := h.running hnone
  have hawaited := (h.awaited.runLate cfg hfiles).1
  have hrunning : p.ending = none → p.client.Prepared token ∧
      ∀ l ∈ (p.line.server.runLate (Daemon.machine cfg).step i).late, ¬ l.call.TakesBack :=
    fun _ => ⟨hprepared, fun l hl => hkept l (Delayed.mem_late_runLate hl)⟩
  cases h.phase with
  | apart hapart =>
    rcases hapart with hended | hapart
    · rw [hnone] at hended
      cases hended
    · exact absurd htransmits hapart
  | sends hrun hstate hcaught hrpc hready hmax huploading hnoChunk =>
    obtain ⟨hafter, hadds⟩ := huploading.ends cfg (Link.toNat_length hmax) hl hends hfiles
    exact ⟨⟨hawaited, hrunning,
      .sends hrun hstate hcaught hrpc hready hmax hafter hnoChunk.runLate⟩, hadds⟩
  | restarts hrun hstate hcaught hrpc hready hread hmax huploading =>
    obtain ⟨hafter, hadds⟩ := huploading.ends cfg (Link.toNat_length hmax) hl hends hfiles
    exact ⟨⟨hawaited, hrunning, .restarts hrun hstate hcaught hrpc hready hread hmax hafter⟩, hadds⟩

/-- Of a late call that does not disturb, nothing is taken, or it is the next piece, or the last one. -/
theorem Intact.late (h : Intact token ccfg p) {i : Nat} (hfiles : FilesWork ccfg p (.late i))
    (horderly : Orderly cfg p (.late i)) :
    Intact token ccfg (p.serve (Delayed.runLate (Daemon.machine cfg).step i))
      ∧ Gains (fun move => move.result.Uploads →
          p.client.mainState = .transmitting ∧ move.tmp.content = p.content) p
        (p.serve (Delayed.runLate (Daemon.machine cfg).step i)) := by
  by_cases hlast : ∃ l, p.line.server.late[i]? = some l ∧ p.Completes l.call
  · obtain ⟨l, hl, hcompletes⟩ := hlast
    obtain ⟨hintact, hgains⟩ := h.completes hfiles hl hcompletes cfg
    exact ⟨hintact, hgains.mono fun move hcarries hup => ⟨hcompletes.2.1, hcarries hup⟩⟩
  obtain ⟨hawaited, hadds⟩ := h.awaited.runLate cfg hfiles
  have hrunning : p.ending = none → p.client.Prepared token ∧
      ∀ l ∈ (p.line.server.runLate (Daemon.machine cfg).step i).late, ¬ l.call.TakesBack := by
    intro hrun
    obtain ⟨hprepared, hkept⟩ := h.running hrun
    exact ⟨hprepared, fun l hl => hkept l (Delayed.mem_late_runLate hl)⟩
  -- a call that is no fresh chunk
  have hidles : (∀ l ∈ p.line.server.late[i]?, p.line.server.Fresh l → l.call.chunk = none) →
      ∀ l ∈ p.line.server.late[i]?, l.call.Idles p.line.server.server := by
    intro hnone l hl
    rcases (horderly l hl).1 with hfresh | hidles | hcompletes
    · exact DaemonEvent.idles_of_chunk (hnone l hl hfresh)
    · exact hidles
    · exact absurd ⟨l, hl, hcompletes⟩ hlast
  have hquiet : (∀ l ∈ p.line.server.late[i]?, p.line.server.Fresh l → l.call.chunk = none) →
      Gains (fun move => move.result.Uploads →
          p.client.mainState = .transmitting ∧ move.tmp.content = p.content) p
        (p.serve (Delayed.runLate (Daemon.machine cfg).step i)) :=
    fun hnone => hadds.mono fun move hnot hup => absurd hup (hnot (hidles hnone))
  cases h.phase with
  | apart hapart hnone =>
    exact ⟨⟨hawaited, hrunning, .apart hapart hnone.runLate⟩,
      hquiet fun l hl => hnone l (List.mem_of_getElem? hl)⟩
  | sends hrun hstate hcaught hrpc hready hmax huploading hnone =>
    have hnone' : ∀ l ∈ p.line.server.late[i]?, p.line.server.Fresh l → l.call.chunk = none :=
      fun l hl => hnone l (List.mem_of_getElem? hl)
    have hafter := huploading.idles hfiles (hidles hnone') fun l hl => (horderly l hl).2 hrun hstate
    exact ⟨⟨hawaited, hrunning, .sends hrun hstate hcaught hrpc hready hmax hafter hnone.runLate⟩,
      hquiet hnone'⟩
  | restarts hrun hstate hcaught hrpc hready hread hmax huploading =>
    by_cases hpiece : ∃ l, p.line.server.late[i]? = some l ∧ p.line.server.Fresh l ∧ l.call.chunk ≠ none
    · obtain ⟨l, hl, hfresh, hchunk⟩ := hpiece
      obtain ⟨hafter, hcarries⟩ :=
        huploading.piece cfg (Link.toNat_length hmax) hl hfresh hchunk hfiles
      exact ⟨⟨hawaited, hrunning, .restarts hrun hstate hcaught hrpc hready hread hmax hafter⟩,
        hcarries.mono fun move hcarry hup => ⟨hstate, hcarry hup⟩⟩
    · have hnone : ∀ l ∈ p.line.server.late[i]?, p.line.server.Fresh l → l.call.chunk = none := by
        intro l hl hfresh
        by_contra hchunk
        exact hpiece ⟨l, hl, hfresh, hchunk⟩
      have hafter := huploading.idles hfiles (hidles hnone) fun l hl => (horderly l hl).2 hrun hstate
      exact ⟨⟨hawaited, hrunning, .restarts hrun hstate hcaught hrpc hready hread hmax hafter⟩, hquiet hnone⟩

/-- What the daemon does on its own. -/
theorem Intact.background (h : Intact token ccfg p) (cfg : DaemonConfig) {e : DaemonEvent}
    (he : e.Background) :
    Intact token ccfg (p.serve fun s => { s with server := (Daemon.machine cfg).step s.server e }) := by
  refine ⟨h.awaited.background cfg he, h.running, ?_⟩
  cases h.phase with
  | apart hapart hnoChunk => exact .apart hapart hnoChunk
  | sends hrun hstate hcaught hrpc hready hmax huploading hnoChunk =>
    exact .sends hrun hstate hcaught hrpc hready hmax (huploading.background cfg he) hnoChunk
  | restarts hrun hstate hcaught hrpc hready hread hmax huploading =>
    exact .restarts hrun hstate hcaught hrpc hready hread hmax (huploading.background cfg he)

theorem intact_start (ccfg : ClientSettings) (token : Nat) (db : Store) :
    Intact (toString token).toList ccfg (start token db) :=
  ⟨⟨Delayed.numbered_start _, fun _ hl => absurd hl List.not_mem_nil, Daemon.inOrder_start _ db⟩,
    fun _ => ⟨Client.prepared_start token, fun _ hl => absurd hl List.not_mem_nil⟩,
    .apart (Or.inr nofun) fun _ hl => absurd hl List.not_mem_nil⟩

end Intact

/-- Everything that happens leaves it so. -/
theorem Intact.step {cfg : DaemonConfig} {ccfg : ClientSettings} {token : Text} {p : Halfway}
    (h : Intact token ccfg p) {e : LateEvent} (hfiles : FilesWork ccfg p e) (horderly : Orderly cfg p e) :
    Intact token ccfg ((machine cfg ccfg).step p e) := by
  cases e with
  | act n a stop => exact (h.act hfiles cfg).1
  | stop forced => exact h.signal (some forced)
  | late i => exact (h.late hfiles horderly).1
  | background e he => exact h.background cfg he

/-- As long as every late chunk that runs is the last call that was made, or nothing is taken of it, or it
completes the client's upload, and no late call gives the session another file while the client transmits:
whenever an upload is queued, the client transmits, and the temp file is its file. -/
theorem upload_intact_run (cfg : DaemonConfig) (ccfg : ClientSettings) (token : Nat) (db : Store)
    {es : List LateEvent} {e : LateEvent}
    (hes : (machine cfg ccfg).Along (fun p e => FilesWork ccfg p e ∧ Orderly cfg p e) (start token db)
      (es ++ [e])) :
    let p := (machine cfg ccfg).run (start token db) es
    QueuesOwn p ((machine cfg ccfg).step p e) := by
  intro p
  obtain ⟨hbefore, ⟨hfiles, horderly⟩, -⟩ := ((machine cfg ccfg).along_append _ _ es [e]).mp hes
  have hintact : Intact (toString token).toList ccfg p :=
    (machine cfg ccfg).invariant (fun p e h hg => h.step hg.1 hg.2) (intact_start ccfg token db) hbefore
  cases e with
  | act n a stop => exact Or.inr (hintact.act hfiles cfg).2
  | stop forced => exact Or.inl List.suffix_rfl
  | late i => exact Or.inr (hintact.late hfiles horderly).2
  | background e he => exact Or.inl (Daemon.queue_background cfg he)

/-- Chunks of two bytes. -/
def byTwo : ClientSettings := { ClientSettings.gCfg with chunkSize := 2 }

/-- A step in which everything works; the encoder makes the file. -/
def works (content : Bytes) : LateEvent := .act (.working 1) (.working content) none

/-- A step in which a chunk is given up. -/
def chunkGivenUp (content : Bytes) : LateEvent :=
  .act { NetworkAnswers.working 1 with writeFate := .lost (.rpcTimeout []) } (.working content) none

/-- A file is discovered, and the client gets so far that it sends the first chunk next. -/
def encodes (content : Bytes) : List LateEvent :=
  .background (.fileSystemChange (fun name => if name = "a.mov".toList then some 1 else none)
    .fileDiscovered "a.mov".toList) trivial :: List.replicate 9 (works content)

/-- The first chunk is late, but comes before the reset. -/
theorem upload_intact_late_chunk :
    let es := encodes [1, 2, 3] ++ [chunkGivenUp [1, 2, 3], .late 0, works [1, 2, 3], works [1, 2, 3]]
    let p := (machine gCfg byTwo).run (start 3 .empty) es
    let q := (machine gCfg byTwo).step p (works [1, 2, 3])
    q.line.server.server.filesToMove.length = 1 ∧ QueuesOwn p q := by
  intro es p q
  -- the run is evaluated once
  have heval : q.line.server.server.filesToMove.length = 1 ∧
      (machine gCfg byTwo).Along (fun p e => FilesWork byTwo p e ∧ Orderly gCfg p e) (start 3 .empty)
        (es ++ [works [1, 2, 3]]) := by
    decide +kernel
  obtain ⟨hqueued, hes⟩ := heval
  exact ⟨hqueued, @upload_intact_run gCfg byTwo 3 .empty es (works [1, 2, 3]) hes⟩

/-- The first chunk is given up, the client starts over and sends it again, and then the chunk that was
given up comes. -/
theorem chunk_twice :
    let es := encodes [1, 2, 3, 4] ++ [chunkGivenUp [1, 2, 3, 4], works [1, 2, 3, 4], works [1, 2, 3, 4]]
    let p := (machine gCfg byTwo).run (start 3 .empty) es
    let q := (machine gCfg byTwo).step p (.late 0)
    (machine gCfg byTwo).Along (FilesWork byTwo) (start 3 .empty) (es ++ [.late 0])
      ∧ (p.client.mainState = .transmitting ∧ p.content = [1, 2, 3, 4])
      ∧ q.line.server.server.filesToMove.map (fun move => (move.result.result, move.tmp.content))
        = [(EncodingResult.ok.value, [1, 2, 1, 2])]
      ∧ ¬ QueuesOwn p q := by
  intro es p q
  -- the run is evaluated once
  have heval : (machine gCfg byTwo).Along (FilesWork byTwo) (start 3 .empty) (es ++ [.late 0])
      ∧ (p.client.mainState = .transmitting ∧ p.content = [1, 2, 3, 4])
      ∧ q.line.server.server.filesToMove.map (fun move => (move.result.result, move.tmp.content))
        = [(EncodingResult.ok.value, [1, 2, 1, 2])]
      ∧ p.line.server.server.filesToMove = []
      ∧ ∃ move ∈ q.line.server.server.filesToMove,
          move.result.Uploads ∧ move.tmp.content = [1, 2, 1, 2] := by
    decide +kernel
  obtain ⟨halong, hclient, hmoves, hempty, move, hmove, hup, hcontent⟩ := heval
  refine ⟨halong, hclient, hmoves, ?_⟩
  rintro (hold | ⟨new, hqueue, hnew⟩)
  · rw [hempty, List.suffix_nil] at hold
    rw [hold] at hmove
    cases hmove
  · rw [hempty, List.nil_append] at hqueue
    have hsame := (hnew move (hqueue ▸ hmove) hup).2
    rw [hclient.2, hcontent] at hsame
    cases hsame

end Halfway

end MediaArchiver
