/-
# MediaArchiver.Client.Recovery -- starting an upload over

When a poll of an upload fails, the client resets the session and goes back to the start of its own
file, so that the next poll starts over. For that both streams have to stand at their start again.

* The client seeks before it clears the flags of its stream. After a whole chunk no flag is set and
  the seek works, and without memory for a chunk nothing was read. After a short one `failbit` is set, the
  seek does nothing, and the stream stays at the end of the file.
* The daemon seeks in its stream, if that is still open. It is not if the call whose answer got lost was
  the one that completed the upload, or one whose write fell short; and a stream that failed, or whose
  put area cannot be flushed, does not move.

`Recoverable` is the condition under which none of this happens. A running upload is described by
`Uploading`, which every poll that returns keeps, whatever fails in it (`reached_run`); so the condition
decides in every state an upload can get to (`recovered_iff`).
-/
import MediaArchiver.Client.Transmit

namespace MediaArchiver

open Lib (Machine OutStream InStream WriteAnswer maxOffset)
open MediaArchiverClient (encoded)

namespace ConnectedClient

variable {cli : ConnectedClient} {cfg : DaemonConfig} {written : WriteAnswer UInt8}
  {flushed : Nat} {data : DataChunk}

/-- A session after a `postFile`: its source is closed, and its output stream is inside its file. -/
structure Receives (cli : ConnectedClient) : Prop where
  inFile : cli.inFile.isOpen = false
  offset_le : cli.outFile.offset ≤ cli.outFile.file.length

theorem receives_postFile {opens : Bool} {result : EncodingResultInfo} (hup : result.Uploads)
    (hans : (cli.postFile cfg opens result).answer = .ok ()) :
    (cli.postFile cfg opens result).client.Receives := by
  obtain ⟨_, _, hin, hout, _⟩ := cli.postFile_uploads cfg opens hup hans
  refine ⟨hin, ?_⟩
  rw [hout]
  exact Nat.le_refl 0

theorem Receives.writeChunk (h : cli.Receives) :
    (cli.writeChunk cfg written flushed data).client.Receives := by
  unfold ConnectedClient.writeChunk
  split
  · exact h
  · dsimp only
    split
    · exact ⟨h.inFile, OutStream.offset_write h.offset_le written data.bytes⟩
    · exact ⟨rfl, Nat.le_refl 0⟩

theorem Receives.reset (h : cli.Receives) : (cli.reset flushed).Receives := by
  unfold ConnectedClient.reset
  rw [if_neg (by simp [h.inFile])]
  split
  · exact ⟨h.inFile, OutStream.offset_rewind h.offset_le flushed⟩
  · exact h

variable (cfg written flushed) in
/-- An accepted chunk leaves the stream written to, if that was in order, the device took the chunk and
the chunk did not end the upload; and a closed stream otherwise. -/
theorem outFile_writeChunk (h : cli.refuses data = false)
    (hle : cli.outFile.offset ≤ cli.outFile.file.length) :
    ((cli.outFile.fail = false ∧ cli.outFile.Takes written data.bytes
        ∧ cli.outFile.position + data.size < cli.encResult.fileLength.toNat)
      ∧ (cli.writeChunk cfg written flushed data).client.outFile
          = cli.outFile.write written data.bytes
      ∧ (cli.outFile.write written data.bytes).Ready) ∨
    (¬ (cli.outFile.fail = false ∧ cli.outFile.Takes written data.bytes
        ∧ cli.outFile.position + data.size < cli.encResult.fileLength.toNat)
      ∧ (cli.writeChunk cfg written flushed data).client.outFile.isOpen = false) := by
  by_cases hfail : cli.outFile.fail = true
  · right
    rw [writeChunk_of_fail h (OutStream.fail_write_of_fail hfail written data.bytes)]
    exact ⟨fun hok => absurd (hfail.symm.trans hok.1) (by decide), rfl⟩
  · rw [Bool.not_eq_true] at hfail
    have hready : cli.outFile.Ready :=
      OutStream.ready_of_fail_eq_false (isOpen_of_not_refuses h) hfail hle
    by_cases ht : cli.outFile.Takes written data.bytes
    · by_cases hlt : cli.outFile.position + data.size < cli.encResult.fileLength.toNat
      · rw [writeChunk_more h hready ht hlt]
        exact Or.inl ⟨⟨hfail, ht, hlt⟩, rfl, OutStream.ready_write hready ht⟩
      · rw [writeChunk_last h hready ht (Nat.le_of_not_lt hlt)]
        exact Or.inr ⟨fun hok => hlt hok.2.2, rfl⟩
    · rw [writeChunk_of_fail h (OutStream.fail_write ht)]
      exact Or.inr ⟨fun hok => ht hok.2.1, rfl⟩

/-- A reset brings the output stream to its start exactly if that is open, has not failed and can be
flushed. -/
theorem ready_reset_iff (h : cli.Receives) :
    ((cli.reset flushed).outFile.Ready ∧ (cli.reset flushed).outFile.position = 0) ↔
      cli.outFile.isOpen = true ∧ cli.outFile.fail = false ∧ cli.outFile.Flushes flushed := by
  unfold reset
  rw [if_neg (by simp [h.inFile])]
  by_cases hopen : cli.outFile.isOpen = true
  · rw [if_pos hopen]
    constructor
    · rintro ⟨hready, _⟩
      have hok : (cli.outFile.rewind flushed).fail = false := hready.fail
      by_cases hfail : cli.outFile.fail = true
      · rw [OutStream.rewind_of_fail hfail] at hok
        exact absurd (hfail.symm.trans hok) (by decide)
      · refine ⟨hopen, by simpa using hfail, ?_⟩
        by_contra hflush
        exact absurd ((OutStream.fail_rewind hflush).symm.trans hok) (by decide)
    · rintro ⟨_, hfail, hflush⟩
      have hready := OutStream.ready_of_fail_eq_false hopen hfail h.offset_le
      refine ⟨OutStream.ready_rewind hready hflush, ?_⟩
      exact congrArg Lib.Cursor.pos (OutStream.cursor_rewind hready hflush)
  · rw [if_neg hopen]
    exact iff_of_false (fun hr => hopen hr.1.isOpen) (fun hr => hopen hr.1)

end ConnectedClient

namespace Link

variable {cfg : DaemonConfig} {ccfg : ClientConfig} {u : Link} {a : PollAnswers} {content : Bytes}
  {session : ConnectedClient}

/-! ## Running uploads -/

/-- No exception leaves the poll. One that does ends the client. -/
def Returns (cfg : DaemonConfig) (ccfg : ClientConfig) (u : Link) (a : PollAnswers) : Prop :=
  (u.client.poll (Wire.server cfg a) ccfg a.memory u.wire).2.2.isOk = true

instance (cfg : DaemonConfig) (ccfg : ClientConfig) (u : Link) (a : PollAnswers) :
    Decidable (Returns cfg ccfg u a) :=
  inferInstanceAs (Decidable (_ = true))

/-- An upload is going on: the client's stream is ready for the next read. -/
structure Uploading (content : Bytes) (u : Link) : Prop where
  state : u.client.mainState = .transmitting
  dstFile : u.client.dstFile.Ready
  file : u.client.dstFile.file = content
  nonempty : content ≠ []
  session : u.wire.session.Receives

/-- The states an upload gets to. -/
inductive Reached (content : Bytes) (session : ConnectedClient) : Link → Prop
  | posting : Reached content session (start content session)
  | uploading {u : Link} (h : Uploading content u) : Reached content session u
  | ended {u : Link} {state : MainStates} (hstate : u.client.mainState = state)
      (hpost : state ≠ .sendResult) (htrans : state ≠ .transmitting) : Reached content session u

variable (cfg a) in
/-- Whatever becomes of the call, the session stays one that receives. -/
theorem receives_writeChunk (h : u.wire.session.Receives) (bytes : Bytes) :
    ((Wire.server cfg a).writeChunk u.wire bytes).1.session.Receives := by
  have hcall : (Wire.writeChunk cfg a.written a.flushed bytes u.wire).1.session.Receives := by
    unfold Wire.writeChunk
    split
    · exact h.writeChunk
    · exact h
  cases hfate : a.writeFate with
  | lost e =>
    simp only [Wire.server, hfate, Fate.deliver]
    exact h
  | unanswered e =>
    simp only [Wire.server, hfate, Fate.deliver]
    exact hcall
  | answered =>
    simp only [Wire.server, hfate, Fate.deliver]
    exact hcall

theorem receives_reset {w : Wire} (h : w.session.Receives) :
    ((Wire.server cfg a).reset w).1.session.Receives := by
  cases hfate : a.resetFate <;> simp only [Wire.server, hfate, Fate.deliver, Wire.reset]
  · exact h
  · exact h.reset
  · exact h.reset

variable (cfg ccfg a) in
/-- A poll of an upload is `doTransmit`. -/
theorem poll_transmitting (hstate : u.client.mainState = .transmitting) :
    u.client.poll (Wire.server cfg a) ccfg a.memory u.wire
      = u.client.doTransmit (Wire.server cfg a) ccfg a.memory u.wire := by
  unfold MediaArchiverClient.poll
  rw [hstate]

/-- The poll after which a transmission starts over. -/
theorem step_of_error (hstate : u.client.mainState = .transmitting) (hret : Returns cfg ccfg u a)
    {w : Wire} {cl : MediaArchiverClient} {e : Exn}
    (h : u.client.transmitChunk (Wire.server cfg a) ccfg a.memory u.wire = (w, cl, .error e)) :
    (machine cfg ccfg).step u a
      = ⟨{ cl with dstFile := cl.dstFile.rewind.clear }, ((Wire.server cfg a).reset w).1⟩ := by
  have hpoll := (poll_transmitting cfg ccfg a hstate).trans
    (MediaArchiverClient.doTransmit_of_error h)
  rw [Returns, hpoll] at hret
  simp only [machine, hpoll, MediaArchiverClient.restartTransmission_of_isOk hret]

/-- Without a chunk it starts over, too. -/
theorem step_of_not_allocates (hstate : u.client.mainState = .transmitting)
    (hret : Returns cfg ccfg u a) (hmem : ¬ DataChunk.Allocates a.memory ccfg.chunkSize) :
    (machine cfg ccfg).step u a = ⟨{ u.client with dstFile := u.client.dstFile.rewind.clear },
      ((Wire.server cfg a).reset u.wire).1⟩ := by
  obtain ⟨e, herror⟩ := MediaArchiverClient.transmitChunk_of_not_allocates (Wire.server cfg a) ccfg hmem
    u.wire u.client
  exact step_of_error hstate hret herror

/-- A poll of an upload that has a chunk and returns: more is to come, the upload is over, or it starts
over. -/
theorem step_transmitting (hstate : u.client.mainState = .transmitting)
    (hret : Returns cfg ccfg u a) (hmem : DataChunk.Allocates a.memory ccfg.chunkSize) :
    let chunk := u.client.dstFile.read ccfg.chunkSize
    let sent := ((Wire.server cfg a).writeChunk u.wire chunk.2).1
    (chunk.1.eofbit = false
      ∧ (machine cfg ccfg).step u a = ⟨{ u.client with dstFile := chunk.1 }, sent⟩) ∨
    ((machine cfg ccfg).step u a).client.mainState = .idle ∨
    (machine cfg ccfg).step u a
      = ⟨{ u.client with dstFile := chunk.1.rewind.clear }, ((Wire.server cfg a).reset sent).1⟩ := by
  intro chunk sent
  have hpoll := poll_transmitting cfg ccfg a hstate
  rcases MediaArchiverClient.transmitChunk_cases (Wire.server cfg a) ccfg hmem u.wire u.client with
    ⟨e, herror⟩ | ⟨heof, hmore⟩ | hdone
  · exact Or.inr (Or.inr (step_of_error hstate hret herror))
  · refine Or.inl ⟨heof, ?_⟩
    simp only [machine, hpoll, MediaArchiverClient.doTransmit_of_ok hmore]
    rfl
  · refine Or.inr (Or.inl ?_)
    simp only [machine, hpoll, MediaArchiverClient.doTransmit_of_ok hdone]

/-- Every poll that returns keeps an upload in order, ends it or starts it over. -/
theorem Uploading.step (h : Uploading content u) (hret : Returns cfg ccfg u a) :
    Uploading content ((machine cfg ccfg).step u a) ∨
      ((machine cfg ccfg).step u a).client.mainState = .idle := by
  by_cases hmem : DataChunk.Allocates a.memory ccfg.chunkSize
  case neg =>
    rw [step_of_not_allocates h.state hret hmem]
    refine Or.inl ⟨h.state, InStream.ready_rewind h.dstFile, ?_, h.nonempty, receives_reset h.session⟩
    exact (InStream.file_rewind_clear _).trans h.file
  have hsent := receives_writeChunk cfg a h.session
    (u.client.dstFile.read ccfg.chunkSize).2
  rcases step_transmitting h.state hret hmem with ⟨heof, hstep⟩ | hidle | hstep
  · rw [hstep]
    have hwhole := InStream.whole_of_eofbit h.dstFile heof
    refine Or.inl ⟨h.state, InStream.ready_read_full h.dstFile hwhole, ?_, h.nonempty, hsent⟩
    exact (InStream.file_read ..).trans h.file
  · exact Or.inr hidle
  · rw [hstep]
    refine Or.inl ⟨h.state, ?_, ?_, h.nonempty, receives_reset hsent⟩
    · exact InStream.ready_restart h.dstFile
    · exact (InStream.file_rewind_clear _).trans ((InStream.file_read ..).trans h.file)

/-- A post that the client saw answered was accepted by the session. -/
theorem postFile_of_ok {w : Wire} {result : EncodingResultInfo}
    (h : ((Wire.server cfg a).postFile w result).2 = .ok ()) :
    (w.session.postFile cfg a.opens result).answer = .ok ()
      ∧ ((Wire.server cfg a).postFile w result).1.session
        = (w.session.postFile cfg a.opens result).client := by
  cases hfate : a.postFate <;> simp only [Wire.server, hfate, Fate.deliver] at h ⊢
  · cases h
  · cases h
  · exact ⟨h, rfl⟩

/-- The poll that posts the result starts the upload, or there is none. -/
theorem reached_post : Reached content session ((machine cfg ccfg).step (start content session) a) := by
  have hstep : (machine cfg ccfg).step (start content session) a
      = ⟨((encoded content).doSendResult (Wire.server cfg a) ccfg (start content session).wire).2,
          ((encoded content).doSendResult (Wire.server cfg a) ccfg (start content session).wire).1⟩ :=
    rfl
  rw [hstep]
  rcases MediaArchiverClient.doSendResult_cases (Wire.server cfg a) ccfg (start content session).wire
    (encoded content) rfl with ⟨w, hfailed⟩ | ⟨hup, hans, hposted⟩ | ⟨w, hdone⟩
  · rw [hfailed]
    exact .ended (show _ = MainStates.waitForReconnect from rfl) (by decide) (by decide)
  · rw [hposted]
    obtain ⟨hans', hsession⟩ := postFile_of_ok hans
    refine .uploading ⟨rfl, ready_encoded content, InStream.file_rewind_clear _, ?_, ?_⟩
    · rintro rfl
      exact absurd hup.2 (by decide)
    · show ConnectedClient.Receives ((Wire.server cfg a).postFile _ _).1.session
      rw [hsession]
      exact ConnectedClient.receives_postFile hup hans'
  · rw [hdone]
    exact .ended (show _ = MainStates.idle from rfl) (by decide) (by decide)

theorem Reached.step (h : Reached content session u) (hret : Returns cfg ccfg u a) :
    Reached content session ((machine cfg ccfg).step u a) := by
  cases h with
  | posting => exact reached_post
  | uploading h =>
    rcases h.step hret with h' | hidle
    · exact .uploading h'
    · exact .ended hidle (by decide) (by decide)
  | ended hstate hpost htrans =>
    rw [step_other (hstate ▸ hpost) (hstate ▸ htrans)]
    exact .ended hstate hpost htrans

/-- A client that transmits has an upload in order. -/
theorem Reached.uploads (h : Reached content session u) (hstate : u.client.mainState = .transmitting) :
    Uploading content u := by
  cases h with
  | posting => cases hstate
  | uploading h => exact h
  | ended hover _ htrans => exact absurd (hover.symm.trans hstate) htrans

/-- Whatever failed before, a client that transmits has an upload in order. -/
theorem uploading_after {es : List PollAnswers}
    (hes : (machine cfg ccfg).Along (Returns cfg ccfg) (start content session) es)
    (hstate : (after cfg ccfg content session es).client.mainState = .transmitting) :
    Uploading content (after cfg ccfg content session es) := by
  have hreached : Reached content session (after cfg ccfg content session es) :=
    (machine cfg ccfg).invariant (fun _ _ h hret => h.step hret) .posting hes
  exact hreached.uploads hstate

/-! ## Failed polls -/

/-- Something failed in the poll, and the handler's reset is answered. -/
structure Fails (cfg : DaemonConfig) (ccfg : ClientConfig) (u : Link) (a : PollAnswers) : Prop where
  error : ∃ e, (u.client.transmitChunk (Wire.server cfg a) ccfg a.memory u.wire).2.2 = .error e
  reset : a.resetFate = .answered

/-- Both sides stand at the start: the next read, for which a chunk can be made if there is memory, begins
there, and the next write goes there. -/
structure Recovered (ccfg : ClientConfig) (u : Link) : Prop where
  reads : DataChunk.allocate true ccfg.chunkSize = .ok ()
  client : u.client.dstFile.Ready ∧ u.client.dstFile.offset = 0
  session : u.wire.session.outFile.Ready ∧ u.wire.session.outFile.position = 0

/-- The call gets through to the daemon. -/
def Arrives : Fate → Bool
  | .lost _ => false
  | .unanswered _ => true
  | .answered => true

/-- What the device has to do in the poll: flush the stream for the seek, and if the call gets through
and is not refused, take the chunk, which must not be the one that ends the upload. -/
def Takes (session : ConnectedClient) (a : PollAnswers) (data : DataChunk) : Prop :=
  if Arrives a.writeFate ∧ session.refuses data = false then
    session.outFile.Takes a.written data.bytes
      ∧ session.outFile.position + data.size < session.encResult.fileLength.toNat
      ∧ (session.outFile.write a.written data.bytes).Flushes a.resetFlushed
  else session.outFile.Flushes a.resetFlushed

/-- What the poll has to find and leave in order: the daemon's stream is open and has not failed; if there
is memory for the chunk, a whole one is left of the file and the device does its part; and without memory
it flushes the stream for the seek. -/
structure Recoverable (ccfg : ClientConfig) (u : Link) (a : PollAnswers) : Prop where
  size : ccfg.chunkSize < 2 ^ 63
  isOpen : u.wire.session.outFile.isOpen = true
  stream : u.wire.session.outFile.fail = false
  chunk : if DataChunk.Allocates a.memory ccfg.chunkSize then
      u.client.dstFile.offset + ccfg.chunkSize ≤ u.client.dstFile.file.length
        ∧ ∀ data : DataChunk, data.bytes = (u.client.dstFile.read ccfg.chunkSize).2 →
          Takes u.wire.session a data
    else u.wire.session.outFile.Flushes a.resetFlushed

theorem Fails.returns (hf : Fails cfg ccfg u a) (hstate : u.client.mainState = .transmitting) :
    Returns cfg ccfg u a := by
  obtain ⟨⟨e, herror⟩, hreset⟩ := hf
  have hfailed : u.client.transmitChunk (Wire.server cfg a) ccfg a.memory u.wire
      = ((u.client.transmitChunk (Wire.server cfg a) ccfg a.memory u.wire).1,
          (u.client.transmitChunk (Wire.server cfg a) ccfg a.memory u.wire).2.1, .error e) := by
    rw [← herror]
  have hpoll := (poll_transmitting cfg ccfg a hstate).trans
    (MediaArchiverClient.doTransmit_of_error hfailed)
  rw [Returns, hpoll]
  simp only [MediaArchiverClient.restartTransmission, Wire.server, hreset, Fate.deliver, Wire.reset]
  rfl

/-- The reset is answered. -/
theorem Fails.server_reset (hf : Fails cfg ccfg u a) :
    (Wire.server cfg a).reset = Wire.reset a.resetFlushed := by
  funext w
  simp only [Wire.server, hf.reset, Fate.deliver]

/-- A poll that failed although there was a chunk. -/
theorem step_failed (hstate : u.client.mainState = .transmitting) (hf : Fails cfg ccfg u a)
    (hmem : DataChunk.Allocates a.memory ccfg.chunkSize) :
    let chunk := u.client.dstFile.read ccfg.chunkSize
    (machine cfg ccfg).step u a = ⟨{ u.client with dstFile := chunk.1.rewind.clear },
      ((Wire.reset a.resetFlushed ((Wire.server cfg a).writeChunk u.wire chunk.2).1)).1⟩ := by
  intro chunk
  obtain ⟨e, herror⟩ := hf.error
  -- only the first case ends in an error
  rcases MediaArchiverClient.transmitChunk_cases (Wire.server cfg a) ccfg hmem u.wire u.client with
    ⟨e', hfailed⟩ | ⟨_, hmore⟩ | hdone
  · rw [step_of_error hstate (hf.returns hstate) hfailed, hf.server_reset]
  · rw [hmore] at herror
    cases herror
  · rw [hdone] at herror
    cases herror

/-- What a call through the network leaves of the session. -/
theorem session_writeChunk (data : DataChunk) :
    ((Wire.server cfg a).writeChunk u.wire data.bytes).1.session =
      if Arrives a.writeFate then (u.wire.session.writeChunk cfg a.written a.flushed data).client
      else u.wire.session := by
  have hcall : (Wire.writeChunk cfg a.written a.flushed data.bytes u.wire).1.session
      = (u.wire.session.writeChunk cfg a.written a.flushed data).client := by
    simp only [Wire.writeChunk, data.size_lt, dif_pos]
  cases hfate : a.writeFate with
  | lost e =>
    simp only [Wire.server, hfate, Fate.deliver, Arrives, Bool.false_eq_true, if_false]
  | unanswered e =>
    simp only [Wire.server, hfate, Fate.deliver, Arrives, if_true, hcall]
  | answered =>
    simp only [Wire.server, hfate, Fate.deliver, Arrives, if_true, hcall]

variable (cfg a) in
/-- A stream that is open and in order after the call and the seek was so before, and the device did
its part; and the other way round. -/
theorem session_recovered_iff (h : u.wire.session.Receives) (data : DataChunk) :
    ((((Wire.server cfg a).writeChunk u.wire data.bytes).1.session.reset a.resetFlushed).outFile.Ready
        ∧ (((Wire.server cfg a).writeChunk u.wire data.bytes).1.session.reset
            a.resetFlushed).outFile.position = 0) ↔
      u.wire.session.outFile.isOpen = true ∧ u.wire.session.outFile.fail = false
        ∧ Takes u.wire.session a data := by
  have hsent := receives_writeChunk cfg a h data.bytes
  rw [ConnectedClient.ready_reset_iff hsent, session_writeChunk, Takes]
  -- a refused call leaves the session as one that never arrived
  by_cases hexec : Arrives a.writeFate = true ∧ u.wire.session.refuses data = false
  · obtain ⟨hex, hrefuses⟩ := hexec
    rw [if_pos hex, if_pos ⟨hex, hrefuses⟩]
    have hopen := ConnectedClient.isOpen_of_not_refuses hrefuses
    rcases ConnectedClient.outFile_writeChunk cfg a.written a.flushed hrefuses h.offset_le with
      ⟨⟨hfail, ht, hlt⟩, hout, hready⟩ | ⟨hnot, hclosed⟩
    · rw [hout]
      constructor
      · exact fun hr => ⟨hopen, hfail, ht, hlt, hr.2.2⟩
      · exact fun hr => ⟨hready.isOpen, hready.fail, hr.2.2.2.2⟩
    · -- the stream is closed, and the seek does not open it
      refine iff_of_false (fun hr => absurd (hclosed.symm.trans hr.1) (by decide)) ?_
      exact fun hr => hnot ⟨hr.2.1, hr.2.2.1, hr.2.2.2.1⟩
  · rw [if_neg hexec]
    have hsession : (if Arrives a.writeFate then
        (u.wire.session.writeChunk cfg a.written a.flushed data).client else u.wire.session)
        = u.wire.session := by
      by_cases hex : Arrives a.writeFate = true
      · have hrefuses : u.wire.session.refuses data = true := by
          by_contra hno
          exact hexec ⟨hex, by simpa using hno⟩
        rw [if_pos hex, ConnectedClient.writeChunk_of_refuses hrefuses]
      · rw [if_neg hex]
    rw [hsession]

/-- In every state an upload can get to, a failed poll whose reset is answered leaves both sides at the
start, exactly if the poll was recoverable. -/
theorem recovered_iff (hmax : content.length ≤ maxOffset) {es : List PollAnswers}
    (hes : (machine cfg ccfg).Along (Returns cfg ccfg) (start content session) es)
    (hstate : (after cfg ccfg content session es).client.mainState = .transmitting)
    (hf : Fails cfg ccfg (after cfg ccfg content session es) a) :
    Recovered ccfg ((machine cfg ccfg).step (after cfg ccfg content session es) a) ↔
      Recoverable ccfg (after cfg ccfg content session es) a := by
  have hu := uploading_after hes hstate
  generalize after cfg ccfg content session es = u at hu hf hstate
  have hreads : DataChunk.allocate true ccfg.chunkSize = .ok () ↔ ccfg.chunkSize < 2 ^ 63 :=
    DataChunk.allocate_eq_ok.trans DataChunk.allocates_true
  by_cases hmem : DataChunk.Allocates a.memory ccfg.chunkSize
  case neg =>
    -- nothing was read, so the seek works
    have hrewound := InStream.offset_rewind hu.dstFile
    have hsession : (u.wire.session.reset a.resetFlushed).outFile.Ready
        ∧ (u.wire.session.reset a.resetFlushed).outFile.position = 0 ↔ _ :=
      ConnectedClient.ready_reset_iff hu.session
    rw [step_of_not_allocates hstate (hf.returns hstate) hmem, hf.server_reset]
    constructor
    · rintro ⟨hmade, -, hs⟩
      obtain ⟨hopen, hstream, hflush⟩ := hsession.mp hs
      exact ⟨hreads.mp hmade, hopen, hstream, by rwa [if_neg hmem]⟩
    · rintro ⟨hlt, hopen, hstream, hflush⟩
      rw [if_neg hmem] at hflush
      exact ⟨hreads.mpr hlt, ⟨InStream.ready_rewind hu.dstFile, hrewound⟩,
        hsession.mpr ⟨hopen, hstream, hflush⟩⟩
  have hsize : (u.client.dstFile.read ccfg.chunkSize).2.length < 2 ^ 63 := by
    have hbound : maxOffset < 2 ^ 63 := by decide
    have hlen : (u.client.dstFile.read ccfg.chunkSize).2.length ≤ u.client.dstFile.file.length := by
      simp only [InStream.read, hu.dstFile.good, if_true, hu.dstFile.rest, List.length_take,
        List.length_drop]
      omega
    rw [hu.file] at hlen
    omega
  have hclient := InStream.offset_restart hu.dstFile (n := ccfg.chunkSize)
    (by rw [hu.file]; exact hu.nonempty)
  have hsession := session_recovered_iff cfg a hu.session ⟨_, hsize⟩
  rw [step_failed hstate hf hmem]
  constructor
  · rintro ⟨hmade, hc, hs⟩
    obtain ⟨hopen, hstream, hchunk⟩ := hsession.mp hs
    refine ⟨hreads.mp hmade, hopen, hstream, ?_⟩
    rw [if_pos hmem]
    refine ⟨hclient.mp hc.2, ?_⟩
    rintro ⟨bytes, hlt⟩ rfl
    exact hchunk
  · rintro ⟨hlt, hopen, hstream, hchunk⟩
    rw [if_pos hmem] at hchunk
    exact ⟨hreads.mpr hlt, ⟨InStream.ready_restart hu.dstFile, hclient.mpr hchunk.1⟩,
      hsession.mpr ⟨hopen, hstream, hchunk.2 ⟨_, hsize⟩ rfl⟩⟩

/-- A poll whose chunk does not get through; everything else works. -/
def interrupted : PollAnswers :=
  { perfect 3 with writeFate := .lost (.runtimeError "write chunk: timeout".toList), resetFlushed := 3 }

/-- Three bytes in chunks of two. The first chunk is lost, twice. -/
theorem recovered_three_by_two :
    Recovered ⟨2, 0⟩ ((machine gCfg ⟨2, 0⟩).step
      (after gCfg ⟨2, 0⟩ [1, 2, 3] (.downloaded 1 "a.mov".toList [7]) [perfect 3, interrupted])
      interrupted) := by
  have hes : (machine gCfg ⟨2, 0⟩).Along (Returns gCfg ⟨2, 0⟩)
      (start [1, 2, 3] (.downloaded 1 "a.mov".toList [7])) [perfect 3, interrupted] := by
    decide
  refine (recovered_iff (by decide) hes rfl ⟨⟨_, rfl⟩, rfl⟩).mpr ⟨by decide, rfl, rfl, ?_⟩
  rw [if_pos (by decide)]
  refine ⟨by decide, ?_⟩
  intro data _
  exact Nat.zero_le 3

/-- The last chunk is lost. The client stays at the end of its file, and sends nothing from then on. -/
theorem stuck_three_by_two :
    let u := after gCfg ⟨2, 0⟩ [1, 2, 3] (.downloaded 1 "a.mov".toList [7]) [perfect 3, perfect 3]
    u.client.mainState = .transmitting ∧ Fails gCfg ⟨2, 0⟩ u interrupted
      ∧ ¬ Recovered ⟨2, 0⟩ ((machine gCfg ⟨2, 0⟩).step u interrupted)
      ∧ ((machine gCfg ⟨2, 0⟩).run u [interrupted, perfect 3, perfect 3]).wire.log
        = [([1, 2], some true), ([3], none), ([], some true), ([], some true)] := by
  refine ⟨rfl, ⟨⟨_, rfl⟩, rfl⟩, ?_, by decide⟩
  intro hrec
  exact absurd hrec.client.2 (by decide)

end Link

end MediaArchiver
