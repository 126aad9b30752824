/-
# MediaArchiver.Daemon.Upload -- what the daemon queues is what the client sent

One session from the moment `postFile` has accepted a result that announces an upload: any number of
`writeChunk` and `reset` calls, with chunks of any size and with every answer the device can give. The
run is watched by a `Transfer`, the bytes the client sent since it last reset the session; the entry
that ends up in the mover's queue is kept together with the transfer that ended in it.

While nothing fails, the output stream is a cursor over the temp file (`Lib.OutStream`) and the
invariant is the cursor's: it has gone over exactly the bytes accepted since the last reset, and the
temp file never grows beyond the announced length. A rewind does not truncate, so after a reset old
bytes stand behind the cursor; they are overwritten because the upload ends at the announced length
only.

A failed write breaks this. `tellp` answers minus one, which as an unsigned number is no longer below
any length, so the very call that lost data declares the upload complete and queues it as it is
(`writeChunk_of_fail`). `SoundWrite` is the condition under which that does not happen.
-/
import MediaArchiver.Lib.Machine
import MediaArchiver.Daemon.Session

namespace MediaArchiver

open Lib (Machine OutStream WriteAnswer Cursor maxOffset)

/-! ## One call of writeChunk -/

namespace ConnectedClient

variable {cli : ConnectedClient} {cfg : DaemonConfig} {written : WriteAnswer UInt8} {flushed : Nat}
  {data : DataChunk}

theorem writeChunk_of_refuses (h : cli.refuses data = true) :
    cli.writeChunk cfg written flushed data
      = ⟨cli, none, .error (.runtimeError "writeChunk: invalid state".toList)⟩ := by
  rw [writeChunk, if_pos h]

theorem isOpen_of_not_refuses (h : cli.refuses data = false) : cli.outFile.isOpen = true := by
  simp only [refuses, Bool.or_eq_false_iff, Bool.not_eq_false'] at h
  exact h.1.1.1.2

/-- The position after a write that the device kept up with is where `tellp` says it is. -/
theorem sizeT_tellp_write (h : cli.outFile.Ready) (ht : cli.outFile.Takes written data.bytes) :
    sizeT (cli.outFile.write written data.bytes).tellp = cli.outFile.position + data.size := by
  have hpos : (cli.outFile.write written data.bytes).position = cli.outFile.position + data.size :=
    congrArg Cursor.pos (Lib.OutStream.cursor_write h ht)
  have hlt : cli.outFile.position + data.size < 2 ^ 64 :=
    Nat.lt_of_le_of_lt ht.2 (by decide)
  rw [Lib.OutStream.tellp_ready (Lib.OutStream.ready_write h ht), hpos]
  exact sizeT_natCast hlt

/-- An accepted chunk does not reach beyond the announced length. -/
theorem position_le_of_not_refuses (h : cli.refuses data = false) (hready : cli.outFile.Ready)
    (ht : cli.outFile.Takes written data.bytes) :
    cli.outFile.position + data.size ≤ cli.encResult.fileLength.toNat := by
  have hsum : cli.outFile.position + data.size < 2 ^ 64 :=
    Nat.lt_of_le_of_lt ht.2 (by decide)
  simp only [refuses, Bool.or_eq_false_iff, decide_eq_false_iff_not] at h
  have hover := h.2
  rw [Lib.OutStream.tellp_ready hready, sizeT_natCast (by omega), Nat.mod_eq_of_lt hsum] at hover
  omega

/-- A chunk within the announced length is accepted as long as the stream is in order. -/
theorem refuses_eq_false (hid : cli.originalFileId ≠ 0) (hready : cli.outFile.Ready)
    (hpos : 0 < cli.encResult.fileLength.toNat)
    (hle : cli.outFile.position + data.size ≤ cli.encResult.fileLength.toNat) :
    cli.refuses data = false := by
  have hlt := cli.encResult.fileLength.toNat_lt
  have hne : cli.encResult.fileLength ≠ 0 := by
    intro hzero
    rw [hzero] at hpos
    exact absurd hpos (by decide)
  have hover : ¬ cli.encResult.fileLength.toNat
      < (sizeT cli.outFile.tellp + data.size) % 2 ^ 64 := by
    rw [Lib.OutStream.tellp_ready hready, sizeT_natCast (by omega), Nat.mod_eq_of_lt (by omega)]
    omega
  simp only [refuses, hid, hready.isOpen, hready.badbit, hne, hover, decide_false, Bool.not_true,
    Bool.or_self]

/-- A chunk that does not reach the announced length keeps the upload going. -/
theorem writeChunk_more (h : cli.refuses data = false) (hready : cli.outFile.Ready)
    (ht : cli.outFile.Takes written data.bytes)
    (hlt : cli.outFile.position + data.size < cli.encResult.fileLength.toNat) :
    cli.writeChunk cfg written flushed data
      = ⟨{ cli with outFile := cli.outFile.write written data.bytes }, none, .ok true⟩ := by
  simp only [writeChunk, h, Bool.false_eq_true, if_false, sizeT_tellp_write hready ht, hlt, if_true]

/-- A chunk that reaches the announced length ends the upload. -/
theorem writeChunk_last (h : cli.refuses data = false) (hready : cli.outFile.Ready)
    (ht : cli.outFile.Takes written data.bytes)
    (hge : cli.encResult.fileLength.toNat ≤ cli.outFile.position + data.size) :
    cli.writeChunk cfg written flushed data
      = ⟨({ cli with outFile := (cli.outFile.write written data.bytes).close flushed }
          : ConnectedClient).prepareNewSession cfg |>.1,
        some (({ cli with outFile := (cli.outFile.write written data.bytes).close flushed }
          : ConnectedClient).prepareNewSession cfg).2, .ok false⟩ := by
  simp only [writeChunk, h, Bool.false_eq_true, if_false, sizeT_tellp_write hready ht,
    Nat.not_lt.mpr hge]

/-- On a stream that has failed a chunk ends the upload: the stream's position is no longer below any
length. -/
theorem writeChunk_of_fail (h : cli.refuses data = false)
    (hfail : (cli.outFile.write written data.bytes).fail = true) :
    cli.writeChunk cfg written flushed data
      = ⟨({ cli with outFile := (cli.outFile.write written data.bytes).close flushed }
          : ConnectedClient).prepareNewSession cfg |>.1,
        some (({ cli with outFile := (cli.outFile.write written data.bytes).close flushed }
          : ConnectedClient).prepareNewSession cfg).2, .ok false⟩ := by
  have hend : ¬ sizeT (-1) < cli.encResult.fileLength.toNat := by
    rw [sizeT_neg_one]
    have hlen := cli.encResult.fileLength.toNat_lt
    omega
  simp only [writeChunk, h, Bool.false_eq_true, if_false, Lib.OutStream.tellp_fail hfail, hend]

end ConnectedClient

/-! ## The run -/

/-- What the client sent since the last reset: everything, and what was not refused. -/
structure Transfer where
  sent : Bytes
  accepted : Bytes
  refused : Bool
deriving DecidableEq

/-- Nothing was sent yet. -/
def Transfer.start : Transfer := ⟨[], [], false⟩

/-- One more chunk was sent. -/
def Transfer.send (t : Transfer) (data : DataChunk) (accepted : Bool) : Transfer :=
  if accepted then ⟨t.sent ++ data.bytes, t.accepted ++ data.bytes, t.refused⟩
  else ⟨t.sent ++ data.bytes, t.accepted, true⟩

/-- A session during its upload, and what it queued with the transfer that ended in it. -/
structure Upload where
  cli : ConnectedClient
  transfer : Transfer
  queued : List (FileToMove × Transfer)

/-- A call of the uploading client, with the answers of the device. -/
inductive UploadCall where
  | writeChunk (written : WriteAnswer UInt8) (flushed : Nat) (data : DataChunk)
  | reset (flushed : Nat)

namespace Upload

/-- The session right after `postFile`. -/
def start (cli : ConnectedClient) : Upload := ⟨cli, .start, []⟩

/-- The session under the calls of its client. -/
def machine (cfg : DaemonConfig) : Machine Upload UploadCall where
  step u
    | .writeChunk written flushed data =>
        let reply := u.cli.writeChunk cfg written flushed data
        let transfer := u.transfer.send data reply.answer.isOk
        ⟨reply.client, transfer, u.queued ++ (reply.queued.map fun move => (move, transfer)).toList⟩
    | .reset flushed => ⟨u.cli.reset flushed, .start, u.queued⟩

/-- An entry queued as encoded holds the announced number of bytes, and they are the bytes the client
sent since it last reset the session; if no call was refused since, all bytes it sent. -/
def Intact (q : FileToMove × Transfer) : Prop :=
  q.1.result.result = EncodingResult.ok.value →
    q.1.tmp.content.length = q.1.result.fileLength.toNat ∧ q.1.tmp.content = q.2.accepted
      ∧ (q.2.refused = false → q.1.tmp.content = q.2.sent)

instance (q : FileToMove × Transfer) : Decidable (Intact q) :=
  inferInstanceAs (Decidable (_ → _))

/-- A chunk that is accepted meets a stream that has not failed, the device takes it, and if it is the
last one the device also takes what the stream still holds back. -/
def SoundWrite (cli : ConnectedClient) : UploadCall → Prop
  | .writeChunk written flushed data =>
      cli.refuses data = false →
        cli.outFile.fail = false ∧ cli.outFile.Takes written data.bytes
          ∧ (cli.encResult.fileLength.toNat ≤ cli.outFile.position + data.size →
              (cli.outFile.write written data.bytes).Flushes flushed)
  | .reset _ => True

instance (cli : ConnectedClient) : DecidablePred (SoundWrite cli)
  | .writeChunk _ _ _ => inferInstanceAs (Decidable (_ = _ → _ ∧ _ ∧ (_ → _)))
  | .reset _ => inferInstanceAs (Decidable True)

/-- The invariant: a session whose stream has not failed has gone over the accepted bytes, inside the
announced length. -/
structure Sound (u : Upload) : Prop where
  inFile : u.cli.inFile.isOpen = false
  stream : u.cli.outFile.isOpen = true → u.cli.outFile.fail = false →
    u.cli.outFile.Ready ∧ u.cli.outFile.cursor.Holds u.transfer.accepted
      ∧ u.cli.outFile.cursor.content.length ≤ u.cli.encResult.fileLength.toNat
  complete : u.transfer.refused = false → u.transfer.accepted = u.transfer.sent
  queued : ∀ q ∈ u.queued, Intact q

theorem Transfer.send_complete {t : Transfer} (h : t.refused = false → t.accepted = t.sent)
    (data : DataChunk) (accepted : Bool) :
    (t.send data accepted).refused = false →
      (t.send data accepted).accepted = (t.send data accepted).sent := by
  unfold Transfer.send
  cases accepted with
  | true =>
    intro href
    exact congrArg (· ++ data.bytes) (h href)
  | false =>
    intro href
    exact absurd href (by simp)

/-- A reset keeps the invariant: it empties the transfer and rewinds the cursor, or fails the stream. -/
theorem Sound.reset {cfg : DaemonConfig} {u : Upload} (h : u.Sound) (flushed : Nat) :
    ((machine cfg).step u (.reset flushed)).Sound := by
  show Sound ⟨u.cli.reset flushed, .start, u.queued⟩
  unfold ConnectedClient.reset
  rw [if_neg (by simp [h.inFile])]
  by_cases hopen : u.cli.outFile.isOpen = true
  · rw [if_pos hopen]
    refine ⟨h.inFile, ?_, fun _ => rfl, h.queued⟩
    intro _ hfail
    by_cases hbefore : u.cli.outFile.fail = true
    · -- a failed stream stays where it is, and failed
      have hnow : (u.cli.outFile.rewind flushed).fail = true := by
        rw [Lib.OutStream.rewind_of_fail hbefore]
        exact hbefore
      exact absurd (hnow.symm.trans hfail) (by decide)
    · obtain ⟨hready, _, hlen⟩ := h.stream hopen (by simpa using hbefore)
      by_cases hflush : u.cli.outFile.Flushes flushed
      · refine ⟨Lib.OutStream.ready_rewind hready hflush, ?_, ?_⟩
        · show (u.cli.outFile.rewind flushed).cursor.Holds []
          rw [Lib.OutStream.cursor_rewind hready hflush]
          exact Cursor.holds_rewind _
        · show (u.cli.outFile.rewind flushed).cursor.content.length ≤ _
          rw [Lib.OutStream.cursor_rewind hready hflush]
          exact hlen
      · exact absurd ((Lib.OutStream.fail_rewind hflush).symm.trans hfail) (by decide)
  · rw [if_neg hopen]
    exact ⟨h.inFile, fun ho => absurd ho hopen, fun _ => rfl, h.queued⟩

/-- What the stream holds after an accepted chunk that the device took. -/
theorem Sound.stream_write {u : Upload} (h : u.Sound) {written : WriteAnswer UInt8} {data : DataChunk}
    (hrefuses : u.cli.refuses data = false) (hfail : u.cli.outFile.fail = false)
    (htakes : u.cli.outFile.Takes written data.bytes) :
    u.cli.outFile.Ready
      ∧ (u.cli.outFile.write written data.bytes).cursor.Holds (u.transfer.accepted ++ data.bytes)
      ∧ (u.cli.outFile.write written data.bytes).cursor.content.length
          ≤ u.cli.encResult.fileLength.toNat
      ∧ (u.cli.outFile.write written data.bytes).cursor.pos = u.cli.outFile.position + data.size := by
  have hopen := ConnectedClient.isOpen_of_not_refuses hrefuses
  obtain ⟨hready, hholds, hlen⟩ := h.stream hopen hfail
  have hle := ConnectedClient.position_le_of_not_refuses hrefuses hready htakes
  rw [Lib.OutStream.cursor_write hready htakes]
  refine ⟨hready, Cursor.holds_write hholds data.bytes, ?_, rfl⟩
  rw [Cursor.length_write hholds.pos_le]
  exact Nat.max_le.mpr ⟨hlen, hle⟩

/-- The file that is closed at the announced length is what was accepted. -/
theorem Sound.file_close {u : Upload} (h : u.Sound) {written : WriteAnswer UInt8} {flushed : Nat}
    {data : DataChunk} (hrefuses : u.cli.refuses data = false) (hfail : u.cli.outFile.fail = false)
    (htakes : u.cli.outFile.Takes written data.bytes)
    (hend : u.cli.encResult.fileLength.toNat ≤ u.cli.outFile.position + data.size)
    (hflush : (u.cli.outFile.write written data.bytes).Flushes flushed) :
    ((u.cli.outFile.write written data.bytes).close flushed).file = u.transfer.accepted ++ data.bytes
      ∧ (u.transfer.accepted ++ data.bytes).length = u.cli.encResult.fileLength.toNat := by
  obtain ⟨hready, hholds, hlen, hpos⟩ := h.stream_write hrefuses hfail htakes
  have hle := ConnectedClient.position_le_of_not_refuses hrefuses hready htakes
  have hopen : (u.cli.outFile.write written data.bytes).isOpen = true := by
    rw [Lib.OutStream.isOpen_write]
    exact hready.isOpen
  refine ⟨?_, ?_⟩
  · -- the cursor is at the end of its file
    rw [Lib.OutStream.file_close hopen hflush]
    apply hholds.content_eq
    omega
  · rw [← hholds.1]
    omega

/-- A sound write keeps the invariant; the one that ends the upload queues an intact entry. -/
theorem Sound.writeChunk {cfg : DaemonConfig} {u : Upload} (h : u.Sound)
    {written : WriteAnswer UInt8} {flushed : Nat} {data : DataChunk}
    (hw : SoundWrite u.cli (.writeChunk written flushed data)) :
    ((machine cfg).step u (.writeChunk written flushed data)).Sound := by
  by_cases hrefuses : u.cli.refuses data = true
  · -- nothing happens but that the transfer is no longer complete
    simp only [machine, ConnectedClient.writeChunk_of_refuses hrefuses]
    refine ⟨h.inFile, h.stream, ?_, by simpa using h.queued⟩
    exact Transfer.send_complete h.complete data false
  · rw [Bool.not_eq_true] at hrefuses
    obtain ⟨hfail, htakes, hflush⟩ := hw hrefuses
    obtain ⟨hready, hholds, hlen, _⟩ := h.stream_write hrefuses hfail htakes
    by_cases hmore : u.cli.outFile.position + data.size < u.cli.encResult.fileLength.toNat
    · simp only [machine, ConnectedClient.writeChunk_more hrefuses hready htakes hmore]
      refine ⟨h.inFile, fun _ _ => ⟨Lib.OutStream.ready_write hready htakes, hholds, hlen⟩, ?_,
        by simpa using h.queued⟩
      exact Transfer.send_complete h.complete data true
    · have hend := Nat.le_of_not_lt hmore
      obtain ⟨hfile, hlength⟩ := h.file_close hrefuses hfail htakes hend (hflush hend)
      simp only [machine, ConnectedClient.writeChunk_last hrefuses hready htakes hend]
      refine ⟨rfl, fun ho => absurd ho (by simp [ConnectedClient.prepareNewSession, OutStream.closed]),
        Transfer.send_complete h.complete data true, ?_⟩
      intro q hq
      rcases List.mem_append.mp hq with hq | hq
      · exact h.queued q hq
      · obtain rfl := by simpa using hq
        intro _
        refine ⟨?_, hfile, ?_⟩
        · show ((u.cli.outFile.write written data.bytes).close flushed).file.length
            = u.cli.encResult.fileLength.toNat
          rw [hfile]
          exact hlength
        · intro href
          exact hfile.trans (Transfer.send_complete h.complete data true href)

/-- The invariant holds of a session whose `postFile` was accepted. -/
theorem sound_start {cfg : DaemonConfig} {cli cli' : ConnectedClient} {opens : Bool}
    {result : EncodingResultInfo} (hup : result.Uploads)
    (hpost : cli.postFile cfg opens result = ⟨cli', none, .ok ()⟩) : (start cli').Sound := by
  obtain ⟨_, _, hin, hout, _⟩ := cli.postFile_uploads cfg opens hup (by rw [hpost])
  rw [hpost] at hin hout
  refine ⟨hin, ?_, fun _ => rfl, by simp [start]⟩
  intro _ _
  have hopened : cli'.outFile = .opened := hout
  show cli'.outFile.Ready ∧ cli'.outFile.cursor.Holds [] ∧ cli'.outFile.cursor.content.length ≤ _
  rw [hopened, Lib.OutStream.cursor_opened]
  exact ⟨Lib.OutStream.ready_opened, ⟨rfl, rfl⟩, Nat.zero_le _⟩

/-- In every run in which each accepted write is sound, whatever is queued as encoded is intact. -/
theorem upload_intact (cfg : DaemonConfig) {cli cli' : ConnectedClient} {opens : Bool}
    {result : EncodingResultInfo} (hup : result.Uploads)
    (hpost : cli.postFile cfg opens result = ⟨cli', none, .ok ()⟩) {calls : List UploadCall}
    (hcalls : (machine cfg).Along (fun u call => SoundWrite u.cli call) (start cli') calls) :
    ∀ q ∈ ((machine cfg).run (start cli') calls).queued, Intact q := by
  have hsound : ((machine cfg).run (start cli') calls).Sound := by
    refine (machine cfg).invariant (P := Sound) ?_ (sound_start hup hpost) hcalls
    intro u call hu hw
    cases call with
    | writeChunk written flushed data => exact hu.writeChunk hw
    | reset flushed => exact hu.reset flushed
  exact hsound.queued

/-- A reset in the middle, a temp file that is longer than what was sent, and still the file is what
the client sent after the reset. -/
theorem upload_intact_after_reset :
    let u := (machine gCfg).run
      (start ((ConnectedClient.downloaded 1 "a.mov".toList [7]).postFile gCfg true ⟨5, 3, []⟩).client)
      [.writeChunk ⟨2, true, []⟩ 0 ⟨[1, 2], by decide⟩, .reset 0,
       .writeChunk ⟨0, true, []⟩ 0 ⟨[3], by decide⟩,
       .writeChunk ⟨1, true, []⟩ 2 ⟨[4, 5], by decide⟩]
    u.queued.map (fun q => q.1.tmp.content) = [[3, 4, 5]] ∧ ∀ q ∈ u.queued, Intact q := by
  have hpost : (ConnectedClient.downloaded 1 "a.mov".toList [7]).postFile gCfg true ⟨5, 3, []⟩
      = ⟨((ConnectedClient.downloaded 1 "a.mov".toList [7]).postFile gCfg true ⟨5, 3, []⟩).client,
        none, .ok ()⟩ := rfl
  exact ⟨by decide, upload_intact gCfg (by decide) hpost (by decide)⟩

/-- The device takes nothing of the only chunk, and the upload counts as complete. -/
theorem upload_lost :
    ((ConnectedClient.downloaded 1 "a.mov".toList [7]).postFile gCfg true ⟨5, 3, []⟩).answer = .ok () ∧
    ∃ q ∈ ((machine gCfg).run
      (start ((ConnectedClient.downloaded 1 "a.mov".toList [7]).postFile gCfg true ⟨5, 3, []⟩).client)
      [.writeChunk ⟨0, false, []⟩ 0 ⟨[1, 2, 3], by decide⟩]).queued, ¬ Intact q :=
  ⟨rfl, by decide⟩

end Upload

end MediaArchiver
