/-
# MediaArchiver.Client.Transmit -- two ways to see the end of an upload

The daemon sees the end of an upload by counting: it is complete when the announced number of bytes has
been written. The client sees it by reading: the file is at its end when a read got less than a whole
chunk. While nothing fails the two positions move together (`Running`), so the only question is what
the last poll looks like.

* If the chunk size does not divide the length, the last chunk is short, the read sets the end-of-file
  flag, and both sides are finished in the same poll (`Running.step_last`).
* If it does, the last chunk is whole and the flag is not set. The daemon is finished, the client does
  not know, and goes on sending (`Running.step_exact`).

So an upload completes in order exactly if the chunk size does not divide the length, and a chunk of
that size can be made at all (`completes_iff`).
-/
import MediaArchiver.Client.Link

namespace MediaArchiver

open Lib (Machine OutStream InStream WriteAnswer maxOffset)
open ConnectedClient (SameFile)
open MediaArchiverClient (encoded)

namespace Link

variable {cfg : DaemonConfig} {ccfg : ClientConfig} {u : Link} {a : PollAnswers} {content : Bytes}
  {session : ConnectedClient} {offset : Nat} {memory : Bool}

/-! ## What completing means -/

/-- No call and no file operation fails in the poll: calls are answered, the temp file opens, and the
device takes what it is given. `memory` tells whether there is memory for a chunk in every poll. -/
structure Smooth (ccfg : ClientConfig) (memory : Bool) (u : Link) (a : PollAnswers) : Prop where
  memory : memory = true → a.memory = true
  opens : a.opens = true
  postFate : a.postFate = .answered
  writeFate : a.writeFate = .answered
  resetFate : a.resetFate = .answered
  written : u.client.mainState = .transmitting → DataChunk.Allocates a.memory ccfg.chunkSize →
    ∀ data : DataChunk, (u.client.dstFile.read ccfg.chunkSize).2 = data.bytes →
      Upload.SoundWrite u.wire.session (.writeChunk a.written a.flushed data)

/-- If chunks can be made, then in each of the polls. -/
theorem Smooth.allocates (h : Smooth ccfg memory u a)
    (hmem : DataChunk.Allocates memory ccfg.chunkSize) :
    DataChunk.Allocates a.memory ccfg.chunkSize :=
  ⟨hmem.1, hmem.2.imp_right h.memory⟩

/-- The state after the polls. -/
abbrev after (cfg : DaemonConfig) (ccfg : ClientConfig) (content : Bytes) (session : ConnectedClient)
    (es : List PollAnswers) : Link :=
  (machine cfg ccfg).run (start content session) es

/-- No call and no file operation fails in any of the polls. -/
abbrev AllSmooth (cfg : DaemonConfig) (ccfg : ClientConfig) (memory : Bool) (content : Bytes)
    (session : ConnectedClient) (es : List PollAnswers) : Prop :=
  (machine cfg ccfg).Along (Smooth ccfg memory) (start content session) es

/-- The upload of a file completes in order, as long as no call and no file operation fails. -/
structure Completes (cfg : DaemonConfig) (ccfg : ClientConfig) (memory : Bool) (content : Bytes)
    (session : ConnectedClient) : Prop where
  /-- What was sent are consecutive pieces of the file, from its start. -/
  pieces : ∀ es, AllSmooth cfg ccfg memory content session es →
    ((after cfg ccfg content session es).wire.log.map Prod.fst).flatten <+: content
  /-- No call follows the one that the daemon answered with "finished". -/
  last : ∀ es, AllSmooth cfg ccfg memory content session es → ∀ init b rest,
    (after cfg ccfg content session es).wire.log = init ++ (b, some false) :: rest → rest = []
  /-- The client is idle from the very poll of that call on. -/
  idle : ∀ es, AllSmooth cfg ccfg memory content session es →
    ((after cfg ccfg content session es).client.mainState = .idle ↔
      ∃ b, (b, some false) ∈ (after cfg ccfg content session es).wire.log)
  /-- It gets there. -/
  ends : ∃ n, ∀ es, AllSmooth cfg ccfg memory content session es → n ≤ es.length →
    (after cfg ccfg content session es).client.mainState = .idle

/-! ## One poll -/

/-- A poll whose chunk was answered. The client is idle afterwards if the file is at its end. -/
theorem step_sent {data : DataChunk} {res : Bool} (hstate : u.client.mainState = .transmitting)
    (hmem : DataChunk.Allocates a.memory ccfg.chunkSize) (hfate : a.writeFate = .answered)
    (hdata : (u.client.dstFile.read ccfg.chunkSize).2 = data.bytes)
    (hans : (u.wire.session.writeChunk cfg a.written a.flushed data).answer = .ok res)
    (heof : (u.client.dstFile.read ccfg.chunkSize).1.eofbit = true → res = false) :
    (machine cfg ccfg).step u a =
      let reply := u.wire.session.writeChunk cfg a.written a.flushed data
      let client := { u.client with dstFile := (u.client.dstFile.read ccfg.chunkSize).1 }
      ⟨if client.dstFile.eofbit then { client.cleanUp with mainState := .idle } else client,
        ⟨reply.client, u.wire.queued ++ reply.queued.toList,
          u.wire.log ++ [(data.bytes, some res)]⟩⟩ := by
  simp only [machine, MediaArchiverClient.poll, hstate, MediaArchiverClient.doTransmit,
    MediaArchiverClient.transmitChunk, DataChunk.allocate_of_allocates hmem, Wire.server, hfate,
    Fate.deliver, Wire.writeChunk, hdata, data.size_lt, dif_pos, hans]
  by_cases hend : (u.client.dstFile.read ccfg.chunkSize).1.eofbit = true
  · simp only [hend, if_true, heof hend, Bool.false_eq_true, if_false]
    rfl
  · simp only [hend, Bool.false_eq_true, if_false]
    rfl

/-- The result was posted and a chunk is the next thing to be sent: `offset` bytes were sent, and both
sides stand there. -/
structure Running (content : Bytes) (offset : Nat) (u : Link) : Prop where
  state : u.client.mainState = .transmitting
  dstFile : u.client.dstFile.Ready
  file : u.client.dstFile.file = content
  read : u.client.dstFile.offset = offset
  id : u.wire.session.originalFileId ≠ 0
  outFile : u.wire.session.outFile.Ready
  written : u.wire.session.outFile.position = offset
  length : u.wire.session.encResult.fileLength.toNat = content.length
  sent : (u.wire.log.map Prod.fst).flatten = content.take offset
  more : ∀ r ∈ u.wire.log, r.2 = some true

/-- The upload is over for both sides. -/
structure Finished (content : Bytes) (u : Link) : Prop where
  state : u.client.mainState = .idle
  sent : (u.wire.log.map Prod.fst).flatten = content
  log : ∃ init b, u.wire.log = init ++ [(b, some false)] ∧ ∀ r ∈ init, r.2 = some true

/-- The next chunk, which the daemon accepts and the device takes. -/
theorem Running.chunk (h : Running content offset u) (hs : Smooth ccfg memory u a)
    (hmem : DataChunk.Allocates memory ccfg.chunkSize) (hmax : content.length ≤ maxOffset) (hlt : offset < content.length) :
    ∃ data : DataChunk, (u.client.dstFile.read ccfg.chunkSize).2 = data.bytes
      ∧ data.bytes = (content.drop offset).take ccfg.chunkSize
      ∧ u.wire.session.refuses data = false
      ∧ u.wire.session.outFile.Takes a.written data.bytes := by
  have hread : (u.client.dstFile.read ccfg.chunkSize).2
      = (content.drop offset).take ccfg.chunkSize := by
    simp only [InStream.read, h.dstFile.good, if_true, h.dstFile.rest, h.file, h.read]
  have hlen : ((content.drop offset).take ccfg.chunkSize).length ≤ content.length - offset := by
    rw [List.length_take, List.length_drop]
    exact Nat.min_le_right ..
  have hsize : ((content.drop offset).take ccfg.chunkSize).length < 2 ^ 63 := by
    have hbound : maxOffset < 2 ^ 63 := by decide
    omega
  have hrefuses : u.wire.session.refuses ⟨_, hsize⟩ = false := by
    apply ConnectedClient.refuses_eq_false h.id h.outFile
    · rw [h.length]
      omega
    · rw [h.written, h.length]
      show offset + ((content.drop offset).take ccfg.chunkSize).length ≤ content.length
      omega
  obtain ⟨_, htakes, _⟩ := hs.written h.state (hs.allocates hmem) ⟨_, hsize⟩ hread hrefuses
  exact ⟨⟨_, hsize⟩, hread, rfl, hrefuses, htakes⟩

/-- The next chunk, if a whole one is left of the file: the read does not see the end. -/
theorem Running.whole (h : Running content offset u) (hs : Smooth ccfg memory u a)
    (hmem : DataChunk.Allocates memory ccfg.chunkSize) (hmax : content.length ≤ maxOffset)
    (hlt : offset < content.length) (hle : offset + ccfg.chunkSize ≤ content.length) :
    ∃ data : DataChunk, (u.client.dstFile.read ccfg.chunkSize).2 = data.bytes
      ∧ data.bytes = (content.drop offset).take ccfg.chunkSize ∧ data.size = ccfg.chunkSize
      ∧ u.wire.session.refuses data = false
      ∧ u.wire.session.outFile.Takes a.written data.bytes
      ∧ (u.client.dstFile.read ccfg.chunkSize).1.Ready
      ∧ (u.client.dstFile.read ccfg.chunkSize).1.offset = offset + ccfg.chunkSize := by
  obtain ⟨data, hread, hdata, hrefuses, htakes⟩ := h.chunk hs hmem hmax hlt
  have hsize : data.size = ccfg.chunkSize := by
    show data.bytes.length = _
    rw [hdata, List.length_take, List.length_drop]
    omega
  have hfull : u.client.dstFile.offset + ccfg.chunkSize ≤ u.client.dstFile.file.length := by
    rw [h.read, h.file]
    exact hle
  refine ⟨data, hread, hdata, hsize, hrefuses, htakes, InStream.ready_read_full h.dstFile hfull, ?_⟩
  rw [InStream.read_full h.dstFile hfull, ← h.read]

/-- A whole chunk in the middle of the file. -/
theorem Running.step_more (h : Running content offset u) (hs : Smooth ccfg memory u a)
    (hmem : DataChunk.Allocates memory ccfg.chunkSize) (hmax : content.length ≤ maxOffset)
    (hlt : offset + ccfg.chunkSize < content.length) :
    Running content (offset + ccfg.chunkSize) ((machine cfg ccfg).step u a) := by
  obtain ⟨data, hread, hdata, hsize, hrefuses, htakes, hready, hoffset⟩ :=
    h.whole hs hmem hmax (Nat.lt_of_le_of_lt (Nat.le_add_right ..) hlt) (Nat.le_of_lt hlt)
  have hwrite : u.wire.session.writeChunk cfg a.written a.flushed data
      = ⟨{ u.wire.session with outFile := u.wire.session.outFile.write a.written data.bytes }, none,
          .ok true⟩ := by
    apply ConnectedClient.writeChunk_more hrefuses h.outFile htakes
    rw [h.written, h.length, hsize]
    exact hlt
  have hans : (u.wire.session.writeChunk cfg a.written a.flushed data).answer = .ok true := by
    rw [hwrite]
  have heof : (u.client.dstFile.read ccfg.chunkSize).1.eofbit = false := hready.eofbit
  rw [step_sent h.state (hs.allocates hmem) hs.writeFate hread hans
    (by rw [heof]; exact fun hfalse => absurd hfalse (by decide))]
  simp only [hwrite, heof, Bool.false_eq_true, if_false]
  refine ⟨h.state, hready, ?_, hoffset, h.id, Lib.OutStream.ready_write h.outFile htakes, ?_, h.length,
    ?_, ?_⟩
  · exact (InStream.file_read ..).trans h.file
  · have hcursor := congrArg Lib.Cursor.pos (Lib.OutStream.cursor_write h.outFile htakes)
    rw [← hsize, ← h.written]
    exact hcursor
  · rw [List.map_append, List.flatten_append, h.sent, List.take_add, ← hdata]
    simp
  · intro r hr
    rcases List.mem_append.mp hr with hr | hr
    · exact h.more r hr
    · rw [List.mem_singleton.mp hr]

/-- The last chunk, if it is not whole: the client reads to the end of the file. -/
theorem Running.step_last (h : Running content offset u) (hs : Smooth ccfg memory u a)
    (hmem : DataChunk.Allocates memory ccfg.chunkSize) (hmax : content.length ≤ maxOffset)
    (hlt : offset < content.length) (hgt : content.length < offset + ccfg.chunkSize) :
    Finished content ((machine cfg ccfg).step u a) := by
  obtain ⟨data, hread, hdata, hrefuses, htakes⟩ := h.chunk hs hmem hmax hlt
  have hrest : data.bytes = content.drop offset := by
    rw [hdata]
    apply List.take_of_length_le
    rw [List.length_drop]
    omega
  have hsize : offset + data.size = content.length := by
    show offset + data.bytes.length = _
    rw [hrest, List.length_drop]
    omega
  have heof : (u.client.dstFile.read ccfg.chunkSize).1.eofbit = true := by
    rw [InStream.read_short h.dstFile]
    rw [h.read, h.file]
    exact hgt
  have hans : (u.wire.session.writeChunk cfg a.written a.flushed data).answer = .ok false := by
    rw [ConnectedClient.writeChunk_last hrefuses h.outFile htakes]
    rw [h.written, h.length, hsize]
  rw [step_sent h.state (hs.allocates hmem) hs.writeFate hread hans fun _ => rfl]
  simp only [heof, if_true]
  refine ⟨rfl, ?_, u.wire.log, data.bytes, rfl, h.more⟩
  rw [List.map_append, List.flatten_append, h.sent, List.map_singleton, List.flatten_singleton, hrest,
    List.take_append_drop]

/-- The last chunk, if it is whole: the daemon is finished, and the client goes on. -/
theorem Running.step_exact (h : Running content offset u) (hs : Smooth ccfg memory u a)
    (hmem : DataChunk.Allocates memory ccfg.chunkSize) (hmax : content.length ≤ maxOffset)
    (hlt : offset < content.length) (heq : offset + ccfg.chunkSize = content.length) :
    ((machine cfg ccfg).step u a).client.mainState = .transmitting
      ∧ ∃ b, (b, some false) ∈ ((machine cfg ccfg).step u a).wire.log := by
  obtain ⟨data, hread, _, hsize, hrefuses, htakes, hready, _⟩ :=
    h.whole hs hmem hmax hlt (Nat.le_of_eq heq)
  have hans : (u.wire.session.writeChunk cfg a.written a.flushed data).answer = .ok false := by
    rw [ConnectedClient.writeChunk_last hrefuses h.outFile htakes]
    rw [h.written, h.length, hsize, heq]
  rw [step_sent h.state (hs.allocates hmem) hs.writeFate hread hans fun _ => rfl]
  simp only [hready.eofbit, Bool.false_eq_true, if_false]
  exact ⟨h.state, data.bytes, List.mem_append.mpr (Or.inr (List.mem_singleton.mpr rfl))⟩

/-! ## All polls -/

/-- The session holds a file and accepts a result for it. -/
structure Accepts (cfg : DaemonConfig) (result : EncodingResultInfo) (session : ConnectedClient) :
    Prop where
  id : session.originalFileId ≠ 0
  answer : (session.postFile cfg true result).answer = .ok ()

theorem toNat_length (hmax : content.length ≤ maxOffset) :
    (UInt64.ofNat content.length).toNat = content.length := by
  have hbound : maxOffset < 2 ^ 64 := by decide
  exact UInt64.toNat_ofNat_of_lt' (Nat.lt_of_le_of_lt hmax hbound)

theorem uploads_encoded (hne : content ≠ []) (hmax : content.length ≤ maxOffset) :
    (encoded content).encResult.Uploads := by
  refine ⟨rfl, UInt64.lt_iff_toNat_lt.mpr ?_⟩
  show 0 < (UInt64.ofNat content.length).toNat
  rw [toNat_length hmax]
  exact List.length_pos_iff.mpr hne

/-- Once the flags are cleared, the encoded file can be read from its start. -/
theorem ready_encoded (content : Bytes) : (encoded content).dstFile.rewind.clear.Ready := by
  apply InStream.ready_rewind_clear rfl rfl
  show 0 + ((InStream.opened content).rest).length ≤ content.length
  rw [(InStream.ready_opened content).rest]
  simp [InStream.opened]

/-- The first poll posts the result and goes back to the start of the file. -/
theorem running_first (hacc : Accepts cfg (encoded content).encResult session) (hne : content ≠ [])
    (hmax : content.length ≤ maxOffset) (hs : Smooth ccfg memory (start content session) a) :
    Running content 0 ((machine cfg ccfg).step (start content session) a) := by
  have hup := uploads_encoded hne hmax
  obtain ⟨_, hsame, _, hout, henc⟩ := session.postFile_uploads cfg true hup hacc.answer
  have hstep : (machine cfg ccfg).step (start content session) a
      = ⟨{ encoded content with
            dstFile := (encoded content).dstFile.rewind.clear, mainState := .transmitting },
          ⟨(session.postFile cfg true (encoded content).encResult).client,
            [] ++ (session.postFile cfg true (encoded content).encResult).queued.toList, []⟩⟩ := by
    have hpoll : (encoded content).mainState = .sendResult := rfl
    have hauth : (encoded content).authenticated = true := rfl
    simp only [machine, start, MediaArchiverClient.poll, hpoll, MediaArchiverClient.doSendResult,
      Wire.server, hauth, Bool.not_true, Bool.false_eq_true, if_false, hs.postFate, Fate.deliver,
      Wire.postFile, hs.opens, hacc.answer, hup, if_true]
  rw [hstep]
  refine ⟨rfl, ready_encoded content, InStream.file_rewind_clear _, ?_, ?_, ?_, ?_, ?_, rfl, nofun⟩
  · exact InStream.offset_rewind_clear rfl rfl
  · show (session.postFile cfg true (encoded content).encResult).client.originalFileId ≠ 0
    rw [hsame.id]
    exact hacc.id
  · show (session.postFile cfg true (encoded content).encResult).client.outFile.Ready
    rw [hout]
    exact Lib.OutStream.ready_opened
  · show (session.postFile cfg true (encoded content).encResult).client.outFile.position = 0
    rw [hout]
    rfl
  · show (session.postFile cfg true (encoded content).encResult).client.encResult.fileLength.toNat = _
    rw [henc]
    exact toNat_length hmax

/-- In any other state than these two a poll does not touch the upload. -/
theorem step_other (hpost : u.client.mainState ≠ .sendResult)
    (htrans : u.client.mainState ≠ .transmitting) : (machine cfg ccfg).step u a = u := by
  simp only [machine]
  unfold MediaArchiverClient.poll
  split
  · exact absurd ‹_› hpost
  · exact absurd ‹_› htrans
  · rfl

/-- A client that is idle is done with the upload. -/
theorem step_idle (h : u.client.mainState = .idle) : (machine cfg ccfg).step u a = u :=
  step_other (by rw [h]; decide) (by rw [h]; decide)

theorem run_idle (h : u.client.mainState = .idle) (es : List PollAnswers) :
    (machine cfg ccfg).run u es = u := by
  induction es with
  | nil => rfl
  | cons a es ih => rw [Machine.run_cons, step_idle h, ih]

/-- What holds after any number of smooth polls, if the chunk size does not divide the length. -/
inductive InOrder (ccfg : ClientConfig) (content : Bytes) (session : ConnectedClient) : Link → Prop
  | posting : InOrder ccfg content session (start content session)
  | running {offset : Nat} {u : Link} (h : Running content offset u) (hlt : offset < content.length)
      (hdvd : ccfg.chunkSize ∣ offset) : InOrder ccfg content session u
  | finished {u : Link} (h : Finished content u) : InOrder ccfg content session u

variable (cfg) in
/-- A running upload either runs on, a whole chunk further, or is finished. -/
theorem Running.step_cases (h : Running content offset u) (hs : Smooth ccfg memory u a)
    (hmem : DataChunk.Allocates memory ccfg.chunkSize) (hmax : content.length ≤ maxOffset)
    (hlt : offset < content.length) (hdvd : ccfg.chunkSize ∣ offset) (hnot : ¬ ccfg.chunkSize ∣ content.length) :
    (offset + ccfg.chunkSize < content.length
        ∧ Running content (offset + ccfg.chunkSize) ((machine cfg ccfg).step u a)) ∨
      Finished content ((machine cfg ccfg).step u a) := by
  rcases Nat.lt_trichotomy (offset + ccfg.chunkSize) content.length with hmore | heq | hgt
  · exact Or.inl ⟨hmore, h.step_more hs hmem hmax hmore⟩
  · exact absurd (heq ▸ Nat.dvd_add hdvd (Nat.dvd_refl _)) hnot
  · exact Or.inr (h.step_last hs hmem hmax hlt hgt)

theorem InOrder.step (h : InOrder ccfg content session u) (hs : Smooth ccfg memory u a)
    (hmem : DataChunk.Allocates memory ccfg.chunkSize)
    (hacc : Accepts cfg (encoded content).encResult session) (hne : content ≠ [])
    (hmax : content.length ≤ maxOffset) (hnot : ¬ ccfg.chunkSize ∣ content.length) :
    InOrder ccfg content session ((machine cfg ccfg).step u a) := by
  cases h with
  | posting =>
    exact .running (running_first hacc hne hmax hs) (List.length_pos_iff.mpr hne) (Nat.dvd_zero _)
  | running h hlt hdvd =>
    rcases h.step_cases cfg hs hmem hmax hlt hdvd hnot with ⟨hmore, h'⟩ | hfin
    · exact .running h' hmore (Nat.dvd_add hdvd (Nat.dvd_refl _))
    · exact .finished hfin
  | finished h =>
    rw [step_idle h.state]
    exact .finished h

theorem InOrder.pieces (h : InOrder ccfg content session u) :
    (u.wire.log.map Prod.fst).flatten <+: content := by
  cases h with
  | posting => exact List.nil_prefix
  | running h =>
    rw [h.sent]
    exact List.take_prefix _ _
  | finished h => exact ⟨[], by rw [List.append_nil, h.sent]⟩

theorem InOrder.last (h : InOrder ccfg content session u) {init : List (Bytes × Option Bool)}
    {b : Bytes} {rest : List (Bytes × Option Bool)}
    (hlog : u.wire.log = init ++ (b, some false) :: rest) : rest = [] := by
  have hmem : (b, some false) ∈ u.wire.log := by
    rw [hlog]
    exact List.mem_append.mpr (Or.inr List.mem_cons_self)
  cases h with
  | posting => exact absurd hmem List.not_mem_nil
  | running h => exact absurd (h.more _ hmem) (by simp)
  | finished h =>
    obtain ⟨init', b', hlog', hmore⟩ := h.log
    -- an earlier "finished" would be among the answers that are not
    by_contra hne
    obtain ⟨rest', r, hrest⟩ := List.eq_nil_or_concat rest |>.resolve_left hne
    rw [hlog', hrest, List.concat_eq_append, ← List.cons_append, ← List.append_assoc] at hlog
    have hinit := (List.append_inj' hlog rfl).1
    refine absurd (hmore (b, some false) ?_) (by simp)
    rw [hinit]
    exact List.mem_append.mpr (Or.inr List.mem_cons_self)

theorem InOrder.idle_iff (h : InOrder ccfg content session u) :
    u.client.mainState = .idle ↔ ∃ b, (b, some false) ∈ u.wire.log := by
  cases h with
  | posting =>
    apply iff_of_false (by simp [start, encoded])
    rintro ⟨b, hb⟩
    exact absurd hb List.not_mem_nil
  | running h =>
    apply iff_of_false (by simp [h.state])
    rintro ⟨b, hb⟩
    exact absurd (h.more _ hb) (by simp)
  | finished h =>
    obtain ⟨init, b, hlog, _⟩ := h.log
    refine iff_of_true h.state ⟨b, ?_⟩
    rw [hlog]
    exact List.mem_append.mpr (Or.inr (List.mem_singleton.mpr rfl))

/-- A running upload is finished after as many polls as there are bytes left, at the latest. -/
theorem Running.ends (h : Running content offset u)
    (hmem : DataChunk.Allocates memory ccfg.chunkSize) (hmax : content.length ≤ maxOffset)
    (hlt : offset < content.length) (hdvd : ccfg.chunkSize ∣ offset)
    (hnot : ¬ ccfg.chunkSize ∣ content.length) (hpos : 1 ≤ ccfg.chunkSize) {es : List PollAnswers}
    (hes : (machine cfg ccfg).Along (Smooth ccfg memory) u es) (hlen : content.length ≤ offset + es.length) :
    ((machine cfg ccfg).run u es).client.mainState = .idle := by
  induction es generalizing u offset with
  | nil => exact absurd hlt (Nat.not_lt.mpr hlen)
  | cons a es ih =>
    rcases h.step_cases cfg hes.1 hmem hmax hlt hdvd hnot with ⟨hmore, h'⟩ | hfin
    · apply ih h' hmore (Nat.dvd_add hdvd (Nat.dvd_refl _)) hes.2
      rw [List.length_cons] at hlen
      omega
    · rw [Machine.run_cons, run_idle hfin.state]
      exact hfin.state

/-- The answers of a poll in which nothing fails. -/
def perfect (flushed : Nat) : PollAnswers :=
  ⟨true, true, .answered, ⟨0, true, []⟩, flushed, .answered, 0, .answered⟩

variable (ccfg memory) in
/-- Such a poll is smooth while the upload runs. -/
theorem Running.smooth_perfect (h : Running content offset u) (hmax : content.length ≤ maxOffset)
    (hlt : offset < content.length) : Smooth ccfg memory u (perfect content.length) := by
  refine ⟨fun _ => rfl, rfl, rfl, rfl, rfl, ?_⟩
  intro _ _ data hdata _
  have hbytes : data.bytes = (content.drop offset).take ccfg.chunkSize := by
    rw [← hdata]
    simp only [InStream.read, h.dstFile.good, if_true, h.dstFile.rest, h.file, h.read]
  have hle : offset + data.bytes.length ≤ content.length := by
    rw [hbytes, List.length_take, List.length_drop]
    omega
  have htakes : u.wire.session.outFile.Takes ⟨0, true, []⟩ data.bytes := by
    refine ⟨rfl, ?_⟩
    rw [h.written]
    omega
  refine ⟨h.outFile.fail, htakes, fun _ => ?_⟩
  show (u.wire.session.outFile.write ⟨0, true, []⟩ data.bytes).pending.length ≤ content.length
  rw [OutStream.write_of_takes h.outFile htakes]
  show (List.drop 0 (u.wire.session.outFile.pending ++ data.bytes)).length ≤ _
  have hpos : u.wire.session.outFile.offset + u.wire.session.outFile.pending.length = offset :=
    h.written
  rw [List.drop_zero, List.length_append]
  omega

variable (cfg) in
/-- If whole chunks reach the end of the file exactly, the client misses it. -/
theorem Running.overruns (h : Running content offset u)
    (hmem : DataChunk.Allocates memory ccfg.chunkSize) (hmax : content.length ≤ maxOffset)
    (hpos : 1 ≤ ccfg.chunkSize) {n : Nat} (hn : offset + (n + 1) * ccfg.chunkSize = content.length) :
    ∃ es, (machine cfg ccfg).Along (Smooth ccfg memory) u es
      ∧ ((machine cfg ccfg).run u es).client.mainState = .transmitting
      ∧ ∃ b, (b, some false) ∈ ((machine cfg ccfg).run u es).wire.log := by
  induction n generalizing u offset with
  | zero =>
    have heq : offset + ccfg.chunkSize = content.length := by omega
    have hlt : offset < content.length := by omega
    have hs := h.smooth_perfect ccfg memory hmax hlt
    exact ⟨[perfect content.length], ⟨hs, trivial⟩, h.step_exact hs hmem hmax hlt heq⟩
  | succ n ih =>
    rw [Nat.succ_mul] at hn
    have hmore : offset + ccfg.chunkSize < content.length := by
      have hn' : 0 < (n + 1) * ccfg.chunkSize := Nat.mul_pos (Nat.succ_pos n) hpos
      omega
    have hs := h.smooth_perfect ccfg memory hmax (by omega)
    have hnext : Running content (offset + ccfg.chunkSize)
        ((machine cfg ccfg).step u (perfect content.length)) := h.step_more hs hmem hmax hmore
    obtain ⟨es, hes, hend⟩ := ih hnext (by omega)
    exact ⟨perfect content.length :: es, ⟨hs, hes⟩, hend⟩

theorem not_completes_of_dvd (hacc : Accepts cfg (encoded content).encResult session)
    (hne : content ≠ []) (hmax : content.length ≤ maxOffset) (hpos : 1 ≤ ccfg.chunkSize)
    (hmem : DataChunk.Allocates memory ccfg.chunkSize) (hdvd : ccfg.chunkSize ∣ content.length) :
    ¬ Completes cfg ccfg memory content session := by
  intro hcomp
  obtain ⟨k, hk⟩ := hdvd
  have hlen := List.length_pos_iff.mpr hne
  obtain ⟨n, rfl⟩ : ∃ n, k = n + 1 := by
    refine Nat.exists_eq_succ_of_ne_zero fun hzero => ?_
    rw [hzero, Nat.mul_zero] at hk
    omega
  have hfirst : Smooth ccfg memory (start content session) (perfect content.length) :=
    ⟨fun _ => rfl, rfl, rfl, rfl, rfl, nofun⟩
  have hrun := running_first hacc hne hmax hfirst
  obtain ⟨es, hes, hstate, hfalse⟩ := hrun.overruns cfg hmem hmax hpos (n := n)
    (by rw [Nat.zero_add, hk, Nat.mul_comm])
  have hidle := (hcomp.idle (perfect content.length :: es) ⟨hfirst, hes⟩).mpr hfalse
  rw [show (after cfg ccfg content session (perfect content.length :: es)).client.mainState
    = .transmitting from hstate] at hidle
  exact absurd hidle (by decide)

theorem completes_of_not_dvd (hacc : Accepts cfg (encoded content).encResult session)
    (hne : content ≠ []) (hmax : content.length ≤ maxOffset) (hpos : 1 ≤ ccfg.chunkSize)
    (hmem : DataChunk.Allocates memory ccfg.chunkSize) (hnot : ¬ ccfg.chunkSize ∣ content.length) :
    Completes cfg ccfg memory content session := by
  have hinv : ∀ es, AllSmooth cfg ccfg memory content session es →
      InOrder ccfg content session (after cfg ccfg content session es) := fun es hes =>
    (machine cfg ccfg).invariant (fun u a h hs => h.step hs hmem hacc hne hmax hnot) .posting hes
  refine ⟨fun es hes => (hinv es hes).pieces, fun es hes _ _ _ => (hinv es hes).last,
    fun es hes => (hinv es hes).idle_iff, content.length + 1, ?_⟩
  intro es hes hlen
  cases es with
  | nil => exact absurd hlen (Nat.not_succ_le_zero _)
  | cons a es =>
    refine (running_first hacc hne hmax hes.1).ends hmem hmax (List.length_pos_iff.mpr hne)
      (Nat.dvd_zero _) hnot hpos hes.2 ?_
    rw [List.length_cons] at hlen
    omega

/-- A poll in which nothing fails, unless there is no memory for a chunk. -/
def short (memory : Bool) : PollAnswers := { perfect 0 with memory := memory }

variable (cfg) in
/-- Without a chunk the client goes back to the start of its file, and tries again. -/
theorem step_short (hmem : ¬ DataChunk.Allocates memory ccfg.chunkSize)
    (hstate : u.client.mainState = .transmitting) :
    ((machine cfg ccfg).step u (short memory)).client.mainState = .transmitting := by
  obtain ⟨e, hchunk⟩ := MediaArchiverClient.transmitChunk_of_not_allocates
    (Wire.server cfg (short memory)) ccfg hmem u.wire u.client
  have hsend : u.client.doTransmit (Wire.server cfg (short memory)) ccfg (short memory).memory u.wire
      = _ := MediaArchiverClient.doTransmit_of_error hchunk
  simp only [machine, MediaArchiverClient.poll, hstate]
  rw [hsend]
  exact hstate

variable (cfg) in
/-- It does so in every poll. -/
theorem run_short (hmem : ¬ DataChunk.Allocates memory ccfg.chunkSize)
    (hstate : u.client.mainState = .transmitting) (n : Nat) :
    (machine cfg ccfg).Along (Smooth ccfg memory) u (List.replicate n (short memory))
      ∧ ((machine cfg ccfg).run u (List.replicate n (short memory))).client.mainState
        = .transmitting := by
  induction n generalizing u with
  | zero => exact ⟨trivial, hstate⟩
  | succ n ih =>
    have hs : Smooth ccfg memory u (short memory) :=
      ⟨fun h => h, rfl, rfl, rfl, rfl, fun _ halloc => absurd halloc hmem⟩
    obtain ⟨hes, hend⟩ := ih (step_short cfg hmem hstate)
    exact ⟨⟨hs, hes⟩, hend⟩

theorem not_completes_of_not_allocates (hacc : Accepts cfg (encoded content).encResult session)
    (hne : content ≠ []) (hmax : content.length ≤ maxOffset)
    (hmem : ¬ DataChunk.Allocates memory ccfg.chunkSize) :
    ¬ Completes cfg ccfg memory content session := by
  intro hcomp
  obtain ⟨n, hends⟩ := hcomp.ends
  have hfirst : Smooth ccfg memory (start content session) (short memory) :=
    ⟨fun h => h, rfl, rfl, rfl, rfl, nofun⟩
  have hrun := running_first hacc hne hmax hfirst
  obtain ⟨hes, hstate⟩ := run_short cfg hmem hrun.state n
  have hidle := hends (short memory :: List.replicate n (short memory)) ⟨hfirst, hes⟩ (by simp)
  rw [show (after cfg ccfg content session
      (short memory :: List.replicate n (short memory))).client.mainState = .transmitting
    from hstate] at hidle
  cases hidle

/-- The upload of a file completes in order, exactly if the chunk size does not divide its length and
chunks of that size can be made. -/
theorem completes_iff (hacc : Accepts cfg (encoded content).encResult session) (hne : content ≠ [])
    (hmax : content.length ≤ maxOffset) (hpos : 1 ≤ ccfg.chunkSize) :
    Completes cfg ccfg memory content session ↔
      ¬ ccfg.chunkSize ∣ content.length ∧ DataChunk.Allocates memory ccfg.chunkSize := by
  constructor
  · intro hcomp
    have hmem : DataChunk.Allocates memory ccfg.chunkSize := by
      by_contra hnot
      exact not_completes_of_not_allocates hacc hne hmax hnot hcomp
    exact ⟨fun hdvd => not_completes_of_dvd hacc hne hmax hpos hmem hdvd hcomp, hmem⟩
  · rintro ⟨hnot, hmem⟩
    exact completes_of_not_dvd hacc hne hmax hpos hmem hnot

/-- Three bytes in chunks of two. -/
theorem completes_three_by_two :
    Completes gCfg ⟨2, 0⟩ true [1, 2, 3] (.downloaded 1 "a.mov".toList [7]) ↔
      ¬ 2 ∣ 3 ∧ DataChunk.Allocates true 2 :=
  completes_iff ⟨by decide, rfl⟩ (by decide) (by decide) (by decide)

/-- Four bytes in chunks of two. The daemon is finished after the second one. The client sends an empty
chunk, is refused, and does the same again. -/
theorem overruns_four_by_two :
    ¬ Completes gCfg ⟨2, 0⟩ true [1, 2, 3, 4] (.downloaded 1 "a.mov".toList [7]) ∧
    (after gCfg ⟨2, 0⟩ [1, 2, 3, 4] (.downloaded 1 "a.mov".toList [7])
        (List.replicate 5 (perfect 4))).wire.log
      = [([1, 2], some true), ([3, 4], some false), ([], none), ([], none)] :=
  ⟨not_completes_of_dvd ⟨by decide, rfl⟩ (by decide) (by decide) (by decide) (by decide) (by decide),
    by decide⟩

end Link

end MediaArchiver
