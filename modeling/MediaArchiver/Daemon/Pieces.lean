/-
# MediaArchiver.Daemon.Pieces -- a session that is sent a given file

The file that a client uploads is known here, and so is the result that announces it. What a session holds
of an upload that is going on is the beginning of the file up to its position, with nothing behind the
announced length. A write of the next piece keeps this, and if it ends the upload, the file is queued.

The client has to know where the session is; `PartAt` says what is known of the position. A session that has
no file takes nothing. Other calls do not disturb an upload: reads, results, chunks of which nothing is
taken. But when the session has finished it, it can be given another file, and that does (`GetsNothing`).
-/
import MediaArchiver.Daemon.InOrder

namespace MediaArchiver

open Lib (OutStream Cursor WriteAnswer)
open Upload (SoundWrite)

/-- No file is granted. -/
def EmptyHanded : Except Exn MediaEncoderSettings → Prop
  | .ok settings => settings.fileLength = 0
  | .error _ => True

instance : DecidablePred EmptyHanded
  | .ok settings => inferInstanceAs (Decidable (settings.fileLength = 0))
  | .error _ => isTrue trivial

namespace DaemonEvent

/-- The call takes a session back. -/
def TakesBack : DaemonEvent → Prop
  | .reset .. | .abort _ => True
  | _ => False

/-- The call brings the rest of the file, from where the session is. -/
def Ends (content : Bytes) (d : Daemon) : DaemonEvent → Prop
  | .writeChunk id _ _ data => ∀ cli ∈ d.session id, data.bytes = content.drop cli.outFile.position
  | _ => False

/-- The call does not get a file. -/
def GetsNothing (cfg : DaemonConfig) (d : Daemon) : DaemonEvent → Prop
  | .getNextFile id limit src filter =>
      EmptyHanded (Daemon.Srv.getNextFile cfg id limit src filter d).2
  | _ => True

instance (cfg : DaemonConfig) (d : Daemon) : DecidablePred (GetsNothing cfg d)
  | .getNextFile .. => inferInstanceAs (Decidable (EmptyHanded _))
  | .authenticate .. | .reset .. | .abort _ | .readChunk .. | .postFile .. | .writeChunk ..
  | .fileSystemChange .. | .moverTake | .moverFinish _ | .stop | .restart => isTrue trivial

instance (content : Bytes) (d : Daemon) : DecidablePred (Ends content d)
  | .writeChunk id .. => inferInstanceAs (Decidable (∀ cli ∈ d.session id, _ = _))
  | .authenticate .. | .reset .. | .abort _ | .getNextFile .. | .readChunk .. | .postFile ..
  | .fileSystemChange .. | .moverTake | .moverFinish _ | .stop | .restart => isFalse not_false

end DaemonEvent

/-- An entry that is queued for an upload holds the file. -/
def Carries (content : Bytes) (move : FileToMove) : Prop :=
  move.result.Uploads → move.tmp.content = content

namespace ConnectedClient

/-- What a session holds of the file that it is sent, and what is known of its position. -/
structure PartAt (content : Bytes) (result : EncodingResultInfo) (X : Nat → Prop)
    (cli : ConnectedClient) : Prop extends InOrder cli where
  isOpen : cli.originalFileId ≠ 0 → cli.outFile.isOpen = true
  encResult : cli.originalFileId ≠ 0 → cli.encResult = result
  holds : cli.originalFileId ≠ 0 → cli.outFile.cursor.Holds (content.take cli.outFile.position)
  length_le : cli.originalFileId ≠ 0 → cli.outFile.cursor.content.length ≤ content.length
  pos : cli.originalFileId ≠ 0 → X cli.outFile.position

variable {content : Bytes} {result : EncodingResultInfo} {cli c : ConnectedClient} {cfg : DaemonConfig}
  {X Y : Nat → Prop}

theorem InOrder.partAt (h : cli.InOrder) (hid : cli.originalFileId = 0) : PartAt content result X cli :=
  ⟨h, fun hne => absurd hid hne, fun hne => absurd hid hne, fun hne => absurd hid hne,
    fun hne => absurd hid hne, fun hne => absurd hid hne⟩

theorem PartAt.mono (h : PartAt content result X cli) (hXY : ∀ pos, X pos → Y pos) :
    PartAt content result Y cli :=
  ⟨h.toInOrder, h.isOpen, h.encResult, h.holds, h.length_le, fun hid => hXY _ (h.pos hid)⟩

/-- It depends on little of the session. -/
theorem PartAt.of_same (h : PartAt content result X cli) (horder : c.InOrder)
    (hout : c.outFile = cli.outFile) (hid : c.originalFileId = cli.originalFileId)
    (henc : c.encResult = cli.encResult) : PartAt content result X c := by
  refine ⟨horder, ?_, ?_, ?_, ?_, ?_⟩ <;> rw [hid]
  · rw [hout]
    exact h.isOpen
  · rw [henc]
    exact h.encResult
  · rw [hout]
    exact h.holds
  · rw [hout]
    exact h.length_le
  · rw [hout]
    exact h.pos

/-- The upload of the result's file begins. -/
theorem partAt_of_accepted (h : cli.InOrder) {opens : Bool} (hup : result.Uploads)
    (hans : (cli.postFile cfg opens result).answer = .ok ()) :
    PartAt content result (· = 0) (cli.postFile cfg opens result).client := by
  obtain ⟨-, -, -, hout, henc⟩ := cli.postFile_uploads cfg opens hup hans
  refine ⟨h.postFile cfg opens result, ?_, fun _ => henc, ?_, ?_, ?_⟩ <;> rw [hout]
  · exact fun _ => rfl
  · intro _
    rw [OutStream.cursor_opened]
    exact ⟨rfl, rfl⟩
  · intro _
    rw [OutStream.cursor_opened]
    exact Nat.zero_le _
  · exact fun _ => rfl

/-- A reset goes back to the start of what the session holds. -/
theorem PartAt.reset (h : PartAt content result X cli) {flushed : Nat}
    (hflush : cli.outFile.isOpen = true → cli.outFile.Flushes flushed) :
    PartAt content result (· = 0) (cli.reset flushed) := by
  have horder := h.toInOrder.reset hflush
  by_cases hid : cli.originalFileId = 0
  · exact horder.partAt ((cli.reset_spec flushed).id.trans hid)
  have hopen := h.isOpen hid
  have hcursor := OutStream.cursor_rewind (h.ready hopen) (hflush hopen)
  have hin : ¬ cli.inFile.isOpen = true := by simp [h.exclusive hopen]
  unfold ConnectedClient.reset at horder ⊢
  rw [if_neg hin, if_pos hopen] at horder ⊢
  refine ⟨horder, ?_, fun _ => h.encResult hid, ?_, ?_, fun _ => congrArg Cursor.pos hcursor⟩
  · intro _
    rw [OutStream.isOpen_rewind]
    exact hopen
  · intro _
    show (cli.outFile.rewind flushed).cursor.Holds
      (content.take (cli.outFile.rewind flushed).cursor.pos)
    rw [hcursor]
    exact Cursor.holds_rewind _
  · intro _
    show (cli.outFile.rewind flushed).cursor.content.length ≤ _
    rw [hcursor]
    exact h.length_le hid

/-- To a session that holds a part an upload goes on as to one that was sent that part. -/
theorem PartAt.sound (h : PartAt content result X cli)
    (hlen : result.fileLength.toNat = content.length) (hid : cli.originalFileId ≠ 0) :
    Upload.Sound ⟨cli, ⟨content.take cli.outFile.position, content.take cli.outFile.position, false⟩,
      []⟩ := by
  have hopen := h.isOpen hid
  refine ⟨h.exclusive hopen, fun _ _ => ⟨h.ready hopen, h.holds hid, ?_⟩, fun _ => rfl, nofun⟩
  show _ ≤ cli.encResult.fileLength.toNat
  rw [h.encResult hid, hlen]
  exact h.length_le hid

/-- The next piece is refused, or taken, or ends the upload with the whole file. -/
theorem PartAt.writeChunk (h : PartAt content result X cli) (cfg : DaemonConfig)
    (hlen : result.fileLength.toNat = content.length) {written : WriteAnswer UInt8} {flushed : Nat}
    {data : DataChunk} (hw : SoundWrite cli (.writeChunk written flushed data))
    (hnext : ∀ pos, X pos → data.bytes <+: content.drop pos)
    (hY : ∀ pos, X pos → Y (pos + data.size)) :
    (∃ e, cli.writeChunk cfg written flushed data = ⟨cli, none, .error e⟩) ∨
      ((∃ res, (cli.writeChunk cfg written flushed data).answer = .ok res)
        ∧ PartAt content result Y (cli.writeChunk cfg written flushed data).client
        ∧ ∀ move ∈ (cli.writeChunk cfg written flushed data).queued, Carries content move) := by
  by_cases hrefuses : cli.refuses data = true
  · exact Or.inl ⟨_, writeChunk_of_refuses hrefuses⟩
  right
  have hnot : cli.refuses data = false := by simpa using hrefuses
  have hid := id_ne_zero_of_not_refuses hnot
  obtain ⟨hfail, htakes, hflush⟩ := hw hnot
  have hready := h.ready (h.isOpen hid)
  have hpiece := hnext _ (h.pos hid)
  have hsound := h.sound hlen hid
  have horder := (h.toInOrder.writeChunk cfg hw).1
  obtain ⟨-, -, hlength, hpos⟩ := hsound.stream_write hnot hfail htakes
  by_cases hmore : cli.outFile.position + data.size < cli.encResult.fileLength.toNat
  · rw [writeChunk_more hnot hready htakes hmore] at horder ⊢
    refine ⟨⟨true, rfl⟩, ⟨horder, ?_, fun _ => h.encResult hid, ?_, ?_, ?_⟩, nofun⟩
    · intro _
      exact (OutStream.isOpen_write ..).trans (h.isOpen hid)
    · intro _
      have hholds := Cursor.holds_write_next (h.holds hid) hpiece
      rw [← OutStream.cursor_write hready htakes] at hholds
      exact hholds
    · intro _
      have heq : cli.encResult.fileLength.toNat = content.length := by
        rw [h.encResult hid, hlen]
      exact heq ▸ hlength
    · intro _
      have hsame : (cli.outFile.write written data.bytes).position = cli.outFile.position + data.size := hpos
      show Y (cli.outFile.write written data.bytes).position
      rw [hsame]
      exact hY _ (h.pos hid)
  · have hend := Nat.le_of_not_lt hmore
    obtain ⟨hfile, hfull⟩ := hsound.file_close hnot hfail htakes hend (hflush hend)
    rw [writeChunk_last hnot hready htakes hend] at horder ⊢
    refine ⟨⟨false, rfl⟩, horder.partAt rfl, ?_⟩
    rintro move ⟨⟩
    intro _
    show ((cli.outFile.write written data.bytes).close flushed).file = content
    have hwhole : (content.take cli.outFile.position ++ data.bytes).length
        = cli.encResult.fileLength.toNat := hfull
    rw [h.encResult hid, hlen, ← Lib.take_add_eq hpiece, List.length_take] at hwhole
    rw [hfile]
    show content.take cli.outFile.position ++ data.bytes = content
    rw [← Lib.take_add_eq hpiece]
    apply List.take_of_length_le
    omega

/-- The rest of the file is refused, or ends the upload with the whole file. -/
theorem PartAt.writeRest (h : PartAt content result X cli) (cfg : DaemonConfig)
    (hlen : result.fileLength.toNat = content.length) {written : WriteAnswer UInt8} {flushed : Nat}
    {data : DataChunk} (hw : SoundWrite cli (.writeChunk written flushed data))
    (hrest : data.bytes = content.drop cli.outFile.position) :
    PartAt content result X (cli.writeChunk cfg written flushed data).client
      ∧ ∀ move ∈ (cli.writeChunk cfg written flushed data).queued, Carries content move := by
  have hhere : PartAt content result (· = cli.outFile.position) cli :=
    ⟨h.toInOrder, h.isOpen, h.encResult, h.holds, h.length_le, fun _ => rfl⟩
  have hnext : ∀ pos, pos = cli.outFile.position → data.bytes <+: content.drop pos := by
    rintro pos rfl
    exact hrest ▸ List.prefix_rfl
  have hend : ∀ pos, pos = cli.outFile.position → content.length ≤ pos + data.size := by
    rintro pos rfl
    rw [DataChunk.size, hrest, List.length_drop]
    omega
  rcases hhere.writeChunk cfg hlen hw hnext hend with ⟨e, heq⟩ | ⟨-, hafter, hqueued⟩
  · rw [heq]
    refine ⟨h, ?_⟩
    intro move hmove
    cases hmove
  · refine ⟨hafter.toInOrder.partAt ?_, hqueued⟩
    -- an upload that goes on has not got all of it
    by_contra hid
    have hbelow := hafter.below (hafter.isOpen hid)
    rw [hafter.encResult hid, hlen] at hbelow
    exact absurd hbelow (Nat.not_lt.mpr (hafter.pos hid))

/-- A session that is granted nothing has no file then, if it had no output file before. -/
theorem id_getNextFile {stopRequested : Bool} {db : Store} {limit : LimitOne} {src : SourceAnswers}
    {filter : MediaFileRequirements} (hid : cli.originalFileId = 0)
    (hempty : EmptyHanded (cli.getNextFile cfg stopRequested db limit src filter).2.2) :
    (cli.getNextFile cfg stopRequested db limit src filter).2.1.originalFileId = 0 := by
  rcases cli.getNextFile_refused_or_idle cfg stopRequested db limit src filter with
    ⟨e, heq⟩ | ⟨hin, hout⟩
  · rw [heq]
    exact hid
  rcases getNextFile_cases hin hout cfg stopRequested db limit src filter with
    ⟨-, heq⟩ | ⟨db', srcId, file, -, -, ⟨-, e, -, heq⟩ | ⟨hread, c, heq, hserves, -, -⟩⟩
  · rw [heq]
    rfl
  · rw [heq]
    rfl
  · rw [heq] at hempty
    have hlength : c.encSettings.fileLength = 0 := hempty
    exact absurd (hserves.length.symm.trans hlength) hread.1

/-- A call that takes nothing back, of which nothing is taken and that gets nothing leaves the upload
alone. -/
theorem PartAt.leaves (h : PartAt content result X cli) {d : Daemon} {e : DaemonEvent} {id : SessionId}
    (he : e.caller = some id) (hcli : d.session id = some cli) (hback : ¬ e.TakesBack)
    (hfiles : e.FilesWork d) (hidles : e.Idles d) (hnothing : e.GetsNothing cfg d) :
    PartAt content result X (cli.leaves cfg d e).1 := by
  have horder := (h.toInOrder.leaves cfg he hcli hfiles).1
  cases e with
  | reset | abort => exact absurd trivial hback
  | readChunk id avail =>
    obtain ⟨hout, -, henc⟩ := cli.readChunk_same cfg avail
    exact h.of_same horder hout (cli.readChunk_spec cfg avail).id henc
  | getNextFile id limit src filter =>
    obtain rfl := Option.some.inj he
    by_cases hid : cli.originalFileId = 0
    · apply horder.partAt
      apply id_getNextFile hid
      have hempty : EmptyHanded (Daemon.Srv.getNextFile cfg id limit src filter d).2 := hnothing
      simpa only [Daemon.Srv.getNextFile, Daemon.withClient, hcli] using hempty
    · obtain ⟨-, -, hsame⟩ := cli.getNextFile_same cfg d.stopRequested d.db limit src filter
      show PartAt content result X (cli.getNextFile cfg d.stopRequested d.db limit src filter).2.1
      rw [hsame (h.isOpen hid)]
      exact h
  | postFile id opens result' =>
    by_cases hid : cli.originalFileId = 0
    · apply horder.partAt
      rcases cli.postFile_spec cfg opens result' with ⟨-, hsame⟩ | ⟨-, move, -, hands⟩
      · exact hsame.id.trans hid
      · exact hands.id
    · have hopen := h.isOpen hid
      show PartAt content result X (cli.postFile cfg opens result').client
      rw [postFile_of_open (h.exclusive hopen) hopen]
      exact h
  | writeChunk id written flushed data =>
    obtain rfl := Option.some.inj he
    show PartAt content result X (cli.writeChunk cfg written flushed data).client
    by_cases hrefuses : cli.refuses data = true
    · rw [writeChunk_of_refuses hrefuses]
      exact h
    have hnot : cli.refuses data = false := by simpa using hrefuses
    have hid := id_ne_zero_of_not_refuses hnot
    have hopen := h.isOpen hid
    obtain ⟨-, htakes, -⟩ := hfiles cli hcli hnot
    have hempty : data.bytes = [] := hidles.resolve_right fun hrefused => hrefuses (hrefused cli hcli)
    have hcursor : (cli.outFile.write written data.bytes).cursor = cli.outFile.cursor := by
      rw [OutStream.cursor_write (h.ready hopen) htakes, hempty]
      exact Cursor.write_nil (h.ready hopen).pos_le
    have hmore : cli.outFile.position + data.size < cli.encResult.fileLength.toNat := by
      rw [DataChunk.size, hempty]
      exact h.below hopen
    have hkeeps := h.toInOrder.writeChunk cfg (hfiles cli hcli)
    rw [writeChunk_more hnot (h.ready hopen) htakes hmore] at hkeeps ⊢
    have hpos : (cli.outFile.write written data.bytes).position = cli.outFile.position :=
      congrArg Cursor.pos hcursor
    refine ⟨hkeeps.1, ?_, fun _ => h.encResult hid, ?_, ?_, ?_⟩
    · intro _
      exact (OutStream.isOpen_write ..).trans hopen
    · intro _
      rw [hcursor, hpos]
      exact h.holds hid
    · intro _
      rw [hcursor]
      exact h.length_le hid
    · intro _
      rw [hpos]
      exact h.pos hid
  | _ => cases he

end ConnectedClient

namespace Daemon

open ConnectedClient (PartAt)

variable {cfg : DaemonConfig} {token : Text} {content : Bytes} {result : EncodingResultInfo}
  {X Y : Nat → Prop} {d : Daemon} {e : DaemonEvent} {id : SessionId}

/-- A function that was answered has found a session. -/
theorem ok_of_withClient {α : Type} {f : ConnectedClient → Daemon × Except Exn α} {x : α}
    (h : (d.withClient id f).2 = .ok x) : ∃ cli, d.session id = some cli ∧ (f cli).2 = .ok x := by
  unfold withClient at h
  cases hcli : d.session id with
  | none =>
    rw [hcli] at h
    cases h
  | some cli =>
    rw [hcli] at h
    exact ⟨cli, rfl, h⟩

/-- To the upload such a call is nothing. -/
theorem Sole.idles (h : Sole token (PartAt content result X) d) (hmade : e.Made token)
    (hback : ¬ e.TakesBack) (hfiles : e.FilesWork d) (hidles : e.Idles d)
    (hnothing : e.GetsNothing cfg d) :
    Sole token (PartAt content result X) ((machine cfg).step d e) := by
  cases hcaller : e.caller with
  | some id =>
    exact h.leaves cfg hcaller
      (fun cli hcli hpart => hpart.leaves hcaller hcli hback hfiles hidles hnothing) fun _ _ hpart => hpart
  | none =>
    cases e with
    | authenticate id junk token' =>
      obtain rfl := hmade
      exact h.authenticate cfg id junk
    | fileSystemChange | moverTake | moverFinish | stop | restart => exact hmade.elim
    | _ => cases hcaller

/-- The next piece comes. Whatever becomes of it, the session holds a part of the file, and what is queued
is the file; if the piece was taken, it is known where the session is. -/
theorem Sole.writeNext (h : Sole token (PartAt content result X) d) (cfg : DaemonConfig)
    (hlen : result.fileLength.toNat = content.length) {written : Lib.WriteAnswer UInt8} {flushed : Nat}
    {data : DataChunk} (hfiles : (DaemonEvent.writeChunk id written flushed data).FilesWork d)
    (hnext : ∀ pos, X pos → data.bytes <+: content.drop pos)
    (hY : ∀ pos, X pos → Y (pos + data.size)) :
    Sole token (PartAt content result fun _ => True)
        ((machine cfg).step d (.writeChunk id written flushed data))
      ∧ Adds (Carries content) d ((machine cfg).step d (.writeChunk id written flushed data))
      ∧ ∀ res, (Srv.writeChunk cfg id written flushed data.bytes d).2 = .ok res →
        Sole token (PartAt content result Y)
          ((machine cfg).step d (.writeChunk id written flushed data)) := by
  have hcaller : (DaemonEvent.writeChunk id written flushed data).caller = some id := rfl
  refine ⟨?_, ?_, ?_⟩
  · refine h.leaves cfg hcaller ?_ fun _ _ hpart => hpart.mono fun _ _ => trivial
    intro cli hcli hpart
    rcases hpart.writeChunk cfg hlen (hfiles cli hcli) hnext hY with ⟨ex, heq⟩ | ⟨-, hafter, -⟩
    · simp only [ConnectedClient.leaves, heq]
      exact hpart.mono fun _ _ => trivial
    · exact hafter.mono fun _ _ => trivial
  · refine h.adds cfg hcaller ?_
    intro cli hcli hpart
    rcases hpart.writeChunk cfg hlen (hfiles cli hcli) hnext hY with ⟨ex, heq⟩ | ⟨-, -, hqueued⟩
    · simp only [ConnectedClient.leaves, heq]
      intro move hmove
      cases hmove
    · exact hqueued
  · intro res hok
    unfold Srv.writeChunk at hok
    rw [dif_pos data.size_lt] at hok
    obtain ⟨cli₀, hcli₀, hanswer⟩ := ok_of_withClient hok
    refine h.leaves cfg hcaller ?_ ?_
    · intro cli hcli hpart
      obtain rfl := Option.some.inj (hcli₀.symm.trans hcli)
      rcases hpart.writeChunk cfg hlen (hfiles cli₀ hcli) hnext hY with ⟨ex, heq⟩ | ⟨-, hafter, -⟩
      · rw [heq] at hanswer
        cases hanswer
      · exact hafter
    · intro cli hnone
      cases hcli₀.symm.trans hnone

/-- The rest of the file comes. The upload is over, or the session goes on as before. -/
theorem Sole.ends (h : Sole token (PartAt content result X) d) (cfg : DaemonConfig)
    (hlen : result.fileLength.toNat = content.length) (hfiles : e.FilesWork d) (hends : e.Ends content d) :
    Sole token (PartAt content result X) ((machine cfg).step d e)
      ∧ Adds (Carries content) d ((machine cfg).step d e) := by
  cases e with
  | writeChunk id written flushed data =>
    have hcaller : (DaemonEvent.writeChunk id written flushed data).caller = some id := rfl
    have hrest : ∀ cli, d.session id = some cli → PartAt content result X cli →
        PartAt content result X (cli.writeChunk cfg written flushed data).client
          ∧ ∀ move ∈ (cli.writeChunk cfg written flushed data).queued, Carries content move :=
      fun cli hcli hpart => hpart.writeRest cfg hlen (hfiles cli hcli) (hends cli hcli)
    exact ⟨h.leaves cfg hcaller (fun cli hcli hpart => (hrest cli hcli hpart).1) fun _ _ hpart => hpart,
      h.adds cfg hcaller fun cli hcli hpart => (hrest cli hcli hpart).2⟩
  | _ => exact hends.elim

/-- A session that was reset holds what it held, and is at its start. -/
theorem Sole.reset (h : Sole token (PartAt content result X) d) (cfg : DaemonConfig) {flushed : Nat}
    (hfiles : (DaemonEvent.reset id flushed).FilesWork d) (hok : (Srv.reset id flushed d).2 = .ok ()) :
    Sole token (PartAt content result (· = 0)) ((machine cfg).step d (.reset id flushed)) := by
  obtain ⟨cli₀, hcli₀, -⟩ := ok_of_withClient hok
  have hcaller : (DaemonEvent.reset id flushed).caller = some id := rfl
  refine h.leaves cfg hcaller ?_ ?_
  · intro cli hcli hpart
    exact hpart.reset (hfiles cli hcli)
  · intro cli hnone
    cases hcli₀.symm.trans hnone

/-- The result is accepted, and there is a file to upload. -/
theorem InOrder.accepted (h : InOrder token d) (cfg : DaemonConfig) {opens : Bool} (hup : result.Uploads)
    (hok : (Srv.postFile cfg id opens result d).2 = .ok ()) :
    Sole token (PartAt content result (· = 0)) ((machine cfg).step d (.postFile id opens result)) := by
  obtain ⟨cli₀, hcli₀, hanswer⟩ := ok_of_withClient hok
  have horder := h.sessions (id, cli₀) (d.connections.find?_eq_some.mp hcli₀)
  have hcaller : (DaemonEvent.postFile id opens result).caller = some id := rfl
  refine (h.single.sole (P := fun cli => cli = cli₀) hcli₀ rfl).leaves cfg hcaller ?_ ?_
  · rintro cli - rfl
    exact ConnectedClient.partAt_of_accepted horder hup hanswer
  · intro cli hnone
    cases hcli₀.symm.trans hnone

end Daemon

end MediaArchiver
