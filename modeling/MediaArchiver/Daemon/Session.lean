/-
# MediaArchiver.Daemon.Session -- one connected client and the handlers that act on it

Every remote call acts on the record the daemon keeps for the session. A handler is a function from
that record (and the answers of files and streams it uses) to the new record, the entry it appended to
the mover's queue if it did, and the answer to the client. An exception is an answer too: everything
the handler did before it threw stays done, which is why the record comes back in every case.

* A session that downloads has its input stream open, one that uploads its output stream.
* `prepareNewSession` hands the file over to the mover and leaves an idle record behind.
* `writeChunk` decides by the stream position whether the upload is complete. The position is a signed
  number, minus one on a stream that failed; the comparisons with sizes are unsigned (`sizeT`).

The content of a temp file travels with the stream that writes it, and then with the entry of the
mover's queue. The time of the last activity is never read and left out.
-/
import MediaArchiver.Lib.InStream
import MediaArchiver.Lib.OutStream
import MediaArchiver.Store.Statuses
import MediaArchiver.Daemon.Names

namespace MediaArchiver

open Lib (InStream OutStream WriteAnswer findLast)

/-- A `timespec`. -/
structure Timespec where
  sec : Int
  nsec : Int
deriving DecidableEq

/-- Access and modification time of a file. -/
structure Times where
  atime : Timespec
  mtime : Timespec
deriving DecidableEq

/-- All zero, as `memset` leaves them. -/
def Times.zero : Times := ⟨⟨0, 0⟩, ⟨0, 0⟩⟩

/-- A temp file of the daemon: its name and the bytes it holds. -/
structure TempFile where
  name : Path
  content : Bytes
deriving DecidableEq

/-- A session. -/
structure ConnectedClient where
  filter : MediaFileRequirements
  encSettings : MediaEncoderSettings
  encResult : EncodingResultInfo
  originalFileId : Nat
  originalFileName : Path
  tempFileName : Path
  token : Text
  inFile : InStream UInt8
  outFile : OutStream UInt8
  times : Times

/-- An entry of the mover's queue. -/
structure FileToMove where
  result : EncodedFile
  tmp : TempFile
  atime : Timespec
  mtime : Timespec
deriving DecidableEq

/-- What a handler leaves behind: the session, the entry it queued, the answer. -/
structure Reply (α : Type) where
  client : ConnectedClient
  queued : Option FileToMove
  answer : Except Exn α

/-- What opening and examining a source answers. -/
structure SourceAnswers where
  content : Path → Option Bytes
  getFileTimes : Path → Option Times

/-- A signed number converted to a 64-bit size. -/
def sizeT (z : Int) : Nat := (z % 2 ^ 64).toNat

theorem sizeT_natCast {n : Nat} (h : n < 2 ^ 64) : sizeT (n : Int) = n := by
  unfold sizeT
  omega

/-- A failed stream seems to be at the largest of all positions. -/
theorem sizeT_neg_one : sizeT (-1) = 2 ^ 64 - 1 := rfl

/-- What nothing initialises in a new session although it is read. -/
structure Uninitialised where
  originalFileId : Nat
  times : Times

/-- Encoder settings and result after they were assigned a new object. The members that have no
initialiser are assigned before they are read again. -/
def noSettings : MediaEncoderSettings := ⟨0, [], [], [], []⟩

def noResult : EncodingResultInfo := ⟨0, 0, []⟩

namespace ConnectedClient

/-- A new session. -/
def fresh (junk : Uninitialised) : ConnectedClient where
  filter := ⟨[], 0⟩
  encSettings := noSettings
  encResult := noResult
  originalFileId := junk.originalFileId
  originalFileName := []
  tempFileName := []
  token := []
  inFile := .closed
  outFile := .closed
  times := junk.times

/-- A session that has downloaded all of a file. -/
def downloaded (id : Nat) (name : Path) (content : Bytes) : ConnectedClient :=
  { fresh ⟨0, .zero⟩ with
    originalFileId := id
    originalFileName := name
    encSettings := { noSettings with fileLength := content.length }
    inFile := { InStream.opened content with offset := content.length } }

/-- Put the current result into the mover's queue and clear the session. -/
def prepareNewSession (cli : ConnectedClient) (cfg : DaemonConfig) : ConnectedClient × FileToMove :=
  ({ cli with
     originalFileId := 0
     tempFileName := []
     originalFileName := []
     encSettings := noSettings
     encResult := noResult
     inFile := .closed
     outFile := .closed
     times := .zero },
   { result :=
       { cli.encResult with
         originalFileId := cli.originalFileId
         fileName := cfg.getArchivedFileName cli.originalFileName }
     tmp := ⟨cli.tempFileName, cli.outFile.file⟩
     atime := cli.times.atime
     mtime := cli.times.mtime })

/-- Go back to the start of the file that is open. The device takes `flushed` bytes of the output
stream's put area. -/
def reset (cli : ConnectedClient) (flushed : Nat) : ConnectedClient :=
  -- no `clear` before the seeks
  if cli.inFile.isOpen then { cli with inFile := cli.inFile.rewind }
  else if cli.outFile.isOpen then { cli with outFile := cli.outFile.rewind flushed }
  else cli

/-- Give up the file that is open, if there is one. The id comes back that the database resets. -/
def abort (cli : ConnectedClient) : ConnectedClient × Option Nat :=
  -- a session between download and upload has no open stream and keeps its file
  if cli.inFile.isOpen || cli.outFile.isOpen then
    ({ cli with
       inFile := .closed
       outFile := .closed
       originalFileId := 0
       tempFileName := []
       originalFileName := []
       encSettings := noSettings
       encResult := noResult },
     some cli.originalFileId)
  else (cli, none)

/-! ## getNextFile -/

/-- The encoder's command line, from the settings of the daemon. -/
def commandLine (cfg : DaemonConfig) : Text :=
  let number (flag : String) (n : Int) : Text :=
    if 0 ≤ n then flag.toList ++ (toString n).toList else []
  ("-y -hide_banner -nostats -loglevel warning -copyts -map_metadata 0 "
      ++ "-movflags use_metadata_tags -c:v ").toList
    ++ cfg.vCodec ++ number " -b:v " cfg.vBitRate ++ number " -crf " cfg.crf
    ++ number " -b:a " cfg.aBitRate ++ " -c:a ".toList ++ cfg.aCodec

/-- The extension of a file name, or all of it. -/
def extension (fileName : Path) : Text :=
  match findLast '.' fileName with
  | some posExt => fileName.drop (posExt + 1)
  | none => fileName

/-- The text of the exception for a session whose file is open. -/
def alreadyOpen (id : Nat) (name : Path) (forWhat : String) : Exn :=
  .runtimeError ("The file ".toList ++ (toString id).toList ++ " <".toList ++ name
    ++ "> is already open for ".toList ++ forWhat.toList)

/-- The last part of `getNextFile`: store the id and complete the settings. -/
def announce (cli : ConnectedClient) (cfg : DaemonConfig) (srcId : Nat) : ConnectedClient :=
  { cli with
    originalFileId := srcId
    encSettings :=
      { cli.encSettings with
        encoderType := cli.filter.encoderType
        fileExtension := extension cli.originalFileName
        finalExtension := cfg.finalExtension } }

/-- The first part of `getNextFile`: forget the last file. -/
def forget (cli : ConnectedClient) (filter : MediaFileRequirements) : ConnectedClient :=
  { cli with
    originalFileId := 0
    filter := filter
    encSettings := { cli.encSettings with fileLength := 0 }
    originalFileName := [] }

/-- The file reserved by the database is opened and becomes the file of the session. -/
def openSource (cli : ConnectedClient) (cfg : DaemonConfig) (src : SourceAnswers)
    (file : BasicFileInfo) : Except Exn ConnectedClient :=
  if file.fileSize = 0 then
    .error (.runtimeError ("File <".toList ++ file.fileName ++ "> skipped due to 0 length".toList))
  else
    match src.content file.fileName with
    | none => .error (.ioError ("Could not open file: ".toList ++ file.fileName))
    | some content =>
        match src.getFileTimes file.fileName with
        | none => .error (.runtimeError ("Error stat: ".toList ++ file.fileName))
        | some times =>
            .ok
              { cli with
                times := times
                inFile := .opened content
                originalFileName := file.fileName
                encSettings :=
                  { cli.encSettings with
                    fileLength := file.fileSize
                    commandLineParameters := commandLine cfg } }

/-- Reserve a file and open it for download. What the database reserved stays reserved when the file
cannot be opened. -/
def getNextFile (cli : ConnectedClient) (cfg : DaemonConfig) (stopRequested : Bool) (db : Store)
    (limit : LimitOne) (src : SourceAnswers) (filter : MediaFileRequirements) :
    Store × ConnectedClient × Except Exn MediaEncoderSettings :=
  if cli.inFile.isOpen then
    (db, cli, .error (alreadyOpen cli.originalFileId cli.originalFileName "reading"))
  else if cli.outFile.isOpen then
    (db, cli, .error (alreadyOpen cli.originalFileId cli.tempFileName "writing"))
  else
    let cli := cli.forget filter
    if stopRequested then
      let cli := cli.announce cfg 0
      (db, cli, .ok cli.encSettings)
    else
      match db.getNextFile limit filter with
      | (db, none) =>
          let cli := cli.announce cfg 0
          (db, cli, .ok cli.encSettings)
      | (db, some (srcId, file)) =>
          -- an exception from here on leaves the row started and the id of the session zero
          match cli.openSource cfg src file with
          | .error e => (db, cli, .error e)
          | .ok cli =>
              let cli := cli.announce cfg srcId
              (db, cli, .ok cli.encSettings)

/-! ## readChunk, postFile and writeChunk -/

/-- Read a chunk of the source. The flag returned is false when nothing was read. -/
def readChunk (cli : ConnectedClient) (cfg : DaemonConfig) (avail : Nat) :
    ConnectedClient × Except Exn (Bool × Bytes) :=
  if cli.inFile.isOpen then
    let (inFile, data) := cli.inFile.readsome avail cfg.chunkSize
    let cli := { cli with inFile := inFile }
    if inFile.fail && !inFile.eofbit then (cli, .error (.ioError "Cannot read from file".toList))
    else (cli, .ok (decide (data.length ≠ 0), data))
  else (cli, .error (.ioError "No file is open for read".toList))

/-- The name of the temp file of an upload. -/
def tempName (cli : ConnectedClient) (cfg : DaemonConfig) : Path :=
  let id := (toString cli.originalFileId).toList
  if cfg.tempFolder = ".".toList then cli.originalFileName ++ ".".toList ++ id
  else if cfg.tempFolder = [] then "./".toList ++ id
  else cfg.tempFolder ++ "/".toList ++ id

/-- The part of `postFile` after the source was closed. -/
def acceptResult (cli : ConnectedClient) (cfg : DaemonConfig) (opens : Bool)
    (result : EncodingResultInfo) : Reply Unit :=
  if cli.outFile.isOpen then
    ⟨cli, none, .error (.runtimeError "Output file is still open".toList)⟩
  else
    let cli := { cli with encResult := result }
    if result.Uploads then
      let cli := { cli with tempFileName := cli.tempName cfg }
      -- the result stays with the session even if the file does not open
      if opens then ⟨{ cli with outFile := .opened }, none, .ok ()⟩
      else
        ⟨{ cli with outFile := { cli.outFile with failbit := true } }, none,
          .error (.runtimeError
            ("Could not open output temp file: ".toList ++ cli.tempFileName))⟩
    else
      let (cli, move) := cli.prepareNewSession cfg
      ⟨cli, some move, .ok ()⟩

/-- Take the result of an encoding: prepare the upload, or queue the failure. `opens` answers whether
the temp file could be opened. -/
def postFile (cli : ConnectedClient) (cfg : DaemonConfig) (opens : Bool)
    (result : EncodingResultInfo) : Reply Unit :=
  if cli.inFile.isOpen then
    let (inFile, pos) := cli.inFile.tellg
    let cli := { cli with inFile := inFile }
    if sizeT pos ≠ cli.encSettings.fileLength then
      ⟨cli, none, .error (.runtimeError "File not read till the end".toList)⟩
    else acceptResult { cli with inFile := cli.inFile.close } cfg opens result
  else cli.acceptResult cfg opens result

/-- The chunk is refused: no upload is going on, the stream is broken, or the chunk is too long. -/
def refuses (cli : ConnectedClient) (data : DataChunk) : Bool :=
  cli.originalFileId = 0 || !cli.outFile.isOpen || cli.encResult.fileLength = 0
    || cli.outFile.badbit
    || cli.encResult.fileLength.toNat < (sizeT cli.outFile.tellp + data.size) % 2 ^ 64

/-- Take a chunk of an upload. The flag returned is false when the upload is complete, and then it has
been queued. Writing is answered by `written`; closing flushes `flushed` bytes of the put area. -/
def writeChunk (cli : ConnectedClient) (cfg : DaemonConfig) (written : WriteAnswer UInt8)
    (flushed : Nat) (data : DataChunk) : Reply Bool :=
  if cli.refuses data then
    ⟨cli, none, .error (.runtimeError "writeChunk: invalid state".toList)⟩
  else
    let cli := { cli with outFile := cli.outFile.write written data.bytes }
    -- a write that failed makes `tellp` minus one, which is below no length
    if sizeT cli.outFile.tellp < cli.encResult.fileLength.toNat then ⟨cli, none, .ok true⟩
    else
      -- nobody asks whether `close` could flush
      let cli := { cli with outFile := cli.outFile.close flushed }
      let (cli, move) := cli.prepareNewSession cfg
      ⟨cli, some move, .ok false⟩

/-! ## What a handler does to the file the session holds -/

/-- The session holds what it held. -/
structure SameFile (cli cli' : ConnectedClient) : Prop where
  token : cli'.token = cli.token
  id : cli'.originalFileId = cli.originalFileId
  name : cli'.originalFileName = cli.originalFileName

/-- The session holds nothing any more. -/
structure Idle (cli cli' : ConnectedClient) : Prop where
  token : cli'.token = cli.token
  id : cli'.originalFileId = 0
  inFile : cli'.inFile.isOpen = false
  outFile : cli'.outFile.isOpen = false

/-- The file of the session was queued with a result. -/
structure HandsOver (cli : ConnectedClient) (cfg : DaemonConfig) (result : EncodingResultInfo)
    (cli' : ConnectedClient) (move : FileToMove) : Prop extends Idle cli cli' where
  moveId : move.result.originalFileId = cli.originalFileId
  moveName : move.result.fileName = cfg.getArchivedFileName cli.originalFileName
  moveResult : move.result.toEncodingResultInfo = result

theorem SameFile.refl (cli : ConnectedClient) : SameFile cli cli := ⟨rfl, rfl, rfl⟩

theorem reset_spec (cli : ConnectedClient) (flushed : Nat) :
    SameFile cli (cli.reset flushed) := by
  unfold reset
  split
  · exact ⟨rfl, rfl, rfl⟩
  · split
    · exact ⟨rfl, rfl, rfl⟩
    · exact .refl cli

theorem readChunk_spec (cli : ConnectedClient) (cfg : DaemonConfig) (avail : Nat) :
    SameFile cli (cli.readChunk cfg avail).1 := by
  unfold readChunk
  split
  · dsimp only
    split <;> exact ⟨rfl, rfl, rfl⟩
  · exact .refl cli

/-- Reading a source that is in order is never an error. -/
theorem readChunk_ready {cli : ConnectedClient} (h : cli.inFile.Ready) (cfg : DaemonConfig) (avail : Nat) :
    cli.readChunk cfg avail
      = ({ cli with inFile := (cli.inFile.readsome avail cfg.chunkSize).1 },
          .ok (decide ((cli.inFile.readsome avail cfg.chunkSize).2.length ≠ 0),
            (cli.inFile.readsome avail cfg.chunkSize).2)) := by
  have hready := (Lib.InStream.readsome_ready h avail cfg.chunkSize).1
  have hfine : ((cli.inFile.readsome avail cfg.chunkSize).1.fail
      && !(cli.inFile.readsome avail cfg.chunkSize).1.eofbit) = false := by
    simp [Lib.InStream.fail, hready.failbit, hready.badbit]
  unfold readChunk
  rw [if_pos h.isOpen]
  simp only [hfine, Bool.false_eq_true, if_false]

/-- `abort` does nothing for a session without an open stream; else it gives the file up. -/
theorem abort_spec (cli : ConnectedClient) :
    (cli.abort = (cli, none) ∧ cli.inFile.isOpen = false ∧ cli.outFile.isOpen = false) ∨
      (cli.abort.2 = some cli.originalFileId ∧ Idle cli cli.abort.1) := by
  unfold abort
  by_cases h : (cli.inFile.isOpen || cli.outFile.isOpen) = true
  · rw [if_pos h]
    exact Or.inr ⟨rfl, rfl, rfl, rfl, rfl⟩
  · rw [if_neg h]
    rw [Bool.or_eq_true, not_or, Bool.not_eq_true, Bool.not_eq_true] at h
    exact Or.inl ⟨rfl, h.1, h.2⟩

/-- What the daemon can do with a source it reserved: it has bytes, opens, and has times. -/
def Readable (src : SourceAnswers) (file : BasicFileInfo) : Prop :=
  file.fileSize ≠ 0 ∧ (src.content file.fileName).isSome = true
    ∧ (src.getFileTimes file.fileName).isSome = true

instance (src : SourceAnswers) (file : BasicFileInfo) : Decidable (Readable src file) :=
  inferInstanceAs (Decidable (_ ∧ _))

/-- The session has the source open that was reserved for it, and goes by its id. -/
structure Serves (src : SourceAnswers) (srcId : Nat) (file : BasicFileInfo) (cli : ConnectedClient) :
    Prop where
  id : cli.originalFileId = srcId
  name : cli.originalFileName = file.fileName
  source : ∃ content, src.content file.fileName = some content ∧ cli.inFile = .opened content
  length : cli.encSettings.fileLength = file.fileSize

theorem Serves.isOpen {src : SourceAnswers} {srcId : Nat} {file : BasicFileInfo} {cli : ConnectedClient}
    (h : Serves src srcId file cli) : cli.inFile.isOpen = true := by
  obtain ⟨content, -, hopened⟩ := h.source
  rw [hopened]
  rfl

/-- Opening a source fails exactly if it is not readable. -/
theorem openSource_of_unreadable (cli : ConnectedClient) (cfg : DaemonConfig) {src : SourceAnswers}
    {file : BasicFileInfo} (hread : ¬ Readable src file) : ∃ e, cli.openSource cfg src file = .error e := by
  unfold openSource
  by_cases hsize : file.fileSize = 0
  · rw [if_pos hsize]
    exact ⟨_, rfl⟩
  · rw [if_neg hsize]
    cases hcontent : src.content file.fileName with
    | none => exact ⟨_, rfl⟩
    | some content =>
      cases htimes : src.getFileTimes file.fileName with
      | none => exact ⟨_, rfl⟩
      | some times => exact absurd ⟨hsize, by rw [hcontent]; rfl, by rw [htimes]; rfl⟩ hread

/-! What `getNextFile` comes to: one lemma for each case, and the cases of an idle session. -/

section

variable {cli : ConnectedClient} {db : Store} {limit : LimitOne} {src : SourceAnswers}
  {filter : MediaFileRequirements}

/-- A session that has something open takes no other file. -/
theorem getNextFile_of_busy (cli : ConnectedClient) (cfg : DaemonConfig) (stopRequested : Bool)
    (db : Store) (limit : LimitOne) (src : SourceAnswers) (filter : MediaFileRequirements)
    (hopen : cli.inFile.isOpen = true ∨ cli.outFile.isOpen = true) :
    ∃ e, cli.getNextFile cfg stopRequested db limit src filter = (db, cli, .error e) := by
  unfold getNextFile
  by_cases hin : cli.inFile.isOpen = true
  · rw [if_pos hin]
    exact ⟨_, rfl⟩
  · rw [if_neg hin, if_pos (hopen.resolve_left hin)]
    exact ⟨_, rfl⟩

theorem getNextFile_refused_or_idle (cli : ConnectedClient) (cfg : DaemonConfig) (stopRequested : Bool)
    (db : Store) (limit : LimitOne) (src : SourceAnswers) (filter : MediaFileRequirements) :
    (∃ e, cli.getNextFile cfg stopRequested db limit src filter = (db, cli, .error e)) ∨
      (cli.inFile.isOpen = false ∧ cli.outFile.isOpen = false) := by
  by_cases hbusy : cli.inFile.isOpen = true ∨ cli.outFile.isOpen = true
  · exact Or.inl (cli.getNextFile_of_busy cfg stopRequested db limit src filter hbusy)
  · rw [not_or, Bool.not_eq_true, Bool.not_eq_true] at hbusy
    exact Or.inr hbusy

/-- A daemon that stops has no file. -/
theorem getNextFile_of_stop (cfg : DaemonConfig) (hin : cli.inFile.isOpen = false)
    (hout : cli.outFile.isOpen = false) :
    cli.getNextFile cfg true db limit src filter
      = (db, (cli.forget filter).announce cfg 0,
          .ok ((cli.forget filter).announce cfg 0).encSettings) := by
  simp only [getNextFile, hin, hout, if_true, if_false, Bool.false_eq_true]

theorem getNextFile_of_none (cfg : DaemonConfig) (hin : cli.inFile.isOpen = false)
    (hout : cli.outFile.isOpen = false) (hdb : db.getNextFile limit filter = (db, none)) :
    cli.getNextFile cfg false db limit src filter
      = (db, (cli.forget filter).announce cfg 0,
          .ok ((cli.forget filter).announce cfg 0).encSettings) := by
  simp only [getNextFile, hin, hout, if_false, Bool.false_eq_true, hdb]

/-- A reserved file that cannot be read stays reserved, and the client hears why. -/
theorem getNextFile_of_unreadable (cfg : DaemonConfig) (hin : cli.inFile.isOpen = false)
    (hout : cli.outFile.isOpen = false) {db' : Store} {srcId : Nat} {file : BasicFileInfo}
    (hdb : db.getNextFile limit filter = (db', some (srcId, file))) (hread : ¬ Readable src file) :
    ∃ e, (cli.forget filter).openSource cfg src file = .error e
      ∧ cli.getNextFile cfg false db limit src filter = (db', cli.forget filter, .error e) := by
  obtain ⟨e, he⟩ := (cli.forget filter).openSource_of_unreadable cfg hread
  refine ⟨e, he, ?_⟩
  simp only [getNextFile, hin, hout, if_false, Bool.false_eq_true, hdb, he]

/-- A reserved file that can be read is the session's file. -/
theorem getNextFile_of_readable (cfg : DaemonConfig) (hin : cli.inFile.isOpen = false)
    (hout : cli.outFile.isOpen = false) {db' : Store} {srcId : Nat} {file : BasicFileInfo}
    (hdb : db.getNextFile limit filter = (db', some (srcId, file))) (hread : Readable src file) :
    ∃ cli', cli.getNextFile cfg false db limit src filter = (db', cli', .ok cli'.encSettings)
      ∧ Serves src srcId file cli' ∧ cli'.token = cli.token ∧ cli'.outFile = cli.outFile := by
  obtain ⟨hsize, hcontent, htimes⟩ := hread
  obtain ⟨content, hcontent⟩ := Option.isSome_iff_exists.mp hcontent
  obtain ⟨times, htimes⟩ := Option.isSome_iff_exists.mp htimes
  simp only [getNextFile, hin, hout, if_false, Bool.false_eq_true, hdb, openSource, hsize, hcontent,
    htimes]
  exact ⟨_, rfl, ⟨rfl, rfl, ⟨content, hcontent, rfl⟩, rfl⟩, rfl, rfl⟩

/-- An idle session is given nothing, or hears that what was reserved cannot be read, or has it open. -/
theorem getNextFile_cases (hin : cli.inFile.isOpen = false) (hout : cli.outFile.isOpen = false)
    (cfg : DaemonConfig) (stopRequested : Bool) (db : Store) (limit : LimitOne) (src : SourceAnswers)
    (filter : MediaFileRequirements) :
    ((stopRequested = true ∨ db.getNextFile limit filter = (db, none))
      ∧ cli.getNextFile cfg stopRequested db limit src filter
        = (db, (cli.forget filter).announce cfg 0,
            .ok ((cli.forget filter).announce cfg 0).encSettings)) ∨
    ∃ db' srcId file, stopRequested = false ∧ db.getNextFile limit filter = (db', some (srcId, file)) ∧
      ((¬ Readable src file ∧ ∃ e, (cli.forget filter).openSource cfg src file = .error e
          ∧ cli.getNextFile cfg stopRequested db limit src filter = (db', cli.forget filter, .error e)) ∨
        (Readable src file ∧ ∃ cli',
          cli.getNextFile cfg stopRequested db limit src filter = (db', cli', .ok cli'.encSettings)
            ∧ Serves src srcId file cli' ∧ cli'.token = cli.token ∧ cli'.outFile = cli.outFile)) := by
  cases stopRequested with
  | true => exact Or.inl ⟨Or.inl rfl, getNextFile_of_stop cfg hin hout⟩
  | false =>
    cases hdb : db.getNextFile limit filter with
    | mk db' found =>
      cases found with
      | none =>
        obtain rfl := Store.eq_of_getNextFile_none hdb
        exact Or.inl ⟨Or.inr rfl, getNextFile_of_none cfg hin hout hdb⟩
      | some found =>
        obtain ⟨srcId, file⟩ := found
        refine Or.inr ⟨db', srcId, file, rfl, rfl, ?_⟩
        by_cases hread : Readable src file
        · exact Or.inr ⟨hread, getNextFile_of_readable cfg hin hout hdb hread⟩
        · exact Or.inl ⟨hread, getNextFile_of_unreadable cfg hin hout hdb hread⟩

end

/-- The second half of `postFile`: an error, an upload prepared, or a failure queued. -/
theorem acceptResult_spec (cli : ConnectedClient) (cfg : DaemonConfig) (opens : Bool)
    (result : EncodingResultInfo) :
    (∃ e, cli.acceptResult cfg opens result = ⟨cli, none, .error e⟩) ∨
    (result.Uploads ∧ (cli.acceptResult cfg opens result).queued = none
      ∧ SameFile cli (cli.acceptResult cfg opens result).client
      ∧ (cli.acceptResult cfg opens result).client.inFile = cli.inFile
      ∧ (cli.acceptResult cfg opens result).client.encResult = result
      ∧ ((cli.acceptResult cfg opens result).answer = .ok () →
          (cli.acceptResult cfg opens result).client.outFile = .opened)) ∨
    (¬ result.Uploads ∧ ∃ move, (cli.acceptResult cfg opens result).queued = some move
      ∧ HandsOver cli cfg result (cli.acceptResult cfg opens result).client move) := by
  unfold acceptResult
  split
  · exact Or.inl ⟨_, rfl⟩
  · right
    by_cases hup : result.Uploads
    · left
      rw [if_pos hup]
      cases opens with
      | true => exact ⟨hup, rfl, ⟨rfl, rfl, rfl⟩, rfl, rfl, fun _ => rfl⟩
      | false =>
        refine ⟨hup, rfl, ⟨rfl, rfl, rfl⟩, rfl, rfl, ?_⟩
        intro hans
        cases hans
    · right
      rw [if_neg hup]
      exact ⟨hup, _, rfl, ⟨rfl, rfl, rfl, rfl⟩, rfl, rfl, rfl⟩

/-- `postFile` refuses before anything happened, or accepts the result once the source is closed. -/
theorem postFile_cases (cli : ConnectedClient) (cfg : DaemonConfig) (opens : Bool)
    (result : EncodingResultInfo) :
    (∃ c e, SameFile cli c ∧ cli.postFile cfg opens result = ⟨c, none, .error e⟩) ∨
    (∃ c, SameFile cli c ∧ c.inFile.isOpen = false
      ∧ cli.postFile cfg opens result = c.acceptResult cfg opens result) := by
  unfold postFile
  split
  · dsimp only
    split
    · exact Or.inl
        ⟨{ cli with inFile := cli.inFile.tellg.1 }, _, ⟨rfl, rfl, rfl⟩, rfl⟩
    · refine Or.inr
        ⟨{ cli with inFile := cli.inFile.tellg.1.close }, ⟨rfl, rfl, rfl⟩, ?_, rfl⟩
      unfold Lib.InStream.close
      split
      · rfl
      · rename_i h
        simpa using h
  · rename_i h
    exact Or.inr ⟨cli, .refl cli, by simpa using h, rfl⟩

/-- A `postFile` that accepts an upload leaves the session's file with an open, empty temp file. -/
theorem postFile_uploads (cli : ConnectedClient) (cfg : DaemonConfig) (opens : Bool)
    {result : EncodingResultInfo} (hup : result.Uploads)
    (hans : (cli.postFile cfg opens result).answer = .ok ()) :
    (cli.postFile cfg opens result).queued = none
      ∧ SameFile cli (cli.postFile cfg opens result).client
      ∧ (cli.postFile cfg opens result).client.inFile.isOpen = false
      ∧ (cli.postFile cfg opens result).client.outFile = .opened
      ∧ (cli.postFile cfg opens result).client.encResult = result := by
  rcases cli.postFile_cases cfg opens result with ⟨c, e, _, heq⟩ | ⟨c, hsame, hin, heq⟩
  · rw [heq] at hans
    cases hans
  · rw [heq] at hans ⊢
    rcases c.acceptResult_spec cfg opens result with ⟨e, herr⟩ | ⟨_, hq, hsame', hin', henc, hout⟩ |
      ⟨hnot, _⟩
    · rw [herr] at hans
      cases hans
    · refine ⟨hq, ⟨hsame'.token.trans hsame.token, hsame'.id.trans hsame.id,
        hsame'.name.trans hsame.name⟩, ?_, hout hans, henc⟩
      rw [hin']
      exact hin
    · exact absurd hup hnot

/-- `postFile` keeps the file, or queues it with the posted result if that announces no upload. -/
theorem postFile_spec (cli : ConnectedClient) (cfg : DaemonConfig) (opens : Bool)
    (result : EncodingResultInfo) :
    ((cli.postFile cfg opens result).queued = none
      ∧ SameFile cli (cli.postFile cfg opens result).client) ∨
    (¬ result.Uploads ∧ ∃ move, (cli.postFile cfg opens result).queued = some move
      ∧ HandsOver cli cfg result (cli.postFile cfg opens result).client move) := by
  rcases cli.postFile_cases cfg opens result with ⟨c, e, hsame, heq⟩ | ⟨c, hsame, _, heq⟩
  · rw [heq]
    exact Or.inl ⟨rfl, hsame⟩
  · rw [heq]
    rcases c.acceptResult_spec cfg opens result with ⟨e, herr⟩ | ⟨_, hq, hsame', _⟩ |
      ⟨hup, move, hq, hover⟩
    · rw [herr]
      exact Or.inl ⟨rfl, hsame⟩
    · exact Or.inl ⟨hq, hsame'.token.trans hsame.token, hsame'.id.trans hsame.id,
        hsame'.name.trans hsame.name⟩
    · right
      exact ⟨hup, move, hq,
        ⟨hover.token.trans hsame.token, hover.id, hover.inFile, hover.outFile⟩,
        hover.moveId.trans hsame.id, hover.moveName.trans (by rw [hsame.name]), hover.moveResult⟩

/-- `writeChunk` keeps the file, or queues it with the result of the session. -/
theorem writeChunk_spec (cli : ConnectedClient) (cfg : DaemonConfig) (written : WriteAnswer UInt8)
    (flushed : Nat) (data : DataChunk) :
    ((cli.writeChunk cfg written flushed data).queued = none
      ∧ SameFile cli (cli.writeChunk cfg written flushed data).client) ∨
    (cli.outFile.isOpen = true
      ∧ ∃ move, (cli.writeChunk cfg written flushed data).queued = some move
        ∧ HandsOver cli cfg cli.encResult (cli.writeChunk cfg written flushed data).client move) := by
  unfold writeChunk
  by_cases hrefuses : cli.refuses data = true
  · rw [if_pos hrefuses]
    exact Or.inl ⟨rfl, .refl cli⟩
  · rw [if_neg hrefuses]
    dsimp only
    split
    · exact Or.inl ⟨rfl, rfl, rfl, rfl⟩
    · simp only [refuses, Bool.or_eq_true, not_or, Bool.not_eq_true', Bool.not_eq_false] at hrefuses
      exact Or.inr ⟨hrefuses.1.1.1.2, _, rfl, ⟨rfl, rfl, rfl, rfl⟩, rfl, rfl, rfl⟩

end ConnectedClient

end MediaArchiver
