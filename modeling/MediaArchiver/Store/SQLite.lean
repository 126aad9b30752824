/-
# MediaArchiver.Store.SQLite -- the catalogue and its queue, statement by statement

The three tables and the four operations on them. Each operation runs under one mutex, so it is one
function on the store; inside, every `select` is the list of rows its callback is invoked with, in
the order of the scan, and every `insert` and `update` is the corresponding list operation.

* `sourcefiles` has an `AUTOINCREMENT` key, `archives` an integer primary key: both are row ids, a
  scan runs in key order. `queue` declares no key at all: it is a plain list of rows.
* A `left join` that finds nothing yields one row of `NULL`s.
* A callback that assigns to captured variables is a fold: what the last row assigns stays.
* `LIMIT 1` without `ORDER BY` keeps *some* row; which one is part of the call (`LimitOne`).

The `start` column is written by every statement and read by none, so it is left out, as is the
variable `processed` of `addFile`, which is computed and never used. Row ids are natural numbers; a
catalogue of `2 ^ 31` files, where the daemon's 32-bit ids would end, is out of scope. So is a text with
a zero character in it, which would end its statement there: the statement fails, and with it the program. No
file name has one, and no client that reads its texts with `fgets` posts one.
-/
import MediaArchiver.Lib.Table
import MediaArchiver.Server

namespace MediaArchiver

open Lib (Table AutoTable)

/-- A media file on disk. -/
structure BasicFileInfo where
  fileName : Path
  fileSize : Nat
deriving DecidableEq

/-- A processed media file: what the client posted, for which source, and the archive's name. -/
structure EncodedFile extends EncodingResultInfo where
  originalFileId : Nat
  fileName : Path
deriving DecidableEq

/-- A row of `sourcefiles`, without its id. -/
structure SourceFile where
  path : Path
  size : Nat
deriving DecidableEq

/-- A row of `queue`. -/
structure QueueRow where
  id : Nat
  status : Int
  count : Nat
  comment : Option Text
deriving DecidableEq

/-- The database. -/
structure Store where
  sourcefiles : AutoTable SourceFile
  archives : Table Nat Path
  queue : List QueueRow

/-- Which row `LIMIT 1` keeps of a result that has no `ORDER BY`. -/
structure LimitOne where
  keep : List (Nat × SourceFile) → Option (Nat × SourceFile)
  keep_mem : ∀ {rows r}, keep rows = some r → r ∈ rows
  keep_isSome : ∀ {rows}, rows ≠ [] → (keep rows).isSome = true

/-- The row that comes first in the scan. -/
def LimitOne.first : LimitOne where
  keep := List.head?
  keep_mem := List.mem_of_mem_head?
  keep_isSome := by
    intro rows h
    simpa [List.isSome_head?] using h

namespace Store

/-- The tables as `setupTables` creates them. -/
def empty : Store := ⟨.empty, .empty, []⟩

/-- `left join`: the matching rows, or one row of `NULL`s. -/
def leftJoin {α : Type} : List α → List (Option α)
  | [] => [none]
  | a :: as => (a :: as).map some

/-- The status column of the queue rows of one id. -/
def statuses (db : Store) (id : Nat) : List Int :=
  (db.queue.filter fun q => q.id = id).map QueueRow.status

/-- `update queue set ... where id = id`. -/
def updateQueue (db : Store) (id : Nat) (set : QueueRow → QueueRow) : Store :=
  { db with queue := db.queue.map fun q => if q.id = id then set q else q }

/-- `insert into queue`. -/
def insertQueue (db : Store) (row : QueueRow) : Store :=
  { db with queue := db.queue ++ [row] }

/-- `insert into archives ... on conflict do nothing`. -/
def insertArchive (db : Store) (id : Nat) (path : Path) : Store :=
  { db with archives := db.archives.insertNew id path }

/-! ## getNextFile -/

/-- `std::numeric_limits<size_t>().max()`. -/
def sizeMax : Nat := 2 ^ 64 - 1

/-- No bound at all if the filter has none. -/
def maxSize (filter : MediaFileRequirements) : Nat :=
  if 0 < filter.maxFileSize then filter.maxFileSize else sizeMax

/-- Some queue row of the id has a status that satisfies `p`. -/
def queued (db : Store) (id : Nat) (p : QueueRow → Bool) : Bool :=
  db.queue.any fun q => q.id = id && p q

/-- The three arms of the union: queued and not started, not queued, failed but worth another try. -/
def candidates (db : Store) (filter : MediaFileRequirements) : List (Nat × SourceFile) :=
  let fits := db.sourcefiles.rows.filter fun s => s.2.size ≤ maxSize filter
  fits.filter (fun s => db.queued s.1 fun q => q.status = 0)
    ++ fits.filter (fun s => !db.queued s.1 fun _ => true)
    ++ fits.filter (fun s =>
        db.queued s.1 fun q => q.status < 0 ∧ -99 ≤ q.status ∧ q.count < 3)

/-- Reserve the next media file for processing. -/
def getNextFile (db : Store) (limit : LimitOne) (filter : MediaFileRequirements) :
    Store × Option (Nat × BasicFileInfo) :=
  match limit.keep (db.candidates filter) with
  | none => (db, none)
  | some (srcId, file) =>
      -- whatever the row says by now, it says started afterwards
      let db :=
        if db.queued srcId fun _ => true then
          db.updateQueue srcId fun q => { q with status := 1, count := q.count + 1 }
        else db.insertQueue ⟨srcId, 1, 1, none⟩
      (db, some (srcId, ⟨file.path, file.size⟩))

/-! ## addFile -/

/-- What the look-up of a source assigns: its id, whether it is queued, the name of its archive. -/
structure SourceLookup where
  srcId : Nat
  inQueue : Bool
  archiveName : Path

/-- The rows of `sourcefiles left join queue using (id) left join archives using (id)` for a path. -/
def sourceRows (db : Store) (path : Path) : List (Nat × Option Int × Option Path) :=
  (db.sourcefiles.rows.filter fun s => s.2.path = path).flatMap fun s =>
    (leftJoin (db.statuses s.1)).map fun status => (s.1, status, db.archives.find? s.1)

/-- The callback of the source look-up. -/
def SourceLookup.assign (l : SourceLookup) (row : Nat × Option Int × Option Path) : SourceLookup where
  srcId := row.1
  inQueue := row.2.1.isSome
  archiveName :=
    match row.2.2 with
    | some name => if name = [] then l.archiveName else name
    | none => l.archiveName

/-- The source look-up. -/
def lookupSource (db : Store) (path : Path) : SourceLookup :=
  (db.sourceRows path).foldl SourceLookup.assign ⟨0, false, []⟩

/-- Put the source into the catalogue if it is not there. -/
def catalogue (db : Store) (src : BasicFileInfo) (l : SourceLookup) : Store × SourceLookup :=
  if l.srcId = 0 then
    ({ db with sourcefiles := db.sourcefiles.append ⟨src.fileName, src.fileSize⟩ },
      { l with srcId := db.sourcefiles.nextKey })
  else (db, l)

/-- The part of `addFile` that runs when a source is given. The flag returned is `putToQueue`. -/
def addSource (db : Store) (src : BasicFileInfo) (dstGiven queue : Bool) :
    Store × SourceLookup × Bool :=
  let (db, l) := db.catalogue src (db.lookupSource src.fileName)
  if !l.inQueue && (queue || dstGiven) then
    (db.insertQueue ⟨l.srcId, if dstGiven then 5 else 0, 0, none⟩, { l with inQueue := true }, true)
  else (db, l, false)

/-- What the look-up of an archive assigns. `putToQueue` now means that the status is final. -/
structure ArchiveLookup where
  found : Bool
  srcId : Nat
  inQueue : Bool
  putToQueue : Bool

/-- The rows of `archives left join queue using (id)` for a path. -/
def archiveRows (db : Store) (path : Path) : List (Nat × Option Int) :=
  (db.archives.rows.filter fun a => a.2 = path).flatMap fun a =>
    (leftJoin (db.statuses a.1)).map fun status => (a.1, status)

/-- The callback of the archive look-up: nothing of the earlier value stays. -/
def ArchiveLookup.assign (_ : ArchiveLookup) (row : Nat × Option Int) : ArchiveLookup where
  found := true
  srcId := row.1
  inQueue := row.2.isSome
  putToQueue :=
    match row.2 with
    | some status => 5 ≤ status
    | none => false

/-- The part of `addFile` that runs when an archive is given. -/
def addArchive (db : Store) (dst : BasicFileInfo) (l : SourceLookup) (putToQueue : Bool) :
    Store × Nat :=
  -- another archive of the source is only logged
  if l.archiveName ≠ [] ∧ dst.fileName = l.archiveName then (db, l.srcId)
  else
    let a := (db.archiveRows dst.fileName).foldl ArchiveLookup.assign
      ⟨false, l.srcId, l.inQueue, putToQueue⟩
    if a.srcId = 0 then (db, 0)
    else
      let db := if a.found then db else db.insertArchive a.srcId dst.fileName
      let db :=
        if !a.inQueue then db.insertQueue ⟨a.srcId, 5, 0, none⟩
        else if !a.putToQueue then
          db.updateQueue a.srcId fun q => { q with status := 5, comment := none }
        else db
      (db, a.srcId)

/-- A file argument counts as given if it is not null and has a name. -/
def given (file : Option BasicFileInfo) : Option BasicFileInfo :=
  file.filter fun f => f.fileName ≠ []

/-- Add a media file to the catalogue and return the id of the source, or 0. -/
def addFile (db : Store) (src dst : Option BasicFileInfo) (queue : Bool) : Store × Nat :=
  let (db, l, putToQueue) :=
    match given src with
    | some src => db.addSource src (given dst).isSome queue
    | none => (db, ⟨0, false, []⟩, false)
  match given dst with
  | some dst => db.addArchive dst l putToQueue
  | none => (db, l.srcId)

/-! ## addEncodedFile and reset -/

/-- The error text as a column value: `NULL` if it is empty. -/
def comment (file : EncodedFile) : Option Text :=
  if file.error = [] then none else some file.error

/-- Record the outcome of an encoding, and the archive if it has a length. The error text is one without a zero
character. -/
def addEncodedFile (db : Store) (file : EncodedFile) : Store :=
  let db := db.updateQueue file.originalFileId fun q =>
    { q with status := file.result.toInt, comment := comment file }
  -- the result is not looked at
  if 0 < file.fileLength then db.insertArchive file.originalFileId file.fileName else db

/-- Set the queue status of a source back to not started. -/
def reset (db : Store) (srcFileId : Nat) : Store :=
  db.updateQueue srcFileId fun q => { q with status := 0 }

end Store

end MediaArchiver
