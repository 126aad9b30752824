/-
# MediaArchiver.Daemon.System -- daemon and database as one machine

The state is what outlives a call: the database, the sessions, the mover's queue, and the entry the
mover is working on. An event is one remote call of one session, one report of the file system watcher,
one of the two steps of the mover (take an entry under the lock, finish it outside), a request to stop,
or a restart on the same database. Lists of events are all interleavings. A call from a session that
never authenticated throws before it does anything.

`Does` says once what an event can do; the invariants of the following modules are case analyses over
it (`step_does`) and never look into a handler.
-/
import MediaArchiver.Lib.Machine
import MediaArchiver.Store.AddFile
import MediaArchiver.Daemon.Connections
import MediaArchiver.Daemon.Mover

namespace MediaArchiver

open Lib (Machine Table WriteAnswer)
open ConnectedClient (SameFile Idle HandsOver Readable)

/-- The daemon with its database. -/
structure Daemon where
  db : Store
  connections : Connections
  filesToMove : List FileToMove
  moving : Option FileToMove
  stopRequested : Bool

/-- What happens to the daemon, with the answers of the environment. -/
inductive DaemonEvent where
  | authenticate (id : SessionId) (junk : Uninitialised) (token : Text)
  | reset (id : SessionId) (flushed : Nat)
  | abort (id : SessionId)
  | getNextFile (id : SessionId) (limit : LimitOne) (src : SourceAnswers)
      (filter : MediaFileRequirements)
  | readChunk (id : SessionId) (avail : Nat)
  | postFile (id : SessionId) (opens : Bool) (result : EncodingResultInfo)
  | writeChunk (id : SessionId) (written : WriteAnswer UInt8) (flushed : Nat) (data : DataChunk)
  | fileSystemChange (getFileSize : Path → Option Nat) (e : EventType) (dst : Path)
  | moverTake
  | moverFinish (outcome : MoveOutcome)
  | stop
  | restart

namespace Daemon

/-- A daemon just started on a database. -/
def start (db : Store) : Daemon := ⟨db, .empty, [], none, false⟩

/-- `checkClient`. -/
def session (d : Daemon) (id : SessionId) : Option ConnectedClient := d.connections.find? id

/-- Store what a handler left behind. -/
def store (d : Daemon) (id : SessionId) (cli : ConnectedClient) (queued : Option FileToMove) :
    Daemon :=
  { d with
    connections := d.connections.insert id cli
    filesToMove := d.filesToMove ++ queued.toList }

/-- `abort`, with the reset of the database. -/
def abort (d : Daemon) (id : SessionId) (cli : ConnectedClient) : Daemon :=
  let (cli, released) := cli.abort
  match released with
  | some srcId => { d.store id cli none with db := d.db.reset srcId }
  | none => d.store id cli none

/-- The mover takes the first entry of its queue; an entry without an id is dropped. -/
def moverTake (d : Daemon) : Daemon :=
  match d.moving, d.filesToMove with
  | none, ftm :: rest =>
      -- a session without a file may post a result, too
      if ftm.result.originalFileId = 0 then { d with filesToMove := rest }
      else { d with filesToMove := rest, moving := some ftm }
  | _, _ => d

/-- The mover finishes the entry it took. -/
def moverFinish (d : Daemon) (outcome : MoveOutcome) : Daemon :=
  match d.moving with
  | some ftm => { d with db := d.db.finishMove ftm outcome, moving := none }
  | none => d

/-- The watcher reports a change. -/
def fileSystemChange (d : Daemon) (cfg : DaemonConfig) (getFileSize : Path → Option Nat)
    (e : EventType) (dst : Path) : Daemon :=
  match cfg.addFileCall getFileSize e dst with
  | some call => { d with db := (d.db.addFile call.src call.dst call.queue).1 }
  | none => d

/-- A call of a session that is known. -/
def call (d : Daemon) (cfg : DaemonConfig) (id : SessionId) (cli : ConnectedClient) :
    DaemonEvent → Daemon
  | .reset _ flushed => d.store id (cli.reset flushed) none
  | .abort _ => d.abort id cli
  | .getNextFile _ limit src filter =>
      let (db, cli, _) := cli.getNextFile cfg d.stopRequested d.db limit src filter
      { d.store id cli none with db := db }
  | .readChunk _ avail => d.store id (cli.readChunk cfg avail).1 none
  | .postFile _ opens result =>
      let reply := cli.postFile cfg opens result
      d.store id reply.client reply.queued
  | .writeChunk _ written flushed data =>
      let reply := cli.writeChunk cfg written flushed data
      d.store id reply.client reply.queued
  | _ => d

/-- One event. -/
def step (cfg : DaemonConfig) (d : Daemon) (e : DaemonEvent) : Daemon :=
  match e with
  | .authenticate id junk token =>
      { d with connections := d.connections.authenticate id junk token }
  | .reset id _ | .abort id | .getNextFile id .. | .readChunk id _ | .postFile id ..
  | .writeChunk id .. =>
      match d.session id with
      | some cli => d.call cfg id cli e
      -- `checkClient` throws
      | none => d
  | .fileSystemChange getFileSize e dst => d.fileSystemChange cfg getFileSize e dst
  | .moverTake => d.moverTake
  | .moverFinish outcome => d.moverFinish outcome
  | .stop => { d with stopRequested := true }
  -- sessions and the mover's queue are lost, the database stays as it is
  | .restart => start d.db

/-- The daemon as a machine. -/
def machine (cfg : DaemonConfig) : Machine Daemon DaemonEvent where
  step := step cfg

/-! ## Pieces of runs -/

/-- The watcher discovers a file. Of the other files it asks for only the given ones exist. -/
def discovers (name : Path) (others : List Path) : DaemonEvent :=
  .fileSystemChange (fun p => if p = name ∨ p ∈ others then some 1 else none) .fileDiscovered name

/-- A session asks for a file, and can open it. -/
def fetches (id : SessionId) : DaemonEvent :=
  .getNextFile id .first ⟨fun _ => some [7], fun _ => some .zero⟩ ⟨[], 0⟩

/-- A session fetches a file of one byte, encodes it to another, uploads that, and it is moved. -/
def archives (id : SessionId) : List DaemonEvent :=
  [fetches id, .readChunk id 1, .postFile id true ⟨5, 1, []⟩,
   .writeChunk id ⟨1, true, []⟩ 0 ⟨[9], by decide⟩, .moverTake, .moverFinish .moved]

/-! ## What an event can do -/

/-- The ways in which an event changes the state. -/
inductive Does (cfg : DaemonConfig) (d : Daemon) : DaemonEvent → Daemon → Prop
  /-- Nothing at all. -/
  | nothing {e} : Does cfg d e d
  | authenticate {id junk token} : Does cfg d (.authenticate id junk token)
      { d with connections := d.connections.authenticate id junk token }
  /-- A stream of a session moved, or a result was accepted. -/
  | keep {e id cli cli'} (hcli : d.session id = some cli) (same : SameFile cli cli') :
      Does cfg d e (d.store id cli' none)
  /-- There was no file for a session. -/
  | forget {id limit src filter cli cli'} (hcli : d.session id = some cli)
      (hin : cli.inFile.isOpen = false) (hout : cli.outFile.isOpen = false)
      (idle : Idle cli cli') : Does cfg d (.getNextFile id limit src filter) (d.store id cli' none)
  /-- A file was reserved and opened for a session. -/
  | reserve {id limit src filter cli cli' db' srcId file} (hcli : d.session id = some cli)
      (hin : cli.inFile.isOpen = false) (hout : cli.outFile.isOpen = false)
      (hdb : d.db.getNextFile limit filter = (db', some (srcId, file)))
      (hread : Readable src file) (token : cli'.token = cli.token)
      (hid : cli'.originalFileId = srcId) (hname : cli'.originalFileName = file.fileName)
      (hout' : cli'.outFile.isOpen = false) (hstop : d.stopRequested = false) :
      Does cfg d (.getNextFile id limit src filter) { d.store id cli' none with db := db' }
  /-- A file was reserved and then could not be opened. -/
  | strand {id limit src filter cli cli' db' srcId file} (hcli : d.session id = some cli)
      (hin : cli.inFile.isOpen = false) (hout : cli.outFile.isOpen = false)
      (hstop : d.stopRequested = false)
      (hdb : d.db.getNextFile limit filter = (db', some (srcId, file)))
      (hread : ¬ Readable src file) (idle : Idle cli cli') :
      Does cfg d (.getNextFile id limit src filter) { d.store id cli' none with db := db' }
  /-- A session gave its file up. -/
  | abort {id cli cli'} (hcli : d.session id = some cli)
      (hopen : cli.inFile.isOpen = true ∨ cli.outFile.isOpen = true) (idle : Idle cli cli') :
      Does cfg d (.abort id) { d.store id cli' none with db := d.db.reset cli.originalFileId }
  /-- A result without an upload was queued. -/
  | postFile {id opens result cli cli' move} (hcli : d.session id = some cli)
      (hup : ¬ result.Uploads) (hands : HandsOver cli cfg result cli' move) :
      Does cfg d (.postFile id opens result) (d.store id cli' (some move))
  /-- An upload was complete. -/
  | writeChunk {id written flushed data cli cli' move} (hcli : d.session id = some cli)
      (hout : cli.outFile.isOpen = true) (hands : HandsOver cli cfg cli.encResult cli' move) :
      Does cfg d (.writeChunk id written flushed data) (d.store id cli' (some move))
  | addFile {getFileSize e dst call}
      (hcall : cfg.addFileCall getFileSize e dst = some call) :
      Does cfg d (.fileSystemChange getFileSize e dst)
        { d with db := (d.db.addFile call.src call.dst call.queue).1 }
  | drop {ftm rest} (hqueue : d.filesToMove = ftm :: rest) (hid : ftm.result.originalFileId = 0) :
      Does cfg d .moverTake { d with filesToMove := rest }
  | take {ftm rest} (hmoving : d.moving = none) (hqueue : d.filesToMove = ftm :: rest)
      (hid : ftm.result.originalFileId ≠ 0) :
      Does cfg d .moverTake { d with filesToMove := rest, moving := some ftm }
  | finish {outcome ftm} (hmoving : d.moving = some ftm) :
      Does cfg d (.moverFinish outcome)
        { d with db := d.db.finishMove ftm outcome, moving := none }
  | stop : Does cfg d .stop { d with stopRequested := true }
  | restart : Does cfg d .restart (start d.db)

theorem does_abort {cfg : DaemonConfig} {d : Daemon} {id : SessionId} {cli : ConnectedClient}
    (hcli : d.session id = some cli) : Does cfg d (.abort id) (d.abort id cli) := by
  unfold Daemon.abort
  rcases cli.abort_spec with ⟨heq, _⟩ | ⟨hid, hidle⟩
  · rw [heq]
    exact .keep hcli (.refl cli)
  · have hopen : cli.inFile.isOpen = true ∨ cli.outFile.isOpen = true := by
      by_contra hnot
      rw [not_or, Bool.not_eq_true, Bool.not_eq_true] at hnot
      simp [ConnectedClient.abort, hnot.1, hnot.2] at hid
    simp only [hid]
    exact .abort hcli hopen hidle

theorem does_getNextFile {cfg : DaemonConfig} {d : Daemon} {id : SessionId} {cli : ConnectedClient}
    (hcli : d.session id = some cli) (limit : LimitOne) (src : SourceAnswers)
    (filter : MediaFileRequirements) :
    Does cfg d (.getNextFile id limit src filter)
      (d.call cfg id cli (.getNextFile id limit src filter)) := by
  simp only [call]
  rcases cli.getNextFile_refused_or_idle cfg d.stopRequested d.db limit src filter with
    ⟨e, heq⟩ | ⟨hin, hout⟩
  · rw [heq]
    exact .keep hcli (.refl cli)
  rcases ConnectedClient.getNextFile_cases hin hout cfg d.stopRequested d.db limit src filter with
    ⟨-, heq⟩ | ⟨db', srcId, file, hstop, hdb, ⟨hread, e, -, heq⟩ | ⟨hread, c, heq, hserves, htoken, houtc⟩⟩
  · rw [heq]
    exact .forget hcli hin hout ⟨rfl, rfl, hin, hout⟩
  · rw [heq]
    exact .strand hcli hin hout hstop hdb hread ⟨rfl, rfl, hin, hout⟩
  · rw [heq]
    exact .reserve hcli hin hout hdb hread htoken hserves.id hserves.name (by rw [houtc]; exact hout) hstop

/-- Every event does one of these things. -/
theorem step_does (cfg : DaemonConfig) (d : Daemon) (e : DaemonEvent) :
    Does cfg d e ((machine cfg).step d e) := by
  show Does cfg d e (step cfg d e)
  cases e with
  | authenticate id junk token => exact .authenticate
  | reset id flushed =>
    cases hcli : d.session id with
    | none => simpa only [step, hcli] using Does.nothing
    | some cli =>
      simp only [step, hcli]
      exact .keep hcli (cli.reset_spec flushed)
  | abort id =>
    cases hcli : d.session id with
    | none => simpa only [step, hcli] using Does.nothing
    | some cli =>
      simp only [step, hcli]
      exact does_abort hcli
  | getNextFile id limit src filter =>
    cases hcli : d.session id with
    | none => simpa only [step, hcli] using Does.nothing
    | some cli => simpa only [step, hcli] using does_getNextFile hcli limit src filter
  | readChunk id avail =>
    cases hcli : d.session id with
    | none => simpa only [step, hcli] using Does.nothing
    | some cli =>
      simp only [step, hcli]
      exact .keep hcli (cli.readChunk_spec cfg avail)
  | postFile id opens result =>
    cases hcli : d.session id with
    | none => simpa only [step, hcli] using Does.nothing
    | some cli =>
      rcases cli.postFile_spec cfg opens result with ⟨hq, hsame⟩ | ⟨hup, move, hq, hover⟩
      · simpa only [step, hcli, call, hq] using Does.keep hcli hsame
      · simpa only [step, hcli, call, hq] using Does.postFile hcli hup hover
  | writeChunk id written flushed data =>
    cases hcli : d.session id with
    | none => simpa only [step, hcli] using Does.nothing
    | some cli =>
      rcases cli.writeChunk_spec cfg written flushed data with ⟨hq, hsame⟩ |
        ⟨hout, move, hq, hover⟩
      · simpa only [step, hcli, call, hq] using Does.keep hcli hsame
      · simpa only [step, hcli, call, hq] using Does.writeChunk hcli hout hover
  | fileSystemChange getFileSize e dst =>
    simp only [step, fileSystemChange]
    split
    · rename_i call hcall
      exact .addFile hcall
    · exact .nothing
  | moverTake =>
    simp only [step, moverTake]
    split
    · rename_i ftm rest hmoving hqueue
      split
      · rename_i hid
        exact .drop hqueue hid
      · rename_i hid
        exact .take hmoving hqueue hid
    · exact .nothing
  | moverFinish outcome =>
    simp only [step, moverFinish]
    split
    · rename_i ftm hmoving
      exact .finish hmoving
    · exact .nothing
  | stop => exact .stop
  | restart => exact .restart

end Daemon

end MediaArchiver
