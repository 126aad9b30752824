/-
# MediaArchiver.Watcher.Watcher -- the file system watcher: inotify events in, reports out

The watcher has a map from watch descriptors to the names of the watched folders, and one slot for half of
a move. `handleInotifyEvent` turns an event of the kernel into reports to the listener and calls back to
the kernel; `watchDir` walks through a folder at the start, watches every folder in it and reports every
file. What the environment decides is an argument: the name and the arrival time of an event (the clock is
read once for each), the answer of `inotify_add_watch`, and what `readdir` and `stat` find.

The listener is the daemon. Nothing between it and the thread catches exceptions, so how a report ends
(`ReportEnding`) is how the thread ends.
-/
import Mathlib.Data.Int.Order.Basic
import MediaArchiver.Lib.Machine
import MediaArchiver.Daemon.Names

namespace MediaArchiver

open Lib (Machine Table)

/-! ## Bits of an event mask -/

namespace Inotify

def closeWrite : UInt32 := 0x00000008
def closeNowrite : UInt32 := 0x00000010
def movedFrom : UInt32 := 0x00000040
def movedTo : UInt32 := 0x00000080
def create : UInt32 := 0x00000100
def delete : UInt32 := 0x00000200
def deleteSelf : UInt32 := 0x00000400
def unmount : UInt32 := 0x00002000
def onlydir : UInt32 := 0x01000000
def isdir : UInt32 := 0x40000000

def close : UInt32 := closeWrite ||| closeNowrite
def move : UInt32 := movedFrom ||| movedTo

end Inotify

/-- The mask has one of the bits. -/
def has (mask bits : UInt32) : Bool := mask &&& bits != 0

theorem has_or (mask a b : UInt32) : has mask (a ||| b) = (has mask a || has mask b) := by
  have hdistrib : mask &&& (a ||| b) = (mask &&& a) ||| (mask &&& b) :=
    UInt32.toBitVec_inj.mp BitVec.and_or_distrib_left
  rw [Bool.eq_iff_iff, Bool.or_eq_true]
  simp only [has, hdistrib, bne_iff_ne, ne_eq, UInt32.or_eq_zero_iff, not_and_or]

/-- An event as the kernel delivers it. -/
structure InotifyEvent where
  wd : Int
  mask : UInt32
  cookie : UInt32
  name : Path
deriving DecidableEq

/-- A call of the listener. -/
structure Report where
  event : EventType
  src : Path
  dst : Path
deriving DecidableEq

/-- A call of the kernel. -/
inductive KernelCall where
  | addWatch (name : Path) (mask : UInt32)
  | rmWatch (wd : Int)
deriving DecidableEq

/-- The watcher. A cookie of 0 says that no half of a move is kept. -/
structure FileSystemWatcher where
  moveFrom : Bool
  cookie : UInt32
  moveName : Path
  moveStart : Nat
  watchedDirs : Table Int Path

/-- What the handling of an event leaves: the watcher, the reports and the calls, in order. -/
structure Handled where
  watcher : FileSystemWatcher
  reports : List Report
  calls : List KernelCall

namespace FileSystemWatcher

/-- What is asked of the kernel for every folder. -/
def inotifyFlags : UInt32 :=
  Inotify.delete ||| Inotify.deleteSelf ||| Inotify.move ||| Inotify.close ||| Inotify.onlydir

/-- Five seconds, in milliseconds. -/
def moveTimeout : Nat := 5000

/-- The watcher before the first folder is watched. -/
def init : FileSystemWatcher := ⟨false, 0, [], 0, .empty⟩

/-- The full name of what an event is about. -/
def path (w : FileSystemWatcher) (wd : Int) (name : Path) : Path :=
  (w.watchedDirs.find? wd).getD [] ++ '/' :: name

/-- The subscript operator makes an entry where there is none. -/
def subscript (w : FileSystemWatcher) (wd : Int) : FileSystemWatcher :=
  { w with watchedDirs := w.watchedDirs.insertNew wd [] }

/-! ## handleInotifyEvent -/

/-- The events of folders. -/
def handleDirectory (addWatch : Path → Option Int) (w : FileSystemWatcher) (e : InotifyEvent)
    (fileName : Path) : Handled :=
  if has e.mask Inotify.delete then
    -- the descriptor is the one of the folder in which something was deleted
    ⟨{ w with watchedDirs := w.watchedDirs.erase e.wd }, [], [.rmWatch e.wd]⟩
  else if has e.mask Inotify.create then
    match addWatch fileName with
    | none => ⟨w, [], [.addWatch fileName inotifyFlags]⟩
    | some ret =>
        ⟨{ w with watchedDirs := w.watchedDirs.insert ret fileName }, [],
          [.addWatch fileName inotifyFlags]⟩
  else if has e.mask Inotify.unmount then ⟨w, [⟨.unmounted, fileName, fileName⟩], []⟩
  else ⟨w, [], []⟩

/-- Half of a move has been kept for too long. -/
def movePending (w : FileSystemWatcher) (now : Nat) : Bool :=
  0 < w.cookie && w.moveStart + moveTimeout < now

/-- Report half of a move by itself. -/
def flush (w : FileSystemWatcher) (now : Nat) : FileSystemWatcher × List Report :=
  if w.movePending now then
    ({ w with cookie := 0 },
      [⟨.fileMoved, if w.moveFrom then w.moveName else [], if w.moveFrom then [] else w.moveName⟩])
  else (w, [])

/-- The event of one half of a move: keep it, complete the other half, or drop it. -/
def handleMove (w : FileSystemWatcher) (now : Nat) (e : InotifyEvent) (fileName : Path) :
    FileSystemWatcher × List Report :=
  if w.cookie = 0 then
    ({ w with
        cookie := e.cookie, moveName := fileName, moveFrom := has e.mask Inotify.movedFrom,
        moveStart := now }, [])
  else if e.cookie = w.cookie then
    ({ w with cookie := 0 },
      [⟨.fileMoved, if has e.mask Inotify.movedFrom then fileName else w.moveName,
        if has e.mask Inotify.movedFrom then w.moveName else fileName⟩])
  else (w, [])

/-- The events of files. -/
def handleFile (w : FileSystemWatcher) (now : Nat) (e : InotifyEvent) (fileName : Path) :
    FileSystemWatcher × List Report :=
  let (w, flushed) := w.flush now
  if has e.mask Inotify.closeWrite then (w, flushed ++ [⟨.fileCreated, [], fileName⟩])
  else if has e.mask Inotify.delete then (w, flushed ++ [⟨.fileDeleted, [], fileName⟩])
  else if has e.mask Inotify.move && e.cookie != 0 then
    let (w, moved) := w.handleMove now e fileName
    (w, flushed ++ moved)
  else (w, flushed)

/-- Handle one event. -/
def handleInotifyEvent (addWatch : Path → Option Int) (now : Nat) (w : FileSystemWatcher)
    (e : InotifyEvent) : Handled :=
  let fileName := w.path e.wd e.name
  let w := w.subscript e.wd
  if has e.mask Inotify.isdir then w.handleDirectory addWatch e fileName
  else
    let (w, reports) := w.handleFile now e fileName
    ⟨w, reports, []⟩

end FileSystemWatcher

/-- An event, the moment it is handled, and the answers of `inotify_add_watch` then. -/
structure Arrival where
  event : InotifyEvent
  now : Nat
  addWatch : Path → Option Int

namespace FileSystemWatcher

/-- Handle an event that arrives. -/
def handle (w : FileSystemWatcher) (a : Arrival) : Handled := w.handleInotifyEvent a.addWatch a.now a.event

/-- The watcher under the events that it handles. -/
def machine : Machine FileSystemWatcher Arrival where
  step w a := (w.handle a).watcher

/-! ## The map of the watched folders -/

theorem watchedDirs_flush (w : FileSystemWatcher) (now : Nat) :
    (w.flush now).1.watchedDirs = w.watchedDirs := by
  unfold flush
  split <;> rfl

theorem watchedDirs_handleMove (w : FileSystemWatcher) (now : Nat) (e : InotifyEvent) (fileName : Path) :
    (w.handleMove now e fileName).1.watchedDirs = w.watchedDirs := by
  unfold handleMove
  split
  · rfl
  split <;> rfl

/-- The events of files leave the map alone. -/
theorem watchedDirs_handleFile (w : FileSystemWatcher) (now : Nat) (e : InotifyEvent) (fileName : Path) :
    (w.handleFile now e fileName).1.watchedDirs = w.watchedDirs := by
  unfold handleFile
  dsimp only
  split
  · exact watchedDirs_flush w now
  split
  · exact watchedDirs_flush w now
  split
  · exact (watchedDirs_handleMove _ _ _ _).trans (watchedDirs_flush w now)
  · exact watchedDirs_flush w now

end FileSystemWatcher

/-! ## The listener -/

/-- How a call ends. -/
inductive ReportEnding where
  | returned
  | threw (x : Exn)
  | terminated

/-- What a report meets: the sizes that `stat` reports, and whether the statements of the database
succeed. -/
structure Surroundings where
  stat : Path → Option Nat
  stored : Bool

/-- The listener. A statement that fails ends the program, as its exception leaves a destructor. -/
def DaemonConfig.listen (cfg : DaemonConfig) (r : Report) (env : Surroundings) : ReportEnding :=
  match cfg.onFileSystemChange env.stat r.event r.dst with
  | .error x => .threw x
  | .ok none => .returned
  | .ok (some _) => if env.stored then .returned else .terminated

/-- The reports of one event, as far as they get. -/
def DaemonConfig.listenAll (cfg : DaemonConfig) : List (Report × Surroundings) → ReportEnding
  | [] => .returned
  | (r, env) :: rs =>
      match cfg.listen r env with
      | .returned => cfg.listenAll rs
      | ending => ending

/-! ## watchDir -/

/-- What `readdir` returns, entry by entry. A file comes with what its report meets, a folder with whether
it can be opened, the answer of `inotify_add_watch`, and what `readdir` returns from it. -/
inductive Listing where
  | null
  | file (name : Path) (env : Surroundings) (rest : Listing)
  | dir (name : Path) (opens : Bool) (wd : Option Int) (entries rest : Listing)
  | other (name : Path) (rest : Listing)

/-- An element of the stack: a folder that was not opened yet, or one that is being read. -/
inductive Frame where
  | unopened (name : Path) (opens : Bool) (wd : Option Int) (entries : Listing)
  | opened (name : Path) (entries : Listing)

/-- How many turns of the loop an entry takes at most. -/
def Listing.size : Listing → Nat
  | .null => 1
  | .file _ _ rest => rest.size + 1
  | .dir _ _ _ entries rest => entries.size + rest.size + 2
  | .other _ rest => rest.size + 1

def Frame.size : Frame → Nat
  | .unopened _ _ _ entries => entries.size + 1
  | .opened _ entries => entries.size

/-- How many turns the loop takes at most. -/
def stackSize : List Frame → Nat
  | [] => 0
  | frame :: stack => frame.size + stackSize stack

/-- `.` and `..` are entries of every folder. -/
def isDot (name : Path) : Bool := name = ".".toList || name = "..".toList

/-- The loop of `watchDir`: the watched folders, and how the walk ends. -/
def DaemonConfig.watchDirs (cfg : DaemonConfig) (dirs : Table Int Path) :
    List Frame → Table Int Path × ReportEnding
  | [] => (dirs, .returned)
  | .unopened name opens wd entries :: stack =>
      if !opens then (dirs, .threw (.runtimeError ("cannot open directory: ".toList ++ name)))
      else
        match wd with
        | none => (dirs, .threw (.runtimeError ("cannot watch directory: ".toList ++ name)))
        | some wd => cfg.watchDirs (dirs.insert wd name) (.opened name entries :: stack)
  | .opened _ .null :: stack => cfg.watchDirs dirs stack
  | .opened name (.file fileName env rest) :: stack =>
      match cfg.listen ⟨.fileDiscovered, [], name ++ '/' :: fileName⟩ env with
      | .returned => cfg.watchDirs dirs (.opened name rest :: stack)
      | ending => (dirs, ending)
  | .opened name (.dir dirName opens wd entries rest) :: stack =>
      if isDot dirName then cfg.watchDirs dirs (.opened name rest :: stack)
      else
        cfg.watchDirs dirs
          (.unopened (name ++ '/' :: dirName) opens wd entries :: .opened name rest :: stack)
  | .opened name (.other _ rest) :: stack => cfg.watchDirs dirs (.opened name rest :: stack)
termination_by stack => stackSize stack
decreasing_by all_goals simp [stackSize, Frame.size, Listing.size]; try omega

end MediaArchiver
