/-
# MediaArchiver.Watcher.Tree -- folders, the kernel's watches on them, and the watcher

The system around the watcher: the folders that exist, by their names; the watches of the kernel, each on a
folder under whatever name it has by now; the events that were not read yet; and the watcher. Programs
make, remove and rename folders and do things to files, the kernel tells those who watch the folder it
happens in, as far as `InotifyFlags` asks for it, and the watcher handles one event after the other.

What `handle` does is said once (`step_handle`): the event is taken from the queue; if it says that a folder
was deleted, the watch and the entry of its descriptor are gone; otherwise both stay. Nothing is ever
watched anew, as the events for that never come.
-/
import MediaArchiver.Lib.Paths
import MediaArchiver.Watcher.Watcher

namespace MediaArchiver

open Lib (Machine Table Within child renamed)

namespace Inotify

def ignored : UInt32 := 0x00008000

end Inotify

/-! ## The system -/

/-- The folders that exist, the watches of the kernel with the names that their folders have now, the
events that were not read yet, and the watcher. -/
structure WatchedTree where
  dirs : List Path
  watches : Table Int Path
  queue : List InotifyEvent
  watcher : FileSystemWatcher

/-- What happens to the folders and files, and what the watcher does. An event of the kernel that is about
neither a new nor a deleted folder is `touch`. -/
inductive TreeStep where
  | mkdir (dir name : Path)
  | rmdir (dir name : Path)
  | rename (dir name dir' name' : Path) (cookie : UInt32)
  | touch (dir : Path) (mask cookie : UInt32) (name : Path)
  | handle (now : Nat) (fresh : Int)

/-- The event is of the creation of a folder. -/
def creates (e : InotifyEvent) : Bool := has e.mask Inotify.isdir && has e.mask Inotify.create

/-- The event is of the deletion of a folder. -/
def deletes (e : InotifyEvent) : Bool := has e.mask Inotify.isdir && has e.mask Inotify.delete

namespace WatchedTree

/-- Tell who watches the folder. -/
def post (s : WatchedTree) (dir : Path) (mask cookie : UInt32) (name : Path) : WatchedTree :=
  if has mask FileSystemWatcher.inotifyFlags then
    { s with
      queue := s.queue ++
        (s.watches.rows.filter fun r => r.2 = dir).map fun r => ⟨r.1, mask, cookie, name⟩ }
  else s

/-- A folder is no more, and so is its watch. -/
def remove (s : WatchedTree) (p : Path) : WatchedTree :=
  { s with
    dirs := s.dirs.filter fun q => q ≠ p
    watches := s.watches.filter fun r => r.2 ≠ p
    queue := s.queue ++ (s.watches.rows.filter fun r => r.2 = p).flatMap fun r =>
      [⟨r.1, Inotify.deleteSelf ||| Inotify.isdir, 0, []⟩, ⟨r.1, Inotify.ignored, 0, []⟩] }

/-- The descriptor for a folder: the one that it has, or a fresh one. -/
def addWatch (s : WatchedTree) (fresh : Int) (name : Path) : Option Int :=
  if s.dirs.contains name then
    some (((s.watches.rows.find? fun r => r.2 = name).map Prod.fst).getD fresh)
  else none

/-- The calls of the watcher. -/
def perform (fresh : Int) (s : WatchedTree) : KernelCall → WatchedTree
  | .addWatch name _ =>
      match s.addWatch fresh name with
      | some wd => { s with watches := s.watches.insert wd name }
      | none => s
  | .rmWatch wd =>
      if (s.watches.find? wd).isSome then
        { s with watches := s.watches.erase wd, queue := s.queue ++ [⟨wd, Inotify.ignored, 0, []⟩] }
      else s

/-- The folder is there, and the new one is not. -/
def MayMake (s : WatchedTree) (dir name : Path) : Prop := dir ∈ s.dirs ∧ child '/' dir name ∉ s.dirs

/-- The folder is there and empty. -/
def MayRemove (s : WatchedTree) (dir name : Path) : Prop :=
  dir ∈ s.dirs ∧ child '/' dir name ∈ s.dirs
    ∧ ∀ q ∈ s.dirs, Within '/' (child '/' dir name) q → q = child '/' dir name

/-- The folder does not move into itself, and the name is free or an empty folder's. -/
def MayRename (s : WatchedTree) (dir name dir' name' : Path) : Prop :=
  dir ∈ s.dirs ∧ child '/' dir name ∈ s.dirs ∧ dir' ∈ s.dirs
    ∧ ¬ Within '/' (child '/' dir name) (child '/' dir' name')
    ∧ ∀ q ∈ s.dirs, Within '/' (child '/' dir' name') q → q = child '/' dir' name'

instance (s : WatchedTree) (dir name : Path) : Decidable (s.MayMake dir name) :=
  inferInstanceAs (Decidable (_ ∧ _))

instance (s : WatchedTree) (dir name : Path) : Decidable (s.MayRemove dir name) :=
  inferInstanceAs (Decidable (_ ∧ _))

instance (s : WatchedTree) (dir name dir' name' : Path) : Decidable (s.MayRename dir name dir' name') :=
  inferInstanceAs (Decidable (_ ∧ _))

/-- A folder gets another name, and takes its watch and everything in it along. -/
def move (s : WatchedTree) (src dst : Path) : WatchedTree :=
  { s.remove dst with
    dirs := (s.remove dst).dirs.map (renamed '/' src dst)
    watches := (s.remove dst).watches.map (renamed '/' src dst) }

def step (s : WatchedTree) : TreeStep → WatchedTree
  | .mkdir dir name =>
      if s.MayMake dir name then
        { s with dirs := child '/' dir name :: s.dirs }.post dir (Inotify.create ||| Inotify.isdir) 0 name
      else s
  | .rmdir dir name =>
      if s.MayRemove dir name then
        (s.post dir (Inotify.delete ||| Inotify.isdir) 0 name).remove (child '/' dir name)
      else s
  | .rename dir name dir' name' cookie =>
      if s.MayRename dir name dir' name' then
        ((s.move (child '/' dir name) (child '/' dir' name')).post
          dir (Inotify.movedFrom ||| Inotify.isdir) cookie name).post
            dir' (Inotify.movedTo ||| Inotify.isdir) cookie name'
      else s
  | .touch dir mask cookie name =>
      if has mask Inotify.isdir && (has mask Inotify.create || has mask Inotify.delete) then s
      else s.post dir mask cookie name
  | .handle now fresh =>
      match s.queue with
      | [] => s
      | e :: rest =>
          let handled := s.watcher.handleInotifyEvent (s.addWatch fresh) now e
          handled.calls.foldl (perform fresh) { s with queue := rest, watcher := handled.watcher }

def machine : Machine WatchedTree TreeStep := ⟨step⟩

theorem step_mkdir (s : WatchedTree) (dir name : Path) : s.step (.mkdir dir name) =
    if s.MayMake dir name then
      { s with dirs := child '/' dir name :: s.dirs }.post dir (Inotify.create ||| Inotify.isdir) 0 name
    else s := rfl

theorem step_rmdir (s : WatchedTree) (dir name : Path) : s.step (.rmdir dir name) =
    if s.MayRemove dir name then
      (s.post dir (Inotify.delete ||| Inotify.isdir) 0 name).remove (child '/' dir name)
    else s := rfl

theorem step_rename (s : WatchedTree) (dir name dir' name' : Path) (cookie : UInt32) :
    s.step (.rename dir name dir' name' cookie) =
      if s.MayRename dir name dir' name' then
        ((s.move (child '/' dir name) (child '/' dir' name')).post
          dir (Inotify.movedFrom ||| Inotify.isdir) cookie name).post
            dir' (Inotify.movedTo ||| Inotify.isdir) cookie name'
      else s := rfl

theorem step_touch (s : WatchedTree) (dir : Path) (mask cookie : UInt32) (name : Path) :
    s.step (.touch dir mask cookie name) =
      if has mask Inotify.isdir && (has mask Inotify.create || has mask Inotify.delete) then s
      else s.post dir mask cookie name := rfl

/-! ## One event -/

section Handle

variable {s : WatchedTree} {e : InotifyEvent} {rest : List InotifyEvent}

theorem handled_deletes (addWatch : Path → Option Int) (now : Nat) (w : FileSystemWatcher)
    (h : deletes e = true) : w.handleInotifyEvent addWatch now e =
      ⟨{ w with watchedDirs := (w.watchedDirs.insertNew e.wd []).erase e.wd }, [], [.rmWatch e.wd]⟩ := by
  obtain ⟨hdir, hdelete⟩ := Bool.and_eq_true_iff.mp h
  unfold FileSystemWatcher.handleInotifyEvent FileSystemWatcher.handleDirectory
  simp only [hdir, hdelete, if_true, FileSystemWatcher.subscript]

theorem handled_other (addWatch : Path → Option Int) (now : Nat) (w : FileSystemWatcher)
    (hd : deletes e = false) (hc : creates e = false) :
    (w.handleInotifyEvent addWatch now e).calls = [] ∧
      (w.handleInotifyEvent addWatch now e).watcher.watchedDirs = w.watchedDirs.insertNew e.wd [] := by
  unfold FileSystemWatcher.handleInotifyEvent
  cases hdir : has e.mask Inotify.isdir with
  | true =>
    rw [deletes, hdir, Bool.true_and] at hd
    rw [creates, hdir, Bool.true_and] at hc
    simp only [if_true, FileSystemWatcher.handleDirectory, hd, hc, Bool.false_eq_true, if_false]
    split <;> exact ⟨rfl, rfl⟩
  | false =>
    simp only [Bool.false_eq_true, if_false, true_and]
    exact FileSystemWatcher.watchedDirs_handleFile ..

theorem step_handle_nil (hq : s.queue = []) (now : Nat) (fresh : Int) :
    s.step (.handle now fresh) = s := by
  unfold step
  simp only [hq]

/-- The deletion of a folder takes the watch and the entry of the descriptor that it is reported with. -/
theorem step_handle_deletes (hq : s.queue = e :: rest) (hd : deletes e = true) (now : Nat) (fresh : Int) :
    (s.step (.handle now fresh)).dirs = s.dirs ∧
      (∀ wd, (s.step (.handle now fresh)).watches.find? wd
        = if wd = e.wd then none else s.watches.find? wd) ∧
      (∀ wd, (s.step (.handle now fresh)).watcher.watchedDirs.find? wd
        = if wd = e.wd then none else s.watcher.watchedDirs.find? wd) ∧
      ((s.step (.handle now fresh)).queue = rest ∨
        (s.step (.handle now fresh)).queue = rest ++ [⟨e.wd, Inotify.ignored, 0, []⟩]) := by
  have hentries : ∀ wd, ((s.watcher.watchedDirs.insertNew e.wd []).erase e.wd).find? wd
      = if wd = e.wd then none else s.watcher.watchedDirs.find? wd := by
    intro wd
    rw [Table.find?_erase]
    split
    · rfl
    · rename_i hne
      rw [Table.find?_insertNew, if_neg hne]
  unfold step
  simp only [hq, handled_deletes _ _ _ hd, List.foldl_cons, List.foldl_nil, perform]
  split
  · exact ⟨rfl, fun wd => Table.find?_erase _ _ _, hentries, Or.inr rfl⟩
  · rename_i hnone
    refine ⟨rfl, fun wd => ?_, hentries, Or.inl rfl⟩
    split
    · rename_i heq
      rw [heq]
      exact Option.not_isSome_iff_eq_none.mp hnone
    · rfl

/-- Any other event leaves the watches alone, and makes an entry at most. -/
theorem step_handle_other (hq : s.queue = e :: rest) (hd : deletes e = false) (hc : creates e = false)
    (now : Nat) (fresh : Int) :
    (s.step (.handle now fresh)).dirs = s.dirs ∧
      (s.step (.handle now fresh)).watches = s.watches ∧
      (s.step (.handle now fresh)).watcher.watchedDirs = s.watcher.watchedDirs.insertNew e.wd [] ∧
      (s.step (.handle now fresh)).queue = rest := by
  obtain ⟨hcalls, hentries⟩ := handled_other (s.addWatch fresh) now s.watcher hd hc
  unfold step
  simp only [hq, hcalls, List.foldl_nil]
  exact ⟨trivial, trivial, hentries, trivial⟩

end Handle

end WatchedTree

end MediaArchiver
