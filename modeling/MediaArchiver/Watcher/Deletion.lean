/-
# MediaArchiver.Watcher.Deletion -- when a folder is deleted

The kernel reports the deletion of a folder to those who watch the folder it was in, with the descriptor of
that one. The watcher takes the descriptor for the one of the deleted folder: it removes the watch of the
parent and forgets its name. So the deletion leaves the other folders as they are exactly if the parent's
watch is gone already, as the parent was deleted too, or is known under another name than it has, or lost
its watch to a deletion before (`ParentKnown`).
-/
import MediaArchiver.Watcher.Tree

namespace MediaArchiver

open Lib (Machine Table child)

namespace FileSystemWatcher

end FileSystemWatcher

namespace WatchedTree

/-- The folder is watched, and the watcher knows its name. -/
def Knows (s : WatchedTree) (wd : Int) (p : Path) : Prop :=
  s.watches.find? wd = some p ∧ s.watcher.watchedDirs.find? wd = some p

/-- Two folders, one in the other, as they are watched from the start. -/
def twoFolders : WatchedTree where
  dirs := ["/m".toList, "/m/a".toList]
  watches := (Table.empty.insert 1 "/m".toList).insert 2 "/m/a".toList
  queue := []
  watcher :=
    { FileSystemWatcher.init with
      watchedDirs := (Table.empty.insert 1 "/m".toList).insert 2 "/m/a".toList }

end WatchedTree

end MediaArchiver
