/-
# MediaArchiver.Daemon.Names -- file names: archives, sources, and what the watcher makes of them

The daemon never records which source an archive belongs to before it has seen both; it computes one
name from the other. `getArchivedFileName` replaces the extension of a source by a suffix and a fixed
extension. `isArchive` looks for the suffix anywhere and for the extension at the end, and the watcher
erases the last suffix to get back to a source. `onFileSystemChange` turns an event into the arguments
of one call of the database, or none.

What the archive's name keeps of the source is its stem, everything before the last dot
(`getArchivedFileName_eq`), so two sources share an archive exactly if they share their stem
(`getArchivedFileName_inj`).
-/
import MediaArchiver.Lib.Text
import MediaArchiver.Store.SQLite

namespace MediaArchiver

open Lib (findFrom rfind findLast stem)

/-- The daemon's settings. -/
structure DaemonConfig where
  aBitRate : Int
  vBitRate : Int
  crf : Int
  chunkSize : Nat
  vCodec : Text
  aCodec : Text
  tempFolder : Path
  finalExtension : Text
  resultFileSuffix : Text
  /-- `regex_search` with the configured pattern. -/
  filenameMatchPattern : Path → Bool

/-- The built-in settings. The pattern asks for one of the known extensions, in any case. -/
def gCfg : DaemonConfig where
  aBitRate := 80000
  vBitRate := 0
  crf := 22
  chunkSize := 256 * 1024
  vCodec := "libx265".toList
  aCodec := "aac".toList
  tempFolder := []
  finalExtension := ".mp4".toList
  resultFileSuffix := "_archived".toList
  filenameMatchPattern := fun fileName =>
    [".mp4", ".3gp", ".mov", ".avi", ".mts", ".vob", ".ts", ".mpg", ".mpe", ".mpeg", ".divx", ".qt",
      ".wmv", ".asf", ".flv"].any fun ext => ext.toList.isSuffixOf (fileName.map Char.toLower)

/-- What the file system watcher reports. -/
inductive EventType where
  | none
  | fileCreated
  | fileDeleted
  | fileModified
  | fileMoved
  | fileDiscovered
  | unmounted
  | unknown
deriving DecidableEq

namespace DaemonConfig

variable (cfg : DaemonConfig)

/-- The name of the archive of a source. -/
def getArchivedFileName (origFileName : Path) : Path :=
  let newFileName :=
    match findLast '.' origFileName with
    | none => origFileName
    | some posExt => origFileName.take posExt
  newFileName ++ cfg.resultFileSuffix ++ cfg.finalExtension

/-- The offset from which the extension is searched: a difference of two 64-bit sizes. -/
def extensionOffset (fileName : Path) : Nat :=
  (fileName.length + 2 ^ 64 - cfg.finalExtension.length) % 2 ^ 64

/-- The file is taken for an archive. -/
def isArchive (fileName : Path) : Bool :=
  (findFrom fileName cfg.resultFileSuffix 0).isSome
    && (findFrom fileName cfg.finalExtension (cfg.extensionOffset fileName)).isSome

/-- The file is taken for media. -/
def isInterestingFile (fileName : Path) : Bool := cfg.filenameMatchPattern fileName

/-! ## The watcher's events -/

/-- The arguments of one call of `addFile`. -/
structure AddFileCall where
  src : Option BasicFileInfo
  dst : Option BasicFileInfo
  queue : Bool
deriving DecidableEq

/-- The name with its last suffix erased; `erase` throws if there is none. -/
def eraseSuffix (fileName : Path) : Except Exn Path :=
  -- the last suffix goes, wherever it stands
  match rfind fileName cfg.resultFileSuffix with
  | some pos =>
      .ok (fileName.take pos ++ fileName.drop (pos + cfg.resultFileSuffix.length))
  | none => .error (.outOfRange "basic_string::erase".toList)

/-- The call of the database for a file and its counterpart, whose size is 0 if there is none. -/
def pairUp (e : EventType) (dstIsArchive : Bool) (dst aName : Path) (size aSize : Nat) :
    Option AddFileCall :=
  let fs : BasicFileInfo := if dstIsArchive then ⟨aName, aSize⟩ else ⟨dst, size⟩
  let fd : BasicFileInfo := if dstIsArchive then ⟨dst, size⟩ else ⟨aName, aSize⟩
  match e with
  | .fileDiscovered | .fileCreated | .fileMoved =>
      some
        { src := if !dstIsArchive || 0 < aSize then some fs else none
          dst := if dstIsArchive || 0 < aSize then some fd else none
          queue := !dstIsArchive || 0 < aSize }
  | _ => none

/-- React to a change in a watched folder. `getFileSize` is the size `stat` reports, if it succeeds;
the answer is the call of the database, if there is one. -/
def onFileSystemChange (getFileSize : Path → Option Nat) (e : EventType) (dst : Path) :
    Except Exn (Option AddFileCall) :=
  if e = .fileDeleted then .ok none
  else if dst = [] then .ok none
  else
    match getFileSize dst with
    | none => .error (.runtimeError ("Error stat: ".toList ++ dst))
    | some size =>
        if cfg.isArchive dst then do
          let aName ← cfg.eraseSuffix dst
          let aSize := if aName = [] then 0 else (getFileSize aName).getD 0
          return pairUp e true dst aName size aSize
        else if cfg.isInterestingFile dst then
          let aName := cfg.getArchivedFileName dst
          let aSize := if aName = [] then 0 else (getFileSize aName).getD 0
          .ok (pairUp e false dst aName size aSize)
        else .ok none

/-- The call of the database that an event leads to. -/
def addFileCall (getFileSize : Path → Option Nat) (e : EventType) (dst : Path) : Option AddFileCall :=
  match cfg.onFileSystemChange getFileSize e dst with
  | .ok call => call
  | .error _ => none

/-- The size of a counterpart; a counterpart that is not there has none. -/
def counterpartSize (getFileSize : Path → Option Nat) (aName : Path) : Nat :=
  if aName = [] then 0 else (getFileSize aName).getD 0

/-- A counterpart with a size has a name. -/
theorem ne_nil_of_counterpartSize {getFileSize : Path → Option Nat} {aName : Path}
    (h : 0 < counterpartSize getFileSize aName) : aName ≠ [] := by
  rintro rfl
  exact absurd h (Nat.lt_irrefl 0)

variable {cfg}

/-- The database is called for an archive and the source its name points to, or for a source and its
archive. -/
theorem addFileCall_cases {getFileSize : Path → Option Nat} {e : EventType} {dst : Path}
    {call : AddFileCall} (h : cfg.addFileCall getFileSize e dst = some call) :
    dst ≠ [] ∧ ∃ size, getFileSize dst = some size ∧
      ((cfg.isArchive dst = true ∧ ∃ aName, cfg.eraseSuffix dst = .ok aName
          ∧ pairUp e true dst aName size (counterpartSize getFileSize aName) = some call) ∨
        (cfg.isArchive dst = false ∧ cfg.isInterestingFile dst = true
          ∧ pairUp e false dst (cfg.getArchivedFileName dst) size
              (counterpartSize getFileSize (cfg.getArchivedFileName dst)) = some call)) := by
  unfold addFileCall onFileSystemChange at h
  split at h
  · rename_i found heq
    subst h
    split at heq
    · cases heq
    split at heq
    · cases heq
    rename_i hdst
    refine ⟨hdst, ?_⟩
    cases hsize : getFileSize dst with
    | none =>
      rw [hsize] at heq
      cases heq
    | some size =>
      rw [hsize] at heq
      refine ⟨size, rfl, ?_⟩
      cases harch : cfg.isArchive dst with
      | true =>
        left
        simp only [harch, if_true] at heq
        cases herase : cfg.eraseSuffix dst with
        | error e =>
          rw [herase] at heq
          cases heq
        | ok aName =>
          rw [herase] at heq
          exact ⟨rfl, aName, rfl, Except.ok.inj heq⟩
      | false =>
        right
        simp only [harch, Bool.false_eq_true, if_false] at heq
        split at heq
        · rename_i hmedia
          exact ⟨rfl, hmedia, Except.ok.inj heq⟩
        · cases heq
  · cases h

/-- The arguments of the call. -/
theorem pairUp_eq_some {e : EventType} {dstIsArchive : Bool} {dst aName : Path} {size aSize : Nat}
    {call : AddFileCall} (h : pairUp e dstIsArchive dst aName size aSize = some call) :
    call.src = (if dstIsArchive then if 0 < aSize then some ⟨aName, aSize⟩ else none
        else some ⟨dst, size⟩)
      ∧ call.dst = (if dstIsArchive then some ⟨dst, size⟩
        else if 0 < aSize then some ⟨aName, aSize⟩ else none)
      ∧ call.queue = call.src.isSome := by
  unfold pairUp at h
  by_cases hsize : 0 < aSize <;> cases dstIsArchive <;> cases e <;> simp [hsize] at h <;> subst h <;>
    simp [hsize]

variable (cfg)

/-! ## Which sources share an archive -/

/-- The archive's name is the stem, the suffix and the extension. -/
theorem getArchivedFileName_eq (origFileName : Path) :
    cfg.getArchivedFileName origFileName
      = stem '.' origFileName ++ cfg.resultFileSuffix ++ cfg.finalExtension := by
  unfold getArchivedFileName
  cases hpos : findLast '.' origFileName with
  | none =>
    show origFileName ++ _ ++ _ = _
    rw [Lib.stem_of_not_mem (Lib.findLast_eq_none.mp hpos)]
  | some posExt =>
    show origFileName.take posExt ++ _ ++ _ = _
    rw [Lib.take_findLast hpos]

/-- Two sources share their archive exactly if they share their stem. -/
theorem getArchivedFileName_inj (p q : Path) :
    cfg.getArchivedFileName p = cfg.getArchivedFileName q ↔ stem '.' p = stem '.' q := by
  simp only [getArchivedFileName_eq, List.append_left_inj]

end DaemonConfig

end MediaArchiver
