/-
# MediaArchiver.Watcher.Vanished -- reports of files that are gone

By the time the daemon looks at a file that was reported, the file may be renamed or removed, and the
mover does so with the daemon's own files. `onFileSystemChange` asks for the size of the reported file
outside of any handler, and only the size of its counterpart inside of one. So a file that vanished makes
it throw, and as neither `handleInotifyEvent` nor `threadMain` nor `watchDir` catches anything, that ends
the thread, or the constructor. A report ends well exactly if there is nothing to look up, or the file is
there and the database takes it (`Harmless`).
-/
import MediaArchiver.Watcher.Watcher

namespace MediaArchiver

open Lib (Machine Table)

namespace DaemonConfig

variable (cfg : DaemonConfig)

/-- The report is of a removal, or names no file, or the file is there and what the database is called for
succeeds. -/
def Harmless (r : Report) (env : Surroundings) : Prop :=
  r.event = .fileDeleted ∨ r.dst = [] ∨
    ((env.stat r.dst).isSome = true ∧
      (cfg.addFileCall env.stat r.event r.dst = none ∨ env.stored = true))

/-- An archive has the suffix that is erased from its name. -/
theorem eraseSuffix_of_isArchive {fileName : Path} (h : cfg.isArchive fileName = true) :
    ∃ aName, cfg.eraseSuffix fileName = .ok aName := by
  obtain ⟨pos, hpos⟩ := Option.isSome_iff_exists.mp (Lib.isSome_rfind (Bool.and_eq_true _ _ ▸ h).1)
  unfold eraseSuffix
  rw [hpos]
  exact ⟨_, rfl⟩

/-- The daemon throws exactly for a file that it looks up and does not find. -/
theorem onFileSystemChange_error_iff (getFileSize : Path → Option Nat) (e : EventType) (dst : Path) :
    (∃ x, cfg.onFileSystemChange getFileSize e dst = .error x) ↔
      e ≠ .fileDeleted ∧ dst ≠ [] ∧ getFileSize dst = none := by
  unfold onFileSystemChange
  by_cases he : e = .fileDeleted
  · simp [he]
  by_cases hdst : dst = []
  · simp [hdst]
  simp only [he, if_false, hdst, ne_eq, not_false_eq_true, true_and]
  cases hsize : getFileSize dst with
  | none => simp
  | some size =>
    apply iff_of_false
    · rintro ⟨x, hx⟩
      cases harch : cfg.isArchive dst with
      | true =>
        obtain ⟨aName, herase⟩ := cfg.eraseSuffix_of_isArchive harch
        simp only [harch, if_true, herase] at hx
        cases hx
      | false =>
        simp only [harch, Bool.false_eq_true, if_false] at hx
        split at hx <;> cases hx
    · exact fun h => Option.some_ne_none size h

theorem listen_returned_iff (r : Report) (env : Surroundings) :
    cfg.listen r env = .returned ↔ cfg.Harmless r env := by
  have herror := cfg.onFileSystemChange_error_iff env.stat r.event r.dst
  have hfound : (env.stat r.dst).isSome = true ↔ env.stat r.dst ≠ none := Option.isSome_iff_ne_none
  unfold listen Harmless addFileCall
  cases hcall : cfg.onFileSystemChange env.stat r.event r.dst with
  | error x =>
    obtain ⟨hevent, hdst, hnone⟩ := herror.mp ⟨x, hcall⟩
    simp [hevent, hdst, hnone]
  | ok call =>
    have hsafe : r.event = .fileDeleted ∨ r.dst = [] ∨ (env.stat r.dst).isSome = true := by
      by_contra hnot
      simp only [not_or] at hnot
      obtain ⟨x, hx⟩ := herror.mpr ⟨hnot.1, hnot.2.1, by simpa using hnot.2.2⟩
      rw [hx] at hcall
      cases hcall
    cases call with
    | none => simpa using hsafe
    | some call =>
      -- a call of the database is made for a file that was found only
      have hlooked : r.event ≠ .fileDeleted ∧ r.dst ≠ [] := by
        constructor <;> rintro h <;> simp [onFileSystemChange, h] at hcall
      have hthere := (hsafe.resolve_left hlooked.1).resolve_left hlooked.2
      cases hstored : env.stored <;> simp [hlooked, hthere]

/-- Several reports, one after the other. -/
theorem listenAll_returned_iff (reports : List (Report × Surroundings)) :
    cfg.listenAll reports = .returned ↔ ∀ r ∈ reports, cfg.Harmless r.1 r.2 := by
  induction reports with
  | nil => simp [listenAll]
  | cons r rs ih =>
    obtain ⟨r, env⟩ := r
    rw [List.forall_mem_cons, ← listen_returned_iff, ← ih, listenAll]
    cases cfg.listen r env <;> simp

end DaemonConfig

/-! ## The thread -/

namespace FileSystemWatcher

/-- The reports of an event, and what each of them meets. -/
def reportsOf (w : FileSystemWatcher) (a : Arrival × (Nat → Surroundings)) :
    List (Report × Surroundings) :=
  (w.handle a.1).reports.mapIdx fun i r => (r, a.2 i)

/-- The thread: it goes from event to event until one does not end well. -/
def threadMain (cfg : DaemonConfig) :
    FileSystemWatcher → List (Arrival × (Nat → Surroundings)) → ReportEnding
  | _, [] => .returned
  | w, a :: as =>
      match cfg.listenAll (w.reportsOf a) with
      | .returned => threadMain cfg (w.handle a.1).watcher as
      | ending => ending

theorem threadMain_returned_iff (cfg : DaemonConfig) (w : FileSystemWatcher)
    (arrivals : List (Arrival × (Nat → Surroundings))) :
    threadMain cfg w arrivals = .returned ↔
      (machine.comap Prod.fst).Along (fun w a => ∀ r ∈ w.reportsOf a, cfg.Harmless r.1 r.2) w arrivals := by
  induction arrivals generalizing w with
  | nil => exact iff_of_true rfl trivial
  | cons a as ih =>
    rw [Machine.along_cons, ← cfg.listenAll_returned_iff, ← ih, threadMain]
    show (match cfg.listenAll (w.reportsOf a) with
      | .returned => threadMain cfg (w.handle a.1).watcher as
      | ending => ending) = .returned ↔
        _ ∧ threadMain cfg (w.handle a.1).watcher as = .returned
    cases cfg.listenAll (w.reportsOf a) <;> simp

/-- One event more. -/
theorem threadMain_concat (cfg : DaemonConfig) (w : FileSystemWatcher)
    (arrivals : List (Arrival × (Nat → Surroundings))) (a : Arrival × (Nat → Surroundings)) :
    threadMain cfg w (arrivals ++ [a]) = .returned ↔ threadMain cfg w arrivals = .returned ∧
      cfg.listenAll ((machine.run w (arrivals.map Prod.fst)).reportsOf a) = .returned := by
  rw [threadMain_returned_iff, threadMain_returned_iff, Machine.along_append, Machine.along_cons,
    DaemonConfig.listenAll_returned_iff, Machine.run_comap]
  exact and_congr_right fun _ => and_iff_left trivial

end FileSystemWatcher

/-! ## The constructor -/

namespace DaemonConfig

variable (cfg : DaemonConfig)

/-- Every folder opens and can be watched, and every file's report ends well. -/
def HarmlessListing (name : Path) : Listing → Prop
  | .null => True
  | .file fileName env rest =>
      cfg.Harmless ⟨.fileDiscovered, [], name ++ '/' :: fileName⟩ env ∧ HarmlessListing name rest
  | .dir dirName opens wd entries rest =>
      (isDot dirName = true ∨ (opens = true ∧ wd.isSome = true
        ∧ HarmlessListing (name ++ '/' :: dirName) entries)) ∧ HarmlessListing name rest
  | .other _ rest => HarmlessListing name rest

def HarmlessFrame : Frame → Prop
  | .unopened name opens wd entries =>
      opens = true ∧ wd.isSome = true ∧ cfg.HarmlessListing name entries
  | .opened name entries => cfg.HarmlessListing name entries

/-- The constructor watches the folders it is given, each with everything in it. -/
def watchFolders (dirs : Table Int Path) : List Frame → Table Int Path × ReportEnding
  | [] => (dirs, .returned)
  | folder :: folders =>
      match cfg.watchDirs dirs [folder] with
      | (dirs, .returned) => watchFolders dirs folders
      | failed => failed

/-- The walk gets to its end exactly if it meets nothing that makes it throw. -/
theorem watchDirs_returned_iff (dirs : Table Int Path) (stack : List Frame) :
    (cfg.watchDirs dirs stack).2 = .returned ↔ ∀ f ∈ stack, cfg.HarmlessFrame f := by
  fun_induction DaemonConfig.watchDirs cfg dirs stack with
  | case1 => simp
  | case2 dirs name opens wd entries stack hclosed =>
    -- the folder is gone
    simp only [List.forall_mem_cons, HarmlessFrame]
    exact iff_of_false (by simp) fun h => absurd h.1.1 (by simpa using hclosed)
  | case3 dirs name opens entries stack hopen =>
    simp only [List.forall_mem_cons, HarmlessFrame]
    exact iff_of_false (by simp) fun h => absurd h.1.2.1 (by simp)
  | case4 dirs name opens entries stack hopen wd ih =>
    rw [ih]
    have hopens : opens = true := by simpa using hopen
    simp only [List.forall_mem_cons, HarmlessFrame, hopens, Option.isSome_some, true_and]
  | case5 dirs name stack ih => simp only [ih, List.forall_mem_cons, HarmlessFrame, HarmlessListing, true_and]
  | case6 dirs name fileName env rest stack hlisten ih =>
    have hsafe := (cfg.listen_returned_iff _ _).mp hlisten
    simp only [ih, List.forall_mem_cons, HarmlessFrame, HarmlessListing, hsafe, true_and]
  | case7 dirs name fileName env rest stack hlisten =>
    -- the file is gone, or the database failed
    simp only [List.forall_mem_cons, HarmlessFrame, HarmlessListing]
    exact iff_of_false hlisten fun h => hlisten ((cfg.listen_returned_iff _ _).mpr h.1.1)
  | case8 dirs name dirName opens wd entries rest stack hdot ih =>
    simp only [ih, List.forall_mem_cons, HarmlessFrame, HarmlessListing, hdot, true_or, true_and]
  | case9 dirs name dirName opens wd entries rest stack hdot ih =>
    simp only [ih, List.forall_mem_cons, HarmlessFrame, HarmlessListing, hdot, Bool.false_eq_true,
      false_or, and_assoc]
  | case10 dirs name otherName rest stack ih =>
    simp only [ih, List.forall_mem_cons, HarmlessFrame, HarmlessListing]

theorem watchFolders_returned_iff (dirs : Table Int Path) (folders : List Frame) :
    (cfg.watchFolders dirs folders).2 = .returned ↔ ∀ f ∈ folders, cfg.HarmlessFrame f := by
  induction folders generalizing dirs with
  | nil => simp [watchFolders]
  | cons folder folders ih =>
    have hfirst := cfg.watchDirs_returned_iff dirs [folder]
    rw [List.forall_mem_singleton] at hfirst
    rw [List.forall_mem_cons, ← hfirst, watchFolders]
    obtain ⟨dirs', ending⟩ := cfg.watchDirs dirs [folder]
    cases ending with
    | returned => simpa using ih dirs'
    | threw x => simp
    | terminated => simp

/-- A report, the thread and the constructor end well exactly if every report they make is harmless, and
for the constructor, every folder opens and can be watched. -/
theorem watcher_survives_iff :
    (∀ r env, cfg.listen r env = .returned ↔ cfg.Harmless r env) ∧
    (∀ w arrivals, FileSystemWatcher.threadMain cfg w arrivals = .returned ↔
      (FileSystemWatcher.machine.comap Prod.fst).Along
        (fun w a => ∀ r ∈ w.reportsOf a, cfg.Harmless r.1 r.2) w arrivals) ∧
    ∀ dirs folders,
      (cfg.watchFolders dirs folders).2 = .returned ↔ ∀ f ∈ folders, cfg.HarmlessFrame f :=
  ⟨cfg.listen_returned_iff, FileSystemWatcher.threadMain_returned_iff cfg, cfg.watchFolders_returned_iff⟩

end DaemonConfig

/-- The client's temporary file is written and closed in a watched folder, and the mover has moved it
before the watcher gets to the event. -/
theorem temp_file_ends_thread :
    FileSystemWatcher.threadMain gCfg { FileSystemWatcher.init with
        watchedDirs := Table.empty.insert 1 "/media".toList }
      [(⟨⟨1, Inotify.closeWrite, 0, "media_1.tmp".toList⟩, 0, fun _ => none⟩,
        fun _ => ⟨fun _ => none, true⟩)]
      = .threw (.runtimeError "Error stat: /media/media_1.tmp".toList) := by
  rfl

end MediaArchiver
