/-
# MediaArchiver.Watcher.Startup -- from the setting to the catalogue

The constructor of the watcher goes through the entries of the setting. A folder is walked through, and of a
search each folder that `find` prints; the printed lines are cut by their last character. So what is walked
through is one list of folders (`watchEntries_eq`), which may have a folder more than once, or one within
another.

A file is reported once for each folder on the list from which it is reached (`startup_reports`). It is
catalogued once: whatever the tables said before the start, what is listed after the entries that reach it
anyway adds nothing (`startup_again`). What is listed before them may well do: it is reported first, and gets
the ids first. The disk and the watcher's view of it stay as they are during the walk.
-/
import MediaArchiver.Daemon.Discovery
import MediaArchiver.Store.Rediscovery
import MediaArchiver.Watcher.Discovery
import MediaArchiver.Watcher.Setting

namespace MediaArchiver

open Lib (Machine Table child)

/-! ## The constructor -/

/-- What is found under the name of a folder: whether it opens, its watch descriptor, and its entries. -/
structure Opened where
  opens : Bool
  wd : Option Int
  entries : Listing

/-- The folder, not opened yet. -/
def Opened.frame (look : Path → Opened) (name : Path) : Frame :=
  .unopened name (look name).opens (look name).wd (look name).entries

/-- `getline` of a C stream that is not at its end: the line with its end, and what follows. -/
def nextLine (output : Text) : Text × Text :=
  (output.takeWhile (· ≠ '\n') ++ (output.dropWhile (· ≠ '\n')).take 1, (output.dropWhile (· ≠ '\n')).drop 1)

theorem length_nextLine {output : Text} (h : output ≠ []) : (nextLine output).2.length < output.length := by
  have hlength := congrArg List.length (List.takeWhile_append_dropWhile (p := (· ≠ '\n')) (l := output))
  rw [List.length_append] at hlength
  have hpos := List.length_pos_iff.mpr h
  rw [nextLine, List.length_drop]
  rcases Nat.eq_zero_or_pos (output.dropWhile (· ≠ '\n')).length with hzero | hmore <;> omega

/-- The lines of the output, trimmed. -/
def trimmedLines (output : Text) : List Path :=
  if output = [] then [] else (nextLine output).1.dropLast :: trimmedLines (nextLine output).2
termination_by output.length
decreasing_by exact length_nextLine ‹_›

namespace DaemonConfig

variable (cfg : DaemonConfig) (popen : Text → Option Text) (look : Path → Opened)

/-- One turn of the loop over the folders. `popen` tells what a command prints, if it can be run. -/
def watchEntry (dirs : Table Int Path) (folder : Text) : Table Int Path × ReportEnding :=
  match WatchEntry.read folder with
  | .error e => (dirs, .threw e)
  | .ok (.folder name) => cfg.watchDirs dirs [Opened.frame look name]
  | .ok (.search startFolder re) =>
      match popen (findCommand startFolder re) with
      | none => (dirs, .threw (.runtimeError "Cannot execute command to find the folders".toList))
      | some output => cfg.watchFolders dirs ((trimmedLines output).map (Opened.frame look))

/-- The loop. -/
def watchEntries : Table Int Path → List Text → Table Int Path × ReportEnding
  | dirs, [] => (dirs, .returned)
  | dirs, folder :: folders =>
      match cfg.watchEntry popen look dirs folder with
      | (dirs, .returned) => watchEntries dirs folders
      | failed => failed

/-- The constructor, up to the start of the thread. -/
def createWatcher (inotify : Bool) (folders : List Text) : Table Int Path × ReportEnding :=
  if inotify then cfg.watchEntries popen look .empty folders
  else (.empty, .threw (.runtimeError "Error initializing inotify".toList))

/-- `main`, from the setting to the end of the constructor; nothing if it ends before that, for want of
folders. -/
def watchSetting (inotify : Bool) (foldersToWatch : Text) : Option (Table Int Path × ReportEnding) :=
  (WatchEntry.mainFolders foldersToWatch).map (cfg.createWatcher popen look inotify)

end DaemonConfig

/-! ## The folders that are walked through -/

/-- The output of `find`: each folder on a line. -/
def printed (names : List Path) : Text := names.flatMap (· ++ ['\n'])

/-- The folders of an entry, if a search finds what `found` says. -/
def WatchEntry.watched (found : Path → Text → List Path) : WatchEntry → List Path
  | .folder name => [name]
  | .search startFolder re => found startFolder re

/-- The searches print the folders that they find, and no name has a line end in it. -/
def Prints (popen : Text → Option Text) (found : Path → Text → List Path) (entries : List WatchEntry) : Prop :=
  ∀ startFolder re, .search startFolder re ∈ entries →
    popen (findCommand startFolder re) = some (printed (found startFolder re)) ∧
      ∀ name ∈ found startFolder re, '\n' ∉ name

theorem trimmedLines_printed {names : List Path} (h : ∀ name ∈ names, '\n' ∉ name) :
    trimmedLines (printed names) = names := by
  induction names with
  | nil =>
    rw [trimmedLines]
    rfl
  | cons name names ih =>
    rw [List.forall_mem_cons] at h
    have hprinted : printed (name :: names) = name ++ '\n' :: printed names := by
      rw [printed, List.flatMap_cons, List.append_assoc, List.singleton_append, ← printed]
    have hline : nextLine (printed (name :: names)) = (name ++ ['\n'], printed names) := by
      rw [hprinted, nextLine, Lib.takeWhile_ne_append h.1, Lib.dropWhile_ne_append h.1]
      rfl
    have hne : printed (name :: names) ≠ [] := by
      rw [hprinted]
      exact List.append_ne_nil_of_right_ne_nil _ (List.cons_ne_nil _ _)
    rw [trimmedLines, if_neg hne, hline, List.dropLast_concat, ih h.2]

namespace DaemonConfig

variable (cfg : DaemonConfig)

/-- A walk through some folders, and then through others. -/
theorem watchDirs_append (dirs : Table Int Path) (stack below : List Frame) :
    cfg.watchDirs dirs (stack ++ below) =
      match cfg.watchDirs dirs stack with
      | (dirs, .returned) => cfg.watchDirs dirs below
      | failed => failed := by
  fun_induction DaemonConfig.watchDirs cfg dirs stack with
  | case1 => rfl
  | case2 dirs name opens wd entries stack hclosed =>
    cases wd <;> rw [List.cons_append, watchDirs, if_pos hclosed]
  | case3 dirs name opens entries stack hopen => rw [List.cons_append, watchDirs, if_neg hopen]
  | case4 dirs name opens entries stack hopen wd ih =>
    rw [List.cons_append, watchDirs, if_neg hopen]
    exact ih
  | case5 dirs name stack ih =>
    rw [List.cons_append, watchDirs]
    exact ih
  | case6 dirs name fileName env rest stack hlisten ih =>
    rw [List.cons_append, watchDirs]
    simp only [hlisten]
    exact ih
  | case7 dirs name fileName env rest stack hlisten =>
    rw [List.cons_append, watchDirs]
    cases hending : cfg.listen ⟨.fileDiscovered, [], name ++ '/' :: fileName⟩ env with
    | returned => exact absurd hending hlisten
    | threw x => rfl
    | terminated => rfl
  | case8 dirs name dirName opens wd entries rest stack hdot ih =>
    rw [List.cons_append, watchDirs, if_pos hdot]
    exact ih
  | case9 dirs name dirName opens wd entries rest stack hdot ih =>
    rw [List.cons_append, watchDirs, if_neg hdot]
    exact ih
  | case10 dirs name otherName rest stack ih =>
    rw [List.cons_append, watchDirs]
    exact ih

/-- Going from folder to folder is one walk through all of them. -/
theorem watchFolders_eq (dirs : Table Int Path) (folders : List Frame) :
    cfg.watchFolders dirs folders = cfg.watchDirs dirs folders := by
  induction folders generalizing dirs with
  | nil => rw [watchFolders, watchDirs]
  | cons folder folders ih =>
    have happend := cfg.watchDirs_append dirs [folder] folders
    rw [List.singleton_append] at happend
    rw [watchFolders, happend]
    obtain ⟨dirs', ending⟩ := cfg.watchDirs dirs [folder]
    cases ending with
    | returned => exact ih dirs'
    | threw x => rfl
    | terminated => rfl

variable (popen : Text → Option Text) (look : Path → Opened)

/-- The loop over entries that can be read is one walk through their folders. -/
theorem watchEntries_eq {found : Path → Text → List Path} {entries : List WatchEntry}
    (hclear : ∀ e ∈ entries, e.Clear) (hprints : Prints popen found entries) (dirs : Table Int Path) :
    cfg.watchEntries popen look dirs (entries.map WatchEntry.text)
      = cfg.watchDirs dirs ((entries.flatMap (WatchEntry.watched found)).map (Opened.frame look)) := by
  induction entries generalizing dirs with
  | nil => rw [List.map_nil, watchEntries, List.flatMap_nil, List.map_nil, watchDirs]
  | cons e entries ih =>
    rw [List.forall_mem_cons] at hclear
    have hlater : Prints popen found entries := fun startFolder re h =>
      hprints startFolder re (List.mem_cons_of_mem _ h)
    have hfirst : cfg.watchEntry popen look dirs e.text
        = cfg.watchDirs dirs ((e.watched found).map (Opened.frame look)) := by
      rw [watchEntry, WatchEntry.read_text hclear.1]
      cases e with
      | folder name => rfl
      | search startFolder re =>
        obtain ⟨hout, hnames⟩ := hprints startFolder re List.mem_cons_self
        simp only [hout, trimmedLines_printed hnames, watchFolders_eq, WatchEntry.watched]
    rw [List.map_cons, watchEntries, hfirst, List.flatMap_cons, List.map_append, watchDirs_append]
    obtain ⟨dirs', ending⟩ := cfg.watchDirs dirs ((e.watched found).map (Opened.frame look))
    cases ending with
    | returned => exact ih hclear.2 hlater dirs'
    | threw x => rfl
    | terminated => rfl

end DaemonConfig

/-! ## What is reported -/

/-- Under the folder there is what the tree says. -/
structure Shows (cfg : DaemonConfig) (T : FileTree) (watch : Path → Int) (look : Path → Opened)
    (dir : Path) : Prop where
  opens : (look dir).opens = true
  wd : (look dir).wd = some (watch dir)
  reads : ReadsAll T dir (look dir).entries
  below : ReadsBelow T watch dir (look dir).entries
  harmless : cfg.HarmlessListing dir (look dir).entries

variable {cfg : DaemonConfig} {T : FileTree} {watch : Path → Int} {look : Path → Opened} {dir p : Path}

theorem Shows.frame (h : Shows cfg T watch look dir) :
    Opened.frame look dir = .unopened dir true (some (watch dir)) (look dir).entries := by
  rw [Opened.frame, h.opens, h.wd]

theorem Shows.harmlessFrame (h : Shows cfg T watch look dir) : cfg.HarmlessFrame (Opened.frame look dir) :=
  ⟨h.opens, by rw [h.wd]; rfl, h.harmless⟩

theorem harmless_frames {folders : List Path} (h : ∀ dir ∈ folders, Shows cfg T watch look dir) :
    ∀ f ∈ folders.map (Opened.frame look), cfg.HarmlessFrame f := by
  rw [List.forall_mem_map]
  exact fun dir hdir => (h dir hdir).harmlessFrame

/-- For one folder each thing in its tree is dealt with once. -/
theorem Shows.deeds (h : Shows cfg T watch look dir) : (Opened.frame look dir).deeds.Nodup ∧
    ∀ d, d ∈ (Opened.frame look dir).deeds ↔ DoneFor T watch dir .dir d := by
  obtain ⟨deeds, hwalk, hnodup, hmem⟩ := walk_spec h.reads h.below h.harmless .empty
  have hall := cfg.walk_of_harmless .empty [Opened.frame look dir]
    (List.forall_mem_singleton.mpr h.harmlessFrame)
  rw [h.frame, hwalk, List.flatMap_cons, List.flatMap_nil, List.append_nil] at hall
  rw [h.frame, ← (Walk.mk.inj hall).2.1]
  exact ⟨hnodup, hmem⟩

theorem discovered_mem_iff (h : Shows cfg T watch look dir) :
    discovered p ∈ (Opened.frame look dir).deeds ↔ T.Reaches dir .dir p .file := by
  rw [h.deeds.2, discovered, doneFor_reported_iff]
  constructor
  · rintro ⟨q, hreach, heq⟩
    cases heq
    exact hreach
  · exact fun hreach => ⟨p, hreach, rfl⟩

open scoped Classical in
theorem count_frames {folders : List Path} (h : ∀ dir ∈ folders, Shows cfg T watch look dir) (p : Path) :
    ((folders.map (Opened.frame look)).flatMap Frame.deeds).count (discovered p)
      = folders.countP fun dir => T.Reaches dir .dir p .file := by
  induction folders with
  | nil => rfl
  | cons dir folders ih =>
    rw [List.forall_mem_cons] at h
    have hone : (Opened.frame look dir).deeds.count (discovered p)
        = if T.Reaches dir .dir p .file then 1 else 0 := by
      rw [h.1.deeds.1.count]
      simp only [discovered_mem_iff h.1]
    rw [List.map_cons, List.flatMap_cons, List.count_append, ih h.2, hone, List.countP_cons, Nat.add_comm]
    simp only [decide_eq_true_eq]

open scoped Classical in
/-- `main` and the constructor get through a setting that is storable, and report a file as often as there are
folders in the setting, or found by its searches, from which the file is reached. -/
theorem startup_reports {popen : Text → Option Text} {found : Path → Text → List Path}
    {entries : List WatchEntry} (hstorable : WatchEntry.Storable entries)
    (hprints : Prints popen found entries)
    (hshows : ∀ dir ∈ entries.flatMap (WatchEntry.watched found), Shows cfg T watch look dir) :
    let folders := entries.flatMap (WatchEntry.watched found)
    let walk := cfg.walk .empty (folders.map (Opened.frame look))
    cfg.watchSetting popen look true (WatchEntry.setting entries) = some (walk.dirs, .returned) ∧
      ∀ p, walk.deeds.count (discovered p) = folders.countP fun dir => T.Reaches dir .dir p .file := by
  intro folders walk
  have hwalk : walk = _ := cfg.walk_of_harmless .empty _ (harmless_frames hshows)
  have hending : walk.ending = .returned := by rw [hwalk]
  constructor
  · have hfolders := (WatchEntry.mainFolders_setting_iff entries).mpr
      ⟨hstorable.nonempty, hstorable.separate, hstorable.last⟩
    rw [DaemonConfig.watchSetting, hfolders, Option.map_some, DaemonConfig.createWatcher, if_pos rfl,
      cfg.watchEntries_eq popen look hstorable.clear hprints, cfg.watchDirs_eq_walk, ← hending]
  · intro p
    rw [hwalk]
    exact count_frames hshows p

/-- The folder with two files in it, and the one below it. -/
def lookTwoFiles (name : Path) : Opened :=
  if name = "/m".toList then ⟨true, some 2, twoFilesListing⟩
  else ⟨true, some 4, .file "b".toList ⟨fun _ => some 1, true⟩ .null⟩

theorem shows_twoFiles (cfg : DaemonConfig) : ∀ dir ∈ ["/m".toList, "/m/d".toList],
    Shows cfg twoFiles (fun p => p.length) lookTwoFiles dir := by
  have hsafe : ∀ p, cfg.Harmless ⟨.fileDiscovered, [], p⟩ ⟨fun _ => some 1, true⟩ :=
    fun p => Or.inr (Or.inr ⟨rfl, Or.inr rfl⟩)
  have hinner : ReadsAll twoFiles "/m/d".toList (.file "b".toList ⟨fun _ => some 1, true⟩ .null) := by
    refine ⟨by decide, fun name k => ?_⟩
    rw [entry_twoFiles_inner]
    simp only [Listing.entries, List.mem_cons, List.not_mem_nil, or_false, Prod.mk.injEq]
  have hentries : twoFilesListing.entries = [("a".toList, .file), ("d".toList, .dir)] := by decide
  have houter : ReadsAll twoFiles "/m".toList twoFilesListing := by
    refine ⟨by decide, fun name k => ?_⟩
    rw [hentries, entry_twoFiles]
    simp only [List.mem_cons, List.not_mem_nil, or_false, Prod.mk.injEq]
  have hm : Shows cfg twoFiles (fun p => p.length) lookTwoFiles "/m".toList :=
    ⟨rfl, rfl, houter, ⟨Or.inl rfl, Or.inr ⟨rfl, hinner, trivial⟩, trivial⟩,
      ⟨Or.inl rfl, hsafe _, Or.inr ⟨rfl, rfl, hsafe _, trivial⟩, trivial⟩⟩
  have hd : Shows cfg twoFiles (fun p => p.length) lookTwoFiles "/m/d".toList :=
    ⟨rfl, rfl, hinner, trivial, hsafe _, trivial⟩
  intro dir hdir
  rcases List.mem_cons.mp hdir with rfl | hlast
  · exact hm
  · rw [List.mem_singleton.mp hlast]
    exact hd

open scoped Classical in
/-- The folder, and a search that finds the one below it. -/
theorem startup_reports_overlapping :
    let entries := [WatchEntry.folder "/m".toList, .search "/m".toList ".*".toList]
    let folders := entries.flatMap (WatchEntry.watched fun _ _ => ["/m/d".toList])
    let walk := gCfg.walk .empty (folders.map (Opened.frame lookTwoFiles))
    gCfg.watchSetting (fun _ => some "/m/d\n".toList) lookTwoFiles true (WatchEntry.setting entries)
        = some (walk.dirs, .returned) ∧
      ∀ p, walk.deeds.count (discovered p)
        = folders.countP fun dir => twoFiles.Reaches dir .dir p .file := by
  refine startup_reports ⟨by decide, ?_, by decide, by decide⟩ ?_ (shows_twoFiles gCfg)
  · rintro e he
    rcases List.mem_cons.mp he with rfl | hlast
    · show ¬ _ <+: _
      decide
    · rw [List.mem_singleton.mp hlast]
      show '*' ∉ "/m".toList
      decide
  · exact fun _ _ _ => ⟨rfl, by decide⟩

/-! ## What is catalogued -/

/-- The files that a walk reports. -/
def Walk.files (walk : Walk) : List Path :=
  walk.deeds.filterMap fun
    | .watched _ _ => none
    | .reported r => some r.dst

namespace DaemonConfig

/-- The call that the report of a file is. -/
def reportCall (cfg : DaemonConfig) (stat : Path → Option Nat) (fileName : Path) : Option Store.ReportCall :=
  (cfg.addFileCall stat .fileDiscovered fileName).map fun call => ⟨call.src, call.dst, call.queue⟩

/-- The tables after the files were reported to a daemon that found these ones. -/
def discoverFrom (cfg : DaemonConfig) (stat : Path → Option Nat) (db : Store) (files : List Path) : Store :=
  cfg.catalogue.run db (files.map (CatalogueEvent.fileSystemChange stat .fileDiscovered))

theorem discoverFrom_eq (stat : Path → Option Nat) (db : Store) (files : List Path) :
    cfg.discoverFrom stat db files
      = Store.machine.run db ((files.filterMap (cfg.reportCall stat)).map Store.ReportCall.call) := by
  rw [discoverFrom]
  induction files generalizing db with
  | nil => rfl
  | cons fileName files ih =>
    rw [List.map_cons, Machine.run_cons, ih]
    cases hcall : cfg.addFileCall stat .fileDiscovered fileName with
    | none =>
      have hnone : cfg.reportCall stat fileName = none := by rw [reportCall, hcall]; rfl
      rw [List.filterMap_cons_none hnone]
      simp only [catalogue, storeCall, hcall, Option.map_none]
    | some call =>
      have hsome : cfg.reportCall stat fileName = some ⟨call.src, call.dst, call.queue⟩ := by
        rw [reportCall, hcall]
        rfl
      rw [List.filterMap_cons_some hsome, List.map_cons, Machine.run_cons]
      simp only [catalogue, storeCall, hcall, Option.map_some, Store.ReportCall.call]

theorem discoverFrom_append (stat : Path → Option Nat) (db : Store) (files more : List Path) :
    cfg.discoverFrom stat db (files ++ more)
      = cfg.discoverFrom stat (cfg.discoverFrom stat db files) more := by
  simp only [discoverFrom, List.map_append, Machine.run_append]

/-- Files that were reported before add nothing. -/
theorem discoverFrom_again {stat : Path → Option Nat} {db : Store} (hdb : db.WellFormed)
    {files again : List Path} (h : ∀ p ∈ again, p ∈ files) :
    cfg.discoverFrom stat (cfg.discoverFrom stat db files) again = cfg.discoverFrom stat db files := by
  rw [discoverFrom_eq, discoverFrom_eq]
  refine Store.run_of_absorbs (Store.wellFormed_reports hdb _) fun r hr => ?_
  obtain ⟨p, hp, hcall⟩ := List.mem_filterMap.mp hr
  exact Store.absorbs_run hdb (List.mem_filterMap.mpr ⟨p, h p hp, hcall⟩)

end DaemonConfig

/-- What is reported for a folder of the tree is a file that is reached from it. -/
theorem mem_files_frames {folders : List Path} (h : ∀ dir ∈ folders, Shows cfg T watch look dir) :
    p ∈ (cfg.walk .empty (folders.map (Opened.frame look))).files ↔
      ∃ dir ∈ folders, T.Reaches dir .dir p .file := by
  have hdeed : ∀ {dir deed}, Shows cfg T watch look dir → deed ∈ (Opened.frame look dir).deeds →
      ∀ r, deed = .reported r → r.dst = p → T.Reaches dir .dir p .file := by
    rintro dir deed hdir hmem r rfl rfl
    obtain ⟨q, hreach, rfl⟩ := doneFor_reported_iff.mp ((hdir.deeds.2 _).mp hmem)
    exact hreach
  rw [cfg.walk_of_harmless .empty _ (harmless_frames h), Walk.files, List.mem_filterMap]
  simp only [List.mem_flatMap, List.mem_map]
  constructor
  · rintro ⟨deed, ⟨_, ⟨dir, hdir, rfl⟩, hmem⟩, hfile⟩
    cases deed with
    | watched wd name => cases hfile
    | reported r => exact ⟨dir, hdir, hdeed (h dir hdir) hmem r rfl (Option.some.inj hfile)⟩
  · rintro ⟨dir, hdir, hreach⟩
    exact ⟨discovered p, ⟨_, ⟨dir, hdir, rfl⟩, (discovered_mem_iff (h dir hdir)).mpr hreach⟩, rfl⟩

/-- One walk through some folders, then through others, reports the files of both. -/
theorem files_append {folders more : List Path} (hfolders : ∀ dir ∈ folders, Shows cfg T watch look dir)
    (hmore : ∀ dir ∈ more, Shows cfg T watch look dir) :
    (cfg.walk .empty ((folders ++ more).map (Opened.frame look))).files
      = (cfg.walk .empty (folders.map (Opened.frame look))).files
        ++ (cfg.walk .empty (more.map (Opened.frame look))).files := by
  have hboth := List.forall_mem_append.mpr ⟨hfolders, hmore⟩
  rw [cfg.walk_of_harmless .empty _ (harmless_frames hboth),
    cfg.walk_of_harmless .empty _ (harmless_frames hfolders),
    cfg.walk_of_harmless .empty _ (harmless_frames hmore)]
  simp only [Walk.files, List.map_append, List.flatMap_append, List.filterMap_append]

/-- The tables after the folders of the entries were walked through, if the daemon found these ones. -/
def WatchEntry.catalogued (cfg : DaemonConfig) (stat : Path → Option Nat) (look : Path → Opened)
    (found : Path → Text → List Path) (db : Store) (entries : List WatchEntry) : Store :=
  cfg.discoverFrom stat db
    (cfg.walk .empty ((entries.flatMap (WatchEntry.watched found)).map (Opened.frame look))).files

theorem catalogued_append {found : Path → Text → List Path} {entries more : List WatchEntry}
    (hentries : ∀ dir ∈ entries.flatMap (WatchEntry.watched found), Shows cfg T watch look dir)
    (hmore : ∀ dir ∈ more.flatMap (WatchEntry.watched found), Shows cfg T watch look dir)
    (stat : Path → Option Nat) (db : Store) :
    WatchEntry.catalogued cfg stat look found db (entries ++ more)
      = WatchEntry.catalogued cfg stat look found
          (WatchEntry.catalogued cfg stat look found db entries) more := by
  rw [WatchEntry.catalogued, List.flatMap_append, files_append hentries hmore,
    DaemonConfig.discoverFrom_append]
  rfl

/-- Entries through which only files are reached that the entries before them reach anyway add nothing to the
tables, whatever stands in the tables and whatever entries come later. -/
theorem startup_again {found : Path → Text → List Path} {entries again more : List WatchEntry}
    (hshows : ∀ dir ∈ (entries ++ again ++ more).flatMap (WatchEntry.watched found),
      Shows cfg T watch look dir)
    (hwithin : ∀ dir ∈ again.flatMap (WatchEntry.watched found), ∀ p, T.Reaches dir .dir p .file →
      ∃ dir' ∈ entries.flatMap (WatchEntry.watched found), T.Reaches dir' .dir p .file)
    (stat : Path → Option Nat) {db : Store} (hdb : db.WellFormed) :
    WatchEntry.catalogued cfg stat look found db (entries ++ again ++ more)
      = WatchEntry.catalogued cfg stat look found db (entries ++ more) := by
  rw [List.flatMap_append, List.flatMap_append, List.forall_mem_append, List.forall_mem_append] at hshows
  obtain ⟨⟨hfirst, hagain⟩, hmore⟩ := hshows
  have hboth : ∀ dir ∈ (entries ++ again).flatMap (WatchEntry.watched found), Shows cfg T watch look dir := by
    rw [List.flatMap_append]
    exact List.forall_mem_append.mpr ⟨hfirst, hagain⟩
  rw [catalogued_append hboth hmore, catalogued_append hfirst hagain, catalogued_append hfirst hmore]
  congr 1
  refine DaemonConfig.discoverFrom_again hdb fun p hp => ?_
  obtain ⟨dir, hdir, hreach⟩ := (mem_files_frames hagain).mp hp
  exact (mem_files_frames hfirst).mpr (hwithin dir hdir p hreach)

/-- Any file is taken for a film. -/
def anyFile : DaemonConfig := { gCfg with filenameMatchPattern := fun _ => true }

/-- Between two folders there is a search, which finds what the first of them reaches anyway. -/
theorem startup_again_below :
    let catalogued := WatchEntry.catalogued anyFile (fun _ => some 1) lookTwoFiles (fun _ _ => ["/m/d".toList])
      .empty
    catalogued ([.folder "/m".toList] ++ [.search "/m".toList ".*".toList] ++ [.folder "/m/d".toList])
      = catalogued ([.folder "/m".toList] ++ [.folder "/m/d".toList]) := by
  have hshows : ∀ dir ∈ ([WatchEntry.folder "/m".toList] ++ [WatchEntry.search "/m".toList ".*".toList]
      ++ [WatchEntry.folder "/m/d".toList]).flatMap (WatchEntry.watched fun _ _ => ["/m/d".toList]),
      Shows anyFile twoFiles (fun p => p.length) lookTwoFiles dir :=
    fun dir hdir => shows_twoFiles anyFile dir (by simpa [WatchEntry.watched] using hdir)
  refine startup_again hshows (fun dir hdir p hreach => ?_) _ Store.wellFormed_empty
  obtain rfl : dir = "/m/d".toList := List.mem_singleton.mp hdir
  exact ⟨"/m".toList, List.mem_singleton_self _, .step (entry_twoFiles.mpr (Or.inr ⟨rfl, rfl⟩)) hreach⟩

end MediaArchiver
