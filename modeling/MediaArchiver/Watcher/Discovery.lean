/-
# MediaArchiver.Watcher.Discovery -- what the walk through a tree finds

A tree is said by what each name in it is. `watchDir` goes through it with a stack of folders, of which all
but the uppermost are read in part: a folder is left where it names another one, and gone on with when that
one is done. What is left to do for a stack is what is left of each of its folders, from the top
(`walk_of_harmless`). So the walk does for each folder what its listing says, in the order of the listing;
and a listing that has each name of its folder once, for each folder, has each file and each folder of the
tree once (`mem_deeds`, `nodup_deeds`).
-/
import Mathlib.Data.Set.Card
import MediaArchiver.Lib.Paths
import MediaArchiver.Watcher.Vanished

namespace MediaArchiver

open Lib (Table Within child child_inj eq_of_within_child within_of_child)

/-! ## Trees -/

/-- What `readdir` tells apart. -/
inductive FileKind where
  | file
  | dir
  | other
deriving DecidableEq

/-- What there is under each name. -/
structure FileTree where
  kind : Path → Option FileKind

namespace FileTree

/-- The folder has something under the name. -/
def Entry (T : FileTree) (dir name : Path) (k : FileKind) : Prop :=
  isDot name = false ∧ '/' ∉ name ∧ T.kind (child '/' dir name) = some k

/-- From the first one gets to the second, through folders. -/
inductive Reaches (T : FileTree) : Path → FileKind → Path → FileKind → Prop
  | here (p : Path) (k : FileKind) : Reaches T p k p k
  | step {dir name p k k'} (hentry : T.Entry dir name k) (hrest : Reaches T (child '/' dir name) k p k') :
      Reaches T dir .dir p k'

variable {T : FileTree} {dir p q : Path} {k k' : FileKind}

theorem Reaches.within (h : T.Reaches p k q k') : Within '/' p q := by
  induction h with
  | here p k => exact Or.inl rfl
  | step hentry hrest ih => exact (within_of_child ih).1

/-- To what is no folder there is no way but to be there. -/
theorem reaches_iff_of_ne (hk : k ≠ .dir) : T.Reaches p k q k' ↔ q = p ∧ k' = k := by
  constructor
  · intro h
    cases h with
    | here => exact ⟨rfl, rfl⟩
    | step => exact absurd rfl hk
  · rintro ⟨rfl, rfl⟩
    exact .here q k'

theorem reaches_dir_iff : T.Reaches dir .dir p k ↔ (p = dir ∧ k = .dir) ∨
    ∃ name k', T.Entry dir name k' ∧ T.Reaches (child '/' dir name) k' p k := by
  constructor
  · intro h
    cases h with
    | here => exact Or.inl ⟨rfl, rfl⟩
    | step hentry hrest => exact Or.inr ⟨_, _, hentry, hrest⟩
  · rintro (⟨rfl, rfl⟩ | ⟨name, k', hentry, hrest⟩)
    · exact .here p .dir
    · exact .step hentry hrest

end FileTree

/-! ## The walk and its trace -/

/-- What `watchDir` does to the kernel and to the listener. -/
inductive Deed where
  | watched (wd : Int) (name : Path)
  | reported (r : Report)
deriving DecidableEq

/-- The file or folder that it is about. -/
def Deed.path : Deed → Path
  | .watched _ name => name
  | .reported r => r.dst

/-- The report of a file that was there when the watcher came. -/
def discovered (p : Path) : Deed := .reported ⟨.fileDiscovered, [], p⟩

/-- The map after a number of deeds. -/
def recordWatches (dirs : Table Int Path) (deeds : List Deed) : Table Int Path :=
  deeds.foldl
    (fun dirs deed =>
      match deed with
      | .watched wd name => dirs.insert wd name
      | .reported _ => dirs)
    dirs

/-- A walk: the watched folders, what was done, and how it ended. -/
structure Walk where
  dirs : Table Int Path
  deeds : List Deed
  ending : ReportEnding

/-- A walk after something was done. -/
def Walk.after (deed : Deed) (walk : Walk) : Walk := { walk with deeds := deed :: walk.deeds }

/-- `watchDirs`, and what it does on its way. -/
def DaemonConfig.walk (cfg : DaemonConfig) (dirs : Table Int Path) : List Frame → Walk
  | [] => ⟨dirs, [], .returned⟩
  | .unopened name opens wd entries :: stack =>
      if !opens then ⟨dirs, [], .threw (.runtimeError ("cannot open directory: ".toList ++ name))⟩
      else
        match wd with
        | none => ⟨dirs, [], .threw (.runtimeError ("cannot watch directory: ".toList ++ name))⟩
        | some wd => (cfg.walk (dirs.insert wd name) (.opened name entries :: stack)).after (.watched wd name)
  | .opened _ .null :: stack => cfg.walk dirs stack
  | .opened name (.file fileName env rest) :: stack =>
      let r : Report := ⟨.fileDiscovered, [], name ++ '/' :: fileName⟩
      match cfg.listen r env with
      | .returned => (cfg.walk dirs (.opened name rest :: stack)).after (.reported r)
      | ending => ⟨dirs, [.reported r], ending⟩
  | .opened name (.dir dirName opens wd entries rest) :: stack =>
      if isDot dirName then cfg.walk dirs (.opened name rest :: stack)
      else
        cfg.walk dirs
          (.unopened (name ++ '/' :: dirName) opens wd entries :: .opened name rest :: stack)
  | .opened name (.other _ rest) :: stack => cfg.walk dirs (.opened name rest :: stack)
termination_by stack => stackSize stack
decreasing_by all_goals simp [stackSize, Frame.size, Listing.size]; try omega

/-- The walk is that of `watchDir`. -/
theorem DaemonConfig.watchDirs_eq_walk (cfg : DaemonConfig) (dirs : Table Int Path) (stack : List Frame) :
    cfg.watchDirs dirs stack = ((cfg.walk dirs stack).dirs, (cfg.walk dirs stack).ending) := by
  fun_induction DaemonConfig.watchDirs cfg dirs stack with
  | case1 => rw [walk]
  | case2 dirs name opens wd entries stack hclosed => cases wd <;> rw [walk, if_pos hclosed]
  | case3 dirs name opens entries stack hopen => rw [walk, if_neg hopen]
  | case4 dirs name opens entries stack hopen wd ih =>
    rw [ih, walk, if_neg hopen]
    rfl
  | case5 dirs name stack ih => rw [ih, walk]
  | case6 dirs name fileName env rest stack hlisten ih =>
    rw [ih, walk]
    simp only [hlisten]
    rfl
  | case7 dirs name fileName env rest stack hlisten =>
    rw [walk]
    cases hending : cfg.listen ⟨.fileDiscovered, [], name ++ '/' :: fileName⟩ env with
    | returned => exact absurd hending hlisten
    | threw x => rfl
    | terminated => rfl
  | case8 dirs name dirName opens wd entries rest stack hdot ih => rw [ih, walk, if_pos hdot]
  | case9 dirs name dirName opens wd entries rest stack hdot ih => rw [ih, walk, if_neg hdot]
  | case10 dirs name otherName rest stack ih => rw [ih, walk]

/-! ## What is left to do -/

/-- What is done for what is left of a folder. -/
def Listing.deeds (name : Path) : Listing → List Deed
  | .null => []
  | .file fileName _ rest => discovered (child '/' name fileName) :: rest.deeds name
  | .dir dirName _ wd entries rest =>
      if isDot dirName then rest.deeds name
      else
        wd.toList.map (Deed.watched · (child '/' name dirName))
          ++ (entries.deeds (child '/' name dirName) ++ rest.deeds name)
  | .other _ rest => rest.deeds name

/-- What is done for a frame until it is popped. -/
def Frame.deeds : Frame → List Deed
  | .unopened name _ wd entries => wd.toList.map (Deed.watched · name) ++ entries.deeds name
  | .opened name entries => entries.deeds name

/-- A walk that meets nothing that makes it throw does what is left of each frame, from the top. -/
theorem DaemonConfig.walk_of_harmless (cfg : DaemonConfig) (dirs : Table Int Path) (stack : List Frame)
    (h : ∀ f ∈ stack, cfg.HarmlessFrame f) :
    cfg.walk dirs stack
      = ⟨recordWatches dirs (stack.flatMap Frame.deeds), stack.flatMap Frame.deeds, .returned⟩ := by
  fun_induction DaemonConfig.walk cfg dirs stack with
  | case1 => rfl
  | case2 dirs name opens wd entries stack hclosed =>
    rw [List.forall_mem_cons] at h
    exact absurd h.1.1 (by simpa using hclosed)
  | case3 dirs name opens entries stack hopen =>
    rw [List.forall_mem_cons] at h
    exact absurd h.1.2.1 Bool.false_ne_true
  | case4 dirs name opens entries stack hopen wd ih =>
    rw [List.forall_mem_cons] at h
    rw [ih (List.forall_mem_cons.mpr ⟨h.1.2.2, h.2⟩)]
    rfl
  | case5 dirs name stack ih =>
    rw [List.forall_mem_cons] at h
    rw [ih h.2]
    rfl
  | case6 dirs name fileName env rest stack r hlisten ih =>
    rw [List.forall_mem_cons] at h
    rw [ih (List.forall_mem_cons.mpr ⟨h.1.2, h.2⟩)]
    rfl
  | case7 dirs name fileName env rest stack r hlisten =>
    rw [List.forall_mem_cons] at h
    exact absurd ((cfg.listen_returned_iff _ _).mpr h.1.1) hlisten
  | case8 dirs name dirName opens wd entries rest stack hdot ih =>
    rw [List.forall_mem_cons] at h
    rw [ih (List.forall_mem_cons.mpr ⟨h.1.2, h.2⟩)]
    simp only [List.flatMap_cons, Frame.deeds, Listing.deeds, hdot, if_true]
  | case9 dirs name dirName opens wd entries rest stack hdot ih =>
    -- the folder is left here, and gone on with after the one that it names
    rw [List.forall_mem_cons] at h
    have hdir := h.1.1.resolve_left hdot
    rw [ih (List.forall_mem_cons.mpr ⟨hdir, List.forall_mem_cons.mpr ⟨h.1.2, h.2⟩⟩)]
    simp only [List.flatMap_cons, Frame.deeds, Listing.deeds, hdot, if_false, Bool.false_eq_true, child,
      List.append_assoc]
  | case10 dirs name otherName rest stack ih =>
    rw [List.forall_mem_cons] at h
    rw [ih (List.forall_mem_cons.mpr ⟨h.1, h.2⟩)]
    rfl

/-! ## Listings of a tree -/

/-- What a listing has, apart from the folder itself and its parent. -/
def Listing.entries : Listing → List (Path × FileKind)
  | .null => []
  | .file name _ rest => (name, .file) :: rest.entries
  | .dir name _ _ _ rest => if isDot name then rest.entries else (name, .dir) :: rest.entries
  | .other name rest => (name, .other) :: rest.entries

/-- The listing has each thing in the folder once, with its kind. -/
structure ReadsAll (T : FileTree) (dir : Path) (listing : Listing) : Prop where
  nodup : (listing.entries.map Prod.fst).Nodup
  mem_iff : ∀ name k, (name, k) ∈ listing.entries ↔ T.Entry dir name k

/-- So have the listings of all folders in it, which are watched under their descriptors. -/
def ReadsBelow (T : FileTree) (watch : Path → Int) : Path → Listing → Prop
  | _, .null => True
  | dir, .file _ _ rest => ReadsBelow T watch dir rest
  | dir, .dir name _ wd entries rest =>
      (isDot name = true ∨ (wd = some (watch (child '/' dir name))
        ∧ ReadsAll T (child '/' dir name) entries ∧ ReadsBelow T watch (child '/' dir name) entries))
      ∧ ReadsBelow T watch dir rest
  | dir, .other _ rest => ReadsBelow T watch dir rest

/-- What the walk does for something of a kind. -/
def deedFor (watch : Path → Int) (p : Path) : FileKind → Option Deed
  | .file => some (discovered p)
  | .dir => some (.watched (watch p) p)
  | .other => none

variable {T : FileTree} {watch : Path → Int} {dir p : Path} {k : FileKind} {deed : Deed}

theorem path_of_deedFor (h : deedFor watch p k = some deed) : deed.path = p := by
  cases k with
  | file =>
    cases h
    rfl
  | dir =>
    cases h
    rfl
  | other => cases h

/-- What is done for something in the folder, or below it. -/
def DoneFor (T : FileTree) (watch : Path → Int) (p : Path) (k : FileKind) (deed : Deed) : Prop :=
  ∃ q k', T.Reaches p k q k' ∧ deedFor watch q k' = some deed

theorem doneFor_iff_of_ne (hk : k ≠ .dir) : DoneFor T watch p k deed ↔ deedFor watch p k = some deed := by
  constructor
  · rintro ⟨q, k', hreach, hdeed⟩
    obtain ⟨rfl, rfl⟩ := (FileTree.reaches_iff_of_ne hk).mp hreach
    exact hdeed
  · exact fun hdeed => ⟨p, k, .here p k, hdeed⟩

theorem doneFor_dir_iff : DoneFor T watch dir .dir deed ↔ deed = .watched (watch dir) dir ∨
    ∃ name k, T.Entry dir name k ∧ DoneFor T watch (child '/' dir name) k deed := by
  constructor
  · rintro ⟨q, k', hreach, hdeed⟩
    rcases FileTree.reaches_dir_iff.mp hreach with ⟨rfl, rfl⟩ | ⟨name, k, hentry, hrest⟩
    · exact Or.inl (Option.some.inj hdeed).symm
    · exact Or.inr ⟨name, k, hentry, q, k', hrest, hdeed⟩
  · rintro (rfl | ⟨name, k, hentry, q, k', hrest, hdeed⟩)
    · exact ⟨dir, .dir, .here dir .dir, rfl⟩
    · exact ⟨q, k', .step hentry hrest, hdeed⟩

/-- What is done for one more entry. -/
theorem exists_entry_cons {es : List (Path × FileKind)} {name : Path} :
    (∃ name' k', (name', k') ∈ (name, k) :: es ∧ DoneFor T watch (child '/' dir name') k' deed) ↔
      DoneFor T watch (child '/' dir name) k deed ∨
        ∃ name' k', (name', k') ∈ es ∧ DoneFor T watch (child '/' dir name') k' deed := by
  constructor
  · rintro ⟨name', k', hmem, hdone⟩
    rcases List.mem_cons.mp hmem with heq | hmem
    · cases heq
      exact Or.inl hdone
    · exact Or.inr ⟨name', k', hmem, hdone⟩
  · rintro (hdone | ⟨name', k', hmem, hdone⟩)
    · exact ⟨name, k, List.mem_cons_self, hdone⟩
    · exact ⟨name', k', List.mem_cons_of_mem _ hmem, hdone⟩

/-- What a folder's listing makes the walk do is what is done for the things in the listing. -/
theorem mem_deeds {listing : Listing} (h : ReadsBelow T watch dir listing) :
    deed ∈ listing.deeds dir ↔
      ∃ name k, (name, k) ∈ listing.entries ∧ DoneFor T watch (child '/' dir name) k deed := by
  induction listing generalizing dir with
  | null => simp [Listing.deeds, Listing.entries]
  | file name env rest ih =>
    have hfile : deed = discovered (child '/' dir name) ↔
        DoneFor T watch (child '/' dir name) .file deed := by
      rw [doneFor_iff_of_ne (by decide), deedFor, Option.some_inj, eq_comm]
    rw [Listing.deeds, Listing.entries, List.mem_cons, ih h, exists_entry_cons, hfile]
  | dir name opens wd entries rest ihEntries ihRest =>
    obtain ⟨hdir, hrest⟩ := h
    rw [Listing.deeds, Listing.entries]
    split_ifs with hdot
    · exact ihRest hrest
    · obtain ⟨rfl, hreads, hbelow⟩ := hdir.resolve_left hdot
      rw [exists_entry_cons, List.mem_append, List.mem_append, ihEntries hbelow, ihRest hrest,
        doneFor_dir_iff, ← or_assoc]
      simp only [Option.toList_some, List.map_cons, List.map_nil, List.mem_singleton, hreads.mem_iff]
  | other name rest ih =>
    have hother : ¬ DoneFor T watch (child '/' dir name) .other deed := by
      rw [doneFor_iff_of_ne (by decide), deedFor]
      exact nofun
    rw [Listing.deeds, Listing.entries, ih h, exists_entry_cons, or_iff_right hother]

/-- It is done for something in the listing. -/
theorem within_of_mem_deeds {listing : Listing} (h : ReadsBelow T watch dir listing)
    (hdeed : deed ∈ listing.deeds dir) :
    ∃ name k, (name, k) ∈ listing.entries ∧ Within '/' (child '/' dir name) deed.path := by
  obtain ⟨name, k, hmem, q, k', hreach, hfor⟩ := (mem_deeds h).mp hdeed
  exact ⟨name, k, hmem, path_of_deedFor hfor ▸ hreach.within⟩

/-- The names of a listing are all different and have no slash in them. -/
def Distinct (listing : Listing) : Prop :=
  (listing.entries.map Prod.fst).Nodup ∧ ∀ name k, (name, k) ∈ listing.entries → '/' ∉ name

theorem ReadsAll.distinct {listing : Listing} (h : ReadsAll T dir listing) : Distinct listing :=
  ⟨h.nodup, fun name k hmem => ((h.mem_iff name k).mp hmem).2.1⟩

/-- So are those of what is left of it. -/
theorem distinct_rest {rest : Listing} {name : Path}
    (hnodup : (((name, k) :: rest.entries).map Prod.fst).Nodup)
    (hslash : ∀ name' k', (name', k') ∈ (name, k) :: rest.entries → '/' ∉ name') : Distinct rest :=
  ⟨(List.nodup_cons.mp hnodup).2, fun name' k' hmem => hslash name' k' (List.mem_cons_of_mem _ hmem)⟩

/-- Nothing in one thing of a folder is in the rest of its listing. -/
theorem not_within_rest {es : List (Path × FileKind)} {name : Path}
    (hnodup : (((name, k) :: es).map Prod.fst).Nodup)
    (hslash : ∀ name' k', (name', k') ∈ (name, k) :: es → '/' ∉ name')
    (hwithin : Within '/' (child '/' dir name) p) :
    ¬ ∃ name' k', (name', k') ∈ es ∧ Within '/' (child '/' dir name') p := by
  rintro ⟨name', k', hmem, hother⟩
  have heq : name = name' := eq_of_within_child (hslash name k List.mem_cons_self)
    (hslash name' k' (List.mem_cons_of_mem _ hmem)) hwithin hother
  rw [List.map_cons, List.nodup_cons] at hnodup
  subst heq
  exact hnodup.1 (List.mem_map.mpr ⟨_, hmem, rfl⟩)

/-- Nothing is done twice. -/
theorem nodup_deeds {listing : Listing} (h : ReadsBelow T watch dir listing) (hdistinct : Distinct listing) :
    (listing.deeds dir).Nodup := by
  induction listing generalizing dir with
  | null => exact List.nodup_nil
  | file name env rest ih =>
    obtain ⟨hnodup, hslash⟩ := hdistinct
    have hrest : Distinct rest := distinct_rest hnodup hslash
    have hbelow : ReadsBelow T watch dir rest := h
    rw [Listing.deeds, List.nodup_cons]
    refine ⟨fun hmem => ?_, ih hbelow hrest⟩
    exact not_within_rest hnodup hslash (Or.inl rfl) (within_of_mem_deeds hbelow hmem)
  | dir name opens wd entries rest ihEntries ihRest =>
    obtain ⟨hdir, hbelow⟩ := h
    unfold Distinct at hdistinct
    rw [Listing.entries] at hdistinct
    rw [Listing.deeds]
    split_ifs at hdistinct ⊢ with hdot
    · exact ihRest hbelow hdistinct
    · obtain ⟨hnodup, hslash⟩ := hdistinct
      have hrest : Distinct rest := distinct_rest hnodup hslash
      obtain ⟨rfl, hreads, hinner⟩ := hdir.resolve_left hdot
      have hapart : ∀ d : Deed, Within '/' (child '/' dir name) d.path → d ∉ rest.deeds dir :=
        fun d hd hmem => not_within_rest hnodup hslash hd (within_of_mem_deeds hbelow hmem)
      have hinside : ∀ d ∈ entries.deeds (child '/' dir name),
          Within '/' (child '/' dir name) d.path ∧ d.path ≠ child '/' dir name := by
        intro d hd
        obtain ⟨name', k', -, hwithin⟩ := within_of_mem_deeds hinner hd
        exact within_of_child hwithin
      show (Deed.watched _ (child '/' dir name)
        :: (entries.deeds (child '/' dir name) ++ rest.deeds dir)).Nodup
      rw [List.nodup_cons, List.mem_append, not_or]
      refine ⟨⟨fun hmem => (hinside _ hmem).2 rfl, hapart _ (Or.inl rfl)⟩, ?_⟩
      refine List.Nodup.append (ihEntries hinner hreads.distinct) (ihRest hbelow hrest) ?_
      exact fun d hd hmem => hapart d (hinside d hd).1 hmem
  | other name rest ih =>
    obtain ⟨hnodup, hslash⟩ := hdistinct
    exact ih h (distinct_rest hnodup hslash)

/-! ## The map of the watched folders -/

/-- A folder that is in the map or is watched, and no other under its descriptor, is in the map afterwards. -/
theorem find?_recordWatches {deeds : List Deed} {wd : Int} {dirs : Table Int Path}
    (h : dirs.find? wd = some p ∨ .watched wd p ∈ deeds) (honly : ∀ q, .watched wd q ∈ deeds → q = p) :
    (recordWatches dirs deeds).find? wd = some p := by
  induction deeds generalizing dirs with
  | nil => exact h.resolve_right List.not_mem_nil
  | cons d deeds ih =>
    have hrest : ∀ q, .watched wd q ∈ deeds → q = p := fun q hq => honly q (List.mem_cons_of_mem _ hq)
    cases d with
    | watched wd' q =>
      show (recordWatches (dirs.insert wd' q) deeds).find? wd = some p
      refine ih ?_ hrest
      rw [Table.find?_insert]
      split_ifs with hwd
      · subst hwd
        rw [honly q List.mem_cons_self]
        exact Or.inl rfl
      · refine h.imp_right fun hmem => (List.mem_cons.mp hmem).resolve_left fun heq => ?_
        cases heq
        exact hwd rfl
    | reported r =>
      show (recordWatches dirs deeds).find? wd = some p
      refine ih (h.imp_right fun hmem => (List.mem_cons.mp hmem).resolve_left fun heq => ?_) hrest
      cases heq

/-- What the map has under other descriptors stays. -/
theorem find?_recordWatches_of_not_mem {deeds : List Deed} {wd : Int} (hnone : ∀ q, .watched wd q ∉ deeds)
    (dirs : Table Int Path) : (recordWatches dirs deeds).find? wd = dirs.find? wd := by
  induction deeds generalizing dirs with
  | nil => rfl
  | cons d deeds ih =>
    have hrest : ∀ q, .watched wd q ∉ deeds := fun q hq => hnone q (List.mem_cons_of_mem _ hq)
    cases d with
    | watched wd' q =>
      have hwd : wd ≠ wd' := by
        rintro rfl
        exact hnone q List.mem_cons_self
      show (recordWatches (dirs.insert wd' q) deeds).find? wd = _
      rw [ih hrest, Table.find?_insert, if_neg hwd]
    | reported r => exact ih hrest dirs

/-! ## Discovery -/

variable {cfg : DaemonConfig} {listing : Listing}

/-- The walk through a folder whose listings are those of a tree ends, and does for each file and each folder
in the tree, the folder itself included, what is to be done, once. -/
theorem walk_spec (hreads : ReadsAll T dir listing) (hbelow : ReadsBelow T watch dir listing)
    (hharmless : cfg.HarmlessListing dir listing) (dirs : Table Int Path) :
    ∃ deeds, cfg.walk dirs [.unopened dir true (some (watch dir)) listing]
        = ⟨recordWatches dirs deeds, deeds, .returned⟩
      ∧ deeds.Nodup ∧ ∀ d, d ∈ deeds ↔ DoneFor T watch dir .dir d := by
  refine ⟨.watched (watch dir) dir :: listing.deeds dir, ?_, ?_, fun d => ?_⟩
  · rw [cfg.walk_of_harmless]
    · simp only [List.flatMap_cons, List.flatMap_nil, Frame.deeds, Option.toList_some, List.map_cons,
        List.map_nil, List.singleton_append, List.append_nil]
    · rw [List.forall_mem_singleton]
      exact ⟨rfl, rfl, hharmless⟩
  · refine List.nodup_cons.mpr ⟨fun hmem => ?_, nodup_deeds hbelow hreads.distinct⟩
    obtain ⟨name, k, -, hwithin⟩ := within_of_mem_deeds hbelow hmem
    exact (within_of_child hwithin).2 rfl
  · rw [List.mem_cons, mem_deeds hbelow, doneFor_dir_iff]
    simp only [hreads.mem_iff]

theorem doneFor_reported_iff {r : Report} : DoneFor T watch dir .dir (.reported r) ↔
    ∃ p, T.Reaches dir .dir p .file ∧ r = ⟨.fileDiscovered, [], p⟩ := by
  constructor
  · rintro ⟨p, k, hreach, hfor⟩
    cases k with
    | file =>
      cases hfor
      exact ⟨p, hreach, rfl⟩
    | dir => cases hfor
    | other => cases hfor
  · rintro ⟨p, hreach, rfl⟩
    exact ⟨p, .file, hreach, rfl⟩

theorem doneFor_watched_iff {wd : Int} :
    DoneFor T watch dir .dir (.watched wd p) ↔ T.Reaches dir .dir p .dir ∧ wd = watch p := by
  constructor
  · rintro ⟨q, k', hreach, hfor⟩
    cases k' with
    | file => cases hfor
    | dir =>
      cases hfor
      exact ⟨hreach, rfl⟩
    | other => cases hfor
  · rintro ⟨hreach, rfl⟩
    exact ⟨p, .dir, hreach, rfl⟩

/-- What the walk through a folder is for. -/
structure Discovers (T : FileTree) (watch : Path → Int) (dir : Path) (before : Table Int Path)
    (walk : Walk) : Prop where
  ends : walk.ending = .returned
  reports : ∀ r, .reported r ∈ walk.deeds ↔
    ∃ p, T.Reaches dir .dir p .file ∧ r = ⟨.fileDiscovered, [], p⟩
  watches : ∀ wd p, .watched wd p ∈ walk.deeds ↔ T.Reaches dir .dir p .dir ∧ wd = watch p
  once : walk.deeds.Nodup
  known : ∀ p, T.Reaches dir .dir p .dir → walk.dirs.find? (watch p) = some p
  others : ∀ wd, (∀ p, T.Reaches dir .dir p .dir → wd ≠ watch p) → walk.dirs.find? wd = before.find? wd

/-- `watchDir` ends, reports each file in the tree once with its full name, watches each folder once, and has
it in the map under its descriptor; provided that the listings are those of the tree, no two folders have one
descriptor, and nothing throws. -/
theorem watchDir_discovers (hreads : ReadsAll T dir listing) (hbelow : ReadsBelow T watch dir listing)
    (hwatch : ∀ p q, T.Reaches dir .dir p .dir → T.Reaches dir .dir q .dir → watch p = watch q → p = q)
    (hharmless : cfg.HarmlessListing dir listing) (dirs : Table Int Path) :
    let stack := [Frame.unopened dir true (some (watch dir)) listing]
    cfg.watchDirs dirs stack = ((cfg.walk dirs stack).dirs, .returned)
      ∧ Discovers T watch dir dirs (cfg.walk dirs stack) := by
  intro stack
  obtain ⟨deeds, hwalk, hnodup, hmem⟩ := walk_spec hreads hbelow hharmless dirs
  have hwatched : ∀ wd p, .watched wd p ∈ deeds ↔ T.Reaches dir .dir p .dir ∧ wd = watch p :=
    fun wd p => (hmem _).trans doneFor_watched_iff
  rw [cfg.watchDirs_eq_walk, hwalk]
  refine ⟨rfl, rfl, fun r => (hmem _).trans doneFor_reported_iff, hwatched, hnodup, fun p hp => ?_,
    fun wd hwd => ?_⟩
  · refine find?_recordWatches (Or.inr ((hwatched _ p).mpr ⟨hp, rfl⟩)) fun q hq => ?_
    obtain ⟨hreach, heq⟩ := (hwatched _ q).mp hq
    exact (hwatch p q hp hreach heq).symm
  · refine find?_recordWatches_of_not_mem (fun q hq => ?_) dirs
    obtain ⟨hreach, heq⟩ := (hwatched wd q).mp hq
    exact hwd q hreach heq

/-- A folder with a file in it, and another file in a folder. -/
def twoFiles : FileTree where
  kind p :=
    if p = "/m/a".toList then some .file
    else if p = "/m/d".toList then some .dir
    else if p = "/m/d/b".toList then some .file
    else none

/-- Its listings, with the entry of the folder itself. -/
def twoFilesListing : Listing :=
  .dir ".".toList true none .null
    (.file "a".toList ⟨fun _ => some 1, true⟩
      (.dir "d".toList true (some 4) (.file "b".toList ⟨fun _ => some 1, true⟩ .null) .null))

theorem entry_twoFiles {name : Path} : twoFiles.Entry "/m".toList name k ↔
    (name = "a".toList ∧ k = .file) ∨ (name = "d".toList ∧ k = .dir) := by
  have ha : child '/' "/m".toList name = "/m/a".toList ↔ name = "a".toList :=
    child_inj (b := "a".toList)
  have hd : child '/' "/m".toList name = "/m/d".toList ↔ name = "d".toList :=
    child_inj (b := "d".toList)
  have hb : child '/' "/m".toList name = "/m/d/b".toList ↔ name = "d/b".toList :=
    child_inj (b := "d/b".toList)
  simp only [FileTree.Entry, twoFiles, ha, hd, hb]
  constructor
  · rintro ⟨-, hslash, hkind⟩
    split_ifs at hkind with hname hname hname
    · exact Or.inl ⟨hname, (Option.some.inj hkind).symm⟩
    · exact Or.inr ⟨hname, (Option.some.inj hkind).symm⟩
    · exact absurd (hname ▸ hslash) (by decide)
  · rintro (⟨rfl, rfl⟩ | ⟨rfl, rfl⟩) <;> decide

theorem entry_twoFiles_inner {name : Path} : twoFiles.Entry "/m/d".toList name k ↔
    name = "b".toList ∧ k = .file := by
  have hshort : ∀ q : Path, q.length ≤ 4 → child '/' "/m/d".toList name ≠ q := by
    rintro q hq rfl
    rw [child, List.length_append, List.length_cons] at hq
    exact absurd hq (by rw [show "/m/d".toList.length = 4 from rfl]; omega)
  have hb : child '/' "/m/d".toList name = "/m/d/b".toList ↔ name = "b".toList :=
    child_inj (b := "b".toList)
  simp only [FileTree.Entry, twoFiles, hb, if_neg (hshort "/m/a".toList (by decide)),
    if_neg (hshort "/m/d".toList (by decide))]
  constructor
  · rintro ⟨-, -, hkind⟩
    split_ifs at hkind with hname
    exact ⟨hname, (Option.some.inj hkind).symm⟩
  · rintro ⟨rfl, rfl⟩
    decide

/-- The folders that are reached. -/
theorem dir_twoFiles (h : twoFiles.Reaches "/m".toList .dir p .dir) :
    p = "/m".toList ∨ p = "/m/d".toList := by
  rcases FileTree.reaches_dir_iff.mp h with ⟨rfl, -⟩ | ⟨name, k, hentry, hrest⟩
  · exact Or.inl rfl
  rcases entry_twoFiles.mp hentry with ⟨rfl, rfl⟩ | ⟨rfl, rfl⟩
  · cases ((FileTree.reaches_iff_of_ne (by decide)).mp hrest).2
  rcases FileTree.reaches_dir_iff.mp hrest with ⟨rfl, -⟩ | ⟨name, k, hentry, hrest⟩
  · exact Or.inr rfl
  obtain ⟨rfl, rfl⟩ := entry_twoFiles_inner.mp hentry
  cases ((FileTree.reaches_iff_of_ne (by decide)).mp hrest).2

/-- The walk through the folder. -/
theorem watchDir_discovers_twoFiles :
    let stack := [Frame.unopened "/m".toList true (some 2) twoFilesListing]
    gCfg.watchDirs .empty stack = ((gCfg.walk .empty stack).dirs, .returned)
      ∧ Discovers twoFiles (fun p => p.length) "/m".toList .empty (gCfg.walk .empty stack) := by
  have hentries : twoFilesListing.entries = [("a".toList, .file), ("d".toList, .dir)] := by decide
  have hreads : ReadsAll twoFiles "/m".toList twoFilesListing := by
    refine ⟨by decide, fun name k => ?_⟩
    rw [hentries, entry_twoFiles]
    simp only [List.mem_cons, List.not_mem_nil, or_false, Prod.mk.injEq]
  have hinner : ReadsAll twoFiles "/m/d".toList (.file "b".toList ⟨fun _ => some 1, true⟩ .null) := by
    refine ⟨by decide, fun name k => ?_⟩
    rw [entry_twoFiles_inner]
    simp only [Listing.entries, List.mem_cons, List.not_mem_nil, or_false, Prod.mk.injEq]
  have hbelow : ReadsBelow twoFiles (fun p => p.length) "/m".toList twoFilesListing := by
    unfold twoFilesListing
    exact ⟨Or.inl rfl, Or.inr ⟨rfl, hinner, trivial⟩, trivial⟩
  have hharmless : gCfg.HarmlessListing "/m".toList twoFilesListing := by
    have hsafe : ∀ p, gCfg.Harmless ⟨.fileDiscovered, [], p⟩ ⟨fun _ => some 1, true⟩ :=
      fun p => Or.inr (Or.inr ⟨rfl, Or.inr rfl⟩)
    unfold twoFilesListing
    exact ⟨Or.inl rfl, hsafe _, Or.inr ⟨rfl, rfl, hsafe _, trivial⟩, trivial⟩
  refine watchDir_discovers hreads hbelow (fun p q hp hq heq => ?_) hharmless .empty
  rcases dir_twoFiles hp with rfl | rfl <;> rcases dir_twoFiles hq with rfl | rfl
  · rfl
  · exact absurd heq (by decide)
  · exact absurd heq (by decide)
  · rfl

/-! ## Every finite tree has listings -/

theorem FileTree.Entry.kind_unique {name : Path} {k' : FileKind} (h : T.Entry dir name k)
    (h' : T.Entry dir name k') : k = k' := Option.some.inj (h.2.2.symm.trans h'.2.2)

/-- What a folder's listing needs of the folders in it. -/
def Listable (cfg : DaemonConfig) (T : FileTree) (watch : Path → Int) (dir : Path) : Prop :=
  ∃ listing, ReadsAll T dir listing ∧ ReadsBelow T watch dir listing ∧ cfg.HarmlessListing dir listing

/-- A listing in the order of the names. -/
theorem exists_listing_of_names (cfg : DaemonConfig) (names : List Path)
    (hsub : ∀ name, T.Entry dir name .dir → Listable cfg T watch (child '/' dir name))
    (hnames : ∀ name ∈ names, ∃ k, T.Entry dir name k) :
    ∃ listing : Listing, listing.entries.map Prod.fst = names
      ∧ (∀ name k, (name, k) ∈ listing.entries ↔ name ∈ names ∧ T.Entry dir name k)
      ∧ ReadsBelow T watch dir listing ∧ cfg.HarmlessListing dir listing := by
  induction names with
  | nil => exact ⟨.null, rfl, by simp [Listing.entries], trivial, trivial⟩
  | cons name names ih =>
    obtain ⟨⟨k, hentry⟩, hrest⟩ := List.forall_mem_cons.mp hnames
    obtain ⟨rest, hmap, hmem, hbelow, hharmless⟩ := ih hrest
    have hcons : ∀ name' k', (name', k') ∈ (name, k) :: rest.entries ↔
        name' ∈ name :: names ∧ T.Entry dir name' k' := by
      intro name' k'
      rw [List.mem_cons, hmem, List.mem_cons, or_and_right]
      refine or_congr_left ⟨fun heq => ?_, fun ⟨heq, hentry'⟩ => ?_⟩
      · cases heq
        exact ⟨rfl, hentry⟩
      · subst heq
        rw [hentry.kind_unique hentry']
    cases k with
    | file =>
      have hsafe : cfg.Harmless ⟨.fileDiscovered, [], dir ++ '/' :: name⟩ ⟨fun _ => some 0, true⟩ :=
        Or.inr (Or.inr ⟨rfl, Or.inr rfl⟩)
      exact ⟨.file name ⟨fun _ => some 0, true⟩ rest, congrArg (name :: ·) hmap, hcons, hbelow, hsafe,
        hharmless⟩
    | dir =>
      obtain ⟨sub, hreads, hinner, hsafe⟩ := hsub name hentry
      have hentries : (Listing.dir name true (some (watch (child '/' dir name))) sub rest).entries
          = (name, .dir) :: rest.entries := by
        rw [Listing.entries, hentry.1, if_neg Bool.false_ne_true]
      refine ⟨.dir name true (some (watch (child '/' dir name))) sub rest, ?_, ?_,
        ⟨Or.inr ⟨rfl, hreads, hinner⟩, hbelow⟩, Or.inr ⟨rfl, rfl, hsafe⟩, hharmless⟩
      · rw [hentries]
        exact congrArg (name :: ·) hmap
      · rw [hentries]
        exact hcons
    | other => exact ⟨.other name rest, congrArg (name :: ·) hmap, hcons, hbelow, hharmless⟩

/-- Every finite tree has listings that the walk gets through. -/
theorem listable_of_finite (cfg : DaemonConfig) (T : FileTree) (watch : Path → Int) {dir : Path}
    (hfinite : {p | ∃ k, T.Reaches dir .dir p k}.Finite) : Listable cfg T watch dir := by
  induction hn : {p | ∃ k, T.Reaches dir .dir p k}.ncard using Nat.strong_induction_on generalizing dir with
  | _ n ih =>
    have hsub : ∀ name, T.Entry dir name .dir → Listable cfg T watch (child '/' dir name) := by
      intro name hentry
      have hsubset : {p | ∃ k, T.Reaches (child '/' dir name) .dir p k}
          ⊂ {p | ∃ k, T.Reaches dir .dir p k} := by
        refine Set.ssubset_iff_exists.mpr ⟨fun p ⟨k, hreach⟩ => ⟨k, .step hentry hreach⟩, dir, ?_, ?_⟩
        · exact ⟨.dir, .here dir .dir⟩
        · rintro ⟨k, hreach⟩
          exact (within_of_child hreach.within).2 rfl
      exact ih _ (hn ▸ Set.ncard_lt_ncard hsubset hfinite) (hfinite.subset hsubset.subset) rfl
    have hnames : {name | ∃ k, T.Entry dir name k}.Finite := by
      refine Set.Finite.of_finite_image (hfinite.subset ?_) (f := child '/' dir) ?_
      · rintro _ ⟨name, ⟨k, hentry⟩, rfl⟩
        exact ⟨k, .step hentry (.here _ k)⟩
      · intro a _ b _ heq
        exact child_inj.mp heq
    obtain ⟨listing, hmap, hmem, hbelow, hharmless⟩ :=
      exists_listing_of_names cfg hnames.toFinset.toList hsub fun name hname => by simpa using hname
    refine ⟨listing, ⟨?_, fun name k => ?_⟩, hbelow, hharmless⟩
    · rw [hmap]
      exact Finset.nodup_toList _
    · rw [hmem, Finset.mem_toList, Set.Finite.mem_toFinset]
      exact and_iff_right_of_imp fun hentry => ⟨k, hentry⟩

end MediaArchiver
