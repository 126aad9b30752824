/-
# MediaArchiver.Watcher.NewFolders -- which folders are watched

At the start every folder is watched and known under its name. After that nothing is watched anew:
`InotifyFlags` does not ask for `IN_CREATE`, so the branch that would watch a new folder never runs, and of
folders that are moved the watcher only writes a line into the log. And a folder that is deleted takes the
watch of its parent with it. So every folder of the trees is watched and known, whenever the events are
handled, exactly in those runs in which no folder of the trees is made, renamed or deleted, and none is
moved in, unless it was watched before and comes back to its old name (`Admissible`).

What stays true along such a run is that every folder has a descriptor that is watched and known and that
no event waiting to be handled takes away (`Stable`). What a number of handled events can do is fade: the
watches and the entries become fewer (`Fades`).
-/
import MediaArchiver.Watcher.Deletion
import MediaArchiver.Watcher.Vanished

namespace MediaArchiver

open Lib (Machine Table Within child renamed)

namespace WatchedTree

variable {roots : List Path} {s s' s'' : WatchedTree}

/-! ## Events of a step -/

theorem mem_queue_post {dir name : Path} {mask cookie : UInt32} {e : InotifyEvent} :
    e ∈ (s.post dir mask cookie name).queue ↔ e ∈ s.queue ∨
      (has mask FileSystemWatcher.inotifyFlags = true ∧ s.watches.find? e.wd = some dir
        ∧ e = ⟨e.wd, mask, cookie, name⟩) := by
  unfold post
  split
  · rename_i hflags
    rw [List.mem_append, List.mem_map]
    apply or_congr Iff.rfl
    constructor
    · rintro ⟨⟨wd, q⟩, hrow, rfl⟩
      obtain ⟨hwatch, hdir⟩ := List.mem_filter.mp hrow
      obtain rfl : q = dir := of_decide_eq_true hdir
      exact ⟨hflags, s.watches.find?_eq_some.mpr hwatch, rfl⟩
    · rintro ⟨-, hwatch, he⟩
      refine ⟨(e.wd, dir), List.mem_filter.mpr ⟨s.watches.find?_eq_some.mp hwatch, ?_⟩, he.symm⟩
      exact decide_eq_true rfl
  · rename_i hflags
    exact ⟨Or.inl, fun h => h.elim id fun h => absurd h.1 hflags⟩

@[simp] theorem dirs_post (dir name : Path) (mask cookie : UInt32) :
    (s.post dir mask cookie name).dirs = s.dirs := by
  unfold post
  split <;> rfl

@[simp] theorem watches_post (dir name : Path) (mask cookie : UInt32) :
    (s.post dir mask cookie name).watches = s.watches := by
  unfold post
  split <;> rfl

@[simp] theorem watcher_post (dir name : Path) (mask cookie : UInt32) :
    (s.post dir mask cookie name).watcher = s.watcher := by
  unfold post
  split <;> rfl

/-- An event that comes with the removal of a folder is of no other folder. -/
theorem mem_queue_remove {p : Path} {e : InotifyEvent} (h : e ∈ (s.remove p).queue) :
    e ∈ s.queue ∨ (creates e = false ∧ deletes e = false) := by
  rcases List.mem_append.mp h with h | h
  · exact Or.inl h
  · obtain ⟨r, -, hr⟩ := List.mem_flatMap.mp h
    right
    rcases List.mem_cons.mp hr with rfl | hr
    · exact (by decide +kernel : (has (Inotify.deleteSelf ||| Inotify.isdir) Inotify.isdir &&
        has (Inotify.deleteSelf ||| Inotify.isdir) Inotify.create) = false ∧
        (has (Inotify.deleteSelf ||| Inotify.isdir) Inotify.isdir &&
        has (Inotify.deleteSelf ||| Inotify.isdir) Inotify.delete) = false)
    · obtain rfl := List.mem_singleton.mp hr
      exact (by decide +kernel : (has Inotify.ignored Inotify.isdir &&
        has Inotify.ignored Inotify.create) = false ∧
        (has Inotify.ignored Inotify.isdir && has Inotify.ignored Inotify.delete) = false)

theorem queue_subset_remove {p : Path} {e : InotifyEvent} (h : e ∈ s.queue) : e ∈ (s.remove p).queue :=
  List.mem_append.mpr (Or.inl h)

theorem find?_watches_remove {p q : Path} {wd : Int} :
    (s.remove p).watches.find? wd = some q ↔ s.watches.find? wd = some q ∧ q ≠ p := by
  unfold remove
  rw [Table.find?_filter, Option.filter_eq_some_iff, decide_eq_true_eq]

theorem find?_watches_move {src dst q : Path} {wd : Int} :
    (s.move src dst).watches.find? wd = some q ↔
      ∃ p, s.watches.find? wd = some p ∧ p ≠ dst ∧ renamed '/' src dst p = q := by
  unfold move
  rw [Table.find?_map, Option.map_eq_some_iff]
  simp only [find?_watches_remove, and_assoc]

theorem mem_dirs_move {src dst q : Path} :
    q ∈ (s.move src dst).dirs ↔ ∃ p, p ∈ s.dirs ∧ p ≠ dst ∧ renamed '/' src dst p = q := by
  unfold move remove
  simp only [List.mem_map, List.mem_filter, decide_eq_true_eq, and_assoc]

/-! ## Handling events -/

/-- No event is of a new folder. -/
def Admitted (s : WatchedTree) : Prop := ∀ e ∈ s.queue, creates e = false

theorem Admitted.post (h : s.Admitted) {dir name : Path} {mask cookie : UInt32}
    (hmask : (has mask Inotify.isdir && has mask Inotify.create) = false) :
    (s.post dir mask cookie name).Admitted := by
  intro e he
  rcases mem_queue_post.mp he with he | ⟨-, -, he⟩
  · exact h e he
  · rw [he]
    exact hmask

theorem Admitted.remove (h : s.Admitted) (p : Path) : (s.remove p).Admitted :=
  fun e he => (mem_queue_remove he).elim (h e) fun he => he.1

/-- The watches and the entries become fewer, and a deletion that waits is handled in the end. -/
structure Fades (s s' : WatchedTree) : Prop where
  admitted : s'.Admitted
  dirs : s'.dirs = s.dirs
  watches : ∀ wd p, s'.watches.find? wd = some p → s.watches.find? wd = some p
  entries : ∀ wd p, p ≠ [] → s'.watcher.watchedDirs.find? wd = some p →
    s.watcher.watchedDirs.find? wd = some p
  pending : ∀ e ∈ s.queue, deletes e = true → e ∈ s'.queue ∨ s'.watches.find? e.wd = none

theorem Fades.trans (h : Fades s s') (h' : Fades s' s'') : Fades s s'' where
  admitted := h'.admitted
  dirs := h'.dirs.trans h.dirs
  watches wd p hp := h.watches wd p (h'.watches wd p hp)
  entries wd p hne hp := h.entries wd p hne (h'.entries wd p hne hp)
  pending e he hd := by
    rcases h.pending e he hd with hwaits | hgone
    · exact h'.pending e hwaits hd
    · right
      cases hlater : s''.watches.find? e.wd with
      | none => rfl
      | some p =>
        rw [h'.watches _ _ hlater] at hgone
        cases hgone

theorem Admitted.fades (h : s.Admitted) : Fades s s :=
  ⟨h, rfl, fun _ _ hp => hp, fun _ _ _ hp => hp, fun _ he _ => Or.inl he⟩

variable {e : InotifyEvent} {rest : List InotifyEvent}

/-- A deletion is handled. -/
theorem fades_deletes (h : s.Admitted) (hq : s.queue = e :: rest) (hd : deletes e = true) (now : Nat)
    (fresh : Int) : Fades s (s.step (.handle now fresh)) := by
  obtain ⟨hdirs, hwatches, hentries, hqueue⟩ := step_handle_deletes hq hd now fresh
  have hmem : ∀ x, x ∈ (s.step (.handle now fresh)).queue → x ∈ rest ∨ x.mask = Inotify.ignored := by
    intro x hx
    rcases hqueue with hqueue | hqueue
    · exact Or.inl (hqueue ▸ hx)
    · rcases List.mem_append.mp (hqueue ▸ hx) with hx | hx
      · exact Or.inl hx
      · exact Or.inr (congrArg InotifyEvent.mask (List.mem_singleton.mp hx))
  refine ⟨?_, hdirs, ?_, ?_, ?_⟩
  · intro x hx
    rcases hmem x hx with hx | hmask
    · exact h x (by rw [hq]; exact List.mem_cons_of_mem _ hx)
    · rw [creates, hmask]
      decide +kernel
  · intro wd p hp
    rw [hwatches] at hp
    split at hp
    · cases hp
    · exact hp
  · intro wd p _ hp
    rw [hentries] at hp
    split at hp
    · cases hp
    · exact hp
  · intro x hx _
    rcases List.mem_cons.mp (hq ▸ hx) with rfl | hx
    · right
      rw [hwatches, if_pos rfl]
    · left
      rcases hqueue with hqueue | hqueue
      · exact hqueue ▸ hx
      · rw [hqueue]
        exact List.mem_append.mpr (Or.inl hx)

/-- Another event is handled. -/
theorem fades_other (h : s.Admitted) (hq : s.queue = e :: rest) (hd : deletes e = false) (now : Nat)
    (fresh : Int) : Fades s (s.step (.handle now fresh)) := by
  have hcreates : creates e = false := h e (by rw [hq]; exact List.mem_cons_self)
  obtain ⟨hdirs, hwatches, hentries, hqueue⟩ := step_handle_other hq hd hcreates now fresh
  refine ⟨?_, hdirs, ?_, ?_, ?_⟩
  · intro x hx
    rw [hqueue] at hx
    exact h x (by rw [hq]; exact List.mem_cons_of_mem _ hx)
  · intro wd p hp
    rwa [hwatches] at hp
  · intro wd p hne hp
    rw [hentries, Table.find?_insertNew] at hp
    split at hp
    · -- an entry that was made by the subscript operator has no name
      rename_i heq
      cases hentry : s.watcher.watchedDirs.find? e.wd with
      | none =>
        rw [hentry] at hp
        exact absurd (Option.some.inj hp).symm hne
      | some q =>
        rw [hentry] at hp
        rw [heq, hentry]
        exact hp
    · exact hp
  · intro x hx hdx
    rcases List.mem_cons.mp (hq ▸ hx) with rfl | hx
    · rw [hd] at hdx
      cases hdx
    · left
      rw [hqueue]
      exact hx

theorem fades_handle (h : s.Admitted) (now : Nat) (fresh : Int) : Fades s (s.step (.handle now fresh)) := by
  cases hq : s.queue with
  | nil =>
    rw [step_handle_nil hq]
    exact h.fades
  | cons e rest =>
    cases hd : deletes e with
    | true => exact fades_deletes h hq hd now fresh
    | false => exact fades_other h hq hd now fresh

/-- The watcher handles a number of events. -/
def handles (answers : List (Nat × Int)) : List TreeStep := answers.map fun a => .handle a.1 a.2

theorem fades_handles (h : s.Admitted) (answers : List (Nat × Int)) :
    Fades s (machine.run s (handles answers)) := by
  induction answers generalizing s with
  | nil => exact h.fades
  | cons a answers ih =>
    have hstep := fades_handle h a.1 a.2
    exact hstep.trans (ih hstep.admitted)

/-- How many events there will be to handle, at most. -/
def load : List InotifyEvent → Nat
  | [] => 0
  | e :: rest => (if deletes e then 2 else 1) + load rest

theorem load_concat (l : List InotifyEvent) (e : InotifyEvent) (hd : deletes e = false) :
    load (l ++ [e]) = load l + 1 := by
  induction l with
  | nil => simp [load, hd]
  | cons x l ih =>
    rw [List.cons_append, load, load, ih]
    exact (Nat.add_assoc _ _ _).symm

/-- The watcher gets to the end of the events. -/
theorem exists_handles (h : s.Admitted) :
    ∃ answers, (machine.run s (handles answers)).queue = [] := by
  induction hload : load s.queue using Nat.strong_induction_on generalizing s with
  | h n ih =>
    cases hq : s.queue with
    | nil => exact ⟨[], hq⟩
    | cons e rest =>
      have hless : load (s.step (.handle 0 0)).queue < n := by
        rw [← hload, hq, load]
        cases hd : deletes e with
        | true =>
          obtain ⟨-, -, -, hqueue⟩ := step_handle_deletes hq hd 0 0
          have hlight : deletes ⟨e.wd, Inotify.ignored, 0, []⟩ = false :=
            (by decide +kernel : (has Inotify.ignored Inotify.isdir &&
              has Inotify.ignored Inotify.delete) = false)
          rcases hqueue with hqueue | hqueue <;> rw [hqueue, if_pos rfl]
          · omega
          · rw [load_concat _ _ hlight]
            omega
        | false =>
          obtain ⟨-, -, -, hqueue⟩ := step_handle_other hq hd
            (h e (by rw [hq]; exact List.mem_cons_self)) 0 0
          rw [hqueue, if_neg Bool.false_ne_true]
          omega
      obtain ⟨answers, hend⟩ := ih _ hless (fades_handle h 0 0).admitted rfl
      exact ⟨(0, 0) :: answers, hend⟩

/-! ## What a run must not do -/

/-- The folder is in one of the trees. -/
def InTree (roots : List Path) (p : Path) : Prop := ∃ r ∈ roots, Within '/' r p

instance (roots : List Path) (p : Path) : Decidable (InTree roots p) :=
  inferInstanceAs (Decidable (∃ r ∈ roots, _))

/-- Every folder of the trees is watched, and known under its name. -/
def Covered (roots : List Path) (s : WatchedTree) : Prop :=
  ∀ p ∈ s.dirs, InTree roots p → ∃ wd, s.Knows wd p

/-- Once no event is left to handle, every folder of the trees is watched and known. -/
def EndsCovered (roots : List Path) (s : WatchedTree) : Prop :=
  ∀ answers, (machine.run s (handles answers)).queue = [] → Covered roots (machine.run s (handles answers))

/-- No deletion that is waiting to be handled was reported with the descriptor. -/
def Spared (s : WatchedTree) (wd : Int) : Prop := ∀ e ∈ s.queue, deletes e = true → e.wd ≠ wd

instance (s : WatchedTree) (wd : Int) : Decidable (s.Spared wd) :=
  inferInstanceAs (Decidable (∀ e ∈ s.queue, _))

/-- No folder is made in a tree, none is deleted in a folder of a tree, and the folders that get a name in a
tree are watched, spared, and known under that name already. -/
def Admissible (roots : List Path) (s : WatchedTree) : TreeStep → Prop
  | .mkdir dir name => s.MayMake dir name → ¬ InTree roots (child '/' dir name)
  | .rmdir dir name => s.MayRemove dir name → ¬ InTree roots dir
  | .rename dir name dir' name' _ => s.MayRename dir name dir' name' →
      ∀ p ∈ s.dirs, Within '/' (child '/' dir name) p →
        InTree roots (renamed '/' (child '/' dir name) (child '/' dir' name') p) →
          ∃ wd, s.watches.find? wd = some p ∧ s.Spared wd ∧
            s.watcher.watchedDirs.find? wd = some (renamed '/' (child '/' dir name) (child '/' dir' name') p)
  | .touch .. => True
  | .handle .. => True

/-- Every folder of the trees has a descriptor that will stay. -/
structure Stable (roots : List Path) (s : WatchedTree) : Prop where
  admitted : s.Admitted
  exist : ∀ wd p, s.watches.find? wd = some p → p ∈ s.dirs
  covered : ∀ p ∈ s.dirs, InTree roots p → ∃ wd, s.Knows wd p ∧ s.Spared wd

/-! ## Runs that keep to it -/

/-- The kernel is not asked to report new folders. -/
theorem create_not_asked :
    has (Inotify.create ||| Inotify.isdir) FileSystemWatcher.inotifyFlags = false := by
  decide +kernel

theorem post_create (s : WatchedTree) (dir name : Path) :
    s.post dir (Inotify.create ||| Inotify.isdir) 0 name = s := by
  rw [post, create_not_asked]
  rfl

theorem Stable.mkdir (h : Stable roots s) {dir name : Path} (hout : ¬ InTree roots (child '/' dir name)) :
    Stable roots { s with dirs := child '/' dir name :: s.dirs } where
  admitted := h.admitted
  exist wd p hp := List.mem_cons_of_mem _ (h.exist wd p hp)
  covered p hp hin := by
    rcases List.mem_cons.mp hp with rfl | hp
    · exact absurd hin hout
    · exact h.covered p hp hin

theorem Stable.rmdir (h : Stable roots s) {dir name : Path} (hout : ¬ InTree roots dir) :
    Stable roots ((s.post dir (Inotify.delete ||| Inotify.isdir) 0 name).remove (child '/' dir name)) where
  admitted := (h.admitted.post (by decide +kernel)).remove _
  exist wd p hp := by
    obtain ⟨hwatch, hne⟩ := find?_watches_remove.mp hp
    rw [watches_post] at hwatch
    refine List.mem_filter.mpr ⟨?_, decide_eq_true hne⟩
    rw [dirs_post]
    exact h.exist wd p hwatch
  covered p hp hin := by
    obtain ⟨hp, hne⟩ := List.mem_filter.mp hp
    rw [dirs_post] at hp
    obtain ⟨wd, ⟨hwatch, hentry⟩, hspared⟩ := h.covered p hp hin
    refine ⟨wd, ⟨find?_watches_remove.mpr ⟨?_, of_decide_eq_true hne⟩, ?_⟩, fun e he hd => ?_⟩
    · rwa [watches_post]
    · exact (congrArg (fun w => w.watchedDirs.find? wd) (watcher_post ..)).trans hentry
    · rcases mem_queue_remove he with he | ⟨-, he⟩
      · rcases mem_queue_post.mp he with he | ⟨-, hdir, -⟩
        · exact hspared e he hd
        · -- the descriptor of the folder that the deletion is in, and that is in no tree
          rintro rfl
          rw [hwatch] at hdir
          exact hout (Option.some.inj hdir ▸ hin)
      · rw [he] at hd
        cases hd

/-- An event that is of neither a new nor a deleted folder changes nothing. -/
theorem Stable.post (h : Stable roots s) {dir name : Path} {mask cookie : UInt32}
    (hquiet : (has mask Inotify.isdir && (has mask Inotify.create || has mask Inotify.delete)) = false) :
    Stable roots (s.post dir mask cookie name) where
  admitted := by
    rw [Bool.and_or_distrib_left, Bool.or_eq_false_iff] at hquiet
    exact h.admitted.post hquiet.1
  exist wd p hp := by
    rw [watches_post] at hp
    rw [dirs_post]
    exact h.exist wd p hp
  covered p hp hin := by
    rw [dirs_post] at hp
    obtain ⟨wd, ⟨hwatch, hentry⟩, hspared⟩ := h.covered p hp hin
    refine ⟨wd, ⟨by rwa [watches_post], by rwa [watcher_post]⟩, fun e he hd => ?_⟩
    rcases mem_queue_post.mp he with he | ⟨-, -, he⟩
    · exact hspared e he hd
    · rw [Bool.and_or_distrib_left, Bool.or_eq_false_iff] at hquiet
      rw [he] at hd
      exact absurd hd (by rw [Bool.not_eq_true]; exact hquiet.2)

theorem Stable.move (h : Stable roots s) {src dst : Path} (hback : ∀ p ∈ s.dirs, Within '/' src p →
    InTree roots (renamed '/' src dst p) → ∃ wd, s.watches.find? wd = some p ∧ s.Spared wd ∧
      s.watcher.watchedDirs.find? wd = some (renamed '/' src dst p)) :
    Stable roots (s.move src dst) where
  admitted := h.admitted.remove dst
  exist wd q hq := by
    obtain ⟨p, hp, hne, hname⟩ := find?_watches_move.mp hq
    exact mem_dirs_move.mpr ⟨p, h.exist wd p hp, hne, hname⟩
  covered q hq hin := by
    obtain ⟨p, hp, hne, rfl⟩ := mem_dirs_move.mp hq
    have hspared : ∀ wd, s.Spared wd → (s.move src dst).Spared wd := by
      intro wd hspared e he hd
      rcases mem_queue_remove he with he | ⟨-, he⟩
      · exact hspared e he hd
      · rw [he] at hd
        cases hd
    by_cases hsrc : Within '/' src p
    · obtain ⟨wd, hwatch, hkept, hentry⟩ := hback p hp hsrc hin
      exact ⟨wd, ⟨find?_watches_move.mpr ⟨p, hwatch, hne, rfl⟩, hentry⟩, hspared wd hkept⟩
    · rw [Lib.renamed_of_not_within hsrc] at hin ⊢
      obtain ⟨wd, ⟨hwatch, hentry⟩, hkept⟩ := h.covered p hp hin
      exact ⟨wd, ⟨find?_watches_move.mpr ⟨p, hwatch, hne, Lib.renamed_of_not_within hsrc⟩, hentry⟩,
        hspared wd hkept⟩

theorem Stable.handle (h : Stable roots s) (now : Nat) (fresh : Int) :
    Stable roots (s.step (.handle now fresh)) where
  admitted := (fades_handle h.admitted now fresh).admitted
  exist wd p hp := by
    have hfades := fades_handle h.admitted now fresh
    rw [hfades.dirs]
    exact h.exist wd p (hfades.watches wd p hp)
  covered p hp hin := by
    rw [(fades_handle h.admitted now fresh).dirs] at hp
    obtain ⟨wd, ⟨hwatch, hentry⟩, hspared⟩ := h.covered p hp hin
    refine ⟨wd, ?_⟩
    cases hq : s.queue with
    | nil =>
      rw [step_handle_nil hq]
      exact ⟨⟨hwatch, hentry⟩, hspared⟩
    | cons e rest =>
      have hmem : e ∈ s.queue := by rw [hq]; exact List.mem_cons_self
      have hrest : ∀ x ∈ rest, deletes x = true → x.wd ≠ wd := fun x hx =>
        hspared x (by rw [hq]; exact List.mem_cons_of_mem _ hx)
      cases hd : deletes e with
      | true =>
        obtain ⟨-, hwatches, hentries, hqueue⟩ := step_handle_deletes hq hd now fresh
        have hne : wd ≠ e.wd := (hspared e hmem hd).symm
        refine ⟨⟨?_, ?_⟩, fun x hx hdx => ?_⟩
        · rw [hwatches, if_neg hne, hwatch]
        · rw [hentries, if_neg hne, hentry]
        · rcases hqueue with hqueue | hqueue
          · exact hrest x (hqueue ▸ hx) hdx
          · rcases List.mem_append.mp (hqueue ▸ hx) with hx | hx
            · exact hrest x hx hdx
            · rw [List.mem_singleton.mp hx]
              exact hne.symm
      | false =>
        obtain ⟨-, hwatches, hentries, hqueue⟩ := step_handle_other hq hd (h.admitted e hmem) now fresh
        refine ⟨⟨?_, ?_⟩, fun x hx hdx => hrest x (hqueue ▸ hx) hdx⟩
        · rw [hwatches, hwatch]
        · rw [hentries, Table.find?_insertNew]
          split
          · rename_i heq
            rw [← heq, hentry]
            rfl
          · exact hentry

theorem Stable.step (h : Stable roots s) (t : TreeStep) (ht : Admissible roots s t) :
    Stable roots (s.step t) := by
  cases t with
  | mkdir dir name =>
    rw [step_mkdir]
    split
    · rename_i hmay
      rw [post_create]
      exact h.mkdir (ht hmay)
    · exact h
  | rmdir dir name =>
    rw [step_rmdir]
    split
    · rename_i hmay
      exact h.rmdir (ht hmay)
    · exact h
  | rename dir name dir' name' cookie =>
    rw [step_rename]
    split
    · rename_i hmay
      exact ((h.move (ht hmay)).post (by decide +kernel)).post (by decide +kernel)
    · exact h
  | touch dir mask cookie name =>
    rw [step_touch]
    split
    · exact h
    · rename_i hquiet
      exact h.post (Bool.not_eq_true _ ▸ hquiet)
  | handle now fresh => exact h.handle now fresh

theorem stable_handles (h : Stable roots s) (answers : List (Nat × Int)) :
    Stable roots (machine.run s (handles answers)) := by
  induction answers generalizing s with
  | nil => exact h
  | cons a answers ih => exact ih (h.handle a.1 a.2)

theorem Stable.endsCovered (h : Stable roots s) : EndsCovered roots s := by
  intro answers _ p hp hin
  obtain ⟨wd, hknows, -⟩ := (stable_handles h answers).covered p hp hin
  exact ⟨wd, hknows⟩

/-! ## Runs that do not -/

/-- A folder that is watched and known in the end was watched and known before, and no deletion was waiting
for it. -/
theorem EndsCovered.knows (h : EndsCovered roots s) (hs : s.Admitted) {p : Path} (hp : p ∈ s.dirs)
    (hin : InTree roots p) : ∃ wd, s.watches.find? wd = some p ∧ s.Spared wd ∧
      (p ≠ [] → s.watcher.watchedDirs.find? wd = some p) := by
  obtain ⟨answers, hend⟩ := exists_handles hs
  have hfades := fades_handles hs answers
  obtain ⟨wd, hwatch, hentry⟩ := h answers hend p (hfades.dirs ▸ hp) hin
  refine ⟨wd, hfades.watches wd p hwatch, ?_, fun hne => hfades.entries wd p hne hentry⟩
  rintro e he hd rfl
  rcases hfades.pending e he hd with hwaits | hgone
  · rw [hend] at hwaits
    cases hwaits
  · rw [hwatch] at hgone
    cases hgone

/-- A folder that is made is not watched. -/
theorem Stable.admissible_mkdir (h : Stable roots s) {dir name : Path}
    (hends : EndsCovered roots (s.step (.mkdir dir name))) : Admissible roots s (.mkdir dir name) := by
  intro hmay hin
  rw [step_mkdir, if_pos hmay, post_create] at hends
  have hadmitted : { s with dirs := child '/' dir name :: s.dirs }.Admitted := h.admitted
  obtain ⟨wd, hwatch, -⟩ := hends.knows hadmitted List.mem_cons_self hin
  exact hmay.2 (h.exist wd _ hwatch)

/-- The folder in which one is deleted loses its watch. -/
theorem Stable.admissible_rmdir (h : Stable roots s) {dir name : Path}
    (hends : EndsCovered roots (s.step (.rmdir dir name))) : Admissible roots s (.rmdir dir name) := by
  intro hmay hin
  rw [step_rmdir, if_pos hmay] at hends
  have hadmitted :
      ((s.post dir (Inotify.delete ||| Inotify.isdir) 0 name).remove (child '/' dir name)).Admitted :=
    (h.admitted.post (by decide +kernel)).remove _
  have hdir :
      dir ∈ ((s.post dir (Inotify.delete ||| Inotify.isdir) 0 name).remove (child '/' dir name)).dirs := by
    refine List.mem_filter.mpr ⟨?_, decide_eq_true (Lib.child_ne dir name).symm⟩
    rw [dirs_post]
    exact hmay.1
  obtain ⟨wd, hwatch, hspared, -⟩ := hends.knows hadmitted hdir hin
  obtain ⟨hwatch, -⟩ := find?_watches_remove.mp hwatch
  rw [watches_post] at hwatch
  -- the deletion waits in the queue
  refine hspared ⟨wd, Inotify.delete ||| Inotify.isdir, 0, name⟩ ?_ ?_ rfl
  · exact queue_subset_remove (mem_queue_post.mpr (Or.inr ⟨by decide +kernel, hwatch, rfl⟩))
  · exact (by decide +kernel : (has (Inotify.delete ||| Inotify.isdir) Inotify.isdir &&
      has (Inotify.delete ||| Inotify.isdir) Inotify.delete) = true)

/-- A folder that gets a name in a tree was known by it. -/
theorem Stable.admissible_rename (h : Stable roots s) {dir name dir' name' : Path} {cookie : UInt32}
    (hends : EndsCovered roots (s.step (.rename dir name dir' name' cookie))) :
    Admissible roots s (.rename dir name dir' name' cookie) := by
  intro hmay p hp hsrc hin
  rw [step_rename, if_pos hmay] at hends
  obtain ⟨-, -, -, hinto, hempty⟩ := hmay
  have hne : p ≠ child '/' dir' name' := by
    rintro rfl
    exact hinto hsrc
  have hfree : ∀ q ∈ s.dirs, q ≠ child '/' dir' name' → ¬ Within '/' (child '/' dir' name') q :=
    fun q hq hqne hwithin => hqne (hempty q hq hwithin)
  have hadmitted : (((s.move (child '/' dir name) (child '/' dir' name')).post
      dir (Inotify.movedFrom ||| Inotify.isdir) cookie name).post
        dir' (Inotify.movedTo ||| Inotify.isdir) cookie name').Admitted := by
    refine Admitted.post (Admitted.post ?_ (by decide +kernel)) (by decide +kernel)
    exact h.admitted.remove _
  obtain ⟨wd, hwatch, hspared, hentry⟩ := hends.knows hadmitted (by
    rw [dirs_post, dirs_post]
    exact mem_dirs_move.mpr ⟨p, hp, hne, rfl⟩) hin
  rw [watches_post, watches_post] at hwatch
  rw [watcher_post, watcher_post] at hentry
  obtain ⟨q, hq, hqne, hname⟩ := find?_watches_move.mp hwatch
  obtain rfl := Lib.renamed_inj (hfree q (h.exist wd q hq) hqne) (hfree p hp hne) hname
  refine ⟨wd, hq, fun e he hd => hspared e ?_ hd, hentry ?_⟩
  · exact mem_queue_post.mpr (Or.inl (mem_queue_post.mpr (Or.inl (queue_subset_remove he))))
  · exact Lib.ne_nil_of_within (Lib.child_ne_nil dir' name') (Lib.within_renamed hsrc)

theorem Stable.admissible (h : Stable roots s) (t : TreeStep) (hends : EndsCovered roots (s.step t)) :
    Admissible roots s t := by
  cases t with
  | mkdir dir name => exact h.admissible_mkdir hends
  | rmdir dir name => exact h.admissible_rmdir hends
  | rename dir name dir' name' cookie => exact h.admissible_rename hends
  | touch dir mask cookie name => trivial
  | handle now fresh => trivial

end WatchedTree

/-! ## The start -/

/-- The folders in what `readdir` returned, with the answers of `inotify_add_watch`. -/
def Listing.folders (name : Path) : Listing → List (Option Int × Path)
  | .null => []
  | .file _ _ rest => rest.folders name
  | .dir dirName _ wd entries rest =>
      if isDot dirName then rest.folders name
      else (wd, child '/' name dirName) :: entries.folders (child '/' name dirName) ++ rest.folders name
  | .other _ rest => rest.folders name

def Frame.folders : Frame → List (Option Int × Path)
  | .unopened name _ wd entries => (wd, name) :: entries.folders name
  | .opened name entries => entries.folders name

def Frame.name : Frame → Path
  | .unopened name _ _ _ => name
  | .opened name _ => name

/-- Enter a folder into the map. -/
def enter (dirs : Table Int Path) : Option Int × Path → Table Int Path
  | (some wd, name) => dirs.insert wd name
  | (none, _) => dirs

def enterAll (dirs : Table Int Path) (folders : List (Option Int × Path)) : Table Int Path :=
  folders.foldl enter dirs

/-- A descriptor that stands for one folder leads to its name. -/
theorem find?_enterAll {folders : List (Option Int × Path)} {wd : Int} {p : Path}
    (hone : ∀ f ∈ folders, f.1 = some wd → f.2 = p) (dirs : Table Int Path)
    (h : (some wd, p) ∈ folders ∨ dirs.find? wd = some p) : (enterAll dirs folders).find? wd = some p := by
  induction folders generalizing dirs with
  | nil => exact h.resolve_left (List.not_mem_nil)
  | cons f folders ih =>
    refine ih (fun g hg => hone g (List.mem_cons_of_mem _ hg)) _ ?_
    obtain ⟨wd', q⟩ := f
    rcases h with h | h
    · rcases List.mem_cons.mp h with heq | h
      · obtain ⟨rfl, rfl⟩ := Prod.mk.inj heq
        exact Or.inr (Table.find?_insert_self _ _ _)
      · exact Or.inl h
    · right
      cases wd' with
      | none => exact h
      | some wd' =>
        rw [enter, Table.find?_insert]
        split
        · rename_i heq
          rw [heq] at hone
          exact congrArg some (hone _ List.mem_cons_self rfl)
        · exact h

theorem mem_of_find?_enterAll {folders : List (Option Int × Path)} {wd : Int} {p : Path}
    {dirs : Table Int Path} (h : (enterAll dirs folders).find? wd = some p) :
    (some wd, p) ∈ folders ∨ dirs.find? wd = some p := by
  induction folders generalizing dirs with
  | nil => exact Or.inr h
  | cons f folders ih =>
    obtain ⟨wd', q⟩ := f
    rcases ih h with h | h
    · exact Or.inl (List.mem_cons_of_mem _ h)
    · cases wd' with
      | none => exact Or.inr h
      | some wd' =>
        rw [enter, Table.find?_insert] at h
        split at h
        · rename_i heq
          obtain rfl := Option.some.inj h
          exact Or.inl (heq ▸ List.mem_cons_self)
        · exact Or.inr h

namespace DaemonConfig

variable (cfg : DaemonConfig)

/-- A walk that gets to its end enters every folder. -/
theorem watchDirs_folders (dirs : Table Int Path) (stack : List Frame)
    (h : (cfg.watchDirs dirs stack).2 = .returned) :
    (cfg.watchDirs dirs stack).1 = enterAll dirs (stack.flatMap Frame.folders) := by
  fun_induction DaemonConfig.watchDirs cfg dirs stack with
  | case1 => rfl
  | case2 | case3 => cases h
  | case4 dirs name opens entries stack hopen wd ih => exact ih h
  | case5 dirs name stack ih => exact ih h
  | case6 dirs name fileName env rest stack hlisten ih => exact ih h
  | case7 dirs name fileName env rest stack hlisten => exact absurd h hlisten
  | case8 dirs name dirName opens wd entries rest stack hdot ih =>
    rw [ih h]
    simp only [List.flatMap_cons, Frame.folders, Listing.folders, hdot, if_true]
  | case9 dirs name dirName opens wd entries rest stack hdot ih =>
    rw [ih h]
    simp only [List.flatMap_cons, Frame.folders, Listing.folders, hdot, Bool.false_eq_true, if_false,
      List.cons_append, List.append_assoc]
    rfl
  | case10 dirs name otherName rest stack ih => exact ih h

theorem watchFolders_folders (dirs : Table Int Path) (folders : List Frame)
    (h : (cfg.watchFolders dirs folders).2 = .returned) :
    (cfg.watchFolders dirs folders).1 = enterAll dirs (folders.flatMap Frame.folders) := by
  induction folders generalizing dirs with
  | nil => rfl
  | cons folder folders ih =>
    have hwalk := cfg.watchDirs_folders dirs [folder]
    rw [watchFolders] at h ⊢
    cases hdirs : cfg.watchDirs dirs [folder] with
    | mk dirs' ending =>
      rw [hdirs] at h hwalk
      cases ending with
      | returned =>
        have hfirst : dirs' = enterAll dirs (List.flatMap Frame.folders [folder]) := hwalk rfl
        rw [ih dirs' h, hfirst, List.flatMap_singleton, List.flatMap_cons, enterAll, enterAll, enterAll,
          List.foldl_append]
      | threw x => cases h
      | terminated => cases h

/-- A walk that gets to its end has watched every folder. -/
theorem isSome_of_harmlessListing {name : Path} {entries : Listing} (h : cfg.HarmlessListing name entries) :
    ∀ f ∈ entries.folders name, f.1.isSome = true := by
  induction entries generalizing name with
  | null =>
    intro f hf
    cases hf
  | file fileName env rest ih => exact ih h.2
  | dir dirName opens wd entries rest ihentries ihrest =>
    intro f hf
    rw [Listing.folders] at hf
    split at hf
    · exact ihrest h.2 f hf
    · rename_i hdot
      obtain ⟨-, hwd, hentries⟩ := h.1.resolve_left hdot
      rcases List.mem_append.mp hf with hf | hf
      · rcases List.mem_cons.mp hf with rfl | hf
        · exact hwd
        · exact ihentries hentries f hf
      · exact ihrest h.2 f hf
  | other otherName rest ih => exact ih h

theorem isSome_of_returned {dirs : Table Int Path} {folders : List Frame}
    (h : (cfg.watchFolders dirs folders).2 = .returned) :
    ∀ f ∈ folders.flatMap Frame.folders, f.1.isSome = true := by
  intro f hf
  obtain ⟨frame, hframe, hf⟩ := List.mem_flatMap.mp hf
  have hharmless := (cfg.watchFolders_returned_iff dirs folders).mp h frame hframe
  cases frame with
  | unopened name opens wd entries =>
    rcases List.mem_cons.mp hf with rfl | hf
    · exact hharmless.2.1
    · exact cfg.isSome_of_harmlessListing hharmless.2.2 f hf
  | opened name entries => exact cfg.isSome_of_harmlessListing hharmless f hf

end DaemonConfig

namespace WatchedTree

/-- After the constructor: the kernel watches what the watcher entered; the folders are those that were
found, and those that are in none of the trees. -/
def started (folders : List Frame) (table : Table Int Path) (outside : List Path) : WatchedTree where
  dirs := (folders.flatMap Frame.folders).map Prod.snd ++ outside
  watches := table
  queue := []
  watcher := { FileSystemWatcher.init with watchedDirs := table }

variable {cfg : DaemonConfig} {folders : List Frame} {table : Table Int Path} {outside : List Path}

theorem stable_started (hwalk : cfg.watchFolders .empty folders = (table, .returned))
    (hkernel : ∀ f ∈ folders.flatMap Frame.folders, ∀ g ∈ folders.flatMap Frame.folders,
      f.1 = g.1 → f.2 = g.2)
    (houtside : ∀ p ∈ outside, ¬ InTree (folders.map Frame.name) p) :
    Stable (folders.map Frame.name) (started folders table outside) := by
  have hreturned : (cfg.watchFolders .empty folders).2 = .returned := by rw [hwalk]
  have htable : table = enterAll .empty (folders.flatMap Frame.folders) := by
    rw [← cfg.watchFolders_folders _ _ hreturned, hwalk]
  have hempty : ∀ wd, (Table.empty : Table Int Path).find? wd = none := fun _ => rfl
  refine ⟨fun e he => (by cases he), fun wd p hp => ?_, fun p hp hin => ?_⟩
  · have hp : table.find? wd = some p := hp
    rw [htable] at hp
    rcases mem_of_find?_enterAll hp with hmem | hnone
    · exact List.mem_append.mpr (Or.inl (List.mem_map.mpr ⟨_, hmem, rfl⟩))
    · rw [hempty] at hnone
      cases hnone
  · rcases List.mem_append.mp hp with hp | hp
    · obtain ⟨⟨wd, q⟩, hmem, rfl⟩ := List.mem_map.mp hp
      obtain ⟨wd, rfl⟩ := Option.isSome_iff_exists.mp (cfg.isSome_of_returned hreturned _ hmem)
      have hentry : table.find? wd = some q := by
        rw [htable]
        exact find?_enterAll (fun f hf hwd => hkernel f hf _ hmem hwd) _ (Or.inl hmem)
      exact ⟨wd, ⟨hentry, hentry⟩, fun e he => (by cases he)⟩
    · exact absurd hin (houtside p hp)

/-- From the start on, every folder of the trees is watched and known whenever the events are handled,
exactly if the run makes, deletes and renames none of them, and moves none in that was not known. -/
theorem new_folders_covered_iff (hwalk : cfg.watchFolders .empty folders = (table, .returned))
    (hkernel : ∀ f ∈ folders.flatMap Frame.folders, ∀ g ∈ folders.flatMap Frame.folders,
      f.1 = g.1 → f.2 = g.2)
    (houtside : ∀ p ∈ outside, ¬ InTree (folders.map Frame.name) p) (steps : List TreeStep) :
    (∀ past, past <+: steps →
      EndsCovered (folders.map Frame.name) (machine.run (started folders table outside) past)) ↔
        machine.Along (Admissible (folders.map Frame.name)) (started folders table outside) steps :=
  machine.always_iff (fun _ h => h.endsCovered) (fun _ t h ht => h.step t ht)
    (fun _ t h hends => h.admissible t hends) (stable_started hwalk hkernel houtside) steps

/-- A folder with one in it, as `readdir` finds them. -/
def twoFound : List Frame := [.unopened "/m".toList true (some 1) (.dir "a".toList true (some 2) .null .null)]

theorem twoFound_watched : gCfg.watchFolders .empty twoFound = (twoFolders.watches, .returned) := by
  have hreturned : (gCfg.watchFolders .empty twoFound).2 = .returned := by
    rw [gCfg.watchFolders_returned_iff]
    intro f hf
    obtain rfl := List.mem_singleton.mp hf
    exact ⟨rfl, rfl, Or.inr ⟨rfl, rfl, trivial⟩, trivial⟩
  refine Prod.ext ?_ hreturned
  rw [gCfg.watchFolders_folders _ _ hreturned]
  rfl

/-- The inner folder is moved away and comes back. -/
def awayAndBack : List TreeStep :=
  [.rename "/m".toList "a".toList "/x".toList "b".toList 7, .handle 0 3,
    .rename "/x".toList "b".toList "/m".toList "a".toList 8]

theorem new_folders_covered_iff_back : EndsCovered (twoFound.map Frame.name)
    (machine.run (started twoFound twoFolders.watches ["/x".toList]) awayAndBack) := by
  have halong : machine.Along (Admissible (twoFound.map Frame.name))
      (started twoFound twoFolders.watches ["/x".toList]) awayAndBack := by
    refine ⟨fun _ p hp hsrc hin => absurd hin ?_, trivial, fun _ p hp hsrc hin => ⟨2, ?_⟩, trivial⟩
    all_goals
      revert p
      decide +kernel
  exact (new_folders_covered_iff twoFound_watched (by decide) (by decide +kernel) awayAndBack).mpr halong
    awayAndBack List.prefix_rfl

/-- A folder is made in a watched one, nobody is told, and no watch is ever put on it. -/
theorem new_folder_not_watched :
    (machine.run (started twoFound twoFolders.watches []) [.mkdir "/m".toList "new".toList]).queue = [] ∧
      "/m/new".toList ∈
        (machine.run (started twoFound twoFolders.watches []) [.mkdir "/m".toList "new".toList]).dirs ∧
      (∀ wd, (machine.run (started twoFound twoFolders.watches [])
        [.mkdir "/m".toList "new".toList]).watches.find? wd ≠ some "/m/new".toList) ∧
      ¬ EndsCovered (twoFound.map Frame.name)
        (machine.run (started twoFound twoFolders.watches []) [.mkdir "/m".toList "new".toList]) := by
  have hunwatched : ∀ wd, (machine.run (started twoFound twoFolders.watches [])
      [.mkdir "/m".toList "new".toList]).watches.find? wd ≠ some "/m/new".toList := by
    intro wd hwd
    have hrow := (Table.find?_eq_some _).mp hwd
    have hnone : ∀ r ∈ (machine.run (started twoFound twoFolders.watches [])
        [.mkdir "/m".toList "new".toList]).watches.rows, r.2 ≠ "/m/new".toList := by
      decide +kernel
    exact hnone _ hrow rfl
  refine ⟨by decide +kernel, by decide +kernel, hunwatched, fun hends => ?_⟩
  obtain ⟨wd, hwatch, -⟩ := hends [] (by decide +kernel) "/m/new".toList (by decide +kernel)
    (by decide +kernel)
  exact hunwatched wd hwatch

end WatchedTree

end MediaArchiver
