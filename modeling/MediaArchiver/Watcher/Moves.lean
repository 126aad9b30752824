/-
# MediaArchiver.Watcher.Moves -- which moves of files are reported

The kernel reports a move inside of the watched folders as two events with one cookie, and a move into or
out of them as one. The watcher cannot tell at once which it is, so it keeps the first half until the other
one comes, or until an event arrives more than `MoveTimeout` later; then the half is reported by itself.
There is one slot only: a half that arrives while another one is kept is logged as invalid, and lost.

So every file that is moved in is reported once, with its source where there is one, exactly if each of
them finds the slot free, or its own other half in it (`reported_iff`). A half that was lost counts too: the
move that it belongs to would be reported without its source.
-/
import Mathlib.Data.List.Pairwise
import MediaArchiver.Watcher.Watcher

namespace MediaArchiver

open Lib (Machine AlongPast Table)

namespace FileSystemWatcher

/-! ## Events and reports -/

/-- The event is half of a move. -/
def moves (a : Arrival) : Bool := has a.event.mask Inotify.move

/-- A file left its place. -/
def movesOut (a : Arrival) : Bool := has a.event.mask Inotify.movedFrom

/-- A file came to its place. -/
def movesIn (a : Arrival) : Bool := has a.event.mask Inotify.movedTo

/-- The second event is where the file of the first one came from, and they are not too far apart. -/
def halfOf (a b : Arrival) : Bool :=
  movesOut b && b.event.cookie = a.event.cookie
    && (a.now ≤ b.now + moveTimeout && b.now ≤ a.now + moveTimeout)

/-- The full name of what an event is about. -/
def pathOf (w₀ : FileSystemWatcher) (a : Arrival) : Path := w₀.path a.event.wd a.event.name

/-- Where the file of an event came from, or nothing. -/
def sourceFor (w₀ : FileSystemWatcher) (past : List Arrival) (a : Arrival) : Path :=
  match past.find? (halfOf a) with
  | some b => pathOf w₀ b
  | none => []

/-- What is to be reported of the files that were moved in. -/
def expected (w₀ : FileSystemWatcher) (past : List Arrival) : List (Path × Path) :=
  (past.filter movesIn).map fun a => (sourceFor w₀ past a, pathOf w₀ a)

/-- The reports of a run. -/
def reported : FileSystemWatcher → List Arrival → List Report
  | _, [] => []
  | w, a :: as => (w.handle a).reports ++ reported (w.handle a).watcher as

/-- The reports of moves that have a destination. -/
def moved (reports : List Report) : List (Path × Path) :=
  reports.filterMap fun r => if r.event = .fileMoved ∧ r.dst ≠ [] then some (r.src, r.dst) else none

/-- Events of files as the kernel delivers them: one kind each, one cookie for the two halves of a move and
for nothing else. -/
structure Disciplined (arrivals : List Arrival) : Prop where
  files : ∀ a ∈ arrivals, has a.event.mask Inotify.isdir = false
  single : ∀ a ∈ arrivals, moves a = true →
    has a.event.mask Inotify.closeWrite = false ∧ has a.event.mask Inotify.delete = false
      ∧ movesIn a = !movesOut a
  cookies : ∀ a ∈ arrivals, moves a = true → a.event.cookie ≠ 0
  halves : arrivals.Pairwise fun a b => moves a = true → moves b = true →
    a.event.cookie = b.event.cookie → movesOut a ≠ movesOut b
  times : arrivals.Pairwise fun a b => a.now ≤ b.now

/-- An event of a file that is not moved. -/
def Quiet (a : Arrival) : Prop := has a.event.mask Inotify.isdir = false ∧ moves a = false

/-- What was moved in is reported in order; all of it that is older than `MoveTimeout` was; and as soon as
something happens later than that, everything is. -/
structure Reported (w₀ : FileSystemWatcher) (past : List Arrival) : Prop where
  inOrder : moved (reported w₀ past) <+: expected w₀ past
  onTime : (past.filter fun a => movesIn a && past.any fun b => a.now + moveTimeout < b.now).length
    ≤ (moved (reported w₀ past)).length
  all : ∀ q, Quiet q → (∀ a ∈ past, a.now + moveTimeout < q.now) →
    moved (reported w₀ (past ++ [q])) = expected w₀ past

/-- A file that is moved in finds its other half in the slot, and that not too old to be kept; or it finds the
slot free or about to be, and there was no other half lately. -/
def FindsSlot (w₀ : FileSystemWatcher) (past : List Arrival) (a : Arrival) : Prop :=
  movesIn a = true →
    ((machine.run w₀ past).cookie = a.event.cookie ∧ (machine.run w₀ past).movePending a.now = false) ∨
      (((machine.run w₀ past).cookie = 0 ∨ (machine.run w₀ past).movePending a.now = true) ∧
        ∀ b ∈ past, halfOf a b = false)

variable {w₀ w : FileSystemWatcher} {past : List Arrival} {a : Arrival}

theorem reported_append (w : FileSystemWatcher) (as bs : List Arrival) :
    reported w (as ++ bs) = reported w as ++ reported (machine.run w as) bs := by
  induction as generalizing w with
  | nil => rfl
  | cons a as ih =>
    rw [List.cons_append, reported, reported, ih, List.append_assoc]
    rfl

theorem moved_append (rs ss : List Report) : moved (rs ++ ss) = moved rs ++ moved ss :=
  List.filterMap_append

theorem path_ne_nil (w : FileSystemWatcher) (wd : Int) (name : Path) : w.path wd name ≠ [] :=
  List.append_ne_nil_of_right_ne_nil _ (List.cons_ne_nil _ _)

/-- An entry that was made by the subscript operator names nothing, as none does. -/
theorem path_subscript (w : FileSystemWatcher) (wd : Int) : (w.subscript wd).path = w.path := by
  funext wd' name
  unfold path subscript
  simp only [Table.find?_insertNew]
  split
  · rename_i h
    rw [h]
    cases w.watchedDirs.find? wd <;> rfl
  · rfl

theorem path_congr {w w' : FileSystemWatcher} (h : w.watchedDirs = w'.watchedDirs) : w.path = w'.path := by
  unfold path
  rw [h]

theorem reports_flush_subscript (w : FileSystemWatcher) (wd : Int) (now : Nat) :
    ((w.subscript wd).flush now).2 = (w.flush now).2 := by
  unfold flush
  show (if w.movePending now = true then _ else _ : FileSystemWatcher × List Report).2 = _
  split <;> rfl

theorem cookie_flush_subscript (w : FileSystemWatcher) (wd : Int) (now : Nat) :
    ((w.subscript wd).flush now).1.cookie = (w.flush now).1.cookie := by
  unfold flush
  show (if w.movePending now = true then _ else _ : FileSystemWatcher × List Report).1.cookie = _
  split <;> rfl

theorem cookie_flush (w : FileSystemWatcher) (now : Nat) :
    (w.flush now).1.cookie = if w.movePending now then 0 else w.cookie := by
  unfold flush
  split <;> rfl

/-- What a file finds in the slot, once the clock was looked at. -/
theorem findsSlot_iff (hcookie : movesIn a = true → a.event.cookie ≠ 0) :
    FindsSlot w₀ past a ↔ (movesIn a = true →
      ((machine.run w₀ past).flush a.now).1.cookie = a.event.cookie ∨
        (((machine.run w₀ past).flush a.now).1.cookie = 0 ∧ ∀ b ∈ past, halfOf a b = false)) := by
  unfold FindsSlot
  rw [cookie_flush]
  refine forall_congr' fun hin => ?_
  cases hpending : (machine.run w₀ past).movePending a.now with
  | true =>
    have hne : (0 : UInt32) ≠ a.event.cookie := (hcookie hin).symm
    simp [hne]
  | false => simp

theorem moves_eq (a : Arrival) : moves a = (movesOut a || movesIn a) := has_or _ _ _

/-- An event that is no half of a move has the watcher look at the clock. -/
theorem handle_quiet (h : Quiet a) :
    (w.handle a).watcher = ((w.subscript a.event.wd).flush a.now).1 ∧
      moved (w.handle a).reports = moved (w.flush a.now).2 := by
  have hmove : has a.event.mask Inotify.move = false := h.2
  have hflush := reports_flush_subscript w a.event.wd a.now
  unfold handle handleInotifyEvent
  simp only [h.1, Bool.false_eq_true, if_false, handleFile, hmove, Bool.false_and, hflush]
  split
  · exact ⟨rfl, by rw [moved_append]; exact List.append_nil _⟩
  split
  · exact ⟨rfl, by rw [moved_append]; exact List.append_nil _⟩
  · exact ⟨rfl, rfl⟩

/-- Half of a move. -/
theorem handle_half (hfile : has a.event.mask Inotify.isdir = false) (hmove : moves a = true)
    (hwrite : has a.event.mask Inotify.closeWrite = false)
    (hdelete : has a.event.mask Inotify.delete = false) (hcookie : a.event.cookie ≠ 0) :
    (w.handle a).watcher = (((w.subscript a.event.wd).flush a.now).1.handleMove a.now a.event
        (w.path a.event.wd a.event.name)).1 ∧
      (w.handle a).reports = (w.flush a.now).2 ++ (((w.subscript a.event.wd).flush a.now).1.handleMove
        a.now a.event (w.path a.event.wd a.event.name)).2 := by
  have hmask : has a.event.mask Inotify.move = true := hmove
  have hflush := reports_flush_subscript w a.event.wd a.now
  have hne : (a.event.cookie != 0) = true := bne_iff_ne.mpr hcookie
  unfold handle handleInotifyEvent
  simp only [hfile, hwrite, hdelete, hmask, hne, Bool.false_eq_true, if_false, handleFile,
    Bool.and_self, if_true, hflush, true_and]

/-- Half of a move that does not find the slot as it should. -/
theorem handleMove_dropped (now : Nat) (e : InotifyEvent) (fileName : Path) (hheld : w.cookie ≠ 0)
    (hother : e.cookie ≠ w.cookie) : w.handleMove now e fileName = (w, []) := by
  rw [handleMove, if_neg hheld, if_neg hother]

/-! ## The slot -/

/-- What the slot holds. -/
def Keeps (w₀ w : FileSystemWatcher) : Option Arrival → Prop
  | none => w.cookie = 0
  | some a => w.cookie = a.event.cookie ∧ a.event.cookie ≠ 0 ∧ w.moveName = pathOf w₀ a
      ∧ w.moveStart = a.now ∧ w.moveFrom = movesOut a

/-- The watcher has followed some events until now: it reported what was moved in by the events `done`, and
it keeps the half of a move in `slot`. -/
structure Following (w₀ : FileSystemWatcher) (past : List Arrival) (now : Nat) (w : FileSystemWatcher)
    (out : List (Path × Path)) (slot : Option Arrival) (done : List Arrival) : Prop where
  paths : w.path = w₀.path
  times : ∀ b ∈ past, b.now ≤ now
  keeps : Keeps w₀ w slot
  fresh : ∀ a, slot = some a → a ∈ past ∧ now ≤ a.now + moveTimeout ∧ movesIn a = !movesOut a
    ∧ (movesOut a = false → ∀ b ∈ past, halfOf a b = false)
  ins : past.filter movesIn = done ++ slot.toList.filter movesIn
  out : out = done.map fun a => (sourceFor w₀ past a, pathOf w₀ a)
  known : ∀ x ∈ done, (∃ b ∈ past, movesOut b = true ∧ b.event.cookie = x.event.cookie) ∨
    x.now + moveTimeout < now

/-- A half whose other half was not seen has no source. -/
theorem sourceFor_eq_nil (h : ∀ b ∈ past, halfOf a b = false) : sourceFor w₀ past a = [] := by
  have hnone : past.find? (halfOf a) = none := by
    rw [List.find?_eq_none]
    intro b hb
    rw [h b hb]
    exact Bool.false_ne_true
  rw [sourceFor, hnone]

theorem sourceFor_ne_nil {b : Arrival} (hb : b ∈ past) (h : halfOf a b = true) : sourceFor w₀ past a ≠ [] := by
  rw [sourceFor]
  cases hfind : past.find? (halfOf a) with
  | none => exact absurd h (List.find?_eq_none.mp hfind b hb)
  | some c => exact path_ne_nil w₀ _ _

/-- A file that was kept for too long is reported without a source. -/
theorem moved_flush (now : Nat) (hkept : w.cookie ≠ 0) (hold : w.moveStart + moveTimeout < now)
    (hin : w.moveFrom = false) (hname : w.moveName ≠ []) : moved (w.flush now).2 = [([], w.moveName)] := by
  have hpending : w.movePending now = true := by
    rw [movePending, decide_eq_true (UInt32.pos_iff_ne_zero.mpr hkept), decide_eq_true hold]
    rfl
  rw [flush, if_pos hpending]
  simp [moved, hin, hname]

theorem sourceFor_append {e : Arrival} (h : halfOf a e = false) :
    sourceFor w₀ (past ++ [e]) a = sourceFor w₀ past a := by
  have hnone : [e].find? (halfOf a) = none := by simp [h]
  rw [sourceFor, List.find?_append, hnone, Option.or_none]
  rfl

variable {now : Nat} {out : List (Path × Path)} {slot : Option Arrival} {done : List Arrival}

/-- Time passes, and half of a move may have to be reported by itself. -/
theorem Following.flush (h : Following w₀ past now w out slot done) {later : Nat} (hnow : now ≤ later) :
    ∃ slot' done', Following w₀ past later (w.flush later).1 (out ++ moved (w.flush later).2) slot'
      done' := by
  have htimes : ∀ b ∈ past, b.now ≤ later := fun b hb => Nat.le_trans (h.times b hb) hnow
  have hlater : ∀ x ∈ done, (∃ b ∈ past, movesOut b = true ∧ b.event.cookie = x.event.cookie) ∨
      x.now + moveTimeout < later := by
    intro x hx
    rcases h.known x hx with hpair | hold
    · exact Or.inl hpair
    · exact Or.inr (Nat.lt_of_lt_of_le hold hnow)
  have hpaths := (path_congr (watchedDirs_flush w later)).trans h.paths
  cases slot with
  | none =>
    have hkeeps : w.cookie = 0 := h.keeps
    have hsame : w.flush later = (w, []) := by
      unfold FileSystemWatcher.flush movePending
      rw [hkeeps]
      rfl
    rw [hsame] at hpaths ⊢
    exact ⟨none, done, hpaths, htimes, h.keeps, fun _ ha => (by cases ha), h.ins,
      (List.append_nil out).trans h.out, hlater⟩
  | some a =>
    obtain ⟨hcookie, hne, hname, hstart, hfrom⟩ := h.keeps
    obtain ⟨hmem, -, hkind, halone⟩ := h.fresh a rfl
    have hpos : decide (0 < w.cookie) = true := by
      rw [hcookie]
      exact decide_eq_true (UInt32.pos_iff_ne_zero.mpr hne)
    by_cases hold : a.now + moveTimeout < later
    · -- the half is reported by itself
      have hflush : w.flush later = ({ w with cookie := 0 },
          [⟨.fileMoved, if w.moveFrom then w.moveName else [],
            if w.moveFrom then [] else w.moveName⟩]) := by
        unfold FileSystemWatcher.flush movePending
        rw [hpos, hstart, decide_eq_true hold]
        rfl
      rw [hflush] at hpaths ⊢
      cases hout : movesOut a with
      | true =>
        have hin : movesIn a = false := by rw [hkind, hout]; rfl
        refine ⟨none, done, hpaths, htimes, rfl, fun _ ha => (by cases ha), ?_, ?_, hlater⟩
        · rw [h.ins]
          simp [hin]
        · rw [h.out]
          simp [moved, hfrom, hout]
      | false =>
        have hin : movesIn a = true := by rw [hkind, hout]; rfl
        refine ⟨none, done ++ [a], hpaths, htimes, rfl, fun _ ha => (by cases ha), ?_, ?_, ?_⟩
        · rw [h.ins]
          simp [hin]
        · rw [h.out, List.map_append, List.map_singleton, sourceFor_eq_nil (halone hout)]
          have hnamed : pathOf w₀ a ≠ [] := path_ne_nil w₀ _ _
          simp [moved, hfrom, hout, hname, hnamed]
        · intro x hx
          rcases List.mem_append.mp hx with hx | hx
          · exact hlater x hx
          · obtain rfl := List.mem_singleton.mp hx
            exact Or.inr hold
    · have hsame : w.flush later = (w, []) := by
        unfold FileSystemWatcher.flush movePending
        rw [hstart, decide_eq_false hold, Bool.and_false]
        rfl
      rw [hsame] at hpaths ⊢
      refine ⟨some a, done, hpaths, htimes, h.keeps, ?_, h.ins, (List.append_nil out).trans h.out, hlater⟩
      rintro b hb
      obtain rfl := Option.some.inj hb
      exact ⟨hmem, Nat.le_of_not_lt hold, hkind, halone⟩

/-- When everything is older than the timeout, nothing is kept. -/
theorem Following.all_out (h : Following w₀ past now w out slot done)
    (hold : ∀ a ∈ past, a.now + moveTimeout < now) : out = expected w₀ past := by
  cases slot with
  | none =>
    have hins := h.ins
    simp only [Option.toList_none, List.filter_nil, List.append_nil] at hins
    rw [h.out, expected, hins]
  | some a =>
    obtain ⟨hmem, hfresh, -⟩ := h.fresh a rfl
    exact absurd hfresh (Nat.not_le_of_lt (hold a hmem))

/-- What is reported is a beginning of what has to be, and lacks nothing that is old. -/
theorem Following.out_begins (h : Following w₀ past now w out slot done) :
    out <+: expected w₀ past ∧
      (past.filter fun a => movesIn a && past.any fun b => a.now + moveTimeout < b.now).length
        ≤ out.length := by
  constructor
  · rw [h.out, expected, h.ins, List.map_append]
    exact List.prefix_append ..
  · have hsplit : (past.filter fun a => movesIn a && past.any fun b => a.now + moveTimeout < b.now)
        = (past.filter movesIn).filter fun a => past.any fun b => a.now + moveTimeout < b.now := by
      rw [List.filter_filter]
      exact List.filter_congr fun a _ => Bool.and_comm _ _
    have hslot : (slot.toList.filter movesIn).filter
        (fun a => past.any fun b => a.now + moveTimeout < b.now) = [] := by
      rw [List.filter_eq_nil_iff]
      intro a ha
      obtain ⟨-, hfresh, -⟩ := h.fresh a (by simpa using (List.mem_filter.mp ha).1)
      simp only [List.any_eq_true, decide_eq_true_eq, not_exists, not_and, Nat.not_lt]
      intro b hb
      exact Nat.le_trans (h.times b hb) hfresh
    rw [hsplit, h.ins, List.filter_append, hslot, List.append_nil, h.out, List.length_map]
    exact List.length_filter_le ..

/-! ## One more event -/

theorem halfOf_iff {a b : Arrival} : halfOf a b = true ↔ movesOut b = true ∧ b.event.cookie = a.event.cookie
    ∧ a.now ≤ b.now + moveTimeout ∧ b.now ≤ a.now + moveTimeout := by
  simp only [halfOf, Bool.and_eq_true, decide_eq_true_eq, and_assoc]

theorem Disciplined.of_begins {arrivals : List Arrival} (h : Disciplined arrivals) {past : List Arrival}
    (hp : past <+: arrivals) : Disciplined past where
  files a ha := h.files a (hp.subset ha)
  single a ha := h.single a (hp.subset ha)
  cookies a ha := h.cookies a (hp.subset ha)
  halves := h.halves.sublist hp.sublist
  times := h.times.sublist hp.sublist

theorem Disciplined.now_le {e : Arrival} (h : Disciplined (past ++ [e])) : ∀ b ∈ past, b.now ≤ e.now :=
  fun b hb => (List.pairwise_append.mp h.times).2.2 b hb e (List.mem_singleton.mpr rfl)

/-- Two halves that left their place under one cookie are one. -/
theorem Disciplined.eq_of_out (h : Disciplined past) {a b : Arrival} (ha : a ∈ past) (hb : b ∈ past)
    (houta : movesOut a = true) (houtb : movesOut b = true)
    (hcookie : a.event.cookie = b.event.cookie) : a = b := by
  by_contra hne
  have hmove : ∀ c : Arrival, movesOut c = true → moves c = true := fun c hc => by
    rw [moves_eq, hc, Bool.true_or]
  have hsymm : Std.Symm fun a b : Arrival => moves a = true → moves b = true →
      a.event.cookie = b.event.cookie → movesOut a ≠ movesOut b :=
    ⟨fun a b hab hb ha hc => (hab ha hb hc.symm).symm⟩
  have hpair := h.halves.forall ha hb hne (hmove a houta) (hmove b houtb) hcookie
  exact hpair (houta.trans houtb.symm)

theorem Following.subscript (h : Following w₀ past now w out slot done) (wd : Int) :
    Following w₀ past now (w.subscript wd) out slot done where
  paths := (path_subscript w wd).trans h.paths
  times := h.times
  keeps := h.keeps
  fresh := h.fresh
  ins := h.ins
  out := h.out
  known := h.known

variable {e : Arrival}

/-- A file that was served is not the other half of an event that comes now. -/
theorem Following.halfOf_done (h : Following w₀ past e.now w out slot done) (hd : Disciplined (past ++ [e]))
    {x : Arrival} (hx : x ∈ done) : halfOf x e = false := by
  by_contra hhalf
  obtain ⟨hout, hcookie, -, hnear⟩ := halfOf_iff.mp (Bool.not_eq_false _ ▸ hhalf)
  rcases h.known x hx with ⟨b, hb, hbout, hbcookie⟩ | hold
  · -- the event would be the third with its cookie
    have hmove : ∀ c : Arrival, movesOut c = true → moves c = true := fun c hc => by
      rw [moves_eq, hc, Bool.true_or]
    have hne := (List.pairwise_append.mp hd.halves).2.2 b hb e (List.mem_singleton.mpr rfl)
      (hmove b hbout) (hmove e hout) (hbcookie.trans hcookie.symm)
    exact hne (hbout.trans hout.symm)
  · omega

/-- What was reported stays what had to be reported. -/
theorem Following.out_append (h : Following w₀ past e.now w out slot done) (hd : Disciplined (past ++ [e])) :
    out = done.map fun a => (sourceFor w₀ (past ++ [e]) a, pathOf w₀ a) := by
  rw [h.out]
  refine List.map_congr_left fun x hx => ?_
  rw [sourceFor_append (h.halfOf_done hd hx)]

theorem Following.known_append (h : Following w₀ past e.now w out slot done) :
    ∀ x ∈ done, (∃ b ∈ past ++ [e], movesOut b = true ∧ b.event.cookie = x.event.cookie) ∨
      x.now + moveTimeout < e.now := by
  intro x hx
  rcases h.known x hx with ⟨b, hb, hpair⟩ | hold
  · exact Or.inl ⟨b, List.mem_append.mpr (Or.inl hb), hpair⟩
  · exact Or.inr hold

theorem Following.times_append (h : Following w₀ past e.now w out slot done) :
    ∀ b ∈ past ++ [e], b.now ≤ e.now := by
  intro b hb
  rcases List.mem_append.mp hb with hb | hb
  · exact h.times b hb
  · obtain rfl := List.mem_singleton.mp hb
    exact le_refl _

/-- The event leaves the slot alone. -/
theorem Following.append_same (h : Following w₀ past e.now w out slot done) (hd : Disciplined (past ++ [e]))
    (hin : movesIn e = false) (hother : ∀ a, slot = some a → halfOf a e = false) :
    Following w₀ (past ++ [e]) e.now w out slot done where
  paths := h.paths
  times := h.times_append
  keeps := h.keeps
  fresh := by
    intro a ha
    obtain ⟨hmem, hnow, hkind, halone⟩ := h.fresh a ha
    refine ⟨List.mem_append.mpr (Or.inl hmem), hnow, hkind, fun hout b hb => ?_⟩
    rcases List.mem_append.mp hb with hb | hb
    · exact halone hout b hb
    · obtain rfl := List.mem_singleton.mp hb
      exact hother a ha
  ins := by
    rw [List.filter_append, h.ins]
    simp [hin]
  out := h.out_append hd
  known := h.known_append

/-- Half of a move finds the slot free. -/
theorem Following.append_kept (h : Following w₀ past e.now w out none done)
    (hd : Disciplined (past ++ [e])) (hmove : moves e = true)
    (halone : movesIn e = true → ∀ b ∈ past, halfOf e b = false) :
    ∃ slot' done', Following w₀ (past ++ [e]) e.now (w.handleMove e.now e.event (pathOf w₀ e)).1
      (out ++ moved (w.handleMove e.now e.event (pathOf w₀ e)).2) slot' done' := by
  have hmem : e ∈ past ++ [e] := List.mem_append.mpr (Or.inr (List.mem_singleton.mpr rfl))
  have hkind := (hd.single e hmem hmove).2.2
  have hkeeps : w.cookie = 0 := h.keeps
  have hmoved : w.handleMove e.now e.event (pathOf w₀ e) = ({ w with
      cookie := e.event.cookie, moveName := pathOf w₀ e, moveFrom := movesOut e, moveStart := e.now }, []) :=
    if_pos hkeeps
  have hpath := (path_congr (watchedDirs_handleMove w e.now e.event (pathOf w₀ e))).trans h.paths
  rw [hmoved] at hpath ⊢
  refine ⟨some e, done, hpath, h.times_append, ⟨rfl, hd.cookies e hmem hmove, rfl, rfl, rfl⟩, ?_, ?_, ?_,
    h.known_append⟩
  · rintro a ha
    obtain rfl := Option.some.inj ha
    refine ⟨hmem, Nat.le_add_right _ _, hkind, fun hout b hb => ?_⟩
    rcases List.mem_append.mp hb with hb | hb
    · exact halone (by rw [hkind, hout]; rfl) b hb
    · obtain rfl := List.mem_singleton.mp hb
      simp [halfOf, hout]
  · have hins := h.ins
    simp only [Option.toList_none, List.filter_nil, List.append_nil] at hins
    rw [List.filter_append, hins]
    rfl
  · rw [← h.out_append hd]
    exact List.append_nil out

/-- A file that was moved in is served, and the slot is free. -/
theorem Following.append_served (h : Following w₀ past e.now w out slot done) (hd : Disciplined (past ++ [e]))
    {w' : FileSystemWatcher} {x : Arrival} (hpath : w'.path = w₀.path) (hfree : w'.cookie = 0)
    (hins : (past ++ [e]).filter movesIn = done ++ [x])
    (hpair : ∃ b ∈ past ++ [e], movesOut b = true ∧ b.event.cookie = x.event.cookie) :
    Following w₀ (past ++ [e]) e.now w' (out ++ [(sourceFor w₀ (past ++ [e]) x, pathOf w₀ x)]) none
      (done ++ [x]) where
  paths := hpath
  times := h.times_append
  keeps := hfree
  fresh _ ha := by cases ha
  ins := by
    rw [hins]
    exact (List.append_nil _).symm
  out := by
    rw [List.map_append, List.map_singleton, ← h.out_append hd]
  known y hy := by
    rcases List.mem_append.mp hy with hy | hy
    · exact h.known_append y hy
    · obtain rfl := List.mem_singleton.mp hy
      exact Or.inl hpair

/-- A file that waits for its other half has it as its source. -/
theorem sourceFor_waiting {s : Arrival} (halone : ∀ b ∈ past, halfOf s b = false) (hhalf : halfOf s e = true) :
    sourceFor w₀ (past ++ [e]) s = pathOf w₀ e := by
  have hnone : past.find? (halfOf s) = none := by
    rw [List.find?_eq_none]
    intro b hb
    rw [halone b hb]
    exact Bool.false_ne_true
  rw [sourceFor, List.find?_append, hnone]
  simp [hhalf]

/-- A file that comes after its other half has it as its source. -/
theorem sourceFor_arriving {s : Arrival} (hd : Disciplined past) (hs : s ∈ past) (hhalf : halfOf e s = true)
    (hself : halfOf e e = false) : sourceFor w₀ (past ++ [e]) e = pathOf w₀ s := by
  rw [sourceFor_append hself, sourceFor]
  cases hfind : past.find? (halfOf e) with
  | none => exact absurd hhalf (List.find?_eq_none.mp hfind s hs)
  | some b =>
    obtain ⟨hbout, hbcookie, -⟩ := halfOf_iff.mp (List.find?_some hfind)
    obtain ⟨hsout, hscookie, -⟩ := halfOf_iff.mp hhalf
    have hbs : b = s :=
      hd.eq_of_out (List.mem_of_find?_eq_some hfind) hs hbout hsout (hbcookie.trans hscookie.symm)
    rw [hbs]

/-- The two halves of a move meet. -/
theorem Following.append_paired {s : Arrival} (h : Following w₀ past e.now w out (some s) done)
    (hd : Disciplined (past ++ [e])) (hmove : moves e = true) (hcookie : e.event.cookie = s.event.cookie) :
    ∃ slot' done', Following w₀ (past ++ [e]) e.now (w.handleMove e.now e.event (pathOf w₀ e)).1
      (out ++ moved (w.handleMove e.now e.event (pathOf w₀ e)).2) slot' done' := by
  have hmem : e ∈ past ++ [e] := List.mem_append.mpr (Or.inr (List.mem_singleton.mpr rfl))
  have hkind := (hd.single e hmem hmove).2.2
  obtain ⟨hwcookie, hne, hname, hstart, hfrom⟩ := h.keeps
  obtain ⟨hsmem, hfresh, hskind, halone⟩ := h.fresh s rfl
  have hsmove : moves s = true := by
    rw [moves_eq, hskind]
    cases movesOut s <;> rfl
  have hopposite : movesOut s ≠ movesOut e := (List.pairwise_append.mp hd.halves).2.2 s hsmem e
    (List.mem_singleton.mpr rfl) hsmove hmove hcookie.symm
  have hmoved : w.handleMove e.now e.event (pathOf w₀ e) = ({ w with cookie := 0 },
      [⟨.fileMoved, if movesOut e then pathOf w₀ e else w.moveName,
        if movesOut e then w.moveName else pathOf w₀ e⟩]) := by
    unfold handleMove
    rw [if_neg (by rw [hwcookie]; exact hne), if_pos (hcookie.trans hwcookie.symm)]
    rfl
  have hpath := (path_congr (watchedDirs_handleMove w e.now e.event (pathOf w₀ e))).trans h.paths
  rw [hmoved] at hpath ⊢
  have hnamed : ∀ a, pathOf w₀ a ≠ [] := fun a => path_ne_nil w₀ _ _
  have hnear : s.now ≤ e.now + moveTimeout := Nat.le_trans (h.times s hsmem) (Nat.le_add_right _ _)
  cases hout : movesOut e with
  | true =>
    -- the file was waiting, and hears where it came from
    have hsout : movesOut s = false := by
      cases hs : movesOut s with
      | true => exact absurd (hs.trans hout.symm) hopposite
      | false => rfl
    have hsin : movesIn s = true := by rw [hskind, hsout]; rfl
    have hin : movesIn e = false := by rw [hkind, hout]; rfl
    have hins : (past ++ [e]).filter movesIn = done ++ [s] := by
      rw [List.filter_append, h.ins]
      simp [hin, hsin]
    have hnext := h.append_served hd (x := s) hpath rfl hins ⟨e, hmem, hout, hcookie⟩
    rw [sourceFor_waiting (halone hsout) (halfOf_iff.mpr ⟨hout, hcookie, hnear, hfresh⟩)] at hnext
    refine ⟨none, done ++ [s], ?_⟩
    simpa [moved, hname, hnamed] using hnext
  | false =>
    have hsout : movesOut s = true := by
      cases hs : movesOut s with
      | true => rfl
      | false => exact absurd (hs.trans hout.symm) hopposite
    have hsin : movesIn s = false := by rw [hskind, hsout]; rfl
    have hin : movesIn e = true := by rw [hkind, hout]; rfl
    have hins : (past ++ [e]).filter movesIn = done ++ [e] := by
      rw [List.filter_append, h.ins]
      simp [hin, hsin]
    have hnext := h.append_served hd (x := e) hpath rfl hins
      ⟨s, List.mem_append.mpr (Or.inl hsmem), hsout, hcookie.symm⟩
    rw [sourceFor_arriving (hd.of_begins ⟨[e], rfl⟩) hsmem
      (halfOf_iff.mpr ⟨hsout, hcookie.symm, hfresh, hnear⟩) (by simp [halfOf, hout])] at hnext
    refine ⟨none, done ++ [e], ?_⟩
    simpa [moved, hname, hnamed] using hnext

/-! ## Runs -/

theorem run_concat (w₀ : FileSystemWatcher) (past : List Arrival) (a : Arrival) :
    machine.run w₀ (past ++ [a]) = ((machine.run w₀ past).handle a).watcher :=
  machine.run_append w₀ past [a]

theorem moved_concat (w₀ : FileSystemWatcher) (past : List Arrival) (a : Arrival) :
    moved (reported w₀ (past ++ [a]))
      = moved (reported w₀ past) ++ moved ((machine.run w₀ past).handle a).reports := by
  rw [reported_append, moved_append, reported, reported, List.append_nil]

theorem expected_concat (w₀ : FileSystemWatcher) (past : List Arrival) (hin : movesIn e = true) :
    (expected w₀ (past ++ [e])).length = (expected w₀ past).length + 1 ∧
      ∃ front, expected w₀ (past ++ [e]) = front ++ [(sourceFor w₀ (past ++ [e]) e, pathOf w₀ e)] := by
  have hlast : (past ++ [e]).filter movesIn = past.filter movesIn ++ [e] := by
    rw [List.filter_append, List.filter_singleton, hin]
    rfl
  constructor
  · rw [expected, expected, hlast, List.length_map, List.length_map, List.length_append]
    rfl
  · rw [expected, hlast, List.map_append]
    exact ⟨_, rfl⟩

/-- The watcher has followed the events until the last of them. -/
def Followed (w₀ : FileSystemWatcher) (past : List Arrival) : Prop :=
  ∃ now slot done,
    Following w₀ past now (machine.run w₀ past) (moved (reported w₀ past)) slot done ∧
      ∀ later, (∀ b ∈ past, b.now ≤ later) → now ≤ later

theorem followed_nil (h0 : w₀.cookie = 0) : Followed w₀ [] :=
  ⟨0, none, [], ⟨rfl, fun _ hb => (by cases hb), h0, fun _ ha => (by cases ha), rfl, rfl,
    fun _ hx => (by cases hx)⟩, fun later _ => Nat.zero_le later⟩

theorem Following.followed (h : Following w₀ (past ++ [e]) e.now (machine.run w₀ (past ++ [e]))
    (moved (reported w₀ (past ++ [e]))) slot done) : Followed w₀ (past ++ [e]) := by
  have hmem : e ∈ past ++ [e] := List.mem_append.mpr (Or.inr (List.mem_singleton.mpr rfl))
  exact ⟨e.now, slot, done, h, fun _ hlater => hlater e hmem⟩

/-- The watcher looks at the clock before it looks at the event. -/
theorem Followed.waits (h : Followed w₀ past) (hlater : ∀ b ∈ past, b.now ≤ e.now) :
    ∃ slot done, Following w₀ past e.now (((machine.run w₀ past).subscript e.event.wd).flush e.now).1
      (moved (reported w₀ past) ++ moved ((machine.run w₀ past).flush e.now).2) slot done := by
  obtain ⟨now, slot, done, hfollowing, hnow⟩ := h
  have hflushed := (hfollowing.subscript e.event.wd).flush (hnow e.now hlater)
  rwa [reports_flush_subscript] at hflushed

/-- A file that is moved in may find the slot free or find its other half; any other event comes as it
comes. -/
theorem Followed.append (h : Followed w₀ past) (hd : Disciplined (past ++ [e]))
    (hfinds : FindsSlot w₀ past e) : Followed w₀ (past ++ [e]) := by
  have hmem : e ∈ past ++ [e] := List.mem_append.mpr (Or.inr (List.mem_singleton.mpr rfl))
  have hfile := hd.files e hmem
  obtain ⟨slot, done, hwaits⟩ := h.waits hd.now_le
  have hpath : (machine.run w₀ past).path = w₀.path := by
    obtain ⟨now, slot, done, hfollowing, -⟩ := h
    exact hfollowing.paths
  cases hmove : moves e with
  | false =>
    obtain ⟨hwatcher, hreports⟩ := handle_quiet (w := machine.run w₀ past) ⟨hfile, hmove⟩
    have hnone := hmove
    rw [moves_eq, Bool.or_eq_false_iff] at hnone
    have hnext := hwaits.append_same hd hnone.2 (fun a _ => by rw [halfOf, hnone.1]; rfl)
    rw [← hwatcher, ← hreports, ← moved_concat, ← run_concat] at hnext
    exact hnext.followed
  | true =>
    obtain ⟨hwrite, hdelete, hkind⟩ := hd.single e hmem hmove
    obtain ⟨hwatcher, hreports⟩ := handle_half (w := machine.run w₀ past) hfile hmove hwrite hdelete
      (hd.cookies e hmem hmove)
    have hname : (machine.run w₀ past).path e.event.wd e.event.name = pathOf w₀ e := by
      rw [hpath]
      rfl
    rw [hname] at hwatcher hreports
    have hfinds' := (findsSlot_iff fun _ => hd.cookies e hmem hmove).mp hfinds
    -- each case ends in the state and the reports of the handler
    suffices hnext : ∃ slot' done', Following w₀ (past ++ [e]) e.now
        ((((machine.run w₀ past).subscript e.event.wd).flush e.now).1.handleMove e.now e.event
          (pathOf w₀ e)).1
        (moved (reported w₀ past) ++ moved ((machine.run w₀ past).flush e.now).2 ++
          moved ((((machine.run w₀ past).subscript e.event.wd).flush e.now).1.handleMove e.now e.event
            (pathOf w₀ e)).2) slot' done' by
      obtain ⟨slot', done', hnext⟩ := hnext
      rw [List.append_assoc, ← moved_append, ← hwatcher, ← hreports, ← moved_concat, ← run_concat] at hnext
      exact hnext.followed
    cases slot with
    | none =>
      refine hwaits.append_kept hd hmove fun hin b hb => ?_
      rcases hfinds' hin with hcookie | ⟨-, halone⟩
      · have hfree : (((machine.run w₀ past).subscript e.event.wd).flush e.now).1.cookie = 0 := hwaits.keeps
        rw [cookie_flush_subscript, hcookie] at hfree
        exact absurd hfree (hd.cookies e hmem hmove)
      · exact halone b hb
    | some s =>
      by_cases hcookie : e.event.cookie = s.event.cookie
      · exact hwaits.append_paired hd hmove hcookie
      · -- another half is in the slot, so this one is dropped
        obtain ⟨hheld, hne, -⟩ := hwaits.keeps
        have hdropped := handleMove_dropped e.now e.event (pathOf w₀ e)
          (by rw [hheld]; exact hne) (by rw [hheld]; exact hcookie)
        rw [hdropped]
        rw [cookie_flush_subscript] at hheld
        have hin : movesIn e = false := by
          cases hin : movesIn e with
          | false => rfl
          | true =>
            rcases hfinds' hin with hown | ⟨hfree, -⟩
            · exact absurd (hown.symm.trans hheld) hcookie
            · exact absurd (hheld.symm.trans hfree) hne
        have hother : ∀ a, some s = some a → halfOf a e = false := by
          rintro a ha
          obtain rfl := Option.some.inj ha
          simp [halfOf, hcookie]
        have hsame := hwaits.append_same hd hin hother
        exact ⟨some s, done, by rwa [show moved [] = [] from rfl, List.append_nil]⟩

/-- What the watcher has followed is reported. -/
theorem Followed.reported (h : Followed w₀ past) : Reported w₀ past := by
  obtain ⟨now, slot, done, hfollowing, -⟩ := id h
  obtain ⟨hin, honTime⟩ := hfollowing.out_begins
  refine ⟨hin, honTime, fun q hq hlater => ?_⟩
  obtain ⟨slot', done', hwaits⟩ := h.waits (e := q) fun b hb =>
    Nat.le_trans (Nat.le_add_right _ _) (Nat.le_of_lt (hlater b hb))
  rw [moved_concat, (handle_quiet hq).2]
  exact hwaits.all_out hlater

/-- An event that says only that the moment of `e` is long over. -/
def longAfter (e : Arrival) : Arrival := ⟨⟨0, 0, 0, []⟩, e.now + moveTimeout + 1, fun _ => none⟩

theorem quiet_longAfter (e : Arrival) : Quiet (longAfter e) :=
  ⟨show has 0 Inotify.isdir = false by decide +kernel, show has 0 Inotify.move = false by decide +kernel⟩

/-- A file that was moved in, and neither found the slot free nor its other half in it, was not reported as
it should. -/
theorem Followed.finds (h : Followed w₀ past) (hd : Disciplined (past ++ [e]))
    (hreported : Reported w₀ (past ++ [e])) : FindsSlot w₀ past e := by
  have hmem : e ∈ past ++ [e] := List.mem_append.mpr (Or.inr (List.mem_singleton.mpr rfl))
  rw [findsSlot_iff fun hin => hd.cookies e hmem (by rw [moves_eq, hin, Bool.or_true])]
  intro hin
  have hmove : moves e = true := by rw [moves_eq, hin, Bool.or_true]
  obtain ⟨hwrite, hdelete, hkind⟩ := hd.single e hmem hmove
  have hout : movesOut e = false := by
    rw [hin] at hkind
    cases hout : movesOut e with
    | false => rfl
    | true =>
      rw [hout] at hkind
      cases hkind
  obtain ⟨hlength, front, hfront⟩ := expected_concat w₀ past hin
  obtain ⟨slot, done, hwaits⟩ := h.waits hd.now_le
  have hlater : e.now ≤ (longAfter e).now := Nat.le_trans (Nat.le_add_right _ _) (Nat.le_succ _)
  have hall := hreported.all (longAfter e) (quiet_longAfter e) (by
    intro b hb
    have hle : b.now ≤ e.now := by
      rcases List.mem_append.mp hb with hb | hb
      · exact hd.now_le b hb
      · rw [List.mem_singleton.mp hb]
    exact Nat.lt_succ_of_le (Nat.add_le_add_right hle moveTimeout))
  obtain ⟨hwatcher, hreports⟩ := handle_half (w := machine.run w₀ past) (hd.files e hmem) hmove hwrite
    hdelete (hd.cookies e hmem hmove)
  have hname : (machine.run w₀ past).path e.event.wd e.event.name = pathOf w₀ e := by
    obtain ⟨now, slot, done, hfollowing, -⟩ := h
    rw [hfollowing.paths]
    rfl
  rw [hname] at hwatcher hreports
  rw [moved_concat, moved_concat, (handle_quiet (quiet_longAfter e)).2, run_concat, hwatcher, hreports,
    moved_append] at hall
  rw [← cookie_flush_subscript _ e.event.wd]
  cases slot with
  | none =>
    have hfree : (((machine.run w₀ past).subscript e.event.wd).flush e.now).1.cookie = 0 := hwaits.keeps
    refine Or.inr ⟨hfree, fun b hb => ?_⟩
    by_contra hhalf
    rw [Bool.not_eq_false] at hhalf
    -- the file is reported by itself, though its other half was there
    have hlone := moved_flush (longAfter e).now
      (w := { (((machine.run w₀ past).subscript e.event.wd).flush e.now).1 with
        cookie := e.event.cookie, moveName := pathOf w₀ e, moveFrom := movesOut e, moveStart := e.now })
      (hd.cookies e hmem hmove) (Nat.lt_succ_self _) hout (path_ne_nil w₀ _ _)
    rw [handleMove, if_pos hfree, hfront] at hall
    have hlast := hall.symm.trans (congrArg _ hlone)
    have hsource := congrArg Prod.fst (List.singleton_inj.mp (List.append_inj_right' hlast rfl))
    exact sourceFor_ne_nil (List.mem_append.mpr (Or.inl hb)) hhalf hsource
  | some s =>
    obtain ⟨hheld, hne, -⟩ := hwaits.keeps
    by_cases hcookie : e.event.cookie = s.event.cookie
    · exact Or.inl (hheld.trans hcookie.symm)
    · -- the file is dropped
      rw [handleMove_dropped e.now e.event _ (by rw [hheld]; exact hne) (by rw [hheld]; exact hcookie)] at hall
      obtain ⟨slot', done', hlate⟩ := hwaits.flush hlater
      have hrest := hlate.all_out fun b hb => Nat.lt_succ_of_le (Nat.add_le_add_right (hd.now_le b hb) _)
      rw [show moved [] = [] from rfl, List.append_nil] at hall
      have hcount := congrArg List.length (hall.symm.trans hrest)
      omega

/-! ## Which moves are reported -/

/-- Every move is reported as it should exactly if each file that is moved in finds its other half in the
slot, or finds the slot free and has no other half. -/
theorem reported_iff {arrivals : List Arrival} (hd : Disciplined arrivals) (h0 : w₀.cookie = 0) :
    (∀ past, past <+: arrivals → Reported w₀ past) ↔ AlongPast (FindsSlot w₀) [] arrivals :=
  Lib.alongPast_iff (I := Followed w₀) (fun _ _ h => h.reported)
    (fun _ _ hp h hfinds => h.append (hd.of_begins hp) hfinds)
    (fun _ _ hp h hreported => h.finds (hd.of_begins hp) hreported) (followed_nil h0)

/-- Events of a watched folder. -/
def arrivalAt (now : Nat) (mask cookie : UInt32) (name : String) : Arrival :=
  ⟨⟨1, mask, cookie, name.toList⟩, now, fun _ => none⟩

/-- A file is renamed, and one that was moved in comes five seconds later. -/
def oneByOne : List Arrival :=
  [arrivalAt 0 Inotify.movedFrom 7 "a", arrivalAt 1 Inotify.movedTo 7 "b",
    arrivalAt 5001 Inotify.movedTo 8 "c"]

theorem reported_iff_one_by_one : Reported init oneByOne := by
  have halong : AlongPast (FindsSlot init) [] oneByOne := by
    refine ⟨fun h => ?_, fun _ => Or.inl ?_, fun _ => Or.inr ⟨?_, ?_⟩, trivial⟩
    · exact absurd h (by decide +kernel)
    all_goals decide +kernel
  exact (reported_iff (by constructor <;> decide +kernel) rfl).mpr halong oneByOne List.prefix_rfl

/-- Two files are moved in, one second after the other. -/
def twoAtOnce : List Arrival :=
  [arrivalAt 0 Inotify.movedTo 7 "a", arrivalAt 1000 Inotify.movedTo 8 "b"]

/-- The second one finds the first one in the slot and is not reported, whenever the next event comes. -/
theorem second_file_lost :
    Disciplined twoAtOnce ∧
      expected init twoAtOnce = [([], "/a".toList), ([], "/b".toList)] ∧
      moved (reported init (twoAtOnce ++ [arrivalAt 6001 Inotify.closeNowrite 0 "c"]))
        = [([], "/a".toList)] ∧
      ¬ ∀ past, past <+: twoAtOnce → Reported init past := by
  have hexpected : expected init twoAtOnce = [([], "/a".toList), ([], "/b".toList)] := by decide +kernel
  have hlate : moved (reported init (twoAtOnce ++ [arrivalAt 6001 Inotify.closeNowrite 0 "c"]))
      = [([], "/a".toList)] := by
    decide +kernel
  refine ⟨by constructor <;> decide +kernel, hexpected, hlate, fun hall => ?_⟩
  have hquiet : Quiet (arrivalAt 6001 Inotify.closeNowrite 0 "c") := by constructor <;> decide +kernel
  have hreported := (hall twoAtOnce List.prefix_rfl).all _ hquiet (by decide +kernel)
  rw [hlate, hexpected] at hreported
  exact absurd hreported (by decide)

end FileSystemWatcher

end MediaArchiver
