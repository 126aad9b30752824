/-
# MediaArchiver.Watcher.Buffer -- inotify events in memory, and their names

`read` fills a buffer with events, one behind the other: four numbers of 32 bits, of which the last is the
length of the name field, and the name, filled up with NULs. `threadMain` goes from one to the next by that
length, and passes a pointer; `handleInotifyEvent` takes the name to be the string behind the four numbers,
without a look at the length. An event about a watched folder itself has no name field, and then this string
is whatever lies behind the event in memory: the next event, or what the stack held before.

So an event with a name is read back as it was queued, wherever it lies (`eventAt_bytes`); for one without,
what is handled does not depend on the memory exactly if the handler does not use the name (`UsesName`).
-/
import MediaArchiver.Lib.Memory
import MediaArchiver.Watcher.Watcher

namespace MediaArchiver

open Lib (littleEndian word readWord signed unsigned cString stringBytes IsStringChar)

/-! ## Events in memory -/

/-- `sizeof(struct inotify_event)` -/
def inotifyEventSize : Nat := 16

/-- `sizeof(buffer)` in `threadMain` -/
def bufferSize : Nat := 1024

/-- What `handleInotifyEvent` finds at a pointer. -/
def eventAt (memory : List UInt8) : InotifyEvent where
  wd := signed (readWord memory)
  mask := readWord (memory.drop 4)
  cookie := readWord (memory.drop 8)
  name := cString (memory.drop inotifyEventSize)

/-- `e->len` -/
def lenAt (memory : List UInt8) : Nat := (readWord (memory.drop 12)).toNat

/-- An event in the queue of the kernel, with the length of its name field. The field holds the name and one
NUL at least. An event about a watched folder itself has neither a name nor the field. -/
structure QueuedEvent where
  event : InotifyEvent
  len : Nat
  wd_low : -2 ^ 31 ≤ event.wd
  wd_high : event.wd < 2 ^ 31
  name_chars : ∀ c ∈ event.name, IsStringChar c
  len_name : if event.name = [] then len = 0 else event.name.length < len
  /-- A name has 255 bytes at most. -/
  len_le : inotifyEventSize + len ≤ bufferSize

namespace QueuedEvent

/-- The event as the kernel writes it. -/
def bytes (q : QueuedEvent) : List UInt8 :=
  word (unsigned q.event.wd) ++ (word q.event.mask ++ (word q.event.cookie ++ (word (UInt32.ofNat q.len) ++
    (stringBytes q.event.name ++ List.replicate (q.len - q.event.name.length) 0))))

/-- The event as the handler takes it, with what lies behind it. -/
def seen (q : QueuedEvent) (behind : List UInt8) : InotifyEvent :=
  if q.event.name = [] then { q.event with name := cString behind } else q.event

theorem name_le (q : QueuedEvent) : q.event.name.length ≤ q.len := by
  have hlen := q.len_name
  split at hlen
  · next hname => rw [hname]; exact Nat.zero_le _
  · exact Nat.le_of_lt hlen

theorem length_bytes (q : QueuedEvent) : q.bytes.length = inotifyEventSize + q.len := by
  have hname := q.name_le
  simp only [bytes, List.length_append, Lib.length_word, Lib.length_stringBytes, List.length_replicate,
    inotifyEventSize]
  omega

/-- The length says where the next event is. -/
theorem lenAt_bytes (q : QueuedEvent) (behind : List UInt8) : lenAt (q.bytes ++ behind) = q.len := by
  have hfits := q.len_le
  have hsmall : q.len < UInt32.size := by
    simp only [inotifyEventSize, bufferSize] at hfits
    exact Nat.lt_of_le_of_lt (by omega : q.len ≤ 1008) (by decide)
  have hskip : (q.bytes ++ behind).drop 12 = word (UInt32.ofNat q.len) ++
      (stringBytes q.event.name ++ (List.replicate (q.len - q.event.name.length) 0 ++ behind)) := by
    rw [show 12 = 4 + (4 + 4) from rfl, ← List.drop_drop, ← List.drop_drop]
    simp only [bytes, List.append_assoc, Lib.drop_word_append]
  rw [lenAt, hskip, Lib.readWord_word_append, UInt32.toNat_ofNat_of_lt' hsmall]

/-- The string in the name field, or behind the event. -/
theorem cString_bytes (q : QueuedEvent) (behind : List UInt8) :
    cString ((q.bytes ++ behind).drop inotifyEventSize)
      = if q.event.name = [] then cString behind else q.event.name := by
  have hskip : (q.bytes ++ behind).drop inotifyEventSize = stringBytes q.event.name ++
      (List.replicate (q.len - q.event.name.length) 0 ++ behind) := by
    rw [show inotifyEventSize = 4 + (4 + (4 + 4)) from rfl, ← List.drop_drop, ← List.drop_drop,
      ← List.drop_drop]
    simp only [bytes, List.append_assoc, Lib.drop_word_append]
  have hlen := q.len_name
  rw [hskip, Lib.cString_append q.name_chars]
  split at hlen
  · next hname =>
    rw [if_pos hname, hname, hlen]
    rfl
  · next hname =>
    obtain ⟨nuls, hnuls⟩ : ∃ nuls, q.len - q.event.name.length = nuls + 1 :=
      Nat.exists_eq_add_of_lt (Nat.sub_pos_of_lt hlen) |>.imp fun _ h => by omega
    rw [if_neg hname, hnuls, List.replicate_succ, List.cons_append, Lib.cString_zero, List.append_nil]

/-- What was queued is read back, but for a name that was never there. -/
theorem eventAt_bytes (q : QueuedEvent) (behind : List UInt8) :
    eventAt (q.bytes ++ behind) = q.seen behind := by
  have hmask : readWord ((q.bytes ++ behind).drop 4) = q.event.mask := by
    simp only [bytes, List.append_assoc, Lib.drop_word_append, Lib.readWord_word_append]
  have hcookie : readWord ((q.bytes ++ behind).drop 8) = q.event.cookie := by
    rw [show 8 = 4 + 4 from rfl, ← List.drop_drop]
    simp only [bytes, List.append_assoc, Lib.drop_word_append, Lib.readWord_word_append]
  have hwd : signed (readWord (q.bytes ++ behind)) = q.event.wd := by
    rw [bytes, List.append_assoc, Lib.readWord_word_append, Lib.signed_unsigned q.wd_low q.wd_high]
  rw [eventAt, hmask, hcookie, hwd, q.cString_bytes, seen]
  split
  · rfl
  · rfl

end QueuedEvent

/-! ## The use of the name -/

namespace FileSystemWatcher

/-- The name is reported, kept or asked about. -/
def usesName (w : FileSystemWatcher) (now : Nat) (e : InotifyEvent) : Bool :=
  if has e.mask Inotify.isdir then
    !has e.mask Inotify.delete && (has e.mask Inotify.create || has e.mask Inotify.unmount)
  else
    has e.mask Inotify.closeWrite || has e.mask Inotify.delete ||
      (has e.mask Inotify.move && e.cookie != 0 &&
        ((w.flush now).1.cookie == 0 || e.cookie == (w.flush now).1.cookie))

variable {w : FileSystemWatcher} {now : Nat} {addWatch : Path → Option Int} {e : InotifyEvent}

/-- The full names differ if the names do. -/
theorem path_inj (w : FileSystemWatcher) (wd : Int) {name name' : Path} :
    w.path wd name = w.path wd name' ↔ name = name' := by
  unfold path
  rw [List.append_cancel_left_eq, List.cons_inj_right]

theorem handleDirectory_of_unused {fileName fileName' : Path} (hdir : has e.mask Inotify.isdir = true)
    (hunused : w.usesName now e = false) (v : FileSystemWatcher) :
    v.handleDirectory addWatch e fileName = v.handleDirectory addWatch e fileName' := by
  unfold usesName at hunused
  rw [if_pos hdir] at hunused
  unfold handleDirectory
  cases hdelete : has e.mask Inotify.delete with
  | true => rfl
  | false =>
    rw [hdelete, Bool.not_false, Bool.true_and, Bool.or_eq_false_iff] at hunused
    simp only [hunused.1, hunused.2, Bool.false_eq_true, if_false]

theorem handleFile_of_unused {fileName fileName' : Path} (hfile : has e.mask Inotify.isdir = false)
    (hunused : w.usesName now e = false) :
    w.handleFile now e fileName = w.handleFile now e fileName' := by
  unfold usesName at hunused
  rw [hfile, if_neg Bool.false_ne_true, Bool.or_eq_false_iff, Bool.or_eq_false_iff] at hunused
  obtain ⟨⟨hwritten, hdelete⟩, hmove⟩ := hunused
  unfold handleFile
  dsimp only
  rw [hwritten, hdelete]
  cases hhalf : has e.mask Inotify.move && e.cookie != 0 with
  | false => rfl
  | true =>
    -- a half of another move is dropped
    rw [hhalf, Bool.true_and, Bool.or_eq_false_iff] at hmove
    have hother : ∀ p, (w.flush now).1.handleMove now e p = ((w.flush now).1, []) := by
      intro p
      rw [handleMove, if_neg (by simpa using hmove.1), if_neg (by simpa using hmove.2)]
    simp only [hother, Bool.false_eq_true, if_false]

theorem usesName_subscript (w : FileSystemWatcher) (wd : Int) (now : Nat) (e : InotifyEvent) :
    (w.subscript wd).usesName now e = w.usesName now e := by
  have hcookie : ((w.subscript wd).flush now).1.cookie = (w.flush now).1.cookie := by
    show (if w.movePending now = true then _ else _ : FileSystemWatcher × List Report).1.cookie = _
    unfold flush
    cases w.movePending now <;> rfl
  unfold usesName
  rw [hcookie]

/-- A name that is not used does not matter. -/
theorem handleInotifyEvent_of_unused (hunused : w.usesName now e = false) (name : Path) :
    w.handleInotifyEvent addWatch now { e with name } = w.handleInotifyEvent addWatch now e := by
  have hsub : (w.subscript e.wd).usesName now e = false := by rwa [usesName_subscript]
  unfold handleInotifyEvent
  dsimp only
  cases hdir : has e.mask Inotify.isdir with
  | true =>
    simp only [if_true]
    exact handleDirectory_of_unused (e := e) hdir hsub _
  | false =>
    simp only [Bool.false_eq_true, if_false]
    exact congrArg (fun p : FileSystemWatcher × List Report => (⟨p.1, p.2, []⟩ : Handled))
      (handleFile_of_unused (e := e) hdir hsub)

theorem handleDirectory_inj {fileName fileName' : Path} (hdir : has e.mask Inotify.isdir = true)
    (hused : w.usesName now e = true) {v : FileSystemWatcher}
    (h : v.handleDirectory addWatch e fileName = v.handleDirectory addWatch e fileName') :
    fileName = fileName' := by
  unfold usesName at hused
  rw [if_pos hdir, Bool.and_eq_true, Bool.not_eq_true'] at hused
  obtain ⟨hdelete, hused⟩ := hused
  unfold handleDirectory at h
  rw [hdelete, if_neg Bool.false_ne_true, if_neg Bool.false_ne_true] at h
  cases hcreate : has e.mask Inotify.create with
  | true =>
    -- the kernel is asked to watch it
    have hcalls : [KernelCall.addWatch fileName inotifyFlags] = [.addWatch fileName' inotifyFlags] := by
      simp only [hcreate, if_true] at h
      have hboth := congrArg Handled.calls h
      cases haw : addWatch fileName <;> cases haw' : addWatch fileName' <;>
        simpa only [haw, haw'] using hboth
    simpa using hcalls
  | false =>
    have hunmount : has e.mask Inotify.unmount = true := by simpa [hcreate] using hused
    simp only [hcreate, hunmount, Bool.false_eq_true, if_false, if_true] at h
    simpa using congrArg Handled.reports h

theorem handleFile_inj {fileName fileName' : Path} (hfile : has e.mask Inotify.isdir = false)
    (hused : w.usesName now e = true) (h : w.handleFile now e fileName = w.handleFile now e fileName') :
    fileName = fileName' := by
  unfold usesName at hused
  rw [hfile, if_neg Bool.false_ne_true] at hused
  unfold handleFile at h
  dsimp only at h
  cases hwritten : has e.mask Inotify.closeWrite with
  | true => simpa [hwritten] using h
  | false =>
  cases hdelete : has e.mask Inotify.delete with
  | true => simpa [hwritten, hdelete] using h
  | false =>
    have hmove : (has e.mask Inotify.move && e.cookie != 0) = true ∧
        ((w.flush now).1.cookie = 0 ∨ e.cookie = (w.flush now).1.cookie) := by
      simpa [hwritten, hdelete] using hused
    simp only [hwritten, hdelete, hmove.1, Bool.false_eq_true, if_false, if_true, Prod.mk.injEq,
      List.append_cancel_left_eq] at h
    unfold handleMove at h
    by_cases hfree : (w.flush now).1.cookie = 0
    · -- it is kept
      simp only [if_pos hfree] at h
      simpa using congrArg FileSystemWatcher.moveName h.1
    · have hother : e.cookie = (w.flush now).1.cookie := hmove.2.resolve_left hfree
      simp only [if_neg hfree, if_pos hother] at h
      cases hfrom : has e.mask Inotify.movedFrom with
      | true => simpa [hfrom] using h.2
      | false => simpa [hfrom] using h.2

/-- A name that is used shows. -/
theorem handleInotifyEvent_inj (hused : w.usesName now e = true) {name name' : Path}
    (h : w.handleInotifyEvent addWatch now { e with name } =
      w.handleInotifyEvent addWatch now { e with name := name' }) : name = name' := by
  have hsub : (w.subscript e.wd).usesName now e = true := by rwa [usesName_subscript]
  unfold handleInotifyEvent at h
  dsimp only at h
  apply (w.path_inj e.wd).mp
  cases hdir : has e.mask Inotify.isdir with
  | true =>
    simp only [hdir, if_true] at h
    exact handleDirectory_inj (e := e) hdir hsub h
  | false =>
    simp only [hdir, Bool.false_eq_true, if_false, Handled.mk.injEq, and_true] at h
    exact handleFile_inj (e := e) hdir hsub (Prod.ext h.1 h.2)

/-- What an event in the buffer leads to depends on the event only, and not on what lies behind it, exactly
if it has a name or the name is not used. -/
theorem handle_eventAt_iff (w : FileSystemWatcher) (now : Nat) (addWatch : Path → Option Int)
    (q : QueuedEvent) :
    (∀ behind, w.handleInotifyEvent addWatch now (eventAt (q.bytes ++ behind)) =
        w.handleInotifyEvent addWatch now q.event) ↔
      q.event.name ≠ [] ∨ w.usesName now q.event = false := by
  have hseen : ∀ behind, q.event.name = [] → q.seen behind = { q.event with name := cString behind } :=
    fun behind hname => if_pos hname
  constructor
  · intro hall
    by_contra hnot
    rw [not_or, not_not, Bool.not_eq_false] at hnot
    have hstray := hall (stringBytes ['a'] ++ [0])
    have hstring : ∀ c ∈ ['a'], Lib.IsStringChar c := List.forall_mem_singleton.mpr (by decide)
    rw [q.eventAt_bytes, hseen _ hnot.1, Lib.cString_stringBytes hstring] at hstray
    have hname : ['a'] = q.event.name := handleInotifyEvent_inj hnot.2 hstray
    rw [hnot.1] at hname
    cases hname
  · rintro hok behind
    rw [q.eventAt_bytes]
    by_cases hname : q.event.name = []
    · rw [hseen _ hname]
      exact handleInotifyEvent_of_unused (hok.resolve_left (not_not.mpr hname)) _
    · rw [QueuedEvent.seen, if_neg hname]

end FileSystemWatcher

namespace QueuedEvent

/-- The event has a name, or is of a kind for which the handler does not use it. -/
def Plain (q : QueuedEvent) : Prop :=
  q.event.name ≠ [] ∨ ∀ (w : FileSystemWatcher) now, w.usesName now q.event = false

/-- A plain event is handled as it was queued. -/
theorem handle_seen {q : QueuedEvent} (h : q.Plain) (w : FileSystemWatcher) (now : Nat)
    (addWatch : Path → Option Int) (behind : List UInt8) :
    w.handleInotifyEvent addWatch now (q.seen behind) = w.handleInotifyEvent addWatch now q.event := by
  rw [← q.eventAt_bytes]
  exact (w.handle_eventAt_iff now addWatch q).mpr (h.imp_right fun hunused => hunused w now) behind

end QueuedEvent
end MediaArchiver
