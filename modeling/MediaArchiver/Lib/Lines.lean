/-
# MediaArchiver.Lib.Lines -- reading a file line by line

`getline` takes the next line from a stream, without its end. Three things about it matter to a loop that
runs until the stream fails:

* a file that ends with a line end has one more line for it, and that one is empty (`getline_last`);
* at the end of a last line without one, only `eofbit` is set, so the loop goes on;
* the call after that sets `failbit` and leaves the string as it was (`getline_of_not_good`).

The lines of a text are what there is between the line ends, and `lines_induction` goes through them. A loop
that ends with the first failure gets all of them but an empty last one (`lines_eq`), so a list can be written
as one text and read back exactly if the separator is in none of its members and the last one is not empty
(`pieces_intercalate_iff`). The last part is about the space at both ends of a line.
-/
import Mathlib.Data.List.DropRight
import MediaArchiver.Lib.InStream

namespace MediaArchiver.Lib

universe u

variable {α : Type u}

/-! ## The first occurrence of a character -/

section Cuts

variable [DecidableEq α] {delim : α} {l : List α}

theorem all_ne_of_not_mem (h : delim ∉ l) : ∀ c ∈ l, decide (c ≠ delim) = true := by
  intro c hc
  exact decide_eq_true fun heq => h (heq ▸ hc)

theorem takeWhile_ne_of_not_mem (h : delim ∉ l) : l.takeWhile (· ≠ delim) = l :=
  List.takeWhile_eq_self_iff.mpr (all_ne_of_not_mem h)

theorem takeWhile_ne_append (h : delim ∉ l) (r : List α) :
    (l ++ delim :: r).takeWhile (· ≠ delim) = l := by
  rw [List.takeWhile_append_of_pos (all_ne_of_not_mem h), List.takeWhile_cons_of_neg (by simp), List.append_nil]

theorem dropWhile_ne_append (h : delim ∉ l) (r : List α) :
    (l ++ delim :: r).dropWhile (· ≠ delim) = delim :: r := by
  rw [List.dropWhile_append_of_pos (all_ne_of_not_mem h), List.dropWhile_cons_of_neg (by simp)]

/-- Cutting where the character was found. -/
theorem take_idxOf? {i : Nat} (h : l.idxOf? delim = some i) :
    l.take i = l.takeWhile (· ≠ delim) ∧ l.drop (i + 1) = (l.dropWhile (· ≠ delim)).tail := by
  induction l generalizing i with
  | nil => cases h
  | cons c l ih =>
    rw [List.idxOf?_cons] at h
    by_cases hc : c = delim
    · subst hc
      rw [if_pos (beq_self_eq_true c)] at h
      obtain rfl := Option.some.inj h
      simp
    · rw [if_neg (by simpa using hc)] at h
      obtain ⟨j, hj, rfl⟩ := Option.map_eq_some_iff.mp h
      obtain ⟨htake, hdrop⟩ := ih hj
      rw [List.take_succ_cons, List.drop_succ_cons, htake, hdrop]
      simp [hc]

/-- Where it is found. -/
theorem idxOf?_append (h : delim ∉ l) (r : List α) : (l ++ delim :: r).idxOf? delim = some l.length := by
  induction l with
  | nil => rw [List.nil_append, List.idxOf?_cons, if_pos (beq_self_eq_true delim), List.length_nil]
  | cons c l ih =>
    rw [List.mem_cons, not_or] at h
    rw [List.cons_append, List.idxOf?_cons, if_neg (by simpa using Ne.symm h.1), ih h.2]
    rfl

end Cuts

/-! ## `getline` -/

namespace InStream

/-- How often the stream can be read until it fails, at most. -/
def unread (s : InStream α) : Nat := if s.fail then 0 else if s.eofbit then 1 else s.rest.length + 2

theorem unread_le (s : InStream α) : s.unread ≤ s.rest.length + 2 := by
  unfold unread
  split
  · omega
  · split <;> omega

variable [DecidableEq α]

/-- `std::getline`. The line's end is taken from the stream, too. A stream with a flag set gets `failbit`, and
the string stays as it is. -/
def getline (s : InStream α) (delim : α) (line : List α) : InStream α × List α :=
  if s.good then
    let got := s.rest.takeWhile (· ≠ delim)
    if delim ∈ s.rest then ({ s with offset := s.offset + got.length + 1 }, got)
    else ({ s with offset := s.offset + got.length, eofbit := true, failbit := got.isEmpty }, got)
  else ({ s with failbit := true }, line)

variable {s : InStream α} {delim : α} {l r : List α}

theorem getline_of_not_good (h : s.good = false) (line : List α) :
    s.getline delim line = ({ s with failbit := true }, line) := by
  rw [getline, h, if_neg Bool.false_ne_true]

/-- A line that has an end. -/
theorem getline_line (h : s.Ready) (hrest : s.rest = l ++ delim :: r) (hl : delim ∉ l) (line : List α) :
    (s.getline delim line).2 = l ∧ (s.getline delim line).1.Ready
      ∧ (s.getline delim line).1.rest = r := by
  have hmem : delim ∈ s.rest := by
    rw [hrest]
    exact List.mem_append_right l List.mem_cons_self
  have hfile : s.file.drop s.offset = l ++ delim :: r := h.rest ▸ hrest
  have hlength := congrArg List.length hfile
  rw [List.length_drop, List.length_append, List.length_cons] at hlength
  simp only [getline, h.good, if_true, if_pos hmem]
  rw [hrest, takeWhile_ne_append hl]
  have hready : InStream.Ready { s with offset := s.offset + l.length + 1 } :=
    ⟨h.isOpen, h.eofbit, h.failbit, h.badbit, by dsimp only; omega⟩
  refine ⟨rfl, hready, ?_⟩
  rw [hready.rest]
  dsimp only
  rw [Nat.add_assoc, ← List.drop_drop, hfile, ← List.drop_drop, List.drop_left, List.drop_one, List.tail_cons]

/-- The last line. If there is something in it, the stream does not fail yet. -/
theorem getline_last (h : s.Ready) (hrest : s.rest = l) (hl : delim ∉ l) (line : List α) :
    (s.getline delim line).2 = l ∧ (s.getline delim line).1.eofbit = true
      ∧ (s.getline delim line).1.fail = l.isEmpty := by
  simp only [getline, h.good, if_true, hrest, if_neg hl, takeWhile_ne_of_not_mem hl, fail, h.badbit,
    Bool.or_false]
  exact ⟨trivial, trivial, trivial⟩

/-- Each call takes something from the stream, or sets a flag. -/
theorem unread_getline (h : s.fail = false) (delim : α) (line : List α) :
    (s.getline delim line).1.unread < s.unread := by
  obtain ⟨hfail, hbad⟩ := Bool.or_eq_false_iff.mp h
  cases heof : s.eofbit with
  | true =>
    have hgood : s.good = false := by simp [good, heof]
    rw [getline_of_not_good hgood]
    simp [unread, fail, hfail, hbad, heof]
  | false =>
    have hgood : s.good = true := by simp [good, heof, hfail, hbad]
    have hunread : s.unread = s.rest.length + 2 := by simp [unread, h, heof]
    simp only [getline, hgood, if_true]
    split
    · rename_i hmem
      have hopen : s.isOpen = true := by
        by_contra hclosed
        simp [rest, hclosed] at hmem
      have hlength : s.rest.length = s.file.length - s.offset := by simp [rest, hopen]
      have hpos := List.length_pos_of_mem hmem
      rw [hunread]
      refine Nat.lt_of_le_of_lt (unread_le _) (Nat.add_lt_add_right ?_ 2)
      rw [hlength, rest, if_pos hopen, List.length_drop]
      dsimp only
      omega
    · rw [hunread]
      unfold unread
      split
      · omega
      · simp

end InStream

/-! ## Lines -/

section Lines

variable [DecidableEq α] {delim : α} {text : List α}

/-- What holds of a line without an end, and of a line with its end if it holds of what follows, holds of
every text. -/
theorem lines_induction (delim : α) {P : List α → Prop} (last : ∀ l, delim ∉ l → P l)
    (line : ∀ l r, delim ∉ l → P r → P (l ++ delim :: r)) (text : List α) : P text := by
  induction hn : text.length using Nat.strong_induction_on generalizing text with
  | _ n ih =>
    by_cases hmem : delim ∈ text
    · obtain ⟨l, r, rfl, hl⟩ := List.eq_append_cons_of_mem hmem
      refine line l r hl (ih r.length ?_ r rfl)
      rw [← hn, List.length_append, List.length_cons]
      omega
    · exact last text hmem

/-- What is between the separators, without an empty piece at the end. -/
def pieces (delim : α) (text : List α) : List (List α) :=
  if (text.splitOn delim).getLast? = some [] then (text.splitOn delim).dropLast else text.splitOn delim

theorem pieces_of_not_mem {l : List α} (h : delim ∉ l) : pieces delim l = if l = [] then [] else [l] := by
  rw [pieces, List.splitOn_eq_singleton h]
  simp only [List.getLast?_singleton, Option.some_inj, List.dropLast_singleton]

theorem pieces_line {l : List α} (h : delim ∉ l) (r : List α) :
    pieces delim (l ++ delim :: r) = l :: pieces delim r := by
  rw [pieces, pieces, List.splitOn_append_cons_self_of_not_mem h]
  cases hpieces : r.splitOn delim with
  | nil => exact absurd hpieces (List.splitOn_ne_nil _ _)
  | cons p ps =>
    rw [List.getLast?_cons_cons, List.dropLast_cons_cons]
    split <;> rfl

theorem not_mem_of_mem_pieces {l : List α} (h : l ∈ pieces delim text) : delim ∉ l := by
  induction text using lines_induction delim with
  | last t ht =>
    rw [pieces_of_not_mem ht] at h
    split at h
    · exact absurd h List.not_mem_nil
    · rw [List.mem_singleton.mp h]
      exact ht
  | line t r ht ih =>
    rw [pieces_line ht] at h
    rcases List.mem_cons.mp h with rfl | hrest
    · exact ht
    · exact ih hrest

/-- A list is read back from one text exactly if no member has the separator in it, and the last one is not
empty. -/
theorem pieces_intercalate_iff {ls : List (List α)} :
    pieces delim ([delim].intercalate ls) = ls ↔ (∀ l ∈ ls, delim ∉ l) ∧ ls.getLast? ≠ some [] := by
  by_cases hnil : ls = []
  · subst hnil
    refine iff_of_true ?_ ⟨fun l hl => absurd hl List.not_mem_nil, nofun⟩
    exact (pieces_of_not_mem List.not_mem_nil).trans (if_pos rfl)
  have hlength := List.length_pos_iff.mpr hnil
  constructor
  · intro h
    have hfree : ∀ l ∈ ls, delim ∉ l := fun l hl => not_mem_of_mem_pieces (h.symm ▸ hl)
    refine ⟨hfree, fun hlast => ?_⟩
    -- the last piece is not read
    rw [pieces, List.splitOn_intercalate _ hfree hnil, if_pos hlast] at h
    have hshort := congrArg List.length h
    rw [List.length_dropLast] at hshort
    omega
  · rintro ⟨hfree, hlast⟩
    rw [pieces, List.splitOn_intercalate _ hfree hnil, if_neg hlast]

/-- The lines that a loop gets until `getline` fails. The string is moved away in each turn. -/
def InStream.lines (s : InStream α) (delim : α) (line : List α) : List (List α) :=
  if (s.getline delim line).1.fail = true then []
  else (s.getline delim line).2 :: InStream.lines (s.getline delim line).1 delim []
termination_by s.unread
decreasing_by
  refine InStream.unread_getline ?_ _ _
  cases hfail : s.fail with
  | false => rfl
  | true =>
    have hgood : s.good = false := by
      rw [InStream.fail, Bool.or_eq_true] at hfail
      rcases hfail with h | h <;> simp [InStream.good, h]
    rename_i h
    rw [InStream.getline_of_not_good hgood] at h
    simp [InStream.fail] at h

theorem InStream.lines_of_not_good {s : InStream α} (h : s.good = false) (line : List α) :
    s.lines delim line = [] := by
  rw [InStream.lines, InStream.getline_of_not_good h]
  exact if_pos rfl

/-- The loop gets the pieces of what is left in the stream. -/
theorem InStream.lines_eq {s : InStream α} (h : s.Ready) (hrest : s.rest = text) (line : List α) :
    s.lines delim line = pieces delim text := by
  induction text using lines_induction delim generalizing s line with
  | last l hl =>
    obtain ⟨hgot, heof, hfail⟩ := InStream.getline_last h hrest hl line
    rw [InStream.lines, hfail, pieces_of_not_mem hl]
    cases l with
    | nil => rfl
    | cons c l =>
      have hgood : (s.getline delim line).1.good = false := by simp [InStream.good, heof]
      rw [hgot, InStream.lines_of_not_good hgood]
      rfl
  | line l r hl ih =>
    obtain ⟨hgot, hready, hrest'⟩ := InStream.getline_line h hrest hl line
    have hfail : (s.getline delim line).1.fail = false :=
      Bool.or_eq_false_iff.mpr ⟨hready.failbit, hready.badbit⟩
    rw [InStream.lines, hfail, if_neg Bool.false_ne_true, hgot, pieces_line hl, ih hready hrest']

/-- Each line's end has something before it. -/
def withReturns (delim ret : α) (text : List α) : List α :=
  text.flatMap fun c => if c = delim then [ret, delim] else [c]

theorem withReturns_of_not_mem {ret : α} (h : delim ∉ text) : withReturns delim ret text = text := by
  induction text with
  | nil => rfl
  | cons c text ih =>
    rw [List.mem_cons, not_or] at h
    rw [withReturns, List.flatMap_cons, if_neg (Ne.symm h.1), ← withReturns, ih h.2]
    rfl

theorem withReturns_line {ret : α} {l : List α} (h : delim ∉ l) (r : List α) :
    withReturns delim ret (l ++ delim :: r) = (l ++ [ret]) ++ delim :: withReturns delim ret r := by
  rw [withReturns, List.flatMap_append, List.flatMap_cons, ← withReturns, ← withReturns,
    withReturns_of_not_mem h, if_pos rfl]
  simp

end Lines

/-! ## The ends of a line -/

section Strip

variable (p : α → Bool)

/-- What is left between the first and the last thing that stays. -/
def strip (l : List α) : List α := (l.dropWhile p).rdropWhile p

variable {p} {l before after : List α}

theorem strip_append_left (h : ∀ c ∈ before, p c = true) : strip p (before ++ l) = strip p l := by
  rw [strip, List.dropWhile_append_of_pos h, strip]

theorem rdropWhile_append (h : ∀ c ∈ after, p c = true) : (l ++ after).rdropWhile p = l.rdropWhile p := by
  have hreverse : ∀ c ∈ after.reverse, p c = true := fun c hc => h c (List.mem_reverse.mp hc)
  rw [List.rdropWhile, List.reverse_append, List.dropWhile_append_of_pos hreverse, List.rdropWhile]

theorem strip_append_right (h : ∀ c ∈ after, p c = true) : strip p (l ++ after) = strip p l := by
  rw [strip, List.dropWhile_append, strip]
  split
  · rename_i hnil
    rw [List.isEmpty_iff.mp hnil, List.dropWhile_eq_nil_iff.mpr h]
  · exact rdropWhile_append h

/-- A line is what is left of it, and what was dropped. -/
theorem exists_strip (p : α → Bool) (l : List α) : ∃ before after, (∀ c ∈ before, p c = true)
    ∧ (∀ c ∈ after, p c = true) ∧ l = before ++ (strip p l ++ after) := by
  refine ⟨l.takeWhile p, (l.dropWhile p).rtakeWhile p, fun c hc => List.mem_takeWhile_imp hc,
    fun c hc => List.mem_rtakeWhile_imp hc, ?_⟩
  rw [strip, List.rdropWhile_append_rtakeWhile, List.takeWhile_append_dropWhile]

end Strip

end MediaArchiver.Lib
