/-
# MediaArchiver.Lib.Stdio -- a pipe that is read with fgets

`fgets` takes a line, or as much of it as there is room for. It meets the end of the pipe only if it looks
for more, so a last piece that fills the buffer does not set the flag. The next call does, finds nothing, and
leaves the buffer as it is.

A loop that goes on until the flag is set gets everything, but takes the buffer for a C string: what it hears
is what was written exactly if there is no zero in it (`heard_eq_iff`). Whether its last call finds something
depends on the length of the last line alone (`Drains.last_eq_nil_iff`).
-/
import Mathlib.Data.List.DropRight

namespace MediaArchiver.Lib

/-! ## C strings -/

/-- The character that ends a C string. -/
def nul : Char := Char.ofNat 0

/-- The C string in a buffer. -/
def cText (buffer : List Char) : List Char := buffer.takeWhile (· ≠ nul)

theorem cText_of_not_mem {buffer : List Char} (h : nul ∉ buffer) : cText buffer = buffer := by
  refine List.takeWhile_eq_self_iff.mpr fun c hc => decide_eq_true fun hnul => ?_
  exact h (hnul ▸ hc)

theorem length_cText_le (buffer : List Char) : (cText buffer).length ≤ buffer.length :=
  (List.takeWhile_prefix _).length_le

theorem length_cText_lt {buffer : List Char} (h : nul ∈ buffer) : (cText buffer).length < buffer.length := by
  refine Nat.lt_of_le_of_ne (length_cText_le buffer) fun heq => ?_
  have hall : cText buffer = buffer := (List.takeWhile_prefix _).eq_of_length heq
  exact of_decide_eq_true (List.takeWhile_eq_self_iff.mp hall nul h) rfl

/-! ## fgets -/

/-- What is left in a pipe that nobody writes to any more, and whether its end was met. -/
structure Pipe where
  rest : List Char
  eof : Bool

namespace Pipe

/-- A pipe that was written to. -/
def opened (written : List Char) : Pipe := ⟨written, false⟩

/-- Take characters up to the end of a line, as long as there is room: what was taken, what is left, and
whether the end was met. -/
def takeLine : Nat → List Char → List Char × List Char × Bool
  | 0, s => ([], s, false)
  | _ + 1, [] => ([], [], true)
  | n + 1, c :: s =>
      if c = '\n' then ([c], s, false)
      else (c :: (takeLine n s).1, (takeLine n s).2.1, (takeLine n s).2.2)

/-- `fgets` with a buffer of the given size, and a null pointer if it finds nothing. -/
def fgets (size : Nat) (s : Pipe) : Pipe × Option (List Char) :=
  let (got, rest, ended) := takeLine (size - 1) s.rest
  (⟨rest, s.eof || ended⟩, if got = [] then none else some got)

theorem takeLine_append (n : Nat) (s : List Char) : (takeLine n s).1 ++ (takeLine n s).2.1 = s := by
  induction s generalizing n with
  | nil => cases n <;> rfl
  | cons c s ih =>
    cases n with
    | zero => rfl
    | succ n =>
      unfold takeLine
      split
      · rfl
      · exact congrArg (c :: ·) (ih n)

/-- The ways in which a line can end: the buffer is full, the line was there, or the pipe has ended. -/
theorem takeLine_cases (n : Nat) (s : List Char) :
    ((takeLine n s).2.2 = false ∧ (takeLine n s).1.length = n ∧ '\n' ∉ (takeLine n s).1) ∨
      ((takeLine n s).2.2 = false ∧ ∃ line, (takeLine n s).1 = line ++ ['\n']) ∨
      ((takeLine n s).2.2 = true ∧ (takeLine n s).2.1 = [] ∧ (takeLine n s).1.length < n ∧
        '\n' ∉ (takeLine n s).1) := by
  induction s generalizing n with
  | nil =>
    cases n with
    | zero => exact Or.inl ⟨rfl, rfl, List.not_mem_nil⟩
    | succ n => exact Or.inr (Or.inr ⟨rfl, rfl, Nat.succ_pos n, List.not_mem_nil⟩)
  | cons c s ih =>
    cases n with
    | zero => exact Or.inl ⟨rfl, rfl, List.not_mem_nil⟩
    | succ n =>
      unfold takeLine
      by_cases hc : c = '\n'
      · rw [if_pos hc]
        exact Or.inr (Or.inl ⟨rfl, [], by rw [hc]; rfl⟩)
      · rw [if_neg hc]
        have hcons : ∀ {l : List Char}, '\n' ∉ l → '\n' ∉ c :: l := by
          intro l hl hmem
          exact (List.mem_cons.mp hmem).elim (fun h => hc h.symm) hl
        rcases ih n with ⟨hended, hlen, hline⟩ | ⟨hended, line, hline⟩ | ⟨hended, hrest, hlen, hline⟩
        · exact Or.inl ⟨hended, congrArg Nat.succ hlen, hcons hline⟩
        · exact Or.inr (Or.inl ⟨hended, c :: line, congrArg (c :: ·) hline⟩)
        · exact Or.inr (Or.inr ⟨hended, hrest, Nat.succ_lt_succ hlen, hcons hline⟩)

/-- What `fgets` finds, if there is room for a character: a full buffer or a line, or what was left. -/
theorem fgets_cases {size : Nat} (hsize : 1 < size) (s : Pipe) :
    (∃ got, s.fgets size = (⟨(s.fgets size).1.rest, s.eof⟩, some got) ∧ s.rest = got ++ (s.fgets size).1.rest ∧
        ((got.length = size - 1 ∧ '\n' ∉ got) ∨ ∃ line, got = line ++ ['\n'])) ∨
      s.fgets size = (⟨[], true⟩, if s.rest = [] then none else some s.rest) ∧ s.rest.length < size - 1 ∧
        '\n' ∉ s.rest := by
  have happend := takeLine_append (size - 1) s.rest
  rcases takeLine_cases (size - 1) s.rest with ⟨hended, hfull⟩ | ⟨hended, hline⟩ | ⟨hended, hrest, hlast⟩
  · refine Or.inl ⟨_, ?_, happend.symm, Or.inl hfull⟩
    have hne : (takeLine (size - 1) s.rest).1 ≠ [] := List.ne_nil_of_length_pos (by omega)
    simp only [fgets, hended, Bool.or_false, if_neg hne]
  · refine Or.inl ⟨_, ?_, happend.symm, Or.inr hline⟩
    obtain ⟨line, hline⟩ := hline
    have hne : (takeLine (size - 1) s.rest).1 ≠ [] := by
      rw [hline]
      exact List.append_ne_nil_of_right_ne_nil _ (List.cons_ne_nil _ _)
    simp only [fgets, hended, Bool.or_false, if_neg hne]
  · rw [hrest, List.append_nil] at happend
    rw [happend] at hlast
    refine Or.inr ⟨?_, hlast⟩
    simp only [fgets, hended, Bool.or_true, hrest, happend]

/-! ## A loop until the end -/

/-- How often `fgets` can be called before the flag is set. -/
def left (s : Pipe) : Nat := s.rest.length + if s.eof then 0 else 1

theorem left_fgets {size : Nat} (hsize : 1 < size) {s : Pipe} (heof : ¬ s.eof = true) :
    (s.fgets size).1.left < s.left := by
  rcases fgets_cases hsize s with ⟨got, heq, hrest, hgot⟩ | ⟨heq, -⟩
  · have hlen := congrArg List.length hrest
    have hpos : 0 < got.length := by
      rcases hgot with ⟨hfull, -⟩ | ⟨line, rfl⟩
      · omega
      · rw [List.length_append]
        exact Nat.succ_pos _
    rw [List.length_append] at hlen
    rw [heq]
    simp only [left, heof]
    omega
  · rw [heq]
    simp only [left, heof]
    exact Nat.succ_pos _

/-- What a loop hears that clears its buffer, calls `fgets` and reads the C string in the buffer, until the
end was met. -/
def heard (size : Nat) (hsize : 1 < size) (s : Pipe) : List Char :=
  if s.eof then []
  else cText ((s.fgets size).2.getD []) ++ heard size hsize (s.fgets size).1
termination_by s.left
decreasing_by exact left_fgets hsize ‹_›

/-- Once the end was met nothing is left. -/
def Sound (s : Pipe) : Prop := s.eof = true → s.rest = []

theorem sound_opened (written : List Char) : (opened written).Sound := nofun

/-- What was found and what is left is what was left before. -/
theorem getD_fgets_append {size : Nat} (hsize : 1 < size) (s : Pipe) :
    (s.fgets size).2.getD [] ++ (s.fgets size).1.rest = s.rest := by
  rcases fgets_cases hsize s with ⟨got, heq, hrest, -⟩ | ⟨heq, -⟩
  · rw [hrest, heq]
    rfl
  · rw [heq]
    by_cases hnil : s.rest = []
    · rw [if_pos hnil, hnil]
      rfl
    · rw [if_neg hnil]
      exact List.append_nil _

theorem Sound.fgets {size : Nat} (hsize : 1 < size) {s : Pipe} (h : s.Sound) : (s.fgets size).1.Sound := by
  intro hended
  rcases fgets_cases hsize s with ⟨got, heq, hrest, -⟩ | ⟨heq, -⟩
  · rw [heq] at hended
    have hnil := h hended
    rw [hrest, List.append_eq_nil_iff] at hnil
    exact hnil.2
  · rw [heq]

theorem length_heard_le {size : Nat} (hsize : 1 < size) (s : Pipe) :
    (s.heard size hsize).length ≤ s.rest.length := by
  fun_induction heard size hsize s with
  | case1 s heof => exact Nat.zero_le _
  | case2 s heof ih =>
    have hgot := length_cText_le ((s.fgets size).2.getD [])
    have hrest := congrArg List.length (getD_fgets_append hsize s)
    rw [List.length_append] at hrest ⊢
    omega

/-- The loop hears everything exactly if there is no zero in it. -/
theorem Sound.heard_eq_iff {size : Nat} (hsize : 1 < size) {s : Pipe} (h : s.Sound) :
    s.heard size hsize = s.rest ↔ nul ∉ s.rest := by
  fun_induction heard size hsize s with
  | case1 s heof =>
    rw [h heof]
    exact iff_of_true rfl List.not_mem_nil
  | case2 s heof ih =>
    have hrest := getD_fgets_append hsize s
    by_cases hnul : nul ∈ (s.fgets size).2.getD []
    · refine iff_of_false (fun heq => ?_) fun hnot => hnot (hrest ▸ List.mem_append_left _ hnul)
      -- what stands behind the zero is missing, and nothing makes up for it
      have hlt := length_cText_lt hnul
      have hle := length_heard_le hsize (s.fgets size).1
      rw [← hrest] at heq
      have hlen := congrArg List.length heq
      rw [List.length_append, List.length_append] at hlen
      omega
    · rw [cText_of_not_mem hnul, ← hrest, List.append_cancel_left_eq, ih (h.fgets hsize), List.mem_append,
        not_or]
      exact (and_iff_right hnul).symm

theorem heard_eq_iff {size : Nat} (hsize : 1 < size) (written : List Char) :
    (opened written).heard size hsize = written ↔ nul ∉ written :=
  (sound_opened written).heard_eq_iff hsize

/-! ## What the last call finds -/

/-- The line at the end that is not finished. -/
def unfinished (s : List Char) : List Char := s.rtakeWhile (· ≠ '\n')

theorem unfinished_of_not_mem {s : List Char} (h : '\n' ∉ s) : unfinished s = s := by
  refine List.rtakeWhile_eq_self_iff.mpr fun c hc => decide_eq_true fun heq => ?_
  exact h (heq ▸ hc)

/-- A line that is finished does not count. -/
theorem unfinished_line_append (line s : List Char) : unfinished (line ++ ['\n'] ++ s) = unfinished s := by
  induction s using List.reverseRecOn with
  | nil =>
    rw [List.append_nil]
    exact List.rtakeWhile_concat_neg _ _ _ (by simp)
  | append_singleton s c ih =>
    unfold unfinished at ih ⊢
    rw [← List.append_assoc, List.rtakeWhile_concat, List.rtakeWhile_concat, ih]

/-- A piece of a line counts if the line is not finished later. -/
theorem length_unfinished_append {l : List Char} (h : '\n' ∉ l) (s : List Char) :
    (unfinished (l ++ s)).length = (unfinished s).length + if '\n' ∈ s then 0 else l.length := by
  by_cases hs : '\n' ∈ s
  · obtain ⟨a, b, rfl⟩ := List.append_of_mem hs
    have hcut : ∀ line : List Char, line ++ '\n' :: b = line ++ ['\n'] ++ b := by simp
    rw [if_pos hs, ← List.append_assoc, hcut, unfinished_line_append, hcut, unfinished_line_append,
      Nat.add_zero]
  · have hnot : '\n' ∉ l ++ s := fun hmem => (List.mem_append.mp hmem).elim h hs
    rw [if_neg hs, unfinished_of_not_mem hs, unfinished_of_not_mem hnot, List.length_append, Nat.add_comm]

/-- The calls until one meets the end: what they find, and what the last one does. -/
inductive Drains (size : Nat) : Pipe → List (List Char) → List Char → Prop
  | last {s : Pipe} (heof : (s.fgets size).1.eof = true) : Drains size s [] ((s.fgets size).2.getD [])
  | more {s : Pipe} {gots : List (List Char)} {last : List Char} (heof : (s.fgets size).1.eof = false)
      (h : Drains size (s.fgets size).1 gots last) : Drains size s ((s.fgets size).2.getD [] :: gots) last

theorem Drains.flatten_append {size : Nat} (hsize : 1 < size) {s : Pipe} {gots : List (List Char)}
    {last : List Char} (h : Drains size s gots last) (hgoing : s.eof = false) :
    gots.flatten ++ last = s.rest := by
  induction h with
  | @last s heof =>
    rcases fgets_cases hsize s with ⟨got, heq, -⟩ | ⟨heq, -⟩
    · rw [heq] at heof
      cases hgoing.symm.trans heof
    · have hrest := getD_fgets_append hsize s
      rw [heq] at hrest ⊢
      exact (List.append_nil _).symm.trans hrest
  | @more s gots last heof h ih =>
    rw [List.flatten_cons, List.append_assoc, ih heof]
    exact getD_fgets_append hsize s

/-- The last call finds nothing exactly if the line that is not finished fills the buffer a number of times. -/
theorem Drains.last_eq_nil_iff {size : Nat} (hsize : 1 < size) {s : Pipe} {gots : List (List Char)}
    {last : List Char} (h : Drains size s gots last) (hgoing : s.eof = false) :
    last = [] ↔ size - 1 ∣ (unfinished s.rest).length := by
  induction h with
  | @last s heof =>
    rcases fgets_cases hsize s with ⟨got, heq, -⟩ | ⟨heq, hlen, hline⟩
    · rw [heq] at heof
      cases hgoing.symm.trans heof
    · rw [heq, unfinished_of_not_mem hline]
      by_cases hnil : s.rest = []
      · rw [if_pos hnil, hnil]
        exact iff_of_true rfl (Nat.dvd_zero _)
      · rw [if_neg hnil]
        refine iff_of_false hnil fun hdvd => hnil ?_
        exact List.length_eq_zero_iff.mp (Nat.eq_zero_of_dvd_of_lt hdvd hlen)
  | @more s gots last heof h ih =>
    rw [ih heof]
    rcases fgets_cases hsize s with ⟨got, heq, hrest, ⟨hfull, hline⟩ | ⟨line, rfl⟩⟩ | ⟨heq, -⟩
    · rw [hrest, length_unfinished_append hline]
      split
      · rw [Nat.add_zero]
      · rw [hfull, Nat.dvd_add_left (Nat.dvd_refl _)]
    · rw [hrest, unfinished_line_append]
    · rw [heq] at heof
      cases heof

end Pipe

end MediaArchiver.Lib
