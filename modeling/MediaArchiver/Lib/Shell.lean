/-
# MediaArchiver.Lib.Shell -- how a shell splits a command line into words

The quoting rules of a POSIX shell as an automaton: a mode and a character give the next mode and the
tokens that end there. What the shell would replace by something else (parameters, commands, patterns,
tildes) is not a word that stands in the text, so the automaton gives up there. Outside of quotes a newline
is an operator, as it ends the command.

A string between double quotes is read as it is exactly if it is `Plain`. That this is enough is an
induction along the string (`split_double`). That it is needed for a whole command line follows by counting
(`Balance`): every quotation mark, every blank that separates two words and every backslash that quotes
something is a character of the line that stands in no word.

The same for a word without quotes, which must be `Bare` (`split_bare`), and for a string between single
quotes, which must not have one in it (`split_singleQuoted_iff`).
-/
import Mathlib.Data.List.Basic

namespace MediaArchiver.Lib

namespace Shell

/-! ## The automaton -/

/-- A token: a word with its quotes removed, or a character that ends or connects commands. -/
inductive Token where
  | word (w : List Char)
  | operator (c : Char)
deriving DecidableEq

/-- Where the shell is in the line. The words are what was read of the current one. -/
inductive Mode where
  | blank
  | blankBackslash
  | comment
  | word (w : List Char)
  | backslash (w : List Char)
  | dollar (w : List Char)
  | single (w : List Char)
  | double (w : List Char)
  | doubleBackslash (w : List Char)
  | doubleDollar (w : List Char)
deriving DecidableEq

def quote : Char := '\x27'
def mark : Char := '\x22'
def backquote : Char := '\x60'

/-- The characters that make an expansion of a dollar sign before them. -/
def startsExpansion (c : Char) : Bool := c.isAlphanum || "_@*#?-$!\x7b(".toList.contains c

/-- The characters that a backslash quotes between double quotes. A newline goes with its backslash. -/
def escapable (c : Char) : Bool := [mark, backquote, '$', '\\', '\n'].contains c

def isBlank (c : Char) : Bool := c = ' ' || c = '\t'

/-- The characters that end a word and are a token. -/
def isOperator (c : Char) : Bool := "\n;&|<>()".toList.contains c

/-- The characters of a pattern. -/
def isPattern (c : Char) : Bool := "*?[".toList.contains c

/-- A character of a word, outside of quotes. -/
def inWord (w : List Char) (c : Char) : Option (List Token × Mode) :=
  if c = '\\' then some ([], .backslash w)
  else if c = quote then some ([], .single w)
  else if c = mark then some ([], .double w)
  else if c = backquote then none
  else if c = '$' then some ([], .dollar w)
  else if isPattern c then none
  else some ([], .word (w ++ [c]))

/-- A character behind the start of a word. -/
def afterWord (w : List Char) (c : Char) : Option (List Token × Mode) :=
  if isBlank c then some ([.word w], .blank)
  else if isOperator c then some ([.word w, .operator c], .blank)
  else inWord w c

/-- A character between double quotes. -/
def inDouble (w : List Char) (c : Char) : Option (List Token × Mode) :=
  if c = mark then some ([], .word w)
  else if c = backquote then none
  else if c = '$' then some ([], .doubleDollar w)
  else if c = '\\' then some ([], .doubleBackslash w)
  else some ([], .double (w ++ [c]))

/-- One character. -/
def step : Mode → Char → Option (List Token × Mode)
  | .blank, c =>
      if c = '#' then some ([], .comment)
      else if isBlank c then some ([], .blank)
      else if isOperator c then some ([.operator c], .blank)
      else if c = '~' then none
      else if c = '\\' then some ([], .blankBackslash)
      else inWord [] c
  | .blankBackslash, c => if c = '\n' then some ([], .blank) else some ([], .word [c])
  | .comment, c => if c = '\n' then some ([.operator c], .blank) else some ([], .comment)
  | .word w, c => afterWord w c
  | .backslash w, c => if c = '\n' then some ([], .word w) else some ([], .word (w ++ [c]))
  | .dollar w, c =>
      if startsExpansion c || c = quote || c = mark then none else afterWord (w ++ ['$']) c
  | .single w, c => if c = quote then some ([], .word w) else some ([], .single (w ++ [c]))
  | .double w, c => inDouble w c
  | .doubleBackslash w, c =>
      if c = '\n' then some ([], .double w)
      else if escapable c then some ([], .double (w ++ [c]))
      else some ([], .double (w ++ ['\\', c]))
  | .doubleDollar w, c => if startsExpansion c then none else inDouble (w ++ ['$']) c

/-- The end of the line. -/
def finish : Mode → Option (List Token)
  | .blank | .comment => some []
  | .blankBackslash => some [.word ['\\']]
  | .word w => some [.word w]
  | .backslash w => some [.word (w ++ ['\\'])]
  | .dollar w => some [.word (w ++ ['$'])]
  | .single _ | .double _ | .doubleBackslash _ | .doubleDollar _ => none

/-- The tokens of a line. -/
def split : Mode → List Char → Option (List Token)
  | m, [] => finish m
  | m, c :: s =>
      match step m c with
      | none => none
      | some (ts, m') => (split m' s).map (ts ++ ·)

/-! ## Plain strings -/

/-- The character behind a backslash or a dollar sign; the last one stands before the closing quotes. -/
def nextChar (s : List Char) : Char := s.headD mark

/-- Nothing in the string means anything between double quotes. -/
def Plain : List Char → Prop
  | [] => True
  | c :: s =>
      c ≠ mark ∧ c ≠ backquote ∧ (c = '$' → startsExpansion (nextChar s) = false)
        ∧ (c = '\\' → escapable (nextChar s) = false) ∧ Plain s

instance decidablePlain : DecidablePred Plain
  | [] => isTrue trivial
  | _ :: s =>
      have : Decidable (Plain s) := decidablePlain s
      inferInstanceAs (Decidable (_ ∧ _ ∧ (_ → _) ∧ (_ → _) ∧ Plain s))

theorem mark_not_mem_of_plain {s : List Char} (h : Plain s) : mark ∉ s := by
  induction s with
  | nil => exact List.not_mem_nil
  | cons c s ih =>
    rw [List.mem_cons, not_or]
    exact ⟨Ne.symm h.1, ih h.2.2.2.2⟩

theorem split_of_step {m m' : Mode} {c : Char} {s : List Char} {ts : List Token}
    (h : step m c = some (ts, m')) : split m (c :: s) = (split m' s).map (ts ++ ·) := by
  rw [split, h]

theorem split_of_none {m : Mode} {c : Char} {s : List Char} (h : step m c = none) :
    split m (c :: s) = none := by
  rw [split, h]

theorem split_silent (m' : Mode) {m : Mode} {c : Char} {s : List Char} (h : step m c = some ([], m')) :
    split m (c :: s) = split m' s := by
  rw [split_of_step h]
  simp

theorem exists_tail (s rest : List Char) : ∃ tail, s ++ mark :: rest = nextChar s :: tail := by
  cases s with
  | nil => exact ⟨rest, rfl⟩
  | cons x s => exact ⟨s ++ mark :: rest, rfl⟩

/-- A character that means nothing, in a string between double quotes that goes on with `s`. -/
theorem split_ordinary {c : Char} {s rest : List Char} (w : List Char) (hmark : c ≠ mark)
    (hback : c ≠ backquote) (hdollar : c = '$' → startsExpansion (nextChar s) = false)
    (hslash : c = '\\' → escapable (nextChar s) = false) :
    split (.double w) (c :: (s ++ mark :: rest)) = split (.double (w ++ [c])) (s ++ mark :: rest) := by
  obtain ⟨tail, hnext⟩ := exists_tail s rest
  rw [hnext]
  generalize nextChar s = x at hdollar hslash
  by_cases hd : c = '$'
  · subst hd
    rw [split_silent (.doubleDollar w) rfl]
    have hstep : step (.doubleDollar w) x = step (.double (w ++ ['$'])) x := by
      simp [step, hdollar rfl]
    rw [split, split, hstep]
  by_cases hs : c = '\\'
  · subst hs
    rw [split_silent (.doubleBackslash w) rfl]
    have hstep : step (.doubleBackslash w) x = step (.double (w ++ ['\\'])) x := by
      have hplain := hslash rfl
      simp only [escapable, List.contains_eq_mem, List.mem_cons, List.not_mem_nil, or_false,
        decide_eq_false_iff_not, not_or] at hplain
      simp [step, inDouble, escapable, hplain]
    rw [split, split, hstep]
  · have hstep : step (.double w) c = some ([], .double (w ++ [c])) := by
      simp [step, inDouble, hmark, hback, hd, hs]
    exact split_silent _ hstep

/-- A plain string between double quotes is read as it is. -/
theorem split_double {s : List Char} (h : Plain s) (w rest : List Char) :
    split (.double w) (s ++ mark :: rest) = split (.word (w ++ s)) rest := by
  induction s generalizing w with
  | nil =>
    rw [List.nil_append, List.append_nil]
    exact split_silent (.word w) (by simp [step, inDouble])
  | cons c s ih =>
    obtain ⟨hmark, hback, hdollar, hslash, hs⟩ := h
    rw [List.cons_append, split_ordinary w hmark hback hdollar hslash, ih hs, List.append_assoc,
      List.singleton_append]

/-! ## Counting -/

/-- The characters that the words take, and one more for each word. -/
def size : List Token → Nat
  | [] => 0
  | .word w :: ts => w.length + 1 + size ts
  | .operator _ :: ts => size ts

/-- The quotation marks in the words. -/
def marks : List Token → Nat
  | [] => 0
  | .word w :: ts => w.count mark + marks ts
  | .operator _ :: ts => marks ts

theorem size_append (ts us : List Token) : size (ts ++ us) = size ts + size us := by
  induction ts with
  | nil => simp [size]
  | cons t ts ih => cases t <;> (simp [size, ih]; try omega)

theorem marks_append (ts us : List Token) : marks (ts ++ us) = marks ts + marks us := by
  induction ts with
  | nil => simp [marks]
  | cons t ts ih => cases t <;> (simp [marks, ih]; try omega)

/-- What was read of the current word. -/
def Mode.pending : Mode → List Char
  | .blank | .blankBackslash | .comment => []
  | .word w | .backslash w | .single w | .double w | .doubleBackslash w => w
  | .dollar w | .doubleDollar w => w ++ ['$']

/-- A backslash that may turn out to be a character of the word. -/
def Mode.credit : Mode → Nat
  | .blankBackslash | .backslash _ | .doubleBackslash _ => 1
  | _ => 0

/-- What the mode may still bring into a word without a further character. -/
def Mode.budget (m : Mode) : Nat := m.pending.length + m.credit

/-- Neither between single quotes nor in a comment. -/
def Mode.Quiet : Mode → Prop
  | .single _ | .comment => False
  | _ => True

/-- A character adds at most itself to the words. Where it does, so that nothing is lost, it is not a
quotation mark that gets into a word. -/
def Balanced (w : List Char) (credit : Nat) (c : Char) (ts : List Token) (m' : Mode) : Prop :=
  size ts + m'.budget + [c].count mark + w.count mark
      ≤ w.length + credit + 1 + marks ts + m'.pending.count mark ∧
    (size ts + m'.budget + [c].count mark + w.count mark
        = w.length + credit + 1 + marks ts + m'.pending.count mark →
      m'.Quiet ∧ marks ts + m'.pending.count mark = w.count mark)

theorem balanced_inWord {w : List Char} {c : Char} {ts : List Token} {m' : Mode}
    (h : inWord w c = some (ts, m')) : Balanced w 0 c ts m' := by
  unfold inWord at h
  split_ifs at h <;> cases h <;>
    simp_all [Balanced, size, marks, Mode.budget, Mode.pending, Mode.credit, Mode.Quiet, quote, mark,
      List.count_append]

theorem balanced_inDouble {w : List Char} {c : Char} {ts : List Token} {m' : Mode}
    (h : inDouble w c = some (ts, m')) : Balanced w 0 c ts m' := by
  unfold inDouble at h
  split_ifs at h <;> cases h <;>
    simp_all [Balanced, size, marks, Mode.budget, Mode.pending, Mode.credit, Mode.Quiet, mark,
      List.count_append]

theorem balanced_afterWord {w : List Char} {c : Char} {ts : List Token} {m' : Mode}
    (h : afterWord w c = some (ts, m')) : Balanced w 0 c ts m' := by
  unfold afterWord at h
  split_ifs at h with hblank hop
  · have hmark : c ≠ mark := by
      rintro rfl
      exact absurd hblank (by decide)
    cases h
    simp [Balanced, size, marks, Mode.budget, Mode.pending, Mode.credit, Mode.Quiet, hmark]
  · have hmark : c ≠ mark := by
      rintro rfl
      exact absurd hop (by decide)
    cases h
    simp [Balanced, size, marks, Mode.budget, Mode.pending, Mode.credit, Mode.Quiet, hmark]
  · exact balanced_inWord h

/-- A character that is no quotation mark and starts a new word, or none. -/
theorem ne_mark_of {p : Char → Bool} {c : Char} (hc : p c = true) (hmark : p mark = false) : c ≠ mark := by
  rintro rfl
  rw [hmark] at hc
  cases hc

theorem balanced_step {m m' : Mode} {c : Char} {ts : List Token} (hquiet : m.Quiet)
    (h : step m c = some (ts, m')) : Balanced m.pending m.credit c ts m' := by
  cases m with
  | blank =>
    simp only [step] at h
    split_ifs at h with hcomment hblank hop htilde hslash
    · cases h
      simp [Balanced, size, marks, Mode.budget, Mode.pending, Mode.credit, hcomment, mark]
    · have hmark := ne_mark_of hblank (by decide)
      cases h
      simp [Balanced, size, marks, Mode.budget, Mode.pending, Mode.credit, hmark]
    · have hmark := ne_mark_of hop (by decide)
      cases h
      simp [Balanced, size, marks, Mode.budget, Mode.pending, Mode.credit, hmark]
    · cases h
      simp [Balanced, size, marks, Mode.budget, Mode.pending, Mode.credit, Mode.Quiet, hslash, mark]
    · exact balanced_inWord h
  | blankBackslash =>
    simp only [step] at h
    split_ifs at h with hnewline
    · cases h
      simp [Balanced, size, marks, Mode.budget, Mode.pending, Mode.credit, hnewline, mark]
    · cases h
      simp only [Balanced, size, marks, Mode.budget, Mode.pending, Mode.credit, Mode.Quiet]
      by_cases hc : c = mark <;> simp [hc]
  | comment => exact absurd hquiet id
  | word w => exact balanced_afterWord h
  | backslash w =>
    simp only [step] at h
    split_ifs at h with hnewline
    · cases h
      have hnone : [c].count mark = 0 := by simp [hnewline, mark]
      simp only [Balanced, size, marks, Mode.budget, Mode.pending, Mode.credit, hnone]
      exact ⟨by omega, fun heq => by omega⟩
    · cases h
      simp only [Balanced, size, marks, Mode.budget, Mode.pending, Mode.credit, Mode.Quiet]
      by_cases hc : c = mark <;> simp [hc, List.count_append]
  | dollar w =>
    simp only [step] at h
    split_ifs at h
    exact balanced_afterWord h
  | single w => exact absurd hquiet id
  | double w => exact balanced_inDouble h
  | doubleBackslash w =>
    simp only [step] at h
    split_ifs at h with hnewline hescapable
    · cases h
      have hnone : [c].count mark = 0 := by simp [hnewline, mark]
      simp only [Balanced, size, marks, Mode.budget, Mode.pending, Mode.credit, hnone]
      exact ⟨by omega, fun heq => by omega⟩
    · cases h
      simp only [Balanced, size, marks, Mode.budget, Mode.pending, Mode.credit, Mode.Quiet]
      by_cases hc : c = mark <;> simp [hc, List.count_append]
    · have hmark : c ≠ mark := by
        rintro rfl
        exact hescapable (by decide)
      cases h
      have hnone : ['\\', c].count mark = 0 := by
        rw [List.count_eq_zero]
        simp only [List.mem_cons, List.not_mem_nil, or_false, not_or]
        exact ⟨by decide, Ne.symm hmark⟩
      simp [Balanced, size, marks, Mode.budget, Mode.pending, Mode.credit, Mode.Quiet, hmark, hnone,
        List.count_append]
  | doubleDollar w =>
    simp only [step] at h
    split_ifs at h
    exact balanced_inDouble h

/-- No character adds more than itself. -/
theorem step_le {m m' : Mode} {c : Char} {ts : List Token} (h : step m c = some (ts, m')) :
    size ts + m'.budget + [c].count mark + m.pending.count mark
      ≤ m.budget + 1 + marks ts + m'.pending.count mark := by
  by_cases hquiet : m.Quiet
  · exact (balanced_step hquiet h).1
  cases m with
  | comment =>
    simp only [step] at h
    split_ifs at h with hnewline
    · cases h
      simp [size, marks, Mode.budget, Mode.pending, Mode.credit, hnewline, mark]
    · cases h
      by_cases hc : c = mark <;> simp [size, marks, Mode.budget, Mode.pending, Mode.credit, hc]
  | single w =>
    simp only [step] at h
    split_ifs at h with hquote
    · cases h
      simp [size, marks, Mode.budget, Mode.pending, Mode.credit, hquote, quote, mark]
    · cases h
      simp only [size, marks, Mode.budget, Mode.pending, Mode.credit, List.count_append,
        List.length_append, List.length_singleton]
      omega
  | _ => exact absurd trivial hquiet

/-- The line has a character for each one in the words, for each blank between two of them, and for each
quotation mark that is in no word. -/
theorem split_le {m : Mode} {s : List Char} {ts : List Token} (h : split m s = some ts) :
    size ts + s.count mark + m.pending.count mark ≤ m.budget + s.length + 1 + marks ts := by
  induction s generalizing m ts with
  | nil =>
    cases m <;> cases h <;> simp [size, marks, Mode.budget, Mode.pending, Mode.credit, List.count_append]
  | cons c s ih =>
    cases hstep : step m c with
    | none =>
      rw [split_of_none hstep] at h
      cases h
    | some r =>
      obtain ⟨us, m'⟩ := r
      rw [split_of_step hstep] at h
      obtain ⟨vs, hvs, rfl⟩ := Option.map_eq_some_iff.mp h
      have hfirst := step_le hstep
      have hrest := ih hvs
      rw [size_append, marks_append, ← List.singleton_append, List.count_append, List.length_append,
        List.length_singleton]
      omega

/-- Where nothing is lost, no quotation mark gets into a word. -/
theorem marks_of_tight {m : Mode} {s : List Char} {ts : List Token} (hquiet : m.Quiet)
    (h : split m s = some ts)
    (htight : size ts + s.count mark + m.pending.count mark = m.budget + s.length + 1 + marks ts) :
    marks ts = m.pending.count mark := by
  induction s generalizing m ts with
  | nil =>
    cases m <;> cases h <;>
      simp_all [size, marks, Mode.budget, Mode.pending, Mode.credit, List.count_append]
  | cons c s ih =>
    cases hstep : step m c with
    | none =>
      rw [split_of_none hstep] at h
      cases h
    | some r =>
      obtain ⟨us, m'⟩ := r
      rw [split_of_step hstep] at h
      obtain ⟨vs, hvs, rfl⟩ := Option.map_eq_some_iff.mp h
      obtain ⟨hfirst, hlost⟩ := balanced_step hquiet hstep
      have hrest := split_le hvs
      rw [size_append, marks_append, ← List.singleton_append, List.count_append, List.length_append,
        List.length_singleton] at htight
      rw [Mode.budget] at htight
      obtain ⟨hquiet', hmarks⟩ := hlost (by omega)
      have hlater := ih hquiet' hvs (by omega)
      rw [marks_append]
      omega

/-! ## Command lines -/

/-- A backslash that quotes something is lost. -/
theorem not_tight_of_escapable {x : Char} {w tail : List Char} {ts : List Token} (hx : escapable x = true)
    (h : split (.doubleBackslash w) (x :: tail) = some ts) :
    size ts + (x :: tail).count mark + w.count mark < w.length + tail.length + 3 + marks ts := by
  rw [← List.singleton_append, List.count_append]
  by_cases hnewline : x = '\n'
  · rw [split_silent (.double w) (by simp [step, hnewline])] at h
    have hrest := split_le h
    have hzero : [x].count mark = 0 := by simp [hnewline, mark]
    simp only [Mode.budget, Mode.pending, Mode.credit] at hrest
    omega
  · rw [split_silent (.double (w ++ [x])) (by simp [step, hnewline, hx])] at h
    have hrest := split_le h
    simp only [Mode.budget, Mode.pending, Mode.credit, List.count_append, List.length_append,
      List.length_singleton] at hrest
    omega

/-- Where nothing is lost, a string between double quotes that has no quotation mark is plain. -/
theorem plain_of_tight {s rest : List Char} {w : List Char} {ts : List Token} (hs : mark ∉ s)
    (h : split (.double w) (s ++ mark :: rest) = some ts)
    (htight : size ts + (s ++ mark :: rest).count mark + w.count mark
      = w.length + (s ++ mark :: rest).length + 1 + marks ts) : Plain s := by
  induction s generalizing w with
  | nil => trivial
  | cons c s ih =>
    rw [List.mem_cons, not_or] at hs
    have hmark : c ≠ mark := Ne.symm hs.1
    have hzero : [c].count mark = 0 := by simp [hmark]
    have hcount : (c :: s ++ mark :: rest).count mark = (s ++ mark :: rest).count mark := by
      rw [List.cons_append, List.count_cons_of_ne hmark]
    obtain ⟨tail, hnext⟩ := exists_tail s rest
    have hback : c ≠ backquote := by
      rintro rfl
      rw [List.cons_append, split_of_none (by simp [step, inDouble, hmark])] at h
      cases h
    have hdollar : c = '$' → startsExpansion (nextChar s) = false := by
      rintro rfl
      by_contra hstarts
      rw [List.cons_append, split_silent (.doubleDollar w) rfl, hnext,
        split_of_none (by simp [step, hstarts])] at h
      cases h
    have hslash : c = '\\' → escapable (nextChar s) = false := by
      rintro rfl
      by_contra hescapable
      rw [List.cons_append, split_silent (.doubleBackslash w) rfl, hnext] at h
      have hlost := not_tight_of_escapable (by simpa using hescapable) h
      rw [hcount, hnext, List.cons_append, hnext, List.length_cons, List.length_cons] at htight
      omega
    refine ⟨hmark, hback, hdollar, hslash, ih hs.2 (w := w ++ [c]) ?_ ?_⟩
    · rw [← split_ordinary w hmark hback hdollar hslash]
      exact h
    · rw [hcount, List.cons_append, List.length_cons] at htight
      have hword : (w ++ [c]).count mark = w.count mark := by
        rw [List.count_append, hzero, Nat.add_zero]
      rw [hword, List.length_append, List.length_singleton]
      omega

/-- A string between double quotes, and what follows. -/
def doubleQuoted (s rest : List Char) : List Char := mark :: (s ++ mark :: rest)

theorem length_doubleQuoted (s rest : List Char) :
    (doubleQuoted s rest).length = s.length + rest.length + 2 := by
  simp [doubleQuoted]
  omega

theorem count_doubleQuoted (s rest : List Char) :
    (doubleQuoted s rest).count mark = s.count mark + rest.count mark + 2 := by
  simp [doubleQuoted, List.count_append]
  omega

/-- A plain string between double quotes is a word. -/
theorem split_doubleQuoted {s : List Char} (h : Plain s) (rest : List Char) :
    split .blank (doubleQuoted s rest) = split (.word s) rest := by
  rw [doubleQuoted, split_silent (.double []) (by decide), split_double h, List.nil_append]

/-- A blank ends a word. -/
theorem split_word_space (w rest : List Char) :
    split (.word w) (' ' :: rest) = (split .blank rest).map (.word w :: ·) := by
  rw [split_of_step (show step (.word w) ' ' = some ([.word w], .blank) from rfl)]
  rfl

/-- The strings of a line are plain if nothing is lost. -/
theorem plain_of_doubleQuoted {s rest : List Char} {ts : List Token} (hs : mark ∉ s)
    (h : split .blank (doubleQuoted s rest) = some ts)
    (htight : size ts + (doubleQuoted s rest).count mark = (doubleQuoted s rest).length + 1 + marks ts) :
    Plain s := by
  rw [doubleQuoted, split_silent (.double []) (by decide)] at h
  apply plain_of_tight hs h
  rw [doubleQuoted, List.count_cons_self, List.length_cons] at htight
  simp only [List.count_nil, List.length_nil]
  omega

/-- Between double quotes the string is read as it is, whatever follows. -/
def ReadAsIs (s : List Char) : Prop :=
  ∀ rest, split .blank (doubleQuoted s rest) = split (.word s) rest

/-- A string is read as it is exactly if it is plain. -/
theorem readAsIs_iff (s : List Char) : ReadAsIs s ↔ Plain s := by
  constructor
  · intro h
    have hline : split .blank (doubleQuoted s []) = some [.word s] := h []
    have hlength := length_doubleQuoted s []
    have hcount := count_doubleQuoted s []
    have hsize : size [.word s] = s.length + 1 := rfl
    have hmarks : marks [.word s] = s.count mark := rfl
    rw [List.length_nil] at hlength
    rw [List.count_nil] at hcount
    -- the line is as long as the word and its two marks
    have hnone := marks_of_tight (m := .blank) trivial hline
      (by simp only [Mode.pending, Mode.budget, Mode.credit, List.count_nil, List.length_nil]; omega)
    rw [hmarks, Mode.pending, List.count_nil] at hnone
    exact plain_of_doubleQuoted (List.count_eq_zero.mp hnone) hline (by omega)
  · exact split_doubleQuoted

/-- Two strings between double quotes are read as they are exactly if both are plain. -/
theorem split_pair_iff (a b : List Char) :
    split .blank (doubleQuoted a (' ' :: doubleQuoted b [])) = some [.word a, .word b] ↔
      Plain a ∧ Plain b := by
  constructor
  · intro h
    have hlength : (doubleQuoted a (' ' :: doubleQuoted b [])).length = a.length + b.length + 5 := by
      simp only [length_doubleQuoted, List.length_cons, List.length_nil]
      omega
    have hcount : (doubleQuoted a (' ' :: doubleQuoted b [])).count mark
        = a.count mark + b.count mark + 4 := by
      rw [count_doubleQuoted, List.count_cons_of_ne (by decide), count_doubleQuoted, List.count_nil]
      omega
    have hsize : size [.word a, .word b] = a.length + b.length + 2 := by
      simp only [size]
      omega
    have hmarks : marks [.word a, .word b] = a.count mark + b.count mark := by
      simp only [marks]
      omega
    -- as many characters are left over as the line needs at least
    have hnone := marks_of_tight (m := .blank) trivial h
      (by simp only [Mode.pending, Mode.budget, Mode.credit, List.count_nil, List.length_nil]; omega)
    rw [hmarks, Mode.pending, List.count_nil] at hnone
    have ha : Plain a := plain_of_doubleQuoted (List.count_eq_zero.mp (by omega)) h (by omega)
    refine ⟨ha, ?_⟩
    rw [split_doubleQuoted ha, split_word_space] at h
    obtain ⟨ts, hts, heq⟩ := Option.map_eq_some_iff.mp h
    obtain rfl := (List.cons.inj heq).2
    apply plain_of_doubleQuoted (List.count_eq_zero.mp (by omega)) hts
    rw [length_doubleQuoted, count_doubleQuoted]
    simp only [size, marks, List.count_nil, List.length_nil]
    omega
  · rintro ⟨ha, hb⟩
    rw [split_doubleQuoted ha, split_word_space, split_doubleQuoted hb]
    rfl

/-! ## Words without quotes, and single quotes -/

/-- Outside of quotes the character stands for itself. -/
def stands (c : Char) : Bool :=
  !(isBlank c || isOperator c || isPattern c || ['\\', quote, mark, backquote, '$'].contains c)

/-- A word that needs no quotes. -/
structure Bare (s : List Char) : Prop where
  stands : ∀ c ∈ s, stands c = true
  head : ∀ c ∈ s.head?, c ≠ '#' ∧ c ≠ '~'
  ne_nil : s ≠ []

theorem bare_of_all {s : List Char} (hstands : s.all stands = true)
    (hhead : s.head?.all (fun c => c ≠ '#' ∧ c ≠ '~') = true) (hne : s ≠ []) : Bare s := by
  refine ⟨List.all_eq_true.mp hstands, fun c hc => ?_, hne⟩
  rw [Option.mem_def.mp hc] at hhead
  exact of_decide_eq_true hhead

theorem inWord_of_stands {c : Char} (h : stands c = true) (w : List Char) :
    inWord w c = some ([], .word (w ++ [c])) := by
  simp only [stands, List.contains_eq_mem, List.mem_cons, List.not_mem_nil, or_false, Bool.not_eq_true',
    Bool.or_eq_false_iff, decide_eq_false_iff_not, not_or] at h
  simp [inWord, h]

theorem not_separator_of_stands {c : Char} (h : stands c = true) :
    isBlank c = false ∧ isOperator c = false := by
  simp only [stands, Bool.not_eq_true', Bool.or_eq_false_iff] at h
  exact ⟨h.1.1.1, h.1.1.2⟩

theorem afterWord_of_stands {c : Char} (h : stands c = true) (w : List Char) :
    afterWord w c = some ([], .word (w ++ [c])) := by
  obtain ⟨hblank, hop⟩ := not_separator_of_stands h
  rw [afterWord, hblank, hop, inWord_of_stands h]
  rfl

theorem split_stands {s : List Char} (h : ∀ c ∈ s, stands c = true) (w rest : List Char) :
    split (.word w) (s ++ rest) = split (.word (w ++ s)) rest := by
  induction s generalizing w with
  | nil => rw [List.nil_append, List.append_nil]
  | cons c s ih =>
    rw [List.forall_mem_cons] at h
    have hstep : step (.word w) c = some ([], .word (w ++ [c])) := afterWord_of_stands h.1 w
    rw [List.cons_append, split_silent _ hstep, ih h.2, List.append_assoc, List.singleton_append]

/-- A bare word is read as it is. -/
theorem split_bare {s : List Char} (h : Bare s) (rest : List Char) :
    split .blank (s ++ rest) = split (.word s) rest := by
  obtain ⟨hstands, hhead, hne⟩ := h
  cases s with
  | nil => exact absurd rfl hne
  | cons c s =>
    rw [List.forall_mem_cons] at hstands
    obtain ⟨hcomment, htilde⟩ := hhead c rfl
    obtain ⟨hblank, hop⟩ := not_separator_of_stands hstands.1
    have hslash : c ≠ '\\' := by
      rintro rfl
      exact absurd hstands.1 (by decide)
    have hstep : step .blank c = some ([], .word [c]) := by
      simp [step, hcomment, htilde, hblank, hop, hslash, inWord_of_stands hstands.1]
    rw [List.cons_append, split_silent _ hstep, split_stands hstands.2, List.singleton_append]

/-- A bare word that a blank ends. -/
theorem split_bare_space {s : List Char} (h : Bare s) (rest : List Char) :
    split .blank (s ++ ' ' :: rest) = (split .blank rest).map (.word s :: ·) := by
  rw [split_bare h, split_word_space]

/-- What is between single quotes is read as it is. -/
theorem split_single {s : List Char} (h : quote ∉ s) (w rest : List Char) :
    split (.single w) (s ++ quote :: rest) = split (.word (w ++ s)) rest := by
  induction s generalizing w with
  | nil =>
    rw [List.nil_append, List.append_nil]
    exact split_silent (.word w) rfl
  | cons c s ih =>
    rw [List.mem_cons, not_or] at h
    have hstep : step (.single w) c = some ([], .single (w ++ [c])) := if_neg (Ne.symm h.1)
    rw [List.cons_append, split_silent _ hstep, ih h.2, List.append_assoc, List.singleton_append]

theorem budget_inWord {w : List Char} {c : Char} {ts : List Token} {m' : Mode}
    (h : inWord w c = some (ts, m')) : size ts + m'.budget ≤ w.length + 1 := by
  unfold inWord at h
  split_ifs at h <;> cases h <;> simp [size, Mode.budget, Mode.pending, Mode.credit]

theorem budget_inDouble {w : List Char} {c : Char} {ts : List Token} {m' : Mode}
    (h : inDouble w c = some (ts, m')) : size ts + m'.budget ≤ w.length + 1 := by
  unfold inDouble at h
  split_ifs at h <;> cases h <;> simp [size, Mode.budget, Mode.pending, Mode.credit]

theorem budget_afterWord {w : List Char} {c : Char} {ts : List Token} {m' : Mode}
    (h : afterWord w c = some (ts, m')) : size ts + m'.budget ≤ w.length + 1 := by
  unfold afterWord at h
  split_ifs at h
  · cases h
    simp [size, Mode.budget, Mode.pending, Mode.credit]
  · cases h
    simp [size, Mode.budget, Mode.pending, Mode.credit]
  · exact budget_inWord h

/-- A character adds at most itself. -/
theorem budget_step {m m' : Mode} {c : Char} {ts : List Token} (h : step m c = some (ts, m')) :
    size ts + m'.budget ≤ m.budget + 1 := by
  cases m with
  | blank =>
    simp only [step] at h
    split_ifs at h
    · cases h
      simp [size, Mode.budget, Mode.pending, Mode.credit]
    · cases h
      simp [size, Mode.budget, Mode.pending, Mode.credit]
    · cases h
      simp [size, Mode.budget, Mode.pending, Mode.credit]
    · cases h
      simp [size, Mode.budget, Mode.pending, Mode.credit]
    · exact budget_inWord h
  | word w => exact budget_afterWord h
  | double w => exact budget_inDouble h
  | dollar w =>
    simp only [step] at h
    split_ifs at h
    have hle := budget_afterWord h
    rw [List.length_append, List.length_singleton] at hle
    simpa [Mode.budget, Mode.pending, Mode.credit] using hle
  | doubleDollar w =>
    simp only [step] at h
    split_ifs at h
    have hle := budget_inDouble h
    rw [List.length_append, List.length_singleton] at hle
    simpa [Mode.budget, Mode.pending, Mode.credit] using hle
  | _ =>
    simp only [step] at h
    split_ifs at h <;> cases h <;> (simp [size, Mode.budget, Mode.pending, Mode.credit]; try omega)

/-- A single quote at the end of a line is lost, or a backslash before it is. -/
theorem split_quote_le {m : Mode} {s : List Char} {ts : List Token} (h : split m (s ++ [quote]) = some ts) :
    size ts ≤ m.budget + s.length + 1 := by
  induction s generalizing m ts with
  | nil =>
    cases m <;> cases h <;> simp [size, Mode.budget, Mode.pending, Mode.credit]
  | cons c s ih =>
    rw [List.cons_append] at h
    cases hstep : step m c with
    | none =>
      rw [split_of_none hstep] at h
      cases h
    | some r =>
      obtain ⟨us, m'⟩ := r
      rw [split_of_step hstep] at h
      obtain ⟨vs, hvs, rfl⟩ := Option.map_eq_some_iff.mp h
      have hfirst := budget_step hstep
      have hrest := ih hvs
      rw [size_append, List.length_cons]
      omega

/-- A string between single quotes is read as it is exactly if it has none in it. -/
theorem split_singleQuoted_iff (s : List Char) :
    split .blank (quote :: (s ++ [quote])) = some [.word s] ↔ quote ∉ s := by
  rw [split_silent (.single []) (by decide)]
  constructor
  · intro h hmem
    obtain ⟨a, b, rfl, ha⟩ := List.eq_append_cons_of_mem hmem
    rw [List.append_assoc, List.cons_append, split_single ha] at h
    -- the first one in the string ends the quotes, and is lost with those around it
    have hle := split_quote_le h
    simp only [size, Mode.budget, Mode.pending, Mode.credit, List.length_append, List.length_cons,
      List.nil_append] at hle
    omega
  · intro h
    rw [split_single h]
    rfl

/-! ## Operands -/

/-- The word is taken for an option. -/
def isOption (w : List Char) : Bool := w.head? = some '-' && w ≠ ['-']

/-- The operands of a utility that accepts options anywhere, of options without arguments. -/
def operands : List (List Char) → List (List Char)
  | [] => []
  | w :: ws =>
      if w = ['-', '-'] then ws else if isOption w then operands ws else w :: operands ws

/-- Two words are both operands exactly if neither is an option. -/
theorem operands_pair_iff (a b : List Char) :
    operands [a, b] = [a, b] ↔ isOption a = false ∧ isOption b = false := by
  have hend : isOption ['-', '-'] = true := by decide
  have hone : operands [b] = [b] ↔ isOption b = false := by
    rw [operands, operands]
    split_ifs with hb hoption
    · simp [hb, hend]
    · simp [hoption]
    · simp [hoption]
  have hlength : (operands [b]).length ≤ 1 := by
    rw [operands, operands]
    split_ifs <;> simp
  rw [operands]
  split_ifs with ha hoption
  · simp [ha, hend]
  · refine iff_of_false (fun h => ?_) (by simp [hoption])
    rw [h] at hlength
    simp at hlength
  · rw [List.cons.injEq, hone]
    simp [hoption]

end Shell

end MediaArchiver.Lib
