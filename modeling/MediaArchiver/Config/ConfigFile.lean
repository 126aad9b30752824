/-
# MediaArchiver.Config.ConfigFile -- the configuration file: lines, keys and values

`read` goes through a file line by line and hands each key with its value to `parse`. The loop runs until
the stream fails. After a last line without a line end the stream has not failed, so there is one more turn,
in which `getline` leaves the buffer as it is: that line is parsed again, as the buffer holds it.

What the lines say is `entries`: of each line that has a `=` before any `#`, what is before the first `=`
and what is behind it, without space around. `read` parses them in the order of the file, then perhaps the
last one again, and stops at the first that throws (`read_found`). The space around a line does not count,
and so a CR before the line's end does not (`entries_withReturns`).
-/
import MediaArchiver.Lib.Lines
import MediaArchiver.Client.Encoder

namespace MediaArchiver

open Lib (InStream strip withReturns lines_induction takeWhile_ne_append takeWhile_ne_of_not_mem
  dropWhile_ne_append)

universe u

/-! ## Reading -/

/-- Trim from start. -/
def ltrim (s : Text) : Text := s.dropWhile isSpace

/-- Trim from end. -/
def rtrim (s : Text) : Text := s.rdropWhile isSpace

/-- Trim from both ends. -/
def trim (s : Text) : Text := rtrim (ltrim s)

namespace MediaArchiverConfig

/-- The key and the value of a line without comment. -/
def splitLine (line : Text) : Option (Text × Text) :=
  match line.idxOf? '=' with
  | none => none
  | some iSep => some (trim (line.take iSep), trim (line.drop (iSep + 1)))

/-- The loop's body up to `parse`: the buffer as it is left, and the key and the value, if there are some. -/
def takeLine (line : Text) : Text × Option (Text × Text) :=
  let line := trim line
  match line.idxOf? '#' with
  | some iComment =>
      if iComment < 1 then (line, none)
      else
        let line := line.take iComment
        (line, splitLine line)
  | none => (line, splitLine line)

/-- What has become of the configuration, and what was printed to `cerr`. -/
structure Reading (T : Type u) where
  config : T
  cerr : List Text

/-- The message for a key that `parse` does not know. -/
def unrecognized (key value : Text) : Text :=
  "Error: ignored unrecognized configuration: ".toList ++ key ++ " with value: ".toList ++ value

variable {T : Type u}

/-- One call of `parse`, which says whether it knows the key. -/
def call (parse : Text → Text → T → T × Except Exn Bool) (key value : Text) (r : Reading T) :
    Reading T × Except Exn Unit :=
  match parse key value r.config with
  | (config, .error e) => ({ r with config := config }, .error e)
  | (config, .ok known) =>
      (⟨config, if known then r.cerr else r.cerr ++ [unrecognized key value]⟩, .ok ())

/-- The loop. -/
def readLines (parse : Text → Text → T → T × Except Exn Bool) (fs : InStream Char) (line : Text)
    (r : Reading T) : Reading T × Except Exn Unit :=
  if fs.fail = true then (r, .ok ())
  else
    match takeLine (fs.getline '\n' line).2 with
    | (line', none) => readLines parse (fs.getline '\n' line).1 line' r
    | (line', some (key, value)) =>
        match call parse key value r with
        | (r, .error e) => (r, .error e)
        | (r, .ok ()) => readLines parse (fs.getline '\n' line).1 line' r
termination_by fs.unread
decreasing_by all_goals exact InStream.unread_getline (by simpa using ‹¬ fs.fail = true›) _ _

/-- The handler of `read`. -/
def rethrown (file : Path) (done : Reading T × Except Exn Unit) : Reading T × Except Exn Unit :=
  match done with
  | (r, .error ex) =>
      (r, .error (.runtimeError
        ("file ".toList ++ file ++ " couldn't be processes: ".toList ++ ex.what)))
  | (r, .ok ()) => (r, .ok ())

/-- `read`, of a file that may be found. The stream is opened twice. -/
def read (parse : Text → Text → T → T × Except Exn Bool) (file : Path) (found : Option Text) (config : T) :
    Reading T × Except Exn Unit :=
  let fs := (InStream.closed.openFile found).openFile found
  rethrown file <|
    if fs.isOpen = false then (⟨config, []⟩, .error (.runtimeError "File cannot be opened".toList))
    else if fs.clear.fail = true then
      (⟨config, []⟩, .error (.runtimeError "Failure after file opened: ".toList))
    else readLines parse fs.clear [] ⟨config, []⟩

/-! ## What the lines say -/

/-- What is before the first `=`, and what is behind it. -/
def keyValue (content : Text) : Option (Text × Text) :=
  if '=' ∈ content then
    some (trim (content.takeWhile (· ≠ '=')), trim (content.dropWhile (· ≠ '=')).tail)
  else none

/-- The key and the value of a line, without what is behind the first `#`. -/
def entry (line : Text) : Option (Text × Text) := keyValue (line.takeWhile (· ≠ '#'))

/-- The keys and values of a text, in its order. -/
def entries (text : Text) : List (Text × Text) := (text.splitOn '\n').filterMap entry

/-- What is parsed again: the entry of a line at the end that has no line end. -/
def again (text : Text) : List (Text × Text) := ((text.splitOn '\n').getLast?.bind entry).toList

/-- One call of `parse` after the other, up to the first one that throws. -/
def parseAll (parse : Text → Text → T → T × Except Exn Bool) :
    List (Text × Text) → Reading T → Reading T × Except Exn Unit
  | [], r => (r, .ok ())
  | (key, value) :: rest, r =>
      match call parse key value r with
      | (r, .error e) => (r, .error e)
      | (r, .ok ()) => parseAll parse rest r

/-! ### Space around a line -/

theorem trim_eq (s : Text) : trim s = strip isSpace s := rfl

theorem not_space_of_sign {c : Char} (h : c = '=' ∨ c = '#') : isSpace c = false := by
  rcases h with rfl | rfl <;> decide

/-- A sign is not in space. -/
theorem not_mem_of_space {c : Char} {ws : Text} (hsign : c = '=' ∨ c = '#')
    (h : ∀ x ∈ ws, isSpace x = true) : c ∉ ws := fun hmem =>
  absurd ((h c hmem).symm.trans (not_space_of_sign hsign)) (by decide)

theorem keyValue_eq_none {content : Text} (h : '=' ∉ content) : keyValue content = none := if_neg h

theorem keyValue_of_split {key : Text} (h : '=' ∉ key) (value : Text) :
    keyValue (key ++ '=' :: value) = some (trim key, trim value) := by
  have hmem : '=' ∈ key ++ '=' :: value := List.mem_append_right key List.mem_cons_self
  rw [keyValue, if_pos hmem, takeWhile_ne_append h, dropWhile_ne_append h, List.tail_cons]

theorem keyValue_append_left {before : Text} (h : ∀ c ∈ before, isSpace c = true) (content : Text) :
    keyValue (before ++ content) = keyValue content := by
  have hbefore := not_mem_of_space (Or.inl rfl) h
  by_cases hmem : '=' ∈ content
  · obtain ⟨key, value, rfl, hkey⟩ := List.eq_append_cons_of_mem hmem
    have hkey' : '=' ∉ before ++ key := List.not_mem_append hbefore hkey
    rw [← List.append_assoc, keyValue_of_split hkey', keyValue_of_split hkey, trim_eq,
      Lib.strip_append_left h, ← trim_eq]
  · have hnone : '=' ∉ before ++ content := List.not_mem_append hbefore hmem
    rw [keyValue_eq_none hnone, keyValue_eq_none hmem]

theorem keyValue_append_right {after : Text} (h : ∀ c ∈ after, isSpace c = true) (content : Text) :
    keyValue (content ++ after) = keyValue content := by
  by_cases hmem : '=' ∈ content
  · obtain ⟨key, value, rfl, hkey⟩ := List.eq_append_cons_of_mem hmem
    rw [List.append_assoc, List.cons_append, keyValue_of_split hkey, keyValue_of_split hkey, trim_eq (_ ++ _),
      Lib.strip_append_right h, ← trim_eq]
  · have hafter := not_mem_of_space (Or.inl rfl) h
    have hnone : '=' ∉ content ++ after := List.not_mem_append hmem hafter
    rw [keyValue_eq_none hnone, keyValue_eq_none hmem]

/-- A comment does not count. -/
theorem entry_comment {content : Text} (h : '#' ∉ content) (comment : Text) :
    entry (content ++ '#' :: comment) = keyValue content := by
  rw [entry, takeWhile_ne_append h]

theorem entry_of_not_mem {line : Text} (h : '#' ∉ line) : entry line = keyValue line := by
  rw [entry, takeWhile_ne_of_not_mem h]

theorem entry_append_left {before : Text} (h : ∀ c ∈ before, isSpace c = true) (line : Text) :
    entry (before ++ line) = entry line := by
  have hbefore := not_mem_of_space (Or.inr rfl) h
  by_cases hmem : '#' ∈ line
  · obtain ⟨content, comment, rfl, hcontent⟩ := List.eq_append_cons_of_mem hmem
    have hcontent' : '#' ∉ before ++ content := List.not_mem_append hbefore hcontent
    rw [← List.append_assoc, entry_comment hcontent', entry_comment hcontent, keyValue_append_left h]
  · have hnone : '#' ∉ before ++ line := List.not_mem_append hbefore hmem
    rw [entry_of_not_mem hnone, entry_of_not_mem hmem, keyValue_append_left h]

theorem entry_append_right {after : Text} (h : ∀ c ∈ after, isSpace c = true) (line : Text) :
    entry (line ++ after) = entry line := by
  by_cases hmem : '#' ∈ line
  · obtain ⟨content, comment, rfl, hcontent⟩ := List.eq_append_cons_of_mem hmem
    rw [List.append_assoc, List.cons_append, entry_comment hcontent, entry_comment hcontent]
  · have hafter := not_mem_of_space (Or.inr rfl) h
    have hnone : '#' ∉ line ++ after := List.not_mem_append hmem hafter
    rw [entry_of_not_mem hnone, entry_of_not_mem hmem, keyValue_append_right h]

theorem entry_trim (line : Text) : entry (trim line) = entry line := by
  obtain ⟨before, after, hbefore, hafter, hline⟩ := Lib.exists_strip isSpace line
  conv_rhs => rw [hline]
  rw [entry_append_left hbefore, entry_append_right hafter, trim_eq]

/-! ### One line -/

theorem splitLine_eq (line : Text) : splitLine line = keyValue line := by
  unfold splitLine
  cases hsep : line.idxOf? '=' with
  | none => rw [keyValue_eq_none (List.idxOf?_eq_none_iff.mp hsep)]
  | some iSep =>
    obtain ⟨htake, hdrop⟩ := Lib.take_idxOf? hsep
    have hmem : '=' ∈ line := List.isSome_idxOf?.mp (by rw [hsep]; rfl)
    rw [keyValue, if_pos hmem]
    simp only [htake, hdrop]

/-- The body finds the entry of the line, and leaves a line with the same one. -/
theorem takeLine_spec (line : Text) :
    (takeLine line).2 = entry line ∧ entry (takeLine line).1 = entry line := by
  rw [← entry_trim line]
  unfold takeLine
  generalize trim line = line
  dsimp only
  cases hcomment : line.idxOf? '#' with
  | none =>
    have hline := entry_of_not_mem (List.idxOf?_eq_none_iff.mp hcomment)
    exact ⟨(splitLine_eq line).trans hline.symm, rfl⟩
  | some iComment =>
    have hmem : '#' ∈ line := List.isSome_idxOf?.mp (by rw [hcomment]; rfl)
    obtain ⟨content, comment, rfl, hcontent⟩ := List.eq_append_cons_of_mem hmem
    have htake := (Lib.take_idxOf? hcomment).1
    rw [takeWhile_ne_append hcontent] at htake
    dsimp only
    split
    · rename_i hzero
      -- the comment is all there is
      obtain rfl : content = [] := by
        rw [← htake, Nat.lt_one_iff.mp hzero, List.take_zero]
      exact ⟨rfl, rfl⟩
    · rw [htake, splitLine_eq, entry_comment hcontent, entry_of_not_mem hcontent]
      exact ⟨rfl, rfl⟩

/-! ### All lines -/

theorem entries_of_not_mem {l : Text} (h : '\n' ∉ l) : entries l = (entry l).toList := by
  rw [entries, List.splitOn_eq_singleton h]
  cases hentry : entry l <;> simp [hentry]

theorem entries_line {l : Text} (h : '\n' ∉ l) (rest : Text) :
    entries (l ++ '\n' :: rest) = (entry l).toList ++ entries rest := by
  rw [entries, List.splitOn_append_cons_self_of_not_mem h]
  cases hentry : entry l <;> simp [entries, hentry]

theorem again_of_not_mem {l : Text} (h : '\n' ∉ l) : again l = (entry l).toList := by
  rw [again, List.splitOn_eq_singleton h]
  rfl

theorem again_line {l : Text} (h : '\n' ∉ l) (rest : Text) : again (l ++ '\n' :: rest) = again rest := by
  rw [again, List.splitOn_append_cons_self_of_not_mem h, again]
  cases hlines : rest.splitOn '\n' with
  | nil => exact absurd hlines (List.splitOn_ne_nil _ _)
  | cons line lines => rfl

/-- What goes on where nothing was thrown. -/
def andThen (done : Reading T × Except Exn Unit) (next : Reading T → Reading T × Except Exn Unit) :
    Reading T × Except Exn Unit :=
  match done with
  | (r, .error e) => (r, .error e)
  | (r, .ok ()) => next r

variable {parse : Text → Text → T → T × Except Exn Bool} {fs : InStream Char} {line : Text} {r : Reading T}

theorem andThen_ok (done : Reading T × Except Exn Unit) : andThen done (fun r => (r, .ok ())) = done := by
  obtain ⟨r, _ | ⟨⟨⟩⟩⟩ := done <;> rfl

theorem parseAll_append (xs ys : List (Text × Text)) :
    parseAll parse (xs ++ ys) r = andThen (parseAll parse xs r) (parseAll parse ys) := by
  induction xs generalizing r with
  | nil => rfl
  | cons e xs ih =>
    obtain ⟨key, value⟩ := e
    rw [List.cons_append, parseAll, parseAll]
    cases call parse key value r with
    | mk r' ended =>
      cases ended with
      | error e => rfl
      | ok _ => exact ih

theorem readLines_of_fail (h : fs.fail = true) : readLines parse fs line r = (r, .ok ()) := by
  rw [readLines, if_pos h]

/-- One turn of the loop. -/
theorem readLines_step (parse : Text → Text → T → T × Except Exn Bool) (h : fs.fail = false)
    (line : Text) :
    ∃ line', entry line' = entry (fs.getline '\n' line).2 ∧ ∀ r, readLines parse fs line r
      = andThen (parseAll parse (entry (fs.getline '\n' line).2).toList r)
          (readLines parse (fs.getline '\n' line).1 line') := by
  obtain ⟨hfound, hleft⟩ := takeLine_spec (fs.getline '\n' line).2
  refine ⟨_, hleft, fun r => ?_⟩
  rw [readLines, if_neg (by rw [h]; exact Bool.false_ne_true), ← hfound]
  cases takeLine (fs.getline '\n' line).2 with
  | mk line' found =>
    cases found with
    | none => rfl
    | some e =>
      obtain ⟨key, value⟩ := e
      simp only [Option.toList_some, parseAll]
      cases call parse key value r with
      | mk r' ended => cases ended <;> rfl

/-- The loop parses the entries, and perhaps the last one again. -/
theorem readLines_eq (hready : fs.Ready) {text : Text} (hrest : fs.rest = text) (line : Text)
    (r : Reading T) : readLines parse fs line r = parseAll parse (entries text ++ again text) r := by
  induction text using lines_induction '\n' generalizing fs line r with
  | line l rest hl ih =>
    obtain ⟨hgot, hready', hrest'⟩ := InStream.getline_line hready hrest hl line
    obtain ⟨line', -, hstep⟩ := readLines_step parse (Bool.or_eq_false_iff.mpr
      ⟨hready.failbit, hready.badbit⟩) line
    rw [hstep, hgot, entries_line hl, again_line hl, List.append_assoc, parseAll_append]
    congr 1
    funext r'
    exact ih hready' hrest' line' r'
  | last l hl =>
    obtain ⟨hgot, heof, hfail⟩ := InStream.getline_last hready hrest hl line
    obtain ⟨line', hline', hstep⟩ := readLines_step parse (Bool.or_eq_false_iff.mpr
      ⟨hready.failbit, hready.badbit⟩) line
    rw [hstep, hgot, entries_of_not_mem hl, again_of_not_mem hl, parseAll_append]
    congr 1
    funext r'
    cases hnil : l.isEmpty with
    | true =>
      obtain rfl := List.isEmpty_iff.mp hnil
      exact readLines_of_fail (hfail.trans hnil)
    | false =>
      -- the stream is at its end, and the buffer is read again
      have hgood : (fs.getline '\n' line).1.good = false := by simp [InStream.good, heof]
      obtain ⟨line'', -, hlast⟩ := readLines_step parse (hfail.trans hnil) line'
      rw [hlast, InStream.getline_of_not_good hgood, hline', hgot]
      have hended : ∀ r, readLines parse { (fs.getline '\n' line).1 with failbit := true } line'' r
          = (r, .ok ()) := fun r => readLines_of_fail (by simp [InStream.fail])
      rw [funext hended, andThen_ok]

/-- Whatever is in the file: its entries are parsed, and perhaps the last one again. -/
theorem read_found (parse : Text → Text → T → T × Except Exn Bool) (file : Path) (text : Text) (config : T) :
    read parse file (some text) config
      = rethrown file (parseAll parse (entries text ++ again text) ⟨config, []⟩) := by
  -- the second attempt to open the file sets a flag, which is cleared
  have hopened : ((InStream.closed.openFile (some text)).openFile (some text)).clear
      = InStream.opened text := rfl
  have hready := InStream.ready_opened text
  have hfail : (InStream.opened text).fail = false := rfl
  have hrest : (InStream.opened text).rest = text := by
    rw [hready.rest]
    rfl
  unfold read
  simp only [InStream.isOpen_openFile, hopened, hfail, Bool.false_eq_true, if_false]
  rw [if_neg (by simp), readLines_eq hready hrest]

/-! ### The ends of the lines -/

/-- What is parsed again is nothing, or the last entry, and then the text does not end with a line end. -/
theorem again_cases (text : Text) : again text = [] ∨
    (text.getLast? ≠ some '\n' ∧ ∃ before e, entries text = before ++ [e] ∧ again text = [e]) := by
  induction text using lines_induction '\n' with
  | last l hl =>
    rw [again_of_not_mem hl, entries_of_not_mem hl]
    cases entry l with
    | none => exact Or.inl rfl
    | some e =>
      refine Or.inr ⟨fun hlast => hl (List.mem_of_getLast? hlast), [], e, rfl, rfl⟩
  | line l rest hl ih =>
    rw [again_line hl, entries_line hl]
    rcases ih with hnil | ⟨hlast, before, e, hentries, hagain⟩
    · exact Or.inl hnil
    · refine Or.inr ⟨?_, (entry l).toList ++ before, e, by rw [hentries, List.append_assoc], hagain⟩
      have hrest : rest ≠ [] := by
        rintro rfl
        cases hagain
      rw [List.getLast?_append_of_ne_nil _ (List.cons_ne_nil _ _), List.getLast?_cons_of_ne_nil hrest]
      exact hlast

theorem entries_newline (text : Text) : entries (text ++ ['\n']) = entries text := by
  rw [entries, List.splitOn_append_cons_self, List.filterMap_append, entries]
  exact List.append_nil _

/-- A CR before each line's end makes no difference. -/
theorem entries_withReturns (text : Text) : entries (withReturns '\n' '\r' text) = entries text := by
  have hspace : ∀ c ∈ ['\r'], isSpace c = true := by
    intro c hc
    rw [List.mem_singleton.mp hc]
    rfl
  induction text using lines_induction '\n' with
  | last l hl => rw [Lib.withReturns_of_not_mem hl]
  | line l rest hl ih =>
    have hline : '\n' ∉ l ++ ['\r'] := List.not_mem_append hl (by decide)
    rw [Lib.withReturns_line hl, entries_line hline, entries_line hl, ih, entry_append_right hspace]

end MediaArchiverConfig

end MediaArchiver
