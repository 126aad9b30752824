/-
# MediaArchiver.Watcher.Setting -- the setting that says which folders to watch

The setting is one string. `main` cuts it at the colons, and the constructor of the watcher looks at each
piece: one that begins with `regex*` is a search, of which the next star ends the folder where it starts,
and any other is a folder. If there is no piece at all, `main` ends before that. There are no quotes and no
escapes, so a list of entries can be written down exactly if there is an entry, none has a colon in it, no
folder looks like a search, no search starts in a folder with a star in its name, and the last entry is not
empty (`readSetting_setting_iff`).

A search is done by `find`, which a shell is told to run. The pattern is put between single quotes, the
folder is not put between any (`findCommand_read_iff`).
-/
import MediaArchiver.Lib.Lines
import MediaArchiver.Lib.Shell
import MediaArchiver.Client.Encoder

namespace MediaArchiver

open Lib (InStream pieces pieces_intercalate_iff Shell.Bare Shell.quote Shell.split)

/-! ## Reading the setting -/

/-- An entry: a folder, or a search for folders. -/
inductive WatchEntry where
  | folder (name : Path)
  | search (startFolder : Path) (re : Text)
deriving DecidableEq

namespace WatchEntry

def pathSeparator : Char := ':'

def dirWatchRegexPrefix : Text := "regex*".toList

/-- The folders that `main` reads from the setting. -/
def readFolders (foldersToWatch : Text) : List Text :=
  (InStream.opened foldersToWatch).lines pathSeparator []

/-- What the constructor takes a folder for. -/
def read (piece : Text) : Except Exn WatchEntry :=
  if piece.take dirWatchRegexPrefix.length = dirWatchRegexPrefix then
    let argument := piece.drop dirWatchRegexPrefix.length
    match argument.idxOf? '*' with
    | none => .error (.runtimeError ("regex format invalid: ".toList ++ argument))
    | some separator => .ok (.search (argument.take separator) (argument.drop (separator + 1)))
  else .ok (.folder piece)

/-- One after the other, up to the first that is invalid. -/
def readAll : List Text → Except Exn (List WatchEntry)
  | [] => .ok []
  | piece :: rest =>
      match read piece with
      | .error e => .error e
      | .ok entry =>
          match readAll rest with
          | .error e => .error e
          | .ok entries => .ok (entry :: entries)

/-- The folders with which `main` goes on. If there are none, it says "Missing media folder(s)" and returns 1. -/
def mainFolders (foldersToWatch : Text) : Option (List Text) :=
  let folders := readFolders foldersToWatch
  if folders.length < 1 then none else some folders

def readSetting (foldersToWatch : Text) : Option (Except Exn (List WatchEntry)) :=
  (mainFolders foldersToWatch).map readAll

/-! ## Writing it -/

/-- How an entry is written. -/
def text : WatchEntry → Text
  | .folder name => name
  | .search startFolder re => dirWatchRegexPrefix ++ (startFolder ++ '*' :: re)

def setting (entries : List WatchEntry) : Text := [pathSeparator].intercalate (entries.map text)

/-- The entry is written as what it is. -/
def Clear : WatchEntry → Prop
  | .folder name => ¬ dirWatchRegexPrefix <+: name
  | .search startFolder _ => '*' ∉ startFolder

/-- There are entries, each of them is clear and has no colon, and the last one is not empty. -/
structure Storable (entries : List WatchEntry) : Prop where
  nonempty : entries ≠ []
  clear : ∀ e ∈ entries, e.Clear
  separate : ∀ e ∈ entries, pathSeparator ∉ e.text
  last : entries.getLast? ≠ some (.folder [])

variable {e : WatchEntry} {entries : List WatchEntry}

theorem readFolders_eq (foldersToWatch : Text) :
    readFolders foldersToWatch = pieces pathSeparator foldersToWatch :=
  InStream.lines_eq (InStream.ready_opened foldersToWatch) rfl []

theorem take_eq_iff (piece : Text) :
    piece.take dirWatchRegexPrefix.length = dirWatchRegexPrefix ↔ dirWatchRegexPrefix <+: piece :=
  eq_comm.trans List.prefix_iff_eq_take.symm

/-- What an entry was read from is how it is written. -/
theorem text_of_read {piece : Text} (h : read piece = .ok e) : e.text = piece ∧ e.Clear := by
  unfold read at h
  split at h
  · rename_i hprefix
    obtain ⟨argument, rfl⟩ := (take_eq_iff piece).mp hprefix
    rw [List.drop_left] at h
    dsimp only at h
    split at h
    · cases h
    · rename_i separator hsep
      cases h
      have hmem : '*' ∈ argument := List.isSome_idxOf?.mp (by rw [hsep]; rfl)
      obtain ⟨l, r, rfl, hl⟩ := List.eq_append_cons_of_mem hmem
      rw [Lib.idxOf?_append hl] at hsep
      obtain rfl := Option.some.inj hsep
      rw [List.take_left, ← List.drop_drop, List.drop_left]
      exact ⟨rfl, hl⟩
  · rename_i hprefix
    cases h
    exact ⟨rfl, fun h => hprefix ((take_eq_iff piece).mpr h)⟩

/-- An entry that is clear is read back. -/
theorem read_text (h : e.Clear) : read e.text = .ok e := by
  cases e with
  | folder name => exact if_neg fun hprefix => h ((take_eq_iff name).mp hprefix)
  | search startFolder re =>
    have hfound : (startFolder ++ '*' :: re).idxOf? '*' = some startFolder.length := Lib.idxOf?_append h re
    rw [read, text, if_pos ((take_eq_iff _).mpr (List.prefix_append _ _)), List.drop_left]
    simp only [hfound, List.take_left]
    rw [← List.drop_drop, List.drop_left]
    rfl

theorem readAll_ok_iff {pieces : List Text} :
    readAll pieces = .ok entries ↔ pieces = entries.map text ∧ ∀ e ∈ entries, e.Clear := by
  constructor
  · intro h
    induction pieces generalizing entries with
    | nil =>
      cases h
      exact ⟨rfl, fun e he => absurd he List.not_mem_nil⟩
    | cons piece rest ih =>
      rw [readAll] at h
      split at h
      · cases h
      · rename_i entry hread
        split at h
        · cases h
        · rename_i later hlater
          cases h
          obtain ⟨htext, hclear⟩ := text_of_read hread
          obtain ⟨htexts, hclears⟩ := ih hlater
          rw [List.map_cons, htext, ← htexts]
          exact ⟨rfl, List.forall_mem_cons.mpr ⟨hclear, hclears⟩⟩
  · rintro ⟨rfl, hclear⟩
    induction entries with
    | nil => rfl
    | cons entry later ih =>
      rw [List.forall_mem_cons] at hclear
      rw [List.map_cons, readAll, read_text hclear.1]
      dsimp only
      rw [ih hclear.2]

theorem text_eq_nil_iff : e.text = [] ↔ e = .folder [] := by
  cases e with
  | folder name => simp [text]
  | search startFolder re =>
    refine iff_of_false (fun h => ?_) nofun
    rw [text, List.append_eq_nil_iff, List.append_eq_nil_iff] at h
    cases h.2.2

theorem mainFolders_eq_some_iff {foldersToWatch : Text} {folders : List Text} :
    mainFolders foldersToWatch = some folders ↔ readFolders foldersToWatch = folders ∧ folders ≠ [] := by
  show (if (readFolders foldersToWatch).length < 1 then none else some (readFolders foldersToWatch))
    = some folders ↔ _
  split
  · rename_i hfew
    refine iff_of_false nofun fun h => h.2 ?_
    rw [← h.1]
    exact List.length_eq_zero_iff.mp (Nat.lt_one_iff.mp hfew)
  · rename_i hmore
    rw [Option.some_inj]
    refine ⟨fun h => ⟨h, ?_⟩, And.left⟩
    rintro rfl
    rw [h] at hmore
    exact hmore Nat.one_pos

/-- What `main` hands to the constructor: the entries as they were written, exactly if there are any, none has
a colon in it, and the last one is not empty. -/
theorem mainFolders_setting_iff (entries : List WatchEntry) :
    mainFolders (setting entries) = some (entries.map text) ↔
      entries ≠ [] ∧ (∀ e ∈ entries, pathSeparator ∉ e.text) ∧ entries.getLast? ≠ some (.folder []) := by
  have hlast : (entries.map text).getLast? = some [] ↔ entries.getLast? = some (.folder []) := by
    rw [List.getLast?_map, Option.map_eq_some_iff]
    simp only [text_eq_nil_iff, exists_eq_right]
  rw [mainFolders_eq_some_iff, readFolders_eq, setting, pieces_intercalate_iff, List.forall_mem_map, Ne, hlast,
    Ne, List.map_eq_nil_iff, and_comm]

/-- A list of entries can be written down and read back exactly if it is storable. -/
theorem readSetting_setting_iff (entries : List WatchEntry) :
    readSetting (setting entries) = some (.ok entries) ↔ Storable entries := by
  rw [readSetting, Option.map_eq_some_iff]
  constructor
  · rintro ⟨folders, hfolders, hread⟩
    obtain ⟨rfl, hclear⟩ := readAll_ok_iff.mp hread
    obtain ⟨hnonempty, hseparate, hlast⟩ := (mainFolders_setting_iff entries).mp hfolders
    exact ⟨hnonempty, hclear, hseparate, hlast⟩
  · intro h
    exact ⟨entries.map text, (mainFolders_setting_iff entries).mpr ⟨h.nonempty, h.separate, h.last⟩,
      readAll_ok_iff.mpr ⟨rfl, h.clear⟩⟩

end WatchEntry

/-! ## Searches -/

/-- The command line of a search. -/
def findCommand (startFolder : Path) (re : Text) : Text :=
  "/usr/bin/find ".toList ++ startFolder ++ " -type d -regex '".toList ++ re ++ "'".toList

namespace FindCommand

open Lib.Shell (Token)

def find : Text := "/usr/bin/find".toList

/-- `find` takes the word for the start of its expression, and not for a folder. One dash alone is a folder. -/
def startsExpression (w : Text) : Bool := (w.head? = some '-' && w ≠ ['-']) || w = ['!'] || w = ['(']

/-- The words of a line that is one command. -/
def command : List Token → Option (List Text)
  | [] => some []
  | .word w :: ts => (command ts).map (w :: ·)
  | .operator _ :: _ => none

/-- `find` reads its arguments: the folders, up to the first word that starts an expression, and the pattern of
the expression, if it is one that asks for the directories whose names match a pattern. Options, which may
stand before the folders, are not told from expressions. -/
def readArguments (words : List Text) : Option (List Path × Text) :=
  match words.dropWhile (!startsExpression ·) with
  | [test, kind, test', re] =>
      if test = "-type".toList ∧ kind = "d".toList ∧ test' = "-regex".toList then
        some (words.takeWhile (!startsExpression ·), re)
      else none
  | _ => none

/-- The shell reads the command line, and `find` its arguments. -/
def read (commandLine : Text) : Option (List Path × Text) :=
  match (Shell.split .blank commandLine).bind command with
  | some (program :: words) => if program = find then readArguments words else none
  | _ => none

/-- The command line is read as the search for this pattern in this folder. -/
def Arrives (startFolder : Path) (re : Text) : Prop :=
  read (findCommand startFolder re) = some ([startFolder], re)

instance (startFolder : Path) (re : Text) : Decidable (Arrives startFolder re) :=
  inferInstanceAs (Decidable (_ = _))

theorem findCommand_eq (startFolder : Path) (re : Text) :
    findCommand startFolder re = find ++ ' ' :: (startFolder ++ ' ' :: ("-type".toList ++ ' ' ::
      ("d".toList ++ ' ' :: ("-regex".toList ++ ' ' :: (Shell.quote :: (re ++ [Shell.quote])))))) := by
  have hfind : "/usr/bin/find ".toList = find ++ [' '] := by decide
  have hexpression : " -type d -regex '".toList = ' ' :: ("-type".toList ++ ' ' :: ("d".toList ++ ' ' ::
      ("-regex".toList ++ [' ', Shell.quote]))) := by decide
  have hend : "'".toList = [Shell.quote] := by decide
  unfold findCommand
  rw [hfind, hexpression, hend]
  simp only [List.append_assoc, List.cons_append, List.nil_append]

theorem command_eq_some_iff {ts : List Token} {ws : List Text} :
    command ts = some ws ↔ ts = ws.map Token.word := by
  induction ts generalizing ws with
  | nil => cases ws <;> simp [command]
  | cons t ts ih =>
    cases t with
    | word w => cases ws <;> simp [command, ih, and_comm]
    | operator c => cases ws <;> simp [command]

theorem readArguments_eq_some_iff {words : List Text} {folders : List Path} {re : Text} :
    readArguments words = some (folders, re) ↔ (∀ w ∈ folders, startsExpression w = false) ∧
      words = folders ++ ["-type".toList, "d".toList, "-regex".toList, re] := by
  constructor
  · intro h
    unfold readArguments at h
    split at h
    · rename_i test kind test' pattern hexpression
      split at h
      · rename_i hwords
        obtain ⟨rfl, rfl, rfl⟩ := hwords
        cases h
        refine ⟨fun w hw => by simpa using List.mem_takeWhile_imp hw, ?_⟩
        rw [← hexpression, List.takeWhile_append_dropWhile]
      · cases h
    · cases h
  · rintro ⟨hfolders, rfl⟩
    have hall : ∀ w ∈ folders, (!startsExpression w) = true := fun w hw => by rw [hfolders w hw]; rfl
    have hstart : (!startsExpression "-type".toList) = false := by decide
    unfold readArguments
    rw [List.dropWhile_append_of_pos hall, List.takeWhile_append_of_pos hall,
      List.dropWhile_cons_of_neg (by rw [hstart]; exact Bool.false_ne_true),
      List.takeWhile_cons_of_neg (by rw [hstart]; exact Bool.false_ne_true), List.append_nil]
    exact if_pos ⟨rfl, rfl, rfl⟩

/-- What the shell and `find` make of a command line, both together. -/
theorem read_eq_some_iff {commandLine : Text} {folders : List Path} {re : Text} :
    read commandLine = some (folders, re) ↔ (∀ w ∈ folders, startsExpression w = false) ∧
      Shell.split .blank commandLine = some ((find :: (folders
        ++ ["-type".toList, "d".toList, "-regex".toList, re])).map Token.word) := by
  constructor
  · intro h
    unfold read at h
    split at h
    · rename_i program words hcommand
      split at h
      · rename_i hfind
        subst hfind
        obtain ⟨hfolders, rfl⟩ := readArguments_eq_some_iff.mp h
        obtain ⟨tokens, hsplit, htokens⟩ := Option.bind_eq_some_iff.mp hcommand
        rw [hsplit, command_eq_some_iff.mp htokens]
        exact ⟨hfolders, rfl⟩
      · cases h
    · cases h
  · rintro ⟨hfolders, hsplit⟩
    unfold read
    rw [hsplit, Option.bind_some, command_eq_some_iff.mpr rfl]
    dsimp only
    rw [if_pos rfl, readArguments_eq_some_iff]
    exact ⟨hfolders, rfl⟩

theorem map_cons_eq_iff {α : Type} {o : Option (List α)} {x : α} {xs : List α} :
    o.map (x :: ·) = some (x :: xs) ↔ o = some xs := by
  cases o <;> simp

/-- A search in a folder whose name needs no quotes is read as it is exactly if the pattern has no quote in it
and the folder does not look like an expression. -/
theorem findCommand_read_iff {startFolder : Path} (h : Shell.Bare startFolder) (re : Text) :
    Arrives startFolder re ↔ Shell.quote ∉ re ∧ startsExpression startFolder = false := by
  have hwords : Shell.Bare find ∧ Shell.Bare "-type".toList ∧ Shell.Bare "d".toList
      ∧ Shell.Bare "-regex".toList := by
    refine ⟨Lib.Shell.bare_of_all ?_ ?_ ?_, Lib.Shell.bare_of_all ?_ ?_ ?_, Lib.Shell.bare_of_all ?_ ?_ ?_,
      Lib.Shell.bare_of_all ?_ ?_ ?_⟩ <;> decide
  obtain ⟨hfind, htype, hd, hregex⟩ := hwords
  rw [Arrives, read_eq_some_iff, List.forall_mem_singleton, and_comm]
  refine and_congr_left fun _ => ?_
  rw [findCommand_eq, Lib.Shell.split_bare_space hfind, Lib.Shell.split_bare_space h,
    Lib.Shell.split_bare_space htype, Lib.Shell.split_bare_space hd, Lib.Shell.split_bare_space hregex]
  simp only [List.map_cons, List.map_nil, List.singleton_append, map_cons_eq_iff]
  exact Lib.Shell.split_singleQuoted_iff re

/-- A search for the folders of all seasons. -/
theorem findCommand_read_seasons :
    Arrives "/media/series".toList ".*/Season[0-9]+".toList ↔
      Shell.quote ∉ ".*/Season[0-9]+".toList ∧ startsExpression "/media/series".toList = false :=
  findCommand_read_iff (Lib.Shell.bare_of_all (by decide) (by decide) (by decide)) _

end FindCommand

end MediaArchiver
