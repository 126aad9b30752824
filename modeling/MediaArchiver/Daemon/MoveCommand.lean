/-
# MediaArchiver.Daemon.MoveCommand -- the command line with which a file is moved

`moveFile` puts both names between double quotes and has a shell run `mv`. A shell reads what is between
double quotes literally, with four exceptions, and `mv` takes for an option what begins with a dash; names
come from the watched folders. The names arrive exactly if they have none of that in them
(`moveCommand_read_iff`).
-/
import MediaArchiver.Lib.Shell
import MediaArchiver.Daemon.Mover

namespace MediaArchiver

open Lib (Shell.Plain Shell.doubleQuoted Shell.isOption Shell.operands Shell.split)

/-- The command line that `moveFile` builds. -/
def moveCommand (src dst : Path) : Text :=
  "mv \"".toList ++ src ++ "\" \"".toList ++ dst ++ "\"".toList

namespace MoveCommand

def mv : Text := "mv".toList

/-- The shell runs `mv` with the two names as its words, and both are operands. -/
def Arrives (src dst : Path) : Prop :=
  Shell.split .blank (moveCommand src dst) = some [.word mv, .word src, .word dst] ∧
    Shell.operands [src, dst] = [src, dst]

theorem split_moveCommand (src dst : Path) :
    Shell.split .blank (moveCommand src dst)
      = (Shell.split .blank (Shell.doubleQuoted src (' ' :: Shell.doubleQuoted dst []))).map
          (.word mv :: ·) := by
  have hmv : "mv \"".toList = ['m', 'v', ' ', Lib.Shell.mark] := by decide
  have hbetween : "\" \"".toList = [Lib.Shell.mark, ' ', Lib.Shell.mark] := by decide
  have hend : "\"".toList = [Lib.Shell.mark] := by decide
  have hpieces : ∀ {command between last : Text}, "mv \"".toList = command →
      "\" \"".toList = between → "\"".toList = last →
      moveCommand src dst = command ++ src ++ between ++ dst ++ last := by
    rintro _ _ _ rfl rfl rfl
    rfl
  have hcommand : moveCommand src dst
      = 'm' :: 'v' :: ' ' :: Shell.doubleQuoted src (' ' :: Shell.doubleQuoted dst []) := by
    rw [hpieces hmv hbetween hend]
    simp only [Shell.doubleQuoted, List.append_assoc, List.cons_append, List.nil_append]
  rw [hcommand, Lib.Shell.split_silent (.word ['m']) (by decide),
    Lib.Shell.split_silent (.word ['m', 'v']) (by decide), Lib.Shell.split_word_space]
  have hname : mv = ['m', 'v'] := by decide
  rw [hname]

/-- Both names arrive exactly if the shell reads them as they are and neither looks like an option. -/
theorem moveCommand_read_iff (src dst : Path) :
    Arrives src dst ↔ (Shell.Plain src ∧ Shell.Plain dst)
      ∧ Shell.isOption src = false ∧ Shell.isOption dst = false := by
  unfold Arrives
  rw [Lib.Shell.operands_pair_iff, split_moveCommand, ← Lib.Shell.split_pair_iff]
  refine and_congr_left fun _ => ⟨fun h => ?_, fun h => by rw [h]; rfl⟩
  obtain ⟨ts, hts, heq⟩ := Option.map_eq_some_iff.mp h
  rw [hts, (List.cons.inj heq).2]

/-- A film with a dollar sign in its name; the shell puts the name of its user in its place. -/
theorem dollar_not_read :
    ¬ Arrives "./1".toList (gCfg.getArchivedFileName "/media/$USER.mp4".toList) := by
  unfold Arrives
  decide

end MoveCommand

end MediaArchiver
