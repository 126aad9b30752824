/-
# MediaArchiver.Daemon.ArchiveNames -- from a source to its archive, and back

`getArchivedFileName` puts the suffix and the final extension behind the stem of a source. Two functions go
the other way. `isArchive` looks for the suffix anywhere in the path, and for the extension at its end, so
it takes the archives (`isArchive_getArchivedFileName`) and whatever else has both
(`recognises_archives_iff`). `onFileSystemChange` erases the last suffix, which leaves the stem with the
final extension, whatever extension the source had (`eraseSuffix_getArchivedFileName`); so a source and its
archive lead to the same call of the database only if the source has that extension already
(`directions_agree_iff`).
-/
import MediaArchiver.Daemon.Names

namespace MediaArchiver

open Lib (findFrom rfind findLast stem)

namespace DaemonConfig

variable (cfg : DaemonConfig)

/-! ## Recognising archives -/

/-- The search from an offset that may wrap around looks at the end of the name. -/
theorem isSome_findFrom_extensionOffset {fileName : Path} (hlength : fileName.length < 2 ^ 64) :
    (findFrom fileName cfg.finalExtension (cfg.extensionOffset fileName)).isSome = true ↔
      cfg.finalExtension <:+ fileName := by
  by_cases hshort : cfg.finalExtension.length ≤ fileName.length
  · have hoffset : cfg.extensionOffset fileName = fileName.length - cfg.finalExtension.length := by
      unfold extensionOffset
      omega
    rw [hoffset]
    exact Lib.isSome_findFrom_end hshort
  · apply iff_of_false
    · exact fun h => hshort (Lib.length_le_of_isSome_findFrom h)
    · exact fun h => hshort h.length_le

/-- The two searches of `isArchive` have nothing to do with each other. -/
theorem isArchive_iff {fileName : Path} (hlength : fileName.length < 2 ^ 64) :
    cfg.isArchive fileName = true ↔
      cfg.resultFileSuffix <:+: fileName ∧ cfg.finalExtension <:+ fileName := by
  rw [isArchive, Bool.and_eq_true, Lib.isSome_findFrom_zero, isSome_findFrom_extensionOffset cfg hlength]

/-- A dot behind it makes any text a stem. -/
theorem stem_concat_dot (s : Path) : stem '.' (s ++ ['.']) = s := by
  induction s with
  | nil => rfl
  | cons x s ih =>
    rw [List.cons_append, stem, if_pos (by simp), ih]

/-- The names of archives are those with the suffix and the extension at the end. -/
theorem exists_getArchivedFileName_iff {fileName : Path} :
    (∃ o, fileName = cfg.getArchivedFileName o) ↔
      cfg.resultFileSuffix ++ cfg.finalExtension <:+ fileName := by
  constructor
  · rintro ⟨o, rfl⟩
    rw [getArchivedFileName_eq, List.append_assoc]
    exact List.suffix_append ..
  · rintro ⟨before, rfl⟩
    refine ⟨before ++ ['.'], ?_⟩
    rw [getArchivedFileName_eq, stem_concat_dot, List.append_assoc]

/-- Every archive is recognised. -/
theorem isArchive_getArchivedFileName {o : Path}
    (hlength : (cfg.getArchivedFileName o).length < 2 ^ 64) :
    cfg.isArchive (cfg.getArchivedFileName o) = true := by
  rw [isArchive_iff cfg hlength, getArchivedFileName_eq]
  exact ⟨⟨stem '.' o, cfg.finalExtension, rfl⟩, List.suffix_append ..⟩

/-- A path is recognised exactly if it is the name of an archive, unless it has the suffix somewhere and the
extension at its end, but not one behind the other. -/
theorem recognises_archives_iff (fileName : Path) (hlength : fileName.length < 2 ^ 64) :
    (cfg.isArchive fileName = true ↔ ∃ o, fileName = cfg.getArchivedFileName o) ↔
      (cfg.resultFileSuffix <:+: fileName → cfg.finalExtension <:+ fileName →
        cfg.resultFileSuffix ++ cfg.finalExtension <:+ fileName) := by
  rw [isArchive_iff cfg hlength, exists_getArchivedFileName_iff]
  constructor
  · exact fun h hsuffix hextension => h.mp ⟨hsuffix, hextension⟩
  · intro h
    refine ⟨fun both => h both.1 both.2, fun hend => ⟨?_, ?_⟩⟩
    · exact (List.prefix_append ..).isInfix.trans hend.isInfix
    · exact (List.suffix_append ..).trans hend

theorem recognises_archives_iff_film :
    (gCfg.isArchive "/media/film_archived.mp4".toList = true ↔
        ∃ o, "/media/film_archived.mp4".toList = gCfg.getArchivedFileName o) ↔
      (gCfg.resultFileSuffix <:+: "/media/film_archived.mp4".toList →
        gCfg.finalExtension <:+ "/media/film_archived.mp4".toList →
          gCfg.resultFileSuffix ++ gCfg.finalExtension <:+ "/media/film_archived.mp4".toList) :=
  gCfg.recognises_archives_iff _ (by decide)

/-- A film in a folder whose name has the suffix is taken for an archive. -/
theorem folder_taken_for_archive :
    ¬ (gCfg.isArchive "/media/2020_archived/film.mp4".toList = true ↔
      ∃ o, "/media/2020_archived/film.mp4".toList = gCfg.getArchivedFileName o) := by
  rw [exists_getArchivedFileName_iff]
  decide

/-! ## The way back -/

/-- What is left of the suffix and the extension when the last suffix is erased: the extension, unless the
suffix stands in them once more. -/
def restoredExtension : Text :=
  let ending := cfg.resultFileSuffix ++ cfg.finalExtension
  match rfind ending cfg.resultFileSuffix with
  | some pos => ending.take pos ++ ending.drop (pos + cfg.resultFileSuffix.length)
  | none => []

example : gCfg.restoredExtension = ".mp4".toList := by decide

/-- The way back from an archive leads to the stem of its source, with an extension that does not depend on
the source. -/
theorem eraseSuffix_getArchivedFileName (o : Path) :
    cfg.eraseSuffix (cfg.getArchivedFileName o) = .ok (stem '.' o ++ cfg.restoredExtension) := by
  have hfound : (rfind (cfg.resultFileSuffix ++ cfg.finalExtension) cfg.resultFileSuffix).isSome = true :=
    Lib.isSome_rfind (Lib.isSome_findFrom_zero.mpr (List.prefix_append ..).isInfix)
  obtain ⟨pos, hpos⟩ := Option.isSome_iff_exists.mp hfound
  unfold eraseSuffix restoredExtension
  rw [getArchivedFileName_eq, List.append_assoc, Lib.rfind_append hpos]
  dsimp only
  rw [hpos]
  dsimp only
  rw [List.take_length_add_append, Nat.add_assoc, List.drop_length_add_append, List.append_assoc]

/-- The events that lead to a call of the database. -/
def Appears (e : EventType) : Prop := e = .fileDiscovered ∨ e = .fileCreated ∨ e = .fileMoved

/-- A file that is there and not empty. -/
def Present (getFileSize : Path → Option Nat) (fileName : Path) : Prop :=
  fileName ≠ [] ∧ ∃ size, getFileSize fileName = some size ∧ 0 < size

variable {cfg} {getFileSize : Path → Option Nat} {e : EventType} {o : Path}

theorem pairUp_of_appears (he : Appears e) (dstIsArchive : Bool) (dst aName : Path) (size aSize : Nat) :
    pairUp e dstIsArchive dst aName size aSize =
      some
        { src := if !dstIsArchive || 0 < aSize then
            some (if dstIsArchive then ⟨aName, aSize⟩ else ⟨dst, size⟩) else none
          dst := if dstIsArchive || 0 < aSize then
            some (if dstIsArchive then ⟨dst, size⟩ else ⟨aName, aSize⟩) else none
          queue := !dstIsArchive || 0 < aSize } := by
  rcases he with rfl | rfl | rfl <;> rfl

theorem Appears.ne_deleted (he : Appears e) : e ≠ .fileDeleted := by
  rintro rfl
  rcases he with he | he | he <;> cases he

/-- What is passed for a source whose archive is there. -/
theorem addFileCall_of_source (he : Appears e) (hmedia : cfg.isInterestingFile o = true)
    (hsource : cfg.isArchive o = false) {size aSize : Nat} (ho : o ≠ [])
    (ha : cfg.getArchivedFileName o ≠ []) (hsize : getFileSize o = some size)
    (haSize : getFileSize (cfg.getArchivedFileName o) = some aSize) (hpos : 0 < aSize) :
    cfg.addFileCall getFileSize e o
      = some ⟨some ⟨o, size⟩, some ⟨cfg.getArchivedFileName o, aSize⟩, true⟩ := by
  simp [addFileCall, onFileSystemChange, he.ne_deleted, ho, hsize, hsource, hmedia, ha, haSize,
    pairUp_of_appears he, hpos]

/-- What is passed for an archive: the file to which the way back leads is the source, if it is there. -/
theorem addFileCall_of_archive (he : Appears e) {a aName : Path} (harch : cfg.isArchive a = true) {size : Nat}
    (ha : a ≠ []) (hsize : getFileSize a = some size) (herase : cfg.eraseSuffix a = .ok aName) :
    cfg.addFileCall getFileSize e a
      = some ⟨if 0 < counterpartSize getFileSize aName then
            some ⟨aName, counterpartSize getFileSize aName⟩ else none,
          some ⟨a, size⟩, 0 < counterpartSize getFileSize aName⟩ := by
  have hcall : cfg.onFileSystemChange getFileSize e a
      = .ok (pairUp e true a aName size (counterpartSize getFileSize aName)) := by
    unfold onFileSystemChange
    rw [if_neg he.ne_deleted, if_neg ha, hsize]
    simp only [harch, if_true, herase]
    rfl
  rw [addFileCall, hcall, pairUp_of_appears he]
  simp

variable (cfg)

/-- A source and its archive lead to the same call exactly if the source has the extension that the way back
restores. -/
theorem directions_agree_iff (getFileSize : Path → Option Nat) {e e' : EventType} (he : Appears e)
    (he' : Appears e') (o : Path) (hmedia : cfg.isInterestingFile o = true)
    (hsource : cfg.isArchive o = false) (ho : Present getFileSize o)
    (ha : Present getFileSize (cfg.getArchivedFileName o))
    (hlength : (cfg.getArchivedFileName o).length < 2 ^ 64) :
    cfg.addFileCall getFileSize e o = cfg.addFileCall getFileSize e' (cfg.getArchivedFileName o) ↔
      o = stem '.' o ++ cfg.restoredExtension := by
  obtain ⟨hone, size, hsize, hpos⟩ := ho
  obtain ⟨hane, aSize, haSize, hapos⟩ := ha
  rw [addFileCall_of_source he hmedia hsource hone hane hsize haSize hapos,
    addFileCall_of_archive he' (cfg.isArchive_getArchivedFileName hlength) hane haSize
      (cfg.eraseSuffix_getArchivedFileName o)]
  constructor
  · intro h
    simp only [Option.some.injEq, AddFileCall.mk.injEq] at h
    obtain ⟨hsrc, -, -⟩ := h
    split at hsrc
    · exact congrArg BasicFileInfo.fileName (Option.some.inj hsrc)
    · cases hsrc
  · intro h
    have hcount : counterpartSize getFileSize (stem '.' o ++ cfg.restoredExtension) = size := by
      rw [← h, counterpartSize, if_neg hone, hsize]
      rfl
    rw [hcount, ← h]
    simp [hpos]

/-- The film is there, and its archive. -/
def filmArchived : Path → Option Nat := fun fileName =>
  if fileName = "/media/film.mp4".toList then some 9
  else if fileName = "/media/film_archived.mp4".toList then some 4 else none

theorem directions_agree_iff_mp4 :
    gCfg.addFileCall filmArchived .fileDiscovered "/media/film.mp4".toList
        = gCfg.addFileCall filmArchived .fileDiscovered
          (gCfg.getArchivedFileName "/media/film.mp4".toList) ↔
      "/media/film.mp4".toList = stem '.' "/media/film.mp4".toList ++ gCfg.restoredExtension :=
  gCfg.directions_agree_iff filmArchived (Or.inl rfl) (Or.inl rfl) _ (by decide) (by decide)
    ⟨by decide, 9, by decide, by decide⟩ ⟨by decide, 4, by decide, by decide⟩ (by decide)

/-- The source of an archive is looked for under the archive's extension. -/
theorem mov_not_found :
    ¬ ∀ (getFileSize : Path → Option Nat) (o : Path), gCfg.isInterestingFile o = true →
      gCfg.isArchive o = false → Present getFileSize o →
      Present getFileSize (gCfg.getArchivedFileName o) →
      gCfg.addFileCall getFileSize .fileDiscovered o
        = gCfg.addFileCall getFileSize .fileDiscovered (gCfg.getArchivedFileName o) := by
  intro h
  have hmov := h (fun _ => some 9) "/media/film.mov".toList (by decide) (by decide)
    ⟨by decide, 9, rfl, by decide⟩ ⟨by decide, 9, rfl, by decide⟩
  revert hmov
  decide

end DaemonConfig

end MediaArchiver
