/-
# MediaArchiver.Client.TempFiles -- where the files of a job are

The client names the files of a job in five places: with and without `tempFolder`, with and without
quotation marks. What a name means is decided by the folders and by the working folder, and for the programs
that it runs also by the shell. When the job is done, `removeTempFiles` reads `tempFolder` and removes what
begins with the names of the temp files, by the names alone; the pass log it removes under a name that has
the quotation marks in it.

The job has one set of files that are gone afterwards exactly if `tempFolder` is another name of the working
folder, the job has one pass, the names mean the same to the shell and the extensions lead nowhere else
(`oneSet_iff`).
-/
import MediaArchiver.Lib.Folders
import MediaArchiver.Lib.Shell
import MediaArchiver.Client.Encoder

namespace MediaArchiver

open Lib (Folders)
open Lib.Shell (Plain ReadAsIs readAsIs_iff mark_not_mem_of_plain doubleQuoted mark)

universe u

/-! ## The names -/

/-- The name under which `doIdle` opens the file that is received. -/
def MediaEncoderSettings.receivedName (settings : MediaEncoderSettings) : Path :=
  inTmpFileName ++ ".".toList ++ settings.fileExtension

/-- The name of the encoder's output in its folder. -/
def MediaEncoderSettings.encodedName (settings : MediaEncoderSettings) : Path :=
  outTmpFileName ++ settings.finalExtension

namespace ClientSettings

variable (cfg : ClientSettings) (settings : MediaEncoderSettings)

/-- The log of the first pass, as `doConvert` looks for it. -/
def passLog : Path :=
  cfg.tempFolder ++ "/".toList ++ pass1ResultFilePrefix ++ pass1ResultFileSuffix

/-- What `removeTempFiles` takes for the log of the first pass. -/
def passLogToRemove : Path :=
  " \"".toList ++ cfg.tempFolder ++ "/".toList ++ pass1ResultFilePrefix ++ pass1ResultFileSuffix
    ++ "\"".toList

theorem inFile_eq : cfg.inFile settings = cfg.tempFolder ++ '/' :: settings.receivedName := by
  simp only [inFile, MediaEncoderSettings.receivedName, List.append_assoc]
  rfl

theorem outFile_eq : cfg.outFile settings = cfg.tempFolder ++ '/' :: settings.encodedName := by
  simp only [outFile, MediaEncoderSettings.encodedName, List.append_assoc]
  rfl

theorem passLog_eq :
    cfg.passLog = cfg.tempFolder ++ '/' :: (pass1ResultFilePrefix ++ pass1ResultFileSuffix) := by
  simp only [passLog, List.append_assoc]
  rfl

/-- Each pass has the input between quotation marks. -/
theorem getTranscodeCommand_input (passNo : Nat) :
    ∃ before rest, cfg.getTranscodeCommand settings passNo
      = before ++ doubleQuoted (cfg.inFile settings) rest := by
  have hopen : " -i \"".toList = " -i ".toList ++ [mark] := by decide
  have hclose : "\" ".toList = mark :: " ".toList := by decide
  have hpieces : ∀ {before after : Text}, " -i \"".toList = before → "\" ".toList = after →
      ∃ rest, cfg.getTranscodeCommand settings passNo
        = cfg.pathToEncoder ++ before ++ cfg.inFile settings ++ after ++ rest := by
    rintro _ _ rfl rfl
    simp only [getTranscodeCommand, List.append_assoc]
    exact ⟨_, rfl⟩
  obtain ⟨rest, hline⟩ := hpieces hopen hclose
  refine ⟨cfg.pathToEncoder ++ " -i ".toList, " ".toList ++ rest, ?_⟩
  rw [hline]
  simp only [doubleQuoted, List.append_assoc, List.cons_append, List.nil_append]

/-- The second pass has the output between quotation marks. -/
theorem getTranscodeCommand_output :
    ∃ before rest, cfg.getTranscodeCommand settings 2
      = before ++ doubleQuoted (cfg.outFile settings) rest := by
  have hopen : " \"".toList = " ".toList ++ [mark] := by decide
  have hclose : "\"".toList = [mark] := by decide
  have hpieces : ∀ {start stop : Text}, " \"".toList = start → "\"".toList = stop →
      ∃ before, cfg.getTranscodeCommand settings 2
        = before ++ (start ++ cfg.outFile settings ++ stop) ++ " 2>&1 ".toList := by
    rintro _ _ rfl rfl
    exact ⟨_, rfl⟩
  obtain ⟨before, hline⟩ := hpieces hopen hclose
  refine ⟨before ++ " ".toList, " 2>&1 ".toList, ?_⟩
  rw [hline]
  simp only [doubleQuoted, List.append_assoc, List.cons_append, List.nil_append]

end ClientSettings

/-- The command line has the path between quotation marks, and what the shell reads there is the path. -/
def Names (commandLine : Text) (path : Path) : Prop :=
  (∃ before rest, commandLine = before ++ doubleQuoted path rest) ∧ ReadAsIs path

/-! ## The files of a job -/

/-- `rfind` finds one of the names at the start. -/
def isTempFile (name : Text) : Bool := inTmpFileName.isPrefixOf name || outTmpFileName.isPrefixOf name

theorem isTempFile_receivedName (settings : MediaEncoderSettings) :
    isTempFile settings.receivedName = true := by
  simp [isTempFile, MediaEncoderSettings.receivedName]

theorem isTempFile_encodedName (settings : MediaEncoderSettings) :
    isTempFile settings.encodedName = true := by
  simp [isTempFile, MediaEncoderSettings.encodedName]

section Places

variable {δ : Type u} (F : Folders δ) (cwd : δ)

/-- What is read from the folder: each file that is in it, and whatever else is there. -/
def Reads (dir : Path) (files : List (δ × Text)) : Option (List Text) → Prop
  | none => F.openFolder cwd dir = none
  | some names => ∃ d, F.openFolder cwd dir = some d ∧ ∀ n, (d, n) ∈ files → n ∈ names

/-- The files that a job makes: the one that it receives, the encoder's output, and the log of the first of two
passes. -/
def ClientSettings.jobFiles (cfg : ClientSettings) (settings : MediaEncoderSettings) : List (δ × Text) :=
  (F.place cwd settings.receivedName).toList ++ (F.place cwd (cfg.outFile settings)).toList
    ++ (if settings.pass2Enabled then (F.place cwd cfg.passLog).toList else [])

/-- The name means a file of the working folder whose own name begins as those of the temp files. -/
def Stays (name : Path) : Prop := ∀ p, F.place cwd name = some p → p.1 = cwd ∧ isTempFile p.2 = true

variable {F cwd} {cfg : ClientSettings} {settings : MediaEncoderSettings} {p : δ × Text}

/-- A name without a slash stays. -/
theorem stays_of_name {name : Path} (hslash : '/' ∉ name) (htemp : isTempFile name = true) :
    Stays F cwd name := by
  intro p hp
  have hne : name ≠ [] := by
    rintro rfl
    exact absurd htemp (by decide)
  rw [Folders.place_of_name hslash hne] at hp
  cases hp
  exact ⟨rfl, htemp⟩

theorem mem_jobFiles :
    p ∈ cfg.jobFiles F cwd settings ↔
      (F.place cwd settings.receivedName = some p ∨ F.place cwd (cfg.outFile settings) = some p)
        ∨ (settings.pass2Enabled = true ∧ F.place cwd cfg.passLog = some p) := by
  unfold ClientSettings.jobFiles
  rw [List.mem_append, List.mem_append, Option.mem_toList, Option.mem_toList]
  split_ifs with htwo
  · rw [Option.mem_toList]
    simp [htwo]
  · simp [htwo]

/-- No file that a job makes has the name that the pass log is removed by. -/
theorem mark_mem_passLogToRemove (h : F.place cwd cfg.passLogToRemove = some p) : mark ∈ p.2 := by
  have hlast : "\"".toList = [mark] := by decide
  have hpath : ∀ {start stop : Text}, " \"".toList = start → "\"".toList = stop →
      cfg.passLogToRemove
        = (start ++ cfg.tempFolder) ++ '/' :: (pass1ResultFilePrefix ++ pass1ResultFileSuffix ++ stop) := by
    rintro _ _ rfl rfl
    simp only [ClientSettings.passLogToRemove, List.append_assoc]
    rfl
  rw [hpath rfl hlast] at h
  rw [Folders.name_of_place_child (by decide) (by decide) h]
  decide

theorem name_of_passLog (h : F.place cwd cfg.passLog = some p) :
    p.2 = pass1ResultFilePrefix ++ pass1ResultFileSuffix := by
  rw [ClientSettings.passLog_eq] at h
  exact Folders.name_of_place_child (by decide) (by decide) h

/-- The files of a job have names. -/
theorem place_of_mem_jobFiles (h : p ∈ cfg.jobFiles F cwd settings) :
    F.place cwd p.2 = some (cwd, p.2) := by
  have hname : ∀ {path : Path}, F.place cwd path = some p → F.place cwd p.2 = some (cwd, p.2) := by
    intro path hp
    obtain ⟨hslash, hne, -⟩ := Folders.name_of_place (show F.place cwd path = some (p.1, p.2) from hp)
    exact Folders.place_of_name hslash hne
  rcases mem_jobFiles.mp h with (hp | hp) | ⟨-, hp⟩ <;> exact hname hp

end Places

/-! ## Removing the files -/

section Removal

variable {δ : Type u} [DecidableEq δ] (F : Folders δ) (cwd : δ)

/-- `remove` of a path. The files are the places that have one. -/
def remove (path : Path) (files : List (δ × Text)) : List (δ × Text) :=
  files.filter fun p => F.place cwd path ≠ some p

/-- The loop over the names that are read from the folder. -/
def removeListed (names : List Text) (files : List (δ × Text)) : List (δ × Text) :=
  names.foldl (fun files name => if isTempFile name then remove F cwd name files else files) files

/-- Remove the files of the job. The names are those that are read from `tempFolder`, if it can be opened. -/
def ClientSettings.removeTempFiles (cfg : ClientSettings) (names : Option (List Text))
    (files : List (δ × Text)) : List (δ × Text) :=
  let files :=
    match names with
    | some names => removeListed F cwd names files
    | none => files
  remove F cwd cfg.passLogToRemove files

variable (cfg : ClientSettings) (settings : MediaEncoderSettings)

/-- The programs get the names as they are, the file that is received is the one that is encoded and probed,
and of the files that a job made none remains. -/
structure OneSet : Prop where
  input_read : ∀ passNo, Names (cfg.getTranscodeCommand settings passNo) (cfg.inFile settings)
  output_read : Names (cfg.getTranscodeCommand settings 2) (cfg.outFile settings)
  same_input : F.place cwd settings.receivedName = F.place cwd (cfg.inFile settings)
  gone : ∀ made before names, made ⊆ cfg.jobFiles F cwd settings →
    Reads F cwd cfg.tempFolder (made ++ before) names →
      ∀ p ∈ made, p ∉ cfg.removeTempFiles F cwd names (made ++ before)

variable {F cwd cfg settings} {path : Path} {files : List (δ × Text)} {p : δ × Text}

theorem mem_remove : p ∈ remove F cwd path files ↔ p ∈ files ∧ F.place cwd path ≠ some p := by
  rw [remove, List.mem_filter, decide_eq_true_iff]

theorem mem_removeListed {names : List Text} :
    p ∈ removeListed F cwd names files ↔
      p ∈ files ∧ ∀ n ∈ names, isTempFile n = true → F.place cwd n ≠ some p := by
  induction names generalizing files with
  | nil => simp [removeListed]
  | cons name names ih =>
    rw [removeListed, List.foldl_cons, ← removeListed, ih, List.forall_mem_cons]
    split_ifs with htemp
    · rw [mem_remove, and_assoc]
      simp only [htemp, forall_const]
    · simp [htemp]

/-- What is left was there before, has a name that no name read from the folder leads to, and is not what the
last name leads to. -/
theorem mem_removeTempFiles {names : Option (List Text)} :
    p ∈ cfg.removeTempFiles F cwd names files ↔
      p ∈ files
        ∧ (∀ ns, names = some ns → ∀ n ∈ ns, isTempFile n = true → F.place cwd n ≠ some p)
        ∧ F.place cwd cfg.passLogToRemove ≠ some p := by
  unfold ClientSettings.removeTempFiles
  rw [mem_remove]
  cases names with
  | none => simp
  | some ns =>
    rw [mem_removeListed, and_assoc]
    simp

/-- A file that the job makes and that does not remain is in the working folder, under a name that is also in
`tempFolder`. Nothing but the files of the job need be there. -/
theorem OneSet.removed (h : OneSet F cwd cfg settings) (hp : p ∈ cfg.jobFiles F cwd settings)
    (hmark : mark ∉ p.2) :
    p.1 = cwd ∧ isTempFile p.2 = true
      ∧ ∃ d, F.openFolder cwd cfg.tempFolder = some d ∧ (d, p.2) ∈ cfg.jobFiles F cwd settings := by
  have hgone := h.gone (cfg.jobFiles F cwd settings) []
  simp only [List.append_nil] at hgone
  cases hdir : F.openFolder cwd cfg.tempFolder with
  | none =>
    have hleft := hgone none (List.Subset.refl _) hdir p hp
    refine absurd (mem_removeTempFiles.mpr ⟨hp, by simp, fun hlog => ?_⟩) hleft
    exact hmark (mark_mem_passLogToRemove hlog)
  | some d =>
    let names := ((cfg.jobFiles F cwd settings).filter fun q => q.1 = d).map Prod.snd
    have hmem : ∀ n, n ∈ names ↔ (d, n) ∈ cfg.jobFiles F cwd settings := by
      intro n
      simp [names]
    have hleft := hgone (some names) (List.Subset.refl _)
      ⟨d, hdir, fun n hn => (hmem n).mpr hn⟩ p hp
    rw [mem_removeTempFiles, not_and, not_and_or] at hleft
    rcases hleft hp with hlisted | hlog
    · push Not at hlisted
      obtain ⟨ns, hns, n, hn, htemp, hplace⟩ := hlisted
      cases hns
      rw [place_of_mem_jobFiles ((hmem n).mp hn)] at hplace
      cases hplace
      exact ⟨rfl, htemp, d, rfl, (hmem n).mp hn⟩
    · exact absurd (mark_mem_passLogToRemove (not_not.mp hlog)) hmark

/-- Such a folder is the working folder, and the job has one pass. -/
theorem OneSet.folder (h : OneSet F cwd cfg settings) (hopen : F.place cwd settings.receivedName = some p) :
    F.openFolder cwd cfg.tempFolder = some cwd ∧ settings.pass2Enabled = false
      ∧ p.1 = cwd ∧ isTempFile p.2 = true := by
  have hin := mark_not_mem_of_plain ((readAsIs_iff _).mp (h.input_read 1).2)
  have hmark : ∀ {q : δ × Text}, F.place cwd (cfg.inFile settings) = some q → mark ∉ q.2 :=
    fun {q} hq hmem => hin ((Folders.name_of_place
      (show F.place cwd (cfg.inFile settings) = some (q.1, q.2) from hq)).2.2 hmem)
  have hp : p ∈ cfg.jobFiles F cwd settings := mem_jobFiles.mpr (Or.inl (Or.inl hopen))
  have hplog : isTempFile (pass1ResultFilePrefix ++ pass1ResultFileSuffix) = false := by decide
  have hnomark : mark ∉ p.2 := hmark (h.same_input ▸ hopen)
  obtain ⟨hcwd, htemp, d, hdir, hd⟩ := h.removed hp hnomark
  -- the name of the input in `tempFolder` is a file of the job, and that file is in the working folder
  have hfolder : d = cwd := by
    rcases mem_jobFiles.mp hd with (hreceived | hencoded) | ⟨-, hlog⟩
    · rw [hopen, Option.some_inj] at hreceived
      rw [← hcwd, hreceived]
    · exact (h.removed hd hnomark).1
    · have hname := name_of_passLog hlog
      dsimp only at hname
      rw [hname, hplog] at htemp
      cases htemp
  subst hfolder
  refine ⟨hdir, ?_, hcwd, htemp⟩
  by_contra htwo
  rw [Bool.not_eq_false] at htwo
  have hlog : F.place d cfg.passLog = some (d, pass1ResultFilePrefix ++ pass1ResultFileSuffix) := by
    rw [ClientSettings.passLog_eq, Folders.place_child hdir (by decide) (by decide)]
    exact Folders.place_of_name (by decide) (by decide)
  have hlogmark : mark ∉ pass1ResultFilePrefix ++ pass1ResultFileSuffix := by decide
  have hremoved := h.removed (mem_jobFiles.mpr (Or.inr ⟨htwo, hlog⟩)) hlogmark
  rw [hplog] at hremoved
  cases hremoved.2.1

/-- Whatever the shell, the folders and the settings are: one set of files that are gone afterwards there is
exactly if `tempFolder` is the working folder, no log is kept, the names mean the same to the shell and the
extensions do not lead to another folder. -/
theorem oneSet_iff (hopen : (F.place cwd settings.receivedName).isSome = true) :
    OneSet F cwd cfg settings ↔
      F.openFolder cwd cfg.tempFolder = some cwd ∧ settings.pass2Enabled = false
        ∧ Plain (cfg.inFile settings) ∧ Plain (cfg.outFile settings)
        ∧ Stays F cwd settings.receivedName ∧ Stays F cwd settings.encodedName := by
  obtain ⟨p, hopen⟩ := Option.isSome_iff_exists.mp hopen
  have hin : ∀ {d}, F.openFolder cwd cfg.tempFolder = some d →
      F.place cwd (cfg.inFile settings) = F.place d settings.receivedName := by
    intro d hdir
    rw [cfg.inFile_eq]
    exact Folders.place_child hdir (List.cons_ne_nil _ _) (show some 'i' ≠ some '/' by decide)
  have hout : ∀ {d}, F.openFolder cwd cfg.tempFolder = some d →
      F.place cwd (cfg.outFile settings) = F.place d settings.encodedName := by
    intro d hdir
    rw [cfg.outFile_eq]
    exact Folders.place_child hdir (List.cons_ne_nil _ _) (show some 'o' ≠ some '/' by decide)
  constructor
  · intro h
    obtain ⟨hdir, hone, hstays⟩ := h.folder hopen
    have hplain := (readAsIs_iff _).mp h.output_read.2
    refine ⟨hdir, hone, (readAsIs_iff _).mp (h.input_read 1).2, hplain, fun q hq => ?_, fun q hq => ?_⟩
    · rw [hopen] at hq
      cases hq
      exact hstays
    · rw [← hout hdir] at hq
      have hmark : mark ∉ q.2 := fun hmem => mark_not_mem_of_plain hplain
        ((Folders.name_of_place (show F.place cwd _ = some (q.1, q.2) from hq)).2.2 hmem)
      obtain ⟨hcwd, htemp, -⟩ := h.removed (mem_jobFiles.mpr (Or.inl (Or.inr hq))) hmark
      exact ⟨hcwd, htemp⟩
  · rintro ⟨hdir, hone, hinput, houtput, hreceived, hencoded⟩
    refine ⟨fun passNo => ⟨cfg.getTranscodeCommand_input settings passNo, (readAsIs_iff _).mpr hinput⟩,
      ⟨cfg.getTranscodeCommand_output settings, (readAsIs_iff _).mpr houtput⟩, (hin hdir).symm, ?_⟩
    intro made before names hmade hreads q hq hleft
    have hjob := hmade hq
    have hstays : q.1 = cwd ∧ isTempFile q.2 = true := by
      rcases mem_jobFiles.mp hjob with (hq | hq) | ⟨htwo, -⟩
      · exact hreceived q hq
      · exact hencoded q (hout hdir ▸ hq)
      · rw [hone] at htwo
        cases htwo
    obtain ⟨-, hlisted, -⟩ := mem_removeTempFiles.mp hleft
    cases names with
    | none =>
      rw [Reads, hdir] at hreads
      cases hreads
    | some ns =>
      obtain ⟨d, hd, hmem⟩ := hreads
      rw [hdir] at hd
      cases hd
      have hfile : (cwd, q.2) ∈ made ++ before := by
        rw [← hstays.1]
        exact List.mem_append_left before hq
      refine hlisted ns rfl q.2 (hmem q.2 hfile) hstays.2 ?_
      rw [place_of_mem_jobFiles hjob, ← hstays.1]

/-- A hierarchy in which each name leads to a folder. -/
def everyFolder : Folders (List Text) where
  root := []
  enter dir name :=
    some (if name = ".".toList then dir else if name = "..".toList then dir.dropLast else dir ++ [name])

/-- A film that is encoded in one pass. -/
def onePass : MediaEncoderSettings where
  fileLength := 1000
  encoderType := "ffmpeg".toList
  fileExtension := "avi".toList
  finalExtension := ".mp4".toList
  commandLineParameters := "-c:v libaom-av1 -crf 22".toList

/-- With the `tempFolder` of the configuration file. -/
theorem oneSet_dot :
    OneSet everyFolder ["home".toList] { ClientSettings.gCfg with tempFolder := ".".toList } onePass :=
  (oneSet_iff (by decide)).mpr ⟨by decide, by decide, by decide, by decide,
    stays_of_name (by decide) (isTempFile_receivedName _),
    stays_of_name (by decide) (isTempFile_encodedName _)⟩

/-- With the `tempFolder` that `main` starts from, the encoder looks for the film in another folder than the one
where it was received. With two passes, the log of the first is still there afterwards. -/
theorem not_oneSet :
    ¬ OneSet everyFolder ["home".toList] ClientSettings.gCfg onePass
      ∧ ¬ OneSet everyFolder ["home".toList] { ClientSettings.gCfg with tempFolder := ".".toList }
          { onePass with commandLineParameters := "-c:v libaom-av1".toList } := by
  constructor
  · intro h
    exact absurd h.same_input (by decide)
  · intro h
    let log : List Text × Text := (["home".toList], pass1ResultFilePrefix ++ pass1ResultFileSuffix)
    have hreads : Reads everyFolder ["home".toList] ".".toList ([log] ++ []) (some [log.2]) :=
      ⟨["home".toList], by decide, by simp [log]⟩
    exact absurd (h.gone [log] [] (some [log.2]) (by decide) hreads log (by decide)) (by decide)

/-- The files before and after a number of jobs. Each makes some of its files and cleans up. -/
inductive Jobs (F : Folders δ) (cwd : δ) (cfg : ClientSettings) :
    List MediaEncoderSettings → List (δ × Text) → List (δ × Text) → Prop
  | none (files : List (δ × Text)) : Jobs F cwd cfg [] files files
  | next {settings jobs made names files rest} (hmade : made ⊆ cfg.jobFiles F cwd settings)
      (hreads : Reads F cwd cfg.tempFolder (made ++ files) names)
      (hrest : Jobs F cwd cfg jobs (cfg.removeTempFiles F cwd names (made ++ files)) rest) :
      Jobs F cwd cfg (settings :: jobs) files rest

/-- A job that has one set of files leaves nothing. -/
theorem OneSet.subset {made : List (δ × Text)} {names : Option (List Text)}
    (h : OneSet F cwd cfg settings) (hmade : made ⊆ cfg.jobFiles F cwd settings)
    (hreads : Reads F cwd cfg.tempFolder (made ++ files) names) :
    cfg.removeTempFiles F cwd names (made ++ files) ⊆ files := by
  intro p hleft
  have hmem := (mem_removeTempFiles.mp hleft).1
  rcases List.mem_append.mp hmem with hmade' | hbefore
  · exact absurd hleft (h.gone made files names hmade hreads p hmade')
  · exact hbefore

/-- What a job finds was there before the first one, if each job before it has one set of files. -/
theorem Jobs.subset {jobs : List MediaEncoderSettings} {rest : List (δ × Text)}
    (h : Jobs F cwd cfg jobs files rest) (hjobs : ∀ settings ∈ jobs, OneSet F cwd cfg settings) :
    rest ⊆ files := by
  induction h with
  | none => exact List.Subset.refl _
  | next hmade hreads hrest ih =>
    obtain ⟨hset, hjobs⟩ := List.forall_mem_cons.mp hjobs
    exact List.Subset.trans (ih hjobs) (hset.subset hmade hreads)

end Removal

end MediaArchiver
