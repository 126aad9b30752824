/-
# MediaArchiver.Config.Settings -- what the configuration files of the two programs set

`parse` compares the key, in lower case, with the names that it knows, and converts the value. It throws
where the daemon's pattern is no regular expression, and nowhere else.

What becomes of a configuration is said by `assigned`: for each name the value of the last entry with it, in
any case, or else what was set before (`latest`). Each call of `parse` adds one entry to that (`LastWins`).
So `read` leaves the values of the last entries before the first one that cannot be used, and it does not
matter that the last line may have been parsed twice (`LastWins.of_read`).
-/
import MediaArchiver.Config.ConfigFile
import MediaArchiver.Daemon.Session

namespace MediaArchiver

namespace MediaArchiverConfig

universe u

/-! ## Numbers -/

/-- `c_str()`, as a C string. -/
def cString (s : Text) : Text := s.takeWhile (· ≠ Char.ofNat 0)

/-- `strtol` to the base 10: space, a sign, digits, and no more than fits. -/
def strtol (s : Text) : Int :=
  let digits (s : Text) : Int := (MediaArchiver.atoi (s.takeWhile Char.isDigit) : Nat)
  let number :=
    match s.dropWhile isSpace with
    | '-' :: s => -digits s
    | '+' :: s => digits s
    | s => digits s
  max (-2 ^ 63) (min number (2 ^ 63 - 1))

/-- `atol`. -/
def atol (value : Text) : Int := strtol (cString value)

/-- `atoi`: what `strtol` returns, as an `int`. -/
def atoi (value : Text) : Int := (strtol (cString value)).bmod (2 ^ 32)

example : atoi " -17, really".toList = -17 ∧ atoi "0x10".toList = 0 ∧ atoi "4294967297".toList = 1 := by
  decide

/-! ## The two configurations -/

/-- `std::regex(pattern, ECMAScript | icase)`: what it searches for, or what the exception says. -/
abbrev Regex := Text → Except Text (Path → Bool)

/-- All that the daemon's file can set. -/
structure DaemonFileConfig where
  verbosity : Int
  serverPort : Int
  aBitRate : Int
  vBitRate : Int
  crf : Int
  chunkSize : Int
  serverInstances : Int
  foldersToWatch : Text
  filenameMatchPattern : Path → Bool
  vCodec : Text
  aCodec : Text
  tempFolder : Text
  finalExtension : Text
  dbPath : Text
  resultFileSuffix : Text
  logFile : Text

/-- All that the client's file can set. -/
structure ClientFileConfig extends ClientSettings where
  verbosity : Int
  serverPort : Int
  serverName : Text

namespace DaemonFileConfig

/-- The settings that `main` starts from. -/
def gCfg : DaemonFileConfig where
  verbosity := 0
  serverPort := 2020
  aBitRate := 80000
  vBitRate := 0
  crf := 22
  chunkSize := 256 * 1024
  serverInstances := 5
  foldersToWatch := []
  filenameMatchPattern := MediaArchiver.gCfg.filenameMatchPattern
  vCodec := "libx265".toList
  aCodec := "aac".toList
  tempFolder := []
  finalExtension := ".mp4".toList
  dbPath := "/var/cache/MediaArchiver/MediaArchiver.db".toList
  resultFileSuffix := "_archived".toList
  logFile := []

/-- What of it the sessions, the watcher and the mover use. -/
def daemonConfig (config : DaemonFileConfig) : DaemonConfig where
  aBitRate := config.aBitRate
  vBitRate := config.vBitRate
  crf := config.crf
  -- a negative size becomes one that no vector has
  chunkSize := sizeT config.chunkSize
  vCodec := config.vCodec
  aCodec := config.aCodec
  tempFolder := config.tempFolder
  finalExtension := config.finalExtension
  resultFileSuffix := config.resultFileSuffix
  filenameMatchPattern := config.filenameMatchPattern

example : gCfg.daemonConfig = MediaArchiver.gCfg := rfl

/-- `MediaArchiverConfig<DaemonConfig>::parse`. -/
def parse (regex : Regex) (key value : Text) (config : DaemonFileConfig) :
    DaemonFileConfig × Except Exn Bool :=
  let k := key.map Char.toLower
  if k = "folderstowatch".toList then ({ config with foldersToWatch := value }, .ok true)
  else if k = "filenamematchpattern".toList then
    match regex (cString value) with
    | .ok pattern => ({ config with filenameMatchPattern := pattern }, .ok true)
    | .error what => (config, .error (.runtimeError what))
  else if k = "vcodec".toList then ({ config with vCodec := value }, .ok true)
  else if k = "acodec".toList then ({ config with aCodec := value }, .ok true)
  else if k = "tempfolder".toList then ({ config with tempFolder := value }, .ok true)
  else if k = "finalextension".toList then ({ config with finalExtension := value }, .ok true)
  else if k = "dbpath".toList then ({ config with dbPath := value }, .ok true)
  else if k = "resultfilesuffix".toList then ({ config with resultFileSuffix := value }, .ok true)
  else if k = "logfile".toList then ({ config with logFile := value }, .ok true)
  else if k = "verbosity".toList then ({ config with verbosity := atoi value }, .ok true)
  else if k = "serverport".toList then ({ config with serverPort := atoi value }, .ok true)
  else if k = "abitrate".toList then ({ config with aBitRate := atoi value }, .ok true)
  else if k = "vbitrate".toList then ({ config with vBitRate := atoi value }, .ok true)
  else if k = "crf".toList then ({ config with crf := atoi value }, .ok true)
  else if k = "chunksize".toList then ({ config with chunkSize := atoi value }, .ok true)
  else if k = "serverinstances".toList then ({ config with serverInstances := atoi value }, .ok true)
  else (config, .ok false)

end DaemonFileConfig

namespace ClientFileConfig

/-- The settings that `main` starts from. -/
def gCfg : ClientFileConfig where
  toClientSettings := ClientSettings.gCfg
  verbosity := 0
  serverPort := 2020
  serverName := "localhost".toList

/-- `MediaArchiverConfig<ClientConfig>::parse`. -/
def parse (key value : Text) (config : ClientFileConfig) : ClientFileConfig × Except Exn Bool :=
  let k := key.map Char.toLower
  if k = "serverconnectiontimeout".toList then
    ({ config with serverConnectionTimeout := atoi value }, .ok true)
  else if k = "verbosity".toList then ({ config with verbosity := atoi value }, .ok true)
  else if k = "checkfornewfileinterval".toList then
    ({ config with checkForNewFileInterval := atoi value }, .ok true)
  else if k = "reconnectdelay".toList then ({ config with reconnectDelay := atoi value }, .ok true)
  else if k = "serverport".toList then ({ config with serverPort := atoi value }, .ok true)
  else if k = "chunksize".toList then ({ config with chunkSize := sizeT (atol value) }, .ok true)
  else if k = "servername".toList then ({ config with serverName := value }, .ok true)
  else if k = "pathtoencoder".toList then ({ config with pathToEncoder := value }, .ok true)
  else if k = "pathtoprobe".toList then ({ config with pathToProbe := value }, .ok true)
  else if k = "tempfolder".toList then ({ config with tempFolder := value }, .ok true)
  else if k = "extracommandlineoptions".toList then
    ({ config with extraCommandLineOptions := value }, .ok true)
  else if k = "extraoptionspass1".toList then ({ config with extraOptionsPass1 := value }, .ok true)
  else if k = "extraoptionspass2".toList then ({ config with extraOptionsPass2 := value }, .ok true)
  else (config, .ok false)

end ClientFileConfig

/-! ## The last one wins -/

/-- The value of the last entry with this name as its key, in any case. -/
def latest (es : List (Text × Text)) (name : Text) : Option Text :=
  (es.filter fun e => e.1.map Char.toLower = name).getLast?.map Prod.snd

theorem latest_concat (es : List (Text × Text)) (key value name : Text) :
    latest (es ++ [(key, value)]) name
      = if key.map Char.toLower = name then some value else latest es name := by
  rw [latest, List.filter_append]
  by_cases h : key.map Char.toLower = name
  · rw [if_pos h, List.filter_cons_of_pos (by simpa using h), List.filter_nil, List.getLast?_concat]
    rfl
  · rw [if_neg h, List.filter_cons_of_neg (by simpa using h), List.filter_nil, List.append_nil, latest]

/-- The daemon's settings after these entries. -/
def DaemonFileConfig.assigned (regex : Regex) (es : List (Text × Text)) (config : DaemonFileConfig) :
    DaemonFileConfig where
  verbosity := ((latest es "verbosity".toList).map atoi).getD config.verbosity
  serverPort := ((latest es "serverport".toList).map atoi).getD config.serverPort
  aBitRate := ((latest es "abitrate".toList).map atoi).getD config.aBitRate
  vBitRate := ((latest es "vbitrate".toList).map atoi).getD config.vBitRate
  crf := ((latest es "crf".toList).map atoi).getD config.crf
  chunkSize := ((latest es "chunksize".toList).map atoi).getD config.chunkSize
  serverInstances := ((latest es "serverinstances".toList).map atoi).getD config.serverInstances
  foldersToWatch := (latest es "folderstowatch".toList).getD config.foldersToWatch
  filenameMatchPattern :=
    ((latest es "filenamematchpattern".toList).bind fun value => (regex (cString value)).toOption).getD
      config.filenameMatchPattern
  vCodec := (latest es "vcodec".toList).getD config.vCodec
  aCodec := (latest es "acodec".toList).getD config.aCodec
  tempFolder := (latest es "tempfolder".toList).getD config.tempFolder
  finalExtension := (latest es "finalextension".toList).getD config.finalExtension
  dbPath := (latest es "dbpath".toList).getD config.dbPath
  resultFileSuffix := (latest es "resultfilesuffix".toList).getD config.resultFileSuffix
  logFile := (latest es "logfile".toList).getD config.logFile

/-- Why the daemon cannot use an entry: a pattern that is no regular expression. -/
def DaemonFileConfig.refuses (regex : Regex) (e : Text × Text) : Option Exn :=
  if e.1.map Char.toLower = "filenamematchpattern".toList then
    match regex (cString e.2) with
    | .ok _ => none
    | .error what => some (.runtimeError what)
  else none

/-- The client's settings after these entries. -/
def ClientFileConfig.assigned (es : List (Text × Text)) (config : ClientFileConfig) : ClientFileConfig where
  chunkSize := ((latest es "chunksize".toList).map fun value => sizeT (atol value)).getD config.chunkSize
  reconnectDelay := ((latest es "reconnectdelay".toList).map atoi).getD config.reconnectDelay
  serverConnectionTimeout :=
    ((latest es "serverconnectiontimeout".toList).map atoi).getD config.serverConnectionTimeout
  checkForNewFileInterval :=
    ((latest es "checkfornewfileinterval".toList).map atoi).getD config.checkForNewFileInterval
  pathToEncoder := (latest es "pathtoencoder".toList).getD config.pathToEncoder
  pathToProbe := (latest es "pathtoprobe".toList).getD config.pathToProbe
  tempFolder := (latest es "tempfolder".toList).getD config.tempFolder
  extraCommandLineOptions :=
    (latest es "extracommandlineoptions".toList).getD config.extraCommandLineOptions
  extraOptionsPass1 := (latest es "extraoptionspass1".toList).getD config.extraOptionsPass1
  extraOptionsPass2 := (latest es "extraoptionspass2".toList).getD config.extraOptionsPass2
  verbosity := ((latest es "verbosity".toList).map atoi).getD config.verbosity
  serverPort := ((latest es "serverport".toList).map atoi).getD config.serverPort
  serverName := (latest es "servername".toList).getD config.serverName

/-! ## One call adds one entry -/

/-- `parse` has returned, and left this configuration. -/
def Left {T : Type u} (config : T) (done : T × Except Exn Bool) : Prop := ∃ known, done = (config, .ok known)

theorem Left.ite {T : Type u} {config : T} {c : Prop} [Decidable c] {yes no : T × Except Exn Bool}
    (hyes : c → Left config yes) (hno : ¬ c → Left config no) : Left config (if c then yes else no) := by
  split
  · exact hyes ‹c›
  · exact hno ‹¬ c›

/-- Entries that can be used are assigned, the last one with its key counts, and another one makes `parse`
throw. -/
structure LastWins {T : Type u} (parse : Text → Text → T → T × Except Exn Bool)
    (refuses : Text × Text → Option Exn) (assigned : List (Text × Text) → T → T) : Prop where
  start : ∀ config, assigned [] config = config
  used : ∀ es config key value, refuses (key, value) = none →
    Left (assigned (es ++ [(key, value)]) config) (parse key value (assigned es config))
  refused : ∀ config key value e, refuses (key, value) = some e → parse key value config = (config, .error e)
  twice : ∀ es e config, assigned (es ++ [e, e]) config = assigned (es ++ [e]) config

theorem latest_twice (es : List (Text × Text)) (e : Text × Text) :
    latest (es ++ [e, e]) = latest (es ++ [e]) := by
  funext name
  obtain ⟨key, value⟩ := e
  have happend : es ++ [(key, value), (key, value)] = (es ++ [(key, value)]) ++ [(key, value)] := by simp
  rw [happend, latest_concat, latest_concat]
  split <;> rfl

theorem DaemonFileConfig.parse_pattern {key : Text}
    (h : key.map Char.toLower = "filenamematchpattern".toList) (regex : Regex) (value : Text)
    (config : DaemonFileConfig) :
    parse regex key value config = match regex (cString value) with
      | .ok pattern => ({ config with filenameMatchPattern := pattern }, .ok true)
      | .error what => (config, .error (.runtimeError what)) := by
  simp only [parse, h, -String.reduceToList, String.toList_inj, String.reduceEq, reduceIte]

theorem DaemonFileConfig.lastWins (regex : Regex) :
    LastWins (parse regex) (refuses regex) (assigned regex) where
  start _ := rfl
  used es config key value h := by
    unfold refuses at h
    by_cases hpattern : key.map Char.toLower = "filenamematchpattern".toList
    · rw [if_pos hpattern] at h
      rw [parse_pattern hpattern]
      cases hregex : regex (cString value) with
      | error what =>
        rw [hregex] at h
        cases h
      | ok pattern =>
        exact ⟨true, by simp only [assigned, latest_concat, hpattern, -String.reduceToList, String.toList_inj,
          String.reduceEq, reduceIte, Option.bind_some, hregex, Except.toOption, Option.getD_some]⟩
    · unfold parse
      dsimp only
      rw [if_neg hpattern]
      repeat' refine Left.ite (fun hk => ?_) fun hk' => ?_
      rotate_right
      · exact ⟨false, by simp only [assigned, latest_concat, *, reduceIte]⟩
      all_goals
        exact ⟨true, by simp only [assigned, latest_concat, hk, -String.reduceToList, String.toList_inj,
          String.reduceEq, reduceIte, Option.map_some, Option.getD_some]⟩
  refused config key value e h := by
    unfold refuses at h
    by_cases hpattern : key.map Char.toLower = "filenamematchpattern".toList
    · rw [if_pos hpattern] at h
      rw [parse_pattern hpattern]
      cases hregex : regex (cString value) with
      | error what =>
        rw [hregex] at h
        rw [← Option.some.inj h]
      | ok pattern =>
        rw [hregex] at h
        cases h
    · rw [if_neg hpattern] at h
      cases h
  twice es e config := by
    simp only [assigned, latest_twice]

theorem ClientFileConfig.lastWins : LastWins parse (fun _ => none) assigned where
  start _ := rfl
  used es config key value _ := by
    unfold parse
    dsimp only
    repeat' refine Left.ite (fun hk => ?_) fun hk' => ?_
    rotate_right
    · exact ⟨false, by simp only [assigned, latest_concat, *, reduceIte]⟩
    all_goals
      exact ⟨true, by simp only [assigned, latest_concat, hk, -String.reduceToList, String.toList_inj,
        String.reduceEq, reduceIte, Option.map_some, Option.getD_some]⟩
  refused config key value e h := by cases h
  twice es e config := by
    simp only [assigned, latest_twice]

/-! ## What `read` leaves -/

/-- The entries before the first one that cannot be used. -/
def usable (refuses : Text × Text → Option Exn) (es : List (Text × Text)) : List (Text × Text) :=
  es.takeWhile fun e => (refuses e).isNone

/-- How `read` ends: with what the first entry that cannot be used throws, if there is one. -/
def ended (refuses : Text × Text → Option Exn) (file : Path) (es : List (Text × Text)) : Except Exn Unit :=
  match es.findSome? refuses with
  | some ex =>
      .error (.runtimeError ("file ".toList ++ file ++ " couldn't be processes: ".toList ++ ex.what))
  | none => .ok ()

variable {T : Type u} {parse : Text → Text → T → T × Except Exn Bool} {refuses : Text × Text → Option Exn}
  {assigned : List (Text × Text) → T → T}

/-- Parsing goes on with what was assigned before, up to the first entry that cannot be used. -/
theorem LastWins.of_parseAll (h : LastWins parse refuses assigned) (xs es : List (Text × Text)) (config : T)
    (cerr : List Text) :
    (parseAll parse xs ⟨assigned es config, cerr⟩).1.config = assigned (es ++ usable refuses xs) config
      ∧ (parseAll parse xs ⟨assigned es config, cerr⟩).2
        = match xs.findSome? refuses with
          | some ex => .error ex
          | none => .ok () := by
  induction xs generalizing es cerr with
  | nil => exact ⟨by rw [usable, List.takeWhile_nil, List.append_nil]; rfl, rfl⟩
  | cons e xs ih =>
    obtain ⟨key, value⟩ := e
    cases hrefuses : refuses (key, value) with
    | some ex =>
      have hparse := h.refused (assigned es config) key value ex hrefuses
      simp only [parseAll, call, hparse, usable, List.takeWhile_cons, hrefuses, List.findSome?_cons,
        Option.isNone_some, Bool.false_eq_true, if_false, List.append_nil, true_and]
    | none =>
      obtain ⟨known, hparse⟩ := h.used es config key value hrefuses
      have hih := ih (es ++ [(key, value)])
      rw [List.append_assoc] at hih
      simp only [parseAll, call, hparse, usable, List.takeWhile_cons, hrefuses, List.findSome?_cons]
      exact hih _

/-- What is parsed again makes no difference. -/
theorem LastWins.of_again (h : LastWins parse refuses assigned) (text : Text) (config : T) :
    assigned (usable refuses (entries text ++ again text)) config
        = assigned (usable refuses (entries text)) config
      ∧ (entries text ++ again text).findSome? refuses = (entries text).findSome? refuses := by
  rcases again_cases text with hagain | ⟨-, before, e, hentries, hagain⟩
  · rw [hagain, List.append_nil]
    exact ⟨rfl, rfl⟩
  · rw [hagain, hentries]
    constructor
    · unfold usable
      rw [List.takeWhile_append]
      split
      · rename_i hlength
        -- all of them can be used, and the last one twice
        have hall := List.takeWhile_eq_self_iff.mp ((List.takeWhile_prefix _).eq_of_length hlength)
        have he := hall e (by simp)
        have hlast : [e].takeWhile (fun e => (refuses e).isNone) = [e] := List.takeWhile_cons_of_pos he
        rw [List.takeWhile_eq_self_iff.mpr hall, hlast, List.append_assoc]
        exact h.twice before e config
      · rfl
    · rw [List.findSome?_append]
      cases hfound : (before ++ [e]).findSome? refuses with
      | some ex => rfl
      | none =>
        have he := List.findSome?_eq_none_iff.mp hfound e (by simp)
        simp [he]

/-- Whatever is in the file: the last ones of the entries before the first that cannot be used count. -/
theorem LastWins.of_read (h : LastWins parse refuses assigned) (file : Path) (text : Text) (config : T) :
    (read parse file (some text) config).1.config = assigned (usable refuses (entries text)) config
      ∧ (read parse file (some text) config).2 = ended refuses file (entries text) := by
  have hparsed := h.of_parseAll (entries text ++ again text) [] config []
  obtain ⟨hagain, hfound⟩ := h.of_again text config
  rw [h.start, List.nil_append, hagain, hfound] at hparsed
  obtain ⟨hconfig, hended⟩ := hparsed
  rw [read_found, ended, ← hconfig]
  generalize parseAll parse (entries text ++ again text) ⟨config, []⟩ = done at hended ⊢
  obtain ⟨r, outcome⟩ := done
  dsimp only at hended
  rw [hended]
  cases (entries text).findSome? refuses <;> exact ⟨rfl, rfl⟩

/-- Texts with the same entries are the same to `read`. -/
theorem LastWins.read_congr (h : LastWins parse refuses assigned) {text text' : Text}
    (heq : entries text' = entries text) (file : Path) (config : T) :
    (read parse file (some text') config).1.config = (read parse file (some text) config).1.config
      ∧ (read parse file (some text') config).2 = (read parse file (some text) config).2 := by
  obtain ⟨hconfig, hended⟩ := h.of_read file text config
  obtain ⟨hconfig', hended'⟩ := h.of_read file text' config
  rw [hconfig', hended', hconfig, hended, heq]
  exact ⟨rfl, rfl⟩

/-- The text with a line end more, with CRLF for LF, and with both. -/
def otherEnds (text : Text) : List Text :=
  [text ++ ['\n'], Lib.withReturns '\n' '\r' text, Lib.withReturns '\n' '\r' (text ++ ['\n'])]

theorem entries_otherEnds {text text' : Text} (h : text' ∈ otherEnds text) :
    entries text' = entries text := by
  rw [otherEnds, List.mem_cons, List.mem_cons, List.mem_singleton] at h
  rcases h with rfl | rfl | rfl
  · exact entries_newline text
  · exact entries_withReturns text
  · exact (entries_withReturns _).trans (entries_newline text)

theorem usable_none (es : List (Text × Text)) : usable (fun _ => none) es = es := by
  simp [usable]

theorem ended_none (file : Path) (es : List (Text × Text)) : ended (fun _ => none) file es = .ok () := by
  have hnone : es.findSome? (fun _ => (none : Option Exn)) = none :=
    List.findSome?_eq_none_iff.mpr fun _ _ => rfl
  rw [ended, hnone]

/-- The configuration file. `read` parses the entries of the lines in their order, the one of an unfinished
last line perhaps twice, up to the first that throws. The last one of a setting's entries counts, and the ends
of the lines do not. -/
theorem read_lastWins :
    (∀ (T : Type u) (parse : Text → Text → T → T × Except Exn Bool) (file : Path) (text : Text) (config : T),
        read parse file (some text) config
          = rethrown file (parseAll parse (entries text ++ again text) ⟨config, []⟩))
      ∧ (∀ text, again text = [] ∨ text.getLast? ≠ some '\n'
        ∧ ∃ before e, entries text = before ++ [e] ∧ again text = [e])
      ∧ (∀ (regex : Regex) (file : Path) (text : Text) (config : DaemonFileConfig),
        let done := read (DaemonFileConfig.parse regex) file (some text) config
        done.1.config
            = DaemonFileConfig.assigned regex (usable (DaemonFileConfig.refuses regex) (entries text)) config
          ∧ done.2 = ended (DaemonFileConfig.refuses regex) file (entries text)
          ∧ ∀ text' ∈ otherEnds text,
            (read (DaemonFileConfig.parse regex) file (some text') config).1.config = done.1.config
              ∧ (read (DaemonFileConfig.parse regex) file (some text') config).2 = done.2)
      ∧ ∀ (file : Path) (text : Text) (config : ClientFileConfig),
        let done := read ClientFileConfig.parse file (some text) config
        done.1.config = ClientFileConfig.assigned (entries text) config
          ∧ done.2 = .ok ()
          ∧ ∀ text' ∈ otherEnds text,
            (read ClientFileConfig.parse file (some text') config).1.config = done.1.config
              ∧ (read ClientFileConfig.parse file (some text') config).2 = done.2 := by
  refine ⟨fun T => read_found, again_cases, fun regex file text config => ?_, fun file text config => ?_⟩
  · have hwins := DaemonFileConfig.lastWins regex
    obtain ⟨hconfig, hended⟩ := hwins.of_read file text config
    exact ⟨hconfig, hended, fun text' h => hwins.read_congr (entries_otherEnds h) file config⟩
  · have hwins := ClientFileConfig.lastWins
    obtain ⟨hconfig, hended⟩ := hwins.of_read file text config
    rw [usable_none] at hconfig
    rw [ended_none] at hended
    exact ⟨hconfig, hended, fun text' h => hwins.read_congr (entries_otherEnds h) file config⟩

/-- A group that is not closed is no regular expression. -/
def openGroup : Regex := fun pattern =>
  if pattern = "(".toList then .error "Parenthesis is not closed.".toList else .ok fun _ => false

/-- The line after such a pattern is not parsed. -/
theorem pattern_stops_read :
    let text := "filenameMatchPattern = (\nverbosity = 9\n".toList
    let done := read (DaemonFileConfig.parse openGroup) "MediaArchiver.cfg".toList (some text)
      DaemonFileConfig.gCfg
    entries text = [("filenameMatchPattern".toList, "(".toList), ("verbosity".toList, "9".toList)]
      ∧ done.2 = .error (.runtimeError
        "file MediaArchiver.cfg couldn't be processes: Parenthesis is not closed.".toList)
      ∧ done.1.config.verbosity = 0
      ∧ (DaemonFileConfig.assigned openGroup (entries text) DaemonFileConfig.gCfg).verbosity = 9 := by
  intro text done
  obtain ⟨hconfig, hended⟩ := (DaemonFileConfig.lastWins openGroup).of_read "MediaArchiver.cfg".toList text
    DaemonFileConfig.gCfg
  have hentries : entries text
      = [("filenameMatchPattern".toList, "(".toList), ("verbosity".toList, "9".toList)] := by decide
  refine ⟨hentries, ?_, ?_, ?_⟩
  · rw [hended, hentries]
    decide
  · rw [hconfig, hentries]
    decide
  · rw [hentries]
    decide

end MediaArchiverConfig

end MediaArchiver
