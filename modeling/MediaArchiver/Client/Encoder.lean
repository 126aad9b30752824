/-
# MediaArchiver.Client.Encoder -- the programs that the client runs

The client runs an encoder, in one pass or in two, and a probe that tells the duration of a file. Both
are started with a command line and read through a pipe; what they print, how they exit and whether
they start at all are answers of the environment. What is the client's own is how it builds the command
line, and how it reads a duration out of the probe's output.
-/
import MediaArchiver.Lib.Text
import MediaArchiver.Client.Client

namespace MediaArchiver

open Lib (findFrom)

/-- The settings of the client. `ClientConfig` has those that the upload uses. -/
structure ClientSettings extends ClientConfig where
  serverConnectionTimeout : Int
  checkForNewFileInterval : Int
  pathToEncoder : Text
  pathToProbe : Text
  tempFolder : Text
  extraCommandLineOptions : Text
  extraOptionsPass1 : Text
  extraOptionsPass2 : Text

/-- The settings that `main` starts from. -/
def ClientSettings.gCfg : ClientSettings where
  chunkSize := 256 * 1024
  reconnectDelay := 3333
  serverConnectionTimeout := 5000
  checkForNewFileInterval := 60000
  pathToEncoder := []
  pathToProbe := []
  tempFolder := "/tmp".toList
  extraCommandLineOptions := []
  extraOptionsPass1 := []
  extraOptionsPass2 := []

def inTmpFileName : Text := "infile00".toList

def outTmpFileName : Text := "outfile00".toList

def pass1ResultFilePrefix : Text := "ffmpeg2pass".toList

def pass1ResultFileSuffix : Text := "-0.log".toList

/-! ## Encoding -/

/-- A second pass is run unless the parameters ask for a constant rate factor. -/
def MediaEncoderSettings.pass2Enabled (settings : MediaEncoderSettings) : Bool :=
  (findFrom settings.commandLineParameters "-crf".toList 0).isNone

namespace ClientSettings

/-- The file that is received and encoded. -/
def inFile (cfg : ClientSettings) (settings : MediaEncoderSettings) : Path :=
  cfg.tempFolder ++ "/".toList ++ inTmpFileName ++ ".".toList ++ settings.fileExtension

/-- The file that the encoder writes. -/
def outFile (cfg : ClientSettings) (settings : MediaEncoderSettings) : Path :=
  cfg.tempFolder ++ "/".toList ++ outTmpFileName ++ settings.finalExtension

/-- The encoder's command line. -/
def getTranscodeCommand (cfg : ClientSettings) (settings : MediaEncoderSettings) (passNo : Nat) :
    Text :=
  let quoted (path : Path) : Text := " \"".toList ++ path ++ "\"".toList
  let passFile := quoted (cfg.tempFolder ++ "/".toList ++ pass1ResultFilePrefix)
  cfg.pathToEncoder ++ " -i \"".toList ++ cfg.inFile settings ++ "\" ".toList
    ++ settings.commandLineParameters
    ++ (if settings.pass2Enabled then
          " -pass ".toList ++ (if passNo = 1 then "1 -an -f null " else "2 ").toList
            ++ " -passlogfile ".toList ++ passFile ++ " ".toList ++ cfg.extraCommandLineOptions
            ++ " ".toList ++ (if passNo = 1 then cfg.extraOptionsPass1 else cfg.extraOptionsPass2)
        else " ".toList ++ cfg.extraCommandLineOptions)
    ++ " ".toList
    ++ (if passNo = 2 then quoted (cfg.outFile settings) else "/dev/null".toList)
    ++ " 2>&1 ".toList

end ClientSettings

/-- `launch`: start a program, if `popen` can. -/
def launch (cmdLine : Text) (launches : Bool) : Except Exn Unit :=
  if launches then .ok ()
  else .error (.runtimeError ("could not start external command: ".toList ++ cmdLine))

/-! ## The duration of a file -/

/-- What one run of the probe does: whether it starts, what it prints, how it exits. -/
structure ProbeAnswers where
  launches : Bool
  output : Text
  exit : Int
deriving DecidableEq

/-- `atoi` of digits. -/
def atoi (digits : Text) : Nat :=
  digits.foldl (fun n c => 10 * n + (c.toNat - '0'.toNat)) 0

/-- `[ \t\n\v\f\r]`. -/
def isSpace (c : Char) : Bool :=
  c = ' ' || c = '\t' || c = '\n' || c = Char.ofNat 11 || c = Char.ofNat 12 || c = '\r'

/-- A prefix without regard to case, and what follows it. -/
def dropPrefixIcase : Text → Text → Option Text
  | [], s => some s
  | _ :: _, [] => none
  | p :: ps, c :: s => if p.toLower = c.toLower then dropPrefixIcase ps s else none

/-- `(\d*):`, with what follows. -/
def digitsColon (s : Text) : Option (Text × Text) :=
  match s.span Char.isDigit with
  | (digits, ':' :: rest) => some (digits, rest)
  | _ => none

/-- `(\d*).(\d*)` at the end of the pattern, of which only the first group counts. Where nothing
follows the digits that the dot can stand for, it stands for the last of them. -/
def digitsDot (s : Text) : Option Text :=
  match s.span Char.isDigit with
  | (digits, c :: _) =>
      if c ≠ '\n' ∧ c ≠ '\r' then some digits
      else if digits = [] then none else some digits.dropLast
  | (digits, []) => if digits = [] then none else some digits.dropLast

/-- `(?:Duration:\s*)(\d*):(\d*):(\d*).(\d*)` at the start of a text: hours, minutes and seconds. The
last group has the weight zero. -/
def durationAt (s : Text) : Option (Text × Text × Text) := do
  let s ← dropPrefixIcase "Duration:".toList s
  let (hours, s) ← digitsColon (s.dropWhile isSpace)
  let (minutes, s) ← digitsColon s
  let seconds ← digitsDot s
  return (hours, minutes, seconds)

/-- `regex_search`: the first match. -/
def findDuration : Text → Option (Text × Text × Text)
  | [] => durationAt []
  | c :: s => durationAt (c :: s) <|> findDuration s

/-- The duration of a file in seconds, or minus one if the probe does not tell. -/
def ClientSettings.getMovieLength (cfg : ClientSettings) (path : Path) (probe : ProbeAnswers) :
    Except Exn Int := do
  launch (cfg.pathToProbe ++ " -i \"".toList ++ path ++ "\" 2>&1".toList) probe.launches
  match findDuration probe.output with
  | some (hours, minutes, seconds) =>
      return if probe.exit = 0 then 3600 * atoi hours + 60 * atoi minutes + atoi seconds else -1
  | none => return -1

example : findDuration "  duration: 00:01:36.93, start: 1.04".toList
    = some ("00".toList, "01".toList, "36".toList) := by decide

end MediaArchiver
