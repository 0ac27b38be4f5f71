import HandHistory.CommandLine
import HandHistory.Export
import HandHistory.Loader
import HandHistory.Summary

/-!
# The program

A run answers a command line: with an exit code, with what it prints, and with
what it reports beside that. Whoever reads the output finds nothing there if the
run has failed, and an error at the end of the report; warnings stand in the
report too, and fail nothing.

A run is given the readers of command lines and of configuration files, the
files and the environment that it sees, and the shared pool as it finds it.
-/

namespace HandHistory

/-- What a run prints. -/
inductive Printed where
  | text (lines : Text)
  | document (document : Document)

/-- What a run answers. -/
structure Answer where
  code : Nat
  output : Printed := .text []
  report : Text := []
  events : List Event := []

/-- Why a command fails. -/
inductive CommandError where
  | settings (cause : SettingsError)
  | noHistoryDir
  | noFile (path : Text)
  | noGame (path : Text)
  deriving DecidableEq, Repr

def CommandError.message : CommandError → Text
  | .settings cause => "Configuration error: " ++ cause.message
  | .noHistoryDir =>
    "Invalid input: history directory required (--dir or HANDSCOPE_HISTORY_DIR)"
  | .noFile path => "Invalid input: file not found: " ++ path
  | .noGame path => "Engine error: no game parsed from " ++ path

/-- The readers that a run is given. -/
structure Readers where
  words : CommandLineReader
  settings : SettingsReader

namespace Program

/-- The readers of the forms that this library knows. -/
def readers : Readers where
  words := CommandLine.reader
  settings := FileSettings.ofText

/-- The exit code of a run that answers the request. -/
def success : Nat := 0

/-- The exit code of any other run. -/
def failure : Nat := 2

/-- The hint that follows the refusal of a command line. -/
def usageHint : Text :=
  CommandLine.lines <|
    ["".toList, "Usage: handscope <command> [options]".toList, "".toList, "Commands:".toList] ++
    (Command.all.map fun command => "  ".toList ++ command.name) ++
    ["".toList, "For full help, run: handscope --help".toList]

def warning (message : Text) : Text := "WARNING: " ++ message ++ "\n"

/-- The answer of a command line that asks for nothing the program does. -/
def notify : Notice → Answer
  | .wanted text => { code := success, output := .text text }
  | .refusal text => { code := failure, report := text ++ "\n" ++ usageHint }

/-- The answer of a command that fails. -/
def fail (error : CommandError) : Answer :=
  { code := failure, report := "Error: " ++ error.message ++ "\n" }

/-- The figures of a site, as a document or as text. -/
def summaryOf (site : Site) (json : Bool) : Printed :=
  if json then .document site.summary else .text site.summaryText

/-- How many of the files there are have been processed. -/
def progressLine (progress : List Progress) : Text :=
  let total := (progress.findSome? fun
    | .filesCounted count => some count
    | _ => none).getD 0
  "Processed " ++ Numeral.write (progress.count .fileProcessed) ++ "/" ++
    Numeral.write total ++ " files\n"

variable {runtime : Runtime} (readers : Readers) (tree : FileTree) (environment : Environment)

/-- Loads a directory and prints the figures of its site. The settings choose the
size of the shared pool; a pool that is already running keeps its own. -/
def load (settings : Settings) (dir : Text) (shared : SharedPool runtime) : Answer :=
  let room := settings.room.value
  let (chosen, shared) := match settings.workers.value with
    | some workers => shared.choose workers
    | none => (return true, shared)
  let poolWarning :=
    if chosen.value then [] else warning "worker pool already running; --workers ignored"
  let (loaded, _) := ({ room } : Loader runtime).load tree dir false shared
  let emptyWarning :=
    if loaded.site.isEmpty then warning ("no hand histories loaded from " ++ dir) else []
  { code := success
    output := summaryOf loaded.site settings.json.value
    report := poolWarning ++ progressLine loaded.progress ++ emptyWarning
    events := chosen.events ++ .loadRequested room.siteName dir :: loaded.events }

def runLoad (overrides : Overrides) (shared : SharedPool runtime) : Answer :=
  match Settings.resolve readers.settings tree environment overrides with
  | .error cause => fail (.settings cause)
  | .ok settings =>
    match settings.historyDir.value with
    | none => fail .noHistoryDir
    | some dir => load tree settings dir shared

/-- Reads one file and prints its site, or the figures of it. The file is read by
the run itself, which does not survive it if the reading is abandoned. -/
def runParse (file : Text) (overrides : Overrides) : Outcome Answer :=
  match Settings.resolve readers.settings tree environment overrides with
  | .error cause => .finished (fail (.settings cause))
  | .ok settings =>
    if !tree.isFile file then .finished (fail (.noFile file))
    else
      let loaded := HistoryFile.load settings.room.value tree file
      loaded.value.map fun
        | none => { fail (.noGame file) with events := loaded.events }
        | some site =>
          { code := success
            output :=
              if settings.json.value then .document site.document else .text site.summaryText
            events := loaded.events }

/-- Prints the settings below the command line. -/
def runSettings : Answer :=
  match Settings.load readers.settings tree environment with
  | .error cause => fail (.settings cause)
  | .ok settings => { code := success, output := .document settings.document }

/-- Answers a request. -/
def answer (shared : SharedPool runtime) : Request → Outcome Answer
  | .load overrides => .finished (runLoad readers tree environment overrides shared)
  | .parse file overrides => runParse readers tree environment file overrides
  | .settings => .finished (runSettings readers tree environment)

/-- Answers a command line. -/
def run (shared : SharedPool runtime) (words : List Text) : Outcome Answer :=
  match readers.words words with
  | .ok request => answer readers tree environment shared request
  | .error notice => .finished (notify notice)

end Program

end HandHistory
