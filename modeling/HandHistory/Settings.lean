import HandHistory.ConfigFile
import HandHistory.Document
import HandHistory.FileTree
import HandHistory.Room
import HandHistory.Text.Utf8

/-!
# Settings

Every setting has a default, which a configuration file may override, which the
environment may override, which the command line may override. A setting knows
the layer that its value comes from. Settings are checked twice: as they stand
below the command line, and as they are in the end.

How a configuration file is written is left open: whoever loads settings brings
a `SettingsReader`. The one for lines of keys and values is
`FileSettings.ofText`.
-/

namespace HandHistory

/-- Where a setting has its value from, lowest first. -/
inductive Layer where
  | default
  | file
  | environment
  | commandLine
  deriving DecidableEq, Repr

def Layer.text : Layer → Text
  | .default => "default"
  | .file => "file"
  | .environment => "env"
  | .commandLine => "cli"

/-- A value and the layer it comes from. -/
structure Sourced (α : Type) where
  value : α
  source : Layer := .default
  deriving DecidableEq, Repr

namespace Sourced

variable {α : Type}

/-- The value of a layer in place of the one below it, if the layer has one. -/
def overriddenBy (layer : Layer) (value? : Option α) (below : Sourced α) : Sourced α :=
  value?.elim below fun value => { value, source := layer }

@[simp] theorem overriddenBy_none (layer : Layer) (below : Sourced α) :
    below.overriddenBy layer none = below := rfl

@[simp] theorem overriddenBy_some (layer : Layer) (value : α) (below : Sourced α) :
    below.overriddenBy layer (some value) = ⟨value, layer⟩ := rfl

end Sourced

/-- The settings of a run. -/
structure Settings where
  room : Sourced Room := ⟨.winamax, .default⟩
  historyDir : Sourced (Option Text) := ⟨none, .default⟩
  workers : Sourced (Option Nat) := ⟨none, .default⟩
  json : Sourced Bool := ⟨false, .default⟩
  deriving DecidableEq, Repr

/-- The settings that a configuration file makes. -/
structure FileSettings where
  room? : Option Room := none
  historyDir? : Option Text := none
  workers? : Option Nat := none
  json? : Option Bool := none
  deriving DecidableEq, Repr

/-- The environment variables that a run looks at. -/
structure Environment where
  config : Option Text := none
  site : Option Text := none
  historyDir : Option Text := none
  workers : Option Text := none
  deriving DecidableEq, Repr

/-- The settings that a command line makes. The flag can be raised, not lowered. -/
structure Overrides where
  room? : Option Room := none
  historyDir? : Option Text := none
  workers? : Option Nat := none
  json : Bool := false
  deriving DecidableEq, Repr

/-- Why settings are refused. -/
inductive SettingsError where
  | unreadable (reason : Text)
  | malformed (reason : Text)
  | unknownSite (name : Text)
  | unreadableWorkers
  | noWorkers
  | emptyHistoryDir
  deriving DecidableEq, Repr

def SettingsError.message : SettingsError → Text
  | .unreadable reason => "cannot read config file: " ++ reason
  | .malformed reason => "cannot parse config file: " ++ reason
  | .unknownSite name => "Invalid site: " ++ name
  | .unreadableWorkers => "Invalid workers"
  | .noWorkers => "Invalid configuration: workers must be >0"
  | .emptyHistoryDir => "Invalid configuration: history_dir must not be empty"

namespace FileSettings

/-- The value of a key, which is either missing or of the kind that is read. -/
def field? {α : Type} (key : Text) (read : ConfigValue → Option α)
    (entries : List (Text × ConfigValue)) : Option (Option α) :=
  match entries.lookup key with
  | none => some none
  | some value => (read value).map some

def asRoom? : ConfigValue → Option Room
  | .text label => Room.ofLabel? label
  | _ => none

def asText? : ConfigValue → Option Text
  | .text value => some value
  | _ => none

/-- A number of workers, which has sixty-four bits. -/
def asWorkers? : ConfigValue → Option Nat
  | .integer n => if 0 ≤ n ∧ n < UInt64.size then some n.toNat else none
  | _ => none

def asFlag? : ConfigValue → Option Bool
  | .flag value => some value
  | _ => none

/-- The settings among the entries of a file; other keys are passed over. -/
def ofEntries? (entries : List (Text × ConfigValue)) : Option FileSettings := do
  let room? ← field? "site" asRoom? entries
  let historyDir? ← field? "history_dir" asText? entries
  let workers? ← field? "workers" asWorkers? entries
  let json? ← field? "json" asFlag? entries
  return { room?, historyDir?, workers?, json? }

/-- The settings of a list of lines with keys and values. -/
def ofText (text : Text) : Except Text FileSettings :=
  match (ConfigFile.entries? text).bind ofEntries? with
  | some settings => .ok settings
  | none => .error "not a list of known keys and values"

end FileSettings

/-- What reads the text of a configuration file, or tells why it cannot. -/
abbrev SettingsReader := (text : Text) → Except Text FileSettings

/-- The settings of the file that a path leads to. -/
def SettingsReader.readFile (reader : SettingsReader) (tree : FileTree) (path : Text) :
    Except SettingsError FileSettings :=
  match tree.read path with
  | .error fault => .error (.unreadable fault.message)
  | .ok bytes =>
    match Text.Utf8.decode? bytes with
    | none => .error (.unreadable "stream did not contain valid UTF-8")
    | some text => (reader text).mapError .malformed

namespace Environment

/-- A variable counts only if it has a value that is not empty. -/
def given (value? : Option Text) : Option Text := value?.filter fun value => !value.isEmpty

/-- The room that a name chooses, whatever the case of its letters. -/
def readRoom (name : Text) : Except SettingsError Room :=
  match Room.ofLabel? (Text.lowerAscii name) with
  | some room => .ok room
  | none => .error (.unknownSite name)

def readWorkers (value : Text) : Except SettingsError Nat :=
  match Numeral.word64? value with
  | some n => .ok n
  | none => .error .unreadableWorkers

/-- The settings of the file that the environment names, if it names one. -/
def readFile (reader : SettingsReader) (tree : FileTree) (environment : Environment) :
    Except SettingsError (Option FileSettings) :=
  (given environment.config).mapM (reader.readFile tree)

end Environment

namespace Settings

/-- The settings with those of a file on top. -/
def withFile (file : FileSettings) (settings : Settings) : Settings :=
  { room := settings.room.overriddenBy .file file.room?
    historyDir := settings.historyDir.overriddenBy .file (file.historyDir?.map some)
    workers := settings.workers.overriddenBy .file (file.workers?.map some)
    json := settings.json.overriddenBy .file file.json? }

/-- The settings with those of the environment on top. -/
def withEnvironment (environment : Environment) (settings : Settings) :
    Except SettingsError Settings := do
  let room? ← (Environment.given environment.site).mapM Environment.readRoom
  let workers? ← (Environment.given environment.workers).mapM Environment.readWorkers
  let historyDir? := Environment.given environment.historyDir
  return { settings with
    room := settings.room.overriddenBy .environment room?
    historyDir := settings.historyDir.overriddenBy .environment (historyDir?.map some)
    workers := settings.workers.overriddenBy .environment (workers?.map some) }

/-- The settings with those of the command line on top. -/
def withOverrides (overrides : Overrides) (settings : Settings) : Settings :=
  { room := settings.room.overriddenBy .commandLine overrides.room?
    historyDir := settings.historyDir.overriddenBy .commandLine (overrides.historyDir?.map some)
    workers := settings.workers.overriddenBy .commandLine (overrides.workers?.map some)
    json := settings.json.overriddenBy .commandLine (if overrides.json then some true else none) }

/-- The settings themselves, if they can be used. -/
def check (settings : Settings) : Except SettingsError Settings :=
  if settings.workers.value = some 0 then .error .noWorkers
  else if settings.historyDir.value = some [] then .error .emptyHistoryDir
  else .ok settings

/-- The settings below the command line. -/
def layered (file? : Option FileSettings) (environment : Environment) :
    Except SettingsError Settings := do
  let defaults : Settings := {}
  let settings ← (file?.elim defaults defaults.withFile).withEnvironment environment
  settings.check

/-- The settings of all layers. -/
def resolved (file? : Option FileSettings) (environment : Environment) (overrides : Overrides) :
    Except SettingsError Settings := do
  let settings ← layered file? environment
  (settings.withOverrides overrides).check

/-- The settings below the command line, with the file that the environment names. -/
def load (reader : SettingsReader) (tree : FileTree) (environment : Environment) :
    Except SettingsError Settings := do
  layered (← environment.readFile reader tree) environment

/-- The settings of all layers, with the file that the environment names. -/
def resolve (reader : SettingsReader) (tree : FileTree) (environment : Environment)
    (overrides : Overrides) : Except SettingsError Settings := do
  resolved (← environment.readFile reader tree) environment overrides

/-- A setting with its source. -/
def sourcedDocument {α : Type} (write : α → Document) (setting : Sourced α) : Document :=
  .record [("source", .text setting.source.text), ("value", write setting.value)]

/-- Every setting with its source, in the alphabetical order of the names. -/
def document (settings : Settings) : Document :=
  .record
    [("history_dir", sourcedDocument (.orNull .text) settings.historyDir),
     ("json", sourcedDocument .flag settings.json),
     ("site", sourcedDocument (fun room => .text room.label) settings.room),
     ("workers", sourcedDocument (.orNull .ofNat) settings.workers)]

end Settings

end HandHistory
