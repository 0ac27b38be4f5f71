import HandHistory.Settings

/-!
# Command lines

A command line asks for something the program does, or it is given a notice. How
it is written is left open: a run brings a `CommandLineReader`. The one of this
module, `CommandLine.reader`, takes a command and its options. An option is
written `--name`, and its value follows as a word of its own or behind an equals
sign; a word that begins with a hyphen is never the value of the option before
it. The words are taken from left to right, so that a request for help is granted
if nothing before it was wrong.
-/

namespace HandHistory

inductive Command where
  | load
  | parse
  | settings
  deriving DecidableEq, Repr

namespace Command

/-- The commands in the order in which they are offered. -/
def all : List Command := [.load, .parse, .settings]

def name : Command → Text
  | .load => "load"
  | .parse => "parse"
  | .settings => "cfg"

def ofName? (name : Text) : Option Command := all.find? fun command => command.name == name

end Command

/-- What a command line asks for. -/
inductive Request where
  | load (overrides : Overrides)
  | parse (file : Text) (overrides : Overrides)
  | settings
  deriving DecidableEq, Repr

/-- What a command line is told that asks for nothing the program does. -/
inductive Notice where
  /-- A text that the words ask for. -/
  | wanted (text : Text)
  | refusal (text : Text)
  deriving DecidableEq, Repr

/-- What reads the words of a command line. -/
abbrev CommandLineReader := (words : List Text) → Except Notice Request

/-- The options, without their two hyphens. -/
inductive OptionName where
  | dir
  | file
  | site
  | workers
  | json
  deriving DecidableEq, Repr

namespace OptionName

def text : OptionName → Text
  | .dir => "dir"
  | .file => "file"
  | .site => "site"
  | .workers => "workers"
  | .json => "json"

/-- Whether the option has a value; the others are flags. -/
def takesValue : OptionName → Bool
  | .json => false
  | .dir | .file | .site | .workers => true

end OptionName

/-- The options of a command. -/
def Command.options : Command → List OptionName
  | .load => [.dir, .site, .workers, .json]
  | .parse => [.file, .site, .json]
  | .settings => []

/-- The option of a command with a name. -/
def Command.option? (command : Command) (name : Text) : Option OptionName :=
  command.options.find? fun option => option.text == name

/-- Why a command line is refused. -/
inductive UsageError where
  | noCommand
  | unknownCommand (name : Text)
  | unexpectedWord (word : Text)
  | missingValue (option : OptionName)
  | invalidValue (option : OptionName) (value : Text)
  | repeatedOption (option : OptionName)
  | missingOption (option : OptionName)
  deriving DecidableEq, Repr

def UsageError.message : UsageError → Text
  | .noCommand => "error: no command given"
  | .unknownCommand name => "error: unknown command '" ++ name ++ "'"
  | .unexpectedWord word => "error: unexpected argument '" ++ word ++ "'"
  | .missingValue option => "error: no value for '--" ++ option.text ++ "'"
  | .invalidValue option value =>
    "error: invalid value '" ++ value ++ "' for '--" ++ option.text ++ "'"
  | .repeatedOption option => "error: '--" ++ option.text ++ "' given more than once"
  | .missingOption option => "error: '--" ++ option.text ++ "' is required"

/-- What words mean that are not refused. -/
inductive Meant where
  | help
  | version
  | request (request : Request)
  deriving DecidableEq, Repr

namespace CommandLine

def programName : Text := "handscope"

def versionText : Text := programName ++ " 0.1.0\n"

/-- The text of several lines, each with its line feed. -/
def lines (ls : List Text) : Text := ls.flatMap (· ++ ['\n'])

def helpText : Text :=
  lines
    ["Hand history ingestion", "",
     "Usage: handscope <COMMAND>", "",
     "Commands:",
     "  load   Load every history file of a directory and print a summary",
     "           --dir <DIR>          Account or history directory",
     "           --site <SITE>        winamax or pokerstars",
     "           --workers <WORKERS>  Number of workers that read files",
     "           --json               Print the summary as JSON",
     "  parse  Parse one history file",
     "           --file <FILE>        History file",
     "           --site <SITE>        winamax or pokerstars",
     "           --json               Print the whole site as JSON",
     "  cfg    Print the resolved configuration",
     "  help   Print this message", "",
     "Options:",
     "  -h, --help     Print help",
     "  -V, --version  Print version"]

/-- The form of a word, where it is not the value of an option. -/
inductive Word where
  | terminator
  | long (name : Text) (value? : Option Text)
  | short (letters : Text)
  | plain (text : Text)
  deriving DecidableEq, Repr

/-- A lone hyphen is a plain word. -/
def Word.ofText : Text → Word
  | ['-', '-'] => .terminator
  | '-' :: '-' :: body =>
    match Text.cut? "=" body with
    | some (name, value) => .long name (some value)
    | none => .long body none
  | '-' :: c :: letters => .short (c :: letters)
  | text => .plain text

/-- The values that the options of a command have been given. -/
structure Given where
  dir? : Option Text := none
  file? : Option Text := none
  room? : Option Room := none
  workers? : Option Nat := none
  json : Bool := false
  deriving DecidableEq, Repr

namespace Given

/-- Whether an option has been given. -/
def has (given : Given) : OptionName → Bool
  | .dir => given.dir?.isSome
  | .file => given.file?.isSome
  | .site => given.room?.isSome
  | .workers => given.workers?.isSome
  | .json => given.json

/-- The values with one more; each option is given at most once. A flag has no
value to look at. -/
def put (given : Given) (option : OptionName) (value : Text) : Except UsageError Given :=
  if given.has option then .error (.repeatedOption option)
  else
    match option with
    | .dir => .ok { given with dir? := some value }
    | .file => .ok { given with file? := some value }
    | .site =>
      match Room.ofLabel? value with
      | some room => .ok { given with room? := some room }
      | none => .error (.invalidValue option value)
    | .workers =>
      match Numeral.word64? value with
      | some n => .ok { given with workers? := some n }
      | none => .error (.invalidValue option value)
    | .json => .ok { given with json := true }

/-- The request of a command whose options have all been read. -/
def request (given : Given) : Command → Except UsageError Request
  | .load =>
    .ok (.load { room? := given.room?, historyDir? := given.dir?, workers? := given.workers?,
                 json := given.json })
  | .parse =>
    match given.file? with
    | some file => .ok (.parse file { room? := given.room?, json := given.json })
    | none => .error (.missingOption .file)
  | .settings => .ok .settings

end Given

/-- Whether a word can be the value of the option in front of it. -/
def isValue (word : Text) : Bool :=
  match Word.ofText word with
  | .plain _ => true
  | .terminator | .long .. | .short _ => false

/-- What a word means where an option may stand. -/
inductive Meaning where
  | help
  /-- The value of an option, or a flag, which has none. -/
  | complete (option : OptionName) (value : Text)
  | awaitsValue (option : OptionName)
  | terminator
  | refused

/-- The meaning of a word among the options of a command. -/
def meaning (command : Command) (word : Text) : Meaning :=
  match Word.ofText word with
  | .terminator => .terminator
  | .short ('h' :: _) => .help
  | .short _ | .plain _ => .refused
  | .long name value? =>
    match command.option? name, value? with
    | some option, some value => if option.takesValue then .complete option value else .refused
    | some option, none => if option.takesValue then .awaitsValue option else .complete option []
    | none, none => if name = "help".toList then .help else .refused
    | none, some _ => .refused

/-- Reads the words behind a command. -/
def readOptions (command : Command) : List Text → Given → Except UsageError Meant
  | [], given => .request <$> given.request command
  | word :: words, given =>
    match meaning command word with
    | .help => .ok .help
    | .refused => .error (.unexpectedWord word)
    | .terminator =>
      match words with
      | [] => .request <$> given.request command
      | other :: _ => .error (.unexpectedWord other)
    | .complete option value => do readOptions command words (← given.put option value)
    | .awaitsValue option =>
      match words with
      | [] => .error (.missingValue option)
      | value :: words =>
        if isValue value then do readOptions command words (← given.put option value)
        else .error (.missingValue option)

/-- The name under which help is a command of its own. -/
def helpName : Text := "help"

/-- Reads the words behind a request for help, which may name one command. -/
def readHelp : List Text → Except UsageError Meant
  | [] => .ok .help
  | name :: words =>
    if (Command.ofName? name).isSome || name == helpName then
      match words with
      | [] => .ok .help
      | word :: _ => .error (.unknownCommand word)
    else .error (.unknownCommand name)

/-- Reads a whole command line. -/
def read : List Text → Except UsageError Meant
  | [] => .error .noCommand
  | word :: words =>
    match Word.ofText word with
    | .short ('h' :: _) => .ok .help
    | .short ('V' :: _) => .ok .version
    | .long name none =>
      if name = helpName then .ok .help
      else if name = "version".toList then .ok .version
      else .error (.unexpectedWord word)
    | .plain name =>
      if name = helpName then readHelp words
      else
        match Command.ofName? name with
        | some command => readOptions command words {}
        | none => .error (.unknownCommand name)
    | .terminator | .long _ (some _) | .short _ => .error (.unexpectedWord word)

/-- The reader of command lines of this form. -/
def reader : CommandLineReader := fun words =>
  match read words with
  | .ok (.request request) => .ok request
  | .ok .help => .error (.wanted helpText)
  | .ok .version => .error (.wanted versionText)
  | .error error => .error (.refusal error.message)

end CommandLine

end HandHistory
