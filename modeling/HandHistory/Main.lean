import HandHistory.Document.Printer
import HandHistory.Program

/-!
# The command line program

The outer layer of the program: it takes the words, the environment and the
files that a run may look at from the system, and prints what the run answers.
-/

namespace HandHistory.Main

/-- The names that lead to a path, once the steps upwards are taken. -/
def wayOf (working : List Text) (path : Text) : List Text :=
  let start := if path.head? = some '/' then [] else working
  (Path.names path).foldl
    (fun way name => if name == ['.', '.'] then way.dropLast else way ++ [name]) start

/-- The tree with what a path leads to: a file, or a directory with its entries.
Only text files are read; a file that cannot be read is left out, and a directory
that cannot be read has no entries. -/
def observe (working : List Text) (tree : FileTree) (path : Text) : IO FileTree := do
  let way := wayOf working path
  try
    let real ← IO.FS.realPath (String.ofList path)
    if ← real.isDir then
      let entries ← try pure (Except.ok (← real.readDir)) catch error => pure (.error error)
      let entries ← match entries with
        | .ok entries => pure entries
        | .error error => return tree.withDir way (some (.refused (toString error)))
      let mut tree := tree.withDir way
      for entry in entries do
        let name : Text := entry.fileName
        if ← entry.path.isDir then tree := tree.withDir (way ++ [name])
        else
          let bytes ← if Path.isTextFile name then IO.FS.readBinFile entry.path else pure .empty
          tree := tree.withFile (way ++ [name]) bytes.toList
      return tree
    else return tree.withFile way (← IO.FS.readBinFile real).toList
  catch _ => return tree

/-- The paths that a request looks at, besides the configuration file. -/
def pathsOf (tree : FileTree) (environment : Environment) : Request → List Text
  | .load overrides =>
    match Settings.resolve Program.readers.settings tree environment overrides with
    | .ok settings =>
      settings.historyDir.value.toList.flatMap fun dir =>
        [dir, Path.join dir Winamax.historyName]
    | .error _ => []
  | .parse file _ => [file]
  | .settings => []

def environment : IO Environment := do
  let read (name : String) : IO (Option Text) := return (← IO.getEnv name).map String.toList
  return { config := ← read "HANDSCOPE_CONFIG"
           site := ← read "HANDSCOPE_SITE"
           historyDir := ← read "HANDSCOPE_HISTORY_DIR"
           workers := ← read "HANDSCOPE_WORKERS" }

def textOf : Printed → Text
  | .text lines => lines
  | .document document => document.print ++ "\n"

/-- The exit code of a run that did not survive. -/
def broken : UInt32 := 101

end HandHistory.Main

open HandHistory in
def main (words : List String) : IO UInt32 := do
  let words := words.map String.toList
  let environment ← Main.environment
  let working := Path.names (toString (← IO.currentDir))
  let start : FileTree := ({} : FileTree).withDir working
  let configured ← environment.config.toList.foldlM (Main.observe working) start
  let paths := match Program.readers.words words with
    | .ok request => Main.pathsOf { configured with working } environment request
    | .error _ => []
  let tree ← paths.foldlM (Main.observe working) configured
  let shared : SharedPool .sequential := {}
  match Program.run Program.readers { tree with working } environment shared words with
  | .finished answer =>
    IO.print (String.ofList (Main.textOf answer.output))
    IO.eprint (String.ofList answer.report)
    return answer.code.toUInt32
  | .abandoned =>
    IO.eprintln "a history file could not be read to its end"
    return Main.broken
