import HandHistory.Text

/-!
# Paths

A path is a text in which slashes separate names. Empty names and `.` stand for
the directory they are in and do not change what a path names; `..` is never
the name of a file.
-/

namespace HandHistory.Path

/-- Whether two paths are in order: the second one does not come before the first. -/
def inOrder (a b : Text) : Bool := !decide (b < a)

/-- The names along a path, without those that stay where they are. -/
def names (path : Text) : List Text :=
  (Text.fields '/' path).filter fun name => !name.isEmpty && name != ['.']

/-- The last name of a path. -/
def fileName? (path : Text) : Option Text :=
  (names path).getLast?.filter fun name => name != ['.', '.']

/-- A file name divided at its last point. A point in front of everything else
belongs to the name and divides nothing. -/
def divide (name : Text) : Text × Option Text :=
  match Text.cutLast? "." name with
  | some (stem, extension) =>
    if stem.isEmpty then (name, none) else (stem, some extension)
  | none => (name, none)

/-- The file name without its extension, empty if there is no file name. -/
def stem (path : Text) : Text := (fileName? path).elim [] fun name => (divide name).1

def extension? (path : Text) : Option Text := (fileName? path).bind fun name => (divide name).2

/-- Whether the extension is `txt` in any case. -/
def isTextFile (path : Text) : Bool :=
  (extension? path).elim false fun extension => Text.lowerAscii extension == "txt".toList

/-- The path of a name inside a directory. -/
def join (dir name : Text) : Text :=
  if dir.isEmpty then name
  else if Text.hasEnd "/" dir then dir ++ name
  else dir ++ '/' :: name

/-- The file name, or the whole path where there is none. -/
def shortName (path : Text) : Text := (fileName? path).getD path

end HandHistory.Path
