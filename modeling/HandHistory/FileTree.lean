import HandHistory.Text

/-!
# File trees

The files a program can see are one tree of directories, in which the program
stands somewhere. A path leads through the tree from its root or from where the
program stands. Every name on the way has to be looked up in a directory, also
an empty one, `.` and `..`; so a path that ends with a slash never leads to a
file. Names and paths have a largest size. A directory may keep its names to
itself; whoever knows a name is let through all the same.

Nothing is ever written, so a tree is a value and looking at it has no effect.
-/

namespace HandHistory

/-- Why a file or a directory cannot be read. -/
inductive FileFault where
  | missing
  | notDirectory
  | isDirectory
  | nameTooLong
  | nulByte
  /-- The system refuses, for a reason of its own. -/
  | refused (reason : Text)
  deriving DecidableEq, Repr

def FileFault.message : FileFault → Text
  | .missing => "No such file or directory (os error 2)"
  | .notDirectory => "Not a directory (os error 20)"
  | .isDirectory => "Is a directory (os error 21)"
  | .nameTooLong => "File name too long (os error 36)"
  | .nulByte => "file name contained an unexpected NUL byte"
  | .refused reason => reason

inductive FileNode where
  | file (bytes : List UInt8)
  /-- A directory, and why its entries cannot be listed, if they cannot. -/
  | dir (entries : List (Text × FileNode)) (fault? : Option FileFault := none)

structure FileTree where
  root : FileNode := .dir []
  /-- The names on the way from the root to where the program stands. -/
  working : List Text := []

namespace FileNode

/-- The directory with an entry put in the place of the one of its name, or
behind the others. -/
def put (name : Text) (node : FileNode) : List (Text × FileNode) → List (Text × FileNode)
  | [] => [(name, node)]
  | (other, there) :: entries =>
    if other = name then (name, node) :: entries else (other, there) :: put name node entries

/-- The tree with a node at the end of a way of names; directories are made
where there are none. -/
def insert (node : FileNode) : (way : List Text) → FileNode → FileNode
  | [], _ => node
  | name :: way, here =>
    let (entries, fault?) := match here with
      | .file _ => ([], none)
      | .dir entries fault? => (entries, fault?)
    let below := (entries.lookup name).getD (.dir [])
    .dir (put name (insert node way below) entries) fault?

end FileNode

/-- A place in a tree: a node, and the directories above it, the nearest first. -/
structure FilePlace where
  above : List FileNode
  node : FileNode

namespace FilePlace

/-- The size in bytes that a name may have. -/
def nameBound : Nat := 255

/-- The place that a name leads to. The root lies above itself. -/
def enter (name : Text) (place : FilePlace) : Except FileFault FilePlace :=
  match place.node with
  | .file _ => .error .notDirectory
  | .dir entries _ =>
    if name.isEmpty || name == ['.'] then .ok place
    else if name == ['.', '.'] then
      match place.above with
      | [] => .ok place
      | node :: above => .ok { above, node }
    else if nameBound < Text.utf8Size name then .error .nameTooLong
    else
      match entries.lookup name with
      | some node => .ok { above := place.node :: place.above, node }
      | none => .error .missing

/-- The place at the end of a way of names. -/
def follow : (way : List Text) → FilePlace → Except FileFault FilePlace
  | [], place => .ok place
  | name :: way, place => (place.enter name).bind (follow way)

end FilePlace

namespace FileTree

def rootPlace (tree : FileTree) : FilePlace := { above := [], node := tree.root }

/-- The size in bytes that a path stays below, however short its names are. -/
def pathBound : Nat := 4096

/-- The node that a path leads to. The path is measured before any of its names
is looked up. -/
def find (path : Text) (tree : FileTree) : Except FileFault FileNode :=
  if path.contains '\x00' then .error .nulByte
  else if pathBound ≤ Text.utf8Size path then .error .nameTooLong
  else
    match path with
    | [] => .error .missing
    | '/' :: rest => FilePlace.node <$> tree.rootPlace.follow (Text.fields '/' rest)
    | _ => FilePlace.node <$> tree.rootPlace.follow (tree.working ++ Text.fields '/' path)

/-- The bytes of the file that a path leads to. -/
def read (path : Text) (tree : FileTree) : Except FileFault (List UInt8) := do
  match ← tree.find path with
  | .file bytes => return bytes
  | .dir .. => throw .isDirectory

def isFile (path : Text) (tree : FileTree) : Bool :=
  match tree.find path with
  | .ok (.file _) => true
  | _ => false

def isDir (path : Text) (tree : FileTree) : Bool :=
  match tree.find path with
  | .ok (.dir ..) => true
  | _ => false

/-- The names in the directory that a path leads to, in no order that matters. -/
def list (path : Text) (tree : FileTree) : Except FileFault (List Text) := do
  match ← tree.find path with
  | .file _ => throw .notDirectory
  | .dir entries none => return entries.map Prod.fst
  | .dir _ (some fault) => throw fault

/-- The names that can be listed in a directory. -/
def names (path : Text) (tree : FileTree) : List Text :=
  match tree.list path with
  | .ok names => names
  | .error _ => []

/-- The tree with a directory where the program stands or below it, unless there
is one. -/
def withDir (way : List Text) (tree : FileTree) (fault? : Option FileFault := none) : FileTree :=
  match tree.rootPlace.follow (tree.working ++ way) with
  | .ok { node := .dir .., .. } => tree
  | _ => { tree with root := FileNode.insert (.dir [] fault?) (tree.working ++ way) tree.root }

/-- The tree with a file where the program stands or below it. -/
def withFile (way : List Text) (bytes : List UInt8) (tree : FileTree) : FileTree :=
  { tree with root := FileNode.insert (.file bytes) (tree.working ++ way) tree.root }

end FileTree

end HandHistory
