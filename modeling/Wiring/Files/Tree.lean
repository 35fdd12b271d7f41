import Wiring.Files.System
import Wiring.Text.Pieces
/-! A file system as a value: directories and files under their names from the root. A path that
starts with a slash leads from the root, every other from the working directory. -/
namespace Wiring

inductive FileEntry where
  | directory
  | file (content : ByteArray)
  deriving Inhabited

/-- Entries by the names that lead to them, and the names of the directory the program works in. The
root is always there. -/
structure FileTree where
  entries : List (List String × FileEntry) := []
  workingDirectory : List String := []
  deriving Inhabited

namespace FileTree

/-- The entry under the names that lead to it. -/
def entry? (t : FileTree) (names : List String) : Option FileEntry :=
  if names.isEmpty then some .directory else t.entries.lookup names

/-- The tree with an entry, in place of one under the same names. -/
def put (t : FileTree) (names : List String) (entry : FileEntry) : FileTree :=
  { t with entries := (names, entry) :: t.entries.filter fun old => old.1 != names }

/-- The most bytes a name has. -/
def maxNameLength : Nat := 255

/-- One step on the way of a path, by the text between two slashes. Nothing is above the root, and
the way up from there ends where it starts. -/
def step (t : FileTree) (here : List String) (piece : String) : Except FileError (List String) :=
  match t.entry? here with
  | none => .error .notFound
  | some (.file _) => .error .notDirectory
  | some .directory =>
    if piece == "" || piece == "." then .ok here
    else if piece == ".." then .ok here.dropLast
    else if piece.utf8ByteSize > maxNameLength then .error .nameTooLong
    else if (t.entry? (here ++ [piece])).isSome then .ok (here ++ [piece])
    else .error .notFound

/-- What steps from the root lead to. -/
def walk (t : FileTree) (steps : List String) : Except FileError (List String) :=
  steps.foldlM t.step []

/-- The steps of a path from the root. The empty text is no path. -/
def steps (t : FileTree) (path : String) : Except FileError (List String) :=
  if path.toList.contains '\x00' then .error .nulInName
  else match Text.splitString '/' path with
    | [] => .error .notFound
    | [""] => .error .notFound
    | "" :: pieces => .ok pieces
    | pieces => .ok (t.workingDirectory ++ pieces)

/-- The names of what stands at a path. -/
def locate (t : FileTree) (path : String) : Except FileError (List String) := do
  t.walk (← t.steps path)

def isPresent (t : FileTree) (path : String) : Bool :=
  match t.locate path with
  | .ok _ => true
  | .error _ => false

def read (t : FileTree) (path : String) : Except FileError ByteArray :=
  match t.locate path with
  | .error e => .error e
  | .ok names =>
    match t.entry? names with
    | some (.file content) => .ok content
    | some .directory => .error .isDirectory
    | none => .error .notFound

/-- The names of a file that does not exist yet but can be created. A slash at the end asks for a
directory. -/
def creatable (t : FileTree) (path : String) : Except FileError (List String) := do
  let steps ← t.steps path
  let named := (steps.reverse.dropWhile (· == "")).reverse
  match named.getLast? with
  | none => .error .notFound
  | some name =>
    let parent ← t.walk named.dropLast
    if name == "." || name == ".." then .error .notFound
    else if named.length < steps.length then .error .isDirectory
    else return parent ++ [name]

/-- The names of the file that writing to a path changes or creates. -/
def target (t : FileTree) (path : String) : Except FileError (List String) :=
  match t.locate path with
  | .ok names =>
    match t.entry? names with
    | some (.file _) => .ok names
    | _ => .error .isDirectory
  | .error .notFound => t.creatable path
  | .error e => .error e

/-- The bytes of the file under some names, none where there is no file. -/
def contentAt (t : FileTree) (names : List String) : ByteArray :=
  match t.entry? names with
  | some (.file content) => content
  | _ => .empty

def write (t : FileTree) (path text : String) : Except FileError FileTree :=
  (t.target path).map fun names => t.put names (.file text.toUTF8)

def overwrite (t : FileTree) (path text : String) : Except FileError FileTree :=
  (t.target path).map fun names =>
    let content := t.contentAt names
    t.put names (.file (text.toUTF8 ++ content.extract text.utf8ByteSize content.size))

def append (t : FileTree) (path text : String) : Except FileError FileTree :=
  (t.target path).map fun names => t.put names (.file (t.contentAt names ++ text.toUTF8))

/-- Goes some steps on, with a directory made wherever a name is missing. What has been made stays
when the way cannot be gone to its end. -/
def makeWay (t : FileTree) (here : List String) :
    List String → FileTree × Except FileError (List String)
  | [] => (t, .ok here)
  | piece :: rest =>
    match t.step here piece with
    | .ok there => makeWay t there rest
    | .error .notFound => makeWay (t.put (here ++ [piece]) .directory) (here ++ [piece]) rest
    | .error e => (t, .error e)

def createDirectories (t : FileTree) (path : String) : FileTree × Except FileError Unit :=
  match t.steps path with
  | .error e => (t, .error e)
  | .ok steps =>
    match t.makeWay [] steps with
    | (after, .error e) => (after, .error e)
    | (after, .ok names) =>
      match after.entry? names with
      | some .directory => (after, .ok ())
      | _ => (after, .error .exists)

/-- The tree with an entry and the directories above it. -/
def place (t : FileTree) (names : List String) (entry : FileEntry) : FileTree :=
  let above := (List.range names.length).map fun n => names.take n
  (above.foldl (fun t names => t.put names .directory) t).put names entry

/-- Takes the tree that an operation makes, or leaves the one there is. -/
def change (operation : FileTree → Except FileError FileTree) :
    StateM FileTree (Except FileError Unit) := do
  match operation (← get) with
  | .ok tree => set tree; return .ok ()
  | .error e => return .error e

end FileTree

instance : FileSystem (StateM FileTree) where
  isPresent path := do return (← get).isPresent path
  read path := do return (← get).read path
  write path text := FileTree.change (·.write path text)
  overwrite path text := FileTree.change (·.overwrite path text)
  append path text := FileTree.change (·.append path text)
  createDirectories path := do
    let (tree, result) := (← get).createDirectories path
    set tree
    return result

end Wiring
