/-!
# Files

What the tool needs of a file system (`FileSystem`), and one that is held in
memory (`Directory.fileSystem`): a working directory with the files below it,
each under the names on the way to it.
-/
namespace RecordBridge

/-- The operations on files that the tool uses. -/
structure FileSystem (m : Type → Type) where
  /-- Whether a path leads to a directory. -/
  isDirectory : String → m Bool
  /-- The content of a file. -/
  read : String → m (Option (List UInt8))
  /-- The names and sizes of the files in a directory, in the order of their names. -/
  list : String → m (Option (List (String × Nat)))
  /-- Writes a file anew, and tells whether that worked. -/
  write : String → List UInt8 → m Bool

/-- A file in a directory. The directory's path is not empty. -/
def joinPath (directory name : String) : String :=
  if directory.toList.getLast? = some '/' then directory ++ name else directory ++ "/" ++ name

/-- A path as components. A component is empty where two slashes meet. -/
def splitPath : List Char → List (List Char)
  | [] => [[]]
  | '/' :: rest => [] :: splitPath rest
  | c :: rest =>
    match splitPath rest with
    | [] => [[c]]
    | component :: components => (c :: component) :: components

/-- The names on the way from the working directory to a file. -/
abbrev Location := List String

/-- A working directory: the files below it. Directories are there because of
the files in them. -/
structure Directory where
  files : List (Location × List UInt8)

namespace Directory

/-- The working directory that holds files under their paths. -/
def ofList (files : List (String × List UInt8)) : Directory :=
  ⟨files.map fun (path, content) => ((splitPath path.toList).map String.ofList, content)⟩

/-- Whether a location is a directory: the working directory, or one on the way
to a file. -/
def contains (directory : Directory) (location : Location) : Bool :=
  location.isEmpty || directory.files.any fun (file, _) =>
    location.isPrefixOf file && location.length < file.length

/-- Goes one component on from a location, which must be a directory. -/
def enter (directory : Directory) (location : Location) (component : String) :
    Option Location :=
  if !directory.contains location then none
  else match component with
    | "" | "." => some location
    | ".." => if location.isEmpty then none else some location.dropLast
    | name => some (location ++ [name])

/-- Where a path leads. Only paths inside the working directory lead anywhere. -/
def locate (directory : Directory) (path : String) : Option Location :=
  if path.toList.head?.all (· = '/') then none
  else ((splitPath path.toList).map String.ofList).foldlM directory.enter []

/-- The content of the file at a location. -/
def content? (directory : Directory) (location : Location) : Option (List UInt8) :=
  directory.files.lookup location

/-- The content of the file a path leads to. -/
def read? (directory : Directory) (path : String) : Option (List UInt8) := do
  directory.content? (← directory.locate path)

/-- Whether a path leads to a directory. -/
def isDirectory (directory : Directory) (path : String) : Bool :=
  (directory.locate path).any directory.contains

/-- The name and size of a file that lies directly in a directory. -/
def entry? (location file : Location) (content : List UInt8) : Option (String × Nat) :=
  if location.isPrefixOf file then
    match file.drop location.length with
    | [name] => some (name, content.length)
    | _ => none
  else none

/-- The files directly in the directory a path leads to, in the order of their names. -/
def list? (directory : Directory) (path : String) : Option (List (String × Nat)) := do
  let location ← directory.locate path
  if !directory.contains location then none
  else
    let found := directory.files.filterMap fun (file, content) => entry? location file content
    return found.mergeSort fun a b => a.1 ≤ b.1

/-- Writes a file; none if the path leads to a directory, or through none. -/
def write? (directory : Directory) (path : String) (content : List UInt8) :
    Option Directory := do
  let location ← directory.locate path
  if directory.contains location then none
  else return ⟨(location, content) :: directory.files.filter (·.1 ≠ location)⟩

/-- The operations on a working directory held in memory. -/
def fileSystem : FileSystem (StateM Directory) where
  isDirectory path := return (← get).isDirectory path
  read path := return (← get).read? path
  list path := return (← get).list? path
  write path content := do
    match (← get).write? path content with
    | some next => set next; return true
    | none => return false

end Directory

end RecordBridge
