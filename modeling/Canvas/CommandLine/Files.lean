/-!
# Files

What a command needs of the files around it: to read one and to write one. `FileTree` is a tree of
files held in memory, with paths that are resolved name by name from its root. It stands for the
file system where commands are tried out one after the other, and where what they do is proved.
-/

namespace Canvas.CommandLine

/-- A reason why a file cannot be read or written. -/
inductive FileError where
  | notFound
  | isDirectory
  | notDirectory
  | nameTooLong
  | notText
  | other (text : String)
  deriving DecidableEq

namespace FileError

/-- The wording of an error. -/
def message : FileError → String
  | notFound => "No such file or directory (os error 2)"
  | isDirectory => "Is a directory (os error 21)"
  | notDirectory => "Not a directory (os error 20)"
  | nameTooLong => "File name too long (os error 36)"
  | notText => "stream did not contain valid UTF-8"
  | other text => text

end FileError

/-- How files are read and written. -/
structure FileAccess (m : Type → Type) where
  read : (path : String) → m (Except FileError String)
  write : (path content : String) → m (Except FileError Unit)

/-- What stands between the slashes of a path. -/
def segments (path : String) : List String := (path.toList.splitOn '/').map String.ofList

/-- A path without empty names and dots, which name nothing new. -/
def pathNames (path : String) : List String :=
  (segments path).filter fun name => name ≠ "" ∧ name ≠ "."

/-- Whether a path ends in a slash. -/
def endsInSlash (path : String) : Bool := path.toList.getLast? = some '/'

/-- Whether a path ends in one dot or two, slashes aside. -/
def endsInDots (path : String) : Bool :=
  match ((segments path).filter (· ≠ "")).getLast? with
  | some name => name = "." || name = ".."
  | none => false

/-- The last name in a path; a path that ends by going up has none. -/
def fileName? (path : String) : Option String :=
  match (pathNames path).getLast? with
  | some name => if name = ".." then none else some name
  | none => none

/-- The last name in a path up to its last dot. A dot that comes first does not count. -/
def fileStem? (path : String) : Option String :=
  (fileName? path).map fun name =>
    let cs := name.toList
    let extension := (cs.reverse.takeWhile (· ≠ '.')).reverse
    let stem := cs.take (cs.length - extension.length - 1)
    if stem.isEmpty then name else String.ofList stem

/-- Files with the names that lead to them. -/
structure FileTree where
  files : List (List String × String)

namespace FileTree

/-- The content of a file. -/
def content? (tree : FileTree) (names : List String) : Option String :=
  (tree.files.find? (·.1 = names)).map (·.2)

/-- Whether names lead to a directory: the root, or one that holds a file. -/
def isDirectory (tree : FileTree) (names : List String) : Bool :=
  names.isEmpty || tree.files.any fun file =>
    names.length < file.1.length && names.isPrefixOf file.1

/-- Where a path leads: to names from the root of the tree, or to names from a directory above. -/
inductive Place where
  | inside (names : List String)
  | outside (names : List String)

/-- The number of bytes that a name may have. -/
def maxNameSize : Nat := 255

/-- Follow names from a directory. All but the last have to be directories. -/
def walk (tree : FileTree) : (directory : List String) → List String → Except FileError Place
  | directory, [] => .ok (.inside directory)
  | directory, ".." :: rest =>
    if directory.isEmpty then .ok (.outside (rest.dropWhile (· = "..")))
    else walk tree directory.dropLast rest
  | directory, name :: rest =>
    let names := directory ++ [name]
    if maxNameSize < name.utf8ByteSize then .error .nameTooLong
    else if rest.isEmpty ∨ tree.isDirectory names then walk tree names rest
    else if (tree.content? names).isSome then .error .notDirectory
    else .error .notFound

/-- The place to which a path leads. -/
def place (tree : FileTree) (path : String) : Except FileError Place :=
  if path.toList.head? = some '/' then .ok (.outside ((pathNames path).dropWhile (· = "..")))
  else tree.walk [] (pathNames path)

/-- What is wrong with a path that asks for a directory where there is none. -/
def missingDirectory (tree : FileTree) (names : List String) : FileError :=
  if (tree.content? names).isSome then .notDirectory else .notFound

/-- Read a file. Outside the tree there are directories on the way up, and nothing else. -/
def read (tree : FileTree) (path : String) : Except FileError String := do
  match ← tree.place path with
  | .outside names => throw (if names.isEmpty then .isDirectory else .notFound)
  | .inside names =>
    if tree.isDirectory names then throw .isDirectory
    if endsInSlash path ∨ endsInDots path then throw (tree.missingDirectory names)
    match tree.content? names with
    | some content => return content
    | none => throw .notFound

/-- Write a file; it need not exist, but its directory must. A path that ends in a slash is taken
for that of a directory. A file outside the tree is not kept. -/
def write (tree : FileTree) (path content : String) : Except FileError FileTree := do
  match ← tree.place path with
  | .outside [] => throw .isDirectory
  | .outside (_ :: names) =>
    if !names.isEmpty || endsInDots path then throw .notFound
    if endsInSlash path then throw .isDirectory
    return tree
  | .inside names =>
    if tree.isDirectory names then throw .isDirectory
    if endsInDots path then throw (tree.missingDirectory names)
    if endsInSlash path then throw .isDirectory
    return ⟨(names, content) :: tree.files.filter (·.1 ≠ names)⟩

/-- Access to the files of a tree. -/
def access : FileAccess (StateM FileTree) where
  read path := do return (← get).read path
  write path content := do
    match (← get).write path content with
    | .ok tree =>
      set tree
      return .ok ()
    | .error error => return .error error

/-- The files of a tree as they are; what is written does not last. -/
def reading (tree : FileTree) : FileAccess Id where
  read path := tree.read path
  write path content := (tree.write path content).map fun _ => ()

end FileTree

end Canvas.CommandLine
