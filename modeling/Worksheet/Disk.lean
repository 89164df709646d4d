import Worksheet.Text.Utf8

/-!
A tree of files and directories.

A `Disk` holds everything below the working directory. Paths are walked name by name, and every
operation fails the way the operating system does: `Disk.read` reads a file, and `Disk.replace`
writes one through a temporary sibling which is then renamed over the path, so that a failure leaves
whatever stood there.
-/

namespace Worksheet

open Text (Bytes)

/-! ## Errors -/

/-- Why a file operation failed. -/
inductive DiskError where
  | notFound
  | busy
  | notADirectory
  | isADirectory
  | nameTooLong
  /-- A path may not hold the character NUL. -/
  | nulInPath
deriving DecidableEq, Repr

/-- The operating system's words for an error. -/
def DiskError.message : DiskError → String
  | .notFound => "No such file or directory (os error 2)"
  | .busy => "Device or resource busy (os error 16)"
  | .notADirectory => "Not a directory (os error 20)"
  | .isADirectory => "Is a directory (os error 21)"
  | .nameTooLong => "File name too long (os error 36)"
  | .nulInPath => "file name contained an unexpected NUL byte"

/-! ## The tree -/

/-- What stands at a place. -/
inductive DiskEntry where
  | directory
  | file (content : Bytes)
deriving DecidableEq, Repr

/-- A place in the tree: the names that lead to it from the working directory. -/
abbrev Place := List String

/-- The files and directories below the working directory, which is a directory itself. -/
structure Disk where
  entries : List (Place × DiskEntry)

namespace Disk

/-- A tree without files. -/
def empty : Disk := ⟨[]⟩

/-- What stands at a place. -/
def lookup (d : Disk) (p : Place) : Option DiskEntry :=
  if p = [] then some .directory else d.entries.lookup p

/-- Takes away what stands at a place. -/
def erase (d : Disk) (p : Place) : Disk :=
  ⟨d.entries.filter fun e => e.1 ≠ p⟩

/-- Puts an entry at a place, instead of what stood there. -/
def insert (d : Disk) (p : Place) (e : DiskEntry) : Disk :=
  ⟨(d.erase p).entries ++ [(p, e)]⟩

/-! ## Walking -/

/-- The most bytes of a name. -/
def maxNameBytes : Nat := 255

/-- The most bytes of a path. -/
def maxPathBytes : Nat := 4095

/-- Walks along names from a place. An empty name and `.` stay, `..` goes up, and the place left
behind has to be a directory each time. -/
def walk (d : Disk) (here : Place) : List String → Except DiskError Place
  | [] => .ok here
  | name :: names =>
    match d.lookup here with
    | some .directory =>
      if name = "" ∨ name = "." then walk d here names
      else if name = ".." then walk d here.dropLast names
      else if maxNameBytes < name.utf8ByteSize then .error .nameTooLong
      else if (d.lookup (here ++ [name])).isNone then .error .notFound
      else walk d (here ++ [name]) names
    | some (.file _) => .error .notADirectory
    | none => .error .notFound

/-- The names of a path, those between slashes. -/
def names (path : String) : List String :=
  path.splitOn "/"

/-- A path that ends in a slash asks for a directory. -/
def endsInSlash (path : String) : Bool :=
  (names path).getLast? = some ""

/-- A path that no operation takes, whatever the tree holds. -/
def pathError? (path : String) : Option DiskError :=
  if path.toList.contains '\x00' then some .nulInPath
  else if path = "" then some .notFound
  else if maxPathBytes < path.utf8ByteSize then some .nameTooLong
  else none

/-- Walks to the directory that holds the last name of a path, and gives that name. The last name
may be followed by slashes; a path of slashes alone has none. -/
def parentOf (d : Disk) (path : String) : Except DiskError (Place × Option String) :=
  match ((names path).reverse.dropWhile (· = "")) with
  | [] => .ok ([], none)
  | last :: before => do
    let here ← d.walk [] before.reverse
    match d.lookup here with
    | some .directory => return (here, some last)
    | _ => throw .notADirectory

/-! ## Reading -/

/-- What stands at the end of a path. -/
def open? (d : Disk) (path : String) : Except DiskError DiskEntry :=
  match pathError? path with
  | some e => .error e
  | none => do
    let here ← d.walk [] (names path)
    match d.lookup here with
    | some e => return e
    | none => throw .notFound

end Disk

/-- What comes of reading a file line by line. -/
inductive ReadOutcome where
  /-- The path cannot be opened. -/
  | unopened (e : DiskError)
  /-- The path opens, and reading fails after some lines. -/
  | interrupted (before : List Bytes) (e : DiskError)
  | whole (content : Bytes)
deriving DecidableEq, Repr

namespace Disk

/-- Reads what stands at the end of a path. A directory opens but cannot be read. -/
def read (d : Disk) (path : String) : ReadOutcome :=
  match d.open? path with
  | .error e => .unopened e
  | .ok .directory => .interrupted [] .isADirectory
  | .ok (.file content) => .whole content

/-! ## Writing -/

/-- The place at the end of a path, for writing a file there in place. Slashes after the last name
ask for a directory, which cannot be written. -/
def target (d : Disk) (path : String) : Except DiskError Place :=
  match pathError? path with
  | some e => .error e
  | none => do
    let (here, last) ← d.parentOf path
    match last with
    | none => throw .isADirectory
    | some name =>
      if name = "." ∨ name = ".." ∨ endsInSlash path then throw .isADirectory
      else if maxNameBytes < name.utf8ByteSize then throw .nameTooLong
      else if d.lookup (here ++ [name]) = some .directory then throw .isADirectory
      else return here ++ [name]

/-- Writes a file in place. -/
def write (d : Disk) (path : String) (content : Bytes) : Except DiskError Disk := do
  let place ← d.target path
  return d.insert place (.file content)

/-- The content of the file at a place; where no file is, it is empty. -/
def contentAt (d : Disk) (p : Place) : Bytes :=
  match d.lookup p with
  | some (.file content) => content
  | _ => []

/-- Makes a directory and those it lies in. -/
def makeDirectories (d : Disk) (path : String) : Disk :=
  let ns := (names path).filter fun name => name ≠ "" && name ≠ "."
  (List.range ns.length).foldl
    (fun d i =>
      let p := ns.take (i + 1)
      if (d.lookup p).isSome then d else d.insert p .directory)
    d

/-! ## Replacing a file -/

/-- The directory in which the temporary sibling of a path is made: what stands before the last
name, where `.` counts as a name only at the start of the path, and the working directory if
nothing does. -/
def siblingDirectory (path : String) : List String :=
  let ns := (names path).filter (· ≠ "")
  let ns := ns.take 1 ++ (ns.drop 1).filter (· ≠ ".")
  ns.dropLast

/-- A name longer than every name in use is new. -/
def freshName (d : Disk) : String :=
  let longest := (d.entries.flatMap fun e => e.1.map String.length).foldl max 0
  String.ofList (".tmp".toList ++ List.replicate longest 'x')

/-- Makes the temporary sibling of a path, and tells its place. -/
def makeSibling (d : Disk) (path : String) (content : Bytes) : Except DiskError (Place × Disk) :=
  if path.toList.contains '\x00' then .error .nulInPath
  else if maxPathBytes < ("/".intercalate (siblingDirectory path)).utf8ByteSize then
    .error .nameTooLong
  else do
    let here ← d.walk [] (siblingDirectory path)
    match d.lookup here with
    | some .directory =>
      let place := here ++ [d.freshName]
      return (place, d.insert place (.file content))
    | _ => throw .notADirectory

/-- Renames a file over a path, which may hold a file but no directory. -/
def rename (d : Disk) (place : Place) (path : String) : Except DiskError Disk :=
  match pathError? path with
  | some e => .error e
  | none => do
    let (here, last) ← d.parentOf path
    match last with
    | none => throw .busy
    | some name =>
      if name = "." ∨ name = ".." then throw .busy
      else if maxNameBytes < name.utf8ByteSize then throw .nameTooLong
      else if endsInSlash path then throw .notADirectory
      else if d.lookup (here ++ [name]) = some .directory then throw .isADirectory
      else return (d.erase place).insert (here ++ [name]) (.file (d.contentAt place))

/-- Writes a file through a temporary sibling. A fault while the sibling is filled ends that; then, or
if the sibling cannot take the place of the path, it is removed again. -/
def replace (fault : Option DiskError) (d : Disk) (path : String) (content : Bytes) :
    Except DiskError Unit × Disk :=
  match d.makeSibling path content with
  | .error e => (.error e, d)
  | .ok (place, made) =>
    match fault with
    | some e => (.error e, made.erase place)
    | none =>
      match made.rename place path with
      | .ok renamed => (.ok (), renamed)
      | .error e => (.error e, made.erase place)

end Disk

end Worksheet
