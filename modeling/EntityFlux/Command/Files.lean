import EntityFlux.Dictionary

/-!
# Files

What a command may find in the file system, and a working directory held in memory, in which a
command can be run without touching a disk.
-/

namespace EntityFlux

/-- Why a file cannot be read or written. -/
inductive FileFault where
  | notFound
  | notDirectory
  | isDirectory
  | nulInName
  | nameTooLong
  | other (text : String)
deriving DecidableEq, Repr

def FileFault.message : FileFault → String
  | .notFound => "No such file or directory (os error 2)"
  | .notDirectory => "Not a directory (os error 20)"
  | .isDirectory => "Is a directory (os error 21)"
  | .nulInName => "file name contained an unexpected NUL byte"
  | .nameTooLong => "File name too long (os error 36)"
  | .other text => text

/-- The parts of a path between its slashes. -/
def pathParts (path : String) : List String := (path.splitOn "/").filter fun part => part ≠ ""

/-- The extension of the last part of a path: what stands behind its last dot, unless that dot is
the first character. -/
def pathExtension? (path : String) : Option String :=
  match ((pathParts path).filter (· ≠ ".")).getLast? with
  | none => none
  | some name =>
    if name = ".." then none
    else
      match (name.toList.reverse.span (· ≠ '.')) with
      | (_, []) | (_, ['.']) => none
      | (ending, _) => some (String.ofList ending.reverse)

/-- A working directory and what is known around it: files under the parts of their paths, and
directories that may hold no file. A path from the top of the file system has `/` as its first part,
one that leaves the working directory upwards has `..` in front. -/
structure Files where
  contents : List (List String × String) := []
  folders : List (List String) := []

namespace Files

/-- The directory that all others lie in. -/
def top : List String := ["/"]

/-- The directory around a directory; the top is its own. -/
def parent (path : List String) : List String :=
  if path = top then top
  else if path.all (· = "..") then path ++ [".."]
  else path.dropLast

/-- What a path leads to. -/
inductive Place where
  | folder (path : List String)
  | file (path : List String) (content : String)
  /-- Nothing yet, in an existing directory. -/
  | free (path : List String)

def isFolder (files : Files) (path : List String) : Bool :=
  path = top || path.all (· = "..") || files.folders.any (path.isPrefixOf ·)
    || files.contents.any fun file => file.1 ≠ path && path.isPrefixOf file.1

def place (files : Files) (path : List String) : Place :=
  if files.isFolder path then .folder path
  else
    match files.contents.find? (·.1 = path) with
    | some (_, content) => .file path content
    | none => .free path

/-- The greatest number of bytes in one part of a path. -/
def nameLimit : Nat := 255

/-- The greatest number of bytes in a path. -/
def pathLimit : Nat := 4095

/-- Goes along the parts of a path from a place. -/
def walk (files : Files) : Place → List String → Except FileFault Place
  | place, [] => .ok place
  | .folder path, ".." :: rest => walk files (files.place (parent path)) rest
  | .folder path, "." :: rest => walk files (.folder path) rest
  | .folder path, name :: rest =>
    if nameLimit < name.utf8ByteSize then .error .nameTooLong
    else walk files (files.place (path ++ [name])) rest
  | .file .., _ :: _ => .error .notDirectory
  | .free _, _ :: _ => .error .notFound

def locate (files : Files) (path : String) : Except FileFault Place :=
  if path.contains '\x00' then .error .nulInName
  else if path = "" then .error .notFound
  else if pathLimit < path.utf8ByteSize then .error .nameTooLong
  else do
    let start := if path.startsWith "/" then top else []
    let place ← files.walk (.folder start) (pathParts path)
    if path.endsWith "/" then
      match place with
      | .file .. => .error .notDirectory
      | place => .ok place
    else .ok place

def read (files : Files) (path : String) : Except FileFault String := do
  match ← files.locate path with
  | .file _ content => .ok content
  | .folder _ => .error .isDirectory
  | .free _ => .error .notFound

def write (files : Files) (path content : String) : Except FileFault Files := do
  match ← files.locate path with
  | .folder _ => .error .isDirectory
  | .file parts _ =>
    .ok { files with contents := (parts, content) :: files.contents.filter (·.1 ≠ parts) }
  | .free parts =>
    if path.endsWith "/" then .error .isDirectory
    else .ok { files with contents := (parts, content) :: files.contents }

end Files

end EntityFlux
