import Offload.Text.Basic

/-!
A working directory of text files, by their paths below it, and how paths lead through it. Of the
system around it the root, its usual directories and the null device are known. What is written
there is not kept.
-/
namespace Offload.CommandLine

/-- Why a file cannot be opened. -/
inductive FileError
  | notFound
  | notDirectory
  | isDirectory
  | nameTooLong
deriving DecidableEq, Repr

/-- The message of the operating system. -/
def FileError.message : FileError → Text
  | .notFound => "No such file or directory (os error 2)"
  | .notDirectory => "Not a directory (os error 20)"
  | .isDirectory => "Is a directory (os error 21)"
  | .nameTooLong => "File name too long (os error 36)"

/-- Where a path leads. -/
inductive Place
  /-- By names from the working directory. -/
  | inside (names : List Text)
  /-- A directory above the working directory. -/
  | above
  /-- By names from the root of the system. -/
  | system (names : List Text)

namespace Place

def parent : Place → Place
  | .inside [] => .above
  | .inside names => .inside names.dropLast
  | .above => .above
  | .system names => .system names.dropLast

/-- An entry of a directory; those of a directory above are not known. -/
def child? (name : Text) : Place → Option Place
  | .inside names => some (.inside (names ++ [name]))
  | .above => none
  | .system names => some (.system (names ++ [name]))

end Place

inductive Entry
  | file (content : Text)
  | directory

structure Directory where
  files : List (Text × Text)

namespace Directory

/-- The names along a path. -/
def names (path : Text) : List Text := (path.splitOn '/').filter fun name => !name.isEmpty

/-- The usual directories in the root. -/
def rootDirectories : List String := [
  "bin", "boot", "dev", "etc", "home", "lib", "media", "mnt", "opt", "proc", "root", "run", "sbin",
  "srv", "sys", "tmp", "usr", "var"]

def isSystemDirectory : List Text → Bool
  | [] => true
  | [name] => rootDirectories.contains (String.ofList name)
  | _ => false

/-- The device that reads as an empty file. -/
def nullDevice : List Text := ["dev", "null"]

def entry? (d : Directory) : Place → Option Entry
  | .inside place =>
    match d.files.find? fun (path, _) => names path == place with
    | some (_, content) => some (.file content)
    | none =>
      if place.isEmpty || d.files.any fun (path, _) => place.isPrefixOf (names path) then
        some .directory
      else none
  | .above => some .directory
  | .system place =>
    if isSystemDirectory place then some .directory
    else if place == nullDevice then some (.file [])
    else none

/-- The most bytes of a name. -/
def nameLimit : Nat := 255

/-- The most bytes of a path. -/
def pathLimit : Nat := 4095

/-- A name in a directory can be looked up. -/
def checkName (d : Directory) (place : Place) (name : Text) : Except FileError Unit :=
  match d.entry? place with
  | some .directory => if nameLimit < name.byteLength then .error .nameTooLong else .ok ()
  | _ => .error .notDirectory

/-- One step along a path: a dot stays, two dots go up, and any other name has to be there. -/
def step (d : Directory) (place : Place) (name : Text) : Except FileError Place := do
  d.checkName place name
  if name = "." then return place
  else if name = ".." then return place.parent
  else match place.child? name with
    | some child => if (d.entry? child).isSome then return child else .error .notFound
    | none => .error .notFound

/-- Where a path begins. -/
def start (path : Text) : Except FileError Place :=
  if path.isEmpty then .error .notFound
  else if pathLimit < path.byteLength then .error .nameTooLong
  else if path.head? = some '/' then .ok (.system [])
  else .ok (.inside [])

/-- A path that ends with a slash leads to a directory. -/
def endsWithSlash (path : Text) : Bool := path.getLast? = some '/'

def read (d : Directory) (path : Text) : Except FileError Text := do
  let place ← (names path).foldlM d.step (← start path)
  match d.entry? place with
  | some (.file content) => if endsWithSlash path then .error .notDirectory else .ok content
  | some .directory => .error .isDirectory
  | none => .error .notFound

/-- Puts a file into the working directory. -/
def put (d : Directory) (place : List Text) (content : Text) : Directory :=
  if d.files.any fun (path, _) => names path == place then
    ⟨d.files.map fun (path, old) => (path, if names path = place then content else old)⟩
  else ⟨d.files ++ [(Text.join "/" place, content)]⟩

/-- Writes a file, which may be new, into a directory that is there. -/
def write (d : Directory) (path content : Text) : Except FileError Directory := do
  let names := names path
  let place ← names.dropLast.foldlM d.step (← start path)
  match names.getLast? with
  | none => .error .isDirectory
  | some name =>
    if name = "." || name = ".." || endsWithSlash path then
      d.checkName place "."
      .error .isDirectory
    else
      d.checkName place name
      match place.child? name with
      | none => return d
      | some child =>
        match d.entry? child, child with
        | some .directory, _ => .error .isDirectory
        | _, .inside child => return d.put child content
        | _, _ => return d

/-- The files of `new` that `old` does not have or has with another content. -/
def changes (old new : Directory) : List (Text × Text) :=
  new.files.filter fun (path, content) => old.files.lookup path != some content

end Directory
end Offload.CommandLine
