import Chip8.Text.Quoted
import Chip8.Value

/-!
# Files

A program is read from a file of the working directory.  A path is followed from component to
component, and it fails at the first one that leads nowhere.  Outside of the working directory only the
usual directories of the root are known, and nothing that is in them.
-/

namespace Chip8.File

inductive Error where
  | notFound (path : String)
  | notDirectory (path : String)
  | isDirectory (path : String)
  | tooLong (path : String)
  | badDescriptor
  | negativeDescriptor
  /-- A value that is no path. -/
  | notAPath (kind : Kind)
  deriving DecidableEq, Repr

/-- The wording of an error; for a value that is no path a host may have its own. -/
def Error.message : Error → String
  | notFound path => "[Errno 2] No such file or directory: " ++ Text.quoted path
  | notDirectory path => "[Errno 20] Not a directory: " ++ Text.quoted path
  | isDirectory path => "[Errno 21] Is a directory: " ++ Text.quoted path
  | tooLong path => "[Errno 36] File name too long: " ++ Text.quoted path
  | badDescriptor => "[Errno 9] Bad file descriptor"
  | negativeDescriptor => "negative file descriptor"
  | notAPath kind => "'" ++ kind.name ++ "' object is not a path"

/-- The longest path and the longest component, in bytes. -/
def maxPath : Nat := 4095

def maxComponent : Nat := 255

/-- The working directory, which holds nothing but plain files. -/
structure Directory where
  files : List (String × List UInt8) := []

/-- Where a part of a path leads. -/
inductive Place where
  | working
  | root
  | outside
  | file (contents : List UInt8)
  deriving DecidableEq, Repr

/-- The usual directories of the root. -/
def rootDirectories : List String :=
  ["bin", "boot", "dev", "etc", "home", "lib", "media", "mnt", "opt", "proc", "root", "run", "sbin",
   "srv", "sys", "tmp", "usr", "var"]

/-- The components of a path. -/
def components (path : String) : List String :=
  ((path.split '/').toList.map fun part => part.toString)

namespace Directory

/-- What is found under a name in a directory. -/
def lookup (d : Directory) (place : Place) (component : String) : Option Place :=
  match place with
  | .working => (d.files.lookup component).map .file
  | .root => if rootDirectories.contains component then some .outside else none
  | _ => none

/-- The directory above one. -/
def above : Place → Place
  | .root => .root
  | _ => .outside

/-- One component further. -/
def follow (d : Directory) (path : String) (place : Place) (component : String) :
    Except Error Place :=
  match place with
  | .file _ => .error (.notDirectory path)
  | _ =>
    if component = "" ∨ component = "." then .ok place
    else if component = ".." then .ok (above place)
    else if maxComponent < component.utf8ByteSize then .error (.tooLong path)
    else match d.lookup place component with
      | some next => .ok next
      | none => .error (.notFound path)

def readPath (d : Directory) (path : String) : Except Error (List UInt8) := do
  if path = "" then throw (.notFound path)
  if maxPath < path.utf8ByteSize then throw (.tooLong path)
  let start : Place := if path.startsWith "/" then .root else .working
  match ← (components path).foldlM (d.follow path) start with
  | .file contents => return contents
  | _ => throw (.isDirectory path)

/-- The contents of the file that a value names.  A number names an open file, and none is open; a
number that is too large names nothing. -/
def read (d : Directory) (name : Value) : Except Error (List UInt8) :=
  match name with
  | .text path => d.readPath path
  | _ =>
    match name.int? with
    | some n =>
      if n < 0 then .error .negativeDescriptor
      else if n < 2147483648 then .error .badDescriptor
      else .error (.notAPath name.kind)
    | none => .error (.notAPath name.kind)

end Directory

end Chip8.File
