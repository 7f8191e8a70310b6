import ThingHub.Data.Bytes
import ThingHub.Text.Parts

/-! A folder of files, as a client sees it from its working directory. -/

namespace ThingHub

/-- Why a file cannot be read. -/
inductive IoError
  | notFound
  | isADirectory
  | notADirectory
  | invalidInput
  /-- A name, or the whole path, is longer than a file system takes. -/
  | nameTooLong
  /-- The file is there, and its content is not in the form that is asked for. -/
  | invalidData
  deriving DecidableEq, Repr

def IoError.message : IoError → String
  | .notFound => "No such file or directory (os error 2)"
  | .isADirectory => "Is a directory (os error 21)"
  | .notADirectory => "Not a directory (os error 20)"
  | .invalidInput => "file name contained an unexpected NUL byte"
  | .nameTooLong => "File name too long (os error 36)"
  | .invalidData => "invalid data"

/-- Files and folders by the names that lead to them. A file makes the folders that it
lies in. -/
structure Folder where
  files : List (List String × Bytes)
  folders : List (List String)

namespace Folder

def empty : Folder := ⟨[], []⟩

/-- The names along a relative path. -/
def names (path : String) : List String :=
  (Text.parts '/' path).filter fun name => name ≠ "" && name ≠ "."

def ofList (files : List (String × Bytes)) (folders : List String) : Folder :=
  ⟨files.map fun (path, content) => (names path, content), folders.map names⟩

def isFolder (folder : Folder) (place : List String) : Bool :=
  place.isEmpty || folder.folders.any place.isPrefixOf ||
    folder.files.any fun file => place.isPrefixOf file.1 && place ≠ file.1

/-- The most octets of one name along a path. -/
def longestName : Nat := 255

/-- The most octets of a path. -/
def longestPath : Nat := 4095

/-- A part of a path that leads to the same folder or to the one above. -/
def isDots (part : String) : Bool := part = "" || part = "." || part = ".."

/-- Follows the parts of a path outside the working directory, where nothing has a known
name and only the folders above can be reached. -/
def walkOutside : List String → Except IoError Bytes
  | [] => .error .isADirectory
  | part :: rest =>
    if isDots part then walkOutside rest
    else if longestName < part.utf8ByteSize then .error .nameTooLong
    else .error .notFound

/-- Follows the parts of a path from a folder, whose names are held in reverse. Only
folders lead on. -/
def walk (folder : Folder) (place : List String) : List String → Except IoError Bytes
  | [] => .error .isADirectory
  | part :: rest =>
    if part = "" ∨ part = "." then walk folder place rest
    else if part = ".." then
      match place with
      | [] => walkOutside rest
      | _ :: outer => walk folder outer rest
    else if longestName < part.utf8ByteSize then .error .nameTooLong
    else
      let next := (part :: place).reverse
      if folder.isFolder next then walk folder (part :: place) rest
      else match folder.files.find? (·.1 == next) with
        | some file => if rest.isEmpty then .ok file.2 else .error .notADirectory
        | none => .error .notFound

/-- The content of a file. -/
def read (folder : Folder) (path : String) : Except IoError Bytes :=
  if path.toList.contains '\x00' then .error .invalidInput
  else if path = "" then .error .notFound
  else if longestPath < path.utf8ByteSize then .error .nameTooLong
  else if path.toList.head? = some '/' then walkOutside (Text.parts '/' path)
  else folder.walk [] (Text.parts '/' path)

end Folder

end ThingHub
