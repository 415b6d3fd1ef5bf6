/-! Files by path: a tree of them, and why one cannot be read as text.
Names are looked up one by one, and the first name that leads nowhere tells the cause.
-/

namespace SeriesWire.Command

/-- Why a file could not be read as text. -/
inductive FileError where
  | notFound
  | denied
  | notDirectory
  | directory
  | nameTooLong
  | notText
  deriving DecidableEq, Repr

def FileError.message : FileError → String
  | .notFound => "No such file or directory (os error 2)"
  | .denied => "Permission denied (os error 13)"
  | .notDirectory => "Not a directory (os error 20)"
  | .directory => "Is a directory (os error 21)"
  | .nameTooLong => "File name too long (os error 36)"
  | .notText => "stream did not contain valid UTF-8"

/-- A file with its bytes, or a directory with its named entries. -/
inductive FileTree where
  | file (content : ByteArray)
  | directory (entries : List (String × FileTree))

namespace FileTree

/-- The most bytes of one name. -/
def nameLimit : Nat :=
  255

/-- A path has fewer bytes than this. -/
def pathLimit : Nat :=
  4096

/-- Follows names from a directory, whose parents up to the root are given. An empty name and one
dot stay, two dots lead to the parent, and the root is its own parent. -/
def walk (parents : List FileTree) (here : FileTree) : List String → Except FileError FileTree
  | [] => .ok here
  | name :: names =>
    match here with
    | .file _ => .error .notDirectory
    | .directory entries =>
      if name = "" ∨ name = "." then walk parents here names
      else if name = ".." then
        match parents with
        | [] => walk [] here names
        | parent :: rest => walk rest parent names
      else if nameLimit < name.utf8ByteSize then .error .nameTooLong
      else
        match entries.lookup name with
        | some next => walk (here :: parents) next names
        | none => .error .notFound

/-- What a path leads to. It starts at the root if it begins with a slash, and in the working
directory otherwise. -/
def find (root : FileTree) (workingDirectory : List String) (path : String)
    : Except FileError FileTree :=
  let names := path.splitOn "/"
  if pathLimit ≤ path.utf8ByteSize then .error .nameTooLong
  else walk [] root (if path.startsWith "/" then names else workingDirectory ++ names)

end FileTree

/-- The text of a file's bytes. -/
def decodeText (content : ByteArray) : Except FileError String :=
  match String.fromUTF8? content with
  | some text => .ok text
  | none => .error .notText

/-- Reads the file that a path leads to. -/
def FileTree.readText (root : FileTree) (workingDirectory : List String) (path : String)
    : Except FileError String := do
  match ← root.find workingDirectory path with
  | .file content => decodeText content
  | .directory _ => .error .directory

end SeriesWire.Command
