import QueryBook.CommandLine.Path
import QueryBook.Text.Literal

/-!
# Files

A directory is given by the files in it and below it. A path is followed part by part; a file on
the way stops it, and so does a name that is not there. Outside the directory there are its
parents, which have no files but may be written to; what is written there is not kept.
-/

namespace QueryBook

/-- Why a file cannot be read or written. -/
inductive FileFault where
  | missing
  | notDirectory
  | isDirectory
  | nameTooLong
  /-- The name has a zero character in it. -/
  | zeroCharacter
  /-- Another reason: its number and its text. -/
  | other (code : Nat) (text : String)
deriving DecidableEq, Repr

/-- What is reported of a file. -/
def FileFault.message (path : Path) (f : FileFault) : String :=
  let shown := Text.literal path.text
  match f with
  | missing => s!"[Errno 2] No such file or directory: {shown}"
  | notDirectory => s!"[Errno 20] Not a directory: {shown}"
  | isDirectory => s!"[Errno 21] Is a directory: {shown}"
  | nameTooLong => s!"[Errno 36] File name too long: {shown}"
  | zeroCharacter => "embedded null byte"
  | other code text => s!"[Errno {code}] {text}: {shown}"

/-- Files by their parts, below one directory. -/
structure FileTree where
  files : List (List String × List UInt8)
deriving Repr

namespace FileTree

/-- A place in the tree, or outside of it. -/
inductive Place where
  | inside (parts : List String)
  /-- A parent of the tree. -/
  | parent
  /-- A name in a parent of the tree. -/
  | elsewhere
deriving DecidableEq, Repr

/-- The contents of a file. -/
def get? (t : FileTree) (parts : List String) : Option (List UInt8) := t.files.lookup parts

/-- Whether there is a directory, that is, anything below it. -/
def isDirectory (t : FileTree) (parts : List String) : Bool :=
  parts.isEmpty || t.files.any fun f => f.1 != parts && parts.isPrefixOf f.1

/-- The longest name of a file, in bytes. -/
def longestName : Nat := 255

/-- The longest path, in bytes. -/
def longestPath : Nat := 4095

/-- The place of a name in a directory. -/
def enter (name : String) (place : Place) : Except FileFault Place :=
  if name.utf8ByteSize > longestName then .error .nameTooLong
  else
    match place with
    | .elsewhere => .error .missing
    | .parent => .ok (if name = ".." then .parent else .elsewhere)
    | .inside parts =>
      if name = ".." then .ok (if parts.isEmpty then .parent else .inside parts.dropLast)
      else .ok (.inside (parts ++ [name]))

/-- Follows the parts of a path that has more parts behind them. -/
def follow (t : FileTree) (place : Place) : List String → Except FileFault Place
  | [] => .ok place
  | name :: rest => do
    match ← enter name place with
    | .elsewhere => .error .missing
    | .parent => t.follow .parent rest
    | .inside parts =>
      if (t.get? parts).isSome then .error .notDirectory
      else if t.isDirectory parts then t.follow (.inside parts) rest
      else .error .missing

/-- The place that a path names. The directories on the way are there; the place itself need not
be. -/
def locate (t : FileTree) (path : Path) : Except FileFault Place :=
  if path.text.contains '\x00' then .error .zeroCharacter
  else if path.text.utf8ByteSize > longestPath then .error .nameTooLong
  else do
    let start := if path.root.isEmpty then Place.inside [] else .parent
    let place ← t.follow start path.parts.dropLast
    match path.parts.getLast? with
    | some name => enter name place
    | none => .ok place

/-- Reads a file. -/
def read (t : FileTree) (path : Path) : Except FileFault (List UInt8) := do
  match ← t.locate path with
  | .elsewhere => .error .missing
  | .parent => .error .isDirectory
  | .inside parts =>
    match t.get? parts with
    | some data => .ok data
    | none => if t.isDirectory parts then .error .isDirectory else .error .missing

/-- Puts a file in its place. -/
def put (t : FileTree) (parts : List String) (data : List UInt8) : FileTree :=
  { files := (parts, data) :: t.files.filter fun f => f.1 != parts }

/-- Writes a file. -/
def write (t : FileTree) (path : Path) (data : List UInt8) : Except FileFault FileTree := do
  match ← t.locate path with
  | .elsewhere => .ok t
  | .parent => .error .isDirectory
  | .inside parts =>
    if t.isDirectory parts then .error .isDirectory else .ok (t.put parts data)

end FileTree

end QueryBook
