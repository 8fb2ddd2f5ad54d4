import AutomatonLab.Text.Quoted

/-!
# Files

A `FileStore` has the files and directories below the current directory, with the texts of the
files. A path is followed name by name (`FileStore.walk`) : every name but the last leads to a
directory, `..` leads up, also above the current directory, and `/` at the start leads to the root.
Nothing outside the current directory is known but the directories on the way up to the root.
Reading takes every kind of line end for one new line; writing keeps the text as it is
(`FileStore.read`, `FileStore.write`). Paths and files hold characters only. What can go wrong is a
`FileError`.
-/

namespace AutomatonLab

/-- Why a file cannot be read or written. -/
inductive FileError where
  | notFound
  | notDirectory
  | isDirectory
  | nameTooLong
  /-- The path holds the character U+0000. -/
  | nullCharacter
  deriving DecidableEq, Repr

/-- The message about an error with the file at `path`. -/
def FileError.message (path : String) : FileError → Text
  | notFound => "[Errno 2] No such file or directory: " ++ Text.quoted path
  | notDirectory => "[Errno 20] Not a directory: " ++ Text.quoted path
  | isDirectory => "[Errno 21] Is a directory: " ++ Text.quoted path
  | nameTooLong => "[Errno 36] File name too long: " ++ Text.quoted path
  | nullCharacter => "embedded null byte"

/-- What stands at a place. -/
inductive FileEntry where
  | directory
  | regular (text : String)
  deriving DecidableEq, Repr

/-- Where something stands : the names from the current directory to it. Those of a place that is
not below the current directory start with `..`, or with `/` if they lead from the root. -/
abbrev Place := List String

namespace Place

/-- The name that stands for the outermost directory. -/
def root : String := "/"

/-- The name that leads out of a directory. -/
def up : String := ".."

/-- The name that stays in a directory. -/
def here : String := "."

/-- The place that contains this one; the root contains itself. -/
def above (place : Place) : Place :=
  match place.getLast? with
  | none => [up]
  | some name =>
    if name = up then place ++ [up]
    else if name = root then place
    else place.dropLast

/-- The place that a name leads to. -/
def enter (place : Place) (name : String) : Place :=
  if name = here then place
  else if name = up then place.above
  else place ++ [name]

/-- The place is the current directory, or one that contains it. -/
def isOutermost (place : Place) : Bool :=
  place.all fun name => name == up || name == root

end Place

/-- Files and directories by their places. -/
structure FileStore where
  entries : List (Place × FileEntry)
  deriving DecidableEq, Repr

namespace FileStore

/-- The number of bytes that a name may have. -/
def maxNameSize : Nat := 255

/-- The number of bytes that no path reaches. -/
def pathSizeBound : Nat := 4096

/-- The names on a path. -/
def names (path : String) : List String :=
  (path.splitOn "/").filter (· != "")

/-- The place where a path starts. -/
def start (path : String) : Place :=
  if path.startsWith "/" then [Place.root] else []

/-- The part of a path after the last slash. -/
def baseName (path : String) : String :=
  ((path.splitOn "/").getLast?).getD path

/-- The path is one of a directory. -/
def endsInSlash (path : String) : Bool :=
  path.toList.getLast? == some '/'

/-- The store with the given entries by their paths. -/
def ofList (entries : List (String × FileEntry)) : FileStore :=
  ⟨entries.map fun (path, e) => ((names path).foldl Place.enter [], e)⟩

/-- What stands at a place. -/
def entry? (s : FileStore) (place : Place) : Option FileEntry :=
  if place.isOutermost then some .directory
  else match s.entries.lookup place with
    | some e => some e
    | none =>
      if s.entries.any fun (p, _) => place.isPrefixOf p then some .directory else none

/-- A directory stands at a place. -/
def checkDirectory (s : FileStore) (place : Place) : Except FileError Unit :=
  match s.entry? place with
  | none => .error .notFound
  | some (.regular _) => .error .notDirectory
  | some .directory => .ok ()

/-- The place that a name leads to. It need not be there, but the directory has to, in which the
name is looked up. -/
def step (s : FileStore) (place : Place) (name : String) : Except FileError Place := do
  s.checkDirectory place
  if maxNameSize < name.utf8ByteSize then throw .nameTooLong
  return place.enter name

/-- The place that names lead to, one after the other. -/
def walk (s : FileStore) (place : Place) (names : List String) : Except FileError Place :=
  names.foldlM s.step place

/-- The path can be followed at all. -/
def checkPath (path : String) : Except FileError Unit :=
  if path.toList.contains '\x00' then .error .nullCharacter
  else if pathSizeBound ≤ path.utf8ByteSize then .error .nameTooLong
  else .ok ()

/-- The text of the file at a path, as it is. -/
def text (s : FileStore) (path : String) : Except FileError String := do
  checkPath path
  match s.entry? (← s.walk (start path) (names path)) with
  | none => throw .notFound
  | some .directory => throw .isDirectory
  | some (.regular text) => if endsInSlash path then throw .notDirectory else return text

/-- A text with one new line for every line end. -/
def unifyLines : List Char → List Char
  | [] => []
  | '\r' :: '\n' :: rest => '\n' :: unifyLines rest
  | '\r' :: rest => '\n' :: unifyLines rest
  | c :: rest => c :: unifyLines rest

/-- The text of the file at a path, with one new line for every line end. -/
def read (s : FileStore) (path : String) : Except FileError String :=
  (s.text path).map fun t => String.ofList (unifyLines t.toList)

/-- The store with `text` in the file at a place. -/
def put (s : FileStore) (place : Place) (text : String) : FileStore :=
  if (s.entries.lookup place).isSome then
    ⟨s.entries.map fun (p, e) => if p == place then (p, .regular text) else (p, e)⟩
  else ⟨s.entries ++ [(place, .regular text)]⟩

/-- The store with `text` in the file at a path, which is made if its directory is there. A path
that ends in a slash is one of a directory. -/
def write (s : FileStore) (path text : String) : Except FileError FileStore := do
  checkPath path
  let ns := names path
  let directory ← s.walk (start path) ns.dropLast
  s.checkDirectory directory
  if endsInSlash path then throw .isDirectory
  let place ← s.walk directory ns.getLast?.toList
  match s.entry? place with
  | some .directory => throw .isDirectory
  | _ => return s.put place text

end FileStore

end AutomatonLab
