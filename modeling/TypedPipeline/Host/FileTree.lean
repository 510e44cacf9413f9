import TypedPipeline.Host
import TypedPipeline.Path
import TypedPipeline.Text.Pieces

/-!
# Files in memory

A tree of files and directories that answers requests. Programs that touch files can be run on it
without a machine.

## Implementation notes

A tree is a sorted map from places to entries, with no nesting. A place is the list of names from
the root, written as one text. So to put an entry or to look one up takes one step, and the names in
a directory are found among the keys that begin with its place.

Paths are followed as a system does it. Every name but the last has to be a directory; a point stays
where it is, two points go up, and above the root there is the root. A slash at the end asks for a
directory. Names and paths have greatest lengths, and a path with a zero character is refused before
anything else.

There are no links, no permissions and no devices. Failures are those that a path or an entry of the
wrong kind can lead to.

## Main definitions

* `FileTree` — files and directories by their place
* `FileTree.locate` — where a path leads
* `FileTree.read`, `FileTree.write`, `FileTree.copy`, `FileTree.createDirectories`
* `Machine`, `Machine.host` — a tree with an environment and clocks that stand still
-/

namespace TypedPipeline

/-- What is at a place. -/
inductive FileEntry where
  | file (bytes : ByteArray)
  | directory

/-- Files and directories by their place, which is written as names between slashes. -/
structure FileTree where
  entries : TextMap FileEntry := .empty
  /-- The directory from which relative paths lead. -/
  working : List String := []

namespace FileTree

/-- How a place is written. -/
def key (names : List String) : String := "/".intercalate names

/-- What is at a place. The root is a directory. -/
def entry? (t : FileTree) (names : List String) : Option FileEntry :=
  if names.isEmpty then some .directory else t.entries.find? (key names)

/-- The tree with an entry at a place. -/
def put (t : FileTree) (names : List String) (e : FileEntry) : FileTree :=
  { t with entries := t.entries.insert (key names) e }

/-- The greatest size of a name, in bytes. -/
def nameLimit : Nat := 255

/-- The size from which a path is too long, in bytes. -/
def pathLimit : Nat := 4096

/-! ### Where a path leads

A path leads to a place even if nothing is there, because a file may be made at it. But the
directories on the way have to exist. -/

/-- Where a path leads: to a directory itself, or to a name in it, which may be missing. -/
structure Target where
  directory : List String
  name : Option String
  /-- A slash behind the name asks for a directory. -/
  slash : Bool

/-- The place of a target. -/
def Target.names (t : Target) : List String := t.directory ++ t.name.toList

/-- Goes from a directory to the directory with a name. -/
def enter (t : FileTree) (directory : List String) (name : String) :
    Except IoError (List String) :=
  if name == "." then .ok directory
  else if name == ".." then .ok directory.dropLast
  else if nameLimit < name.utf8ByteSize then .error .nameTooLong
  else
    match t.entry? (directory ++ [name]) with
    | none => .error .notFound
    | some (.file _) => .error .notDirectory
    | some .directory => .ok (directory ++ [name])

/-- Follows names from a directory; all but the last are entered. -/
def follow (t : FileTree) (slash : Bool) (directory : List String) :
    List String → Except IoError Target
  | [] => .ok ⟨directory, none, slash⟩
  | [name] =>
    if name == "." || name == ".." then do
      .ok ⟨← t.enter directory name, none, slash⟩
    else if nameLimit < name.utf8ByteSize then .error .nameTooLong
    else .ok ⟨directory, some name, slash⟩
  | name :: rest => do
    t.follow slash (← t.enter directory name) rest

/-- Where a path leads. -/
def locate (t : FileTree) (path : String) : Except IoError Target :=
  if path.toList.contains '\x00' then .error .zeroInPath
  else if path.isEmpty then .error .notFound
  else if pathLimit ≤ path.utf8ByteSize then .error .nameTooLong
  else
    let start := if path.startsWith "/" then [] else t.working
    let names := (Text.splitText '/' path).filter fun s => !s.isEmpty
    t.follow (path.endsWith "/") start names

/-! ### Operations

An operation gives a new tree or a failure. Except for making directories, a failure leaves no
trace. -/

/-- What a path leads to, if anything is there. -/
def lookup (t : FileTree) (path : String) : Except IoError FileEntry := do
  let target ← t.locate path
  match t.entry? target.names with
  | none => .error .notFound
  | some .directory => .ok .directory
  | some (.file bytes) => if target.slash then .error .notDirectory else .ok (.file bytes)

/-- Whether there is a file at a path. -/
def isFile (t : FileTree) (path : String) : Bool :=
  match t.lookup path with
  | .ok (.file _) => true
  | _ => false

/-- Whether there is a directory at a path. -/
def isDirectory (t : FileTree) (path : String) : Bool :=
  match t.lookup path with
  | .ok .directory => true
  | _ => false

/-- The bytes of a file. -/
def read (t : FileTree) (path : String) : Except IoError ByteArray := do
  match ← t.lookup path with
  | .file bytes => .ok bytes
  | .directory => .error .isDirectory

/-- The place at which a file may be made. -/
def writable (t : FileTree) (path : String) : Except IoError (List String) := do
  let target ← t.locate path
  if target.slash then .error .isDirectory
  else
    match t.entry? target.names with
    | some .directory => .error .isDirectory
    | _ => .ok target.names

/-- Makes a file, over a file that was there. -/
def write (t : FileTree) (path : String) (bytes : ByteArray) : Except IoError FileTree := do
  .ok (t.put (← t.writable path) (.file bytes))

/-- Copies a file. The destination is emptied before the source is read, so a file that is copied
onto itself is empty afterwards. -/
def copy (t : FileTree) (source destination : String) : Except IoError (Nat × FileTree) := do
  let _ ← t.read source
  let t ← t.write destination .empty
  let bytes ← t.read source
  .ok (bytes.size, ← t.write destination bytes)

/-- Makes one directory. -/
def createDirectory (t : FileTree) (path : String) : Except IoError FileTree := do
  let target ← t.locate path
  match t.entry? target.names with
  | some _ => .error .alreadyExists
  | none => .ok (t.put target.names .directory)

/-- Makes a directory and those above it. A directory that is there already is no failure. What was
made before a failure stays. `fuel` bounds how far up this goes. -/
def createDirectories : Nat → FileTree → String → FileTree × Except IoError Unit
  | 0, t, _ => (t, .error .notFound)
  | fuel + 1, t, path =>
    if path.isEmpty then (t, .ok ())
    else
      match t.createDirectory path with
      | .ok t => (t, .ok ())
      | .error .notFound =>
        match Path.parent? path with
        | none => (t, .error (.other "failed to create whole tree"))
        | some parent =>
          match createDirectories fuel t parent with
          | (t, .error e) => (t, .error e)
          | (t, .ok ()) =>
            match t.createDirectory path with
            | .ok t => (t, .ok ())
            | .error e => (t, if t.isDirectory path then .ok () else .error e)
      | .error e => (t, if t.isDirectory path then .ok () else .error e)

/-- The names in a directory, in order. -/
def list (t : FileTree) (path : String) : Except IoError (List String) := do
  let target ← t.locate path
  match t.entry? target.names with
  | none => .error .notFound
  | some (.file _) => .error .notDirectory
  | some .directory =>
    let above := if target.names.isEmpty then "" else key target.names ++ "/"
    .ok (t.entries.keys.filterMap fun k =>
      if k.startsWith above then
        let rest := String.ofList (k.toList.drop above.length)
        if rest.isEmpty || rest.toList.contains '/' then none else some rest
      else none)

/-! ### Whole trees

To set up a tree, directories are made as they are needed. To compare trees, those that hold
something are left out. -/

/-- The tree with a directory and those above it, as far as they can be made. -/
def addDirectory (t : FileTree) (path : String) : FileTree :=
  (createDirectories (path.length + 1) t path).1

/-- The tree with a file and the directories above it. -/
def addFile (t : FileTree) (path : String) (bytes : ByteArray) : Except IoError FileTree :=
  ((Path.parent? path).elim t t.addDirectory).write path bytes

/-- What is below the working directory, by its path from there: all files, and the directories that
are empty. -/
def below (t : FileTree) : List (String × FileEntry) :=
  let above := key t.working ++ "/"
  t.entries.entries.filterMap fun (key, e) =>
    let path := String.ofList (key.toList.drop above.length)
    let isAbove : Bool :=
      match e with
      | .file _ => false
      | .directory => t.entries.keys.any fun k => k.startsWith (key ++ "/")
    if key.startsWith above && !isAbove then some (path, e) else none

end FileTree

/-- A tree with an environment, and clocks that stand still. Programs on such a machine do the same
each time they are run. -/
structure Machine where
  files : FileTree := {}
  settings : List (String × String) := []
  time : Nat := 0

namespace Machine

/-- Answers a request. -/
def host : Host (StateM Machine) := fun
  | .isFile path => fun m => (m.files.isFile path, m)
  | .isDirectory path => fun m => (m.files.isDirectory path, m)
  | .read path => fun m => (m.files.read path, m)
  | .write path bytes => fun m =>
    match m.files.write path bytes with
    | .ok files => (Except.ok (), { m with files })
    | .error e => (Except.error e, m)
  | .copy source destination => fun m =>
    match m.files.copy source destination with
    | .ok (n, files) => (Except.ok n, { m with files })
    | .error e => (Except.error e, m)
  | .createDirectories path => fun m =>
    let (files, r) := FileTree.createDirectories (path.length + 1) m.files path
    (r, { m with files })
  | .list path => fun m => (m.files.list path, m)
  | .setting name => fun m => (m.settings.lookup name, m)
  | .ticks => fun m => ((0 : Nat), m)
  | .time => fun m => (m.time, m)

end Machine

end TypedPipeline
