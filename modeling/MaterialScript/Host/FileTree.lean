/-
A file tree in memory, for running the programs without a machine.

The tree maps absolute paths to files and directories; the root is always
there. A path is walked component by component: each step needs a directory
to start from, and only the last component may be missing. Names and paths
have a greatest length, and no path holds the character NUL. The clock of such
a host stands still.
-/
import MaterialScript.Host.Basic
import MaterialScript.Host.Path

namespace MaterialScript

/-- What stands at a path. -/
inductive FileNode where
  | file (content : ByteArray)
  | directory

/-- Files and directories by their absolute components, and the current directory. -/
structure FileTree where
  entries : List (List String × FileNode)
  here : List String

namespace FileTree

def empty : FileTree := ⟨[], []⟩

/-- What stands at a place. -/
def node? (t : FileTree) (place : List String) : Option FileNode :=
  if place.isEmpty then some .directory else t.entries.lookup place

/-- Needs a directory at a place. -/
def needDirectory (t : FileTree) (place : List String) : Except FileFault Unit :=
  match t.node? place with
  | some .directory => .ok ()
  | some (.file _) => .error .notDirectory
  | none => .error .notFound

/-- The number of bytes a name may have. -/
def longestName : Nat := 255

/-- The number of bytes a path may have. -/
def longestPath : Nat := 4095

/-- Walks one component on. -/
def step (t : FileTree) (place : List String) (component : String) :
    Except FileFault (List String) :=
  match t.needDirectory place with
  | .error fault => .error fault
  | .ok () =>
    if component = "" ∨ component = "." then .ok place
    else if component = ".." then .ok place.dropLast
    else if component.utf8ByteSize ≤ longestName then .ok (place ++ [component])
    else .error .nameTooLong

/-- The place where a walk begins. -/
def origin (t : FileTree) (path : String) : List String :=
  if path.toList.head? = some '/' then [] else t.here

/-- Walks components from where a path begins; the path as a whole must be one that can be
walked. -/
def walk (t : FileTree) (path : String) (components : List String) :
    Except FileFault (List String) :=
  if path.toList.contains '\x00' then .error .nulInPath
  else if path = "" then .error .notFound
  else if longestPath < path.utf8ByteSize then .error .nameTooLong
  else components.foldlM t.step (t.origin path)

/-- The place a path leads to; something may or may not stand there. -/
def locate (t : FileTree) (path : String) : Except FileFault (List String) :=
  t.walk path (Path.components path)

/-- Puts a node at a place, instead of what stood there. -/
def put (t : FileTree) (place : List String) (node : FileNode) : FileTree :=
  { t with entries := (place, node) :: t.entries.filter (·.1 != place) }

/-- The text of the file at a path. -/
def read (t : FileTree) (path : String) : Except FileFault String := do
  match t.node? (← t.locate path) with
  | none => .error .notFound
  | some .directory => .error .isDirectory
  | some (.file content) =>
    match String.fromUTF8? content with
    | some text => .ok text
    | none => .error .notText

/-- The names in the directory at a path. -/
def list? (t : FileTree) (path : String) : Option (List String) :=
  match t.locate path with
  | .error _ => none
  | .ok place =>
    match t.node? place with
    | some .directory =>
      some (t.entries.filterMap fun (p, _) =>
        if p.dropLast = place then p.getLast? else none)
    | _ => none

/-- The path without slashes at its end; the root keeps one. -/
def withoutSlash (path : String) : String :=
  match path.toList.reverse.dropWhile (· == '/') with
  | [] => if path = "" then "" else "/"
  | c :: cs => String.ofList (c :: cs).reverse

/-- Makes one directory, whose parent is there. -/
def makeDirectory (t : FileTree) (path : String) : Except FileFault FileTree :=
  match t.walk path (Path.components (withoutSlash path)) with
  | .error fault => .error fault
  | .ok place =>
    match t.node? place with
    | some _ => .error .alreadyExists
    | none => .ok (t.put place .directory)

/-- A directory stands at a path. -/
def isDirectory (t : FileTree) (path : String) : Bool :=
  match t.locate path with
  | .ok place =>
    match t.node? place with
    | some .directory => true
    | _ => false
  | .error _ => false

/-- Makes a directory; a directory that is there already is as good. -/
def ensureDirectory (t : FileTree) (path : String) : Except FileFault FileTree :=
  match t.makeDirectory path with
  | .ok t => .ok t
  | .error fault => if t.isDirectory path then .ok t else .error fault

/-- Makes a directory and, where they are missing, the directories above it; `depth` bounds their
number. -/
def makeDirectories (t : FileTree) (path : String) : Nat → Except FileFault FileTree
  | 0 => t.ensureDirectory path
  | depth + 1 =>
    if path = "" then .ok t
    else
      match t.ensureDirectory path with
      | .ok t => .ok t
      | .error .notFound =>
        match Path.parent? path with
        | none => .error .notFound
        | some above =>
          match t.makeDirectories above depth with
          | .ok t => t.ensureDirectory path
          | .error fault => .error fault
      | .error fault => .error fault

/-- The last component names no file: it stands for a directory that is there. -/
def namesDirectory (component : String) : Bool :=
  component = "" || component = "." || component = ".."

/-- Makes or replaces the file at a path. The directory it belongs in is looked for first; then a
slash at the end is refused whatever the name is, and only then the name is looked up. -/
def write (t : FileTree) (path text : String) : Except FileFault FileTree := do
  let components := Path.components (withoutSlash path)
  let name := components.getLast?.getD ""
  let above ← t.walk path components.dropLast
  t.needDirectory above
  if withoutSlash path ≠ path || namesDirectory name then .error .isDirectory
  else
    let place ← t.step above name
    match t.node? place with
    | some .directory => .error .isDirectory
    | _ => .ok (t.put place (.file text.toUTF8))

/-- Runs an operation that changes the tree; a refused one leaves it as it is. -/
def update (f : FileTree → Except FileFault FileTree) : StateM FileTree (Except FileFault Unit) :=
  fun t =>
    match f t with
    | .ok t' => (.ok (), t')
    | .error fault => (.error fault, t)

instance : Host (StateM FileTree) where
  read path := fun t => (t.read path, t)
  list? path := fun t => (t.list? path, t)
  makeDirectories path := update (·.makeDirectories path path.length)
  write path text := update (·.write path text)
  currentDirectory := fun t => ("/" ++ "/".intercalate t.here, t)
  now := pure ⟨2000, 1, 1, 0, 0, 0⟩
  timed f := pure (f (), 0)

end FileTree

end MaterialScript
