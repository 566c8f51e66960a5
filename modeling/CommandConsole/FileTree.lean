import CommandConsole.Error
import CommandConsole.Text.Pieces

/-!
# CommandConsole.FileTree — files and directories

A tree of files with a current directory. Paths are followed component by component: every component
but the last has to be a directory, `.` stays and `..` goes up.

* `read`, `write`: the text of a file.
* `makeDirectories`: makes a directory and whatever is missing above it.
-/

namespace CommandConsole

/-- What a place in the tree holds. -/
inductive FileNode where
  | directory
  | text (content : String)
  /-- A file whose bytes are not valid text. -/
  | binary (content : ByteArray)

/-- The file with these bytes. -/
def FileNode.ofBytes (bytes : ByteArray) : FileNode :=
  match String.fromUTF8? bytes with
  | some content => .text content
  | none => .binary bytes

/-- A place in the tree: the names on the way to it from the root. -/
abbrev Location := List String

/-- Files and directories below a root, which is a directory itself. -/
structure FileTree where
  nodes : List (Location × FileNode) := []
  /-- Where relative paths start. -/
  current : Location := []

namespace FileTree

/-- What a place holds. -/
def node? (t : FileTree) (l : Location) : Option FileNode :=
  if l = [] then some .directory else (t.nodes.find? (·.1 == l)).map (·.2)

/-- Whether a place is a directory. -/
def isDirectory (t : FileTree) (l : Location) : Bool :=
  match t.node? l with
  | some .directory => true
  | _ => false

/-- Sets what a place holds. -/
def put (t : FileTree) (l : Location) (n : FileNode) : FileTree :=
  { t with nodes := (l, n) :: t.nodes.filter (·.1 != l) }

/-- The components of a path; adjacent and trailing slashes do not count. -/
def components (path : String) : List String :=
  ((Text.pieces (· == '/') path.toList).filter (!·.isEmpty)).map String.ofList

/-- Whether a path starts at the root. -/
def isAbsolute (path : String) : Bool := path.toList.head? == some '/'

/-- Whether only a directory can be meant. -/
def endsWithSlash (path : String) : Bool := path.toList.getLast? == some '/'

/-- Where a path starts. -/
def origin (t : FileTree) (path : String) : Location :=
  if isAbsolute path then [] else t.current

/-- Follows components from a place; each has at most 255 bytes. -/
def follow (t : FileTree) (l : Location) : List String → Except FileFault Location
  | [] => .ok l
  | c :: cs =>
    match t.node? l with
    | none => .error .notFound
    | some .directory =>
      if 255 < c.utf8ByteSize then .error .nameTooLong
      else t.follow (if c = "." then l else if c = ".." then l.dropLast else l ++ [c]) cs
    | some _ => .error .notDirectory

/-- Follows a path, or only as far as its last component. A path has at most 4095 bytes. -/
def followPath (t : FileTree) (path : String) (last : Bool) : Except FileFault Location :=
  if path = "" then .error .notFound
  else if path.toList.contains '\x00' then .error .invalidPath
  else if 4095 < path.utf8ByteSize then .error .nameTooLong
  else
    let cs := components path
    t.follow (t.origin path) (if last then cs else cs.dropLast)

/-- The place that a path names; the last component need not exist. -/
def locate (t : FileTree) (path : String) : Except FileFault Location := do
  let l ← t.followPath path true
  if endsWithSlash path then
    match t.node? l with
    | some (.text _) | some (.binary _) => throw .notDirectory
    | _ => pure ()
  return l

/-- Whether a path names a file or a directory. -/
def exists_ (t : FileTree) (path : String) : Bool :=
  match t.locate path with
  | .ok l => (t.node? l).isSome
  | .error _ => false

/-- The text of a file. -/
def read (t : FileTree) (path : String) : Except FileFault String := do
  match t.node? (← t.locate path) with
  | none => throw .notFound
  | some .directory => throw .isDirectory
  | some (.binary _) => throw .notText
  | some (.text content) => return content

/-- Gives a file a text; the directory it lies in has to exist. No path that ends with a slash can
be written to, whatever it names. -/
def write (t : FileTree) (path content : String) : Except FileFault FileTree := do
  if endsWithSlash path then
    let l ← t.followPath path false
    match t.node? l with
    | none => throw .notFound
    | some .directory => throw .isDirectory
    | some _ => throw .notDirectory
  let l ← t.locate path
  match t.node? l with
  | some .directory => throw .isDirectory
  | _ => return t.put l (.text content)

/-- Makes the directory that components name from a place. -/
def makeDirectory (t : FileTree) (l : Location) (cs : List String) : Except FileFault FileTree := do
  let l ← t.follow l cs
  match t.node? l with
  | some _ => throw .alreadyExists
  | none => return t.put l .directory

/-- Whether components name a directory from a place. -/
def namesDirectory (t : FileTree) (l : Location) (cs : List String) : Bool :=
  match t.follow l cs with
  | .ok l => t.isDirectory l
  | .error _ => false

/-- Makes the directory that components, given in reverse, name from a place, and whatever is
missing above it. What has been made stays even if the rest fails. -/
def makeDirectoriesFrom (l : Location) : List String → FileTree → Except FileFault Unit × FileTree
  | [], t => (.ok (), t)
  | c :: above, t =>
    let cs := (c :: above).reverse
    match t.makeDirectory l cs with
    | .ok t => (.ok (), t)
    | .error .notFound =>
      match makeDirectoriesFrom l above t with
      | (.error e, t) => (.error e, t)
      | (.ok (), t) =>
        match t.makeDirectory l cs with
        | .ok t => (.ok (), t)
        | .error e => if t.namesDirectory l cs then (.ok (), t) else (.error e, t)
    | .error e => if t.namesDirectory l cs then (.ok (), t) else (.error e, t)

/-- The components of the directory a path lies in; a `.` counts only in front. -/
def parentComponents (path : String) : List String :=
  match components path with
  | [] => []
  | c :: cs => (c :: cs.filter (· ≠ ".")).dropLast

/-- Makes the directory a path lies in, and whatever is missing above it. -/
def makeParent (t : FileTree) (path : String) : Except FileFault Unit × FileTree :=
  makeDirectoriesFrom (t.origin path) (parentComponents path).reverse t

/-- Writes a file and makes the directory it lies in. -/
def save (t : FileTree) (path content : String) : Except FileFault Unit × FileTree :=
  match t.makeParent path with
  | (.error e, t) => (.error e, t)
  | (.ok (), t) =>
    match t.write path content with
    | .ok t => (.ok (), t)
    | .error e => (.error e, t)

end FileTree

end CommandConsole
