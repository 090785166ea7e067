import Montage.Text.Order
import Montage.Text.Quoted

/-! # A tree of files

A **path** is a list of names, from the outermost directory inwards.  A `FileTree` says for
each path whether a directory or a file stands there (`FileTree.node?`).  A path that somebody
writes may lead up again with `..`, through directories that are not there, or through files;
`FileTree.locate` walks it and gives the **place** it leads to, a path without `..`.  The
operations take paths as they are written, walk them, and then look at the place.

A file is kept apart from its names: a place leads to a number, and the number to the
content.  A **handle** is such a number.  Renaming and removing change where places lead and
leave every content alone, so a file that was opened stays readable
(`content?_rename`, `content?_remove`).

Operations fail as an operating system lets them fail, with a `FileFault` that names the
path as it was written.
-/
namespace Montage

abbrev Path := List String

namespace Path

def text (p : Path) : String := "/".intercalate p

/-- A text with slashes as a path. -/
def ofText (s : String) : Path := (s.toList.splitOn '/').map String.ofList

/-- The directory in which the last name stands. -/
def parent (p : Path) : Path := p.dropLast

/-- The last name. -/
def name (p : Path) : String := p.getLastD ""

/-- The path with another last name. -/
def withName (p : Path) (name : String) : Path := p.parent ++ [name]

/-- The character that ends a name stands in one of the names. -/
def holdsEnd (p : Path) : Bool := p.any fun name => name.toList.contains '\x00'

/-- What follows a directory in a path. -/
def below? (directory : Path) (p : Path) : Option Path :=
  if directory.isPrefixOf p then some (p.drop directory.length) else none

end Path

/-- What a file holds: a text, bytes, or so many bytes that nobody reads. -/
inductive Content where
  | text (value : String)
  | raw (bytes : List UInt8)
  | media (size : Nat)
  deriving DecidableEq, Repr

namespace Content

/-- Size in bytes. -/
def size : Content → Nat
  | text s => s.utf8ByteSize
  | raw b => b.length
  | media n => n

/-- The content with a piece behind it. -/
def extended (piece : List UInt8) : Content → Content
  | text s => raw (s.toUTF8.toList ++ piece)
  | raw b => raw (b ++ piece)
  | media n => media (n + piece.length)

end Content

/-- A number that leads to the content of a file. -/
abbrev Handle := Nat

inductive FileNode where
  | directory
  | file (handle : Handle)
  deriving DecidableEq, Repr

/-- Why an operation on files fails. -/
inductive FileCause where
  | missing
  | busy
  | present
  | noDirectory
  | isDirectory
  /-- A directory cannot be moved into itself. -/
  | intoItself
  | longName
  | notEmpty
  /-- No name can hold the character that ends a name. -/
  | endedName
  deriving DecidableEq, Repr

/-- Words of a cause, with its number if it has one. -/
def FileCause.wording : FileCause → String
  | missing => "[Errno 2] No such file or directory"
  | busy => "[Errno 16] Device or resource busy"
  | present => "[Errno 17] File exists"
  | noDirectory => "[Errno 20] Not a directory"
  | isDirectory => "[Errno 21] Is a directory"
  | intoItself => "[Errno 22] Invalid argument"
  | longName => "[Errno 36] File name too long"
  | notEmpty => "[Errno 39] Directory not empty"
  | endedName => "embedded null byte"

inductive FileFault where
  | at (cause : FileCause) (path : Path)
  /-- Something could not be moved. -/
  | moving (cause : FileCause) (source target : Path)
  /-- A file cannot be copied onto itself. -/
  | sameFile (source target : Path)
  /-- The disk says what is wrong. -/
  | disk (message : String)
  deriving DecidableEq, Repr

def FileFault.message : FileFault → String
  | .at .endedName _ | moving .endedName _ _ => FileCause.endedName.wording
  | .at c p => c.wording ++ ": " ++ Text.quoted p.text
  | moving c p q => c.wording ++ ": " ++ Text.quoted p.text ++ " -> " ++ Text.quoted q.text
  | sameFile p q =>
    "PosixPath(" ++ Text.quoted p.text ++ ") and PosixPath(" ++ Text.quoted q.text ++
      ") are the same file"
  | disk m => m

/-- Greatest length of a name in bytes. -/
def longestName : Nat := 255

structure FileTree where
  entries : List (Path × FileNode)
  /-- Contents by handle. -/
  contents : List Content
  deriving DecidableEq, Repr

namespace FileTree

def empty : FileTree := ⟨[], []⟩

/-- What stands at a place. -/
def node? (t : FileTree) (p : Path) : Option FileNode :=
  (t.entries.find? fun e => e.1 == p).map Prod.snd

/-- What a handle leads to. -/
def content? (t : FileTree) (h : Handle) : Option Content := t.contents[h]?

/-! ### Walking -/

/-- Walks from a place through directories. -/
def descend (t : FileTree) (place : Path) : List String → Except FileCause Path
  | [] => .ok place
  | name :: rest =>
    if name = ".." then t.descend place.dropLast rest
    else if longestName < name.utf8ByteSize then .error .longName
    else match t.node? (place ++ [name]) with
      | none => .error .missing
      | some (.file _) => .error .noDirectory
      | some .directory => t.descend (place ++ [name]) rest

/-- The place to which a path leads.  Nothing has to stand there, but the way has to be one
through directories. -/
def locate (t : FileTree) (p : Path) : Except FileCause Path :=
  if p.holdsEnd then .error .endedName
  else match t.descend [] p.parent with
  | .error c => .error c
  | .ok directory =>
    if p.name = ".." then .ok directory.dropLast
    else if longestName < p.name.utf8ByteSize then .error .longName
    else .ok (directory ++ [p.name])

/-- What stands where a path leads. -/
def nodeAt? (t : FileTree) (p : Path) : Option FileNode :=
  match t.locate p with
  | .error _ => none
  | .ok place => t.node? place

def exists? (t : FileTree) (p : Path) : Bool := (t.nodeAt? p).isSome

def isDirectory (t : FileTree) (p : Path) : Bool := t.nodeAt? p == some .directory

/-- The handle of the file to which a path leads. -/
def handle? (t : FileTree) (p : Path) : Option Handle :=
  match t.nodeAt? p with
  | some (.file h) => some h
  | _ => none

/-- The content of the file to which a path leads. -/
def read? (t : FileTree) (p : Path) : Option Content := (t.handle? p).bind t.content?

/-- Size of what a path leads to; a directory takes a block. -/
def size? (t : FileTree) (p : Path) : Option Nat :=
  match t.nodeAt? p with
  | none => none
  | some .directory => some 4096
  | some (.file h) => (t.content? h).map Content.size

/-- Whether two paths lead to one thing that is there. -/
def isSame (t : FileTree) (p q : Path) : Bool :=
  match t.locate p, t.locate q with
  | .ok a, .ok b => a == b && (t.node? a).isSome
  | _, _ => false

/-- Paths below a directory, from the directory on, in the order of their texts. -/
def listing (t : FileTree) (directory : Path) : List String :=
  let texts := t.entries.filterMap fun e =>
    match directory.below? e.1 with
    | some (name :: rest) => some (Path.text (name :: rest))
    | _ => none
  texts.mergeSort fun a b => Text.precedes a.toList b.toList

/-! ### Directories -/

/-- Lets a place lead to a node. -/
def put (t : FileTree) (place : Path) (n : FileNode) : FileTree :=
  { t with entries := (t.entries.filter fun e => e.1 != place) ++ [(place, n)] }

/-- Makes one directory. -/
def make (t : FileTree) (p : Path) : Except FileCause FileTree :=
  match t.locate p with
  | .error c => .error c
  | .ok place =>
    if place = [] ∨ (t.node? place).isSome then .error .present
    else .ok (t.put place .directory)

/-- What becomes of a directory that could not be made: perhaps it may be there already. -/
def settleMade (t : FileTree) (mayExist : Bool) (p : Path) :
    Except FileCause FileTree → Except FileFault FileTree
  | .ok t => .ok t
  | .error c => if mayExist && t.isDirectory p then .ok t else .error (.at c p)

/-- Makes a directory with those around it; the path is given from its last name on. -/
def makeFrom (t : FileTree) (mayExist : Bool) : List String → Except FileFault FileTree
  | [] => .error (.at .missing [])
  | name :: around =>
    let p := (name :: around).reverse
    match t.make p with
    | .error .missing =>
      match t.makeFrom true around with
      | .error f => .error f
      | .ok t => t.settleMade mayExist p (t.make p)
    | r => t.settleMade mayExist p r

/-- Makes a directory that is not there yet, with those around it. -/
def makeDirectory (t : FileTree) (p : Path) : Except FileFault FileTree :=
  t.makeFrom false p.reverse

/-- Makes sure that a directory is there, with those around it. -/
def ensureDirectory (t : FileTree) (p : Path) : Except FileFault FileTree :=
  t.makeFrom true p.reverse

/-- Makes sure that a directory is there inside another one, which has to be there. -/
def ensureChild (t : FileTree) (p : Path) : Except FileFault FileTree :=
  t.settleMade true p (t.make p)

/-! ### Files -/

/-- Opens a file for writing: it is empty then. -/
def openNew (t : FileTree) (p : Path) : Except FileFault (Handle × FileTree) :=
  match t.locate p with
  | .error c => .error (.at c p)
  | .ok place =>
    match t.node? place with
    | some .directory => .error (.at .isDirectory p)
    | some (.file h) => .ok (h, { t with contents := t.contents.set h (.raw []) })
    | none =>
      .ok (t.contents.length,
        { (t.put place (.file t.contents.length)) with contents := t.contents ++ [.raw []] })

/-- Gives the file of a handle a content. -/
def fill (t : FileTree) (h : Handle) (c : Content) : FileTree :=
  { t with contents := t.contents.set h c }

/-- Writes a file; a file that is there gets the new content. -/
def write (t : FileTree) (p : Path) (c : Content) : Except FileFault FileTree :=
  match t.openNew p with
  | .error f => .error f
  | .ok (h, t) => .ok (t.fill h c)

/-- Opens a file for reading. -/
def openFile (t : FileTree) (p : Path) : Except FileFault Handle :=
  match t.locate p with
  | .error c => .error (.at c p)
  | .ok place =>
    match t.node? place with
    | some (.file h) => .ok h
    | some .directory => .error (.at .isDirectory p)
    | none => .error (.at .missing p)

/-! ### Removing and renaming -/

/-- Takes the name at a place away. -/
def drop (t : FileTree) (place : Path) : FileTree :=
  { t with entries := t.entries.filter fun e => e.1 != place }

/-- Removes the file to which a path leads, if there is one. -/
def unlink (t : FileTree) (p : Path) : Except FileFault FileTree :=
  match t.locate p with
  | .error .missing => .ok t
  | .error c => .error (.at c p)
  | .ok place =>
    match t.node? place with
    | some .directory => .error (.at .isDirectory p)
    | _ => .ok (t.drop place)

/-- Removes the file to which a path leads, if it can be removed. -/
def discard (t : FileTree) (p : Path) : FileTree := (t.unlink p).toOption.getD t

/-- Removes a directory and all that stands below it.  What is no directory stays. -/
def remove (t : FileTree) (p : Path) : FileTree :=
  match t.locate p with
  | .error _ => t
  | .ok place =>
    if t.node? place = some .directory then
      { t with entries := t.entries.filter fun e => !place.isPrefixOf e.1 }
    else t

/-- Whether something stands below a place. -/
def hasEntries (t : FileTree) (place : Path) : Bool :=
  t.entries.any fun e => place.isPrefixOf e.1 && e.1 != place

/-- Lets everything at and below a place stand at and below another one. -/
def relocate (source target : Path) (e : Path × FileNode) : Path × FileNode :=
  match source.below? e.1 with
  | some rest => (target ++ rest, e.2)
  | none => e

/-- What speaks against moving a node from one place to another. -/
def obstacle? (t : FileTree) (n : FileNode) (source target : Path) : Option FileCause :=
  match n, t.node? target with
  | .directory, some (.file _) => some .noDirectory
  | .file _, some .directory => some .isDirectory
  | .directory, _ =>
    if source.isPrefixOf target then some .intoItself
    else if t.hasEntries target then some .notEmpty
    else none
  | .file _, _ => none

/-- Moves a node from one place to another; what stood there goes. -/
def move (t : FileTree) (source target : Path) : FileTree :=
  { t with entries := (t.drop target).entries.map (relocate source target) }

/-- Moves a file or a directory.  A file takes the place of a file, and a directory that of an
empty directory. -/
def rename (t : FileTree) (source target : Path) : Except FileFault FileTree :=
  let fail (c : FileCause) : Except FileFault FileTree := .error (.moving c source target)
  match t.locate source, t.locate target with
  | .error c, _ => fail c
  | .ok p, r =>
    if source.name = ".." ∨ target.name = ".." then fail .busy
    else match t.node? p, r with
    | none, _ => fail .missing
    | some _, .error c => fail c
    | some n, .ok q =>
      if p = q then .ok t
      else match t.obstacle? n p q with
      | some c => fail c
      | none => .ok (t.move p q)

theorem content?_rename {t u : FileTree} {source target : Path}
    (h : t.rename source target = .ok u) (k : Handle) : u.content? k = t.content? k := by
  unfold rename at h
  repeat' split at h
  all_goals first
    | cases h; rfl
    | cases h

@[simp] theorem content?_drop (t : FileTree) (p : Path) (k : Handle) :
    (t.drop p).content? k = t.content? k := rfl

@[simp] theorem content?_remove (t : FileTree) (p : Path) (k : Handle) :
    (t.remove p).content? k = t.content? k := by
  unfold remove
  repeat' split
  all_goals rfl

end FileTree
end Montage
