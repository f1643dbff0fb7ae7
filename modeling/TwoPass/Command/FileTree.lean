/-
A tree of files, as a command sees it from its working directory. Paths are texts with slashes; `.` and `..` have their
usual meaning. Places outside the working directory are named by leading `..` components, and the root by `/`.

- `Place.ofPath`, `Place.path`: the place that a path names, and the shortest path that names a place
- `FileTree.resolve`: the place that a path leads to
- `FileTree.read`: the contents of a file
- `FileTree.write`: the tree with one file replaced or added
-/
import TwoPass.Text.Basic

namespace TwoPass.Command

/-- a place in a tree: the components that lead to it -/
abbrev Place := List Text

/-- files with their contents, and folders; a folder also exists if something is in it -/
structure FileTree where
  files : List (Place × Text)
  folders : List Place
deriving DecidableEq, Repr

inductive FileError where
  | noSuchFile
  | notFolder
  | isFolder
  | nameTooLong
deriving DecidableEq, Repr

def FileError.message (path : Text) : FileError → Text
  | noSuchFile => ascii "open " ++ path ++ ascii ": no such file or directory"
  | notFolder => ascii "open " ++ path ++ ascii ": not a directory"
  | isFolder => ascii "read " ++ path ++ ascii ": is a directory"
  | nameTooLong => ascii "open " ++ path ++ ascii ": file name too long"

def components (path : Text) : List Text := pieces (· == byte '/') path

/-- the most bytes that a component may have -/
def maxComponent : Nat := 255

/-- the most bytes that a path may have -/
def maxPath : Nat := 4095

/-- a file is drafted under a name that is longer by this many bytes, a mark and a number -/
def draftExtra : Nat := 20

def up : Text := ascii ".."

def rootPlace : Place := [ascii "/"]

def Place.parent (p : Place) : Place :=
  if p == rootPlace then p
  else if p.all (· == up) then p ++ [up]
  else p.dropLast

/-- the place that a component leads to from a place -/
def Place.step (here : Place) (c : Text) : Place :=
  if c.isEmpty || c == ascii "." then here
  else if c == up then here.parent
  else here ++ [c]

def Place.start (path : Text) : Place := if path.head? == some (byte '/') then rootPlace else []

/-- the place that a path names, whatever there is on the way -/
def Place.ofPath (path : Text) : Place := (components path).foldl Place.step (Place.start path)

/-- the shortest path that names a place -/
def Place.path : Place → Text
  | [] => ascii "."
  | c :: rest =>
    if c == ascii "/" then c ++ Text.join (ascii "/") rest else Text.join (ascii "/") (c :: rest)

/-- is there room for a draft beside a place: its name and its path are longer by `draftExtra` bytes -/
def Place.draftFits (p : Place) : Bool :=
  (p.getLastD []).length + draftExtra ≤ maxComponent && p.path.length + draftExtra ≤ maxPath

namespace FileTree

def empty : FileTree := ⟨[], []⟩

def contents? (t : FileTree) (p : Place) : Option Text := (t.files.find? fun f => f.1 == p).map Prod.snd

/-- is there a folder at a place; the working directory, those above it and the root always exist -/
def isFolder (t : FileTree) (p : Place) : Bool :=
  p.all (· == up) || p == rootPlace || t.folders.any (fun q => p.isPrefixOf q)
    || t.files.any (fun f => p.isPrefixOf f.1 && p.length < f.1.length)

/-- follow components from a place; every place passed on the way must be a folder -/
def walk (t : FileTree) : Place → List Text → Except FileError Place
  | here, [] => .ok here
  | here, c :: rest =>
    if !t.isFolder here then .error (if (t.contents? here).isSome then .notFolder else .noSuchFile)
    else if maxComponent < c.length then .error .nameTooLong
    else t.walk (here.step c) rest

/-- the place that a path leads to, whether there is something or not -/
def resolve (t : FileTree) (path : Text) : Except FileError Place :=
  if path.isEmpty then .error .noSuchFile
  else if maxPath < path.length then .error .nameTooLong
  else t.walk (Place.start path) (components path)

theorem eq_foldl_of_walk {t : FileTree} {here p : Place} {cs : List Text} (h : t.walk here cs = .ok p) :
    p = cs.foldl Place.step here := by
  induction cs generalizing here with
  | nil => cases h; rfl
  | cons c rest ih =>
    rw [walk] at h
    split at h
    · cases h
    · split at h
      · cases h
      · exact ih h

/-- A path leads nowhere but to the place that it names. -/
theorem eq_ofPath_of_resolve {t : FileTree} {path : Text} {p : Place} (h : t.resolve path = .ok p) :
    p = Place.ofPath path := by
  unfold resolve at h
  split at h
  · cases h
  · split at h
    · cases h
    · exact eq_foldl_of_walk h

def read (t : FileTree) (path : Text) : Except FileError Text :=
  match t.resolve path with
  | .error e => .error e
  | .ok p =>
    if t.isFolder p then .error .isFolder
    else match t.contents? p with
      | some text => .ok text
      | none => .error .noSuchFile

/-- the tree with a file at a place, in place of the one that may have been there -/
def put (t : FileTree) (p : Place) (text : Text) : FileTree :=
  { t with files := t.files.filter (fun f => f.1 != p) ++ [(p, text)] }

/-- the tree with a file written; nothing can be written to a folder, nor into one that does not exist, nor where there
is no room for a draft -/
def write (t : FileTree) (path text : Text) : Option FileTree :=
  match t.resolve path with
  | .error _ => none
  | .ok p => if t.isFolder p || !p.draftFits then none else some (t.put p text)

def addFolder (t : FileTree) (path : Text) : FileTree := { t with folders := Place.ofPath path :: t.folders }

def addFile (t : FileTree) (path text : Text) : FileTree := t.put (Place.ofPath path) text

/-- the files below the working directory, by path -/
def toList (t : FileTree) : List (Text × Text) :=
  (t.files.filter fun f => f.1.head? != some up && f.1.head? != some (ascii "/")).map fun f =>
    (f.1.path, f.2)

end FileTree

end TwoPass.Command
