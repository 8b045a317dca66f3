import DialectBridge.File.System
/-!
# Trees of files

A file system as a value: directories and files by the names that lead to them from the root.
Paths and names must not be too long, and no name may hold the character with the code 0.
-/
namespace DialectBridge

/-- What stands at a place in a tree. -/
inductive Entry where
  | directory
  | text (t : Text)
  /-- A file that holds no text. -/
  | binary
  /-- A device: what is read from it, if anything, and whether it takes what is written. -/
  | device (reads : Option Text) (takes : Bool)
  deriving DecidableEq, Repr

/-- A place in a tree: the names that lead to it from the root. -/
abbrev Place := List Text

/-- The directories below the root and the files. -/
structure Tree where
  entries : List (Place × Entry)
  deriving DecidableEq, Repr

namespace Tree

def get? (tree : Tree) (place : Place) : Option Entry :=
  if place.isEmpty then some .directory else tree.entries.lookup place

def isDirectory (tree : Tree) (place : Place) : Bool := tree.get? place == some .directory

def set (tree : Tree) (place : Place) (entry : Entry) : Tree :=
  ⟨(place, entry) :: tree.entries.filter (·.1 ≠ place)⟩

def path (place : Place) : Text := '/' :: Text.join "/" place

def nameLimit : Nat := 255

def pathLimit : Nat := 4095

/-- Whether something can have the given name. -/
def isName (name : Text) : Bool := Text.width name ≤ nameLimit && !name.contains '\x00'

/-- The steps on a path, those that lead nowhere included. -/
def steps? (path : Text) : Option (List Text) :=
  let steps := Text.splitOn (· == '/') path
  if Text.width path ≤ pathLimit && steps.all isName then some steps else none

/-- Where a path starts. -/
def origin (current : Place) (path : Text) : Place := if Path.isAbsolute path then [] else current

/-- The place that a step leads to from a directory. -/
def follow (place : Place) (step : Text) : Place :=
  if step = [] ∨ step = ['.'] then place
  else if step = ['.', '.'] then place.dropLast
  else place ++ [step]

/-- The place that steps lead to. All but the last place must be directories. -/
def walk? (tree : Tree) (place : Place) : List Text → Option Place
  | [] => some place
  | step :: more =>
    if tree.isDirectory place then walk? tree (follow place step) more else none

/-- Goes the same way, and makes the directories that are missing. -/
def makeWay? (tree : Tree) (place : Place) : List Text → Option Tree
  | [] => some tree
  | step :: more =>
    let next := follow place step
    match tree.get? next with
    | some .directory => makeWay? tree next more
    | some _ => none
    | none => makeWay? (tree.set next .directory) next more

def makeDirectory? (current : Place) (path : Text) (tree : Tree) : Option Tree :=
  (steps? path).bind (tree.makeWay? (origin current path))

/-- The place at the end of a path. -/
def place? (current : Place) (path : Text) (tree : Tree) : Option Place :=
  (steps? path).bind (tree.walk? (origin current path))

def find? (current : Place) (path : Text) (tree : Tree) : Option Entry := do
  tree.get? (← tree.place? current path)

/-- Makes a file, in a directory that is made if it is missing. -/
def writeEntry (current : Place) (path : Text) (entry : Entry) (tree : Tree) : Bool × Tree :=
  match tree.makeDirectory? current ((Path.parent? path).getD []) with
  | none => (false, tree)
  | some tree =>
    match tree.place? current path with
    | none => (false, tree)
    | some place =>
      if path.getLast? = some '/' then (false, tree)
      else
        match tree.get? place with
        | some .directory => (false, tree)
        | some (.device _ takes) => (takes, tree)
        | _ => (true, tree.set place entry)

/-- A tree as a file system, seen from a directory. -/
def system (current : Place) : FileSystem (StateM Tree) where
  present path := do return ((← get).find? current path).isSome
  read? path := do
    match (← get).find? current path with
    | some (.text t) => return some t
    | some (.device reads _) => return reads
    | _ => return none
  write path text := modifyGet (writeEntry current path (.text text))

/-- The files that hold text, by their places. -/
def texts (tree : Tree) : List (Place × Text) :=
  tree.entries.filterMap fun
    | (place, .text t) => some (place, t)
    | _ => none

end Tree
end DialectBridge
