import ModuleLoading.FileView
import ModuleLoading.Text.Split

/-!
A directory tree with the path rules of Linux. Every place in the tree is
reached by one list of names from the root. A path is walked name by name: empty
names and "." stay where they are, ".." goes to the parent and stays at the
root, and every name that is walked through has to be a directory.
-/
namespace ModuleLoading

/-- The name of a file in its directory. -/
abbrev FileName := Bytes

/-- The names from the root down to a place. -/
abbrev Place := List FileName

inductive Entry
  | file (content : Bytes)
  | directory
  | device
  /-- Stands for the directory at another place. -/
  | link (target : Place)
  deriving Repr, DecidableEq

structure FileTree where
  entries : List (Place × Entry)
  /-- The working directory. -/
  here : Place
  deriving Repr, DecidableEq

namespace FileTree

def slash : UInt8 := 47

def stay : FileName := [46]

def up : FileName := [46, 46]

def longestName : Nat := 255

def longestPath : Nat := 4095

def entry? (tree : FileTree) (place : Place) : Option Entry :=
  if place = [] then some .directory
  else (tree.entries.find? fun entry => decide (entry.1 = place)).map Prod.snd

def walk (tree : FileTree) (place : Place) : List FileName → Except OsError Place
  | [] => .ok place
  | name :: rest =>
    if tree.entry? place ≠ some .directory then .error .notDirectory
    else if name = [] ∨ name = stay then walk tree place rest
    else if name = up then walk tree place.dropLast rest
    else if longestName < name.length then .error .nameTooLong
    else
      match tree.entry? (place ++ [name]) with
      | none => .error .noSuchFile
      | some (.link target) => walk tree target rest
      | some _ => walk tree (place ++ [name]) rest

def origin (tree : FileTree) (path : Bytes) : Place :=
  if path.head? = some slash then [] else tree.here

/-- What is wrong with a path whatever the tree holds. -/
def defect? (path : Bytes) : Option OsError :=
  if 0 ∈ path then some .nulInPath
  else if path = [] then some .noSuchFile
  else if longestPath < path.length then some .nameTooLong
  else none

/-- The place that a path leads to. -/
def locate (tree : FileTree) (path : Bytes) : Except OsError Place :=
  match defect? path with
  | some e => .error e
  | none => tree.walk (tree.origin path) (Text.split slash path)

def nodeAt (tree : FileTree) (place : Place) : Except OsError Node :=
  match tree.entry? place with
  | some (.file content) => .ok (.file content)
  | some .directory | some (.link _) => .ok .directory
  | some .device => .ok .device
  | none => .error .noSuchFile

def look (tree : FileTree) (path : Bytes) : Except OsError Node :=
  match tree.locate path with
  | .ok place => tree.nodeAt place
  | .error e => .error e

/-- The place of a file that is opened for writing and made if it is missing. -/
def destination (tree : FileTree) (path : Bytes) : Except OsError Place :=
  match defect? path with
  | some e => .error e
  | none =>
    let bare := (path.reverse.dropWhile (· == slash)).reverse
    let names := Text.split slash bare
    let last := names.getLastD []
    match tree.walk (tree.origin path) names.dropLast with
    | .error e => .error e
    | .ok parent =>
      if tree.entry? parent ≠ some .directory then .error .notDirectory
      else if bare ≠ path ∨ last = stay ∨ last = up then .error .isDirectory
      else if longestName < last.length then .error .nameTooLong
      else
        match tree.entry? (parent ++ [last]) with
        | some .directory | some (.link _) => .error .isDirectory
        | some (.file _) | some .device | none => .ok (parent ++ [last])

def set (tree : FileTree) (place : Place) (entry : Entry) : FileTree :=
  { tree with entries := (place, entry) :: tree.entries.filter fun e => decide (e.1 ≠ place) }

/-- What is written to a device is lost. -/
def writeAt (tree : FileTree) (place : Place) (content : Bytes) : FileTree :=
  if tree.entry? place = some .device then tree else tree.set place (.file content)

def enter (tree : FileTree) (place : Place) (name : FileName) : FileTree × Place :=
  if name = [] ∨ name = stay then (tree, place)
  else if name = up then (tree, place.dropLast)
  else
    match tree.entry? (place ++ [name]) with
    | some (.link target) => (tree, target)
    | some _ => (tree, place ++ [name])
    | none => (tree.set (place ++ [name]) .directory, place ++ [name])

def enterAll (tree : FileTree) (place : Place) (names : List FileName) : FileTree × Place :=
  names.foldl (fun (tree, place) name => tree.enter place name) (tree, place)

/-- Makes a directory and those above it. -/
def makeDirectory (tree : FileTree) (path : Bytes) : FileTree :=
  (tree.enterAll (tree.origin path) (Text.split slash path)).1

/-- Writes a file and makes the directories above it. -/
def put (tree : FileTree) (path content : Bytes) : FileTree :=
  let names := Text.split slash path
  let (tree, parent) := tree.enterAll (tree.origin path) names.dropLast
  tree.writeAt (parent ++ [names.getLastD []]) content

/-- Removes what a path leads to with everything below it. -/
def remove (tree : FileTree) (path : Bytes) : FileTree :=
  match tree.locate path with
  | .ok place => { tree with entries := tree.entries.filter fun e => !place.isPrefixOf e.1 }
  | .error _ => tree

def modify (tree : FileTree) (path : Bytes) (change : Bytes → Bytes) : FileTree :=
  match tree.locate path with
  | .ok place =>
    match tree.entry? place with
    | some (.file content) => tree.set place (.file (change content))
    | _ => tree
  | .error _ => tree

def ancestors : Place → List Place
  | [] => []
  | name :: rest => [name] :: (ancestors rest).map (name :: ·)

/-- A tree that holds an empty working directory and the usual devices, with the
link that leads to the working directory from anywhere. -/
def fresh (here : Place) : FileTree where
  entries :=
    let name := Utf8.encode
    (ancestors here).map (fun place => (place, Entry.directory)) ++
      [([name "etc"], .directory), ([name "dev"], .directory),
        ([name "dev", name "null"], .device), ([name "proc"], .directory),
        ([name "proc", name "self"], .directory),
        ([name "proc", name "self", name "cwd"], .link here)]
  here := here

end FileTree

end ModuleLoading
