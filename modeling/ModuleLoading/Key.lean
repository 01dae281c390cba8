import ModuleLoading.Namespace
import ModuleLoading.Text.Split

/-!
Keys identify modules. They are computed from the text of a path alone, segment
by segment and without looking at any file, so that the same import has the same
key wherever it is resolved. A search key is a bare name. A file key begins with
"./", "../" or "/", and "." is the key of the working directory.
-/
namespace ModuleLoading.Key

abbrev Segment := List Char

def stay : Segment := ['.']

def up : Segment := ['.', '.']

/-- Takes one more segment, the innermost kept segment being on top. When
clamped, a step up from the start goes nowhere; otherwise it is kept. -/
def push (clamped : Bool) (kept : List Segment) (segment : Segment) : List Segment :=
  if segment = [] ∨ segment = stay then kept
  else if segment = up then
    match kept with
    | [] => if clamped then [] else [up]
    | top :: below => if top = up then (if clamped then kept else up :: kept) else below
  else segment :: kept

def segments (clamped : Bool) (path : List Char) : List Segment :=
  ((Text.split '/' path).foldl (push clamped) []).reverse

def ofNameSegments : List Segment → List Char
  | [] => stay
  | parts => Text.join '/' parts

def ofPathSegments (absolute : Bool) : List Segment → List Char
  | [] => if absolute then ['/'] else stay
  | first :: rest =>
    if absolute then '/' :: Text.join '/' (first :: rest)
    else if first = up then Text.join '/' (first :: rest)
    else '.' :: '/' :: Text.join '/' (first :: rest)

def isAbsolute (path : List Char) : Bool := path.head? == some '/'

/-- The key of a module addressed by name. A name cannot climb out of its root. -/
def ofName (name : String) : String :=
  String.ofList (ofNameSegments (segments true name.toList))

/-- The key of a module addressed by path. -/
def ofPath (path : String) : String :=
  let absolute := isAbsolute path.toList
  String.ofList (ofPathSegments absolute (segments absolute path.toList))

/-- The key of a relative path seen from a directory of the given space. -/
def join (space : Namespace) (directory path : String) : String :=
  match space with
  | .search => ofName (directory ++ "/" ++ path)
  | .filesystem => ofPath (directory ++ "/" ++ path)

def workingDirectory : String := "."

/-- What stands before the last slash. -/
def parent (key : String) : String :=
  match key.toList.reverse.dropWhile (· != '/') with
  | [] => workingDirectory
  | [_] => "/"
  | _ :: directory => String.ofList directory.reverse

end ModuleLoading.Key
