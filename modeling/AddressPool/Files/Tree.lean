import AddressPool.Files.Path
import Std.Data.ExtTreeMap

/-!
# Trees of files

A tree says for each place what is there: nothing, a directory, or a file with its content.  A place
is a list of names from the root.  There are no links, and every directory can be entered, so that
an operation fails only for what is where and for the names themselves.
-/

namespace AddressPool.Files

abbrev Content := List UInt8

/-- Names from the root. -/
abbrev Place := List Name

/-- What can be at a place. -/
inductive Node where
  | file (content : Content)
  | directory
  deriving DecidableEq

/-- Why an operation on files fails. -/
inductive Fault where
  | notFound
  | present
  | notDirectory
  | isDirectory
  | tooLong
  | badPath
  | notText
  | other (reason : String)
  deriving DecidableEq, Repr

/-- The words for a failure. -/
def Fault.message : Fault → String
  | notFound => "No such file or directory (os error 2)"
  | present => "File exists (os error 17)"
  | notDirectory => "Not a directory (os error 20)"
  | isDirectory => "Is a directory (os error 21)"
  | tooLong => "File name too long (os error 36)"
  | badPath => "file name contained an unexpected NUL byte"
  | notText => "stream did not contain valid UTF-8"
  | other reason => reason

instance : ToString Fault := ⟨Fault.message⟩

/-- A tree of files, by what is at each place below the root. -/
structure Tree where
  nodes : Std.ExtTreeMap Place Node

namespace Tree

def empty : Tree := ⟨∅⟩

/-- What is at a place; the root is a directory. -/
def node? (t : Tree) (place : Place) : Option Node :=
  if place = [] then some .directory else t.nodes[place]?

def put (t : Tree) (place : Place) (node : Node) : Tree :=
  ⟨t.nodes.insert place node⟩

def erase (t : Tree) (place : Place) : Tree :=
  ⟨t.nodes.erase place⟩

def eraseAll (t : Tree) (place : Place) : Tree :=
  ⟨t.nodes.filter fun other _ => !place.isPrefixOf other⟩

def entries (t : Tree) : List (Place × Node) :=
  t.nodes.toList

def children (t : Tree) (place : Place) : List Name :=
  t.entries.filterMap fun (other, _) =>
    if other.dropLast = place then other.getLast? else none

/-! ### Where paths lead -/

/-- Where a path leads: to a directory that is known to be there, or to a name in one; a slash after
the name asks for a directory. -/
inductive Target where
  | directory (place : Place)
  | entry (place : Place) (name : Name) (slash : Bool)

def Target.place : Target → Place
  | directory place => place
  | entry place name _ => place ++ [name]

/-- The longest name, in bytes. -/
def longestName : Nat := 255

/-- The longest path, in bytes. -/
def longestPath : Nat := 4095

/-- Goes from a place through a directory to the next. -/
def enter (t : Tree) (place : Place) (name : Name) : Except Fault Place :=
  if name = "." then .ok place
  else if name = ".." then .ok place.dropLast
  else if longestName < name.length then .error .tooLong
  else
    match t.node? (place ++ [name]) with
    | none => .error .notFound
    | some (.file _) => .error .notDirectory
    | some .directory => .ok (place ++ [name])

/-- Goes through directories one after the other, and stops before the last name. -/
def follow (t : Tree) (slash : Bool) (place : Place) : List Name → Except Fault Target
  | [] => .ok (.directory place)
  | [name] =>
    if name = "." then .ok (.directory place)
    else if name = ".." then .ok (.directory place.dropLast)
    else if longestName < name.length then .error .tooLong
    else .ok (.entry place name slash)
  | name :: names => do t.follow slash (← t.enter place name) names

/-- Where a path leads.  A path that does not begin at the root is followed from there too. -/
def target (t : Tree) (path : Path) : Except Fault Target :=
  if path.contains 0 then .error .badPath
  else if path.isEmpty then .error .notFound
  else if longestPath < path.length then .error .tooLong
  else t.follow (endsInSlash path) [] (names path)

/-- What is where a path leads. -/
def lookup (t : Tree) (path : Path) : Except Fault (Place × Node) := do
  match ← t.target path with
  | .directory place => .ok (place, .directory)
  | .entry place name slash =>
    match t.node? (place ++ [name]) with
    | none => .error .notFound
    | some .directory => .ok (place ++ [name], .directory)
    | some (.file content) =>
      if slash then .error .notDirectory else .ok (place ++ [name], .file content)

def isDirectory (t : Tree) (path : Path) : Bool :=
  match t.lookup path with
  | .ok (_, .directory) => true
  | _ => false

/-! ### Operations -/

def read (t : Tree) (path : Path) : Except Fault Content := do
  match ← t.lookup path with
  | (_, .file content) => .ok content
  | (_, .directory) => .error .isDirectory

def readText (t : Tree) (path : Path) : Except Fault String := do
  match textOf? (← t.read path) with
  | some text => .ok text
  | none => .error .notText

def list (t : Tree) (path : Path) : Except Fault (List Name) := do
  match ← t.lookup path with
  | (place, .directory) => .ok (t.children place)
  | (_, .file _) => .error .notDirectory

/-- Makes a file with a content where nothing is. -/
def create (t : Tree) (path : Path) (content : Content) : Except Fault Tree := do
  match ← t.target path with
  | .directory _ => .error .present
  | .entry place name slash =>
    match t.node? (place ++ [name]) with
    | some _ => .error .present
    | none => if slash then .error .isDirectory else .ok (t.put (place ++ [name]) (.file content))

/-- Makes a file, or changes one, to have the content that `change` makes of its earlier one. -/
def change (t : Tree) (path : Path) (change : Content → Content) : Except Fault Tree := do
  match ← t.target path with
  | .directory _ => .error .isDirectory
  | .entry place name slash =>
    if slash then .error .isDirectory
    else
      match t.node? (place ++ [name]) with
      | some .directory => .error .isDirectory
      | some (.file content) => .ok (t.put (place ++ [name]) (.file (change content)))
      | none => .ok (t.put (place ++ [name]) (.file (change [])))

def write (t : Tree) (path : Path) (content : Content) : Except Fault Tree :=
  t.change path fun _ => content

def touch (t : Tree) (path : Path) : Except Fault Tree :=
  t.change path id

/-- Removes a file. -/
def remove (t : Tree) (path : Path) : Except Fault Tree := do
  match ← t.target path with
  | .directory _ => .error .isDirectory
  | .entry place name slash =>
    match t.node? (place ++ [name]) with
    | none => .error .notFound
    | some .directory => .error .isDirectory
    | some (.file _) => if slash then .error .notDirectory else .ok (t.erase (place ++ [name]))

/-- Makes a directory where nothing is. -/
def makeDirectory (t : Tree) (path : Path) : Except Fault Tree := do
  match ← t.target path with
  | .directory _ => .error .present
  | .entry place name _ =>
    match t.node? (place ++ [name]) with
    | some _ => .error .present
    | none => .ok (t.put (place ++ [name]) .directory)

end Tree

end AddressPool.Files
