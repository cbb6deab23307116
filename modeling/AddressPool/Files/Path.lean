import AddressPool.Text.Bytes

/-!
# Paths

A path is made of names between slashes, and all of it is bytes: most are texts, but nothing asks for
that.  A path is kept as it was given, with doubled and trailing slashes and with the names `.` and
`..`; what it leads to is a question for a tree.
-/

namespace AddressPool.Files

abbrev Name := List UInt8

abbrev Path := List UInt8

def slash : UInt8 := '/'.toUInt8

def isAbsolute (path : Path) : Bool :=
  path.head? == some slash

def join (base path : Path) : Path :=
  if isAbsolute path then path
  else if base.isEmpty || base.getLast? == some slash then base ++ path
  else base ++ slash :: path

def parts (path : Path) : List Name :=
  path.splitOn slash

/-- The names of a path; nothing between two slashes, and nothing at an end, is no name. -/
def names (path : Path) : List Name :=
  (parts path).filter (!·.isEmpty)

def endsInSlash (path : Path) : Bool :=
  path.getLast? == some slash

/-- The names of a path without those that stay where they are. -/
def steps (path : Path) : List Name :=
  (names path).filter (· != ".")

/-- The paths of the directories on the way to a path, the path itself first. -/
def ancestors (path : Path) : List Path :=
  let steps := steps path
  let root := if isAbsolute path then [slash] else []
  let way := (List.range' 1 (steps.length - 1)).map fun count =>
    root ++ [slash].intercalate (steps.take count)
  if steps.isEmpty then [] else path :: way.reverse

/-- Whether a path is the name `-` alone, slashes and dots behind it apart. -/
def isDash (path : Path) : Bool :=
  match parts path with
  | [] => false
  | first :: rest => first == "-" && rest.all fun part => part.isEmpty || part == "."

end AddressPool.Files
