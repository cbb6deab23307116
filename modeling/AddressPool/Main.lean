import AddressPool.CommandLine

/-!
# The program

The program does what `CommandLine.run` says on a picture of the files it may need, and then makes
the files what the picture has become.  Between the two it holds the lock of the network.  Only files
whose names are texts are in the picture.
-/

namespace AddressPool.Program

open AddressPool.Files AddressPool.Text

def usage : String :=
  "usage: <add|del> --config <file> --container-id <id> [--args <K=V;K=V>]"

def look (t : Tree) (path : String) (place : Place) : IO Tree := do
  try
    let real ← IO.FS.realPath path
    if ← real.isDir then return t.put place .directory
    return t.put place (.file (← IO.FS.readBinFile real).toList)
  catch _ => return t

def listing (path : String) : IO (List String) := do
  try
    let real ← IO.FS.realPath path
    return (← real.readDir).toList.map (·.fileName)
  catch _ => return []

/-- What is at a path and on the way to it; of a directory that the path leads to, also what is in
it. -/
def picture (t : Tree) (path : String) : IO Tree := do
  let mut t := t
  for path in (ancestors path).reverse do
    t ← look t (shown path) (steps path)
  if t.isDirectory path then
    for name in ← listing path do
      t ← look t (shown (join path name)) (steps path ++ [bytesOf name])
  return t

/-- Makes the files what a picture has become since it was taken; `base` is what stands before the
names of a place. -/
def realize (base : String) (before after : Tree) : IO Unit := do
  let pathOf (place : Place) := base ++ "/".intercalate (place.map shown)
  for (place, _) in before.entries do
    if (after.node? place).isNone then IO.FS.removeFile (pathOf place)
  for (place, node) in after.entries do
    if before.node? place ≠ some node then
      let path := pathOf place
      match node with
      | .directory => IO.FS.createDirAll path
      | .file content => IO.FS.writeBinFile path content.toByteArray

/-- Writes records to the standard error, up to the level of things that are done. -/
def tell (log : Log) : IO Unit := do
  for record in log do
    if record.level.rank ≤ Level.info.rank then IO.eprintln record.text

/-- A picture of all files that a call may need. -/
def pictureFor (call : CommandLine.Call) (s? : Option Setup) : IO Tree := do
  let mut t := Tree.empty
  unless isDash call.config do t ← picture t call.config
  if let some s := s? then
    if let some path := s.resolverFile? then t ← picture t path
    t ← picture t (shown (join (s.dataDir?.getD Disk.defaultDataDir) s.name))
  return t

/-- The file that a call locks, if on the given picture it comes to open the network's store. -/
def lockfileOf (call : CommandLine.Call) (input : Json.Bytes) (t : Tree) (s : Setup) :
    Option Path :=
  match ((Disk.openAt s.name s.dataDir?).verdict t).value with
  | .error _ => none
  | .ok disk =>
    match (CommandLine.perform call input t).state.lookup disk.lockfile with
    | .ok (_, .file _) => some disk.lockfile
    | _ => none

/-- Does what a call asks for, and answers with the exit code.  A store that is going to be used is
opened first, so that its lock can be held from the picture on. -/
def perform (call : CommandLine.Call) : IO UInt32 := do
  let input ←
    if isDash call.config then pure (← (← IO.getStdin).readBinToEnd).toList else pure []
  let start ← pictureFor call none
  let s? := match CommandLine.configuration call input start with
    | .ok config => (Setup.load config call.arguments).toOption
    | .error _ => none
  let before ← pictureFor call s?
  let finish (base : String) (t : Tree) : IO UInt32 := do
    let o := CommandLine.perform call input t
    realize base t o.state
    tell o.log
    IO.print o.value.output
    return o.value.code.toUInt32
  match s?.bind fun s => (lockfileOf call input before s).map (s, ·) with
  | none => finish "/" before
  | some (s, lockfile) =>
    let base := if isAbsolute lockfile then "/" else ""
    realize base before ((Disk.openAt s.name s.dataDir?).verdict before).state
    let handle ← IO.FS.Handle.mk (shown lockfile) .readWrite
    handle.lock
    let code ← finish base (← pictureFor call s?)
    handle.unlock
    return code

end AddressPool.Program

/-- Runs the program on its arguments. -/
def main (args : List String) : IO UInt32 := do
  match AddressPool.CommandLine.parse? args with
  | some call => AddressPool.Program.perform call
  | none =>
    IO.eprintln AddressPool.Program.usage
    return 2
