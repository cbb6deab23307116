import AddressPool.Files.Faults
import AddressPool.Store
import AddressPool.Text.Blank
import AddressPool.Text.Quoted

/-!
# Stores on disk

A network has a directory of its own.  In it stands a file for each reserved address, named by the
text of the address and holding its owner; a file for each set that ever gave an address, holding
that address; and a file to lock.  A reservation is won by making its file, which only one can do.

The state of a store on disk is the tree of files alone: a store that is opened again goes on where
it was left.  What fails although the tree has nothing against it is up to `Faults`; where these are
not named, there are none.
-/

namespace AddressPool

open AddressPool.Files

def Address.file (a : Address) : Name :=
  bytesOf a.text

namespace Lockfile

def name : Name := "lock"

def failed (action : String) (path : Path) (fault : Fault) : Error :=
  .storage ("failed to " ++ action ++ " " ++ Text.shown path) fault.message

/-- Opens the file to lock for a path: the path itself if it leads to a file, and a file of its own
if it leads to a directory.  Answers with the path of the file. -/
def openAt (path : Path) (faults : Faults := {}) : Attempt Tree Path :=
  .ofVerdict fun t =>
    match faults.guarded .stat path t (t.lookup path) with
    | .error fault => ⟨.error (failed "stat" path fault), t, #[]⟩
    | .ok (_, node) =>
      let file := if node = .directory then join path name else path
      match faults.guarded .openLock file t (t.touch file) with
      | .error fault => ⟨.error (failed "open lock file" file fault), t, #[]⟩
      | .ok t => ⟨.ok file, t, #[]⟩

def lock (file : Path) (faults : Faults := {}) : Attempt Tree Unit :=
  .ofVerdict fun t =>
    let log := #[⟨.debug, "Acquiring lock " ++ Text.Quoted.path file⟩]
    match faults.stops .lock file t with
    | some fault => ⟨.error (failed "lock" file fault), t, log⟩
    | none => ⟨.ok (), t, log⟩

def unlock (file : Path) (faults : Faults := {}) : Attempt Tree Unit :=
  .ofVerdict fun t =>
    match faults.stops .unlock file t with
    | some fault => ⟨.error (failed "unlock" file fault), t, #[]⟩
    | none => ⟨.ok (), t, #[]⟩

end Lockfile

/-- The directory of a network, with the file that is locked for it, by their paths. -/
structure Disk where
  directory : Path
  lockfile : Path
  deriving DecidableEq

namespace Disk

open Lockfile (failed)

/-- The directory that the states of networks are kept in unless another one is named. -/
def defaultDataDir : String := "/var/lib/cni/networks"

/-- How the names of the files begin that hold the address reserved last. -/
def markerStem : String := "last_reserved_ip."

/-- Whether a file of the given name is not a reservation; one whose name is no text may be. -/
def isBookkeeping (name : Name) : Bool :=
  match textOf? name with
  | some file => name == Lockfile.name || markerStem.toList.isPrefixOf file.toList
  | none => false

/-- Opens the store of a network, whose directory is made if it is not there. -/
def openAt (network : String) (dataDir? : Option String) (faults : Faults := {}) :
    Attempt Tree Disk := do
  let directory := join (dataDir?.getD defaultDataDir) network
  .ofVerdict fun t =>
    match t.makeDirectories directory faults with
    | (.error fault, t) => ⟨.error (failed "create" directory fault), t, #[]⟩
    | (.ok _, t) => ⟨.ok (), t, #[]⟩
  let lockfile ← Lockfile.openAt directory faults
  return ⟨directory, lockfile⟩

def path (d : Disk) (name : Name) : Path :=
  join d.directory name

/-- The name of the file that holds the address of a set that was reserved last. -/
def markerName (setId : Nat) : Name :=
  bytesOf (markerStem ++ Text.decimal setId)

/-- Reserves an address by making its file and writing the owner into it; then the address is
written down as the last one.  That the file is there already means that the address is taken.  A
file that the owner cannot be written into is removed again. -/
def reserve (d : Disk) (owner : String) (a : Address) (setId : Nat) (faults : Faults := {}) :
    Attempt Tree Bool :=
  .ofVerdict fun t =>
    let file := d.path a.file
    match faults.guarded .create file t (t.create file []) with
    | .error .present => ⟨.ok false, t, #[⟨.debug, s!"{a} is already reserved"⟩]⟩
    | .error fault => ⟨.error (failed "create" file fault), t, #[]⟩
    | .ok t =>
      match faults.write t file (bytesOf (Text.trim owner)) with
      | (.error fault, t) => ⟨.error (failed "write" file fault), faults.discard t file, #[]⟩
      | (.ok _, t) =>
        let marker := d.path (markerName setId)
        match faults.write t marker (bytesOf a.text) with
        | (.error fault, t) => ⟨.error (failed "write" marker fault), t, #[]⟩
        | (.ok _, t) =>
          ⟨.ok true, t, #[⟨.debug, s!"Reserved {a} for {owner} in " ++
            Text.Quoted.path d.directory⟩]⟩

/-- The address of a set that was reserved last, as it is written down. -/
def lastReserved (d : Disk) (setId : Nat) (t : Tree) (faults : Faults := {}) :
    Except Error Address :=
  let marker := d.path (markerName setId)
  match faults.guarded .read marker t (t.readText marker) with
  | .error .notFound => .error (.noLastReserved setId)
  | .error fault => .error (failed "read" marker fault)
  | .ok text =>
    match Address.read? text with
    | some a => .ok a
    | none => .error (.badAddress (Text.trim text))

def release (d : Disk) (a : Address) (faults : Faults := {}) : Attempt Tree Unit :=
  .ofVerdict fun t =>
    let file := d.path a.file
    match faults.guarded .remove file t (t.remove file) with
    | .error fault => ⟨.error (failed "remove" file fault), t, #[]⟩
    | .ok t => ⟨.ok (), t, #[]⟩

/-- Whether a file of the given name is found to be a reservation of an owner. -/
def isHeldBy (d : Disk) (t : Tree) (owner : String) (name : Name) (faults : Faults := {}) : Bool :=
  let file := d.path name
  (faults.stops .entry file t).isNone && !faults.isDirectory t file && !isBookkeeping name &&
    match faults.guarded .read file t (t.readText file) with
    | .ok text => Text.trim text == owner
    | .error _ => false

/-- Removes the file of the given name if it is a reservation of an owner. -/
def releaseIfHeld (d : Disk) (owner : String) (name : Name) (faults : Faults := {}) :
    Action Tree Unit := fun t =>
  if d.isHeldBy t owner name faults then
    let file := d.path name
    match faults.guarded .remove file t (t.remove file) with
    | .error fault =>
      ⟨(), t, #[⟨.warn, "Failed to remove " ++ Text.Quoted.path file ++ s!": {fault}"⟩]⟩
    | .ok t =>
      ⟨(), t, #[⟨.debug, "Released " ++ Text.Quoted.path file ++ s!" held by {owner}"⟩]⟩
  else ⟨(), t, #[]⟩

/-- Removes the reservations of an owner among the files of the given names, one after the other. -/
def releaseAmong (d : Disk) (owner : String) (names : List Name) (faults : Faults := {}) :
    Action Tree Unit :=
  match names with
  | [] => pure ()
  | name :: names => do
    d.releaseIfHeld owner name faults
    d.releaseAmong owner names faults

/-- Frees every address of an owner: removes each file in the directory that is a reservation and
holds the owner. -/
def releaseOwner (d : Disk) (owner : String) (faults : Faults := {}) : Attempt Tree Unit :=
  .ofVerdict fun t =>
    match faults.guarded .list d.directory t (t.list d.directory) with
    | .error fault => ⟨.error (failed "list" d.directory fault), t, #[]⟩
    | .ok names =>
      let o := d.releaseAmong (Text.trim owner) names faults t
      ⟨.ok (), o.state, o.log⟩

/-- The directory of a network as a store. -/
def store (d : Disk) (faults : Faults := {}) : Store Tree where
  lock := Lockfile.lock d.lockfile faults
  unlock := Lockfile.unlock d.lockfile faults
  close := pure ()
  reserve owner a setId := d.reserve owner a setId faults
  lastReserved setId := .ofVerdict fun t => ⟨d.lastReserved setId t faults, t, #[]⟩
  release a := d.release a faults
  releaseOwner owner := d.releaseOwner owner faults

end Disk

end AddressPool
