import AddressPool.Files.Tree

/-!
# What a tree does not show

An operation can fail although the tree has nothing against it: a disk is full, a device is gone, a
file is not for everyone.  Which operations do so is a parameter (`Faults`), which may depend on the
operation, on its path and on the tree as it is then.  By default none does.
-/

namespace AddressPool.Files

/-- The kinds of operations that can fail. -/
inductive Access where
  | makeDirectory
  | stat
  | openLock
  | lock
  | unlock
  | create
  | write
  | read
  | list
  | entry
  | remove
  deriving DecidableEq, Repr

/-- What fails although the tree has nothing against it: why an operation on a path is not done, and
how many bytes are in a file when writing it stops, none if it was not opened. -/
structure Faults where
  stops : Access → Path → Tree → Option Fault := fun _ _ _ => none
  written : Path → Tree → Option Nat := fun _ _ => none

namespace Faults

/-- What comes of an operation that may be stopped. -/
def guarded {α : Type} (f : Faults) (access : Access) (path : Path) (t : Tree)
    (done : Except Fault α) : Except Fault α :=
  match f.stops access path t with
  | some fault => .error fault
  | none => done

def isDirectory (f : Faults) (t : Tree) (path : Path) : Bool :=
  (f.stops .stat path t).isNone && t.isDirectory path

/-- Gives a file a content, whether it was there or not.  When that stops, there may be a part of
the content in it. -/
def write (f : Faults) (t : Tree) (path : Path) (content : Content) : Except Fault Unit × Tree :=
  match t.write path content with
  | .error fault => (.error fault, t)
  | .ok done =>
    match f.stops .write path t with
    | none => (.ok (), done)
    | some fault =>
      match f.written path t with
      | none => (.error fault, t)
      | some size => (.error fault, (t.write path (content.take size)).toOption.getD t)

/-- Removes a file if it can be removed. -/
def discard (f : Faults) (t : Tree) (path : Path) : Tree :=
  (f.guarded .remove path t (t.remove path)).toOption.getD t

end Faults

namespace Tree

/-- Takes it that a directory is there if it is, whatever kept it from being made. -/
def settle (t : Tree) (path : Path) (faults : Faults) :
    Except Fault Tree → Except Fault Unit × Tree
  | .ok t => (.ok (), t)
  | .error e => if faults.isDirectory t path then (.ok (), t) else (.error e, t)

/-- Makes a directory and those on the way to it; the paths are given, the longest first.  What was
made stays if the rest cannot be made. -/
def makeEach (t : Tree) (paths : List Path) (faults : Faults := {}) : Except Fault Unit × Tree :=
  match paths with
  | [] => (.ok (), t)
  | path :: shorter =>
    match faults.guarded .makeDirectory path t (t.makeDirectory path) with
    | .error .notFound =>
      match t.makeEach shorter faults with
      | (.error e, t) => (.error e, t)
      | (.ok _, t) =>
        t.settle path faults (faults.guarded .makeDirectory path t (t.makeDirectory path))
    | made => t.settle path faults made

/-- Makes a directory and those on the way to it, as far as they are not there. -/
def makeDirectories (t : Tree) (path : Path) (faults : Faults := {}) : Except Fault Unit × Tree :=
  t.makeEach (ancestors path) faults

end Tree

end AddressPool.Files
