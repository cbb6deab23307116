import AddressPool.Command
import AddressPool.Lease.Json

/-!
# The command line

The tool is called with the name of a command and with options: `-c` or `--config` for the file that
holds the configuration, where `-` is the standard input; `--container-id` for the owner; and
`--args` for arguments.  The first two must be given, each option once at most.

A value follows its option as the next argument, which must not look like an option, or stands
behind an equals sign; behind a single letter it may also follow at once.
-/

namespace AddressPool.CommandLine

open AddressPool.Files (Tree)

/-- The commands. -/
inductive Verb where
  | add
  | del
  deriving DecidableEq, Repr

/-- The options. -/
inductive Setting where
  | config
  | owner
  | arguments
  deriving DecidableEq, Repr

def verb? (word : String) : Option Verb :=
  if word = "add" then some .add else if word = "del" then some .del else none

def option? (word : String) : Option Setting :=
  if word = "config" then some .config
  else if word = "container-id" then some .owner
  else if word = "args" then some .arguments
  else none

/-- What is wanted of the tool. -/
structure Call where
  verb : Verb
  config : String
  owner : String
  arguments : String
  deriving DecidableEq, Repr

abbrev Given := List (Setting × String)

def looksLikeOption (arg : String) : Bool :=
  arg.toList.head? == some '-' && arg != "-"

/-- The two sides of the first equals sign of a word; the second is missing if there is none. -/
def sides (word : List Char) : String × Option String :=
  match word.dropWhile (· != '=') with
  | [] => (String.ofList word, none)
  | _ :: value => (String.ofList (word.takeWhile (· != '=')), some (String.ofList value))

def behindLetter (rest : List Char) : Option String :=
  match rest with
  | [] => none
  | '=' :: value => some (String.ofList value)
  | value => some (String.ofList value)

/-- The option that an argument names, with the value that it brings along; none if it names
none. -/
def named? (arg : String) : Option (Setting × Option String) :=
  match arg.toList with
  | '-' :: '-' :: word =>
    let (name, value?) := sides word
    (option? name).map (·, value?)
  | '-' :: 'c' :: rest => some (.config, behindLetter rest)
  | _ => none

/-- Takes up an option with its value.  An option is given once, and the configuration cannot be the
empty path. -/
def Given.add (given : Given) (option : Setting) (value : String) : Option Given :=
  if given.any (·.1 == option) then none
  else if option = .config ∧ value.isEmpty then none
  else some ((option, value) :: given)

/-- The options that arguments give, none if they are not just options with values. -/
def options (given : Given) : List String → Option Given
  | [] => some given
  | [arg] =>
    if arg = "--" then some given
    else
      match named? arg with
      | some (option, some value) => given.add option value
      | _ => none
  | arg :: next :: rest =>
    match named? arg with
    | some (option, some value) => do options (← given.add option value) (next :: rest)
    | some (option, none) =>
      if looksLikeOption next then none
      else do options (← given.add option next) rest
    | none => none

def Given.value? (given : Given) (option : Setting) : Option String :=
  given.lookup option

/-- What arguments ask of the tool, none if they make no sense. -/
def parse? : List String → Option Call
  | [] => none
  | word :: args => do
    let verb ← verb? word
    let given ← options [] args
    return {
      verb
      config := ← given.value? .config
      owner := ← given.value? .owner
      arguments := (given.value? .arguments).getD "" }

/-- What a call of the tool comes to: the code, 0 for success, 1 for failure and 2 for arguments
that make no sense, and what is written to the standard output. -/
structure Exit where
  code : Nat
  output : String
  deriving DecidableEq, Repr

/-- The configuration of a call; the file may be the standard input. -/
def configuration (call : Call) (input : Json.Bytes) (t : Tree) : Except Files.Fault Json.Bytes :=
  if Files.isDash call.config then .ok input else t.read call.config

/-- Does what a call asks for. -/
def perform (call : Call) (input : Json.Bytes) : Action Tree Exit := fun t =>
  match configuration call input t with
  | .error _ => ⟨⟨1, ""⟩, t, #[]⟩
  | .ok config =>
    let act : Action Tree Exit :=
      match call.verb with
      | .add => do
        match ← (Command.add config call.owner call.arguments).verdict with
        | .ok grant => return ⟨0, (Grant.codec.write grant).pretty ++ "\n"⟩
        | .error _ => return ⟨1, ""⟩
      | .del => do
        match ← (Command.del config call.owner call.arguments).verdict with
        | .ok _ => return ⟨0, ""⟩
        | .error _ => return ⟨1, ""⟩
    act t

def run (args : List String) (input : Json.Bytes) : Action Tree Exit :=
  match parse? args with
  | some call => perform call input
  | none => return ⟨2, ""⟩

end AddressPool.CommandLine
