import AddressPool.Error
import AddressPool.Text.Quoted

/-!
# Arguments of a call

A call can carry arguments as a list of pairs `K=V`, separated by semicolons.  `IP` asks for an
address, and the last one counts.  `IgnoreUnknown` says whether keys that are not known are let
pass, wherever it stands; again the last one counts.

A pair that cannot be understood is refused where it stands; unknown keys are refused at the end.
-/

namespace AddressPool

/-- What is known of the arguments of a call so far. -/
structure Arguments where
  address? : Option Address := none
  ignoreUnknown : Bool := false
  unknown : List String := []
  deriving DecidableEq, Repr

namespace Arguments

def invalidPair (pair : List Char) : Error :=
  .config ("ARGS: invalid pair " ++ Text.Quoted.text (String.ofList pair))

def invalidTruth (value : List Char) : Error :=
  .config ("ARGS: error parsing IgnoreUnknown value " ++ Text.Quoted.text (String.ofList value))

def unknownKeys (keys : List String) : Error :=
  .config ("ARGS: unknown args " ++ Text.Quoted.list keys)

def truth? (value : List Char) : Option Bool :=
  let value := String.ofList (value.map Char.toLower)
  if value = "1" ∨ value = "true" then some true
  else if value = "0" ∨ value = "false" then some false
  else none

def sides? (pair : List Char) : Option (List Char × List Char) :=
  match pair.dropWhile (· != '=') with
  | [] => none
  | _ :: value => some (pair.takeWhile (· != '='), value)

/-- Takes up one pair. -/
def add (args : Arguments) (pair : List Char) : Except Error Arguments :=
  match sides? pair with
  | none => .error (invalidPair pair)
  | some (key, value) =>
    let key := String.ofList key
    if key = "IgnoreUnknown" then
      match truth? value with
      | some b => .ok { args with ignoreUnknown := b }
      | none => .error (invalidTruth value)
    else if key = "IP" then
      match Address.read? (String.ofList value) with
      | some a => .ok { args with address? := some a }
      | none => .error (.badAddress (String.ofList value))
    else .ok { args with unknown := args.unknown ++ [key] }

/-- Takes up pairs from left to right, up to the first that cannot be understood. -/
def addAll (args : Arguments) : List (List Char) → Except Error Arguments
  | [] => .ok args
  | pair :: pairs => do (← args.add pair).addAll pairs

/-- The address that the arguments of a call ask for; no arguments ask for none. -/
def requested (text : String) : Except Error (Option Address) :=
  if text.isEmpty then .ok none
  else
    match addAll {} (text.toList.splitOn ';') with
    | .error e => .error e
    | .ok args =>
      if args.unknown.isEmpty || args.ignoreUnknown then .ok args.address?
      else .error (unknownKeys args.unknown)

end Arguments

end AddressPool
