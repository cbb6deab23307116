import AddressPool.Error

/-!
# Actions

An action works on a state, answers with a value and a new state, and reports what it did as records
of a log.  What it reports cannot depend on earlier reports, and nothing depends on them.
-/

namespace AddressPool

/-- How important a record is, the most important first: something failed that nobody can mend,
something failed that was dealt with, something was done, or how it was done. -/
inductive Level where
  | error
  | warn
  | info
  | debug
  deriving DecidableEq, Repr

namespace Level

def text : Level → String
  | error => "ERROR"
  | warn => "WARN"
  | info => "INFO"
  | debug => "DEBUG"

def rank : Level → Nat
  | error => 0
  | warn => 1
  | info => 2
  | debug => 3

end Level

/-- A message with its importance. -/
structure Record where
  level : Level
  message : String
  deriving DecidableEq, Repr

namespace Record

def text (r : Record) : String :=
  r.level.text ++ " " ++ r.message

end Record

/-- The records of some actions, in order. -/
abbrev Log := Array Record

/-- What an action comes to. -/
structure Outcome (σ α : Type) where
  value : α
  state : σ
  log : Log

/-- A step over a state that answers and reports. -/
def Action (σ α : Type) : Type :=
  σ → Outcome σ α

namespace Action

variable {σ τ α β : Type}

protected def pure (a : α) : Action σ α :=
  fun s => ⟨a, s, #[]⟩

protected def bind (m : Action σ α) (k : α → Action σ β) : Action σ β := fun s =>
  let o := m s
  let p := k o.value o.state
  ⟨p.value, p.state, o.log ++ p.log⟩

instance : Monad (Action σ) where
  pure := Action.pure
  bind := Action.bind

@[simp]
theorem pure_apply (a : α) (s : σ) : (pure a : Action σ α) s = ⟨a, s, #[]⟩ := rfl

@[simp]
theorem value_bind (m : Action σ α) (k : α → Action σ β) (s : σ) :
    ((m >>= k) s).value = (k (m s).value (m s).state).value := rfl

@[simp]
theorem state_bind (m : Action σ α) (k : α → Action σ β) (s : σ) :
    ((m >>= k) s).state = (k (m s).value (m s).state).state := rfl

instance : LawfulMonad (Action σ) := LawfulMonad.mk' _
  (fun m => by funext s; simp [Functor.map, Action.bind, Action.pure])
  (fun a k => by funext s; simp [Bind.bind, Pure.pure, Action.bind, Action.pure])
  (fun m k l => by funext s; simp [Bind.bind, Action.bind, Array.append_assoc])

def report (level : Level) (message : String) : Action σ Unit :=
  fun s => ⟨(), s, #[⟨level, message⟩]⟩

end Action

/-- An action that may fail. -/
abbrev Attempt (σ α : Type) : Type :=
  ExceptT Error (Action σ) α

namespace Attempt

variable {σ τ α : Type}

/-- Takes an attempt up as an action that answers with its verdict. -/
def verdict (m : Attempt σ α) : Action σ (Except Error α) :=
  ExceptT.run m

/-- The attempt whose verdict an action answers with. -/
def ofVerdict (m : Action σ (Except Error α)) : Attempt σ α :=
  ExceptT.mk m

/-- Fails or goes on as something already known does. -/
def ofExcept (e : Except Error α) : Attempt σ α :=
  ofVerdict (pure e)

def report (level : Level) (message : String) : Attempt σ Unit :=
  ExceptT.lift (Action.report level message)

end Attempt

end AddressPool
