/-!
How an operation of the firmware ends when it does not return a value.

A `Halt` stops the machine for good; an error is handed to the caller, who may go on. `Fault ε`
keeps the two apart, so that an operation can catch the errors of another one without ever
catching a halt.
-/
set_option autoImplicit false
namespace PlatformInit

inductive Halt where
  | overflow
  | nullDevice
  /-- Work that may go on forever did not end within the steps it was given. -/
  | unfinished
  | fatal (reason : String)
  deriving DecidableEq

inductive Fault (ε : Type) where
  | error (cause : ε)
  | halt (reason : Halt)
  deriving DecidableEq

/-- A computation that may report an error of kind `ε` or stop the machine. -/
abbrev Fallible (ε α : Type) := Except (Fault ε) α

/-- A step of a machine with state `σ`; the state reached is kept however the step ends. -/
abbrev Step (σ ε α : Type) := EStateM (Fault ε) σ α

/-- A step that may report an error but never stops the machine. -/
abbrev Attempt (σ ε α : Type) := EStateM ε σ α

namespace Fault
variable {ε ε' : Type}

def mapError (f : ε → ε') : Fault ε → Fault ε'
  | .error e => .error (f e)
  | .halt h => .halt h

end Fault

namespace Fallible
variable {ε ε' α : Type}

def fail (e : ε) : Fallible ε α := .error (.error e)

def mapError (f : ε → ε') : Fallible ε α → Fallible ε' α
  | .ok a => .ok a
  | .error e => .error (e.mapError f)

def ofExcept : Except ε α → Fallible ε α
  | .ok a => .ok a
  | .error e => .error (.error e)

def ofHalting : Except Halt α → Fallible ε α
  | .ok a => .ok a
  | .error h => .error (.halt h)

instance : MonadLift (Except Halt) (Except (Fault ε)) := ⟨ofHalting⟩

end Fallible

namespace Step
variable {σ τ ε ε' α : Type}

def fail (e : ε) : Step σ ε α := fun s => .error (.error e) s

def stop (h : Halt) : Step σ ε α := fun s => .error (.halt h) s

def fatal (reason : String) : Step σ ε α := stop (.fatal reason)

def ofFallible (x : Fallible ε α) : Step σ ε α := fun s =>
  match x with
  | .ok a => .ok a s
  | .error e => .error e s

def ofExcept (x : Except ε α) : Step σ ε α := ofFallible (.ofExcept x)

def ofHalting (x : Except Halt α) : Step σ ε α := ofFallible (.ofHalting x)

def ofAttempt (x : Attempt σ ε α) : Step σ ε α := fun s =>
  match x s with
  | .ok a s' => .ok a s'
  | .error e s' => .error (.error e) s'

def mapError (f : ε → ε') (x : Step σ ε α) : Step σ ε' α := fun s =>
  match x s with
  | .ok a s' => .ok a s'
  | .error e s' => .error (e.mapError f) s'

/-- Turns an error of `x` into a value; a halt stays a halt. -/
def attempt (x : Step σ ε α) : Step σ ε' (Except ε α) := fun s =>
  match x s with
  | .ok a s' => .ok (.ok a) s'
  | .error (.error e) s' => .ok (.error e) s'
  | .error (.halt h) s' => .error (.halt h) s'

def ignoringError (x : Step σ ε Unit) : Step σ ε' Unit := do
  let _ ← attempt x

def orFatal (reason : ε → String) (x : Step σ ε α) : Step σ ε' α := fun s =>
  match x s with
  | .ok a s' => .ok a s'
  | .error (.error e) s' => .error (.halt (.fatal (reason e))) s'
  | .error (.halt h) s' => .error (.halt h) s'

def valueOrFatal (reason : ε → String) (x : Except ε α) : Step σ ε' α := orFatal reason (ofExcept x)

/-- Runs `x` on the part of the state that `get` and `set` describe. -/
def focus (get : τ → σ) (set : σ → τ → τ) (x : Step σ ε α) : Step τ ε α := fun t =>
  match x (get t) with
  | .ok a s => .ok a (set s t)
  | .error e s => .error e (set s t)

instance : MonadLift (Except Halt) (EStateM (Fault ε) σ) := ⟨ofHalting⟩

instance : MonadLift (Except (Fault ε)) (EStateM (Fault ε) σ) := ⟨ofFallible⟩

end Step

end PlatformInit
