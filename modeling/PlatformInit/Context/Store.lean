import PlatformInit.Context.Record

/-!
The store that owns the active global context.

A record is installed once in temporary memory and copied once into permanent memory; the store's
address is changed only when the new record is written in full.
-/
set_option autoImplicit false
namespace PlatformInit

inductive ContextPhase where
  | empty
  | temporary
  | permanent
  deriving DecidableEq

/-- The address of the active record, zero when there is none. -/
structure ContextStore where
  address : UInt64
  phase : ContextPhase
  deriving DecidableEq

namespace ContextStore

def empty : ContextStore := ⟨0, .empty⟩

def isPermanent (s : ContextStore) : Bool := s.phase = .permanent

def install (s : ContextStore) (m : Memory) (address : UInt64) : Except ContextError ContextStore :=
  if s.phase ≠ .empty then .error .alreadyInstalled
  else if (GlobalContext.load m address).isValid then .ok ⟨address, .temporary⟩
  else .error .badSignature

def get (s : ContextStore) (m : Memory) : Except ContextError GlobalContext :=
  if s.address = 0 then .error .notInstalled else .ok (GlobalContext.load m s.address)

/-- Changes the active record in place and answers what `f` finds. -/
def updateWith {α : Type} (s : ContextStore) (m : Memory) (f : GlobalContext → α × GlobalContext) :
    Except ContextError (α × Memory) :=
  match s.get m with
  | .ok c =>
    let (a, changed) := f c
    .ok (a, GlobalContext.store m s.address changed)
  | .error e => .error e

def update (s : ContextStore) (m : Memory) (f : GlobalContext → GlobalContext) :
    Except ContextError Memory :=
  (s.updateWith m fun c => ((), f c)).map Prod.snd

/-- Copies the active record to `destination`, changed by `f`, and makes the copy the active one. -/
def relocate (s : ContextStore) (m : Memory) (destination : UInt64)
    (f : GlobalContext → GlobalContext) : Except ContextError (ContextStore × Memory) :=
  match s.phase with
  | .empty => .error .notInstalled
  | .permanent => .error .alreadyInstalled
  | .temporary =>
    match s.get m with
    | .ok c => .ok (⟨destination, .permanent⟩, GlobalContext.store m destination (f c))
    | .error e => .error e

end ContextStore
end PlatformInit
