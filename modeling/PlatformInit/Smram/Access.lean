import PlatformInit.Fault
import PlatformInit.Status

/-!
The window through which SMRAM is seen from outside of management mode (MM).

The window is opened to load the MM core, closed once the core runs, and locked before foreign code
runs. A lock holds until reset, so no transition is asked of a chipset that is locked.
-/
set_option autoImplicit false
namespace PlatformInit

structure SmramAccess (ω : Type) where
  reveal : Attempt ω EfiError Unit
  hide : Attempt ω EfiError Unit
  lock : Attempt ω EfiError Unit
  isOpen : ω → Bool
  isLocked : ω → Bool

namespace SmramAccess
variable {ω : Type}

/-- Asks for a transition unless the window is locked. -/
def unlessLocked (a : SmramAccess ω) (transition : Attempt ω EfiError Unit) : Step ω EfiError Unit := do
  if a.isLocked (← get) then Step.fail .accessDenied else Step.ofAttempt transition

def openWindow (a : SmramAccess ω) : Step ω EfiError Unit := a.unlessLocked a.reveal

def closeWindow (a : SmramAccess ω) : Step ω EfiError Unit := a.unlessLocked a.hide

def lockWindow (a : SmramAccess ω) : Step ω EfiError Unit := a.unlessLocked a.lock

end SmramAccess
end PlatformInit
