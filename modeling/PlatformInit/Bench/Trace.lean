import PlatformInit.Report.Outcome

/-!
Worlds that remember what was done to them.
-/
set_option autoImplicit false
namespace PlatformInit

structure Traced (ω : Type) where
  world : ω
  events : List Value

namespace Traced
variable {ω : Type}

def new (w : ω) : Traced ω := ⟨w, []⟩

def add (t : Traced ω) (event : Value) : Traced ω := { t with events := event :: t.events }

def note (name : String) (args : List Value) (t : Traced ω) : Traced ω :=
  t.add (.list (.text name :: args))

def change (f : ω → ω) (t : Traced ω) : Traced ω := { t with world := f t.world }

def trace (t : Traced ω) : Value := .list t.events.reverse

def clear (t : Traced ω) : Traced ω := { t with events := [] }

end Traced
end PlatformInit
