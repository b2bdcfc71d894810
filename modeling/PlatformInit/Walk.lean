import PlatformInit.Fault

/-!
Walks over the records of an image: the items in order, and whether the walk came to an end or
stopped the machine. A search looks only as far as its first hit.
-/
set_option autoImplicit false
namespace PlatformInit

inductive Walk (α : Type) where
  | done
  | halted (reason : Halt)
  | next (item : α) (rest : Walk α)

namespace Walk
variable {α : Type}

/-- The items reached, whatever happens after the last one. -/
def items : Walk α → List α
  | done => []
  | halted _ => []
  | next a rest => a :: rest.items

/-- All items, if the walk comes to its end. -/
def toList : Walk α → Except Halt (List α)
  | done => .ok []
  | halted h => .error h
  | next a rest => rest.toList.map (a :: ·)

def find? (p : α → Bool) : Walk α → Except Halt (Option α)
  | done => .ok none
  | halted h => .error h
  | next a rest => if p a then .ok (some a) else rest.find? p

end Walk
end PlatformInit
