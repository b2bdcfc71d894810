import PlatformInit.Bench.Trace
import PlatformInit.Port.Q35
import PlatformInit.Report.Platform
import PlatformInit.Smram.Access

/-!
Scripted I/O ports and a scripted SMRAM window.
-/
set_option autoImplicit false
namespace PlatformInit.Bench

/-- The values that the reads of each port find; the last one stays. Of the lists for one port, the
last one counts. -/
abbrev PortScript := List (UInt16 × List Nat)

namespace PortScript

def next (s : PortScript) (port : UInt16) : Nat :=
  ((s.reverse.lookup port).bind (·.head?)).getD 0

def advance (s : PortScript) (port : UInt16) : PortScript :=
  s.map fun (p, values) => (p, if p = port ∧ 1 < values.length then values.drop 1 else values)

end PortScript

def portEvent (name : String) (port : UInt16) (value : Nat) : Value :=
  .list [.text name, toValue port, .text (hexText value)]

def scriptedPorts : IoPort (Traced PortScript) where
  read16 port t :=
    let value := UInt16.ofNat (t.world.next port)
    (value, (t.change (·.advance port)).add (portEvent "read16" port value.toNat))
  read32 port t :=
    let value := UInt32.ofNat (t.world.next port)
    (value, (t.change (·.advance port)).add (portEvent "read32" port value.toNat))
  write8 port value t := t.add (portEvent "write8" port value.toNat)
  write16 port value t := t.add (portEvent "write16" port value.toNat)
  write32 port value t := t.add (portEvent "write32" port value.toNat)

structure Window where
  isOpen : Bool
  isLocked : Bool
  failOpen : Option EfiError
  failClose : Option EfiError
  failLock : Option EfiError

namespace Window

def closed : Window := ⟨false, false, none, none, none⟩

def override (x : Window) (v : Value) : Option Window := do
  let a := (v.get? "access").getD .null
  return ⟨← a.fieldD "open" x.isOpen, ← a.fieldD "locked" x.isLocked, ← a.field? "fail_open",
    ← a.field? "fail_close", ← a.field? "fail_lock"⟩

def report (x : Window) : Value := .record [("open", .flag x.isOpen), ("locked", .flag x.isLocked)]

def attempt {ω : Type} (window : ω → Window) (put : Window → ω → ω) (name : String)
    (failure : Window → Option EfiError) (change : Window → Window) :
    Attempt (Traced ω) EfiError Unit := fun t =>
  let t := t.note name []
  match failure (window t.world) with
  | some e => .error e t
  | none => .ok () (t.change fun w => put (change (window w)) w)

def access {ω : Type} (window : ω → Window) (put : Window → ω → ω) : SmramAccess (Traced ω) where
  reveal := attempt window put "open" failOpen fun x => { x with isOpen := true }
  hide := attempt window put "close" failClose fun x => { x with isOpen := false }
  lock := attempt window put "lock" failLock fun x => { x with isLocked := true, isOpen := false }
  isOpen t := (window t.world).isOpen
  isLocked t := (window t.world).isLocked

end Window
end PlatformInit.Bench
