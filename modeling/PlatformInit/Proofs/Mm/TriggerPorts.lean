import PlatformInit.Proofs.Mm.RequestCalls

/-!
The accesses of I/O ports by which requests raise software MMIs.

`IoPort.noting` lets any ports do what they do and notes each access. A request accesses them when
it is put into the mailbox, to clear the data port and to write the command, and not otherwise.
-/
set_option autoImplicit false
namespace PlatformInit

inductive PortAccess where
  | read16 (port : UInt16)
  | read32 (port : UInt16)
  | write8 (port : UInt16) (value : UInt8)
  | write16 (port value : UInt16)
  | write32 (port : UInt16) (value : UInt32)
  deriving DecidableEq

section
variable {ω : Type}

def IoPort.noting (io : IoPort (Machine ω)) : IoPort (Machine (Noted ω PortAccess)) where
  read16 port m :=
    let (value, after) := io.read16 port m.bare
    (value, after.noted (.read16 port :: m.world.calls))
  read32 port m :=
    let (value, after) := io.read32 port m.bare
    (value, after.noted (.read32 port :: m.world.calls))
  write8 port value m := (io.write8 port value m.bare).noted (.write8 port value :: m.world.calls)
  write16 port value m := (io.write16 port value m.bare).noted (.write16 port value :: m.world.calls)
  write32 port value m := (io.write32 port value m.bare).noted (.write32 port value :: m.world.calls)

def Noted.quiet {κ ε α : Type} (x : EStateM ε ω α) : EStateM ε (Noted ω κ) α := fun n =>
  match x n.world with
  | .ok a w => .ok a ⟨w, n.calls⟩
  | .error e w => .error e ⟨w, n.calls⟩

def CommParts.overPorts (p : CommParts ω) (ports : MmiPorts) (io : IoPort (Machine ω))
    (command : Option UInt8) : CommParts ω :=
  { p with executor := some ((ports.trigger io).executor command) }

def CommParts.notingPorts (p : CommParts ω) (ports : MmiPorts) (io : IoPort (Machine ω))
    (command : Option UInt8) : CommParts (Noted ω PortAccess) where
  core := p.core
  access := {
    reveal := Noted.quiet p.access.reveal
    hide := Noted.quiet p.access.hide
    lock := Noted.quiet p.access.lock
    isOpen n := p.access.isOpen n.world
    isLocked n := p.access.isLocked n.world }
  executor := some ((ports.trigger io.noting).executor command)
  direct := p.direct.map fun d => {
    manage := fun recipient area length m =>
      let (reply, after) := d.manage recipient area length m.bare
      (reply, after.noted m.world.calls) }
  patience := p.patience

/-- The accesses of ports for a call, newest first. -/
def CommCall.portAccesses (ports : MmiPorts) (command : Option UInt8) : CommCall ω → List PortAccess
  | .execute .. => [.write8 ports.command (command.getD ports.defaultCommand), .write8 ports.data 0]
  | .manage .. => []
  | .window .. => []

theorem MmiPorts.execute_eq {σ : Type} (ports : MmiPorts) (io : IoPort (Machine σ))
    (command : Option UInt8) (b : CommBuffer) (m : Machine σ) :
    ((ports.trigger io).executor command).execute b m =
      .ok () (ports.raise io (command.getD ports.defaultCommand) m) := by
  cases command <;> rfl

theorem CommParts.notingPorts_notes (p : CommParts ω) (ports : MmiPorts) (io : IoPort (Machine ω))
    (command : Option UInt8) : (p.notingPorts ports io command).Notes (p.overPorts ports io command)
      (CommCall.portAccesses ports command) where
  core := rfl
  isOpen _ := rfl
  isLocked _ := rfl
  executor := by
    refine .some fun b m => ?_
    rw [Step.after_of_ok (ports.execute_eq io.noting command b m)]
    rfl
  direct := by
    change Option.Rel _ (p.direct.map _) p.direct
    cases p.direct with
    | none => exact .none
    | some d => exact .some fun _ _ _ _ => rfl

end

namespace Communicator
variable {ω : Type}

/-- The accesses of ports that a request makes to raise an MMI, newest first. -/
def portAccesses (p : CommParts ω) (ports : MmiPorts) (io : IoPort (Machine ω))
    (command : Option UInt8) (id : UInt8) (data : Bytes) (recipient : Guid) (c : Communicator ω) :
    List PortAccess :=
  (Step.after (communicate (p.notingPorts ports io command) id data recipient)
    (c.noted [])).machine.world.calls

theorem portAccesses_eq (p : CommParts ω) (ports : MmiPorts) (io : IoPort (Machine ω))
    (command : Option UInt8) (id : UInt8) (data : Bytes) (recipient : Guid) (c : Communicator ω) :
    portAccesses p ports io command id data recipient c =
      (calls (p.overPorts ports io command) (.communicate id data recipient) c).flatMap
        (CommCall.portAccesses ports command) := by
  rw [calls_communicate]
  exact (communicate_notes (p.notingPorts_notes ports io command) id data recipient (c.noted [])).trans
    (List.append_nil _)

end Communicator
end PlatformInit
