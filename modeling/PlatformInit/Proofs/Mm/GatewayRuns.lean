import PlatformInit.Mm.Gateway
import PlatformInit.Proofs.Mm.DispatchRounds

/-!
The operations of a gateway, the calls that they make, and runs of operations between which the boot
goes on.
-/
set_option autoImplicit false
namespace PlatformInit

open Step (Follows Returns)

inductive GatewayOp where
  | start (hobs : HobList) (systemTable : UInt64)
  | signal (source : EventSource)

section
variable {ω κ : Type}

def GatewayParts.noting (p : GatewayParts ω) : GatewayParts (Noted ω (CommCall ω)) where
  comm := p.comm.noting
  isInstalled guid n := ((p.isInstalled guid n.world).1, ⟨(p.isInstalled guid n.world).2, n.calls⟩)

structure GatewayParts.Mirrors (q : GatewayParts (Noted ω κ)) (p : GatewayParts ω) : Prop where
  comm : q.comm.Mirrors p.comm
  isInstalled : ∀ guid n, p.isInstalled guid n.world =
    ((q.isInstalled guid n).1, (q.isInstalled guid n).2.world)

theorem GatewayParts.noting_mirrors (p : GatewayParts ω) : p.noting.Mirrors p where
  comm := p.comm.noting_mirrors
  isInstalled _ _ := rfl

end

namespace Gateway
variable {ω κ ε α : Type}

def perform (p : GatewayParts ω) : GatewayOp → Step (Gateway ω) EfiError Unit
  | .start hobs systemTable => start p hobs systemTable
  | .signal source => signal p source

def world (g : Gateway ω) : ω := g.comm.machine.world

def withWorld (g : Gateway ω) (w : ω) : Gateway ω :=
  { g with comm := { g.comm with machine := { g.comm.machine with world := w } } }

def bare (g : Gateway (Noted ω κ)) : Gateway ω := ⟨g.locked, g.subscribed, g.comm.bare⟩

def noted (g : Gateway ω) (calls : List κ) : Gateway (Noted ω κ) :=
  ⟨g.locked, g.subscribed, g.comm.noted calls⟩

/-- The calls that an operation makes, newest first. -/
def calls (p : GatewayParts ω) (op : GatewayOp) (g : Gateway ω) : List (CommCall ω) :=
  (Step.after (perform p.noting op) (g.noted [])).world.calls

end Gateway

/-- An operation, with the gateway that it found. -/
structure GatewayStep (ω : Type) where
  op : GatewayOp
  found : Gateway ω

namespace GatewayStep
variable {ω : Type}

def calls (p : GatewayParts ω) (s : GatewayStep ω) : List (CommCall ω) := Gateway.calls p s.op s.found

def started (p : GatewayParts ω) (s : GatewayStep ω) : Bool :=
  match s.op with
  | .start .. => Step.succeeds (Gateway.perform p s.op) s.found
  | .signal _ => false

end GatewayStep

namespace Gateway
variable {ω κ ε α : Type}

/-- The states that a gateway is in between operations, and the operations so far, newest first. In the
meantime the communicator may be used by others, and the machine changes, as `env` allows. -/
inductive Run (p : GatewayParts ω) (env : Communicator ω → Communicator ω → Prop) (start : Gateway ω) :
    List (GatewayStep ω) → Gateway ω → Prop where
  | start : Run p env start [] start
  | outside {steps : List (GatewayStep ω)} {g : Gateway ω} (h : Run p env start steps g)
      (comm : Communicator ω) (henv : env g.comm comm) : Run p env start steps { g with comm }
  | operation {steps : List (GatewayStep ω)} {g : Gateway ω} (h : Run p env start steps g)
      (op : GatewayOp) (hreturns : Returns (Step.answer (perform p op) g)) :
      Run p env start (⟨op, g⟩ :: steps) (Step.after (perform p op) g)

theorem Run.succeeding {p : GatewayParts ω} {env : Communicator ω → Communicator ω → Prop}
    {start g : Gateway ω} {steps : List (GatewayStep ω)} {op : GatewayOp} (h : Run p env start steps g)
    (hsucceeds : Step.succeeds (perform p op) g = true) :
    Run p env start (⟨op, g⟩ :: steps) (Step.after (perform p op) g) :=
  .operation h op (Step.returns_of_succeeds hsucceeds)

/-! Noting the calls changes nothing else. -/

theorem onComm_follows {x : Step (Communicator (Noted ω κ)) ε α} {y : Step (Communicator ω) ε α}
    (h : Follows Communicator.bare x y) : Follows bare (onComm x) (onComm y) :=
  Follows.focus (fun _ => rfl) (fun _ _ => rfl) h

theorem onWorld_follows {x : Step (Noted ω κ) ε α} {y : Step ω ε α} (h : Follows Noted.world x y) :
    Follows bare (onWorld x) (onWorld y) :=
  onComm_follows (Communicator.onMachine_follows (Follows.focus (fun _ => rfl) (fun _ _ => rfl) h))

theorem notifyCore_follows {x : Step (Communicator (Noted ω κ)) CommError α}
    {y : Step (Communicator ω) CommError α} (h : Follows Communicator.bare x y) :
    Follows bare (notifyCore x) (notifyCore y) :=
  onComm_follows (Follows.ignoringError (Follows.bind h fun _ => Follows.pure _))

section
variable {q : GatewayParts (Noted ω κ)} {p : GatewayParts ω} (h : q.Mirrors p)
include h

theorem send_follows (recipient : Guid) (data : Bytes) :
    Follows bare (send q recipient data) (send p recipient data) :=
  notifyCore_follows (Communicator.signal_follows h.comm recipient data)

theorem dispatchDrivers_follows : Follows bare (dispatchDrivers q) (dispatchDrivers p) :=
  notifyCore_follows (Communicator.runDispatcher_follows h.comm)

theorem hasHappened_follows (source : EventSource) :
    Follows bare (hasHappened q source) (hasHappened p source) := by
  cases source with
  | group guid => exact Follows.pure _
  | protocol guid =>
    refine onWorld_follows fun n => ?_
    rw [h.isInstalled]
    rfl

theorem readyToLock_follows (source : EventSource) :
    Follows bare (readyToLock q source) (readyToLock p source) := by
  refine Follows.get_bind fun g => Follows.ite (Follows.pure _) ?_
  refine Follows.bind (hasHappened_follows h source) fun happened => Follows.ite ?_ (Follows.pure _)
  refine Follows.bind (Follows.ignoringError
    (onWorld_follows (SmramAccess.lockWindow_follows h.comm.access))) fun _ => ?_
  exact Follows.bind (Follows.modify fun _ => rfl) fun _ =>
    Follows.bind (send_follows h _ _) fun _ => Follows.modify fun _ => rfl

theorem notify_follows (entry : EventRule × Nat) : Follows bare (notify q entry) (notify p entry) := by
  refine Follows.get_bind fun g => Follows.ite ?_ (Follows.pure _)
  cases entry.1.action with
  | readyToLock => exact readyToLock_follows h _
  | forward => exact send_follows h _ _
  | dispatch => exact dispatchDrivers_follows h
  | goneVirtual => exact Follows.modify fun _ => rfl

theorem signal_follows (source : EventSource) : Follows bare (signal q source) (signal p source) :=
  Follows.forM (fun entry => Follows.ite (notify_follows h entry) (Follows.pure _)) _

theorem start_follows (hobs : HobList) (systemTable : UInt64) :
    Follows bare (start q hobs systemTable) (start p hobs systemTable) := by
  refine Follows.ite (Follows.fail _) (Follows.bind (Follows.modify fun _ => rfl) fun _ => ?_)
  refine Follows.bind (Follows.forM (fun entry => Follows.ite (notify_follows h entry)
    (Follows.pure _)) _) fun _ => ?_
  refine Follows.bind (send_follows h _ _) fun _ => ?_
  exact Follows.bind (Follows.forM (fun _ => send_follows h _ _) _) fun _ => dispatchDrivers_follows h

theorem perform_follows (op : GatewayOp) : Follows bare (perform q op) (perform p op) := by
  cases op with
  | start hobs systemTable => exact start_follows h hobs systemTable
  | signal source => exact signal_follows h source

end

end Gateway
end PlatformInit
