import PlatformInit.Proofs.Mm.GatewayRuns
import PlatformInit.Proofs.Mm.WorldInvariants

/-!
What the collaborators keep of the world, requests and events keep.
-/
set_option autoImplicit false
namespace PlatformInit

open Step (Ends Keeps)

section
variable {ω : Type} (I : ω → Prop)

structure CommParts.KeepsWorld (p : CommParts ω) : Prop where
  access : p.access.KeepsWorld I
  executor : ∀ e, p.executor = some e → ∀ b, Keeps (fun m => I m.world) (e.execute b)
  direct : ∀ d, p.direct = some d → ∀ recipient area length m, I m.world →
    I (d.manage recipient area length m).2.world

structure GatewayParts.KeepsWorld (p : GatewayParts ω) : Prop where
  comm : p.comm.KeepsWorld I
  isInstalled : ∀ guid w, I w → I (p.isInstalled guid w).2

end

namespace Communicator
variable {ω ε α : Type} {I : ω → Prop}

theorem onMachine_keeps {x : Step (Machine ω) ε α} (hx : Keeps (fun m => I m.world) x) :
    Keeps (fun c => I c.machine.world) (onMachine x) :=
  Keeps.focus hx (fun _ hc => hc) fun _ _ hm => hm

variable {p : CommParts ω} (h : p.KeepsWorld I)
include h

theorem sendByMmi_keeps (b : CommBuffer) (size : UInt64) :
    Keeps (fun m => I m.world) (sendByMmi p b size) := by
  unfold sendByMmi
  cases hexecutor : p.executor with
  | none => exact Keeps.fail _
  | some executor =>
    refine Keeps.bind (Keeps.modify fun _ hm => hm) fun _ => ?_
    refine Keeps.bind (Keeps.attempt (Keeps.ofAttempt (h.executor executor hexecutor b))) fun r => ?_
    cases r with
    | ok _ => exact Keeps.get_bind fun _ => Keeps.bind (Keeps.modify fun _ hm => hm) fun _ => Keeps.pure _
    | error _ => exact Keeps.bind (Keeps.modify fun _ hm => hm) fun _ => Keeps.fail _

theorem sendDirectly_keeps {b : CommBuffer} {size : UInt64} (hsize : b.Holds size)
    (goneVirtual : Bool) : Keeps (fun m => I m.world) (sendDirectly p b size goneVirtual) := by
  intro m hm
  unfold Ends
  rw [sendDirectly_eq p hsize]
  by_cases hadmits : admits p goneVirtual m = true
  · rw [if_pos hadmits]
    cases hdirect : p.direct with
    | none => exact hm
    | some direct =>
      have hdispatched (header : CommHeader) : I (dispatched p direct b size header m).2.world :=
        h.direct direct hdirect _ _ _ _ hm
      dsimp only
      by_cases hfits : (dispatched p direct b size (.decode (b.bytes m.memory)) m).1.size.toNat +
          CommHeader.size < UInt64.size
      · rw [if_pos hfits]
        exact hdispatched _
      · rw [if_neg hfits]
        exact hdispatched _
  · rw [if_neg hadmits]
    exact hm

theorem send_keeps (b : CommBuffer) (size : UInt64) :
    Keeps (fun c => I c.machine.world) (send p b size) := by
  intro c hc
  have hsend := send_eq p b size c
  by_cases hsize : b.Holds size
  · rw [if_pos hsize] at hsend
    by_cases hmailbox : usesMailbox p c.machine = true
    · rw [if_pos hmailbox] at hsend
      exact Ends.congr hsend (onMachine_keeps (sendByMmi_keeps h b size) c hc)
    · rw [if_neg hmailbox] at hsend
      exact Ends.congr hsend (onMachine_keeps (sendDirectly_keeps h hsize c.goneVirtual) c hc)
  · rw [if_neg hsize] at hsend
    unfold Ends
    rw [hsend]
    exact hc

theorem sendRaw_keeps (id : UInt8) (size : UInt64) :
    Keeps (fun c => I c.machine.world) (sendRaw p id size) := by
  refine Keeps.get_bind fun c => ?_
  cases c.buffer? id with
  | none => exact Keeps.pure _
  | some b =>
    refine Keeps.bind (Keeps.attempt (send_keeps h b size)) fun r => ?_
    cases r with
    | ok _ => exact Keeps.pure _
    | error e => cases e <;> exact Keeps.pure _

theorem communicate_keeps (id : UInt8) (data : Bytes) (recipient : Guid) :
    Keeps (fun c => I c.machine.world) (communicate p id data recipient) := by
  intro c hc
  unfold Ends
  rw [communicate_eq]
  cases prepare p.able c.buffers id data with
  | error e => exact hc
  | ok b =>
    have hsend := send_keeps h (b.filled recipient data) (.ofNat (CommHeader.size + data.length))
      (c.request b recipient data) hc
    dsimp only
    cases hend : send p (b.filled recipient data) (.ofNat (CommHeader.size + data.length))
      (c.request b recipient data) with
    | error e after => exact hsend.of_error hend
    | ok answer after =>
      have hafter := hsend.of_ok hend
      dsimp only
      cases interpret (b.filled recipient data) after.machine.memory answer <;> exact hafter

theorem signal_keeps (recipient : Guid) (data : Bytes) :
    Keeps (fun c => I c.machine.world) (signal p recipient data) := by
  refine Keeps.get_bind fun c => ?_
  cases c.buffers.head? with
  | none => exact Keeps.fail _
  | some b => exact communicate_keeps h b.id data recipient

theorem dispatchFrom_keeps (patience restarts : Nat) :
    Keeps (fun c => I c.machine.world) (dispatchFrom p restarts patience) := by
  induction patience generalizing restarts with
  | zero => exact fun _ hc => hc
  | succ patience ih =>
    refine Keeps.bind (signal_keeps h _ _) fun answer => Keeps.ite ?_ (Keeps.pure _)
    refine Keeps.bind (Keeps.ignoringError ?_) fun _ => ih _
    exact onMachine_keeps (Machine.onWorld_keeps (SmramAccess.closeWindow_keeps h.access))

theorem perform_keeps (op : CommOp) : Keeps (fun c => I c.machine.world) (perform p op) := by
  cases op with
  | communicate id data recipient =>
    exact Keeps.bind (communicate_keeps h id data recipient) fun _ => Keeps.pure _
  | raw id size => exact Keeps.bind (Keeps.mapError (sendRaw_keeps h id size)) fun _ => Keeps.pure _
  | signal recipient data => exact Keeps.bind (signal_keeps h recipient data) fun _ => Keeps.pure _
  | runDispatcher => exact Keeps.bind (dispatchFrom_keeps h _ _) fun _ => Keeps.pure _
  | goVirtual => exact Keeps.bind (Keeps.modify fun _ hc => hc) fun _ => Keeps.pure _

end Communicator

namespace Gateway
variable {ω ε α : Type} {I : ω → Prop}

theorem onWorld_keeps {x : Step ω ε α} (hx : Keeps I x) :
    Keeps (fun g => I g.world) (onWorld x) :=
  Keeps.focus (Communicator.onMachine_keeps (Machine.onWorld_keeps hx)) (fun _ hg => hg) fun _ _ hc => hc

theorem notifyCore_keeps {x : Step (Communicator ω) CommError α}
    (hx : Keeps (fun c => I c.machine.world) x) : Keeps (fun g => I g.world) (notifyCore x) :=
  Keeps.focus (Keeps.ignoringError (Keeps.bind hx fun _ => Keeps.pure _)) (fun _ hg => hg) fun _ _ hc => hc

variable {p : GatewayParts ω} (h : p.KeepsWorld I)
include h

theorem send_keeps (recipient : Guid) (data : Bytes) :
    Keeps (fun g => I g.world) (send p recipient data) :=
  notifyCore_keeps (Communicator.signal_keeps h.comm recipient data)

theorem dispatchDrivers_keeps : Keeps (fun g => I g.world) (dispatchDrivers p) :=
  notifyCore_keeps (Communicator.dispatchFrom_keeps h.comm _ _)

theorem hasHappened_keeps (source : EventSource) :
    Keeps (fun g => I g.world) (hasHappened p source) := by
  cases source with
  | group guid => exact Keeps.pure _
  | protocol guid => exact onWorld_keeps fun w hw => h.isInstalled guid w hw

theorem readyToLock_keeps (source : EventSource) :
    Keeps (fun g => I g.world) (readyToLock p source) := by
  refine Keeps.get_bind fun g => Keeps.ite (Keeps.pure _) ?_
  refine Keeps.bind (hasHappened_keeps h source) fun _ => Keeps.ite ?_ (Keeps.pure _)
  refine Keeps.bind (Keeps.ignoringError
    (onWorld_keeps (SmramAccess.lockWindow_keeps h.comm.access))) fun _ => ?_
  refine Keeps.bind (Keeps.modify fun _ hg => hg) fun _ => ?_
  exact Keeps.bind (send_keeps h _ _) fun _ => Keeps.modify fun _ hg => hg

theorem notify_keeps (entry : EventRule × Nat) : Keeps (fun g => I g.world) (notify p entry) := by
  refine Keeps.get_bind fun g => Keeps.ite ?_ (Keeps.pure _)
  cases entry.1.action with
  | readyToLock => exact readyToLock_keeps h _
  | forward => exact send_keeps h _ _
  | dispatch => exact dispatchDrivers_keeps h
  | goneVirtual => exact Keeps.modify fun _ hg => hg

theorem perform_keeps (op : GatewayOp) : Keeps (fun g => I g.world) (perform p op) := by
  cases op with
  | signal source =>
    exact Keeps.forM fun entry _ => Keeps.ite (notify_keeps h entry) (Keeps.pure _)
  | start hobs systemTable =>
    refine Keeps.ite (Keeps.fail _) (Keeps.bind (Keeps.modify fun _ hg => hg) fun _ => ?_)
    refine Keeps.bind (Keeps.forM fun entry _ => Keeps.ite (notify_keeps h entry) (Keeps.pure _))
      fun _ => ?_
    refine Keeps.bind (send_keeps h _ _) fun _ => ?_
    exact Keeps.bind (Keeps.forM fun _ _ => send_keeps h _ _) fun _ => dispatchDrivers_keeps h

end Gateway

end PlatformInit
