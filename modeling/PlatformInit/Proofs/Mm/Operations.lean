import PlatformInit.Proofs.Mm.Erasure
import PlatformInit.Proofs.Mm.Requests

/-!
The operations of a communicator, the calls that they make of the chipset and of the MM side, and
runs of operations between which other software is at work.
-/
set_option autoImplicit false
namespace PlatformInit

open Step (Follows)

inductive WindowCall where
  | reveal
  | hide
  | lock
  deriving DecidableEq

/-- A call that an operation makes, with what it found. -/
inductive CommCall (ω : Type) where
  | window (call : WindowCall) (world : ω)
  | execute (b : CommBuffer) (machine : Machine ω) (accepted : Bool)
  | manage (recipient : Guid) (area : Bytes) (length : UInt64) (machine : Machine ω)

section
variable {ω : Type}

/-- Whether a request reached a handler by the call. -/
def CommCall.delivered : CommCall ω → Bool
  | window .. => false
  | execute _ _ accepted => accepted
  | manage .. => true

def Machine.Delivered (m : Machine (Noted ω (CommCall ω))) : Prop :=
  ∃ call ∈ m.world.calls, call.delivered = true

def MmExecutor.noting (e : MmExecutor (Machine ω)) : MmExecutor (Machine (Noted ω (CommCall ω))) where
  execute b m :=
    match e.execute b m.bare with
    | .ok () after => .ok () (after.noted (.execute b m.bare true :: m.world.calls))
    | .error why after => .error why (after.noted (.execute b m.bare false :: m.world.calls))

def SmiManage.noting (d : SmiManage (Machine ω)) : SmiManage (Machine (Noted ω (CommCall ω))) where
  manage recipient area length m :=
    let (reply, after) := d.manage recipient area length m.bare
    (reply, after.noted (.manage recipient area length m.bare :: m.world.calls))

def CommParts.noting (p : CommParts ω) : CommParts (Noted ω (CommCall ω)) where
  core := p.core
  access := {
    reveal := Noted.call (.window .reveal) p.access.reveal
    hide := Noted.call (.window .hide) p.access.hide
    lock := Noted.call (.window .lock) p.access.lock
    isOpen n := p.access.isOpen n.world
    isLocked n := p.access.isLocked n.world }
  executor := p.executor.map MmExecutor.noting
  direct := p.direct.map SmiManage.noting
  patience := p.patience

structure CommParts.Mirrors {κ : Type} (q : CommParts (Noted ω κ)) (p : CommParts ω) : Prop where
  core : q.core = p.core
  patience : q.patience = p.patience
  access : q.access.Mirrors p.access
  executor : Option.Rel (fun e' e => ∀ b, Follows Machine.bare (e'.execute b) (e.execute b))
    q.executor p.executor
  direct : Option.Rel (fun d' d => ∀ recipient area length m, d.manage recipient area length m.bare =
    ((d'.manage recipient area length m).1, (d'.manage recipient area length m).2.bare))
    q.direct p.direct

theorem MmExecutor.noting_follows (e : MmExecutor (Machine ω)) (b : CommBuffer) :
    Follows Machine.bare (e.noting.execute b) (e.execute b) := by
  intro m
  change e.execute b m.bare = Step.mapState Machine.bare (match e.execute b m.bare with
    | .ok () after => .ok () (after.noted _)
    | .error why after => .error why (after.noted _))
  cases e.execute b m.bare <;> rfl

theorem CommParts.noting_mirrors (p : CommParts ω) : p.noting.Mirrors p where
  core := rfl
  patience := rfl
  access := {
    reveal := Noted.call_follows _ _
    hide := Noted.call_follows _ _
    lock := Noted.call_follows _ _
    isOpen _ := rfl
    isLocked _ := rfl }
  executor := by
    change Option.Rel _ (p.executor.map MmExecutor.noting) p.executor
    cases p.executor with
    | none => exact .none
    | some e => exact .some e.noting_follows
  direct := by
    change Option.Rel _ (p.direct.map SmiManage.noting) p.direct
    cases p.direct with
    | none => exact .none
    | some d => exact .some fun _ _ _ _ => rfl

end

inductive CommOp where
  | communicate (id : UInt8) (data : Bytes) (recipient : Guid)
  | raw (id : UInt8) (size : UInt64)
  | signal (recipient : Guid) (data : Bytes)
  | runDispatcher
  | goVirtual
  deriving DecidableEq

inductive CommAnswer where
  | reply (bytes : Bytes)
  | status (status : Status) (size : UInt64)
  | restarts (count : Nat)
  | done
  deriving DecidableEq

namespace Communicator
variable {ω κ ε α : Type}

def perform (p : CommParts ω) : CommOp → Step (Communicator ω) CommError CommAnswer
  | .communicate id data recipient => do return .reply (← communicate p id data recipient)
  | .raw id size => do
    let (status, size) ← Step.mapError Empty.elim (sendRaw p id size)
    return .status status size
  | .signal recipient data => do return .reply (← signal p recipient data)
  | .runDispatcher => do return .restarts (← runDispatcher p)
  | .goVirtual => do
    modify setGoneVirtual
    return .done

def bare (c : Communicator (Noted ω κ)) : Communicator ω := ⟨c.buffers, c.goneVirtual, c.machine.bare⟩

def noted (c : Communicator ω) (calls : List κ) : Communicator (Noted ω κ) :=
  ⟨c.buffers, c.goneVirtual, c.machine.noted calls⟩

/-- The calls that an operation makes, newest first. -/
def calls (p : CommParts ω) (op : CommOp) (c : Communicator ω) : List (CommCall ω) :=
  match perform p.noting op (c.noted []) with
  | .ok _ t => t.machine.world.calls
  | .error _ t => t.machine.world.calls

/-- The states that a communicator is in between operations, and the operations so far, newest first.
In the meantime other software may do anything to the machine but put a request into the mailbox or
take one out. -/
inductive Run (p : CommParts ω) (start : Communicator ω) : List CommOp → Communicator ω → Prop where
  | start : Run p start [] start
  | outside {ops : List CommOp} {c : Communicator ω} (h : Run p start ops c) (m : Machine ω)
      (hmailbox : (m.cores p.core).buffer = (c.machine.cores p.core).buffer) :
      Run p start ops { c with machine := m }
  | operation {ops : List CommOp} {c c' : Communicator ω} {op : CommOp} {r : Except CommError CommAnswer}
      (h : Run p start ops c) (hend : perform p op c = returned r c') : Run p start (op :: ops) c'

/-! Noting the calls changes nothing else. -/

theorem onMachine_follows {x : Step (Machine (Noted ω κ)) ε α} {y : Step (Machine ω) ε α}
    (h : Follows Machine.bare x y) : Follows bare (onMachine x) (onMachine y) :=
  Follows.focus (fun _ => rfl) (fun _ _ => rfl) h

section
variable {q : CommParts (Noted ω κ)} {p : CommParts ω} (h : q.Mirrors p)
include h

theorem sendByMmi_follows (b : CommBuffer) (size : UInt64) :
    Follows Machine.bare (sendByMmi q b size) (sendByMmi p b size) := by
  have hexecutor := h.executor
  unfold sendByMmi
  rw [h.core]
  generalize q.executor = executor', p.executor = executor at hexecutor ⊢
  cases hexecutor with
  | none => exact Follows.fail _
  | some hexecute =>
    refine Follows.bind (Follows.modify fun _ => rfl) fun _ =>
      Follows.bind (Follows.attempt (Follows.ofAttempt (hexecute b))) fun r => ?_
    cases r with
    | ok _ => exact Follows.get_bind fun _ => Follows.bind (Follows.modify fun _ => rfl) fun _ =>
        Follows.pure _
    | error _ => exact Follows.bind (Follows.modify fun _ => rfl) fun _ => Follows.fail _

theorem admits_bare (goneVirtual : Bool) (m : Machine (Noted ω κ)) :
    admits p goneVirtual m.bare = admits q goneVirtual m := by
  rw [admits, admits, h.core, h.access.isOpen, h.access.isLocked]
  rfl

theorem sendDirectly_follows {b : CommBuffer} {size : UInt64} (hsize : b.Holds size)
    (goneVirtual : Bool) : Follows Machine.bare (sendDirectly q b size goneVirtual)
      (sendDirectly p b size goneVirtual) := by
  intro m
  have hdirect := h.direct
  rw [sendDirectly_eq p hsize, sendDirectly_eq q hsize, admits_bare h]
  by_cases hadmits : admits q goneVirtual m = true
  · rw [if_pos hadmits, if_pos hadmits]
    generalize q.direct = direct', p.direct = direct at hdirect ⊢
    cases hdirect with
    | none => rfl
    | @some d' d hmanage =>
      have hdispatched (header : CommHeader) : dispatched p d b size header m.bare =
          ((dispatched q d' b size header m).1, (dispatched q d' b size header m).2.bare) := by
        have hentered : m.bare.updateCore p.core (fun r => { r with inMm := true }) =
            (m.updateCore q.core fun r => { r with inMm := true }).bare := by
          rw [h.core]
          rfl
        rw [dispatched, hentered, hmanage]
        rfl
      have hmemory : m.bare.memory = m.memory := rfl
      dsimp only
      rw [hmemory, hdispatched, h.core]
      dsimp only
      split <;> rfl
  · rw [if_neg hadmits, if_neg hadmits]
    rfl

theorem usesMailbox_bare (m : Machine (Noted ω κ)) : usesMailbox p m.bare = usesMailbox q m := by
  rw [usesMailbox, usesMailbox, h.core]
  rfl

theorem send_follows (b : CommBuffer) (size : UInt64) : Follows bare (send q b size) (send p b size) := by
  intro c
  have hmachine : c.bare.machine = c.machine.bare := rfl
  rw [send_eq, send_eq, hmachine, usesMailbox_bare h]
  by_cases hsize : b.Holds size
  · rw [if_pos hsize, if_pos hsize]
    by_cases hmailbox : usesMailbox q c.machine = true
    · rw [if_pos hmailbox, if_pos hmailbox]
      exact onMachine_follows (sendByMmi_follows h b size) c
    · rw [if_neg hmailbox, if_neg hmailbox]
      exact onMachine_follows (sendDirectly_follows h hsize c.goneVirtual) c
  · rw [if_neg hsize, if_neg hsize]
    rfl

theorem sendRaw_follows (id : UInt8) (size : UInt64) :
    Follows bare (sendRaw q id size) (sendRaw p id size) := by
  refine Follows.get_bind fun c => ?_
  have hbuffer : c.bare.buffer? id = c.buffer? id := rfl
  rw [hbuffer]
  cases c.buffer? id with
  | none => exact Follows.pure _
  | some b =>
    refine Follows.bind (Follows.attempt (send_follows h b size)) fun r => ?_
    cases r with
    | ok _ => exact Follows.pure _
    | error e => cases e <;> exact Follows.pure _

theorem able_of_mirrors : q.able = p.able := by
  have hexecutor := h.executor
  have hdirect := h.direct
  rw [CommParts.able, CommParts.able]
  generalize q.executor = executor', p.executor = executor at hexecutor ⊢
  generalize q.direct = direct', p.direct = direct at hdirect ⊢
  cases hexecutor <;> cases hdirect <;> rfl

theorem communicate_follows (id : UInt8) (data : Bytes) (recipient : Guid) :
    Follows bare (communicate q id data recipient) (communicate p id data recipient) := by
  intro c
  have hbuffers : c.bare.buffers = c.buffers := rfl
  rw [communicate_eq, communicate_eq, able_of_mirrors h, hbuffers]
  cases prepare p.able c.buffers id data with
  | error e => rfl
  | ok b =>
    have hrequest : c.bare.request b recipient data = (c.request b recipient data).bare := rfl
    dsimp only
    rw [hrequest, send_follows h]
    cases send q (b.filled recipient data) (.ofNat (CommHeader.size + data.length))
      (c.request b recipient data) with
    | error e t => rfl
    | ok answer t =>
      change returned (interpret (b.filled recipient data) t.machine.memory answer) t.bare =
        Step.mapState bare (returned (interpret (b.filled recipient data) t.machine.memory answer) t)
      cases interpret (b.filled recipient data) t.machine.memory answer <;> rfl

theorem signal_follows (recipient : Guid) (data : Bytes) :
    Follows bare (signal q recipient data) (signal p recipient data) := by
  refine Follows.get_bind fun c => ?_
  have hbuffers : c.bare.buffers = c.buffers := rfl
  rw [hbuffers]
  cases c.buffers.head? with
  | none => exact Follows.fail _
  | some b => exact communicate_follows h b.id data recipient

theorem dispatchFrom_follows (patience : Nat) (restarts : Nat) :
    Follows bare (dispatchFrom q restarts patience) (dispatchFrom p restarts patience) := by
  induction patience generalizing restarts with
  | zero => exact fun _ => rfl
  | succ patience ih =>
    refine Follows.bind (signal_follows h _ _) fun _ => Follows.ite ?_ (Follows.pure _)
    exact Follows.bind (Follows.ignoringError (onMachine_follows (Follows.focus (fun _ => rfl)
      (fun _ _ => rfl) (SmramAccess.closeWindow_follows h.access)))) fun _ => ih _

theorem runDispatcher_follows : Follows bare (runDispatcher q) (runDispatcher p) := by
  rw [runDispatcher, runDispatcher, h.patience]
  exact dispatchFrom_follows h _ _

theorem perform_follows (op : CommOp) : Follows bare (perform q op) (perform p op) := by
  cases op with
  | communicate id data recipient =>
    exact Follows.bind (communicate_follows h id data recipient) fun _ => Follows.pure _
  | raw id size =>
    exact Follows.bind (Follows.mapError _ (sendRaw_follows h id size)) fun _ => Follows.pure _
  | signal recipient data => exact Follows.bind (signal_follows h recipient data) fun _ => Follows.pure _
  | runDispatcher => exact Follows.bind (runDispatcher_follows h) fun _ => Follows.pure _
  | goVirtual => exact Follows.bind (Follows.modify fun _ => rfl) fun _ => Follows.pure _

end

end Communicator
end PlatformInit
