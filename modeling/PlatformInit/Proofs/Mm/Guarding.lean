import PlatformInit.Proofs.Contract
import PlatformInit.Proofs.Mm.Operations

/-!
Who may run handlers, and what is left behind.

The dispatcher is asked from inside of MM or while SMRAM is accessible, the core is called from
outside of MM once it is registered, and the record is as before when an operation is over. What
`Guarded` says of the ends of an operation is put together from its requests.
-/
set_option autoImplicit false
namespace PlatformInit

open Step (Ends Keeps Returns)

/-- The executor does not change whether the core is in MM. -/
def CommParts.KeepsMode {ω : Type} (p : CommParts ω) : Prop :=
  ∀ e, p.executor = some e → ∀ b m, Ends (e.execute b) m fun _ after =>
    (after.cores p.core).inMm = (m.cores p.core).inMm

/-- The dispatcher does not leave a request of its own in the mailbox. -/
def CommParts.KeepsMailbox {ω : Type} (p : CommParts ω) : Prop :=
  ∀ d, p.direct = some d → ∀ recipient area length (m : Machine ω),
    (m.cores p.core).buffer = 0 → ((d.manage recipient area length m).2.cores p.core).buffer = 0

def CommBuffer.vacant (b : CommBuffer) : CommBuffer := .new b.address b.id b.length

def CommOp.target? (buffers : List CommBuffer) : CommOp → Option CommBuffer
  | .communicate id _ _ => buffers.find? (·.id = id)
  | .raw id _ => buffers.find? (·.id = id)
  | .signal .. => buffers.head?
  | .runDispatcher => buffers.head?
  | .goVirtual => none

def CommOp.requestSize : CommOp → UInt64
  | .communicate _ data _ => .ofNat (CommHeader.size + data.length)
  | .raw _ size => size
  | .signal _ data => .ofNat (CommHeader.size + data.length)
  | .runDispatcher => .ofNat (CommHeader.size + 1)
  | .goVirtual => 0

namespace Communicator
variable {ω κ ε α β : Type}

/-- The calls that are allowed for requests of a size in a buffer, when the core was in MM or not
before and the firmware uses virtual addresses or not. -/
def Permitted (p : CommParts ω) (inMm goneVirtual : Bool) (target : Option CommBuffer) (size : UInt64) :
    CommCall ω → Prop
  | .window .. => True
  | .execute b m _ =>
    inMm = false ∧ (m.cores p.core).inMm = false ∧ (m.cores p.core).registered = true ∧
      target = some b.vacant ∧ (m.cores p.core).buffer = b.address ∧
      (m.cores p.core).bufferSize = size ∧ (m.cores p.core).status = Status.success
  | .manage _ _ _ m =>
    goneVirtual = false ∧
      (inMm = true ∨ p.access.isOpen m.world = true ∧ p.access.isLocked m.world = false) ∧
      ¬(inMm = false ∧ (m.cores p.core).registered = true) ∧ (m.cores p.core).inMm = true

structure Kept (p : CommParts ω) (c t : Communicator κ) : Prop where
  inMm : (t.machine.cores p.core).inMm = (c.machine.cores p.core).inMm
  mailbox : p.KeepsMailbox → (c.machine.cores p.core).buffer = 0 → (t.machine.cores p.core).buffer = 0
  goneVirtual : t.goneVirtual = c.goneVirtual
  buffers : t.buffers.map CommBuffer.vacant = c.buffers.map CommBuffer.vacant

theorem Kept.refl (p : CommParts ω) (c : Communicator κ) : Kept p c c := ⟨rfl, fun _ => id, rfl, rfl⟩

theorem Kept.trans {p : CommParts ω} {c t u : Communicator κ} (h : Kept p c t) (h' : Kept p t u) :
    Kept p c u :=
  ⟨h'.inMm.trans h.inMm, fun hp hzero => h'.mailbox hp (h.mailbox hp hzero),
    h'.goneVirtual.trans h.goneVirtual, h'.buffers.trans h.buffers⟩

/-- How an operation ends: its calls are allowed, and unless the machine stops it leaves things as
they were. -/
def Guarded (P : CommCall ω → Prop) (p : CommParts ω) (c : Communicator (Noted ω (CommCall ω)))
    (r : Except (Fault ε) α) (t : Communicator (Noted ω (CommCall ω))) : Prop :=
  t.machine.All P ∧ (Returns r → Kept p c t)

section
variable {P : CommCall ω → Prop} {p : CommParts ω} {c t : Communicator (Noted ω (CommCall ω))}

theorem Guarded.refl {r : Except (Fault ε) α} (hc : c.machine.All P) : Guarded P p c r c :=
  ⟨hc, fun _ => Kept.refl p c⟩

theorem Guarded.after {r : Except (Fault ε) α} {u : Communicator (Noted ω (CommCall ω))}
    (hkept : Kept p c t) (h : Guarded P p t r u) : Guarded P p c r u :=
  ⟨h.1, fun hr => hkept.trans (h.2 hr)⟩

theorem guarded_bind {x : Step (Communicator (Noted ω (CommCall ω))) ε α}
    {f : α → Step (Communicator (Noted ω (CommCall ω))) ε β} (hx : Ends x c (Guarded P p c))
    (hf : ∀ a t, Kept p c t → t.machine.All P → Ends (f a) t (Guarded P p t)) :
    Ends (x >>= f) c (Guarded P p c) := by
  refine hx.bind (fun a t ht => ?_) fun e t ht => ?_
  · exact (hf a t (ht.2 trivial) ht.1).mono fun _ _ h => h.after (ht.2 trivial)
  · cases e with
    | error e => exact ht
    | halt why => exact ht

end

theorem putBuffer_vacant {b b' : CommBuffer} {buffers : List CommBuffer}
    (hfind : buffers.find? (·.id = b.id) = some b) (hvacant : b'.vacant = b.vacant) :
    (putBuffer b' buffers).map CommBuffer.vacant = buffers.map CommBuffer.vacant := by
  have hid : b'.id = b.id := show b'.vacant.id = b.vacant.id from congrArg CommBuffer.id hvacant
  induction buffers with
  | nil => cases hfind
  | cons a rest ih =>
    rw [putBuffer, hid]
    rw [List.find?_cons] at hfind
    by_cases ha : a.id = b.id
    · rw [decide_eq_true ha] at hfind
      cases hfind
      rw [if_pos rfl, List.map_cons, List.map_cons, hvacant]
    · rw [decide_eq_false ha] at hfind
      rw [if_neg ha, List.map_cons, List.map_cons, ih hfind]

structure Sent (P : CommCall ω → Prop) (p : CommParts ω) (m : Machine (Noted ω (CommCall ω)))
    (r : Except (Fault ε) α) (t : Machine (Noted ω (CommCall ω))) : Prop where
  allowed : t.All P
  inMm : Returns r → (t.cores p.core).inMm = (m.cores p.core).inMm
  mailbox : Returns r → p.KeepsMailbox → (m.cores p.core).buffer = 0 → (t.cores p.core).buffer = 0
  answered : ∀ a, r = .ok a → t.Delivered

theorem Sent.refused {P : CommCall ω → Prop} {m : Machine (Noted ω (CommCall ω))} (hm : m.All P)
    (p : CommParts ω) (e : Fault ε) : Sent P p m (.error e : Except (Fault ε) α) m :=
  ⟨hm, fun _ => rfl, fun _ _ => id, nofun⟩

section
variable {p : CommParts ω} (hp : p.KeepsMode)
include hp

theorem sendByMmi_ends {P : CommCall ω → Prop} {b : CommBuffer} {size : UInt64}
    {m : Machine (Noted ω (CommCall ω))} (hm : m.All P)
    (hexecute : ∀ accepted,
      P (.execute b (m.bare.updateCore p.core (·.post b.address size)) accepted)) :
    Ends (sendByMmi p.noting b size) m (Sent P p m) := by
  let posted := m.bare.updateCore p.core (·.post b.address size)
  have hposted : posted.cores p.core = (m.cores p.core).post b.address size :=
    Machine.cores_updateCore ..
  have hcleared (after : Machine ω) (accepted : Bool) (r : Except (Fault CommError) (Status × UInt64))
      (hinMm : (after.cores p.core).inMm = (posted.cores p.core).inMm)
      (hanswered : ∀ a, r = .ok a → accepted = true) :
      Sent P p m r
        ((after.noted (.execute b posted accepted :: m.world.calls)).updateCore p.core (·.clear)) := by
    rw [hposted] at hinMm
    refine ⟨List.forall_mem_cons.mpr ⟨hexecute accepted, hm⟩, fun _ => ?_, fun _ _ _ => ?_,
      fun a ha => ?_⟩
    · rw [Machine.cores_updateCore]
      exact hinMm
    · rw [Machine.cores_updateCore]
      rfl
    · exact ⟨_, List.mem_cons_self, hanswered a ha⟩
  have hnoting : p.noting.executor = p.executor.map MmExecutor.noting := rfl
  unfold Ends
  rw [sendByMmi_eq, hnoting]
  cases hexecutor : p.executor with
  | none => exact Sent.refused hm p _
  | some e =>
    have hends := hp e hexecutor b posted
    have hbare : (m.updateCore p.core (·.post b.address size)).bare = posted := rfl
    rw [Option.map_some]
    dsimp only [MmExecutor.noting, CommParts.noting]
    rw [hbare]
    cases hexecute : e.execute b posted with
    | ok _ after => exact hcleared after true _ (hends.of_ok hexecute) fun _ _ => rfl
    | error why after => exact hcleared after false _ (hends.of_error hexecute) nofun

omit hp in
theorem sendDirectly_ends {P : CommCall ω → Prop} {b : CommBuffer} {size : UInt64}
    (hsize : b.Holds size) {goneVirtual : Bool} {m : Machine (Noted ω (CommCall ω))} (hm : m.All P)
    (hmanage : admits p goneVirtual m.bare = true → ∀ recipient area length,
      P (.manage recipient area length (m.bare.updateCore p.core fun r => { r with inMm := true }))) :
    Ends (sendDirectly p.noting b size goneVirtual) m (Sent P p m) := by
  have hsame : admits p.noting goneVirtual m = admits p goneVirtual m.bare := rfl
  have hnoting : p.noting.direct = p.direct.map SmiManage.noting := rfl
  unfold Ends
  rw [sendDirectly_eq p.noting hsize, hsame, hnoting, show p.noting.core = p.core from rfl]
  by_cases hadmits : admits p goneVirtual m.bare = true
  · rw [if_pos hadmits]
    cases hdirect : p.direct with
    | none => exact Sent.refused hm p _
    | some d =>
      let header := CommHeader.decode (b.bytes m.memory)
      have hallowed : (dispatched p.noting d.noting b size header m).2.All P :=
        List.forall_mem_cons.mpr ⟨hmanage hadmits _ _ _, hm⟩
      have hmailbox : p.KeepsMailbox → (m.cores p.core).buffer = 0 →
          ((dispatched p.noting d.noting b size header m).2.cores p.core).buffer = 0 := by
        intro hkeeps hzero
        refine hkeeps d hdirect _ _ _
          (m.bare.updateCore p.core fun r => { r with inMm := true }) ?_
        rw [Machine.cores_updateCore]
        exact hzero
      rw [Option.map_some]
      dsimp only
      by_cases hfits : (dispatched p.noting d.noting b size header m).1.size.toNat + CommHeader.size <
          UInt64.size
      · rw [if_pos hfits]
        refine ⟨hallowed, fun _ => ?_, fun _ hkeeps hzero => ?_,
          fun _ _ => ⟨_, List.mem_cons_self, rfl⟩⟩
        · rw [Machine.cores_updateCore]
        · rw [Machine.cores_updateCore]
          exact hmailbox hkeeps hzero
      · rw [if_neg hfits]
        exact ⟨hallowed, False.elim, False.elim, nofun⟩
  · rw [if_neg hadmits]
    exact Sent.refused hm p _

theorem send_ends {b : CommBuffer} {size : UInt64} {c : Communicator (Noted ω (CommCall ω))}
    (hc : c.machine.All
      (Permitted p (c.machine.cores p.core).inMm c.goneVirtual (some b.vacant) size)) :
    Ends (send p.noting b size) c fun r t =>
      Guarded (Permitted p (c.machine.cores p.core).inMm c.goneVirtual (some b.vacant) size) p c r
        t ∧ ∀ answer, r = .ok answer → t.machine.Delivered := by
  have hroute : usesMailbox p.noting c.machine = usesMailbox p c.machine.bare := rfl
  have hsend := send_eq p.noting b size c
  rw [hroute] at hsend
  by_cases hsize : b.Holds size
  · rw [if_pos hsize] at hsend
    by_cases hmailbox : usesMailbox p c.machine.bare = true
    · rw [if_pos hmailbox] at hsend
      obtain ⟨houtside, hregistered⟩ := usesMailbox_iff.mp hmailbox
      refine Ends.congr hsend (Ends.focus ((sendByMmi_ends hp hc fun accepted => ?_).mono fun _ _ hm =>
        ⟨⟨hm.allowed, fun hr => ⟨hm.inMm hr, hm.mailbox hr, rfl, rfl⟩⟩, hm.answered⟩))
      have hposted := Machine.cores_updateCore c.machine.bare p.core (·.post b.address size)
      rw [Permitted, hposted]
      exact ⟨houtside, houtside, hregistered, rfl, rfl, rfl, rfl⟩
    · rw [if_neg hmailbox] at hsend
      refine Ends.congr hsend (Ends.focus
        ((sendDirectly_ends hsize hc fun hadmits _ _ _ => ?_).mono fun _ _ hm =>
          ⟨⟨hm.allowed, fun hr => ⟨hm.inMm hr, hm.mailbox hr, rfl, rfl⟩⟩, hm.answered⟩))
      have hentered := Machine.cores_updateCore c.machine.bare p.core fun r => { r with inMm := true }
      obtain ⟨hphysical, haccessible⟩ := admits_iff.mp hadmits
      rw [Permitted, hentered]
      exact ⟨hphysical, haccessible, fun hroute => hmailbox (usesMailbox_iff.mpr hroute), rfl⟩
  · rw [if_neg hsize] at hsend
    unfold Ends
    rw [hsend]
    exact ⟨Guarded.refl hc, nofun⟩

variable {target : Option CommBuffer} {c : Communicator (Noted ω (CommCall ω))}

theorem sendRaw_ends {id : UInt8} {size : UInt64}
    (htarget : ∀ b, c.buffers.find? (·.id = id) = some b → target = some b.vacant)
    (hc : c.machine.All (Permitted p (c.machine.cores p.core).inMm c.goneVirtual target size)) :
    Ends (sendRaw p.noting id size) c fun r t =>
      Guarded (Permitted p (c.machine.cores p.core).inMm c.goneVirtual target size) p c r t ∧
        ∀ answer, r = .ok answer → answer.2 = size ∨ t.machine.Delivered := by
  unfold Ends
  rw [sendRaw_eq]
  cases hfind : c.buffers.find? (·.id = id) with
  | none =>
    refine ⟨Guarded.refl hc, fun answer hanswer => Or.inl ?_⟩
    cases hanswer
    rfl
  | some b =>
    obtain rfl := htarget b hfind
    have hsend := send_ends hp hc
    dsimp only
    cases hend : send p.noting b size c with
    | ok answer t =>
      obtain ⟨ht, hdelivered⟩ := hsend.of_ok hend
      exact ⟨ht, fun _ _ => Or.inr (hdelivered answer rfl)⟩
    | error e t =>
      obtain ⟨ht, -⟩ := hsend.of_error hend
      cases e with
      | error e =>
        refine ⟨⟨ht.1, fun _ => ht.2 trivial⟩, fun answer hanswer => Or.inl ?_⟩
        cases hanswer
        rfl
      | halt why => exact ⟨⟨ht.1, False.elim⟩, nofun⟩

theorem communicate_ends {id : UInt8} {data : Bytes} (recipient : Guid)
    (htarget : ∀ b, c.buffers.find? (·.id = id) = some b → target = some b.vacant)
    (hc : c.machine.All (Permitted p (c.machine.cores p.core).inMm c.goneVirtual target
      (.ofNat (CommHeader.size + data.length)))) :
    Ends (communicate p.noting id data recipient) c (Guarded
      (Permitted p (c.machine.cores p.core).inMm c.goneVirtual target
        (.ofNat (CommHeader.size + data.length))) p c) := by
  unfold Ends
  rw [communicate_eq]
  cases hprepare : prepare p.noting.able c.buffers id data with
  | error e => exact Guarded.refl hc
  | ok b =>
    obtain ⟨hfind, -⟩ := prepare_eq_ok hprepare
    have hfound := List.find?_some hfind
    have hid : b.id = id := of_decide_eq_true hfound
    obtain rfl := htarget b hfind
    subst hid
    have hfilled : Kept p c (c.request b recipient data) :=
      ⟨rfl, fun _ => id, rfl, putBuffer_vacant hfind rfl⟩
    have hsend := send_ends hp (b := b.filled recipient data) (c := c.request b recipient data) hc
    dsimp only
    cases hend : send p.noting (b.filled recipient data) (.ofNat (CommHeader.size + data.length))
      (c.request b recipient data) with
    | error e t =>
      have ht := Guarded.after hfilled (hsend.of_error hend).1
      cases e with
      | error e => exact ht
      | halt why => exact ht
    | ok answer t =>
      have ht := Guarded.after hfilled (hsend.of_ok hend).1
      dsimp only
      cases interpret (b.filled recipient data) t.machine.memory answer with
      | ok _ => exact ⟨ht.1, fun _ => ht.2 trivial⟩
      | error _ => exact ⟨ht.1, fun _ => ht.2 trivial⟩

theorem signal_ends {data : Bytes} (recipient : Guid)
    (htarget : target = c.buffers.head?.map CommBuffer.vacant)
    (hc : c.machine.All (Permitted p (c.machine.cores p.core).inMm c.goneVirtual target
      (.ofNat (CommHeader.size + data.length)))) :
    Ends (signal p.noting recipient data) c (Guarded
      (Permitted p (c.machine.cores p.core).inMm c.goneVirtual target
        (.ofNat (CommHeader.size + data.length))) p c) := by
  refine Ends.get_bind ?_
  cases hbuffers : c.buffers with
  | nil => exact Guarded.refl hc
  | cons b rest =>
    rw [hbuffers] at htarget
    refine communicate_ends hp recipient (fun b' hfind => ?_) hc
    rw [hbuffers, List.find?_cons, decide_eq_true rfl, Option.some.injEq] at hfind
    rw [htarget, ← hfind]
    rfl

omit hp in
theorem closeWindow_ends {P : CommCall ω → Prop} (hwindow : ∀ call world, P (.window call world))
    (p : CommParts ω) (hc : c.machine.All P) :
    Ends (Step.ignoringError (onMachine (Machine.onWorld p.noting.access.closeWindow)) :
      Step _ ε Unit) c (Guarded P p c) := by
  have hclose : Keeps (Noted.All P) p.noting.access.closeWindow := by
    intro n hn
    refine Ends.get_bind ?_
    split
    · exact hn
    · exact Keeps.ofAttempt (Noted.call_keeps (hwindow .hide) _) n hn
  refine Ends.bind (R := fun _ t => t.machine.All P ∧ Kept p c t) ?_
    (fun _ t ht => ⟨ht.1, fun _ => ht.2⟩) fun _ t ht => ⟨ht.1, fun _ => ht.2⟩
  exact Ends.attempt (Ends.focus (Ends.focus ((hclose _ hc).mono
    fun _ _ hn => ⟨hn, rfl, fun _ => id, rfl, rfl⟩)))

theorem dispatchFrom_ends (patience : Nat) (restarts : Nat)
    (htarget : target = c.buffers.head?.map CommBuffer.vacant)
    (hc : c.machine.All (Permitted p (c.machine.cores p.core).inMm c.goneVirtual target
      (.ofNat (CommHeader.size + 1)))) :
    Ends (dispatchFrom p.noting restarts patience) c (Guarded
      (Permitted p (c.machine.cores p.core).inMm c.goneVirtual target
        (.ofNat (CommHeader.size + 1))) p c) := by
  induction patience generalizing restarts c with
  | zero => exact ⟨hc, False.elim⟩
  | succ patience ih =>
    refine guarded_bind (signal_ends hp Guid.driverDispatch htarget hc) fun answer t hkept ht => ?_
    split
    · refine guarded_bind (closeWindow_ends (fun _ _ => trivial) p ht) fun _ u hkept' hu => ?_
      have hsame := hkept.trans hkept'
      rw [← hsame.inMm, ← hsame.goneVirtual] at hu ⊢
      refine ih (restarts + 1) ?_ hu
      rw [htarget, ← List.head?_map, ← hsame.buffers, List.head?_map]
    · exact Guarded.refl ht

/-- The calls that are allowed for an operation from a state. -/
def OpPermitted (p : CommParts ω) (op : CommOp) (c : Communicator ω) : CommCall ω → Prop :=
  Permitted p (c.machine.cores p.core).inMm c.goneVirtual ((op.target? c.buffers).map CommBuffer.vacant)
    op.requestSize

theorem perform_ends {op : CommOp} (hop : op ≠ .goVirtual)
    (hc : c.machine.All (OpPermitted p op c.bare)) :
    Ends (perform p.noting op) c (Guarded (OpPermitted p op c.bare) p c) := by
  cases op with
  | communicate id data recipient =>
    refine guarded_bind (communicate_ends hp recipient ?_ hc) fun _ _ _ ht => Guarded.refl ht
    intro b hfind
    exact congrArg (Option.map CommBuffer.vacant) hfind
  | raw id size =>
    have hraw := sendRaw_ends hp
      (fun b hfind => congrArg (Option.map CommBuffer.vacant) hfind) hc
    refine guarded_bind (Ends.mapError (hraw.mono fun r t ht => ?_)) fun _ _ _ ht => Guarded.refl ht
    cases r with
    | ok _ => exact ht.1
    | error e => cases e <;> exact ht.1
  | signal recipient data =>
    exact guarded_bind (signal_ends hp recipient rfl hc) fun _ _ _ ht => Guarded.refl ht
  | runDispatcher =>
    exact guarded_bind (dispatchFrom_ends hp p.patience 0 rfl hc) fun _ _ _ ht => Guarded.refl ht
  | goVirtual => exact absurd rfl hop

theorem raw_ends {id : UInt8} {size : UInt64} (hc : c.machine.All (OpPermitted p (.raw id size) c.bare)) :
    Ends (perform p.noting (.raw id size)) c fun r t => Returns r →
      ∃ status size', r = .ok (.status status size') ∧ (size' = size ∨ t.machine.Delivered) := by
  have hraw := sendRaw_ends hp
    (fun b hfind => congrArg (Option.map CommBuffer.vacant) hfind) hc
  refine Ends.bind (R := fun r t => (∀ e, r ≠ .error (.error e)) ∧
    ∀ answer, r = .ok answer → answer.2 = size ∨ t.machine.Delivered)
    (Ends.mapError (hraw.mono fun r t ht => ?_)) (fun answer t ht _ => ?_) fun e t ht hr => ?_
  · cases r with
    | ok reply =>
      refine ⟨nofun, fun answer hanswer => ?_⟩
      cases hanswer
      exact ht.2 reply rfl
    | error e =>
      cases e with
      | error e => exact e.elim
      | halt why => exact ⟨nofun, nofun⟩
  · exact ⟨answer.1, answer.2, rfl, ht.2 answer rfl⟩
  · cases e with
    | error e => exact absurd rfl (ht.1 e)
    | halt why => exact hr.elim

end

end Communicator
end PlatformInit
