import PlatformInit.Proofs.Mm.Operations

/-!
The one call that a request makes of the MM side.

`requestCall?` says from the state alone which call it is, if there is one. Whatever notes are taken
of calls, those of a request are the notes of this call.
-/
set_option autoImplicit false
namespace PlatformInit

/-- The parts `q` make the choices of the parts `p`, and note each call of the MM side by `note`. -/
structure CommParts.Notes {ω κ : Type} (q : CommParts (Noted ω κ)) (p : CommParts ω)
    (note : CommCall ω → List κ) : Prop where
  core : q.core = p.core
  isOpen : ∀ n, q.access.isOpen n = p.access.isOpen n.world
  isLocked : ∀ n, q.access.isLocked n = p.access.isLocked n.world
  executor : Option.Rel (fun e' e => ∀ b m, (Step.after (e'.execute b) m).world.calls =
    note (.execute b m.bare (Step.succeeds (e.execute b) m.bare)) ++ m.world.calls) q.executor p.executor
  direct : Option.Rel (fun d' _ => ∀ recipient area length m,
    (d'.manage recipient area length m).2.world.calls =
      note (.manage recipient area length m.bare) ++ m.world.calls) q.direct p.direct

namespace Communicator
variable {ω κ : Type}

def mailboxCall? (p : CommParts ω) (b : CommBuffer) (size : UInt64) (m : Machine ω) :
    Option (CommCall ω) :=
  let posted := m.updateCore p.core (·.post b.address size)
  p.executor.map fun e => .execute b posted (Step.succeeds (e.execute b) posted)

def directCall? (p : CommParts ω) (b : CommBuffer) (size : UInt64) (goneVirtual : Bool)
    (m : Machine ω) : Option (CommCall ω) :=
  if admits p goneVirtual m then
    p.direct.map fun _ => .manage (CommHeader.decode (b.bytes m.memory)).recipient
      (b.message m.memory b.capacity) (size - .ofNat CommHeader.size)
      (m.updateCore p.core fun r => { r with inMm := true })
  else none

def sendCall? (p : CommParts ω) (b : CommBuffer) (size : UInt64) (c : Communicator ω) :
    Option (CommCall ω) :=
  if b.Holds size then
    if usesMailbox p c.machine then mailboxCall? p b size c.machine
    else directCall? p b size c.goneVirtual c.machine
  else none

theorem sendCall?_cases {p : CommParts ω} {b : CommBuffer} {size : UInt64} {c : Communicator ω}
    {call : CommCall ω} (h : sendCall? p b size c = some call) :
    (∃ accepted,
      call = .execute b (c.machine.updateCore p.core (·.post b.address size)) accepted) ∨
    call = .manage (CommHeader.decode (b.bytes c.machine.memory)).recipient
      (b.message c.machine.memory b.capacity) (size - .ofNat CommHeader.size)
      (c.machine.updateCore p.core fun r => { r with inMm := true }) := by
  rw [sendCall?] at h
  split at h
  · split at h
    · rw [mailboxCall?, Option.map_eq_some_iff] at h
      obtain ⟨e, -, rfl⟩ := h
      exact .inl ⟨_, rfl⟩
    · rw [directCall?] at h
      split at h
      · rw [Option.map_eq_some_iff] at h
        obtain ⟨d, -, rfl⟩ := h
        exact .inr rfl
      · cases h
  · cases h

/-- The call by which a request reaches the MM side, once it is in its buffer. -/
def requestCall? (p : CommParts ω) (id : UInt8) (data : Bytes) (recipient : Guid)
    (c : Communicator ω) : Option (CommCall ω) :=
  match prepare p.able c.buffers id data with
  | .error _ => none
  | .ok b => sendCall? p (b.filled recipient data) (.ofNat (CommHeader.size + data.length))
      (c.request b recipient data)

theorem noting_notes (p : CommParts ω) : p.noting.Notes p fun call => [call] where
  core := rfl
  isOpen _ := rfl
  isLocked _ := rfl
  executor := by
    change Option.Rel _ (p.executor.map MmExecutor.noting) p.executor
    cases p.executor with
    | none => exact .none
    | some e =>
      refine .some fun b m => ?_
      unfold Step.after Step.succeeds
      dsimp only [MmExecutor.noting]
      cases e.execute b m.bare <;> rfl
  direct := by
    change Option.Rel _ (p.direct.map SmiManage.noting) p.direct
    cases p.direct with
    | none => exact .none
    | some d => exact .some fun _ _ _ _ => rfl

theorem machine_after_onMachine {ε α : Type} (x : Step (Machine ω) ε α) (c : Communicator ω) :
    (Step.after (onMachine x) c).machine = Step.after x c.machine :=
  congrArg machine (Step.after_focus machine (fun m c => { c with machine := m }) x c)

variable {q : CommParts (Noted ω κ)} {p : CommParts ω} {note : CommCall ω → List κ}
  (h : q.Notes p note)
include h

theorem sendByMmi_notes (b : CommBuffer) (size : UInt64) (m : Machine (Noted ω κ)) :
    (Step.after (sendByMmi q b size) m).world.calls =
      (mailboxCall? p b size m.bare).toList.flatMap note ++ m.world.calls := by
  have hexecutor := h.executor
  unfold Step.after
  rw [mailboxCall?, sendByMmi_eq, h.core]
  generalize q.executor = executor', p.executor = executor at hexecutor ⊢
  cases hexecutor with
  | none => rfl
  | @some e' e hnotes =>
    have hcalls := hnotes b (m.updateCore p.core (·.post b.address size))
    unfold Step.after at hcalls
    rw [Option.map_some, Option.toList_some, List.flatMap_singleton]
    dsimp only
    cases hexecute : e'.execute b (m.updateCore p.core (·.post b.address size)) with
    | ok _ after =>
      rw [hexecute] at hcalls
      exact hcalls
    | error _ after =>
      rw [hexecute] at hcalls
      exact hcalls

theorem sendDirectly_notes {b : CommBuffer} {size : UInt64} (hsize : b.Holds size) (goneVirtual : Bool)
    (m : Machine (Noted ω κ)) :
    (Step.after (sendDirectly q b size goneVirtual) m).world.calls =
      (directCall? p b size goneVirtual m.bare).toList.flatMap note ++ m.world.calls := by
  have hdirect := h.direct
  have hsame : admits q goneVirtual m = admits p goneVirtual m.bare := by
    rw [admits, admits, h.core, h.isOpen, h.isLocked]
    rfl
  unfold Step.after
  rw [directCall?, sendDirectly_eq q hsize, hsame]
  by_cases hadmits : admits p goneVirtual m.bare = true
  · rw [if_pos hadmits, if_pos hadmits]
    generalize q.direct = direct', p.direct = direct at hdirect ⊢
    cases hdirect with
    | none => rfl
    | @some d' _ hnotes =>
      have hcalls : (dispatched q d' b size (.decode (b.bytes m.memory)) m).2.world.calls =
          note (.manage (CommHeader.decode (b.bytes m.memory)).recipient
            (b.message m.memory b.capacity) (size - .ofNat CommHeader.size)
            (m.bare.updateCore p.core fun r => { r with inMm := true })) ++ m.world.calls := by
        rw [← h.core]
        exact hnotes _ _ _ _
      rw [Option.map_some, Option.toList_some, List.flatMap_singleton]
      refine Eq.trans ?_ hcalls
      dsimp only
      by_cases hfits : (dispatched q d' b size (.decode (b.bytes m.memory)) m).1.size.toNat +
          CommHeader.size < UInt64.size
      · rw [if_pos hfits]
        rfl
      · rw [if_neg hfits]
  · rw [if_neg hadmits, if_neg hadmits]
    rfl

theorem send_notes (b : CommBuffer) (size : UInt64) (c : Communicator (Noted ω κ)) :
    (Step.after (send q b size) c).machine.world.calls =
      (sendCall? p b size c.bare).toList.flatMap note ++ c.machine.world.calls := by
  have hroute : usesMailbox q c.machine = usesMailbox p c.bare.machine := by
    rw [usesMailbox, usesMailbox, h.core]
    rfl
  have hsend := send_eq q b size c
  rw [hroute] at hsend
  rw [sendCall?]
  by_cases hsize : b.Holds size
  · rw [if_pos hsize] at hsend ⊢
    by_cases hmailbox : usesMailbox p c.bare.machine = true
    · rw [if_pos hmailbox] at hsend ⊢
      rw [Step.after_congr hsend, machine_after_onMachine]
      exact sendByMmi_notes h b size c.machine
    · rw [if_neg hmailbox] at hsend ⊢
      rw [Step.after_congr hsend, machine_after_onMachine]
      exact sendDirectly_notes h hsize c.goneVirtual c.machine
  · rw [if_neg hsize] at hsend ⊢
    rw [Step.after_of_error hsend]
    rfl

theorem able_eq : q.able = p.able := by
  have hexecutor := h.executor
  have hdirect := h.direct
  rw [CommParts.able, CommParts.able]
  generalize q.executor = executor', p.executor = executor at hexecutor ⊢
  generalize q.direct = direct', p.direct = direct at hdirect ⊢
  cases hexecutor <;> cases hdirect <;> rfl

theorem communicate_notes (id : UInt8) (data : Bytes) (recipient : Guid)
    (c : Communicator (Noted ω κ)) :
    (Step.after (communicate q id data recipient) c).machine.world.calls =
      (requestCall? p id data recipient c.bare).toList.flatMap note ++ c.machine.world.calls := by
  have hbuffers : c.bare.buffers = c.buffers := rfl
  rw [Step.after, communicate_eq, able_eq h, requestCall?, hbuffers]
  cases prepare p.able c.buffers id data with
  | error e => rfl
  | ok b =>
    have hsend := send_notes h (b.filled recipient data) (.ofNat (CommHeader.size + data.length))
      (c.request b recipient data)
    unfold Step.after at hsend
    dsimp only
    cases hend : send q (b.filled recipient data) (.ofNat (CommHeader.size + data.length))
      (c.request b recipient data) with
    | error e after =>
      rw [hend] at hsend
      exact hsend
    | ok answer after =>
      rw [hend] at hsend
      dsimp only
      cases interpret (b.filled recipient data) after.machine.memory answer <;> exact hsend

omit h

theorem calls_eq (p : CommParts ω) (op : CommOp) (c : Communicator ω) :
    calls p op c = (Step.after (perform p.noting op) (c.noted [])).machine.world.calls := by
  rw [calls, Step.after]
  cases perform p.noting op (c.noted []) <;> rfl

theorem calls_communicate (p : CommParts ω) (id : UInt8) (data : Bytes) (recipient : Guid)
    (c : Communicator ω) : calls p (.communicate id data recipient) c =
      (requestCall? p id data recipient c).toList := by
  rw [calls_eq, perform, Step.after_bind_pure, communicate_notes (noting_notes p),
    List.flatMap_singleton']
  exact List.append_nil _

end Communicator
end PlatformInit
