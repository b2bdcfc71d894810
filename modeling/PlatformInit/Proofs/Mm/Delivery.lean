import PlatformInit.Proofs.Mm.Requests

/-!
The mailbox and the dispatcher are two ways to the same handlers.

A handler is installed behind either of them. The ways keep different books: the mailbox counts the
header and marks every failure as an error, the dispatcher counts the message and leaves one failure
as it is. The caller cannot tell them apart.
-/
set_option autoImplicit false
namespace PlatformInit

/-- A handler replies in the area of its message. The size that it reports for the reply is its own
affair, as long as a header can be added to it. -/
structure MmHandler where
  run : Guid → Bytes → UInt64 → HandlerReply
  length_area : ∀ recipient area length, (run recipient area length).area.length = area.length
  size_fits : ∀ recipient area length,
    (run recipient area length).size.toNat + CommHeader.size < UInt64.size

namespace MmHandler
variable {ω : Type} (h : MmHandler)

def dispatcher : SmiManage (Machine ω) where
  manage recipient area length m := (h.run recipient area length, m)

def executor (core : UInt64) : MmExecutor (Machine ω) where
  execute b m :=
    let r := m.cores core
    let bytes := m.memory.read r.buffer.toNat b.length
    match CommHeader.read? bytes with
    | none => .error .invalidDataBuffer m
    | some header =>
      let reply := h.run header.recipient (bytes.drop CommHeader.size)
        (r.bufferSize - .ofNat CommHeader.size)
      .ok () { m.updateCore core (·.reply (reply.size + .ofNat CommHeader.size) reply.status) with
        memory := m.memory.write (r.buffer.toNat + CommHeader.size) reply.area }

def answer (b : CommBuffer) (size : UInt64) (m : Memory) : HandlerReply :=
  h.run (CommHeader.decode (b.bytes m)).recipient ((b.bytes m).drop CommHeader.size)
    (size - .ofNat CommHeader.size)

def told (b : CommBuffer) (size : UInt64) (m : Memory) : Status × UInt64 :=
  (Communicator.marked (h.answer b size m).status, (h.answer b size m).size + .ofNat CommHeader.size)

variable {h} {b : CommBuffer} {size : UInt64}

theorem length_answer (m : Memory) : (h.answer b size m).area.length = b.capacity := by
  rw [answer, h.length_area, List.length_drop, CommBuffer.length_bytes, CommBuffer.capacity]

theorem writeMessage_answer (hsize : b.Holds size) (m : Memory) :
    b.writeMessage m (h.answer b size m).area =
      m.write (b.start + CommHeader.size) (h.answer b size m).area := by
  have hoffset : b.messageOffset = CommHeader.size := Nat.min_eq_left (Nat.le_trans hsize.1 hsize.2)
  rw [CommBuffer.writeMessage, hoffset, List.take_of_length_le (Nat.le_of_eq (length_answer m))]

theorem message_capacity (m : Memory) : b.message m b.capacity = (b.bytes m).drop CommHeader.size := by
  rw [CommBuffer.message, List.take_of_length_le]
  rw [List.length_drop, CommBuffer.length_bytes]
  exact Nat.le_refl _

theorem sendByMmi_executor {p : CommParts ω} (hexecutor : p.executor = some (h.executor p.core))
    (hsize : b.Holds size) (m : Machine ω) :
    ∃ after, Communicator.sendByMmi p b size m = .ok (h.told b size m.memory) after ∧
      after.memory = b.writeMessage m.memory (h.answer b size m.memory).area := by
  let posted := m.updateCore p.core (·.post b.address size)
  let answered : Machine ω :=
    { posted.updateCore p.core (·.reply ((h.answer b size m.memory).size + .ofNat CommHeader.size)
        (h.answer b size m.memory).status) with
      memory := m.memory.write (b.start + CommHeader.size) (h.answer b size m.memory).area }
  have hposted : posted.cores p.core = (m.cores p.core).post b.address size := if_pos rfl
  have hanswered : answered.cores p.core = (posted.cores p.core).reply
      ((h.answer b size m.memory).size + .ofNat CommHeader.size) (h.answer b size m.memory).status :=
    if_pos rfl
  have hread : CommHeader.read? (b.bytes m.memory) = some (.decode (b.bytes m.memory)) :=
    hsize.header? m.memory
  have hexecute : (h.executor p.core).execute b posted = .ok () answered := by
    simp only [executor, hposted]
    change (match CommHeader.read? (b.bytes m.memory) with | none => _ | some header => _) = _
    rw [hread]
    rfl
  refine ⟨answered.updateCore p.core (·.clear), ?_, (writeMessage_answer hsize m.memory).symm⟩
  rw [Communicator.sendByMmi_eq, hexecutor]
  dsimp only
  rw [hexecute]
  dsimp only
  rw [hanswered]
  rfl

theorem sendDirectly_dispatcher {p : CommParts ω} (hdirect : p.direct = some h.dispatcher)
    (hsize : b.Holds size) {m : Machine ω} {goneVirtual : Bool}
    (hadmits : Communicator.admits p goneVirtual m = true) :
    ∃ after, Communicator.sendDirectly p b size goneVirtual m = .ok (h.told b size m.memory) after ∧
      after.memory = b.writeMessage m.memory (h.answer b size m.memory).area := by
  have hdispatched : (Communicator.dispatched p h.dispatcher b size (.decode (b.bytes m.memory)) m).1 =
      h.answer b size m.memory := by
    rw [answer, ← message_capacity]
    rfl
  have hmemory : (Communicator.dispatched p h.dispatcher b size (.decode (b.bytes m.memory)) m).2.memory =
      b.writeMessage m.memory (h.answer b size m.memory).area := by
    rw [← hdispatched]
    rfl
  have hfits : (Communicator.dispatched p h.dispatcher b size (.decode (b.bytes m.memory)) m).1.size.toNat +
      CommHeader.size < UInt64.size := by
    rw [hdispatched]
    exact h.size_fits ..
  rw [Communicator.sendDirectly_eq p hsize, if_pos hadmits, hdirect]
  dsimp only
  rw [if_pos hfits, hdispatched]
  exact ⟨_, rfl, hmemory⟩

end MmHandler

structure MmHandler.BehindMailbox {ω : Type} (h : MmHandler) (p : CommParts ω) (c : Communicator ω) :
    Prop where
  installed : p.executor = some (h.executor p.core)
  registered : (c.machine.cores p.core).registered = true
  outside : (c.machine.cores p.core).inMm = false

structure MmHandler.BehindDispatcher {ω : Type} (h : MmHandler) (p : CommParts ω)
    (c : Communicator ω) : Prop where
  installed : p.direct = some h.dispatcher
  unregistered : (c.machine.cores p.core).registered = false
  isOpen : p.access.isOpen c.machine.world = true
  unlocked : p.access.isLocked c.machine.world = false
  physical : c.goneVirtual = false

namespace Communicator
variable {ω ω' ε α : Type}

/-- Two steps answer the same, without stopping the machine, and leave the same buffers and the same
memory. -/
def Agree (x : EStateM.Result (Fault ε) (Communicator ω) α)
    (y : EStateM.Result (Fault ε) (Communicator ω') α) : Prop :=
  ∃ r c d, x = returned r c ∧ y = returned r d ∧ c.buffers = d.buffers ∧
    c.machine.memory = d.machine.memory

variable {h : MmHandler} {p : CommParts ω} {q : CommParts ω'} {c : Communicator ω}
  {d : Communicator ω'} (hc : h.BehindMailbox p c) (hd : h.BehindDispatcher q d)
  (hbuffers : c.buffers = d.buffers) (hmemory : c.machine.memory = d.machine.memory)
include hc hd hbuffers hmemory

theorem send_agree (b : CommBuffer) (size : UInt64) : Agree (send p b size c) (send q b size d) := by
  rw [send_eq, send_eq]
  by_cases hsize : b.Holds size
  · have hmailbox : usesMailbox p c.machine = true := by
      rw [usesMailbox, hc.outside, hc.registered]
      rfl
    have hdispatcher : usesMailbox q d.machine = false := by
      rw [usesMailbox, hd.unregistered, Bool.and_false]
    have hadmits : admits q d.goneVirtual d.machine = true :=
      admits_iff.mpr ⟨hd.physical, Or.inr ⟨hd.isOpen, hd.unlocked⟩⟩
    obtain ⟨left, hleft, hleftMemory⟩ := MmHandler.sendByMmi_executor hc.installed hsize c.machine
    obtain ⟨right, hright, hrightMemory⟩ := MmHandler.sendDirectly_dispatcher hd.installed hsize hadmits
    rw [if_pos hsize, if_pos hsize, hmailbox, hdispatcher, if_pos rfl, if_neg Bool.false_ne_true]
    refine ⟨.ok (h.told b size c.machine.memory), { c with machine := left },
      { d with machine := right }, Step.focus_of_ok hleft, ?_, hbuffers, ?_⟩
    · rw [hmemory]
      exact Step.focus_of_ok hright
    · change left.memory = right.memory
      rw [hleftMemory, hrightMemory, hmemory]
  · rw [if_neg hsize, if_neg hsize]
    exact ⟨_, _, _, rfl, rfl, hbuffers, hmemory⟩

theorem communicate_agree (id : UInt8) (data : Bytes) (recipient : Guid) :
    Agree (communicate p id data recipient c) (communicate q id data recipient d) := by
  have hable : p.able = true ∧ q.able = true := by
    rw [CommParts.able, CommParts.able, hc.installed, hd.installed]
    exact ⟨rfl, Bool.or_true _⟩
  rw [communicate_eq, communicate_eq, hable.1, hable.2, ← hbuffers]
  cases prepare true c.buffers id data with
  | error e => exact ⟨_, _, _, rfl, rfl, hbuffers, hmemory⟩
  | ok b =>
    have hc' : h.BehindMailbox p (c.request b recipient data) :=
      ⟨hc.installed, hc.registered, hc.outside⟩
    have hd' : h.BehindDispatcher q (d.request b recipient data) :=
      ⟨hd.installed, hd.unregistered, hd.isOpen, hd.unlocked, hd.physical⟩
    obtain ⟨r, c', d', hleft, hright, hbuffers', hmemory'⟩ := send_agree hc' hd'
      (by rw [request, request, hbuffers]) (by rw [request, request, hmemory])
      (b.filled recipient data) (.ofNat (CommHeader.size + data.length))
    dsimp only
    rw [hleft, hright]
    cases r with
    | ok answer => exact ⟨_, c', d', rfl, by rw [hmemory']; rfl, hbuffers', hmemory'⟩
    | error e => exact ⟨.error e, c', d', rfl, rfl, hbuffers', hmemory'⟩

theorem sendRaw_agree (id : UInt8) (size : UInt64) :
    Agree (sendRaw p id size c) (sendRaw q id size d) := by
  rw [sendRaw_eq, sendRaw_eq, ← hbuffers]
  cases c.buffers.find? (·.id = id) with
  | none => exact ⟨.ok _, c, d, rfl, rfl, hbuffers, hmemory⟩
  | some b =>
    obtain ⟨r, c', d', hleft, hright, hbuffers', hmemory'⟩ :=
      send_agree hc hd hbuffers hmemory b size
    dsimp only
    rw [hleft, hright]
    cases r with
    | ok answer => exact ⟨.ok answer, c', d', rfl, rfl, hbuffers', hmemory'⟩
    | error e => exact ⟨.ok (refusal e, size), c', d', rfl, rfl, hbuffers', hmemory'⟩

/-- A handler behind the mailbox and the same handler behind the dispatcher: from the same buffers
and the same memory every request gets the same answer and leaves the same bytes, whatever the
status and the size that the handler reports. -/
theorem delivery_agree (id : UInt8) :
    (∀ data recipient, Agree (communicate p id data recipient c) (communicate q id data recipient d)) ∧
      ∀ size, Agree (sendRaw p id size c) (sendRaw q id size d) :=
  ⟨communicate_agree hc hd hbuffers hmemory id, sendRaw_agree hc hd hbuffers hmemory id⟩

omit hc hd hbuffers hmemory

def incrementing : MmHandler where
  run _ area _ := ⟨area.map (· + 1), 4, Status.success⟩
  length_area _ _ _ := List.length_map ..
  size_fits _ _ _ := show (4 : UInt64).toNat + CommHeader.size < UInt64.size by decide

def viaMailbox : CommParts Unit :=
  ⟨0x100, ⟨pure (), pure (), pure (), fun _ => false, fun _ => true⟩, some (incrementing.executor 0x100),
    none, 0⟩

def viaDispatcher : CommParts Unit :=
  ⟨0x200, ⟨pure (), pure (), pure (), fun _ => true, fun _ => false⟩, none,
    some incrementing.dispatcher, 0⟩

def registeredCore : Machine Unit := (Machine.new 0 ()).putCore 0x100 { CoreRecord.new with registered := true }

theorem delivery_agree_incrementing :
    Agree
      (communicate viaMailbox 7 [1, 2, 3] Guid.endOfDxe (.new [.new 0x1000 7 64] registeredCore))
      (communicate viaDispatcher 7 [1, 2, 3] Guid.endOfDxe (.new [.new 0x1000 7 64] (.new 0 ()))) ∧
    (match communicate viaMailbox 7 [1, 2, 3] Guid.endOfDxe
        (.new [.new 0x1000 7 64] registeredCore) with
      | .ok reply _ => some reply
      | .error _ _ => none) = some [2, 3, 4, 1] := by
  have hagree := delivery_agree (h := incrementing) (p := viaMailbox) (q := viaDispatcher)
    (c := .new [.new 0x1000 7 64] registeredCore) (d := .new [.new 0x1000 7 64] (.new 0 ()))
    ⟨rfl, rfl, rfl⟩ ⟨rfl, rfl, rfl, rfl, rfl⟩ rfl rfl 7
  exact ⟨hagree.1 [1, 2, 3] Guid.endOfDxe, by decide +kernel⟩

end Communicator
end PlatformInit
