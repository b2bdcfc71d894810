import PlatformInit.Mm.Communicator
import PlatformInit.Proofs.Bytes.Reading
import PlatformInit.Proofs.Step

/-!
A request in three parts: the checks that name the buffer, the sending of what was put into it, and
what the answer means. The first and the last do not depend on how requests are sent.
-/
set_option autoImplicit false
namespace PlatformInit

namespace CommHeader

def decode (bytes : Bytes) : CommHeader := ⟨bytes.guidAt 0, .ofNat (bytes.numberAt 8 16)⟩

theorem read?_eq (bytes : Bytes) :
    read? bytes = if size ≤ bytes.length then some (decode bytes) else none := by
  rw [read?, Guid.read?_eq, Bytes.u64?, Bytes.word?_eq]
  by_cases h : 24 ≤ bytes.length
  · rw [if_pos (by omega), if_pos (by omega), if_pos (show size ≤ _ from h)]
    rfl
  · rw [if_neg (show ¬size ≤ _ from h), if_neg (show ¬16 + 8 ≤ _ by omega)]
    split <;> rfl

theorem length_toBytes (h : CommHeader) : h.toBytes.length = size := by
  rw [toBytes, List.length_append, Guid.length_toBytes, length_le64]
  rfl

theorem read?_toBytes (h : CommHeader) (rest : Bytes) : read? (h.toBytes ++ rest) = some h := by
  have hlength : Bytes.numberAt (h.toBytes ++ rest) 8 16 = h.messageLength.toNat := by
    rw [toBytes, List.append_assoc, Bytes.numberAt_append_of_le (Nat.le_of_eq (Guid.length_toBytes _)),
      Guid.length_toBytes, Bytes.numberAt_le64]
  have hrecipient : Bytes.guidAt (h.toBytes ++ rest) 0 = h.recipient := by
    rw [toBytes, List.append_assoc, Bytes.guidAt_toBytes]
  rw [read?_eq, if_pos (by rw [List.length_append, length_toBytes]; exact Nat.le_add_right _ _), decode,
    hlength, hrecipient, UInt64.ofNat_toNat]

end CommHeader

namespace CommBuffer

def filled (b : CommBuffer) (recipient : Guid) (data : Bytes) : CommBuffer :=
  { b with messageLength := data.length, recipient := some recipient }

def filledMemory (b : CommBuffer) (m : Memory) (recipient : Guid) (data : Bytes) : Memory :=
  (m.write b.start (List.replicate b.length 0)).write b.start
    ((CommHeader.mk recipient (.ofNat data.length)).toBytes ++ data)

/-- A size that a request or a reply in the buffer may have. -/
def Holds (b : CommBuffer) (size : UInt64) : Prop :=
  CommHeader.size ≤ size.toNat ∧ size.toNat ≤ b.length

instance (b : CommBuffer) (size : UInt64) : Decidable (b.Holds size) :=
  inferInstanceAs (Decidable (_ ∧ _))

theorem not_holds_iff {b : CommBuffer} {size : UInt64} :
    ¬b.Holds size ↔ size.toNat < CommHeader.size ∨ b.length < size.toNat := by
  unfold Holds
  omega

theorem length_bytes (b : CommBuffer) (m : Memory) : (b.bytes m).length = b.length :=
  Memory.length_read ..

theorem Holds.header? {b : CommBuffer} {size : UInt64} (h : b.Holds size) (m : Memory) :
    b.header? m = some (CommHeader.decode (b.bytes m)) := by
  have hroom : 24 ≤ b.length := Nat.le_trans h.1 h.2
  rw [CommBuffer.header?, CommHeader.read?_eq, if_pos (by rw [length_bytes]; exact hroom)]

end CommBuffer

def CommParts.able {ω : Type} (p : CommParts ω) : Bool := p.executor.isSome || p.direct.isSome

namespace Communicator
variable {ω ε α : Type}

def returned (r : Except ε α) (s : Communicator ω) : EStateM.Result (Fault ε) (Communicator ω) α :=
  match r with
  | .ok a => .ok a s
  | .error e => .error (.error e) s

def prepare (able : Bool) (buffers : List CommBuffer) (id : UInt8) (data : Bytes) :
    Except CommError CommBuffer :=
  if buffers.isEmpty then .error .noCommBuffer
  else if data.isEmpty then .error .invalidDataBuffer
  else if !able then .error .swMmiServiceNotAvailable
  else
    match buffers.find? (·.id = id) with
    | none => .error .commBufferNotFound
    | some b => if b.length < CommHeader.size + data.length then .error .commBufferTooSmall else .ok b

def interpret (b : CommBuffer) (m : Memory) (answer : Status × UInt64) : Except CommError Bytes :=
  if answer.1 = Status.success then
    if b.Holds answer.2 then .ok (b.message m (answer.2.toNat - CommHeader.size))
    else .error .invalidResponse
  else if answer.1 = Status.notFound then .error .handlerNotFound
  else .error (.mmHandlerFailed answer.1)

def refusal : CommError → Status
  | .invalidParameter => Status.invalidParameter
  | _ => Status.unsupported

def request (c : Communicator ω) (b : CommBuffer) (recipient : Guid) (data : Bytes) : Communicator ω :=
  { c with
    buffers := putBuffer (b.filled recipient data) c.buffers
    machine := { c.machine with memory := b.filledMemory c.machine.memory recipient data } }

theorem prepare_eq_ok {able : Bool} {buffers : List CommBuffer} {id : UInt8} {data : Bytes}
    {b : CommBuffer} (h : prepare able buffers id data = .ok b) :
    buffers.find? (·.id = id) = some b ∧ CommHeader.size + data.length ≤ b.length := by
  rw [prepare] at h
  split at h
  · cases h
  split at h
  · cases h
  split at h
  · cases h
  split at h
  · cases h
  rename_i found hfind
  split at h
  · cases h
  · cases h
    exact ⟨hfind, by omega⟩

theorem fill_eq (c : Communicator ω) {b : CommBuffer} (recipient : Guid) {data : Bytes}
    (h : CommHeader.size + data.length ≤ b.length) : c.fill b recipient data =
      .ok (b.filled recipient data, b.filledMemory c.machine.memory recipient data) := by
  have hheader : ¬b.length < CommHeader.size := by omega
  have hmessage : ¬b.length - CommHeader.size < data.length := by omega
  rw [fill, CommBuffer.reset]
  simp only [CommBuffer.setRecipient, if_neg hheader]
  exact if_neg hmessage

theorem reply_eq (b : CommBuffer) (size : UInt64) (c : Communicator ω) :
    reply b size c = returned (interpret b c.machine.memory (Status.success, size)) c := by
  have hsuccess : interpret b c.machine.memory (Status.success, size) =
      if b.Holds size then .ok (b.message c.machine.memory (size.toNat - CommHeader.size))
      else .error .invalidResponse := if_pos rfl
  rw [hsuccess, reply]
  by_cases h : b.Holds size
  · rw [if_pos h, if_neg (fun hnot => CommBuffer.not_holds_iff.mpr hnot h)]
    rfl
  · rw [if_neg h, if_pos (CommBuffer.not_holds_iff.mp h)]
    rfl

/-- Nothing is sent that the checks refuse. -/
theorem communicate_eq (p : CommParts ω) (id : UInt8) (data : Bytes) (recipient : Guid)
    (c : Communicator ω) : communicate p id data recipient c =
      match prepare p.able c.buffers id data with
      | .error e => returned (.error e) c
      | .ok b =>
        match send p (b.filled recipient data) (.ofNat (CommHeader.size + data.length))
          (c.request b recipient data) with
        | .ok answer after =>
          returned (interpret (b.filled recipient data) after.machine.memory answer) after
        | .error e after => .error e after := by
  have hable : (p.executor.isNone && p.direct.isNone) = !p.able := by
    rw [CommParts.able, Bool.not_or, Option.not_isSome, Option.not_isSome]
  rw [communicate, prepare]
  refine (Step.bind_of_ok rfl).trans ?_
  rw [hable]
  by_cases hbuffers : c.buffers.isEmpty
  · rw [if_pos hbuffers, if_pos hbuffers]
    rfl
  rw [if_neg hbuffers, if_neg hbuffers]
  by_cases hdata : data.isEmpty
  · rw [if_pos hdata, if_pos hdata]
    rfl
  rw [if_neg hdata, if_neg hdata]
  by_cases hparts : !p.able
  · rw [if_pos hparts, if_pos hparts]
    rfl
  rw [if_neg hparts, if_neg hparts, buffer?]
  cases c.buffers.find? (·.id = id) with
  | none => rfl
  | some b =>
    dsimp only
    by_cases hlength : b.length < CommHeader.size + data.length
    · rw [if_pos hlength, if_pos hlength]
      rfl
    rw [if_neg hlength, if_neg hlength, fill_eq c recipient (Nat.not_lt.mp hlength)]
    refine (Step.bind_of_ok rfl).trans ?_
    change (send p (b.filled recipient data) (.ofNat (CommHeader.size + data.length)) >>= _)
      (c.request b recipient data) = _
    dsimp only
    cases hsend : send p (b.filled recipient data) (.ofNat (CommHeader.size + data.length))
      (c.request b recipient data) with
    | error e after => exact Step.bind_of_error hsend
    | ok answer after =>
      obtain ⟨status, size⟩ := answer
      refine (Step.bind_of_ok hsend).trans ?_
      dsimp only
      by_cases hsuccess : status = Status.success
      · rw [if_pos hsuccess, reply_eq, hsuccess]
      rw [if_neg hsuccess, interpret, if_neg hsuccess]
      by_cases hfound : status = Status.notFound
      · rw [if_pos hfound, if_pos hfound]
        rfl
      · rw [if_neg hfound, if_neg hfound]
        rfl

theorem send_eq (p : CommParts ω) (b : CommBuffer) (size : UInt64) (c : Communicator ω) :
    send p b size c =
      if b.Holds size then
        if usesMailbox p c.machine then onMachine (sendByMmi p b size) c
        else onMachine (sendDirectly p b size c.goneVirtual) c
      else returned (.error .invalidParameter) c := by
  rw [send]
  refine (Step.bind_of_ok rfl).trans ?_
  by_cases h : b.Holds size
  · rw [if_pos h, if_neg (fun hnot => CommBuffer.not_holds_iff.mpr hnot h)]
    split <;> rfl
  · rw [if_neg h, if_pos (CommBuffer.not_holds_iff.mp h)]
    rfl

def marked (s : Status) : Status := if s = Status.success then s else s.asError

theorem marked_eq (s : Status) :
    (if s = Status.success ∨ s = Status.notFound then s else s.asError) = marked s := by
  by_cases hfound : s = Status.notFound
  · subst hfound
    decide
  · simp only [marked, hfound, or_false]

theorem sendByMmi_eq (p : CommParts ω) (b : CommBuffer) (size : UInt64) (m : Machine ω) :
    sendByMmi p b size m =
      match p.executor with
      | none => .error (.error .swMmiServiceNotAvailable) m
      | some executor =>
        match executor.execute b (m.updateCore p.core (·.post b.address size)) with
        | .error _ after => .error (.error .swMmiFailed) (after.updateCore p.core (·.clear))
        | .ok () after =>
          .ok (marked (after.cores p.core).status, (after.cores p.core).bufferSize)
            (after.updateCore p.core (·.clear)) := by
  rw [sendByMmi]
  cases p.executor with
  | none => rfl
  | some executor =>
    refine (Step.bind_of_ok rfl).trans ?_
    dsimp only
    cases hexecute : executor.execute b (m.updateCore p.core (·.post b.address size)) with
    | ok _ after =>
      have hattempt : Step.ofAttempt (executor.execute b) (m.updateCore p.core (·.post b.address size)) =
          .ok () after := by
        rw [Step.ofAttempt, hexecute]
      exact (Step.bind_of_ok (Step.attempt_of_ok hattempt)).trans rfl
    | error e after =>
      have hattempt : Step.ofAttempt (executor.execute b) (m.updateCore p.core (·.post b.address size)) =
          .error (.error e) after := by
        rw [Step.ofAttempt, hexecute]
      exact (Step.bind_of_ok (Step.attempt_of_error hattempt)).trans rfl

def dispatched (p : CommParts ω) (direct : SmiManage (Machine ω)) (b : CommBuffer) (size : UInt64)
    (header : CommHeader) (m : Machine ω) : HandlerReply × Machine ω :=
  let (reply, after) := direct.manage header.recipient (b.message m.memory b.capacity)
    (size - .ofNat CommHeader.size) (m.updateCore p.core fun r => { r with inMm := true })
  (reply, { after with memory := b.writeMessage after.memory reply.area })

/-- Whether the dispatcher may be asked: from inside of MM, or while SMRAM is accessible. -/
def admits (p : CommParts ω) (goneVirtual : Bool) (m : Machine ω) : Bool :=
  !goneVirtual && ((m.cores p.core).inMm || p.access.isOpen m.world && !p.access.isLocked m.world)

theorem usesMailbox_iff {p : CommParts ω} {m : Machine ω} : usesMailbox p m = true ↔
    (m.cores p.core).inMm = false ∧ (m.cores p.core).registered = true := by
  simp [usesMailbox]

theorem admits_iff {p : CommParts ω} {goneVirtual : Bool} {m : Machine ω} :
    admits p goneVirtual m = true ↔ goneVirtual = false ∧ ((m.cores p.core).inMm = true ∨
      p.access.isOpen m.world = true ∧ p.access.isLocked m.world = false) := by
  simp [admits]

theorem sendDirectly_eq (p : CommParts ω) {b : CommBuffer} {size : UInt64} (hsize : b.Holds size)
    (goneVirtual : Bool) (m : Machine ω) :
    sendDirectly p b size goneVirtual m =
      if admits p goneVirtual m then
        match p.direct with
        | none => .error (.error .swMmiFailed) m
        | some direct =>
          let (reply, after) := dispatched p direct b size (.decode (b.bytes m.memory)) m
          if reply.size.toNat + CommHeader.size < UInt64.size then
            .ok (marked reply.status, reply.size + .ofNat CommHeader.size)
              (after.updateCore p.core fun r => { r with inMm := (m.cores p.core).inMm })
          else .error (.halt .overflow) after
      else .error (.error .invalidParameter) m := by
  have hclosed : admits p false m = !(!(m.cores p.core).inMm &&
      (!p.access.isOpen m.world || p.access.isLocked m.world)) := by
    rw [admits]
    cases (m.cores p.core).inMm <;> cases p.access.isOpen m.world <;>
      cases p.access.isLocked m.world <;> rfl
  rw [sendDirectly]
  refine (Step.bind_of_ok rfl).trans ?_
  dsimp only
  cases goneVirtual with
  | true => rfl
  | false =>
    rw [if_neg Bool.false_ne_true, hclosed]
    cases !(m.cores p.core).inMm && (!p.access.isOpen m.world || p.access.isLocked m.world) with
    | true => rfl
    | false =>
      rw [if_neg Bool.false_ne_true, Bool.not_false, if_pos rfl, hsize.header? m.memory]
      cases p.direct with
      | none => rfl
      | some direct =>
        dsimp only
        refine (Step.bind_of_ok rfl).trans ?_
        by_cases hfits : (dispatched p direct b size (.decode (b.bytes m.memory)) m).1.size.toNat +
            CommHeader.size < UInt64.size
        · rw [if_pos hfits]
          refine (Step.bind_of_ok (Step.ofHalting_eq_ok.mpr ⟨if_pos hfits, rfl⟩)).trans ?_
          rw [← marked_eq]
          rfl
        · rw [if_neg hfits]
          exact Step.bind_of_error (Step.ofHalting_of_error (if_neg hfits))

theorem sendRaw_eq (p : CommParts ω) (id : UInt8) (size : UInt64) (c : Communicator ω) :
    sendRaw p id size c =
      match c.buffers.find? (·.id = id) with
      | none => .ok (Status.invalidParameter, size) c
      | some b =>
        match send p b size c with
        | .ok answer after => .ok answer after
        | .error (.error e) after => .ok (refusal e, size) after
        | .error (.halt h) after => .error (.halt h) after := by
  rw [sendRaw]
  refine (Step.bind_of_ok rfl).trans ?_
  rw [buffer?]
  cases c.buffers.find? (·.id = id) with
  | none => rfl
  | some b =>
    dsimp only
    cases hsend : send p b size c with
    | ok answer after =>
      exact (Step.bind_of_ok (Step.attempt_of_ok hsend)).trans rfl
    | error e after =>
      cases e with
      | halt h => exact Step.bind_of_error (Step.attempt_of_halt hsend)
      | error e =>
        refine (Step.bind_of_ok (Step.attempt_of_error hsend)).trans ?_
        cases e <;> rfl

end Communicator
end PlatformInit
