import PlatformInit.Proofs.Memory
import PlatformInit.Proofs.Mm.GuardedRuns
import PlatformInit.Proofs.Mm.TriggerPorts

/-!
What a request carries.

When a request reaches the MM side, its buffer holds the header, the message, and zeros to the end,
whatever was in it before. A request makes one call or none, and one that is refused makes none.
-/
set_option autoImplicit false
namespace PlatformInit

open Step (Ends Keeps)

namespace CommBuffer

/-- What a buffer holds that carries a request and nothing else. -/
def requestBytes (b : CommBuffer) (recipient : Guid) (data : Bytes) : Bytes :=
  recipient.toBytes ++ le64 (.ofNat data.length) ++ data ++
    List.replicate (b.length - (CommHeader.size + data.length)) 0

theorem bytes_filledMemory {b : CommBuffer} {data : Bytes}
    (h : CommHeader.size + data.length ≤ b.length) (m : Memory) (recipient : Guid) :
    b.bytes (b.filledMemory m recipient data) = b.requestBytes recipient data := by
  have hlength : ((CommHeader.mk recipient (.ofNat data.length)).toBytes ++ data).length =
      CommHeader.size + data.length := by
    rw [List.length_append, CommHeader.length_toBytes]
  have hcleared : (m.write b.start (List.replicate b.length 0)).read b.start b.length =
      List.replicate b.length 0 := by
    have hread := m.read_write b.start (List.replicate b.length 0)
    rwa [List.length_replicate] at hread
  rw [bytes, filledMemory, Memory.read_write_of_le _ _ (hlength ▸ h), hcleared, hlength,
    List.drop_replicate]
  rfl

theorem header_requestBytes (b : CommBuffer) (recipient : Guid) (data : Bytes) :
    (CommHeader.decode (b.requestBytes recipient data)).recipient = recipient := by
  rw [requestBytes, List.append_assoc, List.append_assoc]
  exact Bytes.guidAt_toBytes ..

theorem area_requestBytes (b : CommBuffer) (recipient : Guid) (data : Bytes) :
    (b.requestBytes recipient data).drop CommHeader.size =
      data ++ List.replicate (b.length - (CommHeader.size + data.length)) 0 := by
  rw [requestBytes, List.append_assoc]
  refine List.drop_left' ?_
  rw [List.length_append, Guid.length_toBytes, length_le64]
  rfl

end CommBuffer

/-- The request in `b` as the MM side finds it by a call: the bytes of the buffer, and the size of
the header and the message together. -/
def CommCall.request? {ω : Type} (core : UInt64) (b : CommBuffer) :
    CommCall ω → Option (Bytes × UInt64)
  | .window .. => none
  | .execute _ m _ => some (b.bytes m.memory, (m.cores core).bufferSize)
  | .manage _ _ length m => some (b.bytes m.memory, length + .ofNat CommHeader.size)

theorem CommCall.request?_vacant {ω : Type} (core : UInt64) (b : CommBuffer) (call : CommCall ω) :
    call.request? core b.vacant = call.request? core b := by
  cases call <;> rfl

/-- The MM side is led to the request in `b`: its address is in the mailbox, or the dispatcher is
given what it consists of. -/
def CommCall.Names {ω : Type} (core : UInt64) (b : CommBuffer) (recipient : Guid) (data : Bytes) :
    CommCall ω → Prop
  | .window .. => False
  | .execute _ m _ => (m.cores core).buffer = b.address
  | .manage addressee area length _ => addressee = recipient ∧
      area = data ++ List.replicate (b.length - (CommHeader.size + data.length)) 0 ∧
      length = .ofNat data.length

/-- The errors of requests that were not put before the MM side. -/
def CommError.refused : CommError → Bool
  | swMmiFailed => false
  | invalidResponse => false
  | handlerNotFound => false
  | mmHandlerFailed _ => false
  | _ => true

namespace Communicator
variable {ω : Type} {p : CommParts ω} {id : UInt8} {data : Bytes} {recipient : Guid}
  {c : Communicator ω}

theorem request_of_sendCall? {b : CommBuffer} {size : UInt64} {call : CommCall ω}
    (h : sendCall? p b size c = some call) :
    call.request? p.core b = some (b.bytes c.machine.memory, size) := by
  obtain ⟨accepted, rfl⟩ | rfl := sendCall?_cases h
  · rw [CommCall.request?, Machine.cores_updateCore]
    rfl
  · rw [CommCall.request?, UInt64.sub_add_cancel]
    rfl

theorem names_of_sendCall? {b : CommBuffer} {call : CommCall ω}
    (hbytes : b.bytes c.machine.memory = b.requestBytes recipient data)
    (h : sendCall? p b (.ofNat (CommHeader.size + data.length)) c = some call) :
    call.Names p.core b recipient data := by
  obtain ⟨accepted, rfl⟩ | rfl := sendCall?_cases h
  · rw [CommCall.Names, Machine.cores_updateCore]
    rfl
  · refine ⟨?_, ?_, ?_⟩
    · rw [hbytes, CommBuffer.header_requestBytes]
    · rw [MmHandler.message_capacity, hbytes, CommBuffer.area_requestBytes]
    · rw [Nat.add_comm, UInt64.ofNat_add, UInt64.add_sub_cancel]

/-- Whatever a request finds in its buffer, it reaches the MM side as if the buffer had been new. -/
theorem requestCall?_carries {call : CommCall ω} (h : requestCall? p id data recipient c = some call) :
    ∃ b, c.buffers.find? (·.id = id) = some b ∧ call.Names p.core b recipient data ∧
      call.request? p.core b =
        some (b.requestBytes recipient data, .ofNat (CommHeader.size + data.length)) := by
  rw [requestCall?] at h
  cases hprepare : prepare p.able c.buffers id data with
  | error e =>
    rw [hprepare] at h
    cases h
  | ok b =>
    rw [hprepare] at h
    obtain ⟨hfind, hroom⟩ := prepare_eq_ok hprepare
    have hbytes : b.bytes (c.request b recipient data).machine.memory = b.requestBytes recipient data :=
      CommBuffer.bytes_filledMemory hroom c.machine.memory recipient
    refine ⟨b, hfind, names_of_sendCall? (b := b.filled recipient data) hbytes h, ?_⟩
    exact (request_of_sendCall? h).trans (congrArg (fun bytes => some (bytes, _)) hbytes)

theorem sendByMmi_error_cases {b : CommBuffer} {size : UInt64} {m m' : Machine ω} {e : CommError}
    (h : sendByMmi p b size m = .error (.error e) m') :
    e = .swMmiFailed ∨ e = .swMmiServiceNotAvailable ∧ mailboxCall? p b size m = none := by
  rw [sendByMmi_eq] at h
  rw [mailboxCall?]
  cases hexecutor : p.executor with
  | none =>
    rw [hexecutor] at h
    cases h
    exact .inr ⟨rfl, rfl⟩
  | some executor =>
    rw [hexecutor] at h
    dsimp only at h
    cases hexecute : executor.execute b (m.updateCore p.core (·.post b.address size)) with
    | ok _ after =>
      rw [hexecute] at h
      cases h
    | error _ after =>
      rw [hexecute] at h
      cases h
      exact .inl rfl

theorem sendDirectly_error_cases {b : CommBuffer} {size : UInt64} (hsize : b.Holds size)
    {goneVirtual : Bool} {m m' : Machine ω} {e : CommError}
    (h : sendDirectly p b size goneVirtual m = .error (.error e) m') :
    e = .swMmiFailed ∨ e = .invalidParameter ∧ directCall? p b size goneVirtual m = none := by
  rw [sendDirectly_eq p hsize] at h
  rw [directCall?]
  by_cases hadmits : admits p goneVirtual m = true
  · rw [if_pos hadmits] at h
    cases hdirect : p.direct with
    | none =>
      rw [hdirect] at h
      cases h
      exact .inl rfl
    | some d =>
      rw [hdirect] at h
      dsimp only at h
      split at h <;> cases h
  · rw [if_neg hadmits] at h ⊢
    cases h
    exact .inr ⟨rfl, rfl⟩

theorem send_error_cases {b : CommBuffer} {size : UInt64} {e : CommError} {c' : Communicator ω}
    (h : send p b size c = .error (.error e) c') : e = .swMmiFailed ∨
      (e = .invalidParameter ∨ e = .swMmiServiceNotAvailable) ∧ sendCall? p b size c = none := by
  rw [send_eq] at h
  rw [sendCall?]
  by_cases hsize : b.Holds size
  · rw [if_pos hsize] at h ⊢
    by_cases hmailbox : usesMailbox p c.machine = true
    · rw [if_pos hmailbox] at h ⊢
      obtain ⟨m, hm⟩ := Step.focus_eq_error h
      obtain hfailed | ⟨hmissing, hnone⟩ := sendByMmi_error_cases hm
      · exact .inl hfailed
      · exact .inr ⟨.inr hmissing, hnone⟩
    · rw [if_neg hmailbox] at h ⊢
      obtain ⟨m, hm⟩ := Step.focus_eq_error h
      obtain hfailed | ⟨hrefused, hnone⟩ := sendDirectly_error_cases hsize hm
      · exact .inl hfailed
      · exact .inr ⟨.inl hrefused, hnone⟩
  · rw [if_neg hsize] at h ⊢
    cases h
    exact .inr ⟨.inl rfl, rfl⟩

theorem interpret_error_cases {b : CommBuffer} {m : Memory} {answer : Status × UInt64} {e : CommError}
    (h : interpret b m answer = .error e) :
    e = .invalidResponse ∨ e = .handlerNotFound ∨ ∃ status, e = .mmHandlerFailed status := by
  rw [interpret] at h
  split at h
  · split at h
    · cases h
    · cases h
      exact .inl rfl
  · split at h
    · cases h
      exact .inr (.inl rfl)
    · cases h
      exact .inr (.inr ⟨_, rfl⟩)

theorem communicate_error_cases {e : CommError} {c' : Communicator ω}
    (h : communicate p id data recipient c = .error (.error e) c') :
    (requestCall? p id data recipient c = none ∧ c' = c) ∨
    ((e = .invalidParameter ∨ e = .swMmiServiceNotAvailable) ∧
      requestCall? p id data recipient c = none) ∨
    e = .swMmiFailed ∨ e = .invalidResponse ∨ e = .handlerNotFound ∨
      ∃ status, e = .mmHandlerFailed status := by
  rw [communicate_eq] at h
  rw [requestCall?]
  cases hprepare : prepare p.able c.buffers id data with
  | error why =>
    rw [hprepare] at h
    cases h
    exact .inl ⟨rfl, rfl⟩
  | ok b =>
    rw [hprepare] at h
    dsimp only at h ⊢
    cases hsend : send p (b.filled recipient data) (.ofNat (CommHeader.size + data.length))
      (c.request b recipient data) with
    | error why after =>
      rw [hsend] at h
      cases h
      obtain rfl | hrefused := send_error_cases hsend
      · exact .inr (.inr (.inl rfl))
      · exact .inr (.inl hrefused)
    | ok answer after =>
      rw [hsend] at h
      dsimp only at h
      cases hinterpret : interpret (b.filled recipient data) after.machine.memory answer with
      | ok reply =>
        rw [hinterpret] at h
        cases h
      | error why =>
        rw [hinterpret] at h
        cases h
        exact .inr (.inr (.inr (interpret_error_cases hinterpret)))

/-! The buffers stay where they are. -/

section
variable {ε α : Type} (L : List CommBuffer)

theorem onMachine_keeps_buffers (x : Step (Machine ω) ε α) :
    Keeps (fun c => c.buffers.map CommBuffer.vacant = L) (onMachine x) := fun _ hc =>
  Ends.focus (Ends.intro (fun _ _ _ => hc) fun _ _ _ => hc)

theorem send_keeps_buffers (p : CommParts ω) (b : CommBuffer) (size : UInt64) :
    Keeps (fun c => c.buffers.map CommBuffer.vacant = L) (send p b size) := by
  intro c hc
  refine Ends.get_bind ?_
  split
  · exact hc
  · split <;> exact onMachine_keeps_buffers L _ c hc

theorem communicate_keeps_buffers (p : CommParts ω) (id : UInt8) (data : Bytes) (recipient : Guid) :
    Keeps (fun c => c.buffers.map CommBuffer.vacant = L) (communicate p id data recipient) := by
  intro c hc
  unfold Ends
  rw [communicate_eq]
  cases hprepare : prepare p.able c.buffers id data with
  | error e => exact hc
  | ok b =>
    obtain ⟨hfind, -⟩ := prepare_eq_ok hprepare
    have hfound := List.find?_some hfind
    have hid : b.id = id := of_decide_eq_true hfound
    subst hid
    have hvacant : (b.filled recipient data).vacant = b.vacant := rfl
    have hrequest : (c.request b recipient data).buffers.map CommBuffer.vacant = L :=
      (putBuffer_vacant hfind hvacant).trans hc
    have hsend := send_keeps_buffers L p (b.filled recipient data)
      (.ofNat (CommHeader.size + data.length)) _ hrequest
    dsimp only
    cases hend : send p (b.filled recipient data) (.ofNat (CommHeader.size + data.length))
      (c.request b recipient data) with
    | error e after => exact hsend.of_error hend
    | ok answer after =>
      have hafter := hsend.of_ok hend
      dsimp only
      cases interpret (b.filled recipient data) after.machine.memory answer <;> exact hafter

theorem signal_keeps_buffers (p : CommParts ω) (recipient : Guid) (data : Bytes) :
    Keeps (fun c => c.buffers.map CommBuffer.vacant = L) (signal p recipient data) := by
  intro c hc
  refine Ends.get_bind ?_
  split
  · exact hc
  · exact communicate_keeps_buffers L p _ data recipient c hc

theorem sendRaw_keeps_buffers (p : CommParts ω) (id : UInt8) (size : UInt64) :
    Keeps (fun c => c.buffers.map CommBuffer.vacant = L) (sendRaw p id size) := by
  intro c hc
  refine Ends.get_bind ?_
  split
  · exact hc
  · refine Keeps.bind (Keeps.attempt (send_keeps_buffers L p _ size)) (fun r => ?_) c hc
    split <;> exact Keeps.pure _

theorem dispatchFrom_keeps_buffers (p : CommParts ω) (patience restarts : Nat) :
    Keeps (fun c => c.buffers.map CommBuffer.vacant = L) (dispatchFrom p restarts patience) := by
  induction patience generalizing restarts with
  | zero => exact fun _ hc => hc
  | succ patience ih =>
    refine Keeps.bind (signal_keeps_buffers L p _ _) fun answer => ?_
    split
    · exact Keeps.bind (Keeps.ignoringError (onMachine_keeps_buffers L _)) fun _ => ih _
    · exact Keeps.pure _

theorem perform_keeps_buffers (p : CommParts ω) (op : CommOp) :
    Keeps (fun c => c.buffers.map CommBuffer.vacant = L) (perform p op) := by
  cases op with
  | communicate id data recipient =>
    exact (communicate_keeps_buffers L p id data recipient).bind fun _ => Keeps.pure _
  | raw id size =>
    refine Keeps.bind (fun c hc => ?_) fun _ => Keeps.pure _
    exact Ends.mapError (sendRaw_keeps_buffers L p id size c hc)
  | signal recipient data =>
    exact (signal_keeps_buffers L p recipient data).bind fun _ => Keeps.pure _
  | runDispatcher => exact (dispatchFrom_keeps_buffers L p p.patience 0).bind fun _ => Keeps.pure _
  | goVirtual => exact Keeps.bind (fun _ hc => hc) fun _ => Keeps.pure _

end

theorem Run.vacant {start : Communicator ω} {ops : List CommOp} (h : Run p start ops c) :
    c.buffers.map CommBuffer.vacant = start.buffers.map CommBuffer.vacant := by
  induction h with
  | start => rfl
  | outside _ m _ ih => exact ih
  | @operation ops c c' op r _ hend ih =>
    have hends := perform_keeps_buffers _ p op c ih
    cases r with
    | ok a => exact hends.of_ok hend
    | error e => exact hends.of_error hend

theorem find?_vacant {buffers buffers' : List CommBuffer}
    (h : buffers.map CommBuffer.vacant = buffers'.map CommBuffer.vacant) (id : UInt8) :
    (buffers.find? (·.id = id)).map CommBuffer.vacant =
      (buffers'.find? (·.id = id)).map CommBuffer.vacant := by
  have hmap (l : List CommBuffer) : (l.find? (·.id = id)).map CommBuffer.vacant =
      (l.map CommBuffer.vacant).find? (·.id = id) :=
    (List.find?_map (p := fun b : CommBuffer => b.id = id) (f := CommBuffer.vacant) (l := l)).symm
  rw [hmap, hmap, h]

theorem request?_agree {start d : Communicator ω} {ops ops' : List CommOp} (hc : Run p start ops c)
    (hd : Run p start ops' d) {m m' : Machine ω} {b : CommBuffer} {call call' : CommCall ω}
    (hfind : c.buffers.find? (·.id = id) = some b)
    (hcall : requestCall? p id data recipient { c with machine := m } = some call)
    (hcall' : requestCall? p id data recipient { d with machine := m' } = some call') :
    call.request? p.core b = call'.request? p.core b := by
  obtain ⟨b₁, hfind₁, -, hrequest⟩ := requestCall?_carries hcall
  obtain ⟨b₂, hfind₂, -, hrequest'⟩ := requestCall?_carries hcall'
  have hb : b₁ = b := Option.some.inj (hfind₁.symm.trans hfind)
  have hvacant : b₂.vacant = b.vacant := by
    have hboth := find?_vacant (hd.vacant.trans hc.vacant.symm) id
    rw [hfind, show d.buffers.find? (·.id = id) = some b₂ from hfind₂] at hboth
    exact Option.some.inj hboth
  have hbytes : b.vacant.requestBytes recipient data = b₂.vacant.requestBytes recipient data := by
    rw [hvacant]
  calc
    call.request? p.core b =
        some (b.requestBytes recipient data, .ofNat (CommHeader.size + data.length)) := hb ▸ hrequest
    _ = some (b₂.requestBytes recipient data, .ofNat (CommHeader.size + data.length)) :=
      congrArg (fun bytes => some (bytes, _)) hbytes
    _ = call'.request? p.core b₂ := hrequest'.symm
    _ = call'.request? p.core b := by
      rw [← CommCall.request?_vacant, hvacant, CommCall.request?_vacant]

theorem mem_calls_communicate {call : CommCall ω} :
    call ∈ calls p (.communicate id data recipient) c ↔ requestCall? p id data recipient c = some call := by
  rw [calls_communicate, Option.mem_toList]

/-- A request reaches the MM side at most once, in the buffer that it names, with its own header and
data before zeros and nothing else; a request that is refused does not reach it. So two histories
cannot be told apart by what a request hands over. Where MMIs are raised through ports, a request
that reaches the MM side by the mailbox clears the data port and writes the command, and no other
request accesses a port. -/
theorem communicate_carries (p : CommParts ω) (id : UInt8) (data : Bytes) (recipient : Guid) :
    (∀ c : Communicator ω,
      (calls p (.communicate id data recipient) c).length ≤ 1 ∧
      (∀ call ∈ calls p (.communicate id data recipient) c, ∃ b,
        c.buffers.find? (·.id = id) = some b ∧ call.Names p.core b recipient data ∧
          call.request? p.core b =
            some (b.requestBytes recipient data, .ofNat (CommHeader.size + data.length))) ∧
      ∀ e c', communicate p id data recipient c = .error (.error e) c' →
        (e.refused = true → calls p (.communicate id data recipient) c = []) ∧
        (e = .invalidDataBuffer ∨ e = .commBufferNotFound ∨ e = .commBufferTooSmall →
          calls p (.communicate id data recipient) c = [] ∧ c' = c)) ∧
    (∀ start ops ops' c d, Run p start ops c → Run p start ops' d → ∀ (m m' : Machine ω) b,
      c.buffers.find? (·.id = id) = some b →
      ∀ call ∈ calls p (.communicate id data recipient) { c with machine := m },
      ∀ call' ∈ calls p (.communicate id data recipient) { d with machine := m' },
        call.request? p.core b = call'.request? p.core b) ∧
    ∀ ports io command c, portAccesses p ports io command id data recipient c =
      (calls (p.overPorts ports io command) (.communicate id data recipient) c).flatMap
        (CommCall.portAccesses ports command) := by
  refine ⟨fun c => ⟨?_, fun call hcall => ?_, fun e c' hend => ?_⟩, ?_, ?_⟩
  · rw [calls_communicate]
    exact Option.length_toList_le
  · exact requestCall?_carries (mem_calls_communicate.mp hcall)
  · have hnone (h : requestCall? p id data recipient c = none) :
        calls p (.communicate id data recipient) c = [] := by
      rw [calls_communicate, h]
      rfl
    obtain ⟨h, rfl⟩ | ⟨hrefusal, h⟩ | hfailed := communicate_error_cases hend
    · exact ⟨fun _ => hnone h, fun _ => ⟨hnone h, rfl⟩⟩
    · refine ⟨fun _ => hnone h, fun hunchanged => ?_⟩
      obtain rfl | rfl := hrefusal <;> simp at hunchanged
    · obtain rfl | rfl | rfl | ⟨status, rfl⟩ := hfailed <;> exact ⟨nofun, nofun⟩
  · intro start ops ops' c d hc hd m m' b hfind call hcall call' hcall'
    exact request?_agree hc hd hfind (mem_calls_communicate.mp hcall) (mem_calls_communicate.mp hcall')
  · exact fun ports io command c => portAccesses_eq p ports io command id data recipient c

def used : Communicator Unit :=
  Step.after (perform bothWays (.communicate 7 [1, 2, 3] Guid.endOfDxe)) dormant

def idlePorts : IoPort (Machine Unit) :=
  ⟨fun _ m => (0, m), fun _ m => (0, m), fun _ _ m => m, fun _ _ m => m, fun _ _ m => m⟩

theorem communicate_carries_used :
    Run bothWays dormant [.communicate 7 [1, 2, 3] Guid.endOfDxe] used ∧
      (CommBuffer.new 0x1000 7 64).message used.machine.memory 4 = [2, 3, 4, 1] ∧
      (calls bothWays (.communicate 7 [9] Guid.readyToBoot) used).length = 1 ∧
      (calls bothWays (.communicate 7 [9] Guid.readyToBoot) dormant).length = 1 ∧
      (∀ call ∈ calls bothWays (.communicate 7 [9] Guid.readyToBoot) used,
        ∀ call' ∈ calls bothWays (.communicate 7 [9] Guid.readyToBoot) dormant,
          call.request? 0x100 (.new 0x1000 7 64) = call'.request? 0x100 (.new 0x1000 7 64)) ∧
      (calls bothWays (.communicate 7 [] Guid.readyToBoot) used = [] ∧
        Step.after (communicate bothWays 7 [] Guid.readyToBoot) used = used) ∧
      portAccesses viaMailbox {} idlePorts none 7 [9] Guid.readyToBoot
        (.new [.new 0x1000 7 64] registeredCore) = [.write8 0xB2 0xFF, .write8 0xB3 0] := by
  obtain ⟨a, c, hend⟩ := Step.succeeds_iff.mp
    (show Step.succeeds (perform bothWays (.communicate 7 [1, 2, 3] Guid.endOfDxe)) dormant = true by
      decide +kernel)
  have hused : used = c := Step.after_of_ok hend
  have hrun : Run bothWays dormant [.communicate 7 [1, 2, 3] Guid.endOfDxe] used := by
    rw [hused]
    exact .operation .start (r := .ok a) hend
  obtain ⟨-, htwo, -⟩ := communicate_carries bothWays 7 [9] Guid.readyToBoot
  have hfind : used.buffers.find? (·.id = 7) =
      some (CommBuffer.filled (.new 0x1000 7 64) Guid.endOfDxe [1, 2, 3]) := by
    decide +kernel
  have hsame := htwo dormant _ _ used dormant hrun .start used.machine dormant.machine _ hfind
  have hlook (call : CommCall Unit) := CommCall.request?_vacant 0x100
    (CommBuffer.filled (.new 0x1000 7 64) Guid.endOfDxe [1, 2, 3]) call
  have hrefused : ∃ c', communicate bothWays 7 [] Guid.readyToBoot used =
      .error (.error .invalidDataBuffer) c' := by
    have hprepare : prepare bothWays.able used.buffers 7 [] = .error .invalidDataBuffer := by
      decide +kernel
    rw [communicate_eq, hprepare]
    exact ⟨_, rfl⟩
  obtain ⟨c', hrefused⟩ := hrefused
  obtain ⟨hstates, -, -⟩ := communicate_carries bothWays 7 [] Guid.readyToBoot
  obtain ⟨hnone, hsame'⟩ := ((hstates used).2.2 _ c' hrefused).2 (.inl rfl)
  refine ⟨hrun, by decide +kernel, by decide +kernel, by decide +kernel, ?_, ⟨hnone, ?_⟩, ?_⟩
  · exact fun call hcall call' hcall' =>
      (hlook call).trans ((hsame call hcall call' hcall').trans (hlook call').symm)
  · rw [Step.after_of_error hrefused, hsame']
  · rw [(communicate_carries viaMailbox 7 [9] Guid.readyToBoot).2.2]
    decide +kernel

end Communicator
end PlatformInit
