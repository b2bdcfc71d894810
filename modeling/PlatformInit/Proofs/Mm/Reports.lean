import Mathlib.Algebra.Order.Group.Nat
import PlatformInit.Proofs.Mm.Delivery

/-!
What the MM side reports of a request, and what the caller is told.

A report is a status and the size of the reply with its header. The mailbox holds both; the
dispatcher counts the reply alone, and when the header cannot be added to it the machine stops before
the record of the core is put right.
-/
set_option autoImplicit false
namespace PlatformInit

/-- The header can be added to the size of the reply. -/
def HandlerReply.Fits (r : HandlerReply) : Prop := r.size.toNat + CommHeader.size < UInt64.size

namespace Status

/-- The status of a missing handler as a warning, without the error bit. -/
def missingWarning : Status := 0xE

theorem toNat_asError (s : Status) : s.asError.toNat = 2 ^ 63 + s.toNat % 2 ^ 63 := by
  have hset := Nat.two_pow_add_eq_or_of_lt (Nat.mod_lt s.toNat (Nat.two_pow_pos 63)) 1
  rw [Nat.mul_one] at hset
  have hor : s.asError.toNat = s.toNat ||| 2 ^ 63 := UInt64.toNat_or ..
  rw [hor, hset]
  by_cases h : s.toNat < 2 ^ 63
  · rw [Nat.mod_eq_of_lt h, Nat.or_comm]
  · have hmarked : s.toNat = 2 ^ 63 ||| s.toNat % 2 ^ 63 := by
      have hlt := s.toNat_lt
      omega
    calc
      s.toNat ||| 2 ^ 63 = 2 ^ 63 ||| s.toNat % 2 ^ 63 ||| 2 ^ 63 := congrArg (· ||| 2 ^ 63) hmarked
      _ = 2 ^ 63 ||| s.toNat % 2 ^ 63 := by rw [Nat.or_comm, ← Nat.or_assoc, Nat.or_self]

theorem asError_ne_success (s : Status) : s.asError ≠ success := by
  intro h
  have hzero := toNat_asError s
  rw [h] at hzero
  have hsuccess : success.toNat = 0 := rfl
  omega

theorem asError_eq_notFound_iff {s : Status} :
    s.asError = notFound ↔ s = notFound ∨ s = missingWarning := by
  have hnotFound : notFound.toNat = 2 ^ 63 + 14 := rfl
  have hwarning : missingWarning.toNat = 14 := rfl
  have hlt := s.toNat_lt
  rw [← UInt64.toNat_inj, ← UInt64.toNat_inj, ← UInt64.toNat_inj, toNat_asError, hnotFound, hwarning]
  omega

end Status

theorem CommBuffer.holds_ofNat {b : CommBuffer} {n : Nat} (hheader : CommHeader.size ≤ n)
    (hn : n ≤ b.length) (hlength : b.length < UInt64.size) : b.Holds (.ofNat n) := by
  have hsize : (UInt64.ofNat n).toNat = n := UInt64.toNat_ofNat_of_lt' (Nat.lt_of_le_of_lt hn hlength)
  rw [Holds, hsize]
  exact ⟨hheader, hn⟩

namespace Communicator
variable {ω : Type} {p : CommParts ω} {d : SmiManage (Machine ω)} {c : Communicator ω}
  {b : CommBuffer} {size : UInt64} {id : UInt8} {data : Bytes} {recipient : Guid}

structure Direct (p : CommParts ω) (d : SmiManage (Machine ω)) (c : Communicator ω) : Prop where
  installed : p.direct = some d
  route : usesMailbox p c.machine = false
  admitted : admits p c.goneVirtual c.machine = true

theorem Direct.able (h : Direct p d c) : p.able = true := by
  rw [CommParts.able, h.installed]
  exact Bool.or_true _

theorem Direct.request (h : Direct p d c) : Direct p d (c.request b recipient data) :=
  ⟨h.installed, h.route, h.admitted⟩

/-- The dispatcher's reply to the request in a buffer, and the machine in which it is left. -/
def directReply (p : CommParts ω) (d : SmiManage (Machine ω)) (b : CommBuffer) (size : UInt64)
    (c : Communicator ω) : HandlerReply × Machine ω :=
  dispatched p d b size (.decode (b.bytes c.machine.memory)) c.machine

/-- The MM side reports a status and the size of the reply with its header. -/
inductive Reports (p : CommParts ω) (b : CommBuffer) (size : UInt64) (c : Communicator ω) :
    Status → Nat → Prop where
  | byMmi {e : MmExecutor (Machine ω)} {left : Machine ω} (installed : p.executor = some e)
      (route : usesMailbox p c.machine = true)
      (answered : e.execute b (c.machine.updateCore p.core (·.post b.address size)) = .ok () left) :
      Reports p b size c (left.cores p.core).status (left.cores p.core).bufferSize.toNat
  | directly {d : SmiManage (Machine ω)} (h : Direct p d c) :
      Reports p b size c (directReply p d b size c).1.status
        ((directReply p d b size c).1.size.toNat + CommHeader.size)

theorem Reports.able {status : Status} {n : Nat} (h : Reports p b size c status n) :
    p.able = true := by
  cases h with
  | byMmi installed _ _ =>
    rw [CommParts.able, installed]
    rfl
  | directly h => exact h.able

theorem send_of_direct (h : Direct p d c) (hsize : b.Holds size) :
    ((directReply p d b size c).1.Fits →
      send p b size c = .ok (marked (directReply p d b size c).1.status,
          (directReply p d b size c).1.size + .ofNat CommHeader.size)
        { c with machine := (directReply p d b size c).2.updateCore p.core fun r =>
            { r with inMm := (c.machine.cores p.core).inMm } }) ∧
    (¬(directReply p d b size c).1.Fits →
      send p b size c = .error (.halt .overflow) { c with machine := (directReply p d b size c).2 }) := by
  have hdirect := sendDirectly_eq p hsize c.goneVirtual c.machine
  rw [if_pos h.admitted, h.installed] at hdirect
  dsimp only at hdirect
  rw [send_eq, if_pos hsize, h.route, if_neg Bool.false_ne_true]
  constructor
  · exact fun hfits => Step.focus_of_ok (hdirect.trans (if_pos hfits))
  · exact fun hfits => Step.focus_of_error (hdirect.trans (if_neg hfits))

theorem send_of_reports {status : Status} {n : Nat} (h : Reports p b size c status n)
    (hsize : b.Holds size) (hn : n < UInt64.size) :
    ∃ c', send p b size c = .ok (marked status, .ofNat n) c' := by
  cases h with
  | @byMmi e left installed route answered =>
    have hmmi := sendByMmi_eq p b size c.machine
    rw [installed] at hmmi
    dsimp only at hmmi
    rw [answered] at hmmi
    rw [send_eq, if_pos hsize, route, if_pos rfl, UInt64.ofNat_toNat]
    exact ⟨_, Step.focus_of_ok hmmi⟩
  | @directly d h =>
    have hsend := (send_of_direct h hsize).1 hn
    rw [UInt64.ofNat_add, UInt64.ofNat_toNat]
    exact ⟨_, hsend⟩

theorem prepare_of_find {able : Bool} {buffers : List CommBuffer} (hable : able = true)
    (hdata : data ≠ []) (hfind : buffers.find? (·.id = id) = some b)
    (hroom : CommHeader.size + data.length ≤ b.length) : prepare able buffers id data = .ok b := by
  have hbuffers : buffers.isEmpty = false := by
    cases buffers with
    | nil => cases hfind
    | cons _ _ => rfl
  rw [prepare, hbuffers, List.isEmpty_eq_false_iff.mpr hdata, hable, hfind]
  exact if_neg (Nat.not_lt.mpr hroom)

theorem holds_request (hroom : CommHeader.size + data.length ≤ b.length)
    (hlength : b.length < UInt64.size) (recipient : Guid) :
    (b.filled recipient data).Holds (.ofNat (CommHeader.size + data.length)) :=
  CommBuffer.holds_ofNat (Nat.le_add_right _ _) hroom hlength

theorem marked_eq_success_iff {s : Status} : marked s = Status.success ↔ s = Status.success := by
  rw [marked]
  by_cases h : s = Status.success
  · rw [if_pos h]
  · rw [if_neg h]
    exact iff_of_false s.asError_ne_success h

theorem marked_eq_notFound_iff {s : Status} :
    marked s = Status.notFound ↔ s = Status.notFound ∨ s = Status.missingWarning := by
  rw [marked]
  by_cases h : s = Status.success
  · rw [if_pos h, h]
    decide
  · rw [if_neg h, Status.asError_eq_notFound_iff]

theorem interpret_marked {n : Nat} (hheader : CommHeader.size ≤ n) (hn : n ≤ b.length)
    (hlength : b.length < UInt64.size) (m : Memory) (status : Status) :
    interpret b m (marked status, .ofNat n) =
      if status = Status.success then .ok (b.message m (n - CommHeader.size))
      else if status = Status.notFound ∨ status = Status.missingWarning then .error .handlerNotFound
      else .error (.mmHandlerFailed status.asError) := by
  have hsize : (UInt64.ofNat n).toNat = n := UInt64.toNat_ofNat_of_lt' (Nat.lt_of_le_of_lt hn hlength)
  have hholds : b.Holds (.ofNat n) := CommBuffer.holds_ofNat hheader hn hlength
  rw [interpret]
  dsimp only
  by_cases hsuccess : status = Status.success
  · rw [if_pos (marked_eq_success_iff.mpr hsuccess), if_pos hsuccess, if_pos hholds, hsize]
  rw [if_neg (mt marked_eq_success_iff.mp hsuccess), if_neg hsuccess]
  by_cases hmissing : status = Status.notFound ∨ status = Status.missingWarning
  · rw [if_pos (marked_eq_notFound_iff.mpr hmissing), if_pos hmissing]
  · rw [if_neg (mt marked_eq_notFound_iff.mp hmissing), if_neg hmissing, marked, if_neg hsuccess]

theorem communicate_of_find (hable : p.able = true) (hdata : data ≠ [])
    (hfind : c.buffers.find? (·.id = id) = some b)
    (hroom : CommHeader.size + data.length ≤ b.length) :
    communicate p id data recipient c =
      match send p (b.filled recipient data) (.ofNat (CommHeader.size + data.length))
          (c.request b recipient data) with
      | .ok answer after =>
        returned (interpret (b.filled recipient data) after.machine.memory answer) after
      | .error e after => .error e after := by
  have hcommunicate := communicate_eq p id data recipient c
  rw [prepare_of_find hable hdata hfind hroom] at hcommunicate
  exact hcommunicate

/-- What a caller is told of a report, whichever way it comes and whatever the status is, when the
reply is inside the buffer. -/
theorem communicate_status {status : Status} {n : Nat} (hdata : data ≠ [])
    (hfind : c.buffers.find? (·.id = id) = some b)
    (hroom : CommHeader.size + data.length ≤ b.length) (hlength : b.length < UInt64.size)
    (hreports : Reports p (b.filled recipient data) (.ofNat (CommHeader.size + data.length))
      (c.request b recipient data) status n)
    (hheader : CommHeader.size ≤ n) (hn : n ≤ b.length) :
    ∃ c', communicate p id data recipient c = returned
      (if status = Status.success then .ok (b.message c'.machine.memory (n - CommHeader.size))
      else if status = Status.notFound ∨ status = Status.missingWarning then .error .handlerNotFound
      else .error (.mmHandlerFailed status.asError)) c' := by
  obtain ⟨c', hsend⟩ := send_of_reports hreports (holds_request hroom hlength recipient)
    (Nat.lt_of_le_of_lt hn hlength)
  refine ⟨c', ?_⟩
  rw [communicate_of_find hreports.able hdata hfind hroom, hsend]
  exact congrArg (returned · c')
    (interpret_marked (b := b.filled recipient data) hheader hn hlength c'.machine.memory status)

/-- An MM side that reports a size and a status and does nothing else. -/
def reporting (size : UInt64) (status : Status) : CommParts Unit :=
  ⟨0x200, viaDispatcher.access, some ⟨fun _ m => .ok () (m.updateCore 0x200 (·.reply size status))⟩,
    some ⟨fun _ area _ m => (⟨area, size, status⟩, m)⟩, 0⟩

/-- One buffer, and a core outside of MM that has or has not registered its entry point. -/
def waiting (registered : Bool) : Communicator Unit :=
  .new [.new 0x1000 7 64] ((Machine.new 0 ()).putCore 0x200 { CoreRecord.new with registered })

theorem reporting_mailbox (size : UInt64) (status : Status) {n : UInt64} {c : Communicator Unit}
    (hroute : usesMailbox (reporting size status) c.machine = true) :
    Reports (reporting size status) b n c status size.toNat :=
  .byMmi (e := ⟨fun _ m => .ok () (m.updateCore 0x200 (·.reply size status))⟩) rfl hroute rfl

theorem reporting_direct (size : UInt64) (status : Status) :
    Direct (reporting size status) ⟨fun _ area _ m => (⟨area, size, status⟩, m)⟩ (waiting false) :=
  ⟨rfl, rfl, rfl⟩

theorem communicate_status_failed :
    (∃ c', communicate (reporting 30 4) 7 [1, 2, 3] Guid.endOfDxe (waiting true) =
      returned (.error (.mmHandlerFailed 0x8000000000000004)) c') ∧
    ∃ c', communicate (reporting 30 4) 7 [1, 2, 3] Guid.endOfDxe (waiting false) =
      returned (.error (.mmHandlerFailed 0x8000000000000004)) c' := by
  have hdata : ([1, 2, 3] : Bytes) ≠ [] := by decide
  have hfind (registered : Bool) :
      (waiting registered).buffers.find? (·.id = 7) = some (.new 0x1000 7 64) := rfl
  have hroom : CommHeader.size + ([1, 2, 3] : Bytes).length ≤ (CommBuffer.new 0x1000 7 64).length := by
    decide
  have hlength : (CommBuffer.new 0x1000 7 64).length < UInt64.size := by decide
  constructor
  · exact communicate_status hdata (hfind true) hroom hlength (reporting_mailbox 30 4 rfl)
      (by decide) (by decide)
  · exact communicate_status hdata (hfind false) hroom hlength
      (.directly (reporting_direct 30 4).request) (by decide) (by decide)

/-- A warning without the error bit is told as a missing handler, on both ways. -/
theorem warning_told_as_missing :
    Reports (reporting 30 Status.missingWarning)
      (.filled (.new 0x1000 7 64) Guid.endOfDxe [1, 2, 3]) 27
      ((waiting true).request (.new 0x1000 7 64) Guid.endOfDxe [1, 2, 3]) Status.missingWarning 30 ∧
    Step.answer (communicate (reporting 30 Status.missingWarning) 7 [1, 2, 3] Guid.endOfDxe)
      (waiting true) = .error (.error .handlerNotFound) ∧
    Step.answer (communicate (reporting 30 Status.missingWarning) 7 [1, 2, 3] Guid.endOfDxe)
      (waiting false) = .error (.error .handlerNotFound) ∧
    Status.missingWarning ≠ Status.notFound ∧
    CommError.handlerNotFound ≠ .mmHandlerFailed Status.missingWarning.asError :=
  ⟨reporting_mailbox 30 Status.missingWarning rfl, by decide +kernel, by decide +kernel, by decide,
    by decide⟩

/-- How a request ends to which the dispatcher replied. When the header can be added to the reply, it
returns what `told` allows and the core is where it was; when not, the machine stops where the
dispatcher left it. -/
def Contained {ε α : Type} (p : CommParts ω) (c : Communicator ω) (reply : HandlerReply)
    (left : Machine ω) (x : EStateM.Result (Fault ε) (Communicator ω) α) (told : Except ε α → Prop) :
    Prop :=
  (reply.Fits → ∃ r c', x = returned r c' ∧
    (c'.machine.cores p.core).inMm = (c.machine.cores p.core).inMm ∧ told r) ∧
  (¬reply.Fits → ∃ c', x = .error (.halt .overflow) c' ∧ c'.machine = left)

theorem inMm_restored (left : Machine ω) (core : UInt64) (inMm : Bool) :
    ((left.updateCore core fun r => { r with inMm }).cores core).inMm = inMm := by
  rw [Machine.cores_updateCore]

theorem communicate_direct (h : Direct p d c) (hdata : data ≠ [])
    (hfind : c.buffers.find? (·.id = id) = some b)
    (hroom : CommHeader.size + data.length ≤ b.length) (hlength : b.length < UInt64.size)
    {reply : HandlerReply} {left : Machine ω}
    (hreply : directReply p d (b.filled recipient data) (.ofNat (CommHeader.size + data.length))
      (c.request b recipient data) = (reply, left)) :
    Contained p c reply left (communicate p id data recipient c) fun r =>
      reply.status = Status.success → b.length < CommHeader.size + reply.size.toNat →
        r = .error .invalidResponse := by
  obtain ⟨hfits, hoverflows⟩ := send_of_direct (h.request (b := b))
    (holds_request hroom hlength recipient)
  rw [hreply] at hfits hoverflows
  rw [communicate_of_find h.able hdata hfind hroom]
  constructor
  · intro hreplyFits
    rw [hfits hreplyFits]
    refine ⟨_, _, rfl, inMm_restored left _ _, fun hsuccess hlong => ?_⟩
    have hsum : (reply.size + .ofNat CommHeader.size).toNat = reply.size.toNat + CommHeader.size := by
      rw [UInt64.toNat_add]
      exact Nat.mod_eq_of_lt hreplyFits
    have hnot : ¬(b.filled recipient data).Holds (reply.size + .ofNat CommHeader.size) := by
      rw [CommBuffer.not_holds_iff, hsum, Nat.add_comm]
      exact .inr hlong
    rw [interpret, if_pos (marked_eq_success_iff.mpr hsuccess), if_neg hnot]
  · intro hreplyOverflows
    rw [hoverflows hreplyOverflows]
    exact ⟨_, rfl, rfl⟩

theorem sendRaw_direct (h : Direct p d c) (hfind : c.buffers.find? (·.id = id) = some b)
    (hsize : b.Holds size) {reply : HandlerReply} {left : Machine ω}
    (hreply : directReply p d b size c = (reply, left)) :
    Contained p c reply left (sendRaw p id size c) fun _ => True := by
  obtain ⟨hfits, hoverflows⟩ := send_of_direct h hsize
  rw [hreply] at hfits hoverflows
  rw [sendRaw_eq, hfind]
  dsimp only
  constructor
  · intro hreplyFits
    rw [hfits hreplyFits]
    exact ⟨.ok _, _, rfl, inMm_restored left _ _, trivial⟩
  · intro hreplyOverflows
    rw [hoverflows hreplyOverflows]
    exact ⟨_, rfl, rfl⟩

/-- A reply of the dispatcher to which a header can be added does not stop the machine, whatever its
size and its status are, and a success that is longer than the buffer is an invalid response. A
larger one stops the machine. -/
theorem direct_reply_contained (h : Direct p d c) (hfind : c.buffers.find? (·.id = id) = some b)
    (hlength : b.length < UInt64.size) :
    (∀ data recipient reply left, data ≠ [] → CommHeader.size + data.length ≤ b.length →
      directReply p d (b.filled recipient data) (.ofNat (CommHeader.size + data.length))
        (c.request b recipient data) = (reply, left) →
      Contained p c reply left (communicate p id data recipient c) fun r =>
        reply.status = Status.success → b.length < CommHeader.size + reply.size.toNat →
          r = .error .invalidResponse) ∧
    ∀ size reply left, b.Holds size → directReply p d b size c = (reply, left) →
      Contained p c reply left (sendRaw p id size c) fun _ => True :=
  ⟨fun _ _ _ _ hdata hroom hreply => communicate_direct h hdata hfind hroom hlength hreply,
    fun _ _ _ hsize hreply => sendRaw_direct h hfind hsize hreply⟩

theorem direct_reply_contained_long :
    (∃ c', communicate (reporting 41 Status.success) 7 [1, 2, 3] Guid.endOfDxe (waiting false) =
      returned (.error .invalidResponse) c' ∧ (c'.machine.cores 0x200).inMm = false) ∧
    ∃ r c', sendRaw (reporting 41 Status.success) 7 27 (waiting false) = returned r c' ∧
      (c'.machine.cores 0x200).inMm = false := by
  obtain ⟨hcommunicate, hraw⟩ := direct_reply_contained (reporting_direct 41 Status.success)
    (show (waiting false).buffers.find? (·.id = 7) = some (.new 0x1000 7 64) from rfl)
    (show (64 : Nat) < UInt64.size by decide)
  constructor
  · obtain ⟨hfits, -⟩ := hcommunicate [1, 2, 3] Guid.endOfDxe _ _ (by decide) (by decide) rfl
    obtain ⟨r, c', hend, hinMm, htold⟩ := hfits
      (show (41 : UInt64).toNat + CommHeader.size < UInt64.size by decide)
    rw [htold rfl (show 64 < CommHeader.size + (41 : UInt64).toNat by decide)] at hend
    exact ⟨c', hend, hinMm⟩
  · obtain ⟨hfits, -⟩ := hraw 27 _ _ (by decide) rfl
    obtain ⟨r, c', hend, hinMm, -⟩ := hfits
      (show (41 : UInt64).toNat + CommHeader.size < UInt64.size by decide)
    exact ⟨r, c', hend, hinMm⟩

/-- The largest reply stops the machine, with the core still in MM. -/
theorem direct_reply_overflows :
    Step.answer (communicate (reporting 0xFFFFFFFFFFFFFFFF Status.success) 7 [1, 2, 3] Guid.endOfDxe)
      (waiting false) = .error (.halt .overflow) ∧
    Step.answer (sendRaw (reporting 0xFFFFFFFFFFFFFFFF Status.success) 7 27) (waiting false) =
      .error (.halt .overflow) ∧
    ((Step.after (communicate (reporting 0xFFFFFFFFFFFFFFFF Status.success) 7 [1, 2, 3] Guid.endOfDxe)
      (waiting false)).machine.cores 0x200).inMm = true ∧
    ((waiting false).machine.cores 0x200).inMm = false := by
  decide +kernel

end Communicator
end PlatformInit
