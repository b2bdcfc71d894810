import PlatformInit.Proofs.Mm.BufferSlices

/-!
Communicate buffers over all that is done with them.

`Linked` holds of a new buffer and is kept by every operation, so every slice of a run is in bounds and the
request always fits. What a run does to memory stays inside the buffer.
-/
set_option autoImplicit false
namespace PlatformInit
namespace CommBuffer

/-! ### Operations one after another -/

def next (s : CommBuffer × Memory) (op : BufferOp) : CommBuffer × Memory :=
  match attempt op s with
  | .ok t => t
  | .error _ => s

def run (s : CommBuffer × Memory) (ops : List BufferOp) : CommBuffer × Memory := ops.foldl next s

/-- One of the operations was a message that was taken. -/
def Accepts : CommBuffer × Memory → List BufferOp → Prop
  | _, [] => False
  | s, op :: ops => (∃ data t, op = .message data ∧ attempt op s = .ok t) ∨ Accepts (next s op) ops

structure Keeps (s t : CommBuffer × Memory) : Prop where
  address : t.1.address = s.1.address
  length : t.1.length = s.1.length
  outside : ∀ a, a < s.1.start ∨ s.1.start + s.1.length ≤ a → t.2.byte a = s.2.byte a

theorem Keeps.refl (s : CommBuffer × Memory) : Keeps s s := ⟨rfl, rfl, fun _ _ => rfl⟩

theorem Keeps.trans {s t u : CommBuffer × Memory} (hst : Keeps s t) (htu : Keeps t u) : Keeps s u where
  address := htu.address.trans hst.address
  length := htu.length.trans hst.length
  outside a ha := by
    have hstart : t.1.start = s.1.start := congrArg UInt64.toNat hst.address
    rw [htu.outside a (by rw [hstart, hst.length]; exact ha), hst.outside a ha]

/-- The buffer holds `data` for its recipient, and behind it what was there before. -/
structure Carries (s t : CommBuffer × Memory) (data : Bytes) : Prop where
  recipient : t.1.recipient = s.1.recipient
  header : ∃ header, t.1.header? t.2 = some header ∧ some header.recipient = t.1.recipient ∧
    header.messageLength.toNat = data.length
  message : t.1.message t.2 data.length = data
  later : (t.1.bytes t.2).drop (CommHeader.size + data.length) =
    (s.1.bytes s.2).drop (CommHeader.size + data.length)

/-! ### One operation -/

section
variable {s t : CommBuffer × Memory} {data : Bytes}

theorem linked_new (address : UInt64) (id : UInt8) (length : Nat) : (new address id length).Linked :=
  ⟨nofun, fun h => h⟩

theorem attempt_message_eq_ok (h : attempt (.message data) s = .ok t) :
    data.length ≤ s.1.capacity ∧ ∃ g, s.1.recipient = some g ∧
      t = ({ s.1 with messageLength := data.length },
        s.2.write s.1.start ((CommHeader.mk g (.ofNat data.length)).toBytes ++ data)) := by
  rw [attempt, setMessage] at h
  split at h
  · cases h
  rename_i hfits
  split at h
  · cases h
  rename_i g hrecipient
  cases h
  exact ⟨Nat.not_lt.mp hfits, g, hrecipient, rfl⟩

theorem attempt_recipient_eq_ok {g : Guid} (h : attempt (.recipient g) s = .ok t) :
    CommHeader.size ≤ s.1.length ∧ t = ({ s.1 with recipient := some g }, s.2) := by
  rw [attempt, setRecipient] at h
  split at h
  · cases h
  · rename_i hroom
    cases h
    exact ⟨Nat.not_lt.mp hroom, rfl⟩

theorem room_of_message (hlinked : s.1.Linked) (h : attempt (.message data) s = .ok t) :
    CommHeader.size + data.length ≤ s.1.length := by
  obtain ⟨hfits, g, hrecipient, -⟩ := attempt_message_eq_ok h
  have hroom := hlinked.header (Option.isSome_iff_exists.mpr ⟨g, hrecipient⟩)
  rw [capacity] at hfits
  omega

theorem attempt_linked {op : BufferOp} (hlinked : s.1.Linked) (h : attempt op s = .ok t) : t.1.Linked := by
  cases op with
  | reset =>
    cases h
    exact ⟨nofun, fun hroom => hroom⟩
  | recipient g =>
    obtain ⟨hroom, rfl⟩ := attempt_recipient_eq_ok h
    exact ⟨fun _ => hroom, hlinked.request⟩
  | message data =>
    have hroom := room_of_message hlinked h
    obtain ⟨-, g, -, rfl⟩ := attempt_message_eq_ok h
    exact ⟨hlinked.header, fun _ => hroom⟩
  | fill data =>
    cases h
    exact hlinked

theorem attempt_keeps {op : BufferOp} (hlinked : s.1.Linked) (h : attempt op s = .ok t) : Keeps s t := by
  cases op with
  | reset =>
    cases h
    refine ⟨rfl, rfl, fun a ha => Memory.byte_write_of_outside _ ?_⟩
    rwa [List.length_replicate]
  | recipient g =>
    obtain ⟨-, rfl⟩ := attempt_recipient_eq_ok h
    exact ⟨rfl, rfl, fun _ _ => rfl⟩
  | message data =>
    have hroom := room_of_message hlinked h
    obtain ⟨-, g, -, rfl⟩ := attempt_message_eq_ok h
    refine ⟨rfl, rfl, fun a ha => Memory.byte_write_of_outside _ ?_⟩
    rw [List.length_append, CommHeader.length_toBytes]
    omega
  | fill data =>
    cases h
    refine ⟨rfl, rfl, fun a ha => Memory.byte_write_of_outside _ ?_⟩
    rw [List.length_take, messageOffset, capacity]
    omega

theorem attempt_carries (hlinked : s.1.Linked) (hlength : s.1.length < UInt64.size)
    (h : attempt (.message data) s = .ok t) : Carries s t data := by
  have hroom := room_of_message hlinked h
  obtain ⟨-, g, hrecipient, rfl⟩ := attempt_message_eq_ok h
  have hheader := CommHeader.length_toBytes ⟨g, .ofNat data.length⟩
  have hwhole : 0 + ((CommHeader.mk g (.ofNat data.length)).toBytes ++ data).length ≤ s.1.length := by
    rw [List.length_append]
    omega
  have hbytes := s.1.bytes_write s.2 hwhole
  rw [Bytes.overwrite_zero, List.length_append, hheader, List.append_assoc] at hbytes
  refine ⟨rfl, ⟨⟨g, .ofNat data.length⟩, ?_, hrecipient.symm, ?_⟩, ?_, ?_⟩
  · exact (congrArg CommHeader.read? hbytes).trans (CommHeader.read?_toBytes ..)
  · exact UInt64.toNat_ofNat_of_lt' (by omega)
  · refine (congrArg (fun bytes => (bytes.drop CommHeader.size).take data.length) hbytes).trans ?_
    rw [← hheader, List.drop_left, List.take_left]
  · refine (congrArg (fun bytes => bytes.drop (CommHeader.size + data.length)) hbytes).trans ?_
    rw [← List.append_assoc, List.drop_left' (by rw [List.length_append, hheader])]

theorem next_linked (hlinked : s.1.Linked) (op : BufferOp) : (next s op).1.Linked := by
  unfold next
  split
  · exact attempt_linked hlinked (by assumption)
  · exact hlinked

theorem next_keeps (hlinked : s.1.Linked) (op : BufferOp) : Keeps s (next s op) := by
  unfold next
  split
  · exact attempt_keeps hlinked (by assumption)
  · exact Keeps.refl s

/-! ### Runs -/

theorem run_linked (hlinked : s.1.Linked) (ops : List BufferOp) : (run s ops).1.Linked ∧ Keeps s (run s ops) := by
  induction ops generalizing s with
  | nil => exact ⟨hlinked, Keeps.refl s⟩
  | cons op ops ih =>
    obtain ⟨hlinked', hkeeps⟩ := ih (next_linked hlinked op)
    exact ⟨hlinked', (next_keeps hlinked op).trans hkeeps⟩

theorem Accepts.room {ops : List BufferOp} (hlinked : s.1.Linked) (h : Accepts s ops) :
    CommHeader.size ≤ s.1.length := by
  induction ops generalizing s with
  | nil => exact h.elim
  | cons op ops ih =>
    obtain ⟨data, t, rfl, htaken⟩ | hlater := h
    · exact Nat.le_trans (Nat.le_add_right _ _) (room_of_message hlinked htaken)
    · exact (next_keeps hlinked op).length ▸ ih (next_linked hlinked op) hlater

end
end CommBuffer

namespace Window

def run (ops : List BufferOp) : Step Window Empty Unit := ops.forM fun op => Step.ignoringError (perform op)

theorem run_eq {s : CommBuffer × Memory} (hlinked : s.1.Linked) (hlength : s.1.length < UInt64.size)
    (ops : List BufferOp) : run ops (of s) = .ok () (of (CommBuffer.run s ops)) := by
  induction ops generalizing s with
  | nil => rfl
  | cons op ops ih =>
    have hstep : (Step.ignoringError (perform op) : Step Window Empty Unit) (of s) =
        .ok () (of (CommBuffer.next s op)) := by
      have hperform := perform_eq hlinked hlength op
      unfold CommBuffer.next
      cases hattempt : CommBuffer.attempt op s with
      | ok t =>
        rw [hattempt] at hperform
        exact Step.ignoringError_of_ok hperform
      | error e =>
        rw [hattempt] at hperform
        exact Step.ignoringError_of_error hperform
    have hkeeps := CommBuffer.next_keeps hlinked op
    exact Step.forM_cons_eq_ok.mpr ⟨_, hstep,
      ih (CommBuffer.next_linked hlinked op) (hkeeps.length.symm ▸ hlength)⟩

end Window

namespace CommBuffer

/-- Whatever is done with a new buffer, no slice of it is out of bounds and memory around it stays as it is.
It has a recipient only if it has room for a header, and a request only if it has room for that. From there a
message that is taken is what the buffer holds, a refusal changes nothing, and the message area is answered
as far as it goes. -/
theorem run_in_bounds {address : UInt64} {id : UInt8} {length : Nat} (hlength : length < UInt64.size)
    (m : Memory) (ops : List BufferOp) {s : CommBuffer × Memory}
    (hrun : run (new address id length, m) ops = s) :
    Window.run ops (.of (new address id length, m)) = .ok () (.of s) ∧
      Keeps (new address id length, m) s ∧
      (s.1.recipient.isSome = true → CommHeader.size ≤ length) ∧
      (s.1.recipient.isSome = true ∨ Accepts (new address id length, m) ops → s.1.requestSize ≤ length) ∧
      (∀ data t, attempt (.message data) s = .ok t → Carries s t data) ∧
      (∀ op failure w, Window.perform op (.of s) = .error failure w →
        ∃ e, failure = .error e ∧ attempt op s = .error e ∧ w = .of s) ∧
      ∀ n : UInt64, (Window.of s).message? n = some (s.1.message s.2 n.toNat) ∧
        (s.1.message s.2 n.toNat).length = min n.toNat (length - CommHeader.size) := by
  have hnew := linked_new address id length
  have hrefines := Window.run_eq (s := (new address id length, m)) hnew hlength ops
  obtain ⟨hlinked, hkeeps⟩ := run_linked (s := (new address id length, m)) hnew ops
  rw [hrun] at hrefines hlinked hkeeps
  have hsame : s.1.length = length := hkeeps.length
  have hfits : s.1.length < UInt64.size := hsame.symm ▸ hlength
  refine ⟨hrefines, hkeeps, fun hset => hsame ▸ hlinked.header hset, fun hset => ?_,
    fun data t htaken => attempt_carries hlinked hfits htaken, fun op failure w hfail => ?_, fun n => ⟨?_, ?_⟩⟩
  · have hroom : CommHeader.size ≤ s.1.length := by
      cases hset with
      | inl hset => exact hlinked.header hset
      | inr haccepts => exact hsame.symm ▸ haccepts.room hnew
    exact hsame ▸ hlinked.request hroom
  · have hperform := Window.perform_eq hlinked hfits op
    rw [hfail] at hperform
    cases hattempt : attempt op s with
    | ok t =>
      rw [hattempt] at hperform
      cases hperform
    | error e =>
      rw [hattempt] at hperform
      cases hperform
      exact ⟨e, rfl, rfl, rfl⟩
  · exact Window.message?_eq hfits n
  · rw [message, List.length_take, List.length_drop, length_bytes, hsame]

theorem run_in_bounds_four_bytes :
    let s := run (new 0x1000 1 28, .blank) [.recipient Guid.smramMemory, .message [1, 2, 3], .message [1, 2, 3, 4, 5]]
    28 < UInt64.size ∧ s.1.recipient.isSome = true ∧ s.1.requestSize ≤ 28 ∧
      (∃ t, attempt (.message [9]) s = .ok t ∧ Carries s t [9]) ∧
      (∃ e, attempt (.message [1, 2, 3, 4, 5]) s = .error e) ∧
      (Window.of s).message? 100 = some (s.1.message s.2 100) ∧ (s.1.message s.2 100).length = 4 := by
  intro s
  have hlength : 28 < UInt64.size := by decide
  obtain ⟨-, -, -, hrequest, htaken, hrefused, hmessage⟩ := run_in_bounds hlength .blank _ (rfl : _ = s)
  have hset : s.1.recipient.isSome = true := rfl
  have herror : Window.perform (.message [1, 2, 3, 4, 5]) (.of s) =
      .error (.error .tooSmallForMessage) (.of s) := rfl
  obtain ⟨e, -, hattempt, -⟩ := hrefused _ _ _ herror
  exact ⟨hlength, hset, hrequest (.inl hset), ⟨_, rfl, htaken [9] _ rfl⟩, ⟨e, hattempt⟩, hmessage 100⟩

end CommBuffer
end PlatformInit
