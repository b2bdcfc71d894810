import PlatformInit.Hob.Codec
import PlatformInit.Proofs.Bytes.Reading

/-!
One record of a hand-off list as bytes: which bytes are a record, what they say, and that a record
written by `Hob.toBytes` says what was written.
-/
set_option autoImplicit false
namespace PlatformInit

namespace Bytes

theorem length_padTo (bytes : Bytes) :
    (bytes.padTo 8).length = bytes.length + (8 - bytes.length % 8) % 8 := by
  rw [padTo, List.length_append, List.length_replicate]

theorem padTo_length_mod (bytes : Bytes) : (bytes.padTo 8).length % 8 = 0 := by
  rw [length_padTo]
  omega

theorem padTo_of_mod {bytes : Bytes} (h : bytes.length % 8 = 0) : bytes.padTo 8 = bytes := by
  rw [padTo, h]
  exact List.append_nil bytes

theorem padTo_append {front : Bytes} (h : front.length % 8 = 0) (bytes : Bytes) :
    padTo 8 (front ++ bytes) = front ++ bytes.padTo 8 := by
  rw [padTo, padTo, List.length_append, List.append_assoc,
    show (front.length + bytes.length) % 8 = bytes.length % 8 by omega]

end Bytes

namespace Hob

/-- The length of the shortest body that a record of type `kind` can have. -/
def minBody (kind : UInt16) : Nat :=
  if kind = resourceKind then 40
  else if kind = volumeKind then 16
  else if kind = nestedVolumeKind then 48
  else if kind = cpuKind then 2
  else if kind = guidExtensionKind then 16
  else 0

/-- What a body says as a record of type `kind`: each field from its place in the body, and the
rest of the body where the type keeps it. -/
def decode (kind : UInt16) (body : Bytes) : Hob :=
  if kind = resourceKind then
    resource ⟨body.guidAt 0, .ofNat (body.numberAt 4 16), .ofNat (body.numberAt 4 20),
      .ofNat (body.numberAt 8 24), .ofNat (body.numberAt 8 32)⟩
  else if kind = volumeKind then
    volume (.ofNat (body.numberAt 8 0)) (.ofNat (body.numberAt 8 8))
  else if kind = nestedVolumeKind then
    nestedVolume (.ofNat (body.numberAt 8 0)) (.ofNat (body.numberAt 8 8)) (body.guidAt 16)
      (body.guidAt 32)
  else if kind = cpuKind then cpu (.ofNat (body.numberAt 1 0)) (.ofNat (body.numberAt 1 1))
  else if kind = guidExtensionKind then guidExtension (body.guidAt 0) (body.drop 16)
  else other kind body

section
variable (body : Bytes)

theorem decode_resource : decode resourceKind body =
    resource ⟨body.guidAt 0, .ofNat (body.numberAt 4 16), .ofNat (body.numberAt 4 20),
      .ofNat (body.numberAt 8 24), .ofNat (body.numberAt 8 32)⟩ := rfl

theorem decode_volume : decode volumeKind body =
    volume (.ofNat (body.numberAt 8 0)) (.ofNat (body.numberAt 8 8)) := rfl

theorem decode_nestedVolume : decode nestedVolumeKind body =
    nestedVolume (.ofNat (body.numberAt 8 0)) (.ofNat (body.numberAt 8 8)) (body.guidAt 16)
      (body.guidAt 32) := rfl

theorem decode_cpu : decode cpuKind body =
    cpu (.ofNat (body.numberAt 1 0)) (.ofNat (body.numberAt 1 1)) := rfl

theorem decode_guidExtension : decode guidExtensionKind body =
    guidExtension (body.guidAt 0) (body.drop 16) := rfl

end

theorem ofBody?_eq (kind : UInt16) (body : Bytes) :
    ofBody? kind body = if minBody kind ≤ body.length then some (decode kind body) else none := by
  unfold ofBody? minBody decode
  by_cases hresource : kind = resourceKind
  · simp only [if_pos hresource, Guid.read?_eq, Bytes.u32?, Bytes.u64?, Bytes.word?_eq]
    by_cases h : 40 ≤ body.length
    · rw [if_pos h, if_pos (by omega), if_pos (by omega), if_pos (by omega), if_pos (by omega),
        if_pos (by omega)]
      rfl
    · rw [if_neg h, if_neg (by omega : ¬32 + 8 ≤ body.length)]
      simp
  simp only [if_neg hresource]
  by_cases hvolume : kind = volumeKind
  · simp only [if_pos hvolume, Bytes.u64?, Bytes.word?_eq]
    by_cases h : 16 ≤ body.length
    · rw [if_pos h, if_pos (by omega), if_pos (by omega)]
      rfl
    · rw [if_neg h, if_neg (by omega : ¬8 + 8 ≤ body.length)]
      simp
  simp only [if_neg hvolume]
  by_cases hnested : kind = nestedVolumeKind
  · simp only [if_pos hnested, Guid.read?_eq, Bytes.u64?, Bytes.word?_eq]
    by_cases h : 48 ≤ body.length
    · rw [if_pos h, if_pos (by omega), if_pos (by omega), if_pos (by omega), if_pos (by omega)]
      rfl
    · rw [if_neg h, if_neg (by omega : ¬32 + 16 ≤ body.length)]
      simp
  simp only [if_neg hnested]
  by_cases hcpu : kind = cpuKind
  · simp only [if_pos hcpu, Bytes.u8?_eq]
    by_cases h : 2 ≤ body.length
    · rw [if_pos h, if_pos (by omega), if_pos (by omega)]
      rfl
    · rw [if_neg h, if_neg (by omega : ¬1 + 1 ≤ body.length)]
      simp
  simp only [if_neg hcpu]
  by_cases hguid : kind = guidExtensionKind
  · simp only [if_pos hguid, Guid.read?_eq]
    by_cases h : 16 ≤ body.length
    · rw [if_pos h, if_pos (by omega)]
      rfl
    · rw [if_neg h, if_neg (by omega)]
      rfl
  simp only [if_neg hguid]
  rw [if_pos (Nat.zero_le _)]

def kindOf (record : Bytes) : UInt16 := .ofNat (record.numberAt 2 0)

/-- The bytes of a record: what their header declares fits them. -/
structure IsRecord (record : Bytes) : Prop where
  declared : record.numberAt 2 2 = record.length
  headed : headerSize ≤ record.length
  whole : record.length % 8 = 0
  not_end : kindOf record ≠ endKind
  minBody_le : headerSize + minBody (kindOf record) ≤ record.length

def ofRecord (record : Bytes) : Hob := decode (kindOf record) (record.drop headerSize)

/-- The hob with its data filled up with zeros to a multiple of eight bytes. -/
def padded : Hob → Hob
  | guidExtension name data => guidExtension name (data.padTo 8)
  | other kind data => other kind (data.padTo 8)
  | hob => hob

def takenKinds : List UInt16 :=
  [resourceKind, guidExtensionKind, volumeKind, cpuKind, nestedVolumeKind, endKind]

/-- The hobs that have a faithful binary form. -/
structure Encodable (hob : Hob) : Prop where
  length_le : hob.toBytes.length ≤ 65528
  other_free : ∀ kind data, hob = other kind data → kind ∉ takenKinds

theorem length_toBytes (hob : Hob) :
    hob.toBytes.length = headerSize + (hob.body.padTo 8).length := by
  simp [toBytes, headerSize]
  omega

theorem kindOf_toBytes (hob : Hob) : kindOf hob.toBytes = hob.kind := by
  rw [kindOf, toBytes, List.append_assoc, List.append_assoc, Bytes.numberAt_le16, UInt16.ofNat_toNat]

theorem numberAt_toBytes (hob : Hob) : hob.toBytes.numberAt 2 2 = hob.toBytes.length % 65536 := by
  rw [length_toBytes, toBytes, List.append_assoc, List.append_assoc,
    Bytes.numberAt_append_of_le (by simp), length_le16]
  exact Bytes.numberAt_leBytes 2 _ _

theorem drop_header_toBytes (hob : Hob) : hob.toBytes.drop headerSize = hob.body.padTo 8 := by
  rw [toBytes, List.drop_left' (by simp [headerSize])]

theorem not_taken {kind : UInt16} (h : kind ∉ takenKinds) : kind ≠ resourceKind ∧
    kind ≠ volumeKind ∧ kind ≠ nestedVolumeKind ∧ kind ≠ cpuKind ∧ kind ≠ guidExtensionKind ∧
    kind ≠ endKind := by
  simp only [takenKinds, List.mem_cons, List.not_mem_nil, or_false, not_or] at h
  obtain ⟨hresource, hguid, hvolume, hcpu, hnested, hend⟩ := h
  exact ⟨hresource, hvolume, hnested, hcpu, hguid, hend⟩

theorem decode_other {kind : UInt16} (h : kind ∉ takenKinds) (body : Bytes) :
    decode kind body = other kind body := by
  obtain ⟨hresource, hvolume, hnested, hcpu, hguid, -⟩ := not_taken h
  rw [decode, if_neg hresource, if_neg hvolume, if_neg hnested, if_neg hcpu, if_neg hguid]

theorem minBody_other {kind : UInt16} (h : kind ∉ takenKinds) : minBody kind = 0 := by
  obtain ⟨hresource, hvolume, hnested, hcpu, hguid, -⟩ := not_taken h
  rw [minBody, if_neg hresource, if_neg hvolume, if_neg hnested, if_neg hcpu, if_neg hguid]

section
variable {hob : Hob} (h : ∀ kind data, hob = other kind data → kind ∉ takenKinds)
include h

theorem decode_padTo_body : decode hob.kind (hob.body.padTo 8) = hob.padded := by
  cases hob with
  | resource r =>
    rw [Bytes.padTo_of_mod (by simp [body]), kind, decode_resource]
    simp [body, padded, Bytes.numberAt_append_of_le]
  | volume base length =>
    rw [Bytes.padTo_of_mod (by simp [body]), kind, decode_volume]
    simp [body, padded, Bytes.numberAt_append_of_le]
  | nestedVolume base length volumeName fileName =>
    rw [Bytes.padTo_of_mod (by simp [body]), kind, decode_nestedVolume]
    simp [body, padded, Bytes.numberAt_append_of_le, Bytes.guidAt_append_of_le]
  | cpu memoryBits ioBits =>
    rw [Bytes.padTo_of_mod (by simp [body]), kind, decode_cpu]
    simp [body, padded, Bytes.numberAt, leValue]
  | guidExtension name data =>
    rw [body, Bytes.padTo_append (by simp), kind, decode_guidExtension, padded,
      Bytes.guidAt_toBytes, List.drop_left' (Guid.length_toBytes name)]
  | other code data => rw [kind, decode_other (h code data rfl), body, padded]

theorem minBody_le_body : minBody hob.kind ≤ (hob.body.padTo 8).length := by
  have hbody : hob.body.length ≤ (hob.body.padTo 8).length := by
    rw [Bytes.length_padTo]
    omega
  refine Nat.le_trans ?_ hbody
  cases hob with
  | resource r => simp [body, kind, show minBody resourceKind = 40 from rfl]
  | volume base length => simp [body, kind, show minBody volumeKind = 16 from rfl]
  | nestedVolume base length volumeName fileName =>
    simp [body, kind, show minBody nestedVolumeKind = 48 from rfl]
  | cpu memoryBits ioBits => simp [body, kind, show minBody cpuKind = 2 from rfl]
  | guidExtension name data => simp [body, kind, show minBody guidExtensionKind = 16 from rfl]
  | other kind data =>
    rw [Hob.kind, minBody_other (h kind data rfl)]
    exact Nat.zero_le _

theorem kind_ne_end : hob.kind ≠ endKind := by
  cases hob with
  | other kind data => exact (not_taken (h kind data rfl)).2.2.2.2.2
  | _ =>
    simp only [kind]
    decide

end

theorem isRecord_toBytes {hob : Hob} (h : hob.Encodable) : IsRecord hob.toBytes := by
  have hlen := length_toBytes hob
  have hpad := Bytes.padTo_length_mod hob.body
  have hle := h.length_le
  constructor
  case declared =>
    rw [numberAt_toBytes]
    exact Nat.mod_eq_of_lt (by omega)
  case headed => omega
  case whole =>
    rw [hlen, headerSize]
    omega
  case not_end =>
    rw [kindOf_toBytes]
    exact kind_ne_end h.other_free
  case minBody_le =>
    rw [kindOf_toBytes, hlen]
    exact Nat.add_le_add_left (minBody_le_body h.other_free) _

theorem ofRecord_toBytes {hob : Hob} (h : hob.Encodable) : ofRecord hob.toBytes = hob.padded := by
  rw [ofRecord, kindOf_toBytes, drop_header_toBytes, decode_padTo_body h.other_free]

theorem kind_cases {kind : UInt16} (h : kind ≠ endKind) : kind = resourceKind ∨
    kind = volumeKind ∨ kind = nestedVolumeKind ∨ kind = cpuKind ∨ kind = guidExtensionKind ∨
    kind ∉ takenKinds := by
  by_cases htaken : kind ∈ takenKinds
  · simp only [takenKinds, List.mem_cons, List.not_mem_nil, or_false, h] at htaken
    obtain rfl | rfl | rfl | rfl | rfl := htaken <;> simp only [true_or, or_true]
  · simp only [htaken, not_false_eq_true, or_true]

section
variable {kind : UInt16} {bytes : Bytes} (hend : kind ≠ endKind)
include hend

theorem decode_other_free (code : UInt16) (data : Bytes) (h : decode kind bytes = other code data) :
    code ∉ takenKinds := by
  obtain rfl | rfl | rfl | rfl | rfl | hfree := kind_cases hend
  case inr.inr.inr.inr.inr =>
    rw [decode_other hfree] at h
    cases h
    exact hfree
  all_goals cases h

variable (hwhole : bytes.length % 8 = 0) (hmin : minBody kind ≤ bytes.length)
include hwhole hmin

theorem length_body_decode : ((decode kind bytes).body.padTo 8).length ≤ bytes.length := by
  rw [Bytes.length_padTo]
  obtain rfl | rfl | rfl | rfl | rfl | hfree := kind_cases hend
  · change 40 ≤ _ at hmin
    simp only [decode_resource, body, List.length_append, Guid.length_toBytes, length_le32, length_le64]
    omega
  · change 16 ≤ _ at hmin
    simp only [decode_volume, body, List.length_append, length_le64]
    omega
  · change 48 ≤ _ at hmin
    simp only [decode_nestedVolume, body, List.length_append, Guid.length_toBytes, length_le64]
    omega
  · change 2 ≤ _ at hmin
    simp only [decode_cpu, body, List.length_cons, List.length_nil]
    omega
  · change 16 ≤ _ at hmin
    simp only [decode_guidExtension, body, List.length_append, Guid.length_toBytes, List.length_drop]
    omega
  · rw [decode_other hfree, body]
    omega

theorem padded_decode : (decode kind bytes).padded = decode kind bytes := by
  obtain rfl | rfl | rfl | rfl | rfl | hfree := kind_cases hend
  case inr.inr.inr.inr.inr => rw [decode_other hfree, padded, Bytes.padTo_of_mod hwhole]
  case inr.inr.inr.inr.inl =>
    change 16 ≤ _ at hmin
    rw [decode_guidExtension, padded, Bytes.padTo_of_mod]
    rw [List.length_drop]
    omega
  all_goals rfl

end

section
variable {record : Bytes} (h : IsRecord record)
include h

theorem drop_header_whole : (record.drop headerSize).length % 8 = 0 := by
  have hwhole := h.whole
  rw [List.length_drop, headerSize]
  omega

theorem minBody_le_drop_header : minBody (kindOf record) ≤ (record.drop headerSize).length := by
  have hmin := h.minBody_le
  rw [List.length_drop]
  omega

theorem encodable_ofRecord : (ofRecord record).Encodable := by
  have hlength : record.length < 65536 := by
    rw [← h.declared]
    exact Bytes.numberAt_lt record 2 2
  have hwhole := h.whole
  have hheaded := h.headed
  refine ⟨?_, decode_other_free h.not_end⟩
  have hbody := length_body_decode h.not_end (drop_header_whole h) (minBody_le_drop_header h)
  rw [List.length_drop] at hbody
  rw [length_toBytes, ofRecord]
  omega

theorem padded_ofRecord : (ofRecord record).padded = ofRecord record :=
  padded_decode h.not_end (drop_header_whole h) (minBody_le_drop_header h)

end

end Hob
end PlatformInit
