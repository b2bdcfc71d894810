import PlatformInit.Proofs.Bytes.Slicing
import PlatformInit.Proofs.Step
import PlatformInit.Volume.Header

/-!
The header of a volume: which bytes it is read from, and that it is read back from its written form.
-/
set_option autoImplicit false
namespace PlatformInit

namespace VolumeHeader

theorem fields?_take {bytes : Bytes} {n : Nat} (h : size ≤ n) : fields? (bytes.take n) = fields? bytes := by
  rw [size] at h
  simp (disch := omega) only [fields?, Guid.read?, lengthOffset, signatureOffset, Bytes.u64?, Bytes.u32?,
    Bytes.u16?, Bytes.word?, Bytes.u8?, Bytes.slice?_take, List.getElem?_take_of_lt]

theorem read_take {bytes : Bytes} {n : Nat} (h : size ≤ n) : read (bytes.take n) = read bytes := by
  rw [read, fields?_take h, read]

/-- The bytes of a header. What the vector at the beginning and the reserved byte hold does not matter. -/
def toBytes (h : VolumeHeader) (vector : Bytes) (reserved : UInt8) : Bytes :=
  vector ++ (h.fileSystem.toBytes ++ (le64 h.length ++ (le32 h.signature ++ (le32 h.attributes ++
    (le16 h.headerLength ++ (le16 h.checksum ++ (le16 h.extHeaderOffset ++ [reserved, h.revision])))))))

theorem fields?_toBytes (h : VolumeHeader) {vector : Bytes} (hvector : vector.length = 0x10)
    (reserved : UInt8) (rest : Bytes) : fields? (h.toBytes vector reserved ++ rest) = some h := by
  simp [fields?, toBytes, hvector, lengthOffset, signatureOffset, Guid.read?_append_of_le, Guid.read?_toBytes,
    Bytes.u64?_append_of_le, Bytes.u64?_le64, Bytes.u32?_append_of_le, Bytes.u32?_le32,
    Bytes.u16?_append_of_le, Bytes.u16?_le16, Bytes.u8?_append_of_le, Bytes.u8?_cons_succ, Bytes.u8?_cons_zero]

end VolumeHeader

theorem Volume.read_eq_ok {bytes : Bytes} {v : Volume} : Volume.read bytes = .ok v ↔
    VolumeHeader.read bytes = .ok v.header ∧ bytes.slice? 0 v.header.length.toNat = some v.bytes := by
  rw [Volume.read, Fallible.bind_eq_ok]
  constructor
  · rintro ⟨header, hread, h⟩
    split at h
    · cases h
    · rename_i covered hslice
      cases h
      exact ⟨hread, hslice⟩
  · rintro ⟨hread, hslice⟩
    refine ⟨v.header, hread, ?_⟩
    rw [hslice]
    rfl

end PlatformInit
