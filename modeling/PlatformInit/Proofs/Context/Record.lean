import PlatformInit.Context.Record
import PlatformInit.Proofs.Bytes.Reading
import PlatformInit.Proofs.Memory

/-!
The global context and its seventy-two bytes: what is stored is loaded again.
-/
set_option autoImplicit false
namespace PlatformInit

theorem Bytes.numberAt_le32_low (n : UInt32) (rest : Bytes) :
    numberAt (le32 n ++ rest) 1 0 = n.toNat % 256 := by
  have hlow : numberAt (le32 n ++ rest) 1 0 = leValue [UInt8.ofNat n.toNat] := rfl
  rw [hlow, leValue, leValue, UInt8.toNat_ofNat']
  omega

namespace GlobalContext

theorem field_eq (bytes : Bytes) (offset width : Nat) :
    field bytes offset width = bytes.numberAt width offset := rfl

@[simp] theorem length_handleBytes (h : Option ConfigHandle) : (handleBytes h).length = 12 := by
  cases h <;> simp [handleBytes]

@[simp] theorem length_toBytes (c : GlobalContext) : c.toBytes.length = size := by
  simp [toBytes, size]

theorem field_append_of_le {p q : Bytes} {offset width : Nat} (h : p.length ≤ offset) :
    field (p ++ q) offset width = field q (offset - p.length) width := Bytes.numberAt_append_of_le h

theorem handleAt_append_of_le {p q : Bytes} {offset : Nat} (h : p.length ≤ offset) :
    handleAt (p ++ q) offset = handleAt q (offset - p.length) := by
  unfold handleAt
  rw [field_append_of_le h, field_append_of_le (by omega), field_append_of_le (by omega),
    Nat.sub_add_comm h, Nat.sub_add_comm h]

theorem handleAt_handleBytes (h : Option ConfigHandle) (rest : Bytes) :
    handleAt (handleBytes h ++ rest) 0 = h := by
  cases h with
  | none =>
    have hnone : field (handleBytes none ++ rest) 0 4 = 0 := by
      rw [field_eq, handleBytes, List.append_assoc, List.append_assoc, Bytes.numberAt_le32]
      rfl
    rw [handleAt, if_pos hnone]
  | some h =>
    have htag : field (handleBytes (some h) ++ rest) 0 4 ≠ 0 := by
      rw [field_eq, handleBytes, List.append_assoc, List.append_assoc, Bytes.numberAt_le32]
      decide
    have hgeneration : field (handleBytes (some h) ++ rest) 4 4 = h.generation.toNat := by
      rw [field_eq, handleBytes, List.append_assoc, List.append_assoc,
        Bytes.numberAt_append_of_le (by simp), length_le32, Bytes.numberAt_le32]
    have hindex : field (handleBytes (some h) ++ rest) 8 4 = h.index.toNat := by
      rw [field_eq, handleBytes, List.append_assoc, List.append_assoc,
        Bytes.numberAt_append_of_le (by simp), length_le32, Bytes.numberAt_append_of_le (by simp),
        length_le32, Bytes.numberAt_le32]
    rw [handleAt, if_neg htag, hgeneration, hindex, UInt32.ofNat_toNat, UInt32.ofNat_toNat]

theorem handleAt_handleBytes_self (h : Option ConfigHandle) : handleAt (handleBytes h) 0 = h := by
  rw [← List.append_nil (handleBytes h), handleAt_handleBytes]

theorem ofBytes_toBytes (c : GlobalContext) : ofBytes c.toBytes = c := by
  simp (disch := simp) [ofBytes, toBytes, field_eq, List.append_assoc, Bytes.numberAt_append_of_le,
    Bytes.numberAt_le32_low, handleAt_append_of_le, handleAt_handleBytes, handleAt_handleBytes_self]

def Clear (address : UInt64) (start length : Nat) : Prop :=
  Memory.Apart address.toNat size start length

theorem read_store (m : Memory) (address : UInt64) (c : GlobalContext) :
    (store m address c).read address.toNat size = c.toBytes := by
  rw [store, ← length_toBytes c, Memory.read_write]

theorem load_store (m : Memory) (address : UInt64) (c : GlobalContext) :
    load (store m address c) address = c := by
  rw [load, read_store, ofBytes_toBytes]

theorem read_store_of_clear (m : Memory) {address : UInt64} {start length : Nat} (c : GlobalContext)
    (h : Clear address start length) : (store m address c).read start length = m.read start length :=
  m.read_write_of_apart ((length_toBytes c).symm ▸ h.symm)

theorem load_write_of_clear (m : Memory) {address : UInt64} {start : Nat} {bytes : Bytes}
    (h : Clear address start bytes.length) : load (m.write start bytes) address = load m address := by
  rw [load, load, m.read_write_of_apart h]

theorem load_store_of_clear (m : Memory) {a b : UInt64} (c : GlobalContext)
    (h : Clear a b.toNat size) : load (store m b c) a = load m a :=
  load_write_of_clear m ((length_toBytes c).symm ▸ h)

end GlobalContext
end PlatformInit
