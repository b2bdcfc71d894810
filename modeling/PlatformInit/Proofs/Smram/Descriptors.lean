import PlatformInit.Proofs.Bytes.Reading
import PlatformInit.Smram.Descriptor

/-!
The descriptor block as bytes: what is written is read back, whatever follows it.
-/
set_option autoImplicit false
namespace PlatformInit

namespace SmramRange

@[simp] theorem length_toBytes (r : SmramRange) : r.toBytes.length = encodedSize := by
  simp [toBytes, encodedSize]

theorem read?_toBytes (r : SmramRange) (rest : Bytes) : read? (r.toBytes ++ rest) 0 = some r := by
  have hlength : (r.toBytes ++ rest).length = 32 + rest.length := by
    rw [List.length_append, length_toBytes, encodedSize]
  have hread (offset : Nat) (h : offset + 8 ≤ 32) : (r.toBytes ++ rest).u64? offset =
      some (.ofNat (r.toBytes.numberAt 8 offset)) := by
    rw [Bytes.u64?, Bytes.word?_eq, if_pos (by omega), Bytes.numberAt_append, Option.map_some]
    rw [length_toBytes, encodedSize]
    exact h
  rw [read?, hread 0 (by decide), hread 8 (by decide), hread 16 (by decide), hread 24 (by decide)]
  simp [toBytes, Bytes.numberAt_append_of_le]

end SmramRange

namespace DescriptorBlock

theorem length_flatMap_toBytes (ranges : List SmramRange) :
    (ranges.flatMap SmramRange.toBytes).length = SmramRange.encodedSize * ranges.length := by
  induction ranges with
  | nil => rfl
  | cons r ranges ih =>
    rw [List.flatMap_cons, List.length_append, SmramRange.length_toBytes, ih, List.length_cons,
      Nat.mul_succ, Nat.add_comm]

theorem length_encode (ranges : List SmramRange) :
    (encode ranges).length = start + SmramRange.encodedSize * ranges.length := by
  rw [encode, List.length_append, List.length_append, length_leBytes, length_le32,
    length_flatMap_toBytes, start]

theorem drop_start_encode (ranges : List SmramRange) :
    (encode ranges).drop start = ranges.flatMap SmramRange.toBytes := by
  rw [encode, List.drop_left' (by simp [start])]

theorem readRanges_toBytes (ranges : List SmramRange) (rest : Bytes) :
    readRanges ranges.length (ranges.flatMap SmramRange.toBytes ++ rest) = some ranges := by
  induction ranges with
  | nil => rfl
  | cons r ranges ih =>
    rw [List.length_cons, List.flatMap_cons, List.append_assoc, readRanges, SmramRange.read?_toBytes]
    simp only
    rw [List.drop_left' (SmramRange.length_toBytes r), ih]
    rfl

theorem length_of_readRanges {count : Nat} {bytes : Bytes} {ranges : List SmramRange}
    (h : readRanges count bytes = some ranges) : ranges.length = count := by
  induction count generalizing bytes ranges with
  | zero =>
    cases h
    rfl
  | succ count ih =>
    rw [readRanges] at h
    split at h
    · cases h
    · obtain ⟨rest, hrest, rfl⟩ := Option.map_eq_some_iff.mp h
      rw [List.length_cons, ih hrest]

theorem decode_encode {ranges : List SmramRange} (h : ranges.length < UInt32.size) (rest : Bytes) :
    decode (encode ranges ++ rest) = .ok ranges := by
  have hcount : (encode ranges ++ rest).u32? 0 = some (.ofNat ranges.length) := by
    have hlen := length_encode ranges
    rw [start] at hlen
    rw [Bytes.u32?, Bytes.word?_eq, if_pos (by rw [List.length_append]; omega), Option.map_some,
      encode, List.append_assoc, List.append_assoc, Bytes.numberAt_leBytes]
    exact congrArg (fun n => some (UInt32.ofNat n)) (Nat.mod_eq_of_lt h)
  rw [decode, hcount]
  simp only
  rw [UInt32.toNat_ofNat_of_lt' h, List.drop_append_of_le_length, drop_start_encode, readRanges_toBytes]
  rw [length_encode]
  exact Nat.le_add_right _ _

theorem length_lt_of_decode {bytes : Bytes} {ranges : List SmramRange}
    (h : decode bytes = .ok ranges) : ranges.length < UInt32.size := by
  rw [decode] at h
  split at h
  · cases h
  · rename_i count hcount
    split at h
    · cases h
    · rename_i found hfound
      cases h
      rw [length_of_readRanges hfound]
      exact count.toNat_lt_size

end DescriptorBlock
end PlatformInit
