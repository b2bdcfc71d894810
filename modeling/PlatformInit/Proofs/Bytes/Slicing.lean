import PlatformInit.Proofs.Bytes.Reading

/-!
Slices of a byte string that is put together from parts, and fields read inside them.

A field is a function of the slice that it lies in, so what holds of slices is handed on to words, bytes
and GUIDs.
-/
set_option autoImplicit false
namespace PlatformInit
namespace Bytes

variable {bytes p q part : Bytes} {offset length : Nat}

theorem slice?_append_of_le (q : Bytes) (length : Nat) (h : p.length ≤ offset) :
    slice? (p ++ q) offset length = slice? q (offset - p.length) length := by
  obtain ⟨place, rfl⟩ := Nat.exists_eq_add_of_le h
  simp only [slice?_eq, List.length_append, List.drop_append, List.drop_eq_nil_of_le h, List.nil_append,
    Nat.add_sub_cancel_left, Nat.add_assoc, Nat.add_le_add_iff_left]

theorem slice?_append_right (p q : Bytes) (offset length : Nat) :
    slice? (p ++ q) (p.length + offset) length = slice? q offset length := by
  rw [slice?_append_of_le q length (Nat.le_add_right _ _), Nat.add_sub_cancel_left]

theorem slice?_append_left (q : Bytes) (h : offset + length ≤ p.length) :
    slice? (p ++ q) offset length = slice? p offset length := by
  have hfits : offset + length ≤ (p ++ q).length := by
    rw [List.length_append]
    omega
  rw [slice?_eq, slice?_eq, if_pos h, if_pos hfits, List.drop_append_of_le_length (by omega),
    List.take_append_of_le_length]
  rw [List.length_drop]
  omega

theorem slice?_take {n : Nat} (h : offset + length ≤ n) :
    slice? (bytes.take n) offset length = slice? bytes offset length := by
  by_cases hn : n ≤ bytes.length
  · rw [← slice?_append_left (bytes.drop n) (by rwa [List.length_take, Nat.min_eq_left hn]),
      List.take_append_drop]
  · rw [List.take_of_length_le (by omega)]

theorem slice?_drop (h : offset ≤ bytes.length) (place length : Nat) :
    slice? (bytes.drop offset) place length = bytes.slice? (offset + place) length := by
  simp only [slice?_eq, List.length_drop, List.drop_drop]
  by_cases hfits : place + length ≤ bytes.length - offset
  · rw [if_pos hfits, if_pos (by omega)]
  · rw [if_neg hfits, if_neg (by omega)]

theorem slice?_add (bytes : Bytes) (offset m n : Nat) : bytes.slice? offset (m + n) =
    (bytes.slice? offset m).bind fun p => (bytes.slice? (offset + m) n).map (p ++ ·) := by
  simp only [slice?_eq, List.take_add, List.drop_drop, ← Nat.add_assoc]
  by_cases hfits : offset + m + n ≤ bytes.length
  · have hfirst : offset + m ≤ bytes.length := by omega
    simp only [if_pos hfits, if_pos hfirst, Option.bind_some, Option.map_some]
  · simp only [if_neg hfits, Option.map_none]
    split <;> rfl

theorem slice?_self (bytes : Bytes) : bytes.slice? 0 bytes.length = some bytes := by
  rw [slice?_eq, if_pos (Nat.le_of_eq (Nat.zero_add _)), List.drop_zero, List.take_length]

theorem slice?_eq_some_iff : bytes.slice? offset length = some part ↔
    ∃ before after, bytes = before ++ (part ++ after) ∧ before.length = offset ∧ part.length = length := by
  constructor
  · intro h
    have hfits := le_length_of_slice? h
    rw [slice?_eq, if_pos hfits, Option.some.injEq] at h
    subst h
    refine ⟨bytes.take offset, (bytes.drop offset).drop length, ?_, ?_, ?_⟩
    · rw [List.take_append_drop, List.take_append_drop]
    · rw [List.length_take]
      omega
    · rw [List.length_take, List.length_drop]
      omega
  · rintro ⟨before, after, rfl, rfl, rfl⟩
    rw [← Nat.add_zero before.length, slice?_append_right, slice?_append_left after (by omega), slice?_self]

theorem slice?_behind (p q : Bytes) : slice? (p ++ q) p.length q.length = some q := by
  rw [slice?_append_of_le q q.length (Nat.le_refl _), Nat.sub_self, slice?_self]

theorem slice?_front (p q : Bytes) : slice? (p ++ q) 0 p.length = some p := by
  rw [slice?_append_left q (Nat.le_of_eq (Nat.zero_add _)), slice?_self]

theorem slice?_within (h : bytes.slice? offset part.length = some part) {place : Nat}
    (hfits : place + length ≤ part.length) :
    bytes.slice? (offset + place) length = part.slice? place length := by
  obtain ⟨before, after, rfl, rfl, -⟩ := slice?_eq_some_iff.mp h
  rw [slice?_append_right, slice?_append_left after hfits]

/-! ### Fields -/

theorem word?_within (h : bytes.slice? offset part.length = some part) {width place : Nat}
    (hfits : place + width ≤ part.length) : bytes.word? width (offset + place) = part.word? width place := by
  rw [word?, slice?_within h hfits, word?]

theorem u32?_within (h : bytes.slice? offset part.length = some part) {place : Nat}
    (hfits : place + 4 ≤ part.length) : bytes.u32? (offset + place) = part.u32? place := by
  rw [u32?, word?_within h hfits, u32?]

theorem u8?_within (h : bytes.slice? offset part.length = some part) {place : Nat}
    (hlt : place < part.length) : bytes.u8? (offset + place) = part.u8? place := by
  obtain ⟨before, after, rfl, rfl, -⟩ := slice?_eq_some_iff.mp h
  rw [u8?, List.getElem?_append_right (Nat.le_add_right _ _), Nat.add_sub_cancel_left,
    List.getElem?_append_left hlt, u8?]

theorem word?_append_of_le (q : Bytes) (width : Nat) (h : p.length ≤ offset) :
    word? (p ++ q) width offset = word? q width (offset - p.length) := by
  rw [word?, slice?_append_of_le q width h, word?]

theorem word?_drop (h : offset ≤ bytes.length) (width place : Nat) :
    word? (bytes.drop offset) width place = bytes.word? width (offset + place) := by
  rw [word?, slice?_drop h, word?]

theorem u16?_drop (h : offset ≤ bytes.length) (place : Nat) :
    u16? (bytes.drop offset) place = bytes.u16? (offset + place) := by
  rw [u16?, word?_drop h, u16?]

theorem u32?_drop (h : offset ≤ bytes.length) (place : Nat) :
    u32? (bytes.drop offset) place = bytes.u32? (offset + place) := by
  rw [u32?, word?_drop h, u32?]

theorem word?_leBytes {width n : Nat} (rest : Bytes) (h : n < 1 <<< (8 * width)) :
    word? (leBytes width n ++ rest) width 0 = some n := by
  have hfits : 0 + width ≤ (leBytes width n ++ rest).length := by
    rw [List.length_append, length_leBytes]
    omega
  rw [word?_eq, if_pos hfits, numberAt_leBytes, Nat.mod_eq_of_lt h]

theorem u16?_le16 (n : UInt16) (rest : Bytes) : u16? (le16 n ++ rest) 0 = some n := by
  rw [u16?, le16, word?_leBytes rest n.toNat_lt, Option.map_some, UInt16.ofNat_toNat]

theorem u32?_le32 (n : UInt32) (rest : Bytes) : u32? (le32 n ++ rest) 0 = some n := by
  rw [u32?, le32, word?_leBytes rest n.toNat_lt, Option.map_some, UInt32.ofNat_toNat]

theorem u64?_le64 (n : UInt64) (rest : Bytes) : u64? (le64 n ++ rest) 0 = some n := by
  rw [u64?, le64, word?_leBytes rest n.toNat_lt, Option.map_some, UInt64.ofNat_toNat]

theorem u16?_append_of_le (q : Bytes) (h : p.length ≤ offset) :
    u16? (p ++ q) offset = u16? q (offset - p.length) := by
  rw [u16?, word?_append_of_le q 2 h, u16?]

theorem u32?_append_of_le (q : Bytes) (h : p.length ≤ offset) :
    u32? (p ++ q) offset = u32? q (offset - p.length) := by
  rw [u32?, word?_append_of_le q 4 h, u32?]

theorem u64?_append_of_le (q : Bytes) (h : p.length ≤ offset) :
    u64? (p ++ q) offset = u64? q (offset - p.length) := by
  rw [u64?, word?_append_of_le q 8 h, u64?]

theorem u8?_append_of_le (q : Bytes) (h : p.length ≤ offset) :
    u8? (p ++ q) offset = u8? q (offset - p.length) := by
  rw [u8?, List.getElem?_append_right h, u8?]

theorem u8?_cons_zero (b : UInt8) (rest : Bytes) : u8? (b :: rest) 0 = some b := rfl

theorem u8?_cons_succ (b : UInt8) (rest : Bytes) (n : Nat) : u8? (b :: rest) (n + 1) = u8? rest n := rfl

end Bytes

namespace Guid

theorem read?_append_of_le {p : Bytes} {offset : Nat} (q : Bytes) (h : p.length ≤ offset) :
    read? (p ++ q) offset = read? q (offset - p.length) := by
  have hfits : offset + 16 ≤ p.length + q.length ↔ offset - p.length + 16 ≤ q.length := by
    omega
  rw [read?_eq, read?_eq, Bytes.guidAt_append_of_le h, List.length_append]
  simp only [hfits]

theorem read?_toBytes (g : Guid) (rest : Bytes) : read? (g.toBytes ++ rest) 0 = some g := by
  have hfits : 0 + 16 ≤ (g.toBytes ++ rest).length := by
    rw [List.length_append, length_toBytes]
    omega
  rw [read?_eq, if_pos hfits, Bytes.guidAt_toBytes]

end Guid
end PlatformInit
