import PlatformInit.Guid

/-!
Reading fields without a failure case: the number and the GUID at an offset, and when the checked
reads answer them.
-/
set_option autoImplicit false
namespace PlatformInit
namespace Bytes

/-- The little-endian number in `width` bytes from `offset` on, as far as there are bytes. -/
def numberAt (bytes : Bytes) (width offset : Nat) : Nat := leValue ((bytes.drop offset).take width)

def guidAt (bytes : Bytes) (offset : Nat) : Guid :=
  ⟨.ofNat (bytes.numberAt 4 offset), .ofNat (bytes.numberAt 2 (offset + 4)),
    .ofNat (bytes.numberAt 2 (offset + 6)), .ofNat (leValue ((bytes.drop (offset + 8)).take 8).reverse)⟩

theorem slice?_eq (bytes : Bytes) (offset length : Nat) : bytes.slice? offset length =
    if offset + length ≤ bytes.length then some ((bytes.drop offset).take length) else none := by
  simp only [slice?, reaches_iff]

theorem word?_eq (bytes : Bytes) (width offset : Nat) : bytes.word? width offset =
    if offset + width ≤ bytes.length then some (bytes.numberAt width offset) else none := by
  rw [word?, slice?_eq]
  split <;> rfl

theorem le_length_of_word? {bytes : Bytes} {width offset n : Nat}
    (h : bytes.word? width offset = some n) : offset + width ≤ bytes.length := by
  rw [word?, Option.map_eq_some_iff] at h
  obtain ⟨part, hpart, -⟩ := h
  exact le_length_of_slice? hpart

theorem u8?_eq (bytes : Bytes) (offset : Nat) : bytes.u8? offset =
    if offset + 1 ≤ bytes.length then some (.ofNat (bytes.numberAt 1 offset)) else none := by
  rw [u8?]
  split
  · rename_i h
    have hone : (bytes.drop offset).take 1 = [bytes[offset]] := by
      rw [List.drop_eq_getElem_cons h, List.take_succ_cons, List.take_zero]
    rw [List.getElem?_eq_getElem h, numberAt, hone, leValue, leValue, Nat.mul_zero, Nat.add_zero,
      UInt8.ofNat_toNat]
  · rename_i h
    exact List.getElem?_eq_none (by omega)

theorem u16?_eq_some {bytes : Bytes} {offset : Nat} {n : UInt16} : bytes.u16? offset = some n ↔
    offset + 2 ≤ bytes.length ∧ .ofNat (bytes.numberAt 2 offset) = n := by
  rw [u16?, word?_eq]
  by_cases h : offset + 2 ≤ bytes.length
  · rw [if_pos h, Option.map_some, Option.some.injEq]
    exact (and_iff_right h).symm
  · rw [if_neg h, Option.map_none]
    constructor
    · nofun
    · exact fun hand => absurd hand.1 h

theorem numberAt_lt (bytes : Bytes) (width offset : Nat) :
    bytes.numberAt width offset < 1 <<< (8 * width) := by
  have hlt := leValue_lt ((bytes.drop offset).take width)
  have hlen : ((bytes.drop offset).take width).length ≤ width := by
    rw [List.length_take]
    exact Nat.min_le_left _ _
  rw [Nat.one_shiftLeft] at hlt ⊢
  exact Nat.lt_of_lt_of_le hlt (Nat.pow_le_pow_right (by decide) (by omega))

theorem word?_lt {bytes : Bytes} {width offset n : Nat} (h : bytes.word? width offset = some n) :
    n < 1 <<< (8 * width) := by
  rw [word?_eq] at h
  split at h
  · cases h
    exact numberAt_lt bytes width offset
  · cases h

section
variable {p q : Bytes} {width offset : Nat}

theorem numberAt_append_of_le (h : p.length ≤ offset) :
    numberAt (p ++ q) width offset = q.numberAt width (offset - p.length) := by
  rw [numberAt, List.drop_append, List.drop_eq_nil_of_le h, List.nil_append, numberAt]

theorem guidAt_append_of_le (h : p.length ≤ offset) :
    guidAt (p ++ q) offset = q.guidAt (offset - p.length) := by
  rw [guidAt, numberAt_append_of_le h, numberAt_append_of_le (by omega),
    numberAt_append_of_le (by omega), List.drop_append, List.drop_eq_nil_of_le (by omega),
    List.nil_append, guidAt, show offset + 4 - p.length = offset - p.length + 4 by omega,
    show offset + 6 - p.length = offset - p.length + 6 by omega,
    show offset + 8 - p.length = offset - p.length + 8 by omega]

theorem numberAt_append (h : offset + width ≤ p.length) :
    numberAt (p ++ q) width offset = p.numberAt width offset := by
  rw [numberAt, List.drop_append_of_le_length (by omega), List.take_append_of_le_length, numberAt]
  rw [List.length_drop]
  omega

end

theorem numberAt_leBytes (width n : Nat) (rest : Bytes) :
    numberAt (leBytes width n ++ rest) width 0 = n % 1 <<< (8 * width) := by
  rw [numberAt, List.drop_zero, List.take_left' (length_leBytes width n), leValue_leBytes]

@[simp] theorem numberAt_le16 (n : UInt16) (rest : Bytes) :
    numberAt (le16 n ++ rest) 2 0 = n.toNat := by
  rw [le16, numberAt_leBytes]
  exact Nat.mod_eq_of_lt n.toNat_lt

@[simp] theorem numberAt_le32 (n : UInt32) (rest : Bytes) :
    numberAt (le32 n ++ rest) 4 0 = n.toNat := by
  rw [le32, numberAt_leBytes]
  exact Nat.mod_eq_of_lt n.toNat_lt

@[simp] theorem numberAt_le64 (n : UInt64) (rest : Bytes) :
    numberAt (le64 n ++ rest) 8 0 = n.toNat := by
  rw [le64, numberAt_leBytes]
  exact Nat.mod_eq_of_lt n.toNat_lt

@[simp] theorem numberAt_le64_self (n : UInt64) : numberAt (le64 n) 8 0 = n.toNat := by
  rw [← List.append_nil (le64 n), numberAt_le64]

@[simp] theorem guidAt_toBytes (g : Guid) (rest : Bytes) : guidAt (g.toBytes ++ rest) 0 = g := by
  have htime : numberAt (g.toBytes ++ rest) 4 0 = g.time.toNat := by
    rw [Guid.toBytes, List.append_assoc, List.append_assoc, List.append_assoc, numberAt_le32]
  have hmid : numberAt (g.toBytes ++ rest) 2 4 = g.timeMid.toNat := by
    rw [Guid.toBytes, List.append_assoc, List.append_assoc, List.append_assoc,
      numberAt_append_of_le (by simp), length_le32, numberAt_le16]
  have hhigh : numberAt (g.toBytes ++ rest) 2 6 = g.timeHigh.toNat := by
    rw [Guid.toBytes, List.append_assoc, List.append_assoc, List.append_assoc,
      numberAt_append_of_le (by simp), length_le32, numberAt_append_of_le (by simp), length_le16,
      numberAt_le16]
  have hnode : ((g.toBytes ++ rest).drop 8).take 8 = (le64 g.node).reverse := by
    rw [Guid.toBytes, List.append_assoc, List.drop_left' (by simp), List.take_left' (by simp)]
  rw [guidAt, htime, hmid, hhigh, hnode, List.reverse_reverse, le64, leValue_leBytes,
    Nat.mod_eq_of_lt (show g.node.toNat < 1 <<< (8 * 8) from g.node.toNat_lt)]
  simp only [UInt32.ofNat_toNat, UInt16.ofNat_toNat, UInt64.ofNat_toNat]

@[simp] theorem guidAt_toBytes_self (g : Guid) : guidAt g.toBytes 0 = g := by
  rw [← List.append_nil g.toBytes, guidAt_toBytes]

end Bytes

theorem Guid.read?_eq (bytes : Bytes) (offset : Nat) : Guid.read? bytes offset =
    if offset + 16 ≤ bytes.length then some (bytes.guidAt offset) else none := by
  simp only [Guid.read?, Bytes.u32?, Bytes.u16?, Bytes.word?_eq, Bytes.slice?_eq]
  by_cases h : offset + 16 ≤ bytes.length
  · rw [if_pos h, if_pos (by omega), if_pos (by omega), if_pos (by omega), if_pos (by omega)]
    rfl
  · rw [if_neg h, if_neg (by omega : ¬offset + 8 + 8 ≤ bytes.length)]
    simp

end PlatformInit
