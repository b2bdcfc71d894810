import PlatformInit.Memory
import PlatformInit.Proofs.Bytes.Overwriting

/-!
Memory after a write: what was written is read back, and elsewhere what was there before.
-/
set_option autoImplicit false
namespace PlatformInit.Memory

theorem getElem_read (m : Memory) (address length i : Nat) (h : i < (m.read address length).length) :
    (m.read address length)[i] = m.byte (address + i) := by
  simp [read]

theorem read_write_of_le (m : Memory) (address : Nat) {bytes : Bytes} {length : Nat}
    (h : bytes.length ≤ length) : (m.write address bytes).read address length =
      bytes ++ (m.read address length).drop bytes.length := by
  apply List.ext_getElem
  · rw [length_read, List.length_append, List.length_drop, length_read]
    omega
  · intro i hi hboth
    rw [getElem_read, byte_write, if_neg (by omega), Nat.add_sub_cancel_left,
      List.getD_eq_getElem?_getD]
    by_cases hwritten : i < bytes.length
    · rw [List.getElem_append_left hwritten, List.getElem?_eq_getElem hwritten, Option.getD_some]
    · rw [List.getElem_append_right (Nat.not_lt.mp hwritten), List.getElem_drop, getElem_read,
        List.getElem?_eq_none (Nat.not_lt.mp hwritten), Option.getD_none]
      congr 1
      omega

theorem read_write (m : Memory) (address : Nat) (bytes : Bytes) :
    (m.write address bytes).read address bytes.length = bytes := by
  rw [read_write_of_le m address (Nat.le_refl _), List.drop_of_length_le, List.append_nil]
  exact Nat.le_of_eq (length_read ..)

/-- Two ranges, each with its length, have no address in common. -/
def Apart (a n b k : Nat) : Prop := a + n ≤ b ∨ b + k ≤ a

theorem Apart.symm {a n b k : Nat} (h : Apart a n b k) : Apart b k a n := Or.symm h

theorem read_write_of_apart (m : Memory) {a n b : Nat} {bytes : Bytes}
    (h : Apart a n b bytes.length) : (m.write b bytes).read a n = m.read a n := by
  apply List.ext_getElem
  · rw [length_read, length_read]
  · intro i hi _
    rw [length_read] at hi
    rw [getElem_read, getElem_read, byte_write]
    split
    · rfl
    · rw [List.getD_eq_getElem?_getD, List.getElem?_eq_none, Option.getD_none]
      cases h with
      | inl h => omega
      | inr h => omega

theorem read_write_within (m : Memory) (a : Nat) {bytes : Bytes} {i n : Nat}
    (h : i + n ≤ bytes.length) :
    (m.write a bytes).read (a + i) n = (bytes.drop i).take n := by
  apply List.ext_getElem
  · rw [length_read, List.length_take, List.length_drop]
    omega
  · intro j hj _
    rw [length_read] at hj
    rw [getElem_read, byte_write, if_neg (by omega), List.getElem_take, List.getElem_drop,
      List.getD_eq_getElem?_getD, List.getElem?_eq_getElem (by omega), Option.getD_some]
    congr 1
    omega

theorem read_write_overwrite (m : Memory) (a : Nat) {part : Bytes} {i n : Nat} (h : i + part.length ≤ n) :
    (m.write (a + i) part).read a n = (m.read a n).overwrite i part := by
  have hfits : i + part.length ≤ (m.read a n).length := by rwa [length_read]
  apply List.ext_getElem?
  intro j
  rw [Bytes.getElem?_overwrite hfits]
  by_cases hj : j < n
  · rw [List.getElem?_eq_getElem (by rwa [length_read]), getElem_read, byte_write,
      List.getD_eq_getElem?_getD, List.getElem?_eq_getElem (l := m.read a n) (by rwa [length_read]),
      getElem_read]
    by_cases hin : Extent.Holds ⟨i, part.length⟩ j
    · obtain ⟨hle, hlt⟩ := hin
      dsimp only at hle hlt
      rw [if_pos (show Extent.Holds ⟨i, part.length⟩ j from ⟨hle, hlt⟩), if_neg (by omega),
        show a + j - (a + i) = j - i by omega, List.getElem?_eq_getElem (by omega), Option.getD_some]
    · rw [if_neg hin]
      split
      · rfl
      · rw [List.getElem?_eq_none, Option.getD_none]
        change ¬(i ≤ j ∧ j < i + part.length) at hin
        omega
  · rw [if_neg (fun hin => by have := hin.2; dsimp only at this; omega), List.getElem?_eq_none,
      List.getElem?_eq_none]
    all_goals
      rw [length_read]
      omega

theorem byte_write_of_outside (m : Memory) {a b : Nat} {bytes : Bytes}
    (h : b < a ∨ a + bytes.length ≤ b) : (m.write a bytes).byte b = m.byte b := by
  rw [byte_write]
  split
  · rfl
  · rw [List.getD_eq_getElem?_getD, List.getElem?_eq_none, Option.getD_none]
    omega

theorem u32_write_of_apart (m : Memory) {a b : Nat} {bytes : Bytes} (h : Apart a 4 b bytes.length) :
    (m.write b bytes).u32 a = m.u32 a := by
  rw [u32, u32, read_write_of_apart m h]

theorem u64_write_of_apart (m : Memory) {a b : Nat} {bytes : Bytes} (h : Apart a 8 b bytes.length) :
    (m.write b bytes).u64 a = m.u64 a := by
  rw [u64, u64, read_write_of_apart m h]

end PlatformInit.Memory
