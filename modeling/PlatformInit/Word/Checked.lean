import PlatformInit.Fault

/-!
Arithmetic on machine words that stops the machine instead of losing a carry or a borrow.
-/
set_option autoImplicit false
namespace PlatformInit

def add64 (a b : UInt64) : Except Halt UInt64 :=
  if a.toNat + b.toNat < UInt64.size then .ok (a + b) else .error .overflow

def sub64 (a b : UInt64) : Except Halt UInt64 :=
  if b ≤ a then .ok (a - b) else .error .overflow

def add32 (a b : UInt32) : Except Halt UInt32 :=
  if a.toNat + b.toNat < UInt32.size then .ok (a + b) else .error .overflow

def sub32 (a b : UInt32) : Except Halt UInt32 :=
  if b ≤ a then .ok (a - b) else .error .overflow

def fit64 (n : Nat) : Except Halt Nat :=
  if n < UInt64.size then .ok n else .error .overflow

theorem add64_eq_ok_iff {a b c : UInt64} : add64 a b = .ok c ↔ c.toNat = a.toNat + b.toNat := by
  unfold add64
  split
  · rename_i h
    rw [Except.ok.injEq]
    constructor
    · rintro rfl
      rw [UInt64.toNat_add, Nat.mod_eq_of_lt h]
    · intro hc
      apply UInt64.toNat_inj.mp
      rw [UInt64.toNat_add, Nat.mod_eq_of_lt h, hc]
  · rename_i h
    have := c.toNat_lt_size
    constructor
    · nofun
    · omega

theorem add32_eq_ok_iff {a b c : UInt32} : add32 a b = .ok c ↔ c.toNat = a.toNat + b.toNat := by
  unfold add32
  split
  · rename_i h
    rw [Except.ok.injEq]
    constructor
    · rintro rfl
      rw [UInt32.toNat_add, Nat.mod_eq_of_lt h]
    · intro hc
      apply UInt32.toNat_inj.mp
      rw [UInt32.toNat_add, Nat.mod_eq_of_lt h, hc]
  · rename_i h
    have := c.toNat_lt_size
    constructor
    · nofun
    · omega

theorem sub64_eq_ok_iff {a b c : UInt64} : sub64 a b = .ok c ↔ c.toNat + b.toNat = a.toNat := by
  unfold sub64
  split
  · rename_i h
    have hle := UInt64.le_iff_toNat_le.mp h
    rw [Except.ok.injEq]
    constructor
    · rintro rfl
      rw [UInt64.toNat_sub_of_le _ _ h]
      omega
    · intro hc
      apply UInt64.toNat_inj.mp
      rw [UInt64.toNat_sub_of_le _ _ h]
      omega
  · rename_i h
    have hle := mt UInt64.le_iff_toNat_le.mpr h
    constructor
    · nofun
    · omega

theorem sub32_eq_ok_iff {a b c : UInt32} : sub32 a b = .ok c ↔ c.toNat + b.toNat = a.toNat := by
  unfold sub32
  split
  · rename_i h
    have hle := UInt32.le_iff_toNat_le.mp h
    rw [Except.ok.injEq]
    constructor
    · rintro rfl
      rw [UInt32.toNat_sub_of_le _ _ h]
      omega
    · intro hc
      apply UInt32.toNat_inj.mp
      rw [UInt32.toNat_sub_of_le _ _ h]
      omega
  · rename_i h
    have hle := mt UInt32.le_iff_toNat_le.mpr h
    constructor
    · nofun
    · omega

theorem fit64_eq_ok_iff {n m : Nat} : fit64 n = .ok m ↔ n = m ∧ n < UInt64.size := by
  unfold fit64
  split <;> simp_all only [Except.ok.injEq, and_true, and_false, reduceCtorEq]

end PlatformInit
