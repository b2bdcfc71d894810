import Mathlib.Algebra.Order.Group.Nat
import PlatformInit.Cache.Policy
import PlatformInit.Proofs.Step

/-!
The write-back range that covers low memory.
-/
set_option autoImplicit false
namespace PlatformInit

theorem exists_least_power (n : Nat) : ∃ k, (if n ≤ 1 then 1 else 1 <<< ((n - 1).log2 + 1)) = 2 ^ k ∧
    n ≤ 2 ^ k ∧ ∀ j, n ≤ 2 ^ j → k ≤ j := by
  split
  · rename_i hone
    exact ⟨0, rfl, hone, fun _ _ => Nat.zero_le _⟩
  · rename_i hone
    rw [Nat.one_shiftLeft]
    refine ⟨(n - 1).log2 + 1, rfl, ?_, fun j hj => ?_⟩
    · have := Nat.lt_log2_self (n := n - 1)
      omega
    · exact (Nat.log2_lt (by omega)).mpr (by omega)

theorem nextPowerOfTwo_eq_some {n p : UInt64} (h : nextPowerOfTwo n = some p) :
    ∃ k, p.toNat = 2 ^ k ∧ n.toNat ≤ 2 ^ k ∧ ∀ j, n.toNat ≤ 2 ^ j → k ≤ j := by
  obtain ⟨k, hk, hspec⟩ := exists_least_power n.toNat
  unfold nextPowerOfTwo at h
  dsimp only at h
  rw [hk] at h
  split at h
  · rename_i hlt
    rw [Option.some.injEq] at h
    subst h
    exact ⟨k, UInt64.toNat_ofNat_of_lt' hlt, hspec⟩
  · cases h

theorem nextPowerOfTwo_eq_none {n : UInt64} (h : nextPowerOfTwo n = none) {j : Nat}
    (hj : n.toNat ≤ 2 ^ j) : UInt64.size ≤ 2 ^ j := by
  obtain ⟨k, hk, -, hleast⟩ := exists_least_power n.toNat
  unfold nextPowerOfTwo at h
  dsimp only at h
  rw [hk] at h
  split at h
  · cases h
  · rename_i hlarge
    exact Nat.le_trans (Nat.not_lt.mp hlarge) (Nat.pow_le_pow_right (by decide) (hleast j hj))

namespace CachePolicy

theorem coveringRange_bounds {low covering : UInt64} (hlow : low ≤ size4G)
    (h : coveringRange low = .ok covering) :
    low.toNat ≤ covering.toNat ∧ covering.toNat ≤ size4G.toNat := by
  have hlow' : low.toNat ≤ 2 ^ 32 := UInt64.le_iff_toNat_le.mp hlow
  change low.toNat ≤ covering.toNat ∧ covering.toNat ≤ 2 ^ 32
  unfold coveringRange at h
  dsimp only at h
  split at h
  · cases hadd : add64 low (size256M - 1) with
    | error e =>
      rw [hadd] at h
      cases h
    | ok raised =>
      rw [hadd] at h
      change Except.ok (raised - raised % size256M) = .ok covering at h
      cases h
      have hraised : raised.toNat = low.toNat + (2 ^ 28 - 1) := add64_eq_ok_iff.mp hadd
      have hmod : (raised % size256M).toNat = raised.toNat % 2 ^ 28 := UInt64.toNat_mod ..
      have hsub : (raised - raised % size256M).toNat = raised.toNat - raised.toNat % 2 ^ 28 := by
        rw [UInt64.toNat_sub_of_le _ _ (UInt64.le_iff_toNat_le.mpr (by omega)), hmod]
      omega
  · rename_i hsmall
    rw [Except.ok.injEq] at h
    subst h
    have hlt : ((nextPowerOfTwo low).getD 0xFFFFFFFFFFFFFFFF).toNat < 2 ^ 32 :=
      Nat.lt_of_not_le fun hle => hsmall (UInt64.le_iff_toNat_le.mpr hle)
    cases hnext : nextPowerOfTwo low with
    | none =>
      rw [hnext] at hlt
      exact absurd hlt (by decide)
    | some p =>
      rw [hnext] at hlt
      obtain ⟨k, hk, hle, -⟩ := nextPowerOfTwo_eq_some hnext
      exact ⟨hk ▸ hle, Nat.le_of_lt hlt⟩

theorem excess_eq_ok {low covering : UInt64} {rs : List CacheRange} (h : excess low covering = .ok rs) :
    covering = low ∧ rs = [] ∨
      ∃ length, length.toNat + low.toNat = covering.toNat ∧ covering ≠ low ∧
        rs = [⟨low, length, .uncacheable⟩] := by
  unfold excess at h
  split at h
  · rename_i heq
    cases h
    exact .inl ⟨heq, rfl⟩
  · rename_i hne
    cases hsub : sub64 covering low with
    | error e =>
      rw [hsub] at h
      cases h
    | ok length =>
      rw [hsub] at h
      cases h
      exact .inr ⟨length, sub64_eq_ok_iff.mp hsub, hne, rfl⟩

/-- The policy is three ranges below 1 MiB, the covering range and its excess, and high memory. -/
theorem ranges_eq_ok {low high : UInt64} {rs : List CacheRange} (h : ranges low high = .ok rs) :
    ∃ covering excess, coveringRange low = .ok covering ∧ CachePolicy.excess low covering = .ok excess ∧
      rs = ⟨0, size640K, .writeBack⟩ :: ⟨size640K, size128K, .uncacheable⟩ ::
        ⟨0xC0000, size256K, .writeProtected⟩ :: ⟨0, covering, .writeBack⟩ ::
        (excess ++ if high = 0 then [] else [⟨size4G, high, .writeBack⟩]) := by
  obtain ⟨covering, hcovering, h⟩ := Fallible.bind_eq_ok.mp h
  obtain ⟨excess, hexcess, h⟩ := Fallible.bind_eq_ok.mp h
  cases h
  exact ⟨covering, excess, hcovering, hexcess, rfl⟩

end CachePolicy
end PlatformInit
