import PlatformInit.Proofs.Cache.Covering
import PlatformInit.Proofs.Word.Multiples

/-!
The covering range as the least of its kind.

Up to half of 4 GiB the length is rounded up to a power of two, and from there on to a multiple of
256 MiB. `Covers` says so without the code, and what holds of all covering ranges together, their order
and that they cover themselves, is read off `Covers`.
-/
set_option autoImplicit false
namespace PlatformInit

/-- `p` is the least power of two that is not below `n`. -/
def NextPower (n p : Nat) : Prop := IsLeast {q | (∃ k, q = 2 ^ k) ∧ n ≤ q} p

theorem nextPower_two_pow {n k : Nat} (hle : n ≤ 2 ^ k) (hleast : ∀ j, n ≤ 2 ^ j → k ≤ j) :
    NextPower n (2 ^ k) := by
  refine ⟨⟨⟨k, rfl⟩, hle⟩, ?_⟩
  rintro q ⟨⟨j, rfl⟩, hj⟩
  exact Nat.pow_le_pow_right (by decide) (hleast j hj)

theorem exists_nextPower (n : Nat) : ∃ p, NextPower n p := by
  obtain ⟨k, -, hle, hleast⟩ := exists_least_power n
  exact ⟨2 ^ k, nextPower_two_pow hle hleast⟩

theorem nextPower_of_nextPowerOfTwo {n p : UInt64} (h : nextPowerOfTwo n = some p) :
    NextPower n.toNat p.toNat := by
  obtain ⟨k, hk, hle, hleast⟩ := nextPowerOfTwo_eq_some h
  rw [hk]
  exact nextPower_two_pow hle hleast

theorem NextPower.lt_iff {n p : Nat} (h : NextPower n p) : p < 2 ^ 32 ↔ n ≤ 2 ^ 31 := by
  constructor
  · intro hlt
    obtain ⟨k, rfl⟩ := h.1.1
    have hk : k < 32 := (Nat.pow_lt_pow_iff_right (by decide)).mp hlt
    exact Nat.le_trans h.1.2 (Nat.pow_le_pow_right (by decide) (Nat.le_of_lt_succ hk))
  · intro hle
    have hp : p ≤ 2 ^ 31 := h.2 ⟨⟨31, rfl⟩, hle⟩
    omega

namespace CachePolicy

/-- `c` is the least power of two from `n` on, if that is below 4 GiB, and otherwise the least multiple of
256 MiB. -/
def Covers (n c : Nat) : Prop :=
  NextPower n c ∧ c < 2 ^ 32 ∨ (∀ p, NextPower n p → 2 ^ 32 ≤ p) ∧ NextMultiple (2 ^ 28) n c

section
variable {n m c d : Nat}

theorem covers_iff : Covers n c ↔
    n ≤ 2 ^ 31 ∧ NextPower n c ∨ 2 ^ 31 < n ∧ NextMultiple (2 ^ 28) n c := by
  have hlarge : (∀ p, NextPower n p → 2 ^ 32 ≤ p) ↔ 2 ^ 31 < n := by
    obtain ⟨p, hp⟩ := exists_nextPower n
    constructor
    · intro h
      exact Nat.not_le.mp fun hle => Nat.not_lt.mpr (h p hp) (hp.lt_iff.mpr hle)
    · intro h q hq
      exact Nat.not_lt.mp fun hlt => Nat.not_le.mpr h (hq.lt_iff.mp hlt)
  rw [Covers, hlarge]
  exact or_congr_left ⟨fun h => ⟨h.1.lt_iff.mp h.2, h.1⟩, fun h => ⟨h.2, h.2.lt_iff.mpr h.1⟩⟩

theorem Covers.le (h : Covers n c) : n ≤ c := by
  obtain ⟨h, -⟩ | ⟨-, h⟩ := h
  · exact h.1.2
  · exact h.1.2

theorem Covers.unique (hc : Covers n c) (hd : Covers n d) : c = d := by
  obtain ⟨hsmall, hc⟩ | ⟨hlarge, hc⟩ := covers_iff.mp hc
  · obtain ⟨-, hd⟩ | ⟨hlarge, -⟩ := covers_iff.mp hd
    · exact IsLeast.unique hc hd
    · omega
  · obtain ⟨hsmall, -⟩ | ⟨-, hd⟩ := covers_iff.mp hd
    · omega
    · exact IsLeast.unique hc hd

theorem Covers.le_size4G (h : Covers n c) (hn : n ≤ 2 ^ 32) : c ≤ 2 ^ 32 := by
  obtain ⟨hsmall, h⟩ | ⟨-, h⟩ := covers_iff.mp h
  · exact Nat.le_of_lt (h.lt_iff.mpr hsmall)
  · exact h.2 ⟨⟨16, rfl⟩, hn⟩

theorem Covers.mono (hc : Covers n c) (hd : Covers m d) (hle : n ≤ m) : c ≤ d := by
  have hcover : n ≤ d := Nat.le_trans hle hd.le
  obtain ⟨hsmall, hc⟩ | ⟨hlarge, hc⟩ := covers_iff.mp hc
  · obtain ⟨-, hd⟩ | ⟨hlarge, hd⟩ := covers_iff.mp hd
    · exact hc.2 ⟨hd.1.1, hcover⟩
    · have hhalf : c ≤ 2 ^ 31 := hc.2 ⟨⟨31, rfl⟩, hsmall⟩
      exact Nat.le_trans hhalf (Nat.le_trans (Nat.le_of_lt hlarge) hd.1.2)
  · obtain ⟨hsmall, -⟩ | ⟨-, hd⟩ := covers_iff.mp hd
    · omega
    · exact hc.2 ⟨hd.1.1, hcover⟩

theorem Covers.self (h : Covers n c) : Covers c c := by
  obtain ⟨hsmall, h⟩ | ⟨hlarge, h⟩ := covers_iff.mp h
  · exact covers_iff.mpr (.inl ⟨h.2 ⟨⟨31, rfl⟩, hsmall⟩, ⟨h.1.1, Nat.le_refl c⟩, fun _ hq => hq.2⟩)
  · exact covers_iff.mpr
      (.inr ⟨Nat.lt_of_lt_of_le hlarge h.1.2, ⟨h.1.1, Nat.le_refl c⟩, fun _ hq => hq.2⟩)

theorem Covers.le_limit (h : Covers n c) (hn : n ≤ 2 ^ 64 - 2 ^ 28) : c ≤ 2 ^ 64 - 2 ^ 28 := by
  obtain ⟨hsmall, h⟩ | ⟨-, h⟩ := covers_iff.mp h
  · have hlt := h.lt_iff.mpr hsmall
    omega
  · exact h.2 ⟨⟨2 ^ 36 - 1, rfl⟩, hn⟩

end

section
variable {low covering : UInt64}

/-- The length that stands for a power that no word can hold decides the kind of rounding as that power
would. -/
theorem size4G_le_power_iff : size4G ≤ (nextPowerOfTwo low).getD 0xFFFFFFFFFFFFFFFF ↔
    2 ^ 31 < low.toNat := by
  cases hnext : nextPowerOfTwo low with
  | none =>
    have hlarge : 2 ^ 31 < low.toNat := Nat.not_le.mp fun hle =>
      absurd (nextPowerOfTwo_eq_none hnext hle) (by decide)
    exact iff_of_true (by decide) hlarge
  | some p =>
    have hlt := (nextPower_of_nextPowerOfTwo hnext).lt_iff
    have hword : size4G ≤ p ↔ 2 ^ 32 ≤ p.toNat := UInt64.le_iff_toNat_le
    rw [Option.getD_some, hword]
    omega

theorem coveringRange_covers (hlow : low.toNat ≤ 2 ^ 64 - 2 ^ 28) :
    ∃ covering, coveringRange low = .ok covering ∧ Covers low.toNat covering.toNat := by
  unfold coveringRange
  dsimp only
  by_cases hlarge : 2 ^ 31 < low.toNat
  · rw [if_pos (size4G_le_power_iff.mpr hlarge)]
    obtain ⟨raised, hadd⟩ : ∃ raised, add64 low (size256M - 1) = .ok raised :=
      ⟨_, if_pos (show low.toNat + (2 ^ 28 - 1) < 2 ^ 64 by omega)⟩
    have hraised : raised.toNat = low.toNat + (2 ^ 28 - 1) := add64_eq_ok_iff.mp hadd
    have hmod : (raised % size256M).toNat = raised.toNat % 2 ^ 28 := UInt64.toNat_mod ..
    have hround : (raised - raised % size256M).toNat = roundUp (2 ^ 28) low.toNat := by
      rw [UInt64.toNat_sub_of_le _ _ (UInt64.le_iff_toNat_le.mpr (by omega)), hmod, roundUp, ← hraised]
      omega
    refine ⟨raised - raised % size256M, by rw [hadd]; rfl, covers_iff.mpr (.inr ⟨hlarge, ?_⟩)⟩
    rw [hround]
    exact nextMultiple_roundUp (by decide) _
  · have hsmall := Nat.not_lt.mp hlarge
    rw [if_neg (mt size4G_le_power_iff.mp hlarge)]
    cases hnext : nextPowerOfTwo low with
    | none => exact absurd (nextPowerOfTwo_eq_none hnext hsmall) (by decide)
    | some p => exact ⟨p, rfl, covers_iff.mpr (.inl ⟨hsmall, nextPower_of_nextPowerOfTwo hnext⟩)⟩

theorem coveringRange_eq_ok_iff (hlow : low.toNat ≤ 2 ^ 64 - 2 ^ 28) :
    coveringRange low = .ok covering ↔ Covers low.toNat covering.toNat := by
  obtain ⟨found, hfound, hcovers⟩ := coveringRange_covers hlow
  rw [hfound, Except.ok.injEq]
  constructor
  · rintro rfl
    exact hcovers
  · exact fun h => UInt64.toNat_inj.mp (hcovers.unique h)

theorem hole_mem_ranges {high : UInt64} (hcovering : coveringRange low = .ok covering)
    (hle : low ≤ covering) : ∃ rs, ranges low high = .ok rs ∧
      (⟨low, covering - low, .uncacheable⟩ ∈ rs ↔ covering ≠ low) := by
  obtain ⟨holes, hholes⟩ : ∃ holes, excess low covering = .ok holes := by
    unfold excess
    split
    · exact ⟨_, rfl⟩
    · rw [sub64, if_pos hle]
      exact ⟨_, rfl⟩
  have hranges : ranges low high = .ok _ :=
    Fallible.bind_eq_ok.mpr ⟨covering, hcovering, Fallible.bind_eq_ok.mpr ⟨holes, hholes, rfl⟩⟩
  refine ⟨_, hranges, ?_⟩
  rcases excess_eq_ok hholes with ⟨rfl, rfl⟩ | ⟨length, hlength, hne, rfl⟩
  · rw [UInt64.sub_self]
    by_cases hhigh : high = 0 <;> simp [hhigh, size640K, size128K]
  · have hlen : covering - low = length := by
      apply UInt64.toNat_inj.mp
      rw [UInt64.toNat_sub_of_le _ _ hle]
      omega
    simp [hlen, hne]

/-- Low memory of any length that leaves room to round up is covered by the least range of its kind, which
reaches 4 GiB at most where low memory does. More memory never takes a shorter range, a range covers
itself, and the policy, whatever high memory there is, has a hole behind low memory unless low memory is
its own covering range. -/
theorem coveringRange_least (hlow : low.toNat ≤ 2 ^ 64 - 2 ^ 28) :
    ∃ covering, coveringRange low = .ok covering ∧ Covers low.toNat covering.toNat ∧
      low ≤ covering ∧ (low ≤ size4G → covering ≤ size4G) ∧
      (∀ more, low ≤ more → more.toNat ≤ 2 ^ 64 - 2 ^ 28 →
        ∃ wider, coveringRange more = .ok wider ∧ covering ≤ wider) ∧
      coveringRange covering = .ok covering ∧
      ∀ high, ∃ rs, ranges low high = .ok rs ∧
        (⟨low, covering - low, .uncacheable⟩ ∈ rs ↔ coveringRange low ≠ .ok low) := by
  obtain ⟨covering, hcovering, hcovers⟩ := coveringRange_covers hlow
  have hle : low ≤ covering := UInt64.le_iff_toNat_le.mpr hcovers.le
  refine ⟨covering, hcovering, hcovers, hle, ?_, ?_, ?_, ?_⟩
  · intro h4G
    exact UInt64.le_iff_toNat_le.mpr (hcovers.le_size4G (UInt64.le_iff_toNat_le.mp h4G))
  · intro more hmore hroom
    obtain ⟨wider, hwider, hcovers'⟩ := coveringRange_covers hroom
    exact ⟨wider, hwider,
      UInt64.le_iff_toNat_le.mpr (hcovers.mono hcovers' (UInt64.le_iff_toNat_le.mp hmore))⟩
  · exact (coveringRange_eq_ok_iff (hcovers.le_limit hlow)).mpr hcovers.self
  · intro high
    obtain ⟨rs, hranges, hhole⟩ := hole_mem_ranges hcovering hle
    refine ⟨rs, hranges, hhole.trans (not_congr ?_)⟩
    rw [hcovering, Except.ok.injEq]

theorem coveringRange_least_hole : ∃ covering, coveringRange 0xB0800000 = .ok covering ∧
    covering = 0xC0000000 ∧ ∃ rs, ranges 0xB0800000 0x40000000 = .ok rs ∧
      ⟨0xB0800000, 0xF800000, .uncacheable⟩ ∈ rs := by
  have hlow : (0xB0800000 : UInt64).toNat ≤ 2 ^ 64 - 2 ^ 28 := by decide
  obtain ⟨covering, hcovering, -, -, -, -, -, hpolicy⟩ := coveringRange_least hlow
  have hvalue : coveringRange 0xB0800000 = .ok 0xC0000000 := by decide +kernel
  obtain rfl : covering = 0xC0000000 := Except.ok.inj (hcovering.symm.trans hvalue)
  obtain ⟨rs, hranges, hhole⟩ := hpolicy 0x40000000
  exact ⟨_, hcovering, rfl, rs, hranges, hhole.mpr (by rw [hvalue]; decide)⟩

end
end CachePolicy
end PlatformInit
