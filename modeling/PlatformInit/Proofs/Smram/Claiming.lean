import PlatformInit.Proofs.Smram.Selection
import PlatformInit.Proofs.Word.Multiples

/-!
Which claims on a range are granted, and how many bytes they take.

A claim takes the first multiple of the page size that holds the image and its alignment, and it is
granted when the range is whole pages and larger than that. There is one gap: when the sum fits a word
but the pages do not, their count of bytes drops to zero, and an empty claim is granted.
-/
set_option autoImplicit false
namespace PlatformInit

theorem toNat_pagesToSize_sizeToPages (size : UInt64) :
    (pagesToSize (sizeToPages size)).toNat = roundUp 0x1000 size.toNat % UInt64.size := by
  rw [toNat_pagesToSize, toNat_sizeToPages, roundUp]

theorem and_pageMask_eq_zero_iff (size : UInt64) : size &&& pageMask = 0 ↔ 0x1000 ∣ size.toNat := by
  have hmod : (size &&& pageMask).toNat = size.toNat % 0x1000 := by
    rw [UInt64.toNat_and]
    exact Nat.and_two_pow_sub_one_eq_mod size.toNat 12
  rw [← UInt64.toNat_inj, hmod]
  exact Nat.dvd_iff_mod_eq_zero.symm

namespace SmramTable

variable {t : SmramTable} {index : Nat} {r : SmramRange}

/-- The claim `c` is the last `size` bytes of the range `r`, and nothing else is taken from the table. -/
structure Granted (t : SmramTable) (index : Nat) (r : SmramRange) (size : Nat) (c : Carveout)
    (t' : SmramTable) : Prop where
  index_eq : c.index = index
  size_eq : c.size.toNat = size
  shrinks : (c.rest r).size.toNat + size = r.size.toNat
  destination_eq : c.destination.toNat = (c.rest r).cpuStart.toNat + (c.rest r).size.toNat
  table_eq : t' = ⟨t.ranges.set index (c.rest r)⟩

theorem granted_tail (t : SmramTable) (index : Nat) (hwraps : ¬r.Wraps) {size : UInt64}
    (hle : size.toNat ≤ r.size.toNat) :
    Granted t index r size.toNat ⟨index, size, r.cpuStart + (r.size - size)⟩
      ⟨t.ranges.set index { r with size := r.size - size }⟩ := by
  have hfits : r.cpuStart.toNat + r.size.toNat < UInt64.size := Nat.not_le.mp hwraps
  have hrest := UInt64.toNat_sub_of_le _ _ (UInt64.le_iff_toNat_le.mpr hle)
  refine ⟨rfl, rfl, ?_, ?_, rfl⟩
  · change (r.size - size).toNat + _ = _
    omega
  · change (r.cpuStart + (r.size - size)).toNat = r.cpuStart.toNat + (r.size - size).toNat
    rw [UInt64.toNat_add]
    exact Nat.mod_eq_of_lt (show _ < UInt64.size by omega)

theorem Granted.table_of_empty {c : Carveout} {t' : SmramTable} (h : Granted t index r 0 c t')
    (hr : t.ranges[index]? = some r) : t' = t := by
  have hempty : c.size = 0 := UInt64.toNat_inj.mp h.size_eq
  obtain ⟨hlt, rfl⟩ := List.getElem?_eq_some_iff.mp hr
  rw [h.table_eq, Carveout.rest, hempty, UInt64.sub_zero, List.set_getElem_self]

section
variable (hr : t.ranges[index]? = some r) {imageSize alignment : UInt64}
include hr

theorem carve_of_overflow (h : ¬imageSize.toNat + alignment.toNat < UInt64.size) :
    carve index imageSize alignment t = .error (.error .resourceExhausted) t := by
  rw [carve, Step.bind_of_ok (Step.get_eq_ok.mpr ⟨rfl, rfl⟩), hr]
  dsimp only
  rw [if_neg h]
  rfl

theorem carve_of_fits (hwraps : ¬r.Wraps) (h : imageSize.toNat + alignment.toNat < UInt64.size) :
    if r.size &&& pageMask = 0 ∧ pagesToSize (sizeToPages (imageSize + alignment)) < r.size
    then ∃ c t', carve index imageSize alignment t = .ok c t' ∧
      Granted t index r (pagesToSize (sizeToPages (imageSize + alignment))).toNat c t'
    else carve index imageSize alignment t = .error (.error .resourceExhausted) t := by
  rw [carve, Step.bind_of_ok (Step.get_eq_ok.mpr ⟨rfl, rfl⟩), hr]
  dsimp only
  rw [if_pos h]
  generalize pagesToSize (sizeToPages (imageSize + alignment)) = claim
  split
  · rename_i hgranted
    have htail := granted_tail t index hwraps
      (Nat.le_of_lt (UInt64.lt_iff_toNat_lt.mp hgranted.2))
    have hstop : add64 r.cpuStart (r.size - claim) = .ok (r.cpuStart + (r.size - claim)) :=
      add64_eq_ok_iff.mpr htail.destination_eq
    rw [if_neg (not_or.mpr ⟨not_not.mpr hgranted.1, UInt64.not_le.mpr hgranted.2⟩), hstop]
    exact ⟨_, _, rfl, htail⟩
  · rename_i hrefused
    rw [not_and_or, UInt64.not_lt] at hrefused
    rw [if_pos hrefused]
    rfl

theorem carve_outcome (hwraps : ¬r.Wraps) (imageSize alignment : UInt64) :
    if imageSize.toNat + alignment.toNat < UInt64.size ∧ 0x1000 ∣ r.size.toNat ∧
        roundUp 0x1000 (imageSize.toNat + alignment.toNat) % UInt64.size < r.size.toNat
    then ∃ c t', carve index imageSize alignment t = .ok c t' ∧
      Granted t index r (roundUp 0x1000 (imageSize.toNat + alignment.toNat) % UInt64.size) c t'
    else carve index imageSize alignment t = .error (.error .resourceExhausted) t := by
  by_cases hsum : imageSize.toNat + alignment.toNat < UInt64.size
  · have hsize : (pagesToSize (sizeToPages (imageSize + alignment))).toNat =
        roundUp 0x1000 (imageSize.toNat + alignment.toNat) % UInt64.size := by
      rw [toNat_pagesToSize_sizeToPages, UInt64.toNat_add, Nat.mod_eq_of_lt hsum]
    have hfits := carve_of_fits hr hwraps hsum
    simp only [and_pageMask_eq_zero_iff, UInt64.lt_iff_toNat_lt, hsize] at hfits
    simpa only [hsum, true_and] using hfits
  · rw [if_neg fun h => hsum h.1]
    exact carve_of_overflow hr hsum

/-- The claim for an image is the first multiple of the page size that holds the image and its alignment.
It is granted exactly when the range is whole pages and larger than the claim. Where the sum fits a word and
the claim does not, an empty claim is granted on every range of whole pages that is not empty. -/
theorem carve_claims_whole_pages (hwraps : ¬r.Wraps) (imageSize alignment : UInt64) :
    ∃ claim, NextMultiple 0x1000 (imageSize.toNat + alignment.toNat) claim ∧
      ((imageSize.toNat + alignment.toNat < UInt64.size → claim < UInt64.size) →
        if 0x1000 ∣ r.size.toNat ∧ claim < r.size.toNat
        then ∃ c t', carve index imageSize alignment t = .ok c t' ∧ Granted t index r claim c t'
        else carve index imageSize alignment t = .error (.error .resourceExhausted) t) ∧
      (imageSize.toNat + alignment.toNat < UInt64.size → UInt64.size ≤ claim →
        if 0x1000 ∣ r.size.toNat ∧ 0 < r.size.toNat
        then ∃ c, carve index imageSize alignment t = .ok c t ∧ Granted t index r 0 c t
        else carve index imageSize alignment t = .error (.error .resourceExhausted) t) := by
  have houtcome := carve_outcome hr hwraps imageSize alignment
  have hsize := r.size.toNat_lt_size
  refine ⟨_, nextMultiple_roundUp (by decide) _, fun hclaim => ?_, fun hsum hclaim => ?_⟩
  · by_cases hsum : imageSize.toNat + alignment.toNat < UInt64.size
    · simpa only [hsum, true_and, Nat.mod_eq_of_lt (hclaim hsum)] using houtcome
    · -- The claim is at least as large as the sum, and no range is.
      have hle := le_roundUp (n := imageSize.toNat + alignment.toNat) (show 0 < 0x1000 by decide)
      rw [if_neg fun h => hsum h.1] at houtcome
      rw [if_neg (by omega)]
      exact houtcome
  · -- The word's size is itself a multiple of the page size, so it is the claim.
    have heq : roundUp 0x1000 (imageSize.toNat + alignment.toNat) = UInt64.size :=
      Nat.le_antisymm (roundUp_le (by decide) (by decide) (Nat.le_of_lt hsum)) hclaim
    simp only [hsum, true_and, heq, Nat.mod_self] at houtcome
    split at houtcome
    · rename_i hgranted
      obtain ⟨c, t', hcarve, hc⟩ := houtcome
      obtain rfl := hc.table_of_empty hr
      rw [if_pos hgranted]
      exact ⟨c, hcarve, hc⟩
    · rename_i hrefused
      rw [if_neg hrefused]
      exact houtcome

end

def highRange : SmramRange := ⟨0x7F000000, 0x7F000000, 0x1000000, RegionState.closed⟩

theorem carve_claims_whole_pages_three : ¬highRange.Wraps ∧
    ∃ c t', carve 0 0x2FEF 0x10 ⟨[highRange]⟩ = .ok c t' ∧ c.size.toNat = 0x3000 ∧
      c.destination.toNat = 0x7FFFD000 := by
  have hwraps : ¬highRange.Wraps := by decide
  obtain ⟨claim, hclaim, hgranted, -⟩ :=
    carve_claims_whole_pages (show [highRange][0]? = some highRange from rfl) hwraps 0x2FEF 0x10
  obtain rfl : claim = 0x3000 := hclaim.eq_roundUp (by decide)
  have hclaim := hgranted fun _ => by decide
  rw [if_pos (by decide)] at hclaim
  obtain ⟨c, t', hcarve, hc⟩ := hclaim
  have hshrinks : (c.rest highRange).size.toNat + 0x3000 = 0x1000000 := hc.shrinks
  have hdestination : c.destination.toNat = 0x7F000000 + (c.rest highRange).size.toNat := hc.destination_eq
  exact ⟨hwraps, c, t', hcarve, hc.size_eq, by omega⟩

/-- An image and an alignment that reach into the last page of the word are given no bytes at all. -/
theorem carve_claims_nothing : ¬highRange.Wraps ∧
    highRange.size.toNat < (0xFFFFFFFFFFFFF000 : UInt64).toNat + (0x800 : UInt64).toNat ∧
    carve 0 0xFFFFFFFFFFFFF000 0x800 ⟨[highRange]⟩ = .ok ⟨0, 0, 0x80000000⟩ ⟨[highRange]⟩ :=
  ⟨by decide, by decide, rfl⟩

end SmramTable
end PlatformInit
