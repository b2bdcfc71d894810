import PlatformInit.Proofs.Smram.Carving

/-!
Which range is chosen for the MM core, and which region around it is cached.

The choice looks at the end of every range that is usable and does not lie below 1 MiB, and a range
among these that runs past the last address stops the machine. No other table does, and the range that
is chosen ends at 4 GiB or below. The region that is cached grows by whole ranges only, so it ends where
some range ends.
-/
set_option autoImplicit false
namespace PlatformInit

namespace SmramRange

/-- The range runs past the last address that a word can name. -/
def Wraps (r : SmramRange) : Prop := UInt64.size ≤ r.cpuStart.toNat + r.size.toNat

/-- The choice of a range looks at the end of this one. -/
def Considered (r : SmramRange) : Prop :=
  RegionState.intersects r.state SmramTable.unusable = false ∧ size1M.toNat ≤ r.cpuStart.toNat

def Eligible (r : SmramRange) : Prop :=
  r.Considered ∧ r.cpuStart.toNat + r.size.toNat ≤ size4G.toNat ∧
    SmramTable.minRangeSize.toNat ≤ r.size.toNat

instance (r : SmramRange) : Decidable r.Wraps := inferInstanceAs (Decidable (_ ≤ _))
instance (r : SmramRange) : Decidable r.Considered := inferInstanceAs (Decidable (_ ∧ _))
instance (r : SmramRange) : Decidable r.Eligible := inferInstanceAs (Decidable (_ ∧ _))

theorem cpuStop_of_wraps {r : SmramRange} (h : r.Wraps) : r.cpuStop = .error .overflow :=
  if_neg (Nat.not_lt.mpr h)

theorem cpuStop_of_not_wraps {r : SmramRange} (h : ¬r.Wraps) :
    ∃ stop, r.cpuStop = .ok stop ∧ stop.toNat = r.cpuStart.toNat + r.size.toNat := by
  have hfits : r.cpuStart.toNat + r.size.toNat < UInt64.size := Nat.not_le.mp h
  have hstop : r.cpuStop = .ok (r.cpuStart + r.size) := if_pos hfits
  exact ⟨_, hstop, add64_eq_ok_iff.mp hstop⟩

end SmramRange

namespace SmramTable

theorem eligible_eq (r : SmramRange) :
    eligible r = if r.Considered ∧ r.Wraps then .error .overflow else .ok (decide r.Eligible) := by
  rw [eligible]
  by_cases hskip : RegionState.intersects r.state unusable = true ∨ r.cpuStart < size1M
  · have hconsidered : ¬r.Considered := by
      rintro ⟨husable, habove⟩
      rcases hskip with hunusable | hbelow
      · exact absurd (husable.symm.trans hunusable) Bool.false_ne_true
      · exact Nat.not_le.mpr (UInt64.lt_iff_toNat_lt.mp hbelow) habove
    rw [if_pos hskip, if_neg fun h => hconsidered h.1, decide_eq_false fun h => hconsidered h.1]
    rfl
  · obtain ⟨husable, habove⟩ := not_or.mp hskip
    have hconsidered : r.Considered :=
      ⟨Bool.eq_false_iff.mpr husable, UInt64.le_iff_toNat_le.mp (UInt64.not_lt.mp habove)⟩
    rw [if_neg hskip]
    by_cases hwraps : r.Wraps
    · rw [if_pos ⟨hconsidered, hwraps⟩, r.cpuStop_of_wraps hwraps]
      rfl
    · obtain ⟨stop, hstop, hvalue⟩ := SmramRange.cpuStop_of_not_wraps hwraps
      rw [if_neg fun h => hwraps h.2, hstop]
      refine congrArg Except.ok (decide_eq_decide.mpr ?_)
      rw [UInt64.le_iff_toNat_le, UInt64.le_iff_toNat_le, hvalue]
      exact (and_iff_right hconsidered).symm

theorem better_eq_error {best : Option (Nat × UInt64)} {entry : SmramRange × Nat}
    (h : entry.1.Considered ∧ entry.1.Wraps) : better best entry = .error .overflow := by
  unfold better
  rw [eligible_eq, if_pos h]
  rfl

theorem better_eq_ok (best : Option (Nat × UInt64)) {entry : SmramRange × Nat}
    (h : ¬(entry.1.Considered ∧ entry.1.Wraps)) : ∃ chosen, better best entry = .ok chosen ∧
      (chosen = best ∨ entry.1.Eligible ∧ chosen = some (entry.2, entry.1.size)) := by
  unfold better
  rw [eligible_eq, if_neg h]
  by_cases heligible : entry.1.Eligible
  · rw [decide_eq_true heligible]
    cases best with
    | none => exact ⟨_, rfl, .inr ⟨heligible, rfl⟩⟩
    | some best =>
      refine ⟨_, rfl, ?_⟩
      split
      · exact .inr ⟨heligible, rfl⟩
      · exact .inl rfl
  · rw [decide_eq_false heligible]
    exact ⟨best, rfl, .inl rfl⟩

theorem foldlM_better (entries : List (SmramRange × Nat)) (best : Option (Nat × UInt64)) :
    (∃ entry ∈ entries, entry.1.Considered ∧ entry.1.Wraps) ∧
        entries.foldlM better best = .error .overflow ∨
    (∀ entry ∈ entries, ¬(entry.1.Considered ∧ entry.1.Wraps)) ∧
      ∃ chosen, entries.foldlM better best = .ok chosen ∧
        (chosen = best ∨
          ∃ entry ∈ entries, entry.1.Eligible ∧ chosen = some (entry.2, entry.1.size)) := by
  induction entries generalizing best with
  | nil => exact .inr ⟨List.forall_mem_nil _, best, rfl, .inl rfl⟩
  | cons entry entries ih =>
    rw [List.foldlM_cons]
    by_cases hwraps : entry.1.Considered ∧ entry.1.Wraps
    · rw [better_eq_error hwraps]
      exact .inl ⟨⟨entry, List.mem_cons_self, hwraps⟩, rfl⟩
    · obtain ⟨next, hnext, hfrom⟩ := better_eq_ok best hwraps
      rw [hnext]
      rcases ih next with ⟨⟨other, hother, hhalts⟩, hend⟩ | ⟨hrest, chosen, hend, hchosen⟩
      · exact .inl ⟨⟨other, List.mem_cons_of_mem _ hother, hhalts⟩, hend⟩
      · refine .inr ⟨List.forall_mem_cons.mpr ⟨hwraps, hrest⟩, chosen, hend, ?_⟩
        rcases hchosen with rfl | ⟨other, hother, heligible⟩
        · rcases hfrom with rfl | heligible
          · exact .inl rfl
          · exact .inr ⟨entry, List.mem_cons_self, heligible⟩
        · exact .inr ⟨other, List.mem_cons_of_mem _ hother, heligible⟩

section
variable {t : SmramTable}

/-- The choice stops the machine for a range at whose end it looks and that wraps, and for no other. -/
theorem selectRange_eq_error {why : Halt} : t.selectRange = .error why ↔
    why = .overflow ∧ ∃ r ∈ t.ranges, r.Considered ∧ r.Wraps := by
  unfold selectRange
  rcases foldlM_better t.ranges.zipIdx none with
    ⟨⟨entry, hentry, hwraps⟩, hend⟩ | ⟨hnone, chosen, hend, -⟩
  · rw [hend]
    have hmem : entry.1 ∈ t.ranges := (List.mem_zipIdx' hentry).2 ▸ List.getElem_mem _
    constructor
    · rintro ⟨⟩
      exact ⟨rfl, entry.1, hmem, hwraps⟩
    · rintro ⟨rfl, -⟩
      rfl
  · rw [hend]
    constructor
    · nofun
    · rintro ⟨-, r, hr, hwraps⟩
      obtain ⟨i, hi, rfl⟩ := List.getElem_of_mem hr
      exact absurd hwraps (hnone (t.ranges[i], i) (List.mk_mem_zipIdx_iff_getElem?.mpr
        (List.getElem?_eq_getElem hi)))

theorem eligible_of_selected {index : Nat} (h : t.selectRange = .ok (some index)) :
    ∃ r, t.ranges[index]? = some r ∧ r.Eligible := by
  unfold selectRange at h
  rcases foldlM_better t.ranges.zipIdx none with ⟨-, hend⟩ | ⟨-, chosen, hend, hchosen⟩
  · rw [hend] at h
    cases h
  · rw [hend] at h
    have hindex : chosen.map (·.1) = some index := Except.ok.inj h
    rcases hchosen with rfl | ⟨entry, hentry, heligible, rfl⟩
    · cases hindex
    · cases hindex
      exact ⟨entry.1, List.mk_mem_zipIdx_iff_getElem?.mp hentry, heligible⟩

end

/-! The region to cache. -/

theorem endsAt_eq_ok {r : SmramRange} (hr : ¬r.Wraps) (base : UInt64) : ∃ touches,
    endsAt base r = .ok touches ∧ (touches = true ↔
      r.cpuStart.toNat < base.toNat ∧ r.cpuStart.toNat + r.size.toNat = base.toNat) := by
  unfold endsAt
  rw [← UInt64.lt_iff_toNat_lt]
  by_cases hbelow : r.cpuStart < base
  · obtain ⟨stop, hstop, hvalue⟩ := SmramRange.cpuStop_of_not_wraps hr
    rw [if_pos hbelow, hstop, and_iff_right hbelow, ← hvalue, UInt64.toNat_inj]
    exact ⟨stop == base, rfl, beq_iff_eq⟩
  · rw [if_neg hbelow]
    exact ⟨false, rfl, iff_of_false Bool.false_ne_true fun h => hbelow h.1⟩

theorem add64_of_lt {a b : UInt64} (h : a.toNat + b.toNat < UInt64.size) :
    ∃ sum, add64 a b = .ok sum ∧ sum.toNat = a.toNat + b.toNat := by
  have hsum : add64 a b = .ok (a + b) := if_pos h
  exact ⟨_, hsum, add64_eq_ok_iff.mp hsum⟩

def RegionFits (region : UInt64 × UInt64) : Prop := region.1.toNat + region.2.toNat < UInt64.size

/-- What one range does to a region. -/
inductive GrownBy (r : SmramRange) (region : UInt64 × UInt64) : UInt64 × UInt64 → Prop where
  | below {sum : UInt64} (hstart : r.cpuStart.toNat < region.1.toNat)
      (hstop : r.cpuStart.toNat + r.size.toNat = region.1.toNat)
      (hsum : sum.toNat = region.2.toNat + r.size.toNat) : GrownBy r region (r.cpuStart, sum)
  | above {sum : UInt64} (hstart : region.1.toNat + region.2.toNat = r.cpuStart.toNat)
      (hpos : 0 < r.size.toNat) (hsum : sum.toNat = region.2.toNat + r.size.toNat) :
      GrownBy r region (region.1, sum)
  | unchanged (hbelow : ¬(r.cpuStart.toNat < region.1.toNat ∧
        r.cpuStart.toNat + r.size.toNat = region.1.toNat))
      (habove : ¬(region.1.toNat + region.2.toNat = r.cpuStart.toNat ∧ 0 < r.size.toNat)) :
      GrownBy r region region

variable {r : SmramRange} {ranges : List SmramRange} {region : UInt64 × UInt64}

theorem growBy_grown (hr : ¬r.Wraps) (hregion : RegionFits region) :
    ∃ grown, growBy region r = .ok grown ∧ GrownBy r region grown := by
  obtain ⟨base, size⟩ := region
  have hfits : r.cpuStart.toNat + r.size.toNat < UInt64.size := Nat.not_le.mp hr
  change base.toNat + size.toNat < UInt64.size at hregion
  obtain ⟨touches, htouches, hbelow⟩ := endsAt_eq_ok hr base
  obtain ⟨stop, hstop, hstopValue⟩ := add64_of_lt hregion
  unfold growBy
  dsimp only
  rw [htouches]
  cases touches with
  | true =>
    obtain ⟨hstart, hends⟩ := hbelow.mp rfl
    obtain ⟨sum, hsum, hvalue⟩ := add64_of_lt (show size.toNat + r.size.toNat < UInt64.size by omega)
    refine ⟨(r.cpuStart, sum), ?_, .below hstart hends hvalue⟩
    change (add64 size r.size >>= _) = _
    rw [hsum]
    rfl
  | false =>
    change ∃ grown, (add64 base size >>= _) = _ ∧ _
    have habove : stop = r.cpuStart ∧ 0 < r.size ↔
        base.toNat + size.toNat = r.cpuStart.toNat ∧ 0 < r.size.toNat := by
      rw [← hstopValue, UInt64.toNat_inj, UInt64.lt_iff_toNat_lt, UInt64.toNat_zero]
    rw [hstop]
    by_cases hnext : stop = r.cpuStart ∧ 0 < r.size
    · obtain ⟨hstart, hpos⟩ := habove.mp hnext
      obtain ⟨sum, hsum, hvalue⟩ := add64_of_lt (show size.toNat + r.size.toNat < UInt64.size by omega)
      refine ⟨(base, sum), ?_, .above hstart hpos hvalue⟩
      change (if stop = r.cpuStart ∧ 0 < r.size then _ else _) = _
      rw [if_pos hnext, hsum]
      rfl
    · refine ⟨(base, size), ?_, .unchanged (mt hbelow.mpr Bool.false_ne_true) (mt habove.mpr hnext)⟩
      change (if stop = r.cpuStart ∧ 0 < r.size then _ else _) = _
      rw [if_neg hnext]
      rfl

theorem GrownBy.fits {grown : UInt64 × UInt64} (h : GrownBy r region grown) (hr : ¬r.Wraps)
    (hregion : RegionFits region) : RegionFits grown := by
  have hfits : r.cpuStart.toNat + r.size.toNat < UInt64.size := Nat.not_le.mp hr
  unfold RegionFits at *
  cases h with
  | below hstart hstop hsum => dsimp only; omega
  | above hstart hpos hsum => dsimp only; omega
  | unchanged => exact hregion

section
variable {I : UInt64 × UInt64 → Prop}
  (hstep : ∀ r ∈ ranges, ∀ region, I region → ∃ grown, growBy region r = .ok grown ∧ I grown)
include hstep

theorem foldlM_growBy_keeps (h : I region) : ∃ grown, ranges.foldlM growBy region = .ok grown ∧ I grown := by
  induction ranges generalizing region with
  | nil => exact ⟨region, rfl, h⟩
  | cons r ranges ih =>
    obtain ⟨hr, hrest⟩ := List.forall_mem_cons.mp hstep
    obtain ⟨next, hnext, hkept⟩ := hr region h
    rw [List.foldlM_cons, hnext]
    exact ih hrest hkept

/-- What growing by any of the ranges keeps, growing until nothing changes keeps. It ends with a round
that does not make the region larger. -/
theorem grow_keeps (h : I region) : ∃ grown last, grow ranges region = .ok grown ∧ I grown ∧ I last ∧
    ranges.foldlM growBy last = .ok grown ∧ grown.2.toNat ≤ last.2.toNat := by
  -- What is left for the region to grow gets less with every round.
  induction hroom : UInt64.size - region.2.toNat using Nat.strongRecOn generalizing region with
  | ind room ih =>
    obtain ⟨grown, hgrown, hkept⟩ := foldlM_growBy_keeps hstep h
    rw [grow, hgrown]
    dsimp only
    by_cases hlarger : region.2 < grown.2
    · rw [if_pos hlarger]
      have hless := UInt64.lt_iff_toNat_lt.mp hlarger
      have hsize := grown.2.toNat_lt_size
      exact ih (UInt64.size - grown.2.toNat) (by omega) hkept rfl
    · rw [if_neg hlarger]
      exact ⟨grown, region, rfl, hkept, h, hgrown, UInt64.le_iff_toNat_le.mp (UInt64.not_lt.mp hlarger)⟩

end

theorem growBy_keeps_fits (hranges : ∀ r ∈ ranges, ¬r.Wraps) : ∀ r ∈ ranges, ∀ region, RegionFits region →
    ∃ grown, growBy region r = .ok grown ∧ RegionFits grown := by
  intro r hr region hregion
  obtain ⟨grown, hgrown, hby⟩ := growBy_grown (hranges r hr) hregion
  exact ⟨grown, hgrown, hby.fits (hranges r hr) hregion⟩

theorem cacheRange_of_grow {t : SmramTable} {index : Nat} {region : UInt64 × UInt64}
    (hr : t.ranges[index]? = some r) (hgrown : grow t.ranges (r.cpuStart, r.size) = .ok region) :
    t.cacheRange index = .ok (some region) := by
  unfold cacheRange
  rw [hr]
  dsimp only
  rw [hgrown]
  rfl

theorem cacheRange_eq_ok {t : SmramTable} (h : ∀ r ∈ t.ranges, ¬r.Wraps) (index : Nat) :
    ∃ region, t.cacheRange index = .ok region := by
  cases hr : t.ranges[index]? with
  | none =>
    unfold cacheRange
    rw [hr]
    exact ⟨none, rfl⟩
  | some r =>
    have hfits : RegionFits (r.cpuStart, r.size) := Nat.not_le.mp (h r (List.mem_of_getElem? hr))
    obtain ⟨grown, -, hgrown, -⟩ := grow_keeps (growBy_keeps_fits h) hfits
    exact ⟨some grown, cacheRange_of_grow hr hgrown⟩

end SmramTable
end PlatformInit
