import Mathlib.Algebra.Ring.Nat
import Mathlib.Data.List.Nodup
import Mathlib.Data.List.Pairwise
import Mathlib.Logic.Relation
import PlatformInit.Proofs.Smram.Selection
import PlatformInit.Proofs.Smram.Soundness

/-!
The region that is cached around a range is everything that is linked to it.

While it grows, the region is a gapless union of ranges that touch one another in a chain that begins at
the range. When no range touches it any more, no link leaves it, so nothing linked is left out. What is
linked does not depend on the order of the table.
-/
set_option autoImplicit false
namespace PlatformInit

namespace SmramRange

/-- One of the ranges ends where the other one begins. -/
def Touches (r s : SmramRange) : Prop :=
  r.cpuStart.toNat + r.size.toNat = s.cpuStart.toNat ∨ s.cpuStart.toNat + s.size.toNat = r.cpuStart.toNat

instance : Std.Symm Apart where
  symm _ _ := Apart.symm

instance (r s : SmramRange) : Decidable (r.Apart s) := inferInstanceAs (Decidable (_ ∨ _))

end SmramRange

namespace SmramTable

/-- A chain of listed ranges, each touching the next one, leads from `r` to `s`. -/
def Linked (ranges : List SmramRange) (r s : SmramRange) : Prop :=
  Relation.ReflTransGen (fun a b => b ∈ ranges ∧ a.Touches b) r s

/-- The region of `size` bytes at `base` is put together from `parts`, which are linked to `r`. -/
structure Assembled (ranges : List SmramRange) (r : SmramRange) (base size : Nat)
    (parts : List SmramRange) : Prop where
  nodup : parts.Nodup
  first_mem : r ∈ parts
  linked : ∀ s ∈ parts, Linked ranges r s
  size_eq : size = (parts.map fun s => s.size.toNat).sum
  holds_iff : ∀ a, base ≤ a ∧ a < base + size ↔ ∃ s ∈ parts, s.Holds a

variable {ranges parts : List SmramRange} {r s : SmramRange} {base size : Nat}

theorem Linked.mem (h : Linked ranges r s) (hr : r ∈ ranges) : s ∈ ranges := by
  cases h with
  | refl => exact hr
  | tail _ hlast => exact hlast.1

theorem assembled_single (ranges : List SmramRange) (r : SmramRange) :
    Assembled ranges r r.cpuStart.toNat r.size.toNat [r] where
  nodup := List.nodup_singleton r
  first_mem := List.mem_singleton_self r
  linked s hs := List.mem_singleton.mp hs ▸ .refl
  size_eq := by rw [List.map_singleton, List.sum_singleton]
  holds_iff a := by
    simp only [List.mem_singleton, exists_eq_left]
    rfl

/-- Ranges that are not empty, do not wrap, and share no address. -/
structure Separate (ranges : List SmramRange) : Prop where
  size_pos : ∀ s ∈ ranges, 0 < s.size.toNat
  stop_lt : ∀ s ∈ ranges, s.cpuStart.toNat + s.size.toNat < UInt64.size
  apart : ranges.Pairwise SmramRange.Apart

theorem Separate.eq_of_holds (h : Separate ranges) {a b : SmramRange} (ha : a ∈ ranges) (hb : b ∈ ranges)
    {address : Nat} (hholds : a.Holds address) (hholds' : b.Holds address) : a = b := by
  by_contra hne
  have hapart := h.apart.forall ha hb hne
  unfold SmramRange.Apart SmramRange.Holds at *
  omega

theorem Separate.perm {ranges' : List SmramRange} (h : Separate ranges) (hperm : ranges.Perm ranges') :
    Separate ranges' where
  size_pos s hs := h.size_pos s (hperm.mem_iff.mpr hs)
  stop_lt s hs := h.stop_lt s (hperm.mem_iff.mpr hs)
  apart := (hperm.pairwise_iff fun h => h.symm).mp h.apart

/-- No listed range ends where the region begins, or begins where it ends. -/
def Closed (ranges : List SmramRange) (base size : Nat) : Prop :=
  ∀ s ∈ ranges, s.cpuStart.toNat + s.size.toNat ≠ base ∧ base + size ≠ s.cpuStart.toNat

namespace Assembled
variable (hsep : Separate ranges) (hr : r ∈ ranges) (h : Assembled ranges r base size parts)
include hsep hr h

theorem inside (hs : s ∈ parts) : 0 < s.size.toNat ∧ base ≤ s.cpuStart.toNat ∧
    s.cpuStart.toNat + s.size.toNat ≤ base + size := by
  have hpos := hsep.size_pos s ((h.linked s hs).mem hr)
  have hfirst := (h.holds_iff s.cpuStart.toNat).mpr ⟨s, hs, Nat.le_refl _, by omega⟩
  have hlast := (h.holds_iff (s.cpuStart.toNat + s.size.toNat - 1)).mpr ⟨s, hs, by omega, by omega⟩
  omega

theorem not_empty : 0 < size := by
  have hinside := h.inside hsep hr h.first_mem
  omega

theorem exists_first : ∃ s ∈ parts, s.cpuStart.toNat = base := by
  have hsize := h.not_empty hsep hr
  obtain ⟨s, hs, hstart, -⟩ := (h.holds_iff base).mp (by omega)
  have hinside := h.inside hsep hr hs
  exact ⟨s, hs, by omega⟩

theorem exists_last : ∃ s ∈ parts, s.cpuStart.toNat + s.size.toNat = base + size := by
  have hsize := h.not_empty hsep hr
  obtain ⟨s, hs, -, hstop⟩ := (h.holds_iff (base + size - 1)).mp (by omega)
  have hinside := h.inside hsep hr hs
  exact ⟨s, hs, by omega⟩

theorem cons (hs : s ∈ ranges) {q : SmramRange} (hq : q ∈ parts) (htouches : q.Touches s) {base' : Nat}
    (houtside : s.cpuStart.toNat + s.size.toNat = base ∧ base' = s.cpuStart.toNat ∨
      base + size = s.cpuStart.toNat ∧ base' = base) :
    Assembled ranges r base' (size + s.size.toNat) (s :: parts) where
  nodup := by
    refine List.nodup_cons.mpr ⟨fun hmem => ?_, h.nodup⟩
    have hinside := h.inside hsep hr hmem
    omega
  first_mem := List.mem_cons_of_mem _ h.first_mem
  linked := List.forall_mem_cons.mpr ⟨(h.linked q hq).tail ⟨hs, htouches⟩, h.linked⟩
  size_eq := by rw [List.map_cons, List.sum_cons, ← h.size_eq, Nat.add_comm]
  holds_iff a := by
    rw [List.exists_mem_cons_iff, ← h.holds_iff, SmramRange.Holds]
    omega

theorem below (hs : s ∈ ranges) (hstop : s.cpuStart.toNat + s.size.toNat = base) :
    Assembled ranges r s.cpuStart.toNat (size + s.size.toNat) (s :: parts) := by
  obtain ⟨q, hq, hstart⟩ := h.exists_first hsep hr
  exact h.cons hsep hr hs hq (.inr (hstop.trans hstart.symm)) (.inl ⟨hstop, rfl⟩)

theorem above (hs : s ∈ ranges) (hstart : base + size = s.cpuStart.toNat) :
    Assembled ranges r base (size + s.size.toNat) (s :: parts) := by
  obtain ⟨q, hq, hstop⟩ := h.exists_last hsep hr
  exact h.cons hsep hr hs hq (.inl (hstop.trans hstart)) (.inr ⟨hstart, rfl⟩)

theorem mem_of_linked (hclosed : Closed ranges base size) (hlinked : Linked ranges r s) : s ∈ parts := by
  induction hlinked with
  | refl => exact h.first_mem
  | @tail b c _ hstep hb =>
    obtain ⟨hc, htouches⟩ := hstep
    have hinside := h.inside hsep hr hb
    have hpos := hsep.size_pos c hc
    have hends := hclosed c hc
    -- The end that `c` has in common with `b` is no end of the region.
    obtain ⟨a, ha, hregion⟩ : ∃ a, c.Holds a ∧ base ≤ a ∧ a < base + size := by
      rcases htouches with hstart | hstop
      · exact ⟨c.cpuStart.toNat, ⟨Nat.le_refl _, by omega⟩, by omega, by omega⟩
      · exact ⟨c.cpuStart.toNat + c.size.toNat - 1, ⟨by omega, by omega⟩, by omega, by omega⟩
    obtain ⟨q, hq, hholds⟩ := (h.holds_iff a).mp hregion
    rwa [hsep.eq_of_holds hc ((h.linked q hq).mem hr) ha hholds]

end Assembled

/-! ### Growing -/

/-- The region fits and is assembled from ranges that are linked to `r`. -/
def LinkedRegion (ranges : List SmramRange) (r : SmramRange) (region : UInt64 × UInt64) : Prop :=
  RegionFits region ∧ ∃ parts, Assembled ranges r region.1.toNat region.2.toNat parts

theorem growBy_linkedRegion (hsep : Separate ranges) (hr : r ∈ ranges) : ∀ s ∈ ranges, ∀ region,
    LinkedRegion ranges r region → ∃ grown, growBy region s = .ok grown ∧ LinkedRegion ranges r grown := by
  intro s hs region ⟨hfits, parts, hparts⟩
  have hwraps : ¬s.Wraps := Nat.not_le.mpr (hsep.stop_lt s hs)
  obtain ⟨grown, hgrown, hby⟩ := growBy_grown hwraps hfits
  refine ⟨grown, hgrown, hby.fits hwraps hfits, ?_⟩
  cases hby with
  | below hstart hstop hsum =>
    rw [hsum]
    exact ⟨s :: parts, hparts.below hsep hr hs hstop⟩
  | above hstart hpos hsum =>
    rw [hsum]
    exact ⟨s :: parts, hparts.above hsep hr hs hstart⟩
  | unchanged => exact ⟨parts, hparts⟩

/-- A round makes the region larger, or none of its ranges touches the region. -/
theorem foldlM_growBy_closed {rest : List SmramRange} (hpos : ∀ s ∈ rest, 0 < s.size.toNat)
    (hstop : ∀ s ∈ rest, s.cpuStart.toNat + s.size.toNat < UInt64.size) {region grown : UInt64 × UInt64}
    (hfits : RegionFits region) (hend : rest.foldlM growBy region = .ok grown) :
    region.2.toNat < grown.2.toNat ∨ grown = region ∧ Closed rest region.1.toNat region.2.toNat := by
  induction rest generalizing region with
  | nil =>
    cases hend
    exact .inr ⟨rfl, List.forall_mem_nil _⟩
  | cons s rest ih =>
    obtain ⟨hspos, hpos⟩ := List.forall_mem_cons.mp hpos
    obtain ⟨hsstop, hstop⟩ := List.forall_mem_cons.mp hstop
    have hwraps : ¬s.Wraps := Nat.not_le.mpr hsstop
    obtain ⟨next, hnext, hby⟩ := growBy_grown hwraps hfits
    rw [List.foldlM_cons, hnext] at hend
    have hrest := ih hpos hstop (hby.fits hwraps hfits) hend
    have hgrows (hlarger : region.2.toNat < next.2.toNat) : region.2.toNat < grown.2.toNat := by
      rcases hrest with hless | ⟨rfl, -⟩
      · exact Nat.lt_trans hlarger hless
      · exact hlarger
    cases hby with
    | below _ _ hsum => exact .inl (hgrows (by dsimp only; omega))
    | above _ _ hsum => exact .inl (hgrows (by dsimp only; omega))
    | unchanged hbelow habove =>
      refine hrest.imp_right fun ⟨hsame, hclosed⟩ => ⟨hsame, List.forall_mem_cons.mpr ⟨?_, hclosed⟩⟩
      omega

/-- The region of `size` bytes at `base` is everything that is linked to `r`, with each range counted
once, and no other range touches it. -/
structure Component (ranges : List SmramRange) (r : SmramRange) (base size : Nat) : Prop where
  holds_iff : ∀ a, base ≤ a ∧ a < base + size ↔ ∃ s, Linked ranges r s ∧ s.Holds a
  size_eq : ∃ parts : List SmramRange, parts.Nodup ∧ (∀ s, s ∈ parts ↔ Linked ranges r s) ∧
    size = (parts.map fun s => s.size.toNat).sum
  closed : Closed ranges base size

theorem Assembled.component (hsep : Separate ranges) (hr : r ∈ ranges)
    (h : Assembled ranges r base size parts) (hclosed : Closed ranges base size) :
    Component ranges r base size where
  holds_iff a := by
    rw [h.holds_iff]
    refine exists_congr fun s => and_congr_left fun _ => ?_
    exact ⟨h.linked s, h.mem_of_linked hsep hr hclosed⟩
  size_eq := ⟨parts, h.nodup, fun s => ⟨h.linked s, h.mem_of_linked hsep hr hclosed⟩, h.size_eq⟩
  closed := hclosed

theorem grow_component (hsep : Separate ranges) (hr : r ∈ ranges) :
    ∃ grown, grow ranges (r.cpuStart, r.size) = .ok grown ∧ RegionFits grown ∧
      Component ranges r grown.1.toNat grown.2.toNat := by
  have hfirst : LinkedRegion ranges r (r.cpuStart, r.size) :=
    ⟨hsep.stop_lt r hr, [r], assembled_single ranges r⟩
  obtain ⟨grown, last, hgrown, ⟨hfits, parts, hparts⟩, ⟨hlast, -⟩, hround, hsize⟩ :=
    grow_keeps (growBy_linkedRegion hsep hr) hfirst
  rcases foldlM_growBy_closed hsep.size_pos hsep.stop_lt hlast hround with hless | ⟨rfl, hclosed⟩
  · exact absurd hless (Nat.not_lt.mpr hsize)
  · exact ⟨grown, hgrown, hfits, hparts.component hsep hr hclosed⟩

/-! ### The order of the table -/

theorem linked_perm {ranges' : List SmramRange} (hperm : ranges'.Perm ranges) :
    Linked ranges' r s ↔ Linked ranges r s := by
  unfold Linked
  simp only [hperm.mem_iff]

theorem Component.perm {ranges' : List SmramRange} (h : Component ranges' r base size)
    (hperm : ranges'.Perm ranges) : Component ranges r base size where
  holds_iff a := by
    simp only [h.holds_iff, linked_perm hperm]
  size_eq := by
    obtain ⟨parts, hnodup, hmem, hsize⟩ := h.size_eq
    exact ⟨parts, hnodup, fun s => (hmem s).trans (linked_perm hperm), hsize⟩
  closed s hs := h.closed s (hperm.mem_iff.mpr hs)

theorem Component.unique (h : Component ranges r base size) (hpos : 0 < r.size.toNat) {base' size' : Nat}
    (h' : Component ranges r base' size') : base' = base ∧ size' = size := by
  have hsame (a : Nat) : base' ≤ a ∧ a < base' + size' ↔ base ≤ a ∧ a < base + size :=
    (h'.holds_iff a).trans (h.holds_iff a).symm
  have hmem := (h.holds_iff r.cpuStart.toNat).mpr ⟨r, .refl, Nat.le_refl _, by omega⟩
  have hfirst := hsame base
  have hfirst' := hsame base'
  have hlast := hsame (base + size - 1)
  have hlast' := hsame (base' + size' - 1)
  omega

/-- Around a range that is listed with others, which are not empty, do not wrap and share no address with
one another, the region to cache is exactly what is linked to the range. The order of the table does not
matter. -/
theorem cacheRange_component (t : SmramTable) (h : Separate t.ranges) (index : Nat) (r : SmramRange)
    (hr : t.ranges[index]? = some r) :
    ∃ base size : UInt64, t.cacheRange index = .ok (some (base, size)) ∧
      base.toNat + size.toNat < UInt64.size ∧ Component t.ranges r base.toNat size.toNat ∧
      ∀ (t' : SmramTable) (index' : Nat), t'.ranges.Perm t.ranges → t'.ranges[index']? = some r →
        t'.cacheRange index' = .ok (some (base, size)) := by
  have hmem := List.mem_of_getElem? hr
  obtain ⟨region, hgrown, hfits, hcomponent⟩ := grow_component h hmem
  refine ⟨region.1, region.2, cacheRange_of_grow hr hgrown, hfits, hcomponent, fun t' index' hperm hr' => ?_⟩
  obtain ⟨region', hgrown', -, hcomponent'⟩ :=
    grow_component (h.perm hperm.symm) (List.mem_of_getElem? hr')
  obtain ⟨hbase, hsize⟩ := hcomponent.unique (h.size_pos r hmem) (hcomponent'.perm hperm)
  have hsame : region' = region := Prod.ext (UInt64.toNat_inj.mp hbase) (UInt64.toNat_inj.mp hsize)
  exact cacheRange_of_grow hr' (hsame ▸ hgrown')

def chainLink (start : UInt64) : SmramRange := ⟨start, start, 0x100000, RegionState.closed⟩

def chainedRanges : List SmramRange :=
  [chainLink 0x7F200000, chainLink 0x90000000, chainLink 0x7F100000, chainLink 0x7F000000]

theorem cacheRange_component_chained : Separate chainedRanges ∧ ∃ base size : UInt64,
    cacheRange ⟨chainedRanges⟩ 3 = .ok (some (base, size)) ∧
      cacheRange ⟨chainedRanges.reverse⟩ 0 = .ok (some (base, size)) ∧
      base.toNat ≤ 0x7F000000 ∧ 0x7F300000 ≤ base.toNat + size.toNat := by
  have hsep : Separate chainedRanges := ⟨by decide, by decide, by decide⟩
  obtain ⟨base, size, hregion, -, hcomponent, hperm⟩ :=
    cacheRange_component ⟨chainedRanges⟩ hsep 3 (chainLink 0x7F000000) rfl
  have hlinked : Linked chainedRanges (chainLink 0x7F000000) (chainLink 0x7F200000) :=
    (Relation.ReflTransGen.single ⟨by decide, .inl rfl⟩).tail
      (b := chainLink 0x7F100000) ⟨by decide, .inl rfl⟩
  have hfirst := (hcomponent.holds_iff 0x7F000000).mpr ⟨_, .refl, by decide, by decide⟩
  have hlast := (hcomponent.holds_iff 0x7F2FFFFF).mpr ⟨_, hlinked, by decide, by decide⟩
  exact ⟨hsep, base, size, hregion, hperm ⟨chainedRanges.reverse⟩ 0 chainedRanges.reverse_perm rfl,
    by omega, by omega⟩

end SmramTable
end PlatformInit
