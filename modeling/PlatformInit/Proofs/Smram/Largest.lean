import Mathlib.Data.List.Forall2
import PlatformInit.Proofs.Smram.Selection

/-!
The range that is chosen for the MM core is the largest one that may hold it, and of equal ones the first.

The choice looks at the state of a range only for the three states in which a range is unusable, so what
other bits say does not matter.
-/
set_option autoImplicit false
namespace PlatformInit

namespace RegionState

def named : RegionState :=
  opened ||| closed ||| locked ||| cacheable ||| allocated ||| needsTesting ||| needsEccInitialization

theorem intersects_eq_false {s t : RegionState} : intersects s t = false ↔ s &&& t = 0 :=
  bne_eq_false_iff_eq

theorem intersects_or_eq_false {s t u : RegionState} :
    intersects s (t ||| u) = false ↔ intersects s t = false ∧ intersects s u = false := by
  have hdistrib : s &&& (t ||| u) = s &&& t ||| s &&& u := by
    refine UInt64.toNat_inj.mp ?_
    rw [UInt64.toNat_and, UInt64.toNat_or, UInt64.toNat_or, UInt64.toNat_and, UInt64.toNat_and,
      Nat.and_or_distrib_left]
  rw [intersects_eq_false, hdistrib, UInt64.or_eq_zero_iff, intersects_eq_false, intersects_eq_false]

end RegionState

namespace SmramRange

/-- The range may hold the core: it is usable, lies from 1 MiB up to 4 GiB, and has 256 KiB but a page. -/
structure Suitable (r : SmramRange) : Prop where
  not_allocated : r.state &&& RegionState.allocated = 0
  not_untested : r.state &&& RegionState.needsTesting = 0
  not_uninitialized : r.state &&& RegionState.needsEccInitialization = 0
  start_ge : 0x100000 ≤ r.cpuStart.toNat
  stop_le : r.cpuStart.toNat + r.size.toNat ≤ 0x100000000
  size_ge : 0x40000 - 0x1000 ≤ r.size.toNat

theorem eligible_iff (r : SmramRange) : r.Eligible ↔ r.Suitable := by
  have hstate : RegionState.intersects r.state SmramTable.unusable = false ↔
      r.state &&& RegionState.allocated = 0 ∧ r.state &&& RegionState.needsTesting = 0 ∧
        r.state &&& RegionState.needsEccInitialization = 0 := by
    rw [SmramTable.unusable, RegionState.intersects_or_eq_false, RegionState.intersects_or_eq_false,
      RegionState.intersects_eq_false, RegionState.intersects_eq_false, RegionState.intersects_eq_false,
      and_assoc]
  rw [Eligible, Considered, hstate]
  constructor
  · rintro ⟨⟨⟨hallocated, hneeds, hecc⟩, hstart⟩, hstop, hsize⟩
    exact ⟨hallocated, hneeds, hecc, hstart, hstop, hsize⟩
  · rintro ⟨hallocated, hneeds, hecc, hstart, hstop, hsize⟩
    exact ⟨⟨⟨hallocated, hneeds, hecc⟩, hstart⟩, hstop, hsize⟩

instance (r : SmramRange) : Decidable r.Suitable := decidable_of_iff _ r.eligible_iff

/-- The ranges lie at the same place, and every state that has a name is the same. -/
structure Alike (r s : SmramRange) : Prop where
  cpuStart_eq : r.cpuStart = s.cpuStart
  size_eq : r.size = s.size
  named_eq : r.state &&& RegionState.named = s.state &&& RegionState.named

theorem Alike.intersects_eq {r s : SmramRange} (h : r.Alike s) :
    RegionState.intersects r.state SmramTable.unusable =
      RegionState.intersects s.state SmramTable.unusable := by
  have hnamed (state : RegionState) : state &&& SmramTable.unusable =
      state &&& RegionState.named &&& SmramTable.unusable :=
    (UInt64.and_assoc state RegionState.named SmramTable.unusable).symm
  rw [RegionState.intersects, hnamed, h.named_eq, ← hnamed, RegionState.intersects]

end SmramRange

namespace SmramTable

/-- The range at `i` may hold the core, and none that may is larger or has its size and comes first. -/
structure Largest (ranges : List SmramRange) (i : Nat) (r : SmramRange) : Prop where
  range_eq : ranges[i]? = some r
  suitable : r.Suitable
  size_le : ∀ s ∈ ranges, s.Suitable → s.size.toNat ≤ r.size.toNat
  first : ∀ j s, ranges[j]? = some s → s.Suitable → s.size = r.size → i ≤ j

/-- What is kept of `ranges` by a search that has seen them all. -/
def Best (ranges : List SmramRange) : Option (Nat × UInt64) → Prop
  | none => ∀ r ∈ ranges, ¬r.Suitable
  | some (i, size) => ∃ r, Largest ranges i r ∧ r.size = size

theorem Largest.unique {ranges : List SmramRange} {i j : Nat} {r s : SmramRange} (h : Largest ranges i r)
    (h' : Largest ranges j s) : i = j := by
  have hsize : r.size = s.size := UInt64.toNat_inj.mp (Nat.le_antisymm
    (h'.size_le r (List.mem_of_getElem? h.range_eq) h.suitable)
    (h.size_le s (List.mem_of_getElem? h'.range_eq) h'.suitable))
  exact Nat.le_antisymm (h.first j s h'.range_eq h'.suitable hsize.symm)
    (h'.first i r h.range_eq h.suitable hsize)

section
variable {ranges : List SmramRange} {r : SmramRange}

theorem getElem?_append_singleton {j : Nat} {s : SmramRange} :
    (ranges ++ [r])[j]? = some s ↔ ranges[j]? = some s ∨ j = ranges.length ∧ r = s := by
  rw [List.getElem?_append]
  by_cases hj : j < ranges.length
  · rw [if_pos hj, or_iff_left fun h => Nat.ne_of_lt hj h.1]
  · rw [if_neg hj, List.getElem?_singleton, List.getElem?_eq_none (Nat.not_lt.mp hj)]
    by_cases heq : j = ranges.length
    · rw [heq, Nat.sub_self]
      simp
    · rw [if_neg (by omega)]
      simp [heq]

theorem Largest.append {i : Nat} {q : SmramRange} (h : Largest ranges i q)
    (hr : r.Suitable → r.size.toNat ≤ q.size.toNat) : Largest (ranges ++ [r]) i q where
  range_eq := getElem?_append_singleton.mpr (.inl h.range_eq)
  suitable := h.suitable
  size_le s hs hsuitable := by
    rcases List.mem_append.mp hs with hs | hs
    · exact h.size_le s hs hsuitable
    · cases List.mem_singleton.mp hs
      exact hr hsuitable
  first j s hs hsuitable hsize := by
    rcases getElem?_append_singleton.mp hs with hs | ⟨rfl, -⟩
    · exact h.first j s hs hsuitable hsize
    · exact Nat.le_of_lt (List.getElem?_eq_some_iff.mp h.range_eq).1

theorem largest_append (hr : r.Suitable) (hless : ∀ s ∈ ranges, s.Suitable → s.size.toNat < r.size.toNat) :
    Largest (ranges ++ [r]) ranges.length r where
  range_eq := getElem?_append_singleton.mpr (.inr ⟨rfl, rfl⟩)
  suitable := hr
  size_le s hs hsuitable := by
    rcases List.mem_append.mp hs with hs | hs
    · exact Nat.le_of_lt (hless s hs hsuitable)
    · cases List.mem_singleton.mp hs
      exact Nat.le_refl _
  first j s hs hsuitable hsize := by
    rcases getElem?_append_singleton.mp hs with hs | ⟨rfl, -⟩
    · have hlt := hless s (List.mem_of_getElem? hs) hsuitable
      rw [hsize] at hlt
      exact absurd hlt (Nat.lt_irrefl _)
    · exact Nat.le_refl _

theorem better_best {best : Option (Nat × UInt64)} (h : Best ranges best) (hr : ¬r.Wraps) :
    ∃ next, better best (r, ranges.length) = .ok next ∧ Best (ranges ++ [r]) next := by
  unfold better
  rw [eligible_eq, if_neg fun h => hr h.2]
  by_cases hsuitable : r.Suitable
  · rw [decide_eq_true (r.eligible_iff.mpr hsuitable)]
    cases best with
    | none =>
      exact ⟨_, rfl, r, largest_append hsuitable fun s hs hs' => absurd hs' (h s hs), rfl⟩
    | some best =>
      obtain ⟨i, size⟩ := best
      obtain ⟨q, hlargest, rfl⟩ := h
      refine ⟨_, rfl, ?_⟩
      by_cases hlarger : q.size < r.size
      · rw [if_pos hlarger]
        refine ⟨r, largest_append hsuitable fun s hs hs' => ?_, rfl⟩
        exact Nat.lt_of_le_of_lt (hlargest.size_le s hs hs') (UInt64.lt_iff_toNat_lt.mp hlarger)
      · rw [if_neg hlarger]
        exact ⟨q, hlargest.append fun _ => UInt64.le_iff_toNat_le.mp (UInt64.not_lt.mp hlarger), rfl⟩
  · rw [decide_eq_false (mt r.eligible_iff.mp hsuitable)]
    refine ⟨best, rfl, ?_⟩
    cases best with
    | none => exact List.forall_mem_append.mpr ⟨h, List.forall_mem_singleton.mpr hsuitable⟩
    | some best =>
      obtain ⟨q, hlargest, hsize⟩ := h
      exact ⟨q, hlargest.append fun h => absurd h hsuitable, hsize⟩

theorem foldlM_better_best {rest : List SmramRange} {best : Option (Nat × UInt64)} (h : Best ranges best)
    (hrest : ∀ r ∈ rest, ¬r.Wraps) : ∃ last, (rest.zipIdx ranges.length).foldlM better best = .ok last ∧
      Best (ranges ++ rest) last := by
  induction rest generalizing ranges best with
  | nil => exact ⟨best, rfl, by rwa [List.append_nil]⟩
  | cons r rest ih =>
    obtain ⟨hr, hrest⟩ := List.forall_mem_cons.mp hrest
    obtain ⟨next, hnext, hbest⟩ := better_best h hr
    obtain ⟨last, hlast, hend⟩ := ih hbest hrest
    rw [List.length_append, List.length_singleton] at hlast
    rw [List.append_assoc, List.singleton_append] at hend
    rw [List.zipIdx_cons, List.foldlM_cons, hnext]
    exact ⟨last, hlast, hend⟩

end

theorem eligible_congr {r s : SmramRange} (h : r.Alike s) : eligible r = eligible s := by
  unfold eligible SmramRange.cpuStop
  rw [h.intersects_eq, h.cpuStart_eq, h.size_eq]

theorem foldlM_better_congr {ranges ranges' : List SmramRange}
    (h : List.Forall₂ SmramRange.Alike ranges ranges') (k : Nat) (best : Option (Nat × UInt64)) :
    (ranges'.zipIdx k).foldlM better best = (ranges.zipIdx k).foldlM better best := by
  induction h generalizing k best with
  | nil => rfl
  | @cons r s rest rest' hr _ ih =>
    have hbetter : better best (s, k) = better best (r, k) := by
      unfold better
      rw [eligible_congr hr, hr.size_eq]
    rw [List.zipIdx_cons, List.zipIdx_cons, List.foldlM_cons, List.foldlM_cons, hbetter]
    exact congrArg _ (funext fun next => ih (k + 1) next)

/-- The choice is the largest range that may hold the core, and of equal ones the first; there is none only
if no range may hold it. States without a name do not matter. -/
theorem selectRange_largest (t : SmramTable)
    (h : ∀ r ∈ t.ranges, r.cpuStart.toNat + r.size.toNat < UInt64.size) :
    ∃ selected, t.selectRange = .ok selected ∧
      (selected.isSome ↔ ∃ r ∈ t.ranges, r.Suitable) ∧
      (∀ i, selected = some i ↔ ∃ r, Largest t.ranges i r) ∧
      ∀ t' : SmramTable, List.Forall₂ SmramRange.Alike t.ranges t'.ranges →
        t'.selectRange = .ok selected := by
  have hnone : Best [] none := List.forall_mem_nil _
  obtain ⟨best, hend, hbest⟩ := foldlM_better_best hnone fun r hr => Nat.not_le.mpr (h r hr)
  have hselect : t.selectRange = .ok (best.map (·.1)) := by
    unfold selectRange
    exact hend ▸ rfl
  refine ⟨best.map (·.1), hselect, ?some, ?largest, fun t' halike => ?alike⟩
  case some =>
    cases best with
    | none => exact iff_of_false Bool.false_ne_true fun ⟨r, hr, hsuitable⟩ => hbest r hr hsuitable
    | some best =>
      obtain ⟨r, hlargest, -⟩ := hbest
      exact iff_of_true rfl ⟨r, List.mem_of_getElem? hlargest.range_eq, hlargest.suitable⟩
  case largest =>
    intro i
    cases best with
    | none =>
      refine iff_of_false nofun fun ⟨r, hlargest⟩ => ?_
      exact hbest r (List.mem_of_getElem? hlargest.range_eq) hlargest.suitable
    | some best =>
      obtain ⟨r, hlargest, -⟩ := hbest
      constructor
      · rintro ⟨⟩
        exact ⟨r, hlargest⟩
      · rintro ⟨s, hs⟩
        exact congrArg some (hlargest.unique hs)
  case alike =>
    rw [← hselect]
    unfold selectRange
    rw [foldlM_better_congr halike]

def mixedRanges (unnamed : RegionState) : List SmramRange :=
  [⟨0x70000000, 0x70000000, 0x400000, RegionState.allocated ||| unnamed⟩,
    ⟨0x7E000000, 0x7E000000, 0x80000, RegionState.closed ||| unnamed⟩,
    ⟨0x7F000000, 0x7F000000, 0x80000, RegionState.closed ||| unnamed⟩,
    ⟨0xFF000, 0xFF000, 0x100000, RegionState.closed ||| unnamed⟩]

theorem mixedRanges_largest :
    Largest (mixedRanges 0) 1 ⟨0x7E000000, 0x7E000000, 0x80000, RegionState.closed⟩ where
  range_eq := rfl
  suitable := by decide
  size_le := by decide
  first j s hs hsuitable _ := by
    refine Nat.pos_of_ne_zero ?_
    rintro rfl
    cases hs
    exact absurd hsuitable (by decide)

theorem selectRange_largest_mixed :
    (∀ r ∈ mixedRanges 0, r.cpuStart.toNat + r.size.toNat < UInt64.size) ∧
      List.Forall₂ SmramRange.Alike (mixedRanges 0) (mixedRanges 0x80) ∧
      selectRange ⟨mixedRanges 0⟩ = .ok (some 1) ∧ selectRange ⟨mixedRanges 0x80⟩ = .ok (some 1) := by
  have hfits : ∀ r ∈ mixedRanges 0, r.cpuStart.toNat + r.size.toNat < UInt64.size := by decide
  have halike : List.Forall₂ SmramRange.Alike (mixedRanges 0) (mixedRanges 0x80) := by
    refine .cons ?_ (.cons ?_ (.cons ?_ (.cons ?_ .nil))) <;> exact ⟨rfl, rfl, by decide⟩
  obtain ⟨selected, hselected, -, hiff, hcongr⟩ := selectRange_largest ⟨mixedRanges 0⟩ hfits
  rw [(hiff 1).mpr ⟨_, mixedRanges_largest⟩] at hselected hcongr
  exact ⟨hfits, halike, hselected, hcongr ⟨mixedRanges 0x80⟩ halike⟩

end SmramTable
end PlatformInit
