import PlatformInit.Proofs.Step
import PlatformInit.Proofs.Word.Align
import PlatformInit.Smram.Table

/-!
What a claim takes from a range and what recording it adds to the table.
-/
set_option autoImplicit false
namespace PlatformInit

theorem add64_eq_ok {a b c : UInt64} (h : add64 a b = .ok c) : c = a + b := by
  unfold add64 at h
  split at h
  · cases h
    rfl
  · cases h

namespace SmramRange

/-- No byte belongs to both ranges as the processor sees them. -/
def Apart (a b : SmramRange) : Prop :=
  a.cpuStart.toNat + a.size.toNat ≤ b.cpuStart.toNat ∨ b.cpuStart.toNat + b.size.toNat ≤ a.cpuStart.toNat

theorem Apart.symm {a b : SmramRange} (h : a.Apart b) : b.Apart a := Or.symm h

end SmramRange

namespace Carveout

/-- The claim is the tail of a range: it ends where the range ends and leaves something of it. -/
structure TailOf (c : Carveout) (r : SmramRange) : Prop where
  stop : c.destination.toNat + c.size.toNat = r.cpuStart.toNat + r.size.toNat
  size_lt : c.size.toNat < r.size.toNat

def rest (c : Carveout) (r : SmramRange) : SmramRange := { r with size := r.size - c.size }

def entry (c : Carveout) (r : SmramRange) : SmramRange :=
  ⟨r.physicalStart + (r.size - c.size), c.destination, c.size, r.state ||| RegionState.allocated⟩

variable {c : Carveout} {r : SmramRange} (h : c.TailOf r)
include h

theorem TailOf.rest_size : (c.rest r).size.toNat + c.size.toNat = r.size.toNat := by
  have hlt := h.size_lt
  rw [rest, UInt64.toNat_sub_of_le _ _ (UInt64.le_iff_toNat_le.mpr (by omega))]
  omega

theorem TailOf.rest_stop :
    (c.rest r).cpuStart.toNat + (c.rest r).size.toNat = c.destination.toNat := by
  have hsize := h.rest_size
  have hstop := h.stop
  change r.cpuStart.toNat + _ = _
  omega

theorem TailOf.apart {other : SmramRange} (hother : other.Apart r) :
    other.Apart (c.rest r) ∧ other.Apart (c.entry r) := by
  have hsize := h.rest_size
  have hstop := h.stop
  have hrest := h.rest_stop
  unfold SmramRange.Apart at *
  change (_ ≤ r.cpuStart.toNat ∨ _) ∧ (_ ≤ c.destination.toNat ∨ c.destination.toNat + c.size.toNat ≤ _)
  change r.cpuStart.toNat + _ = _ at hrest
  change _ ∨ r.cpuStart.toNat + _ ≤ _ at hother
  refine ⟨?_, ?_⟩
  · change _ ∨ r.cpuStart.toNat + _ ≤ _
    omega
  · omega

theorem TailOf.rest_apart_entry : (c.rest r).Apart (c.entry r) := Or.inl (Nat.le_of_eq h.rest_stop)

end Carveout

namespace SmramTable

/-- The ranges of a table after a claim on one of them has been recorded. -/
def withClaim (t : SmramTable) (c : Carveout) (r : SmramRange) : SmramTable :=
  ⟨t.ranges.set c.index (c.rest r) ++ [c.entry r]⟩

theorem carve_eq_ok {index : Nat} {imageSize alignment : UInt64} {t t' : SmramTable} {c : Carveout}
    (hroom : imageSize.toNat + alignment.toNat + 0xFFF < UInt64.size)
    (h : carve index imageSize alignment t = .ok c t') :
    ∃ r, t.ranges[index]? = some r ∧ c.index = index ∧ c.TailOf r ∧
      imageSize.toNat + alignment.toNat ≤ c.size.toNat ∧ t' = ⟨t.ranges.set index (c.rest r)⟩ := by
  rw [carve] at h
  obtain ⟨_, _, hget, h⟩ := Step.bind_eq_ok.mp h
  obtain ⟨rfl, rfl⟩ := Step.get_eq_ok.mp hget
  cases hr : t.ranges[index]? with
  | none =>
    rw [hr] at h
    exact (Step.fail_eq_ok.mp h).elim
  | some r =>
    rw [hr] at h
    dsimp only at h
    rw [if_pos (by omega)] at h
    by_cases hbad : r.size &&& pageMask ≠ 0 ∨ r.size ≤ pagesToSize (sizeToPages (imageSize + alignment))
    · rw [if_pos hbad] at h
      exact (Step.fail_eq_ok.mp h).elim
    rw [if_neg hbad] at h
    obtain ⟨⟨⟩, u, hset, h⟩ := Step.bind_eq_ok.mp h
    cases hset
    obtain ⟨destination, v, hof, h⟩ := Step.bind_eq_ok.mp h
    obtain ⟨hadd, rfl⟩ := Step.ofHalting_eq_ok.mp hof
    obtain ⟨rfl, rfl⟩ := Step.pure_eq_ok.mp h
    have hword : UInt64.size = 2 ^ 64 := rfl
    have hsum : (imageSize + alignment).toNat = imageSize.toNat + alignment.toNat := by
      rw [UInt64.toNat_add]
      exact Nat.mod_eq_of_lt (by omega)
    have hpages : (imageSize + alignment).toNat + 0xFFF < UInt64.size := by omega
    obtain ⟨hle, -⟩ := pagesToSize_sizeToPages hpages
    have hlt := UInt64.lt_iff_toNat_lt.mp (UInt64.not_le.mp (not_or.mp hbad).2)
    have hrest := UInt64.toNat_sub_of_le _ _ (UInt64.le_iff_toNat_le.mpr (Nat.le_of_lt hlt))
    have hstop := add64_eq_ok_iff.mp hadd
    refine ⟨r, rfl, rfl, ⟨?stop, hlt⟩, ?holds, rfl⟩
    all_goals
      dsimp only
      omega

theorem commit_eq_ok {c : Carveout} {t t' : SmramTable} (h : commit c t = .ok () t') :
    ∃ r, t.ranges[c.index]? = some r ∧ t' = ⟨t.ranges ++
      [⟨r.physicalStart + r.size, c.destination, c.size, r.state ||| RegionState.allocated⟩]⟩ := by
  rw [commit] at h
  obtain ⟨table, u, hget, h⟩ := Step.bind_eq_ok.mp h
  obtain ⟨rfl, rfl⟩ := Step.get_eq_ok.mp hget
  cases hr : t.ranges[c.index]? with
  | none =>
    rw [hr] at h
    exact (Step.fail_eq_ok.mp h).elim
  | some r =>
    rw [hr] at h
    obtain ⟨physicalStart, v, hof, h⟩ := Step.bind_eq_ok.mp h
    obtain ⟨hadd, rfl⟩ := Step.ofHalting_eq_ok.mp hof
    cases h
    exact ⟨r, rfl, by rw [add64_eq_ok hadd]⟩

/-- A claim that is carved and recorded is the tail of its range and large enough for the image
wherever it is aligned in it. -/
theorem carve_commit {index : Nat} {imageSize alignment : UInt64} {t t' t'' : SmramTable}
    {c : Carveout} (hroom : imageSize.toNat + alignment.toNat + 0xFFF < UInt64.size)
    (hcarve : carve index imageSize alignment t = .ok c t') (hcommit : commit c t' = .ok () t'') :
    ∃ r, t.ranges[index]? = some r ∧ c.index = index ∧ c.TailOf r ∧
      imageSize.toNat + alignment.toNat ≤ c.size.toNat ∧ t'' = t.withClaim c r := by
  obtain ⟨r, hr, hindex, htail, hsize, rfl⟩ := carve_eq_ok hroom hcarve
  obtain ⟨left, hleft, rfl⟩ := commit_eq_ok hcommit
  have hlt := List.getElem?_eq_some_iff.mp hr
  obtain ⟨hlt, -⟩ := hlt
  rw [hindex, List.getElem?_set_self hlt, Option.some.injEq] at hleft
  subst hleft
  exact ⟨r, hr, hindex, htail, hsize, by rw [withClaim, hindex]; rfl⟩

theorem exists_split {t : SmramTable} {c : Carveout} {r : SmramRange}
    (hr : t.ranges[c.index]? = some r) : ∃ before after, t.ranges = before ++ r :: after ∧
      (t.withClaim c r).ranges = before ++ c.rest r :: (after ++ [c.entry r]) := by
  obtain ⟨hlt, hget⟩ := List.getElem?_eq_some_iff.mp hr
  refine ⟨t.ranges.take c.index, t.ranges.drop (c.index + 1), ?_, ?_⟩
  · rw [← hget, ← List.drop_eq_getElem_cons hlt, List.take_append_drop]
  · rw [withClaim, List.set_eq_take_append_cons_drop, if_pos hlt, List.append_assoc, List.cons_append]

theorem pairwise_withClaim {t : SmramTable} {c : Carveout} {r : SmramRange}
    (hapart : t.ranges.Pairwise SmramRange.Apart) (hr : t.ranges[c.index]? = some r)
    (htail : c.TailOf r) : (t.withClaim c r).ranges.Pairwise SmramRange.Apart := by
  obtain ⟨before, after, hsplit, hclaim⟩ := exists_split hr
  rw [hsplit, List.pairwise_append, List.pairwise_cons] at hapart
  obtain ⟨hbefore, ⟨hnext, hafter⟩, hacross⟩ := hapart
  have hleft : ∀ a ∈ before, a.Apart r := fun a ha => hacross a ha r List.mem_cons_self
  have hright : ∀ a ∈ after, a.Apart r := fun a ha => (hnext a ha).symm
  rw [hclaim, List.pairwise_append, List.pairwise_cons, List.pairwise_append]
  refine ⟨hbefore, ⟨fun a ha => ?next, hafter, List.pairwise_singleton _ _, fun a ha b hb => ?entry⟩,
    fun a ha b hb => ?across⟩
  case next =>
    obtain ha | ha := List.mem_append.mp ha
    · exact (htail.apart (hright a ha)).1.symm
    · rw [List.mem_singleton.mp ha]
      exact htail.rest_apart_entry
  case entry =>
    rw [List.mem_singleton.mp hb]
    exact (htail.apart (hright a ha)).2
  case across =>
    obtain rfl | hb := List.mem_cons.mp hb
    · exact (htail.apart (hleft a ha)).1
    obtain hb | hb := List.mem_append.mp hb
    · exact hacross a ha b (List.mem_cons_of_mem _ hb)
    · rw [List.mem_singleton.mp hb]
      exact (htail.apart (hleft a ha)).2

theorem apart_entry {t : SmramTable} {c : Carveout} {r other : SmramRange}
    (hapart : t.ranges.Pairwise SmramRange.Apart) (hr : t.ranges[c.index]? = some r)
    (htail : c.TailOf r) {j : Nat} (hj : j ≠ t.ranges.length)
    (hother : (t.withClaim c r).ranges[j]? = some other) : other.Apart (c.entry r) := by
  have hall := pairwise_withClaim hapart hr htail
  rw [withClaim, List.pairwise_append] at hall
  have hlt : j < (t.ranges.set c.index (c.rest r)).length := by
    have hbound := (List.getElem?_eq_some_iff.mp hother).1
    rw [withClaim, List.length_append, List.length_singleton] at hbound
    rw [List.length_set] at hbound ⊢
    omega
  rw [withClaim, List.getElem?_append_left hlt] at hother
  exact hall.2.2 other (List.mem_of_getElem? hother) _ (List.mem_singleton_self _)

theorem pairwise_setState {t : SmramTable} (on off : RegionState)
    (h : t.ranges.Pairwise SmramRange.Apart) :
    (t.setState on off).ranges.Pairwise SmramRange.Apart := by
  rw [setState, List.pairwise_map]
  exact h

end SmramTable
end PlatformInit
