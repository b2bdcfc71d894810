import PlatformInit.Proofs.Contract
import PlatformInit.Proofs.Smram.Carving

/-!
Tables of which the ranges are proper and share no byte. Claims on them are recorded and given back
without a failure, and the bytes that the table covers stay the same.
-/
set_option autoImplicit false
namespace PlatformInit

open Step (Ends)

namespace SmramRange

/-- The range is not empty, and it ends before the end of the address space, as the processor and as
the memory sees it. -/
structure Proper (r : SmramRange) : Prop where
  size_pos : 0 < r.size.toNat
  cpuStop_lt : r.cpuStart.toNat + r.size.toNat < UInt64.size
  physicalStop_lt : r.physicalStart.toNat + r.size.toNat < UInt64.size

/-- The byte at an address, as the processor sees it, belongs to the range. -/
def Holds (r : SmramRange) (address : Nat) : Prop :=
  r.cpuStart.toNat ≤ address ∧ address < r.cpuStart.toNat + r.size.toNat

theorem Apart.cpuStart_ne {a b : SmramRange} (h : a.Apart b) (ha : 0 < a.size.toNat)
    (hb : 0 < b.size.toNat) : a.cpuStart ≠ b.cpuStart := by
  intro heq
  unfold Apart at h
  rw [heq] at h
  omega

end SmramRange

namespace Carveout

variable {c : Carveout} {r : SmramRange}

theorem records_entry (c : Carveout) (r : SmramRange) :
    SmramTable.records c (c.entry r) = true := by
  have hstate : (r.state ||| RegionState.allocated) &&& RegionState.allocated = RegionState.allocated := by
    apply UInt64.toNat_inj.mp
    rw [UInt64.toNat_and, UInt64.toNat_or]
    apply Nat.eq_of_testBit_eq
    intro i
    rw [Nat.testBit_and, Nat.testBit_or]
    cases r.state.toNat.testBit i <;> cases RegionState.allocated.toNat.testBit i <;> rfl
  simp only [SmramTable.records, entry, hstate, decide_eq_true_eq, true_and]
  decide

theorem not_records {other : SmramRange} (h : other.cpuStart ≠ c.destination) :
    SmramTable.records c other = false :=
  decide_eq_false fun hrecords => h hrecords.1

theorem restored (c : Carveout) (r : SmramRange) :
    { c.rest r with size := (c.rest r).size + c.size } = r := by
  change { r with size := r.size - c.size + c.size } = r
  rw [UInt64.sub_add_cancel]

variable (h : c.TailOf r)
include h

theorem TailOf.holds_iff (address : Nat) :
    (c.rest r).Holds address ∨ (c.entry r).Holds address ↔ r.Holds address := by
  have hsize := h.rest_size
  have hstop := h.stop
  change (r.cpuStart.toNat ≤ address ∧ address < r.cpuStart.toNat + (c.rest r).size.toNat) ∨
    (c.destination.toNat ≤ address ∧ address < c.destination.toNat + c.size.toNat) ↔
      r.cpuStart.toNat ≤ address ∧ address < r.cpuStart.toNat + r.size.toNat
  omega

variable (hr : r.Proper)
include hr

theorem TailOf.proper_rest : (c.rest r).Proper := by
  have hsize := h.rest_size
  have hlt := h.size_lt
  obtain ⟨-, hcpu, hphysical⟩ := hr
  refine ⟨by omega, ?_, ?_⟩
  · change r.cpuStart.toNat + _ < _
    omega
  · change r.physicalStart.toNat + _ < _
    omega

theorem TailOf.offset_entry :
    (c.entry r).physicalStart.toNat + r.cpuStart.toNat =
      r.physicalStart.toNat + (c.entry r).cpuStart.toNat := by
  have hsize := h.rest_size
  have hstop := h.stop
  obtain ⟨-, -, hphysical⟩ := hr
  change (r.physicalStart + (c.rest r).size).toNat + _ = _ + c.destination.toNat
  rw [UInt64.toNat_add, Nat.mod_eq_of_lt (show _ < UInt64.size by omega)]
  omega

theorem TailOf.proper_entry (hpos : 0 < c.size.toNat) : (c.entry r).Proper := by
  have hstop := h.stop
  have hoffset := h.offset_entry hr
  obtain ⟨-, hcpu, hphysical⟩ := hr
  change (c.entry r).physicalStart.toNat + _ = _ + c.destination.toNat at hoffset
  refine ⟨hpos, ?_, ?_⟩
  · change c.destination.toNat + c.size.toNat < _
    omega
  · change (c.entry r).physicalStart.toNat + c.size.toNat < _
    omega

end Carveout

namespace SmramTable

/-- The ranges of a table are proper, and no two of them share a byte. -/
structure Sound (t : SmramTable) : Prop where
  apart : t.ranges.Pairwise SmramRange.Apart
  proper : ∀ r ∈ t.ranges, r.Proper

def Covers (t : SmramTable) (address : Nat) : Prop := ∃ r ∈ t.ranges, r.Holds address

section
variable {t : SmramTable} {c : Carveout} {r : SmramRange}

theorem Sound.withClaim (h : t.Sound) (hr : t.ranges[c.index]? = some r) (htail : c.TailOf r)
    (hpos : 0 < c.size.toNat) : (t.withClaim c r).Sound := by
  have hproper := h.proper r (List.mem_of_getElem? hr)
  refine ⟨pairwise_withClaim h.apart hr htail, fun x hx => ?_⟩
  obtain hx | hx := List.mem_append.mp hx
  · obtain hx | rfl := List.mem_or_eq_of_mem_set hx
    · exact h.proper x hx
    · exact htail.proper_rest hproper
  · rw [List.mem_singleton.mp hx]
    exact htail.proper_entry hproper hpos

theorem covers_withClaim (hr : t.ranges[c.index]? = some r) (htail : c.TailOf r) (address : Nat) :
    (t.withClaim c r).Covers address ↔ t.Covers address := by
  obtain ⟨before, after, hsplit, hclaim⟩ := exists_split hr
  have hholds := htail.holds_iff address
  simp only [Covers, hsplit, hclaim, List.mem_append, List.mem_cons,
    List.not_mem_nil, or_false, or_and_right, exists_or, exists_eq_left, ← hholds]
  grind

theorem restore_eq_ok {front entered : List SmramRange} (hr : front[c.index]? = some r)
    (hfits : r.size.toNat + c.size.toNat < UInt64.size)
    (hfront : ∀ x ∈ front, records c x = false) :
    restore c ⟨front ++ entered⟩ = .ok () ⟨front.set c.index { r with size := r.size + c.size } ++
      entered.filter fun x => !records c x⟩ := by
  obtain ⟨hlt, -⟩ := List.getElem?_eq_some_iff.mp hr
  have hkept : ((front ++ entered).filter fun x => !records c x) =
      front ++ entered.filter fun x => !records c x := by
    rw [List.filter_append, List.filter_eq_self.mpr fun x hx => by rw [hfront x hx]; rfl]
  have hget : (front ++ entered.filter fun x => !records c x)[c.index]? = some r := by
    rw [List.getElem?_append_left hlt, hr]
  have hadd : add64 r.size c.size = .ok (r.size + c.size) := if_pos hfits
  refine (Step.bind_of_ok rfl).trans ((Step.bind_of_ok rfl).trans ?_)
  simp only [hkept, hget, hadd]
  refine (Step.bind_of_ok rfl).trans ?_
  rw [List.set_append_left _ _ hlt]
  rfl

theorem carve_refused (hproper : ∀ r ∈ t.ranges, r.Proper) {index : Nat} {imageSize alignment : UInt64}
    {e : Fault BootError} {u : SmramTable} (h : carve index imageSize alignment t = .error e u) :
    (∃ cause, e = .error cause) ∧ u = t := by
  have hends : Ends (carve index imageSize alignment) t fun r u =>
      ∀ e, r = .error e → (∃ cause, e = .error cause) ∧ u = t := by
    have hrefuse (cause : BootError) (e : Fault BootError)
        (he : (.error (.error cause) : Except (Fault BootError) Carveout) = .error e) :
        (∃ cause, e = .error cause) ∧ t = t := ⟨⟨cause, (Except.error.inj he).symm⟩, rfl⟩
    refine Ends.get_bind ?_
    cases hr : t.ranges[index]? with
    | none => exact hrefuse _
    | some r =>
      dsimp only
      split
      · split
        · exact hrefuse _
        · rename_i hbad
          obtain ⟨-, hcpu, -⟩ := hproper r (List.mem_of_getElem? hr)
          have hlt := UInt64.not_le.mp (not_or.mp hbad).2
          have hrest := UInt64.toNat_sub_of_le _ _ (UInt64.le_of_lt hlt)
          have hltNat := UInt64.lt_iff_toNat_lt.mp hlt
          refine Ends.bind_of_ok rfl ?_
          rw [add64, if_pos (by omega)]
          exact fun e he => nomatch he
      · exact hrefuse _
  exact hends.of_error h e rfl

theorem commit_of_carve (hsound : t.Sound) {index : Nat} {imageSize alignment : UInt64} {u : SmramTable}
    (hroom : imageSize.toNat + alignment.toNat + 0xFFF < UInt64.size)
    (h : carve index imageSize alignment t = .ok c u) : ∃ v, commit c u = .ok () v := by
  obtain ⟨r, hr, rfl, htail, -, rfl⟩ := carve_eq_ok hroom h
  obtain ⟨-, -, hphysical⟩ := htail.proper_rest (hsound.proper r (List.mem_of_getElem? hr))
  obtain ⟨hlt, -⟩ := List.getElem?_eq_some_iff.mp hr
  have hadd : add64 (c.rest r).physicalStart (c.rest r).size = .ok _ := if_pos hphysical
  refine ⟨t.withClaim c r, (Step.bind_of_ok rfl).trans ?_⟩
  simp only [List.getElem?_set_self hlt, hadd]
  rfl

end

end SmramTable

end PlatformInit
