import PlatformInit.Mm.Ipl
import PlatformInit.Proofs.Cache.FixedRanges
import PlatformInit.Proofs.Cache.FreePairs

/-!
What a refused range leaves behind.

Both ways of setting a range write while they go through it and take nothing back. A range that the
type bytes do not make up has still set the ones inside it, and pieces that find no free pair come after
pieces that found one. The loader of management mode goes on after an error as if there had been none.
-/
set_option autoImplicit false
namespace PlatformInit

/-! ### Errors that are passed over -/

/-- The controller with the errors of its ranges passed over. -/
def CacheController.forgiving {ω : Type} (c : CacheController ω) : CacheController ω :=
  { c with setAttributes := fun base length type => Step.ignoringError (c.setAttributes base length type) }

namespace Ipl
variable {ω : Type}

theorem cacheRange_forgiving (parts : IplParts ω) (index : Nat) :
    cacheRange { parts with cache := parts.cache.forgiving } index = cacheRange parts index := by
  have herror : ∀ base length,
      (Step.ignoringError (onMachine (Machine.onWorld
        (parts.cache.forgiving.setAttributes base length .writeBack))) : Step (IplState ω) EfiError Unit) =
      Step.ignoringError (onMachine (Machine.onWorld (parts.cache.setAttributes base length .writeBack))) := by
    intro base length
    rw [CacheController.forgiving, Machine.onWorld, Step.focus_ignoringError, onMachine,
      Step.focus_ignoringError, Step.ignoringError_ignoringError]
    rfl
  simp only [cacheRange, herror]

theorem loadInto_forgiving (parts : IplParts ω) :
    loadInto { parts with cache := parts.cache.forgiving } = loadInto parts := by
  funext hobs volumes core
  simp only [loadInto, cacheRange_forgiving]
  rfl

theorem loadCore_forgiving (parts : IplParts ω) (volumes : List MappedVolume) :
    loadCore { parts with cache := parts.cache.forgiving } volumes = loadCore parts volumes := by
  unfold loadCore
  rw [loadInto_forgiving]

end Ipl

namespace Mtrr

/-- The type bytes inside a range have its type. All the others and all other registers are as before. -/
structure LanesSet (base stop : Nat) (type : CacheType) (m m' : Msrs) : Prop where
  lanes : ∀ r ∈ fixedRegisters, ∀ i < 8, laneType (m' r.msr) i =
    if base ≤ r.start + i * r.unit ∧ r.start + i * r.unit + r.unit ≤ stop then type.code
    else laneType (m r.msr) i
  other : ∀ msr, (∀ r ∈ fixedRegisters, msr ≠ r.msr) → m' msr = m msr

section
variable {bits : Nat} {c : Controller Msrs} {m : Msrs} {base length : UInt64} {type : CacheType}

theorem lanesSet_paint (base stop : Nat) (type : CacheType) (m : Msrs) :
    LanesSet base stop type m (fixedRegisters.foldl (paint base stop type) m) := by
  refine ⟨fun r hr i hi => ?_, fun msr hmsr => paint_frame hmsr⟩
  rw [laneType_paint hr hi]
  simp only [mem_lanes, hi, true_and]

theorem setAttributes_eq_setFixed {ω : Type} (c : Controller ω) (w : ω) (hbase : base % pageSize = 0)
    (hlength : length % pageSize = 0) (hpos : length ≠ 0)
    (hlow : base.toNat + length.toNat ≤ size1M.toNat) (type : CacheType) :
    c.setAttributes base length type w = c.setFixed base.toNat (base.toNat + length.toNat) type w := by
  have hstop : add64 base length = .ok (base + length) := if_pos (Nat.lt_of_le_of_lt hlow (by decide))
  have hsum := add64_eq_ok_iff.mp hstop
  rw [Controller.setAttributes, if_neg (by simp [hbase, hlength, hpos]), hstop]
  change (if base + length ≤ size1M then _ else _ : Step ω EfiError Unit) w = _
  rw [if_pos (UInt64.le_iff_toNat_le.mpr (hsum ▸ hlow)), hsum]

theorem setAttributes_low (hc : c.ForBits bits) (hbase : base % pageSize = 0)
    (hlength : length % pageSize = 0) (hpos : length ≠ 0)
    (hlow : base.toNat + length.toNat ≤ size1M.toNat) (type : CacheType) :
    c.setAttributes base length type m =
      if base.toNat % granularity base.toNat = 0 ∧
          (base.toNat + length.toNat) % granularity (base.toNat + length.toNat) = 0
        then .ok () (fixedRegisters.foldl (paint base.toNat (base.toNat + length.toNat) type) m)
        else .error (.error .invalidParameter)
          (fixedRegisters.foldl (paint base.toNat (base.toNat + length.toNat) type) m) := by
  have hlong : 0 < length.toNat := Nat.pos_of_ne_zero fun h => hpos (UInt64.toNat_inj.mp h)
  have hmade := lanesSize_eq_iff (by omega : base.toNat < base.toNat + length.toNat) hlow
  rw [setAttributes_eq_setFixed c m hbase hlength hpos hlow, setFixed_eq hc]
  simp only [hmade]

theorem pairCount_le (m : Msrs) : pairCount m ≤ 255 := by
  have hand : pairCount m = (m capability).toNat &&& 255 := UInt64.toNat_and ..
  rw [hand]
  exact Nat.and_le_right

theorem setAttributes_high (hc : c.ForBits bits) (hbase : base % pageSize = 0)
    (hlength : length % pageSize = 0) (hpos : length ≠ 0)
    (hhigh : size1M.toNat < base.toNat + length.toNat)
    (hfits : base.toNat + length.toNat < UInt64.size) (type : CacheType) :
    c.setAttributes base length type m =
      if (pieces base.toNat length.toNat).length ≤ (freePairs m).length
        then .ok () (withPieces c type m ((freePairs m).zip (pieces base.toNat length.toNat)))
        else .error (.error .outOfResources)
          (withPieces c type m ((freePairs m).zip (pieces base.toNat length.toNat))) := by
  rw [setAttributes_eq_setPieces hc hbase hlength hpos hhigh hfits]
  exact setPieces_eq hc type _ 0 (pairCount_le m)

end

/-- What a range changes whether or not it is accepted, and when it is refused. A range that is not made
of whole pages changes nothing. Below 1 MiB the type bytes inside the range are set, above it the first
pieces are put into the free pairs. None of it is taken back, and the loader goes on. -/
theorem setAttributes_not_undone {width : UInt8} {c : Controller Msrs}
    (hc : Controller.new Msrs.access width = .ok c) (m : Msrs) (base length : UInt64) (type : CacheType)
    (hfits : base.toNat + length.toNat < 2 ^ 64) :
    (length = 0 ∨ base % pageSize ≠ 0 ∨ length % pageSize ≠ 0 →
      c.setAttributes base length type m = .error (.error .invalidParameter) m) ∧
    (length ≠ 0 → base % pageSize = 0 → length % pageSize = 0 →
      base.toNat + length.toNat ≤ size1M.toNat →
      ∃ m', LanesSet base.toNat (base.toNat + length.toNat) type m m' ∧
        c.setAttributes base length type m =
          if base.toNat % granularity base.toNat = 0 ∧
              (base.toNat + length.toNat) % granularity (base.toNat + length.toNat) = 0
            then .ok () m' else .error (.error .invalidParameter) m') ∧
    (length ≠ 0 → base % pageSize = 0 → length % pageSize = 0 →
      size1M.toNat < base.toNat + length.toNat →
      ∃ m', Placed c type ((freePairs m).zip (pieces base.toNat length.toNat)) m m' ∧
        c.setAttributes base length type m =
          if (pieces base.toNat length.toNat).length ≤ (freePairs m).length
            then .ok () m' else .error (.error .outOfResources) m') ∧
    ∀ {ω : Type} (parts : IplParts ω) (volumes : List MappedVolume),
      Ipl.loadCore { parts with cache := parts.cache.forgiving } volumes = Ipl.loadCore parts volumes := by
  have hbits := forBits_of_new hc
  refine ⟨fun hparts => ?_, fun hpos hbase hlength hlow => ?_, fun hpos hbase hlength hhigh => ?_,
    fun parts volumes => Ipl.loadCore_forgiving parts volumes⟩
  · rw [Controller.setAttributes, if_pos hparts]
    rfl
  · exact ⟨_, lanesSet_paint .., setAttributes_low hbits hbase hlength hpos hlow type⟩
  · exact ⟨_, placed_withPieces (pairCount_le m) _,
      setAttributes_high hbits hbase hlength hpos hhigh hfits type⟩

def singlePair : Msrs := fun msr => if msr = capability then 1 else 0

theorem setAttributes_not_undone_crossing : ∃ c m', Controller.new Msrs.access 36 = .ok c ∧
    (0x7F000 : UInt64).toNat + (0x5000 : UInt64).toNat < 2 ^ 64 ∧
    c.setAttributes 0x7F000 0x5000 .writeBack singlePair = .error (.error .invalidParameter) m' ∧
    laneType (m' 0x250) 7 = CacheType.uncacheable.code ∧ laneType (m' 0x258) 0 = CacheType.writeBack.code ∧
    m' (maskRegister 0) = 0 := by
  have hnew : Controller.new Msrs.access 36 = .ok ⟨Msrs.access, 0xFFFFFF000⟩ := rfl
  have hfits : (0x7F000 : UInt64).toNat + (0x5000 : UInt64).toNat < 2 ^ 64 := by decide
  obtain ⟨m', hset, hrun⟩ := (setAttributes_not_undone hnew singlePair 0x7F000 0x5000 .writeBack hfits).2.1
    (by decide) (by decide) (by decide) (by decide)
  rw [if_neg (by decide)] at hrun
  have hcrossed := hset.lanes ⟨0x250, 0, 0x10000⟩ List.mem_cons_self 7 (by decide)
  have hbehind :=
    hset.lanes ⟨0x258, 0x80000, 0x4000⟩ (List.mem_cons_of_mem _ List.mem_cons_self) 0 (by decide)
  exact ⟨_, m', hnew, hfits, hrun, hcrossed.trans (by decide), hbehind.trans (by decide),
    (hset.other _ (by decide)).trans (by decide)⟩

/-- Both kinds of refused ranges leave registers with new values. -/
theorem refused_ranges_remain : ∃ c m₁ m₂, Controller.new Msrs.access 36 = .ok c ∧
    c.setAttributes 0x7F000 0x5000 .writeBack singlePair = .error (.error .invalidParameter) m₁ ∧
    m₁ 0x258 ≠ singlePair 0x258 ∧
    c.setAttributes 0x100000000 0x60000000 .writeBack singlePair = .error (.error .outOfResources) m₂ ∧
    m₂ (baseRegister 0) ≠ singlePair (baseRegister 0) ∧
    m₂ (maskRegister 0) ≠ singlePair (maskRegister 0) := by
  have hnew : Controller.new Msrs.access 36 = .ok ⟨Msrs.access, 0xFFFFFF000⟩ := rfl
  have hlow := setAttributes_low (m := singlePair) (forBits_of_new hnew)
    (by decide : (0x7F000 : UInt64) % pageSize = 0) (by decide : (0x5000 : UInt64) % pageSize = 0)
    (by decide) (by decide) .writeBack
  have hhigh := setAttributes_high (m := singlePair) (forBits_of_new hnew)
    (by decide : (0x100000000 : UInt64) % pageSize = 0) (by decide : (0x60000000 : UInt64) % pageSize = 0)
    (by decide) (by decide) (by decide) .writeBack
  rw [if_neg (by decide)] at hlow
  rw [if_neg (by decide +kernel)] at hhigh
  exact ⟨_, _, _, hnew, hlow, by decide, hhigh, by decide +kernel, by decide +kernel⟩

end Mtrr
end PlatformInit
