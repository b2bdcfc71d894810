import PlatformInit.Loader.Pool
import PlatformInit.Proofs.Loader.PoolLayout

/-!
The places in the pool in numbers, and the bounds of the pool as a context keeps them.

A context has room for the low word of an address. The highest of the bounds is the end of the reserved
region, so all of them are kept exactly when the region ends below 4 GiB.
-/
set_option autoImplicit false
namespace PlatformInit

/-- The bounds of the pool and of the memory above it, the end of usable memory last. -/
def GlobalContext.bounds (c : GlobalContext) : List UInt32 :=
  [c.poolBottom, c.poolTop, c.poolStart, c.poolEnd, c.stackTop, c.usableTop]

/-- The free part of the pool ends inside the pool, the pool ends below the stack, and the stack
begins below the end of usable memory. -/
structure GlobalContext.Nested (c : GlobalContext) : Prop where
  poolTop : c.poolBottom ≤ c.poolTop
  poolEnd : c.poolTop < c.poolEnd
  stackTop : c.poolEnd ≤ c.stackTop
  usableTop : c.stackTop ≤ c.usableTop

/-- The contexts agree in everything but the bounds and the hand-off list. -/
structure GlobalContext.SameBut (c c' : GlobalContext) : Prop where
  signature : c'.signature = c.signature
  bootMode : c'.bootMode = c.bootMode
  printMask : c'.printMask = c.printMask
  memoryUpd : c'.memoryUpd = c.memoryUpd
  siliconUpd : c'.siliconUpd = c.siliconUpd

namespace PoolLayout
variable {base length : UInt64} {config : LoaderConfig} {l : PoolLayout}

def bounds (l : PoolLayout) : List UInt64 :=
  [l.start, l.poolTop, l.start, l.stop, l.stackTop, l.usableTop]

/-! ### The carves -/

theorem Below.stop_lt_switchStackTop (h : Below base length config l)
    (hpower : isPowerOfTwo config.stackAlignment = true)
    (hroom : config.stackAlignment.toNat ≤ config.hobStackSize.toNat) :
    l.stop.toNat < l.switchStackTop.toNat := by
  have hstop := h.stop
  have habove := h.switchStackTop.lt_add (isPowerOfTwo_pos hpower)
  omega

/-- In every layout the pool holds, from the top down and without overlap, the context, the interrupt
table and the global table, each at the highest place that fits; by default the stack begins above the pool
also when it is aligned. -/
theorem compute_geometry (h : compute base length config = .ok l) :
    l.start.toNat ≤ l.gdt.toNat ∧
    l.gdt.toNat + 56 ≤ l.idt.toNat ∧
    l.idt.toNat + 552 ≤ l.context.toNat ∧
    l.context.toNat + GlobalContext.size ≤ l.stop.toNat ∧
    l.stop.toNat ≤ base.toNat ∧
    (16 ∣ l.gdt.toNat ∧ 16 ∣ l.idt.toNat ∧ 16 ∣ l.context.toNat) ∧
    Below base length config l ∧
    (config = {} → l.stop.toNat < l.switchStackTop.toNat) := by
  obtain ⟨-, hpower, hbelow⟩ := below_of_compute h
  obtain ⟨hgdt, hidt, hcontext, hstop⟩ := hbelow.carved
  refine ⟨hgdt, hidt, hcontext, hstop, ?_, ?_, hbelow, ?_⟩
  · exact hbelow.stop ▸ Nat.le_add_right _ _
  · exact ⟨hbelow.gdt.1.1, hbelow.idt.1.1, hbelow.context.1.1⟩
  · rintro rfl
    exact hbelow.stop_lt_switchStackTop hpower (by decide)

def unalignedLayout : PoolLayout where
  start := 0x7EB00080
  stop := 0x7EBFF080
  context := 0x7EBFF030
  idt := 0x7EBFEE00
  gdt := 0x7EBFEDC0
  stackTop := 0x7EC00080
  usableTop := 0x7EC01080
  switchStackTop := 0x7EC00000

theorem compute_geometry_unaligned :
    compute 0x7EC00080 0x1000 {} = .ok unalignedLayout ∧
      Below 0x7EC00080 0x1000 {} unalignedLayout ∧
      unalignedLayout.stop.toNat < unalignedLayout.switchStackTop.toNat := by
  have hcompute : compute 0x7EC00080 0x1000 {} = .ok unalignedLayout := by decide +kernel
  obtain ⟨-, -, -, -, -, -, hbelow, hdefault⟩ := compute_geometry hcompute
  exact ⟨hcompute, hbelow, hdefault rfl⟩

/-! ### The bounds in a context -/

theorem Below.bounds_le (h : Below base length config l) :
    ∀ a ∈ l.bounds, a.toNat ≤ base.toNat + length.toNat := by
  obtain ⟨hgdt, hidt, hcontext, hstop⟩ := h.carved
  have hend := h.stop
  simp only [bounds, List.forall_mem_cons, h.poolTop, h.stackTop, h.usableTop]
  refine ⟨?_, ?_, ?_, ?_, Nat.le_add_right _ _, Nat.le_refl _, nofun⟩ <;> omega

theorem toNat_bounds_apply (l : PoolLayout) (hobList : UInt64) (c : GlobalContext) :
    (l.apply hobList c).bounds.map UInt32.toNat = l.bounds.map (·.toNat % UInt32.size) := rfl

/-- A word keeps an address below 4 GiB and no other. -/
theorem bounds_apply_eq_iff (l : PoolLayout) (hobList : UInt64) (c : GlobalContext) :
    (l.apply hobList c).bounds.map UInt32.toNat = l.bounds.map UInt64.toNat ↔
      ∀ a ∈ l.bounds, a.toNat < UInt32.size := by
  rw [toNat_bounds_apply, List.map_inj_left]
  exact forall₂_congr fun a _ => Nat.mod_eq_iff_lt (by decide)

theorem Below.bounds_lt_iff (h : Below base length config l) :
    (∀ a ∈ l.bounds, a.toNat < UInt32.size) ↔ base.toNat + length.toNat < UInt32.size := by
  constructor
  · intro hall
    rw [← h.usableTop]
    exact hall l.usableTop (by simp [bounds])
  · exact fun hend a ha => Nat.lt_of_le_of_lt (h.bounds_le a ha) hend

theorem Below.nested_apply (h : Below base length config l) (hend : base.toNat + length.toNat < UInt32.size)
    (hobList : UInt64) (c : GlobalContext) : (l.apply hobList c).Nested := by
  have hkept : ∀ a ∈ l.bounds, a.toUInt32.toNat = a.toNat := fun a ha =>
    Nat.mod_eq_of_lt (h.bounds_lt_iff.mpr hend a ha)
  simp only [bounds, List.forall_mem_cons] at hkept
  obtain ⟨hstart, htop, -, hstop, hstack, husable, -⟩ := hkept
  obtain ⟨hgdt, hidt, hcontext, hbelow⟩ := h.carved
  have hstackTop := congrArg UInt64.toNat h.stackTop
  have hpoolTop := congrArg UInt64.toNat h.poolTop
  have hhob := h.stop
  have husableTop := h.usableTop
  have hsize : 0 < Gdt.size := by decide
  constructor <;> simp only [apply, UInt32.le_iff_toNat_le, UInt32.lt_iff_toNat_lt] <;> omega

/-- What a context knows of the pool after a layout is applied: the low word of every bound. They are the
layout's addresses, and lie in order, whenever the reserved region ends below 4 GiB; one that ends higher
loses at least its end. -/
theorem apply_bounds (h : compute base length config = .ok l) (hobList : UInt64) (c : GlobalContext) :
    (l.apply hobList c).hobList = hobList ∧
    c.SameBut (l.apply hobList c) ∧
    (l.apply hobList c).bounds.map UInt32.toNat = l.bounds.map (·.toNat % UInt32.size) ∧
    ((l.apply hobList c).bounds.map UInt32.toNat = l.bounds.map UInt64.toNat ↔
      base.toNat + length.toNat < UInt32.size) ∧
    (base.toNat + length.toNat < UInt32.size → (l.apply hobList c).Nested) := by
  obtain ⟨-, -, hbelow⟩ := below_of_compute h
  refine ⟨rfl, ⟨rfl, rfl, rfl, rfl, rfl⟩, toNat_bounds_apply l hobList c, ?_, ?_⟩
  · rw [bounds_apply_eq_iff, hbelow.bounds_lt_iff]
  · exact fun hend => hbelow.nested_apply hend hobList c

theorem apply_bounds_unaligned :
    compute 0x7EC00080 0x1000 {} = .ok unalignedLayout ∧
      (unalignedLayout.apply 0x7EE00000 .blank).bounds.map UInt32.toNat =
        unalignedLayout.bounds.map UInt64.toNat ∧
      (unalignedLayout.apply 0x7EE00000 .blank).Nested := by
  have hcompute : compute 0x7EC00080 0x1000 {} = .ok unalignedLayout := by decide +kernel
  obtain ⟨-, -, -, hkept, hnested⟩ := apply_bounds hcompute 0x7EE00000 .blank
  exact ⟨hcompute, hkept.mpr (by decide), hnested (by decide)⟩

def lastLayout : PoolLayout where
  start := 0xFFB00000
  stop := 0xFFBFF000
  context := 0xFFBFEFB0
  idt := 0xFFBFED80
  gdt := 0xFFBFED40
  stackTop := 0xFFC00000
  usableTop := 0x100000000
  switchStackTop := 0xFFC00000

/-- A region that ends at 4 GiB is accepted, and the context then says that usable memory ends at
zero, below the stack. -/
theorem region_end_lost : compute 0xFFC00000 0x400000 {} = .ok lastLayout ∧
    lastLayout.usableTop.toNat = UInt32.size ∧
    (lastLayout.apply 0xFFE00000 .blank).usableTop.toNat = 0 ∧
    ¬ (lastLayout.apply 0xFFE00000 .blank).Nested := by
  have hcompute : compute 0xFFC00000 0x400000 {} = .ok lastLayout := by decide +kernel
  refine ⟨hcompute, by decide, by decide, fun h => ?_⟩
  exact absurd h.usableTop (by decide)

end PoolLayout
end PlatformInit
