import PlatformInit.Loader.Pool
import PlatformInit.Proofs.Cpu.Tables
import PlatformInit.Proofs.Step
import PlatformInit.Proofs.Word.Align

/-!
Where the pool lies and what is in it: `compute_eq_ok_iff` says of every layout whether it is the answer.
-/
set_option autoImplicit false
namespace PlatformInit.PoolLayout

/-- From the top of the pool down there are the context, the interrupt table and the global table, and
they do not overlap. -/
structure Carved (l : PoolLayout) : Prop where
  gdt : l.start.toNat ≤ l.gdt.toNat
  idt : l.gdt.toNat + Gdt.size ≤ l.idt.toNat
  context : l.idt.toNat + Idt.size ≤ l.context.toNat
  stop : l.context.toNat + GlobalContext.size ≤ l.stop.toNat

/-- The highest multiple of sixteen with room for `size` bytes below `top`. -/
def HighestFit (size top address : Nat) : Prop := IsGreatest {k | 16 ∣ k ∧ k + size ≤ top} address

theorem highestFit_iff {size top address : Nat} :
    HighestFit size top address ↔ size ≤ top ∧ PreviousMultiple 16 (top - size) address := by
  constructor
  · rintro ⟨⟨hdvd, hfits⟩, hgreatest⟩
    refine ⟨by omega, ⟨hdvd, by omega⟩, fun k hk => hgreatest ⟨hk.1, ?_⟩⟩
    have hle : k ≤ top - size := hk.2
    omega
  · rintro ⟨hsize, ⟨hdvd, hle⟩, hgreatest⟩
    refine ⟨⟨hdvd, by omega⟩, fun k hk => hgreatest ⟨hk.1, ?_⟩⟩
    have hfits : k + size ≤ top := hk.2
    omega

theorem carve_eq_ok_iff {start top address : UInt64} {size : Nat} :
    carve start top size = .ok address ↔
      start.toNat ≤ address.toNat ∧ HighestFit size top.toNat address.toNat := by
  rw [highestFit_iff, carve]
  by_cases hfits : size ≤ top.toNat
  · have htop := top.toNat_lt_size
    have hsize : (UInt64.ofNat size).toNat = size := UInt64.toNat_ofNat_of_lt (by omega)
    have hbelow : (top - UInt64.ofNat size).toNat = top.toNat - size := by
      rw [UInt64.toNat_sub_of_le _ _ (by rwa [UInt64.le_iff_toNat_le, hsize]), hsize]
    have hdown (aligned : UInt64) : alignDown (top - .ofNat size) alignment = .ok aligned ↔
        isPowerOfTwo alignment = true ∧ PreviousMultiple 16 (top.toNat - size) aligned.toNat := by
      rw [alignDown_eq_ok_iff, hbelow]
      exact Iff.rfl
    rw [if_pos hfits, and_iff_right hfits]
    cases haligned : alignDown (top - .ofNat size) alignment with
    | error e => cases haligned
    | ok aligned =>
      have hgreatest := ((hdown aligned).mp haligned).2
      dsimp only
      constructor
      · intro h
        split at h
        · rename_i hstart
          cases h
          exact ⟨UInt64.le_iff_toNat_le.mp hstart, hgreatest⟩
        · cases h
      · rintro ⟨hstart, haddress⟩
        obtain rfl : aligned = address := UInt64.toNat_inj.mp (IsGreatest.unique hgreatest haddress)
        rw [if_pos (UInt64.le_iff_toNat_le.mpr hstart)]
  · rw [if_neg hfits]
    exact ⟨nofun, fun h => absurd h.2.1 hfits⟩

/-- The layout that belongs below a reserved region. -/
structure Below (base length : UInt64) (config : LoaderConfig) (l : PoolLayout) : Prop where
  start : l.start.toNat + config.reservedSize.toNat = base.toNat
  stop : l.stop.toNat + config.hobStackSize.toNat = base.toNat
  nonempty : l.start.toNat < l.stop.toNat
  bottom : l.start.toNat ≤ l.gdt.toNat
  context : HighestFit GlobalContext.size l.stop.toNat l.context.toNat
  idt : HighestFit Idt.size l.context.toNat l.idt.toNat
  gdt : HighestFit Gdt.size l.idt.toNat l.gdt.toNat
  poolTop : l.poolTop = l.gdt
  stackTop : l.stackTop = base
  usableTop : l.usableTop.toNat = base.toNat + length.toNat
  switchStackTop : PreviousMultiple config.stackAlignment.toNat base.toNat l.switchStackTop.toNat

section
variable {base length : UInt64} {config : LoaderConfig} {l : PoolLayout}

theorem Below.carved (h : Below base length config l) : l.Carved :=
  ⟨h.bottom, h.gdt.1.2, h.idt.1.2, h.context.1.2⟩

theorem below_of_compute (h : compute base length config = .ok l) :
    base ≠ 0 ∧ isPowerOfTwo config.stackAlignment = true ∧ Below base length config l := by
  unfold compute at h
  split at h
  · cases h
  rename_i hbase
  split at h
  · cases h
  rename_i hreserved
  obtain ⟨stop, hstop, h⟩ := Fallible.bind_eq_ok.mp h
  split at h
  · cases h
  rename_i hsome
  obtain ⟨context, hcontext, h⟩ := Fallible.bind_eq_ok.mp h
  obtain ⟨idt, hidt, h⟩ := Fallible.bind_eq_ok.mp h
  obtain ⟨gdt, hgdt, h⟩ := Fallible.bind_eq_ok.mp h
  split at h
  · cases h
  rename_i switchStackTop hswitch
  obtain ⟨usableTop, husable, h⟩ := Fallible.bind_eq_ok.mp h
  cases h
  have hle := UInt64.not_lt.mp hreserved
  have hroom := UInt64.le_iff_toNat_le.mp hle
  have hstart := UInt64.toNat_sub_of_le _ _ hle
  rw [UInt32.toNat_toUInt64] at hroom hstart
  obtain ⟨hpower, htop⟩ := alignDown_eq_ok_iff.mp hswitch
  obtain ⟨hbottom, hlowest⟩ := carve_eq_ok_iff.mp (Fallible.ofExcept_eq_ok.mp hgdt)
  exact ⟨hbase, hpower, {
    start := by
      dsimp only
      omega
    stop := sub64_eq_ok_iff.mp (Fallible.ofHalting_eq_ok.mp hstop)
    nonempty := UInt64.lt_iff_toNat_lt.mp (UInt64.not_le.mp hsome)
    bottom := hbottom
    context := (carve_eq_ok_iff.mp (Fallible.ofExcept_eq_ok.mp hcontext)).2
    idt := (carve_eq_ok_iff.mp (Fallible.ofExcept_eq_ok.mp hidt)).2
    gdt := hlowest
    poolTop := rfl
    stackTop := rfl
    usableTop := add64_eq_ok_iff.mp (Fallible.ofHalting_eq_ok.mp husable)
    switchStackTop := htop }⟩

theorem compute_of_below (hbase : base ≠ 0) (hpower : isPowerOfTwo config.stackAlignment = true)
    (h : Below base length config l) : compute base length config = .ok l := by
  have hcarved := h.carved
  obtain ⟨start, stop, context, idt, gdt, poolTop, stackTop, usableTop, switchStackTop⟩ := l
  obtain ⟨hstart, hstop, hsome, hbottom, hcontext, hidt, hgdt, hpoolTop, hstackTop, husable, hswitch⟩ := h
  obtain ⟨-, habove, hhigh, -⟩ := hcarved
  dsimp only at *
  subst hpoolTop hstackTop
  have hreserved : config.reservedSize.toUInt64 ≤ stackTop := by
    rw [UInt64.le_iff_toNat_le, UInt32.toNat_toUInt64]
    omega
  obtain rfl : start = stackTop - config.reservedSize.toUInt64 := by
    apply UInt64.toNat_inj.mp
    rw [UInt64.toNat_sub_of_le _ _ hreserved, UInt32.toNat_toUInt64]
    omega
  have hcarve {top address : UInt64} {size : Nat} (hlow : poolTop.toNat ≤ address.toNat)
      (hfit : HighestFit size top.toNat address.toNat) :
      (Fallible.ofExcept (carve (stackTop - config.reservedSize.toUInt64) top size) :
        Fallible BootError UInt64) = .ok address :=
    Fallible.ofExcept_eq_ok.mpr (carve_eq_ok_iff.mpr ⟨Nat.le_trans hbottom hlow, hfit⟩)
  rw [compute, if_neg hbase, if_neg (UInt64.not_lt.mpr hreserved)]
  refine Fallible.bind_eq_ok.mpr ⟨stop, Fallible.ofHalting_eq_ok.mpr (sub64_eq_ok_iff.mpr hstop), ?_⟩
  rw [if_neg (UInt64.not_le.mpr (UInt64.lt_iff_toNat_lt.mpr hsome))]
  refine Fallible.bind_eq_ok.mpr ⟨context, hcarve (by omega) hcontext, ?_⟩
  refine Fallible.bind_eq_ok.mpr ⟨idt, hcarve (by omega) hidt, ?_⟩
  refine Fallible.bind_eq_ok.mpr ⟨poolTop, hcarve (Nat.le_refl _) hgdt, ?_⟩
  rw [alignDown_eq_ok_iff.mpr ⟨hpower, hswitch⟩]
  exact Fallible.bind_eq_ok.mpr
    ⟨usableTop, Fallible.ofHalting_eq_ok.mpr (add64_eq_ok_iff.mpr husable), rfl⟩

theorem compute_eq_ok_iff : compute base length config = .ok l ↔
    base ≠ 0 ∧ isPowerOfTwo config.stackAlignment = true ∧ Below base length config l :=
  ⟨below_of_compute, fun ⟨hbase, hpower, h⟩ => compute_of_below hbase hpower h⟩

theorem compute_carved (h : compute base length config = .ok l) : l.Carved :=
  (below_of_compute h).2.2.carved

end

def tables (l : PoolLayout) : StageTables := ⟨l.gdt, l.idt⟩

def Outside (l : PoolLayout) (start length : Nat) : Prop :=
  Memory.Apart start length l.start.toNat (l.stop.toNat - l.start.toNat)

namespace Carved
variable {l : PoolLayout}

theorem apart (h : l.Carved) : Memory.Apart l.gdt.toNat Gdt.size l.idt.toNat Idt.size := .inl h.idt

theorem clear (h : l.Carved) : l.tables.ClearOf l.context where
  gdt := .inr (Nat.le_trans h.idt (Nat.le_trans (Nat.le_add_right _ _) h.context))
  idt := .inr h.context

theorem apart_of_outside (h : l.Carved) {start length : Nat} (hout : l.Outside start length) :
    Memory.Apart start length l.gdt.toNat Gdt.size ∧
      Memory.Apart start length l.idt.toNat Idt.size ∧
      Memory.Apart start length l.context.toNat GlobalContext.size := by
  obtain ⟨hgdt, hidt, hcontext, hstop⟩ := h
  have hinside {address size : Nat} (hstart : l.start.toNat ≤ address)
      (hend : address + size ≤ l.stop.toNat) : Memory.Apart start length address size := by
    unfold Outside Memory.Apart at *
    omega
  exact ⟨hinside hgdt (by omega), hinside (by omega) (by omega), hinside (by omega) hstop⟩

theorem clear_of_outside (h : l.Carved) {a : UInt64} (hout : l.Outside a.toNat GlobalContext.size) :
    l.tables.ClearOf a := by
  obtain ⟨hgdt, hidt, -⟩ := h.apart_of_outside hout
  exact ⟨hgdt, hidt⟩

end Carved

end PlatformInit.PoolLayout
