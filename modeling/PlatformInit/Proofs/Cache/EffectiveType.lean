import PlatformInit.Proofs.Cache.Pieces
import PlatformInit.Proofs.Word.Bits

/-!
What the range registers mean: the memory type of an address.

Below 1 MiB the fixed-range registers decide. Elsewhere an address has the type of the variable
pairs that it matches, uncacheable before any other, and the default type when it matches none.
-/
set_option autoImplicit false
namespace PlatformInit.Mtrr

def addressField (bits : Nat) (value : UInt64) : Nat := (value.toNat % 2 ^ bits) >>> 12 <<< 12

def laneType (value : UInt64) (lane : Nat) : UInt8 := .ofNat (value.toNat >>> (8 * lane))

/-- The type that the fixed-range registers give an address. -/
def fixedType? (m : Msrs) (a : Nat) : Option UInt8 :=
  (fixedRegisters.find? fun r => r.start ≤ a ∧ a < r.start + 8 * r.unit).map fun r =>
    laneType (m r.msr) ((a - r.start) / r.unit)

def pairCount (m : Msrs) : Nat := (m capability &&& 0xFF).toNat

def inUse (m : Msrs) (slot : Nat) : Bool := m (maskRegister (.ofNat slot)) &&& valid != 0

/-- Whether an address agrees with the base of a variable pair on the bits of its mask. -/
def matchesPair (bits : Nat) (m : Msrs) (a slot : Nat) : Bool :=
  let base := addressField bits (m (baseRegister (.ofNat slot)))
  let mask := addressField bits (m (maskRegister (.ofNat slot)))
  a &&& mask == base &&& mask

def pairType (m : Msrs) (slot : Nat) : UInt8 := (m (baseRegister (.ofNat slot))).toUInt8

/-- The types of the variable pairs that an address matches. -/
def variableTypes (bits : Nat) (m : Msrs) (a : Nat) : List UInt8 :=
  ((List.range (pairCount m)).filter fun slot => inUse m slot && matchesPair bits m a slot).map
    (pairType m)

/-- The type that comes out of an overlap; `none` where the architecture leaves it open. -/
def resolve (default : UInt8) : List UInt8 → Option UInt8
  | [] => some default
  | t :: types =>
    if CacheType.uncacheable.code ∈ t :: types then some CacheType.uncacheable.code
    else if ∀ u ∈ types, u = t then some t
    else none

def effectiveType (bits : Nat) (m : Msrs) (a : Nat) : Option UInt8 :=
  if m defaultType &&& enable = 0 then some CacheType.uncacheable.code
  else if a < size1M.toNat ∧ m defaultType &&& fixedEnable ≠ 0 then fixedType? m a
  else resolve (m defaultType).toUInt8 (variableTypes bits m a)

theorem mem_variableTypes {bits : Nat} {m : Msrs} {a : Nat} {t : UInt8} :
    t ∈ variableTypes bits m a ↔
      ∃ slot < pairCount m, inUse m slot = true ∧ matchesPair bits m a slot = true ∧
        pairType m slot = t := by
  simp only [variableTypes, List.mem_map, List.mem_filter, List.mem_range, Bool.and_eq_true,
    and_assoc]

theorem resolve_uncacheable {default : UInt8} {types : List UInt8}
    (h : CacheType.uncacheable.code ∈ types) :
    resolve default types = some CacheType.uncacheable.code := by
  cases types with
  | nil => exact absurd h List.not_mem_nil
  | cons t types => rw [resolve, if_pos h]

theorem resolve_default {default : UInt8} {types : List UInt8} (h : ∀ t, t ∉ types) :
    resolve default types = some default := by
  rw [List.eq_nil_iff_forall_not_mem.mpr h]
  rfl

theorem resolve_of_forall {default t : UInt8} {types : List UInt8} (hmem : t ∈ types)
    (hall : ∀ u ∈ types, u = t) : resolve default types = some t := by
  cases types with
  | nil => exact absurd hmem List.not_mem_nil
  | cons u types =>
    obtain rfl : u = t := hall u List.mem_cons_self
    rw [resolve]
    split
    · rename_i h
      rw [hall _ h]
    · rw [if_pos fun v hv => hall v (List.mem_cons_of_mem _ hv)]

@[simp] theorem laneType_zero (lane : Nat) : laneType 0 lane = 0 := by
  simp [laneType]

theorem fixedRegisters_cover {a : Nat} (h : a < 0x100000) :
    ∃ r ∈ fixedRegisters, r.start ≤ a ∧ a < r.start + 8 * r.unit := by
  simp only [fixedRegisters, List.mem_cons, List.not_mem_nil, or_false, exists_eq_or_imp,
    exists_eq_left]
  omega

theorem fixedType?_eq {m : Msrs} {a : Nat} (h : a < 0x100000) :
    ∃ r ∈ fixedRegisters, ∃ lane < 8, fixedType? m a = some (laneType (m r.msr) lane) ∧
      r.start + lane * r.unit ≤ a ∧ a < r.start + lane * r.unit + r.unit := by
  obtain ⟨q, hq, hin⟩ := fixedRegisters_cover h
  obtain ⟨r, hfind⟩ := Option.isSome_iff_exists.mp
    (List.find?_isSome (p := fun r => decide (r.start ≤ a ∧ a < r.start + 8 * r.unit)) |>.mpr
      ⟨q, hq, decide_eq_true hin⟩)
  have hr := List.mem_of_find?_eq_some hfind
  have hbounds : r.start ≤ a ∧ a < r.start + 8 * r.unit := by
    simpa only [decide_eq_true_eq] using List.find?_some hfind
  have hunit : ∀ r ∈ fixedRegisters, 0 < r.unit := by decide
  have hpos := hunit r hr
  have hdiv := Nat.div_add_mod (a - r.start) r.unit
  have hmod := Nat.mod_lt (a - r.start) hpos
  have hlane : (a - r.start) / r.unit < 8 := Nat.div_lt_of_lt_mul (by rw [Nat.mul_comm]; omega)
  rw [Nat.mul_comm] at hdiv
  exact ⟨r, hr, _, hlane, by rw [fixedType?, hfind, Option.map_some], by omega, by omega⟩

theorem testBit_addressField {bits i : Nat} {value : UInt64} :
    (addressField bits value).testBit i =
      (decide (12 ≤ i) && decide (i < bits) && value.toNat.testBit i) := by
  simp only [addressField, Nat.testBit_shiftLeft, Nat.testBit_shiftRight, Nat.testBit_mod_two_pow]
  by_cases hi : 12 ≤ i
  · rw [show 12 + (i - 12) = i by omega]
    simp [hi]
  · simp [hi]

/-- A controller of the registers themselves, for physical addresses of `bits` bits. -/
structure Controller.ForBits (c : Controller Msrs) (bits : Nat) : Prop where
  lt : bits < 64
  msrs : c.msrs = Msrs.access
  addressMask : ∀ i, c.addressMask.toNat.testBit i = (decide (12 ≤ i) && decide (i < bits))

theorem forBits_of_new {bits : UInt8} {c : Controller Msrs}
    (h : Controller.new Msrs.access bits = .ok c) : c.ForBits bits.toNat := by
  unfold Controller.new at h
  split at h
  · rename_i hbits
    cases h
    have hlt : bits.toNat < 64 := UInt8.lt_iff_toNat_lt.mp hbits
    refine ⟨hlt, rfl, fun i => ?_⟩
    have hshift : (1 : UInt64) <<< bits.toUInt64 = .ofNat (2 ^ bits.toNat) := by
      apply UInt64.toNat_inj.mp
      have hpow : 2 ^ bits.toNat < 2 ^ 64 := Nat.pow_lt_pow_right (by omega) hlt
      rw [UInt64.toNat_shiftLeft, UInt64.toNat_ofNat_of_lt' hpow, UInt8.toNat_toUInt64,
        Nat.mod_eq_of_lt hlt, UInt64.toNat_one, Nat.one_shiftLeft, Nat.mod_eq_of_lt hpow]
    rw [UInt64.toNat_and, Nat.testBit_and, hshift, testBit_two_pow_sub_one hlt]
    by_cases hi : i < 64
    · rw [testBit_not _ hi, show (0xFFF : UInt64).toNat = 2 ^ 12 - 1 from rfl,
        Nat.testBit_two_pow_sub_one, Bool.and_comm, ← decide_not, decide_eq_decide.mpr Nat.not_lt]
    · rw [testBit_of_le _ (by omega), Bool.and_false, decide_eq_false (by omega : ¬i < bits.toNat),
        Bool.and_false]
  · cases h

section
variable {bits : Nat} {c : Controller Msrs}

theorem testBit_maskFor (hc : c.ForBits bits) {k i : Nat} (hk : k < 64) (hi : 12 ≤ i) :
    (c.maskFor (2 ^ k)).toNat.testBit i = (decide (k ≤ i) && decide (i < bits)) := by
  have hvalid : valid.toNat.testBit i = false := by
    apply Nat.testBit_lt_two_pow
    exact Nat.lt_of_lt_of_le (by decide : valid.toNat < 2 ^ 12) (Nat.pow_le_pow_right (by omega) hi)
  have hlt := hc.lt
  rw [Controller.maskFor, UInt64.toNat_or, UInt64.toNat_and, Nat.testBit_or, Nat.testBit_and,
    hvalid, hc.addressMask, decide_eq_true hi, Bool.true_and, Bool.or_false]
  by_cases hbits : i < bits
  · rw [testBit_not _ (by omega), testBit_two_pow_sub_one hk, ← decide_not,
      decide_eq_decide.mpr Nat.not_lt]
  · rw [decide_eq_false hbits, Bool.and_false, Bool.and_false]

theorem maskFor_valid (size : Nat) : c.maskFor size &&& valid ≠ 0 := by
  intro h
  have hbit := congrArg (fun v : UInt64 => v.toNat.testBit 11) h
  simp only [Controller.maskFor, UInt64.toNat_and, UInt64.toNat_or, Nat.testBit_and,
    Nat.testBit_or, show valid.toNat.testBit 11 = true by decide, Bool.or_true, Bool.and_true] at hbit
  exact absurd hbit (by decide)

theorem testBit_base {base i : Nat} (type : CacheType) (hbase : base < 2 ^ 64) (hi : 12 ≤ i) :
    (UInt64.ofNat base ||| type.code.toUInt64).toNat.testBit i = base.testBit i := by
  have hcode : type.code.toUInt64.toNat.testBit i = false := by
    apply Nat.testBit_lt_two_pow
    rw [UInt8.toNat_toUInt64]
    exact Nat.lt_of_lt_of_le type.code.toNat_lt (Nat.pow_le_pow_right (by omega) (by omega))
  rw [UInt64.toNat_or, Nat.testBit_or, UInt64.toNat_ofNat_of_lt' hbase, hcode, Bool.or_false]

theorem type_of_base {base : Nat} (type : CacheType) (hbase : base < 2 ^ 64) (hpage : 2 ^ 12 ∣ base) :
    (UInt64.ofNat base ||| type.code.toUInt64).toUInt8 = type.code := by
  apply UInt8.toNat_inj.mp
  obtain ⟨q, rfl⟩ := hpage
  rw [UInt64.toNat_toUInt8, UInt64.toNat_or, UInt64.toNat_ofNat_of_lt' hbase, UInt8.toNat_toUInt64,
    Nat.or_mod_two_pow, show 2 ^ 12 * q % 2 ^ 8 = 0 by omega, Nat.zero_or,
    Nat.mod_eq_of_lt type.code.toNat_lt]

/-- An address matches the pair that is written for a piece when it lies in the piece. -/
theorem matches_piece_iff (hc : c.ForBits bits) {m : Msrs} {slot a base size : Nat} {type : CacheType}
    (hpiece : Natural (base, size)) (hstop : base + size ≤ 2 ^ bits) (ha : a < 2 ^ bits)
    (hbase : m (baseRegister (.ofNat slot)) = UInt64.ofNat base ||| type.code.toUInt64)
    (hmask : m (maskRegister (.ofNat slot)) = c.maskFor size) :
    matchesPair bits m a slot = true ↔ base ≤ a ∧ a < base + size := by
  obtain ⟨k, hk, hsize, hdvd⟩ := hpiece
  obtain rfl : size = 2 ^ k := hsize
  have hpos := Nat.two_pow_pos k
  have hle : 2 ^ bits ≤ 2 ^ 63 := Nat.pow_le_pow_right (by omega) (Nat.le_of_lt_succ hc.lt)
  have hk64 : k < 64 := (Nat.pow_lt_pow_iff_right (by omega : 1 < 2)).mp (by omega)
  rw [← div_eq_div_iff_block hdvd, div_eq_iff_testBit ha (by omega)]
  simp only [matchesPair, hbase, hmask, beq_iff_eq]
  have bit : ∀ n i, (n &&& addressField bits (c.maskFor (2 ^ k))).testBit i =
      (n.testBit i && (decide (k ≤ i) && decide (i < bits))) := by
    intro n i
    rw [Nat.testBit_and, testBit_addressField]
    by_cases hi : 12 ≤ i
    · rw [testBit_maskFor hc hk64 hi]
      cases decide (i < bits) <;> simp [hi]
    · simp [hi, show ¬k ≤ i by omega]
  constructor
  · intro h i hki hib
    have hbit := congrArg (Nat.testBit · i) h
    simp only [bit, hki, hib, decide_true, Bool.and_true] at hbit
    rw [hbit, testBit_addressField, testBit_base type (by omega) (by omega)]
    simp [hib, show 12 ≤ i by omega]
  · intro h
    apply Nat.eq_of_testBit_eq
    intro i
    rw [bit, bit]
    by_cases hin : k ≤ i ∧ i < bits
    · rw [h i hin.1 hin.2, testBit_addressField, testBit_base type (by omega) (by omega)]
      simp [hin.2, show 12 ≤ i by omega]
    · have hout : (decide (k ≤ i) && decide (i < bits)) = false := by
        rw [← Bool.decide_and, decide_eq_false hin]
      rw [hout, Bool.and_false, Bool.and_false]

end
end PlatformInit.Mtrr
