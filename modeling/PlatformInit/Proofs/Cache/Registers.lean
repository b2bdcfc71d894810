import PlatformInit.Proofs.Cache.EffectiveType
import PlatformInit.Proofs.Step

/-!
What the controller's operations do to the registers.

`reset` frees every variable pair and clears the fixed-range registers. `setFixed` paints the type
bytes inside a range. `setPieces` adds the type of its pieces to the addresses in them and leaves the
types of the variable pairs alone everywhere else.
-/
set_option autoImplicit false
namespace PlatformInit.Mtrr

def maxPairs : Nat := 40

def pairLimit : Nat := 0x100

theorem maxPairs_le : maxPairs ≤ pairLimit := by decide

def IsPair (count : Nat) (msr : UInt32) : Prop := 0x200 ≤ msr.toNat ∧ msr.toNat < 0x200 + 2 * count

theorem toNat_baseRegister {slot : Nat} (h : slot < pairLimit) :
    (baseRegister (.ofNat slot)).toNat = 0x200 + 2 * slot := by
  unfold pairLimit at h
  simp only [baseRegister, UInt32.toNat_add, UInt32.toNat_mul, UInt32.toNat_ofNat', UInt32.reduceToNat]
  omega

theorem toNat_maskRegister {slot : Nat} (h : slot < pairLimit) :
    (maskRegister (.ofNat slot)).toNat = 0x200 + 2 * slot + 1 := by
  have hbase := toNat_baseRegister h
  unfold pairLimit at h
  rw [show maskRegister (.ofNat slot) = baseRegister (.ofNat slot) + 1 from rfl, UInt32.toNat_add,
    hbase, UInt32.toNat_one]
  omega

theorem isPair_registers {count slot : Nat} (hcount : count ≤ maxPairs) (hslot : slot < count) :
    IsPair count (baseRegister (.ofNat slot)) ∧ IsPair count (maskRegister (.ofNat slot)) := by
  have hlimit : slot < pairLimit := Nat.lt_of_lt_of_le hslot (Nat.le_trans hcount maxPairs_le)
  have hbase := toNat_baseRegister hlimit
  have hmask := toNat_maskRegister hlimit
  unfold IsPair
  omega

theorem not_register_of_pair {count : Nat} {msr : UInt32} (hcount : count ≤ maxPairs)
    (h : ¬IsPair count msr) : ¬∃ i ∈ List.range count,
      msr = baseRegister (.ofNat i) ∨ msr = maskRegister (.ofNat i) := by
  rintro ⟨i, hi, rfl | rfl⟩
  · exact h (isPair_registers hcount (List.mem_range.mp hi)).1
  · exact h (isPair_registers hcount (List.mem_range.mp hi)).2

theorem not_isPair_fixed {count : Nat} (h : count ≤ maxPairs) {r : FixedRegister}
    (hr : r ∈ fixedRegisters) : ¬IsPair count r.msr := by
  have hmsr : ∀ r ∈ fixedRegisters, 0x250 ≤ r.msr.toNat := by decide
  have := hmsr r hr
  unfold IsPair maxPairs at *
  omega

theorem not_isPair_defaultType {count : Nat} (h : count ≤ maxPairs) : ¬IsPair count defaultType := by
  have : defaultType.toNat = 0x2FF := rfl
  unfold IsPair maxPairs at *
  omega

theorem not_isPair_capability (count : Nat) : ¬IsPair count capability := by
  have : capability.toNat = 0xFE := rfl
  unfold IsPair
  omega

section
variable {bits : Nat} {c : Controller Msrs}

theorem variableTypes_congr {m m' : Msrs} {a : Nat} (hcount : pairCount m ≤ maxPairs)
    (hcapability : m' capability = m capability)
    (hpairs : ∀ msr, IsPair (pairCount m) msr → m' msr = m msr) :
    variableTypes bits m' a = variableTypes bits m a := by
  have hcounts : pairCount m' = pairCount m := by rw [pairCount, hcapability, pairCount]
  have hsame : ∀ slot < pairCount m, inUse m' slot = inUse m slot ∧
      matchesPair bits m' a slot = matchesPair bits m a slot ∧ pairType m' slot = pairType m slot := by
    intro slot hslot
    obtain ⟨hbase, hmask⟩ := isPair_registers hcount hslot
    simp only [inUse, matchesPair, pairType, hpairs _ hbase, hpairs _ hmask, and_self]
  rw [variableTypes, variableTypes, hcounts]
  have hfilter : (List.range (pairCount m)).filter
      (fun slot => inUse m' slot && matchesPair bits m' a slot) =
      (List.range (pairCount m)).filter fun slot => inUse m slot && matchesPair bits m a slot := by
    apply List.filter_congr
    intro slot hslot
    obtain ⟨huse, hin, _⟩ := hsame slot (List.mem_range.mp hslot)
    rw [huse, hin]
  rw [hfilter]
  apply List.map_congr_left
  intro slot hslot
  exact (hsame slot (List.mem_range.mp (List.mem_filter.mp hslot).1)).2.2

theorem write_eq (hc : c.ForBits bits) (msr : UInt32) (value : UInt64) (m : Msrs) :
    c.write msr value m = .ok () fun i => if i = msr then value else m i := by
  rw [Controller.write, hc.msrs]
  rfl

theorem slotCount_eq (hc : c.ForBits bits) (m : Msrs) : c.slotCount m = pairCount m := by
  rw [Controller.slotCount, hc.msrs]
  rfl

/-! ### Resetting -/

theorem clearPairs_eq (hc : c.ForBits bits) (slots : List Nat) (m : Msrs) :
    (slots.forM fun i => do
      c.write (baseRegister (.ofNat i)) 0
      c.write (maskRegister (.ofNat i)) 0) m =
    .ok () fun msr => if ∃ i ∈ slots, msr = baseRegister (.ofNat i) ∨ msr = maskRegister (.ofNat i)
      then 0 else m msr := by
  induction slots generalizing m with
  | nil => simp [pure, EStateM.pure]
  | cons i slots ih =>
    change EStateM.bind (EStateM.bind (c.write _ 0) fun _ => c.write _ 0)
      (fun _ => slots.forM _) m = _
    simp only [EStateM.bind, write_eq hc, ih]
    congr 1
    funext msr
    by_cases hrest : ∃ i ∈ slots, msr = baseRegister (.ofNat i) ∨ msr = maskRegister (.ofNat i)
    · simp [hrest]
    · by_cases hmask : msr = maskRegister (.ofNat i)
      · simp [hmask]
      · simp [hrest, hmask]

theorem clearFixed_eq (hc : c.ForBits bits) (rs : List FixedRegister) (m : Msrs) :
    (rs.forM fun r => c.write r.msr 0) m =
      .ok () fun msr => if ∃ r ∈ rs, msr = r.msr then 0 else m msr := by
  induction rs generalizing m with
  | nil => simp [pure, EStateM.pure]
  | cons r rs ih =>
    change EStateM.bind (c.write _ 0) (fun _ => rs.forM _) m = _
    simp only [EStateM.bind, write_eq hc, ih]
    congr 1
    funext msr
    by_cases hrest : ∃ r ∈ rs, msr = r.msr <;> simp [hrest]

/-- The registers after a reset: nothing is covered and everything is uncacheable. -/
structure Cleared (m m' : Msrs) : Prop where
  capability : m' capability = m capability
  defaultType : m' defaultType = enable ||| fixedEnable ||| CacheType.uncacheable.code.toUInt64
  free : ∀ slot < pairCount m, inUse m' slot = false
  fixed : ∀ r ∈ fixedRegisters, m' r.msr = 0

theorem reset_cleared (hc : c.ForBits bits) {m m' : Msrs} (hcount : pairCount m ≤ maxPairs)
    (hrun : c.reset m = .ok () m') : Cleared m m' := by
  unfold Controller.reset at hrun
  simp only [Step.bind_eq_ok, Step.get_eq_ok, write_eq hc, slotCount_eq hc, clearPairs_eq hc,
    clearFixed_eq hc, EStateM.Result.ok.injEq, true_and, exists_const] at hrun
  obtain ⟨_, rfl, _, _, ⟨rfl, rfl⟩, _, rfl, _, rfl, rfl⟩ := hrun
  have hpairs : (pairCount fun i => if i = defaultType then 0 else m i) = pairCount m := rfl
  refine ⟨?_, rfl, ?_, ?_⟩
  · dsimp only
    rw [if_neg (by decide), if_neg (by decide), hpairs,
      if_neg (not_register_of_pair hcount (not_isPair_capability _)), if_neg (by decide)]
  · intro slot hslot
    have hpair := (isPair_registers hcount hslot).2
    have hdefault : maskRegister (.ofNat slot) ≠ defaultType :=
      fun h => not_isPair_defaultType hcount (h ▸ hpair)
    have hfixed : ¬∃ r ∈ fixedRegisters, maskRegister (.ofNat slot) = r.msr := by
      rintro ⟨r, hr, h⟩
      exact not_isPair_fixed hcount hr (h ▸ hpair)
    unfold inUse
    dsimp only
    rw [if_neg hdefault, if_neg hfixed, hpairs,
      if_pos ⟨slot, List.mem_range.mpr hslot, .inr rfl⟩]
    decide
  · intro r hr
    have hdefault : ∀ r ∈ fixedRegisters, r.msr ≠ defaultType := by decide
    simp [hdefault r hr, show ∃ q ∈ fixedRegisters, r.msr = q.msr from ⟨r, hr, rfl⟩]

theorem exists_reset (hc : c.ForBits bits) (m : Msrs) : ∃ m', c.reset m = .ok () m' := by
  unfold Controller.reset
  simp only [Step.bind_eq_ok, Step.get_eq_ok, write_eq hc, slotCount_eq hc, clearPairs_eq hc,
    clearFixed_eq hc, EStateM.Result.ok.injEq, true_and, exists_const]
  exact ⟨_, _, rfl, _, _, ⟨rfl, rfl⟩, _, rfl, _, rfl, rfl⟩

theorem Cleared.variableTypes_eq {m m' : Msrs} (h : Cleared m m') (a : Nat) :
    variableTypes bits m' a = [] := by
  have hcount : pairCount m' = pairCount m := by rw [pairCount, h.capability, pairCount]
  rw [List.eq_nil_iff_forall_not_mem]
  intro t ht
  obtain ⟨slot, hslot, huse, -⟩ := mem_variableTypes.mp ht
  rw [h.free slot (hcount ▸ hslot)] at huse
  cases huse

/-! ### Fixed-range registers -/

theorem testBit_shiftLeft_lane {lane i : Nat} (v : UInt64) (hlane : lane < 8) (hi : i < 64) :
    (v <<< UInt64.ofNat (8 * lane)).toNat.testBit i =
      (decide (8 * lane ≤ i) && v.toNat.testBit (i - 8 * lane)) := by
  have hshift : (UInt64.ofNat (8 * lane)).toNat = 8 * lane :=
    UInt64.toNat_ofNat_of_lt' (Nat.lt_trans (by omega : 8 * lane < 64) (by decide))
  rw [UInt64.toNat_shiftLeft, hshift, Nat.mod_eq_of_lt (by omega : 8 * lane < 64), Nat.testBit_mod_two_pow,
    decide_eq_true hi, Bool.true_and, Nat.testBit_shiftLeft]

theorem testBit_laneType {i j : Nat} (v : UInt64) :
    (laneType v i).toNat.testBit j = (decide (j < 8) && v.toNat.testBit (8 * i + j)) := by
  rw [laneType, UInt8.toNat_ofNat', Nat.testBit_mod_two_pow, Nat.testBit_shiftRight]

theorem laneType_setLane {lane i : Nat} (type : CacheType) (v : UInt64) (hlane : lane < 8)
    (hi : i < 8) : laneType (FixedRegister.setLane type v lane) i =
      if i = lane then type.code else laneType v i := by
  apply UInt8.toNat_inj.mp
  apply Nat.eq_of_testBit_eq
  intro j
  rw [testBit_laneType]
  by_cases hj : j < 8
  · have hbit : 8 * i + j < 64 := by omega
    have hcode : ∀ n, 8 ≤ n → type.code.toNat.testBit n = false := fun n hn =>
      Nat.testBit_lt_two_pow (Nat.lt_of_lt_of_le type.code.toNat_lt (Nat.pow_le_pow_right (by omega) hn))
    rw [FixedRegister.setLane, UInt64.toNat_or, UInt64.toNat_and, Nat.testBit_or, Nat.testBit_and,
      testBit_not _ hbit, testBit_shiftLeft_lane _ hlane hbit, testBit_shiftLeft_lane _ hlane hbit,
      show (0xFF : UInt64).toNat = 2 ^ 8 - 1 from rfl, Nat.testBit_two_pow_sub_one,
      UInt8.toNat_toUInt64, decide_eq_true hj, Bool.true_and]
    rcases Nat.lt_trichotomy i lane with h | rfl | h
    · rw [if_neg (by omega), testBit_laneType, decide_eq_true hj, Bool.true_and,
        decide_eq_false (by omega : ¬8 * lane ≤ 8 * i + j)]
      simp
    · rw [if_pos rfl, decide_eq_true (by omega : 8 * i ≤ 8 * i + j), Nat.add_sub_cancel_left,
        decide_eq_true hj]
      simp
    · rw [if_neg (by omega), testBit_laneType, decide_eq_true hj, Bool.true_and,
        hcode _ (by omega : 8 ≤ 8 * i + j - 8 * lane),
        decide_eq_false (by omega : ¬8 * i + j - 8 * lane < 8)]
      simp
  · have hge : 2 ^ 8 ≤ 2 ^ j := Nat.pow_le_pow_right (by omega) (by omega)
    rw [decide_eq_false hj, Bool.false_and]
    exact (Nat.testBit_lt_two_pow (Nat.lt_of_lt_of_le (UInt8.toNat_lt _) hge)).symm

theorem laneType_foldl_setLane {lanes : List Nat} {i : Nat} (type : CacheType) (v : UInt64)
    (hlanes : ∀ lane ∈ lanes, lane < 8) (hi : i < 8) :
    laneType (lanes.foldl (FixedRegister.setLane type) v) i =
      if i ∈ lanes then type.code else laneType v i := by
  induction lanes generalizing v with
  | nil => simp
  | cons lane lanes ih =>
    rw [List.foldl_cons, ih _ fun l hl => hlanes l (List.mem_cons_of_mem _ hl),
      laneType_setLane type v (hlanes lane List.mem_cons_self) hi]
    by_cases hmem : i ∈ lanes
    · simp [hmem]
    · simp [hmem]

theorem mem_lanes {r : FixedRegister} {base stop i : Nat} :
    i ∈ r.lanes base stop ↔
      i < 8 ∧ base ≤ r.start + i * r.unit ∧ r.start + i * r.unit + r.unit ≤ stop := by
  simp [FixedRegister.lanes]

/-- The registers after the type bytes of one fixed-range register inside a range were set. -/
def paint (base stop : Nat) (type : CacheType) (m : Msrs) (r : FixedRegister) : Msrs := fun i =>
  if i = r.msr then (r.lanes base stop).foldl (FixedRegister.setLane type) (m r.msr) else m i

theorem setFixedRegister_eq (hc : c.ForBits bits) (base stop : Nat) (type : CacheType)
    (r : FixedRegister) (m : Msrs) : c.setFixedRegister base stop type r m =
      .ok ((r.lanes base stop).length * r.unit) (paint base stop type m r) := by
  unfold Controller.setFixedRegister paint
  dsimp only
  split
  · rename_i h
    rw [h]
    change EStateM.Result.ok 0 m = _
    congr 1
    · simp
    · funext i
      split
      · rename_i heq
        rw [heq, List.foldl_nil]
      · rfl
  · rw [Step.bind_of_ok (Step.get_eq_ok.mpr ⟨rfl, rfl⟩), Step.bind_of_ok (write_eq hc ..), hc.msrs]
    rfl

def lanesSize (base stop : Nat) (rs : List FixedRegister) : Nat :=
  (rs.map fun r => (r.lanes base stop).length * r.unit).sum

section
variable {ω : Type} {d : Controller ω} {f : ω → FixedRegister → ω} {base stop : Nat} {type : CacheType}
  (hstep : ∀ r w, d.setFixedRegister base stop type r w =
    .ok ((r.lanes base stop).length * r.unit) (f w r))
include hstep

theorem setFixedRegisters_of_step (rs : List FixedRegister) (covered : Nat) (w : ω) :
    (rs.foldlM (fun covered r => do return covered + (← d.setFixedRegister base stop type r))
        covered : Step ω EfiError Nat) w =
      .ok (covered + lanesSize base stop rs) (rs.foldl f w) := by
  induction rs generalizing covered w with
  | nil => rfl
  | cons r rs ih =>
    have hfirst : (do return covered + (← d.setFixedRegister base stop type r) :
        Step ω EfiError Nat) w =
        .ok (covered + (r.lanes base stop).length * r.unit) (f w r) :=
      Step.bind_of_ok (hstep r w)
    rw [List.foldlM_cons, Step.bind_of_ok hfirst, ih]
    rw [lanesSize, lanesSize, List.map_cons, List.sum_cons, Nat.add_assoc, List.foldl_cons]

theorem setFixed_of_step (w : ω) : d.setFixed base stop type w =
    if base + lanesSize base stop fixedRegisters = stop then .ok () (fixedRegisters.foldl f w)
      else .error (.error .invalidParameter) (fixedRegisters.foldl f w) := by
  rw [Controller.setFixed, Step.bind_of_ok (setFixedRegisters_of_step hstep ..), Nat.zero_add]
  split <;> rfl

end

theorem setFixed_eq (hc : c.ForBits bits) (base stop : Nat) (type : CacheType) (m : Msrs) :
    c.setFixed base stop type m =
      if base + lanesSize base stop fixedRegisters = stop
        then .ok () (fixedRegisters.foldl (paint base stop type) m)
        else .error (.error .invalidParameter) (fixedRegisters.foldl (paint base stop type) m) :=
  setFixed_of_step (setFixedRegister_eq hc base stop type) m

theorem foldl_paint_of_not_mem {base stop : Nat} {type : CacheType} {rs : List FixedRegister}
    {m : Msrs} {msr : UInt32} (h : ∀ r ∈ rs, msr ≠ r.msr) :
    rs.foldl (paint base stop type) m msr = m msr := by
  induction rs generalizing m with
  | nil => rfl
  | cons r rs ih =>
    rw [List.foldl_cons, ih fun q hq => h q (List.mem_cons_of_mem _ hq), paint,
      if_neg (h r List.mem_cons_self)]

theorem foldl_paint_of_mem {base stop : Nat} {type : CacheType} {rs : List FixedRegister}
    {m : Msrs} {r : FixedRegister} (hdistinct : rs.Pairwise fun r q => r.msr ≠ q.msr) (hr : r ∈ rs) :
    rs.foldl (paint base stop type) m r.msr =
      (r.lanes base stop).foldl (FixedRegister.setLane type) (m r.msr) := by
  induction rs generalizing m with
  | nil => exact absurd hr List.not_mem_nil
  | cons q rs ih =>
    obtain ⟨hq, hrest⟩ := List.pairwise_cons.mp hdistinct
    rw [List.foldl_cons]
    rcases List.mem_cons.mp hr with rfl | hmem
    · rw [foldl_paint_of_not_mem hq, paint, if_pos rfl]
    · rw [ih hrest hmem, paint, if_neg (hq r hmem).symm]

theorem fixedRegisters_distinct : fixedRegisters.Pairwise fun r q => r.msr ≠ q.msr := by decide

theorem laneType_paint {base stop i : Nat} {type : CacheType} {m : Msrs} {r : FixedRegister}
    (hr : r ∈ fixedRegisters) (hi : i < 8) :
    laneType (fixedRegisters.foldl (paint base stop type) m r.msr) i =
      if i ∈ r.lanes base stop then type.code else laneType (m r.msr) i := by
  rw [foldl_paint_of_mem fixedRegisters_distinct hr,
    laneType_foldl_setLane type _ (fun lane h => (mem_lanes.mp h).1) hi]

/-! ### Variable pairs -/

def withPair (m : Msrs) (slot : Nat) (base mask : UInt64) : Msrs := fun i =>
  if i = maskRegister (.ofNat slot) then mask else if i = baseRegister (.ofNat slot) then base else m i

theorem withPair_of_not_isPair {m : Msrs} {count slot : Nat} {base mask : UInt64} {msr : UInt32}
    (hcount : count ≤ maxPairs) (hslot : slot < count) (h : ¬IsPair count msr) :
    withPair m slot base mask msr = m msr := by
  obtain ⟨hbase, hmask⟩ := isPair_registers hcount hslot
  rw [withPair, if_neg fun heq : msr = _ => h (heq ▸ hmask),
    if_neg fun heq : msr = _ => h (heq ▸ hbase)]

theorem withPair_of_ne {m : Msrs} {slot i : Nat} {base mask : UInt64} (hslot : slot < pairLimit)
    (hi : i < pairLimit) (hne : i ≠ slot) :
    withPair m slot base mask (baseRegister (.ofNat i)) = m (baseRegister (.ofNat i)) ∧
      withPair m slot base mask (maskRegister (.ofNat i)) = m (maskRegister (.ofNat i)) := by
  have hb := toNat_baseRegister hslot
  have hm := toNat_maskRegister hslot
  have hbi := toNat_baseRegister hi
  have hmi := toNat_maskRegister hi
  unfold withPair
  refine ⟨?_, ?_⟩
  · rw [if_neg fun h => by rw [h] at hbi; omega, if_neg fun h => by rw [h] at hbi; omega]
  · rw [if_neg fun h => by rw [h] at hmi; omega, if_neg fun h => by rw [h] at hmi; omega]

theorem withPair_self {m : Msrs} {slot : Nat} {base mask : UInt64} (hslot : slot < pairLimit) :
    withPair m slot base mask (baseRegister (.ofNat slot)) = base ∧
      withPair m slot base mask (maskRegister (.ofNat slot)) = mask := by
  have hb := toNat_baseRegister hslot
  have hm := toNat_maskRegister hslot
  unfold withPair
  refine ⟨?_, if_pos rfl⟩
  rw [if_neg fun h => by rw [h] at hb; omega, if_pos rfl]

theorem withPair_capability {m : Msrs} {slot : Nat} {base mask : UInt64} (hslot : slot < pairLimit) :
    withPair m slot base mask capability = m capability := by
  have hb := toNat_baseRegister hslot
  have hm := toNat_maskRegister hslot
  have hcapability : capability.toNat = 0xFE := rfl
  rw [withPair, if_neg fun h => by rw [← h] at hm; omega, if_neg fun h => by rw [← h] at hb; omega]

/-- A piece written to a free pair adds its type to the addresses in it. -/
theorem mem_variableTypes_withPair (hc : c.ForBits bits) {m : Msrs} {slot a base size : Nat}
    {type : CacheType} {t : UInt8} (hcount : pairCount m ≤ maxPairs) (hslot : slot < pairCount m)
    (hfree : inUse m slot = false) (hpiece : Natural (base, size)) (hstop : base + size ≤ 2 ^ bits)
    (ha : a < 2 ^ bits) :
    t ∈ variableTypes bits
        (withPair m slot (UInt64.ofNat base ||| type.code.toUInt64) (c.maskFor size)) a ↔
      t ∈ variableTypes bits m a ∨ t = type.code ∧ base ≤ a ∧ a < base + size := by
  have hlimit := Nat.le_trans hcount maxPairs_le
  have hmax : slot < pairLimit := Nat.lt_of_lt_of_le hslot hlimit
  have hbits : 2 ^ bits ≤ 2 ^ 63 := Nat.pow_le_pow_right (by omega) (Nat.le_of_lt_succ hc.lt)
  generalize hm' : withPair m slot (UInt64.ofNat base ||| type.code.toUInt64) (c.maskFor size) = m'
  obtain ⟨hbase, hmask⟩ := hm' ▸ withPair_self (m := m) hmax
  have hpairs : pairCount m' = pairCount m := by
    rw [pairCount, ← hm', withPair_of_not_isPair hcount hslot (not_isPair_capability _), pairCount]
  have hused : inUse m' slot = true := by
    simpa only [inUse, hmask, bne_iff_ne] using maskFor_valid size
  have hmatch := matches_piece_iff hc hpiece hstop ha hbase hmask
  have htype : pairType m' slot = type.code := by
    obtain ⟨k, hk, hsize, hdvd⟩ := hpiece
    rw [pairType, hbase]
    exact type_of_base type (by omega) (Nat.dvd_trans (Nat.pow_dvd_pow 2 hk) hdvd)
  have hother : ∀ i < pairCount m, i ≠ slot → inUse m' i = inUse m i ∧
      matchesPair bits m' a i = matchesPair bits m a i ∧ pairType m' i = pairType m i := by
    intro i hi hne
    obtain ⟨hb, hk⟩ := hm' ▸ withPair_of_ne (m := m) hmax (Nat.lt_of_lt_of_le hi hlimit) hne
    simp only [inUse, matchesPair, pairType, hb, hk, and_self]
  simp only [mem_variableTypes, hpairs]
  constructor
  · rintro ⟨i, hi, huse, hin, rfl⟩
    by_cases hne : i = slot
    · subst hne
      exact .inr ⟨htype, hmatch.mp hin⟩
    · obtain ⟨h1, h2, h3⟩ := hother i hi hne
      exact .inl ⟨i, hi, h1 ▸ huse, h2 ▸ hin, h3.symm⟩
  · rintro (⟨i, hi, huse, hin, rfl⟩ | ⟨rfl, hin⟩)
    · have hne : i ≠ slot := fun h => by rw [h, hfree] at huse; cases huse
      obtain ⟨h1, h2, h3⟩ := hother i hi hne
      exact ⟨i, hi, h1.trans huse, h2.trans hin, h3⟩
    · exact ⟨slot, hslot, hused, hmatch.mpr hin, htype⟩

theorem freeSlot?_eq_some (hc : c.ForBits bits) {m : Msrs} {next count slot : Nat}
    (h : c.freeSlot? m next count = some slot) :
    next ≤ slot ∧ slot < count ∧ inUse m slot = false := by
  have hmem := List.mem_of_find?_eq_some h
  have hfree := List.find?_some h
  simp only [List.mem_range'_1] at hmem
  refine ⟨hmem.1, by omega, ?_⟩
  rw [Controller.isFree, hc.msrs] at hfree
  change (m (maskRegister (.ofNat slot)) &&& valid == 0) = true at hfree
  simpa only [inUse, bne_eq_false_iff_eq, beq_iff_eq] using hfree

/-- A change of the variable pairs that adds types to addresses and takes none away. -/
structure Painted (bits : Nat) (adds : Nat → UInt8 → Prop) (m m' : Msrs) : Prop where
  frame : ∀ msr, ¬IsPair (pairCount m) msr → m' msr = m msr
  types : ∀ a < 2 ^ bits, ∀ t, t ∈ variableTypes bits m' a ↔ t ∈ variableTypes bits m a ∨ adds a t

namespace Painted
variable {adds adds' : Nat → UInt8 → Prop} {m m' m'' : Msrs}

theorem pairCount_eq (h : Painted bits adds m m') : pairCount m' = pairCount m := by
  rw [pairCount, h.frame _ (not_isPair_capability _), pairCount]

theorem none (h : ∀ a t, ¬adds a t) : Painted bits adds m m :=
  ⟨fun _ _ => rfl, fun a _ t => by simp [h a t]⟩

theorem trans (h : Painted bits adds m m') (h' : Painted bits adds' m' m'') :
    Painted bits (fun a t => adds a t ∨ adds' a t) m m'' := by
  refine ⟨fun msr hmsr => ?_, fun a ha t => ?_⟩
  · rw [h'.frame msr (h.pairCount_eq ▸ hmsr), h.frame msr hmsr]
  · rw [h'.types a ha t, h.types a ha t, or_assoc]

theorem congr (h : Painted bits adds m m') (heq : ∀ a t, adds a t ↔ adds' a t) :
    Painted bits adds' m m' :=
  ⟨h.frame, fun a ha t => by rw [h.types a ha t, heq]⟩

end Painted

theorem setPieces_painted (hc : c.ForBits bits) {type : CacheType} {ps : List (Nat × Nat)}
    {next : Nat} {m m' : Msrs} (hcount : pairCount m ≤ maxPairs)
    (hps : ∀ p ∈ ps, Natural p ∧ p.1 + p.2 ≤ 2 ^ bits)
    (hrun : c.setPieces type (pairCount m) ps next m = .ok () m') :
    Painted bits (fun a t => t = type.code ∧ ∃ p ∈ ps, p.1 ≤ a ∧ a < p.1 + p.2) m m' := by
  induction ps generalizing next m with
  | nil =>
    obtain ⟨-, rfl⟩ := Step.pure_eq_ok.mp hrun
    exact .none (by simp)
  | cons p ps ih =>
    obtain ⟨base, size⟩ := p
    rw [Controller.setPieces, Step.bind_eq_ok] at hrun
    obtain ⟨_, _, hget, hrun⟩ := hrun
    obtain ⟨rfl, rfl⟩ := Step.get_eq_ok.mp hget
    cases hslot : c.freeSlot? m next (pairCount m) with
    | none =>
      rw [hslot] at hrun
      exact (Step.fail_eq_ok.mp hrun).elim
    | some slot =>
      rw [hslot] at hrun
      obtain ⟨-, hlt, hfree⟩ := freeSlot?_eq_some hc hslot
      obtain ⟨hpiece, hstop⟩ := hps _ List.mem_cons_self
      have hfirst : Painted bits (fun a t => t = type.code ∧ base ≤ a ∧ a < base + size) m
          (withPair m slot (UInt64.ofNat base ||| type.code.toUInt64) (c.maskFor size)) :=
        ⟨fun msr hmsr => withPair_of_not_isPair hcount hlt hmsr,
          fun a ha t => mem_variableTypes_withPair hc hcount hlt hfree hpiece hstop ha⟩
      simp only [Step.bind_eq_ok, write_eq hc, EStateM.Result.ok.injEq] at hrun
      obtain ⟨_, _, ⟨-, rfl⟩, _, _, ⟨-, rfl⟩, hrun⟩ := hrun
      change c.setPieces type (pairCount m) ps (slot + 1) (withPair m slot _ _) = _ at hrun
      rw [← hfirst.pairCount_eq] at hrun
      have hrest := ih (hfirst.pairCount_eq ▸ hcount)
        (fun p hp => hps p (List.mem_cons_of_mem _ hp)) hrun
      refine (hfirst.trans hrest).congr fun a t => ?_
      simp only [List.mem_cons, exists_eq_or_imp, and_or_left]

end
end PlatformInit.Mtrr
