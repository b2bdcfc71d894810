import PlatformInit.Proofs.Cache.Covering
import PlatformInit.Proofs.Cache.Registers

/-!
The cache policy on the range registers: once it is programmed, every address has the memory type
that the memory map asks for.
-/
set_option autoImplicit false
namespace PlatformInit.Mtrr

/-- The memory type that the policy gives an address, for low memory up to `low` and `high` bytes of
memory from 4 GiB on. -/
def memoryMapType (low high a : Nat) : CacheType :=
  if a < size640K.toNat then .writeBack
  else if a < size640K.toNat + size128K.toNat then .uncacheable
  else if a < size1M.toNat then .writeProtected
  else if a < low then .writeBack
  else if size4G.toNat ≤ a ∧ a < size4G.toNat + high then .writeBack
  else .uncacheable

section
variable {bits : Nat} {c : Controller Msrs}

theorem dvd_of_mod_pageSize {v : UInt64} (h : v % pageSize = 0) : 2 ^ 12 ∣ v.toNat := by
  have hmod : (v % pageSize).toNat = v.toNat % 2 ^ 12 := UInt64.toNat_mod ..
  rw [h] at hmod
  exact Nat.dvd_of_mod_eq_zero hmod.symm

theorem setAttributes_eq_ok (hc : c.ForBits bits) {base length : UInt64} {type : CacheType}
    {m m' : Msrs} (hrun : c.setAttributes base length type m = .ok () m') :
    2 ^ 12 ∣ base.toNat ∧ 2 ^ 12 ∣ length.toNat ∧
      if base.toNat + length.toNat ≤ size1M.toNat
        then c.setFixed base.toNat (base.toNat + length.toNat) type m = .ok () m'
        else c.setPieces type (pairCount m) (pieces base.toNat length.toNat) 0 m = .ok () m' := by
  unfold Controller.setAttributes at hrun
  split at hrun
  · exact (Step.fail_eq_ok.mp hrun).elim
  · rename_i hwhole
    rw [not_or, not_or, not_not, not_not] at hwhole
    obtain ⟨stop, _, hadd, hrun⟩ := Step.bind_eq_ok.mp hrun
    obtain ⟨hsum, rfl⟩ := Step.ofHalting_eq_ok.mp hadd
    have hstop := add64_eq_ok_iff.mp hsum
    refine ⟨dvd_of_mod_pageSize hwhole.2.1, dvd_of_mod_pageSize hwhole.2.2, ?_⟩
    rw [← hstop]
    split at hrun
    · rename_i hle
      rw [if_pos (UInt64.le_iff_toNat_le.mp hle)]
      exact hrun
    · rename_i hle
      rw [if_neg (mt UInt64.le_iff_toNat_le.mpr hle)]
      obtain ⟨_, _, hget, hrun⟩ := Step.bind_eq_ok.mp hrun
      obtain ⟨rfl, rfl⟩ := Step.get_eq_ok.mp hget
      rwa [slotCount_eq hc] at hrun

theorem setAttributes_fixed (hc : c.ForBits bits) {base length : UInt64} {type : CacheType}
    {start stop : Nat} {m m' : Msrs} (hrun : c.setAttributes base length type m = .ok () m')
    (hstart : base.toNat = start) (hstop : start + length.toNat = stop) (hlow : stop ≤ size1M.toNat) :
    m' = fixedRegisters.foldl (paint start stop type) m := by
  subst hstart hstop
  obtain ⟨-, -, hrun⟩ := setAttributes_eq_ok hc hrun
  rw [if_pos hlow, setFixed_eq hc] at hrun
  split at hrun
  · cases hrun
    rfl
  · cases hrun

theorem setAttributes_painted (hc : c.ForBits bits) {base length : UInt64} {type : CacheType}
    {m m' : Msrs} (hcount : pairCount m ≤ maxPairs)
    (hrun : c.setAttributes base length type m = .ok () m')
    (hlow : size1M.toNat < base.toNat + length.toNat)
    (hstop : base.toNat + length.toNat ≤ 2 ^ bits) :
    Painted bits (fun a t => t = type.code ∧ base.toNat ≤ a ∧ a < base.toNat + length.toNat) m m' := by
  obtain ⟨hbase, hlength, hrun⟩ := setAttributes_eq_ok hc hrun
  rw [if_neg (by omega)] at hrun
  refine (setPieces_painted hc hcount (fun p hp => ?_) hrun).congr fun a t => ?_
  · have hnatural := natural_of_mem_pieces hbase hlength hp
    obtain ⟨k, _, hsize, _⟩ := hnatural
    have hpos := Nat.two_pow_pos k
    have := (piece_le_stop hp (by omega)).2
    exact ⟨natural_of_mem_pieces hbase hlength hp, by omega⟩
  · rw [mem_piece_iff]

def Lists (rs : List CacheRange) (a : Nat) (t : UInt8) : Prop :=
  ∃ r ∈ rs, t = r.type.code ∧ r.base.toNat ≤ a ∧ a < r.base.toNat + r.length.toNat

theorem forM_setAttributes_painted (hc : c.ForBits bits) {rs : List CacheRange} {m m' : Msrs}
    (hcount : pairCount m ≤ maxPairs)
    (hrs : ∀ r ∈ rs, size1M.toNat < r.base.toNat + r.length.toNat ∧
      r.base.toNat + r.length.toNat ≤ 2 ^ bits)
    (hrun : rs.forM (fun r => c.setAttributes r.base r.length r.type) m = .ok () m') :
    Painted bits (Lists rs) m m' := by
  induction rs generalizing m with
  | nil =>
    obtain rfl := Step.forM_nil_eq_ok.mp hrun
    exact .none (by simp [Lists])
  | cons r rs ih =>
    obtain ⟨u, hfirst, hrest⟩ := Step.forM_cons_eq_ok.mp hrun
    obtain ⟨hlow, hstop⟩ := hrs r List.mem_cons_self
    have hr := setAttributes_painted hc hcount hfirst hlow hstop
    have hpainted := ih (hr.pairCount_eq ▸ hcount) (fun r h => hrs r (List.mem_cons_of_mem _ h)) hrest
    refine (hr.trans hpainted).congr fun a t => ?_
    simp only [Lists, List.mem_cons, exists_eq_or_imp]

theorem paint_frame {base stop : Nat} {type : CacheType} {m : Msrs} {msr : UInt32}
    (h : ∀ r ∈ fixedRegisters, msr ≠ r.msr) :
    fixedRegisters.foldl (paint base stop type) m msr = m msr :=
  foldl_paint_of_not_mem h

/-- The registers after a successful run of the policy: the type bytes painted three times, and the
variable pairs with what covers low memory, its excess and high memory. -/
structure Programmed (bits : Nat) (low covering high : Nat) (m : Msrs) : Prop where
  defaultType : m defaultType = enable ||| fixedEnable ||| CacheType.uncacheable.code.toUInt64
  lanes : ∀ r ∈ fixedRegisters, ∀ i < 8, laneType (m r.msr) i =
    if i ∈ r.lanes 0xC0000 0x100000 then CacheType.writeProtected.code
    else if i ∈ r.lanes 0xA0000 0xC0000 then CacheType.uncacheable.code
    else if i ∈ r.lanes 0 0xA0000 then CacheType.writeBack.code
    else 0
  types : ∀ a < 2 ^ bits, ∀ t, t ∈ variableTypes bits m a ↔
    t = CacheType.writeBack.code ∧ a < covering ∨
    t = CacheType.uncacheable.code ∧ low ≤ a ∧ a < covering ∨
    t = CacheType.writeBack.code ∧ size4G.toNat ≤ a ∧ a < size4G.toNat + high

theorem lists_variable {low covering high : UInt64} {excess : List CacheRange}
    (hle : low.toNat ≤ covering.toNat) (hexcess : CachePolicy.excess low covering = .ok excess)
    (a : Nat) (t : UInt8) :
    Lists (⟨0, covering, .writeBack⟩ ::
      (excess ++ if high = 0 then [] else [⟨size4G, high, .writeBack⟩])) a t ↔
    t = CacheType.writeBack.code ∧ a < covering.toNat ∨
    t = CacheType.uncacheable.code ∧ low.toNat ≤ a ∧ a < covering.toNat ∨
    t = CacheType.writeBack.code ∧ size4G.toNat ≤ a ∧ a < size4G.toNat + high.toNat := by
  have hcovering : Lists [⟨0, covering, .writeBack⟩] a t ↔
      t = CacheType.writeBack.code ∧ a < covering.toNat := by
    simp [Lists]
  have hhole : Lists excess a t ↔
      t = CacheType.uncacheable.code ∧ low.toNat ≤ a ∧ a < covering.toNat := by
    rcases CachePolicy.excess_eq_ok hexcess with ⟨rfl, rfl⟩ | ⟨length, hlength, -, rfl⟩
    · simp only [Lists, List.not_mem_nil, false_and, exists_false, false_iff]
      omega
    · simp only [Lists, List.mem_singleton, exists_eq_left]
      rw [Nat.add_comm, hlength]
  have hhigh : Lists (if high = 0 then [] else [⟨size4G, high, .writeBack⟩]) a t ↔
      t = CacheType.writeBack.code ∧ size4G.toNat ≤ a ∧ a < size4G.toNat + high.toNat := by
    split
    · rename_i hzero
      subst hzero
      simp only [Lists, List.not_mem_nil, false_and, exists_false, false_iff, UInt64.toNat_zero]
      omega
    · simp only [Lists, List.mem_singleton, exists_eq_left]
  rw [← hcovering, ← hhole, ← hhigh]
  simp only [Lists, List.mem_cons, List.mem_append, List.not_mem_nil, or_false, or_and_right, exists_or]

theorem variable_bounds {low covering high : UInt64} {excess : List CacheRange}
    (hpos : size1M.toNat < low.toNat) (hle : low.toNat ≤ covering.toNat)
    (hcovering : covering.toNat ≤ size4G.toNat) (hroom : size4G.toNat + high.toNat ≤ 2 ^ bits)
    (hexcess : CachePolicy.excess low covering = .ok excess) (r : CacheRange)
    (hr : r ∈ ⟨0, covering, .writeBack⟩ ::
      (excess ++ if high = 0 then [] else [⟨size4G, high, .writeBack⟩])) :
    size1M.toNat < r.base.toNat + r.length.toNat ∧ r.base.toNat + r.length.toNat ≤ 2 ^ bits := by
  have hsize : size1M.toNat < size4G.toNat := by decide
  rcases List.mem_cons.mp hr with rfl | hr
  · simp only [UInt64.toNat_zero]
    omega
  · rcases List.mem_append.mp hr with hr | hr
    · rcases CachePolicy.excess_eq_ok hexcess with ⟨-, rfl⟩ | ⟨length, hlength, -, rfl⟩
      · cases hr
      · obtain rfl := List.mem_singleton.mp hr
        dsimp only
        omega
    · split at hr
      · cases hr
      · obtain rfl := List.mem_singleton.mp hr
        dsimp only
        omega

theorem program_programmed (hc : c.ForBits bits) {low high : UInt64} {m m' : Msrs}
    (hcount : pairCount m ≤ maxPairs) (hpos : size1M < low)
    (hlow : low ≤ size4G) (hroom : size4G.toNat + high.toNat ≤ 2 ^ bits)
    (hrun : CachePolicy.program c.cacheController low high m = .ok () m') :
    ∃ covering, low.toNat ≤ covering ∧ covering ≤ size4G.toNat ∧
      Programmed bits low.toNat covering high.toNat m' := by
  obtain ⟨_, m₀, hreset, hrun⟩ := Step.bind_eq_ok.mp hrun
  obtain ⟨rs, _, hlist, hrun⟩ := Step.bind_eq_ok.mp hrun
  obtain ⟨hranges, rfl⟩ := Step.ofHalting_eq_ok.mp hlist
  obtain ⟨covering, excess, hcovering, hexcess, rfl⟩ := CachePolicy.ranges_eq_ok hranges
  obtain ⟨hle, hcovering4G⟩ := CachePolicy.coveringRange_bounds hlow hcovering
  have hcleared := reset_cleared hc hcount hreset
  obtain ⟨m₁, hfirst, hrun⟩ := Step.forM_cons_eq_ok.mp hrun
  obtain ⟨m₂, hsecond, hrun⟩ := Step.forM_cons_eq_ok.mp hrun
  obtain ⟨m₃, hthird, hrun⟩ := Step.forM_cons_eq_ok.mp hrun
  change c.setAttributes 0 size640K .writeBack m₀ = .ok () m₁ at hfirst
  change c.setAttributes size640K size128K .uncacheable m₁ = .ok () m₂ at hsecond
  change c.setAttributes 0xC0000 size256K .writeProtected m₂ = .ok () m₃ at hthird
  have h₁ : m₁ = fixedRegisters.foldl (paint 0 0xA0000 .writeBack) m₀ :=
    setAttributes_fixed hc hfirst (by decide) (by decide) (by decide)
  have h₂ : m₂ = fixedRegisters.foldl (paint 0xA0000 0xC0000 .uncacheable) m₁ :=
    setAttributes_fixed hc hsecond (by decide) (by decide) (by decide)
  have h₃ : m₃ = fixedRegisters.foldl (paint 0xC0000 0x100000 .writeProtected) m₂ :=
    setAttributes_fixed hc hthird (by decide) (by decide) (by decide)
  have hframe : ∀ msr, (∀ r ∈ fixedRegisters, msr ≠ r.msr) → m₃ msr = m₀ msr := fun msr h => by
    rw [h₃, paint_frame h, h₂, paint_frame h, h₁, paint_frame h]
  have hpos' := UInt64.lt_iff_toNat_lt.mp hpos
  have hcapability : m₃ capability = m capability := by
    rw [hframe _ (by decide), hcleared.capability]
  have hcounts : pairCount m₃ = pairCount m := by rw [pairCount, hcapability, pairCount]
  have hpainted := forM_setAttributes_painted hc (hcounts ▸ hcount)
    (variable_bounds hpos' hle hcovering4G hroom hexcess) hrun
  refine ⟨covering.toNat, hle, hcovering4G, ?_, fun r hr i hi => ?_, fun a ha t => ?_⟩
  · rw [hpainted.frame _ (not_isPair_defaultType (hcounts ▸ hcount)), hframe _ (by decide),
      hcleared.defaultType]
  · rw [hpainted.frame _ (not_isPair_fixed (hcounts ▸ hcount) hr), h₃, laneType_paint hr hi, h₂,
      laneType_paint hr hi, h₁, laneType_paint hr hi, hcleared.fixed r hr,
      laneType_zero]
  · have hnone : variableTypes bits m₃ a = variableTypes bits m₀ a := by
      have hcount₀ : pairCount m₀ = pairCount m := by rw [pairCount, hcleared.capability, pairCount]
      refine variableTypes_congr (hcount₀ ▸ hcount) (hframe _ (by decide)) fun msr hmsr => ?_
      exact hframe msr fun r hr heq => not_isPair_fixed (hcount₀ ▸ hcount) hr (heq ▸ hmsr)
    rw [hpainted.types a ha t, hnone, hcleared.variableTypes_eq, lists_variable hle hexcess,
      eq_false (List.not_mem_nil (a := t)), false_or]

theorem lane_sides : ∀ r ∈ fixedRegisters, ∀ lane < 8, ∀ bound ∈ [0xA0000, 0xC0000, 0x100000],
    r.start + lane * r.unit + r.unit ≤ bound ∨ bound ≤ r.start + lane * r.unit := by
  decide

theorem Programmed.fixedType?_eq {low covering high a : Nat} {m : Msrs}
    (h : Programmed bits low covering high m) (ha : a < size1M.toNat) :
    fixedType? m a = some (memoryMapType low high a).code := by
  obtain ⟨r, hr, lane, hlane, htype, hle, hlt⟩ := Mtrr.fixedType?_eq (m := m) ha
  have hrom := lane_sides r hr lane hlane 0xC0000 (by decide)
  have hvideo := lane_sides r hr lane hlane 0xA0000 (by decide)
  have hend := lane_sides r hr lane hlane 0x100000 (by decide)
  change a < 0x100000 at ha
  rw [htype, h.lanes r hr lane hlane, memoryMapType]
  simp only [mem_lanes, hlane, true_and]
  congr 1
  change _ = CacheType.code (if a < 0xA0000 then _ else if a < 0xC0000 then _ else
    if a < 0x100000 then _ else _)
  split_ifs <;> first | rfl | omega

theorem Programmed.resolve_eq {low covering high a : Nat} {m : Msrs}
    (h : Programmed bits low covering high m) (hle : low ≤ covering)
    (hcovering : covering ≤ size4G.toNat) (ha : a < 2 ^ bits) (hlow : size1M.toNat ≤ a) :
    resolve CacheType.uncacheable.code (variableTypes bits m a) =
      some (memoryMapType low high a).code := by
  have htypes := h.types a ha
  have hpos : ¬a < size640K.toNat ∧ ¬a < size640K.toNat + size128K.toNat ∧ ¬a < size1M.toNat := by
    have h640 : size640K.toNat + size128K.toNat ≤ size1M.toNat := by decide
    omega
  rw [memoryMapType, if_neg hpos.1, if_neg hpos.2.1, if_neg hpos.2.2]
  by_cases hmemory : a < low
  · rw [if_pos hmemory]
    refine resolve_of_forall ((htypes _).mpr (.inl ⟨rfl, by omega⟩)) fun t ht => ?_
    rcases (htypes t).mp ht with h | h | h <;> first | exact h.1 | omega
  · rw [if_neg hmemory]
    by_cases hhigh : size4G.toNat ≤ a ∧ a < size4G.toNat + high
    · rw [if_pos hhigh]
      refine resolve_of_forall ((htypes _).mpr (.inr (.inr ⟨rfl, hhigh⟩))) fun t ht => ?_
      rcases (htypes t).mp ht with h | h | h <;> first | exact h.1 | omega
    · rw [if_neg hhigh]
      by_cases hhole : a < covering
      · exact resolve_uncacheable ((htypes _).mpr (.inr (.inl ⟨rfl, by omega, hhole⟩)))
      · refine resolve_default fun t ht => ?_
        rcases (htypes t).mp ht with h | h | h <;> omega

/-- Programming the policy from any register contents gives each address of the physical address
space the type that the memory map asks for. -/
theorem effectiveType_program {width : UInt8} {c : Controller Msrs} {low high : UInt64} {m m' : Msrs}
    (hc : Controller.new Msrs.access width = .ok c) (hcount : pairCount m ≤ 40)
    (hlow1M : size1M < low) (hlow4G : low ≤ size4G)
    (hroom : size4G.toNat + high.toNat ≤ 2 ^ width.toNat)
    (hrun : CachePolicy.program c.cacheController low high m = .ok () m') {a : Nat}
    (ha : a < 2 ^ width.toNat) :
    effectiveType width.toNat m' a = some (memoryMapType low.toNat high.toNat a).code := by
  obtain ⟨covering, hle, hcovering, h⟩ := program_programmed (forBits_of_new hc) hcount
    hlow1M hlow4G hroom hrun
  rw [effectiveType, h.defaultType, if_neg (by decide)]
  by_cases hsmall : a < size1M.toNat
  · rw [if_pos ⟨hsmall, by decide⟩, h.fixedType?_eq hsmall]
  · rw [if_neg fun hfixed => hsmall hfixed.1]
    exact h.resolve_eq hle hcovering ha (by omega)

/-- Registers in which every bit was left set, of a processor with eight variable pairs. -/
def staleRegisters : Msrs := fun msr => if msr = capability then 8 else 0xFFFFFFFFFFFFFFFF

/-- The hole under 2 GiB is uncacheable although the covering range overlaps it. -/
theorem effectiveType_program_hole : ∃ c m', Controller.new Msrs.access 36 = .ok c ∧
    pairCount staleRegisters ≤ 40 ∧
    CachePolicy.program c.cacheController 0x7F000000 0x60000000 staleRegisters = .ok () m' ∧
    effectiveType (36 : UInt8).toNat m' 0x7F800000 = some CacheType.uncacheable.code := by
  have hrun : Step.succeeds (CachePolicy.program
      (Controller.cacheController ⟨Msrs.access, 0xFFFFFF000⟩) 0x7F000000 0x60000000)
      staleRegisters = true := by decide +kernel
  obtain ⟨_, m', hok⟩ := Step.succeeds_iff.mp hrun
  refine ⟨_, m', rfl, by decide, hok, ?_⟩
  rw [effectiveType_program rfl (by decide) (by decide) (by decide) (by decide) hok (by decide)]
  decide

end
end PlatformInit.Mtrr
