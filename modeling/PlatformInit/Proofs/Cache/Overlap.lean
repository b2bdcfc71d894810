import PlatformInit.Proofs.Cache.FreePairs

/-!
Ranges on top of earlier ones: which memory type an address has after a range was set.

A call writes to free variable pairs and frees none. An address above 1 MiB keeps the types that earlier
calls gave it and gets the new one in addition, so that the new type takes effect where it is
uncacheable or where no earlier pair says anything else.
-/
set_option autoImplicit false
namespace PlatformInit.Mtrr

theorem resolve_congr {default : UInt8} {types types' : List UInt8}
    (h : ∀ t, t ∈ types ↔ t ∈ types') : resolve default types = resolve default types' := by
  cases types with
  | nil => exact (resolve_default fun t ht => List.not_mem_nil ((h t).mpr ht)).symm
  | cons t types =>
    cases types' with
    | nil => exact absurd ((h t).mp List.mem_cons_self) List.not_mem_nil
    | cons u types' =>
      by_cases huncacheable : CacheType.uncacheable.code ∈ t :: types
      · rw [resolve_uncacheable huncacheable, resolve_uncacheable ((h _).mp huncacheable)]
      · by_cases hall : ∀ v ∈ t :: types, v = t
        · rw [resolve_of_forall List.mem_cons_self hall,
            resolve_of_forall ((h t).mp List.mem_cons_self) fun v hv => hall v ((h v).mpr hv)]
        · have hother : ¬∀ v ∈ u :: types', v = u := fun hall' => hall fun v hv =>
            (hall' v ((h v).mp hv)).trans (hall' t ((h t).mp List.mem_cons_self)).symm
          rw [resolve, resolve, if_neg huncacheable, if_neg (mt (h _).mpr huncacheable),
            if_neg fun hrest => hall (List.forall_mem_cons.mpr ⟨rfl, hrest⟩),
            if_neg fun hrest => hother (List.forall_mem_cons.mpr ⟨rfl, hrest⟩)]

/-- The registers after ranges were set one by one, whatever each call answered. -/
def settings (c : Controller Msrs) (m : Msrs) (rs : List CacheRange) : Msrs :=
  rs.foldl (fun m r => Step.after (c.setAttributes r.base r.length r.type) m) m

/-- Both kinds of range registers are on, and what they leave open is uncacheable. -/
structure Enabled (m : Msrs) : Prop where
  defaultType : m defaultType = enable ||| fixedEnable ||| CacheType.uncacheable.code.toUInt64
  pairs : pairCount m ≤ maxPairs

section
variable {bits : Nat} {c : Controller Msrs} {m m' : Msrs}

/-! ### What a call leaves alone -/

theorem setAttributes_frame (hc : c.ForBits bits) {base length : UInt64} {type : CacheType}
    {msr : UInt32} (hcount : pairCount m ≤ maxPairs) (hpair : ¬IsPair (pairCount m) msr)
    (hfixed : ∀ r ∈ fixedRegisters, msr ≠ r.msr) :
    Step.after (c.setAttributes base length type) m msr = m msr := by
  unfold Controller.setAttributes
  split
  · rfl
  · cases hadd : add64 base length with
    | error why =>
      rw [Step.after_bind_of_error (Step.ofHalting_of_error rfl)]
    | ok stop =>
      rw [Step.after_bind_of_ok (Step.ofHalting_eq_ok.mpr ⟨rfl, rfl⟩)]
      split
      · have hrun := setFixed_eq hc base.toNat stop.toNat type m
        split at hrun
        · rw [Step.after_of_ok hrun, paint_frame hfixed]
        · rw [Step.after_of_error hrun, paint_frame hfixed]
      · rw [Step.after_bind_of_ok (Step.get_eq_ok.mpr ⟨rfl, rfl⟩), slotCount_eq hc]
        have hframe : withPieces c type m ((freeFrom m 0).zip (pieces base.toNat length.toNat)) msr =
            m msr := by
          refine withPieces_frame fun p hp => ?_
          have hslot := (mem_freeFrom.mp (List.of_mem_zip hp).1).2.1
          have hregisters := isPair_registers hcount hslot
          exact ⟨fun heq => hpair (heq ▸ hregisters.1), fun heq => hpair (heq ▸ hregisters.2)⟩
        have hrun := setPieces_eq hc type (pieces base.toNat length.toNat) 0 hcount
        split at hrun
        · rw [Step.after_of_ok hrun, hframe]
        · rw [Step.after_of_error hrun, hframe]

theorem setAttributes_enabled (hc : c.ForBits bits) (h : Enabled m) (base length : UInt64)
    (type : CacheType) : Enabled (Step.after (c.setAttributes base length type) m) := by
  have hcapability : Step.after (c.setAttributes base length type) m capability = m capability :=
    setAttributes_frame hc h.pairs (not_isPair_capability _) (by decide)
  constructor
  · rw [setAttributes_frame hc h.pairs (not_isPair_defaultType h.pairs) (by decide), h.defaultType]
  · rw [pairCount, hcapability]
    exact h.pairs

theorem settings_enabled (hc : c.ForBits bits) (h : Enabled m) (rs : List CacheRange) :
    Enabled (settings c m rs) := by
  induction rs generalizing m with
  | nil => exact h
  | cons r rs ih => exact ih (setAttributes_enabled hc h r.base r.length r.type)

theorem Cleared.enabled (h : Cleared m m') (hcount : pairCount m ≤ maxPairs) : Enabled m' := by
  refine ⟨h.defaultType, ?_⟩
  rw [pairCount, h.capability]
  exact hcount

/-! ### The type of an address -/

theorem Enabled.effectiveType_eq (h : Enabled m) {a : Nat} (ha : size1M.toNat ≤ a) :
    effectiveType bits m a = resolve CacheType.uncacheable.code (variableTypes bits m a) := by
  rw [effectiveType, h.defaultType, if_neg (by decide), if_neg fun hlow => by omega]
  rfl

theorem Enabled.effectiveType_congr (h : Enabled m) {a : Nat}
    (hframe : ∀ msr, ¬IsPair (pairCount m) msr → m' msr = m msr)
    (htypes : ∀ t, t ∈ variableTypes bits m' a ↔ t ∈ variableTypes bits m a) :
    effectiveType bits m' a = effectiveType bits m a := by
  have hdefault := hframe _ (not_isPair_defaultType h.pairs)
  have hfixed : fixedType? m' a = fixedType? m a := by
    rw [fixedType?, fixedType?]
    cases hfind : fixedRegisters.find? fun r => decide (r.start ≤ a ∧ a < r.start + 8 * r.unit) with
    | none => rfl
    | some r =>
      have hr := List.mem_of_find?_eq_some hfind
      rw [Option.map_some, Option.map_some, hframe _ (not_isPair_fixed h.pairs hr)]
  rw [effectiveType, effectiveType, hdefault, hfixed, resolve_congr htypes]

end

/-- After any calls since a reset, a range from 1 MiB on that is accepted adds its type to the addresses
in it and changes nothing elsewhere. It is the type that they have when it is uncacheable or when no
earlier pair gives them another one; where an earlier pair says uncacheable, they stay so. -/
theorem effectiveType_setAttributes {width : UInt8} {c : Controller Msrs} {m₀ m₁ m' : Msrs}
    {rs : List CacheRange} {base length : UInt64} {type : CacheType}
    (hc : Controller.new Msrs.access width = .ok c) (hcount : pairCount m₀ ≤ 40)
    (hreset : c.reset m₀ = .ok () m₁) (hbase : size1M ≤ base)
    (hroom : base.toNat + length.toNat ≤ 2 ^ width.toNat)
    (hrun : c.setAttributes base length type (settings c m₁ rs) = .ok () m') {a : Nat}
    (ha : a < 2 ^ width.toNat) :
    if base.toNat ≤ a ∧ a < base.toNat + length.toNat then
      (∀ t, t ∈ variableTypes width.toNat m' a ↔
        t ∈ variableTypes width.toNat (settings c m₁ rs) a ∨ t = type.code) ∧
      ((type = .uncacheable ∨ ∀ t ∈ variableTypes width.toNat (settings c m₁ rs) a, t = type.code) →
        effectiveType width.toNat m' a = some type.code) ∧
      (CacheType.uncacheable.code ∈ variableTypes width.toNat (settings c m₁ rs) a →
        effectiveType width.toNat m' a = some CacheType.uncacheable.code)
    else effectiveType width.toNat m' a = effectiveType width.toNat (settings c m₁ rs) a := by
  have hbits := forBits_of_new hc
  have henabled := settings_enabled hbits ((reset_cleared hbits hcount hreset).enabled hcount) rs
  have hafter := setAttributes_enabled hbits henabled base length type
  rw [Step.after_of_ok hrun] at hafter
  have hbase' := UInt64.le_iff_toNat_le.mp hbase
  have hpos : 0 < length.toNat := by
    apply Nat.pos_of_ne_zero
    intro hzero
    rw [Controller.setAttributes, if_pos (.inl (UInt64.toNat_inj.mp hzero))] at hrun
    exact Step.fail_eq_ok.mp hrun
  have hpainted := setAttributes_painted hbits henabled.pairs hrun (by omega) hroom
  have htypes := hpainted.types a ha
  split
  · rename_i hin
    have hadds : ∀ t, t ∈ variableTypes width.toNat m' a ↔
        t ∈ variableTypes width.toNat (settings c m₁ rs) a ∨ t = type.code := by
      intro t
      rw [htypes t, and_iff_left hin]
    have hmem : type.code ∈ variableTypes width.toNat m' a := (hadds _).mpr (.inr rfl)
    rw [hafter.effectiveType_eq (by omega)]
    refine ⟨hadds, ?_, fun hearlier => resolve_uncacheable ((hadds _).mpr (.inl hearlier))⟩
    rintro (rfl | hall)
    · exact resolve_uncacheable hmem
    · exact resolve_of_forall hmem fun t ht => ((hadds t).mp ht).elim (hall t) id
  · rename_i hout
    refine henabled.effectiveType_congr hpainted.frame fun t => ?_
    rw [htypes t, or_iff_left fun hadded => hout hadded.2]

def lowMemoryRange : CacheRange := ⟨0, 0x80000000, .writeBack⟩

theorem effectiveType_setAttributes_hole : ∃ c m₁ m', Controller.new Msrs.access 36 = .ok c ∧
    c.reset staleRegisters = .ok () m₁ ∧
    c.setAttributes 0x7F000000 0x1000000 .uncacheable (settings c m₁ [lowMemoryRange]) = .ok () m' ∧
    effectiveType 36 m' 0x7F800000 = some CacheType.uncacheable.code ∧
    effectiveType 36 m' 0x7E800000 = effectiveType 36 (settings c m₁ [lowMemoryRange]) 0x7E800000 := by
  have hnew : Controller.new Msrs.access 36 = .ok ⟨Msrs.access, 0xFFFFFF000⟩ := rfl
  obtain ⟨m₁, hreset⟩ := exists_reset (forBits_of_new hnew) staleRegisters
  have hrun : Step.succeeds (Controller.setAttributes ⟨Msrs.access, 0xFFFFFF000⟩ 0x7F000000 0x1000000
      .uncacheable) (settings ⟨Msrs.access, 0xFFFFFF000⟩ m₁ [lowMemoryRange]) = true := by
    rw [← Step.after_of_ok hreset]
    decide +kernel
  obtain ⟨_, m', hrun⟩ := Step.succeeds_iff.mp hrun
  have hin := effectiveType_setAttributes hnew (by decide) hreset (by decide) (by decide)
    hrun (a := 0x7F800000) (by decide)
  have hout := effectiveType_setAttributes hnew (by decide) hreset (by decide) (by decide)
    hrun (a := 0x7E800000) (by decide)
  rw [if_pos (by decide)] at hin
  rw [if_neg (by decide)] at hout
  exact ⟨_, m₁, m', hnew, hreset, hrun, hin.2.1 (.inl rfl), hout⟩

/-- Memory that was made uncacheable stays so although write-back is accepted for it. -/
theorem uncacheable_remains : ∃ c m₁ m', Controller.new Msrs.access 36 = .ok c ∧
    pairCount staleRegisters ≤ 40 ∧ c.reset staleRegisters = .ok () m₁ ∧
    c.setAttributes 0x7F000000 0x1000000 .writeBack
        (settings c m₁ [lowMemoryRange, ⟨0x7F000000, 0x1000000, .uncacheable⟩]) = .ok () m' ∧
      effectiveType 36 m' 0x7F800000 = some CacheType.uncacheable.code := by
  have hnew : Controller.new Msrs.access 36 = .ok ⟨Msrs.access, 0xFFFFFF000⟩ := rfl
  obtain ⟨m₁, hreset⟩ := exists_reset (forBits_of_new hnew) staleRegisters
  have hrun : Step.succeeds (Controller.setAttributes ⟨Msrs.access, 0xFFFFFF000⟩ 0x7F000000 0x1000000
      .writeBack) (settings ⟨Msrs.access, 0xFFFFFF000⟩ m₁
        [lowMemoryRange, ⟨0x7F000000, 0x1000000, .uncacheable⟩]) = true := by
    rw [← Step.after_of_ok hreset]
    decide +kernel
  obtain ⟨_, m', hrun⟩ := Step.succeeds_iff.mp hrun
  have htype : effectiveType 36 m' 0x7F800000 = some CacheType.uncacheable.code := by
    rw [← Step.after_of_ok hrun, ← Step.after_of_ok hreset]
    decide +kernel
  exact ⟨_, m₁, m', hnew, by decide, hreset, hrun, htype⟩

end PlatformInit.Mtrr
