import PlatformInit.Proofs.Cache.Refusal
import PlatformInit.Proofs.Noted

/-!
The eighty-eight type bytes and what an accepted range below 1 MiB writes.

Every address below 1 MiB belongs to one type byte. A range is accepted exactly when both its ends are
boundaries; the type bytes inside it then have its type, and the registers that hold them are written once
each, in order, and no others.
-/
set_option autoImplicit false
namespace PlatformInit

/-- The same access with every write noted, newest first. -/
def MsrAccess.noting {ω : Type} (access : MsrAccess ω) : MsrAccess (Noted ω (UInt32 × UInt64)) where
  read msr n := access.read msr n.world
  write msr value n := ⟨access.write msr value n.world, (msr, value) :: n.calls⟩

namespace Mtrr

def Controller.noting {ω : Type} (c : Controller ω) : Controller (Noted ω (UInt32 × UInt64)) :=
  ⟨c.msrs.noting, c.addressMask⟩

/-! ### The type bytes -/

/-- One of the eight type bytes of a fixed-range register. -/
structure TypeByte where
  register : FixedRegister
  lane : Nat

namespace TypeByte

def start (b : TypeByte) : Nat := b.register.start + b.lane * b.register.unit

def stop (b : TypeByte) : Nat := b.start + b.register.unit

def Holds (b : TypeByte) (a : Nat) : Prop := b.start ≤ a ∧ a < b.stop

def type (m : Msrs) (b : TypeByte) : UInt8 := laneType (m b.register.msr) b.lane

end TypeByte

def typeBytes : List TypeByte := fixedRegisters.flatMap fun r => (List.range 8).map (TypeByte.mk r)

theorem mem_typeBytes {b : TypeByte} : b ∈ typeBytes ↔ b.register ∈ fixedRegisters ∧ b.lane < 8 := by
  unfold typeBytes
  rw [List.mem_flatMap]
  constructor
  · rintro ⟨r, hr, hb⟩
    obtain ⟨i, hi, rfl⟩ := List.mem_map.mp hb
    exact ⟨hr, List.mem_range.mp hi⟩
  · rintro ⟨hr, hlane⟩
    exact ⟨b.register, hr, List.mem_map.mpr ⟨b.lane, List.mem_range.mpr hlane, rfl⟩⟩

theorem length_typeBytes : typeBytes.length = 88 := rfl

theorem subRanges_eq : subRanges = typeBytes.map fun b => (b.start, b.register.unit) := by
  rw [typeBytes, List.map_flatMap]
  simp only [List.map_map]
  rfl

theorem Consecutive.pairwise {lo hi : Nat} {ss : List (Nat × Nat)} (h : Consecutive lo ss hi) :
    (∀ s ∈ ss, lo ≤ s.1) ∧ ss.Pairwise fun s t => s.1 + s.2 ≤ t.1 := by
  induction ss generalizing lo with
  | nil => exact ⟨nofun, List.Pairwise.nil⟩
  | cons s ss ih =>
    obtain ⟨rfl, hpos, hrest⟩ := h
    obtain ⟨habove, hpairs⟩ := ih hrest
    refine ⟨List.forall_mem_cons.mpr ⟨Nat.le_refl _, fun t ht => ?_⟩, List.pairwise_cons.mpr ⟨habove, hpairs⟩⟩
    exact Nat.le_trans (Nat.le_add_right _ _) (habove t ht)

theorem typeBytes_pairwise : typeBytes.Pairwise fun b b' => b.stop ≤ b'.start := by
  have hpairs := consecutive_subRanges.pairwise.2
  rwa [subRanges_eq, List.pairwise_map] at hpairs

theorem existsUnique_typeByte {a : Nat} (ha : a < 0x100000) : ∃! b, b ∈ typeBytes ∧ b.Holds a := by
  obtain ⟨s, hs, hle, hlt⟩ := consecutive_subRanges.exists_mem (Nat.zero_le a) ha
  rw [subRanges_eq] at hs
  obtain ⟨b, hb, rfl⟩ := List.mem_map.mp hs
  refine ⟨b, ⟨hb, hle, hlt⟩, ?_⟩
  rintro b' ⟨hb', hin'⟩
  have hsame : ∀ ⦃x⦄, x ∈ typeBytes → ∀ ⦃y⦄, y ∈ typeBytes → x.Holds a → y.Holds a → x = y := by
    refine List.Pairwise.forall_of_forall_of_flip (fun _ _ _ _ => rfl) ?_ ?_
    · refine typeBytes_pairwise.imp fun hbefore hx hy => ?_
      exact absurd (Nat.lt_of_lt_of_le hx.2 hbefore) (Nat.not_lt.mpr hy.1)
    · refine typeBytes_pairwise.imp fun hbefore hy hx => ?_
      exact absurd (Nat.lt_of_lt_of_le hx.2 hbefore) (Nat.not_lt.mpr hy.1)
  exact hsame hb' hb hin' ⟨hle, hlt⟩

/-! ### The writes -/

variable {bits : Nat} {c : Controller Msrs} {base stop : Nat} {type : CacheType}

theorem paint_of_lanes_nil {r : FixedRegister} {m : Msrs} (h : r.lanes base stop = []) :
    paint base stop type m r = m := by
  funext i
  rw [paint, h, List.foldl_nil]
  split
  · rename_i heq
    rw [heq]
  · rfl

def noteRegister (base stop : Nat) (type : CacheType) (n : Noted Msrs (UInt32 × UInt64))
    (r : FixedRegister) : Noted Msrs (UInt32 × UInt64) :=
  let painted := paint base stop type n.world r
  ⟨painted, if r.lanes base stop = [] then n.calls else (r.msr, painted r.msr) :: n.calls⟩

theorem setFixedRegister_noting (hc : c.ForBits bits) (base stop : Nat) (type : CacheType)
    (r : FixedRegister) (n : Noted Msrs (UInt32 × UInt64)) :
    c.noting.setFixedRegister base stop type r n =
      .ok ((r.lanes base stop).length * r.unit) (noteRegister base stop type n r) := by
  unfold Controller.setFixedRegister noteRegister
  dsimp only
  split
  · rename_i hnone
    have hsame : paint base stop type n.world r = n.world := paint_of_lanes_nil hnone
    rw [hsame, hnone, List.length_nil, Nat.zero_mul]
    rfl
  · rename_i hsome
    rw [Step.bind_of_ok (Step.get_eq_ok.mpr ⟨rfl, rfl⟩), Controller.noting, hc.msrs]
    have hvalue : paint base stop type n.world r r.msr =
        (r.lanes base stop).foldl (FixedRegister.setLane type) (n.world r.msr) := if_pos rfl
    rw [hvalue]
    rfl

theorem foldl_noteRegister {rs : List FixedRegister} (hdistinct : rs.Pairwise fun r q => r.msr ≠ q.msr)
    (n : Noted Msrs (UInt32 × UInt64)) :
    rs.foldl (noteRegister base stop type) n = ⟨rs.foldl (paint base stop type) n.world,
      ((rs.filter fun r => r.lanes base stop ≠ []).map fun r =>
        (r.msr, rs.foldl (paint base stop type) n.world r.msr)).reverse ++ n.calls⟩ := by
  induction rs generalizing n with
  | nil => rfl
  | cons r rs ih =>
    obtain ⟨hr, hrest⟩ := List.pairwise_cons.mp hdistinct
    have hkept : rs.foldl (paint base stop type) (paint base stop type n.world r) r.msr =
        paint base stop type n.world r r.msr := foldl_paint_of_not_mem hr
    rw [List.foldl_cons, ih hrest, List.foldl_cons]
    by_cases hnone : r.lanes base stop = []
    · simp [noteRegister, hnone]
    · simp [noteRegister, hnone, hkept]

theorem setFixed_noting (hc : c.ForBits bits) (base stop : Nat) (type : CacheType) (m : Msrs) :
    Step.after (c.noting.setFixed base stop type) ⟨m, []⟩ = ⟨fixedRegisters.foldl (paint base stop type) m,
      ((fixedRegisters.filter fun r => r.lanes base stop ≠ []).map fun r =>
        (r.msr, fixedRegisters.foldl (paint base stop type) m r.msr)).reverse⟩ := by
  have hend : Step.after (c.noting.setFixed base stop type) ⟨m, []⟩ =
      fixedRegisters.foldl (noteRegister base stop type) ⟨m, []⟩ := by
    unfold Step.after
    rw [setFixed_of_step (setFixedRegister_noting hc base stop type)]
    by_cases hmade : base + lanesSize base stop fixedRegisters = stop
    · rw [if_pos hmade]
    · rw [if_neg hmade]
  rw [hend, foldl_noteRegister fixedRegisters_distinct, List.append_nil]

/-! ### Accepted ranges -/

theorem pageSize_dvd_granularity (a : Nat) : 0x1000 ∣ granularity a := by
  unfold granularity
  split
  · decide
  · split <;> decide

theorem pages_of_boundaries {base length : UInt64} (hbase : base.toNat % granularity base.toNat = 0)
    (hstop : (base.toNat + length.toNat) % granularity (base.toNat + length.toNat) = 0) :
    base % pageSize = 0 ∧ length % pageSize = 0 := by
  have hfirst : 0x1000 ∣ base.toNat :=
    (pageSize_dvd_granularity _).trans (Nat.dvd_of_mod_eq_zero hbase)
  have hlast : 0x1000 ∣ base.toNat + length.toNat :=
    (pageSize_dvd_granularity _).trans (Nat.dvd_of_mod_eq_zero hstop)
  have hlength : 0x1000 ∣ length.toNat := (Nat.dvd_add_right hfirst).mp hlast
  constructor
  · apply UInt64.toNat_inj.mp
    rw [UInt64.toNat_mod]
    exact Nat.mod_eq_zero_of_dvd hfirst
  · apply UInt64.toNat_inj.mp
    rw [UInt64.toNat_mod]
    exact Nat.mod_eq_zero_of_dvd hlength

theorem answer_setAttributes_low {m : Msrs} {base length : UInt64} (hc : c.ForBits bits) (hpos : length ≠ 0)
    (hlow : base.toNat + length.toNat ≤ size1M.toNat) (type : CacheType) :
    Step.answer (c.setAttributes base length type) m =
      if base.toNat % granularity base.toNat = 0 ∧
          (base.toNat + length.toNat) % granularity (base.toNat + length.toNat) = 0
        then .ok () else .error (.error .invalidParameter) := by
  unfold Step.answer
  by_cases hpages : base % pageSize = 0 ∧ length % pageSize = 0
  · rw [setAttributes_low hc hpages.1 hpages.2 hpos hlow]
    by_cases hends : base.toNat % granularity base.toNat = 0 ∧
        (base.toNat + length.toNat) % granularity (base.toNat + length.toNat) = 0
    · rw [if_pos hends, if_pos hends]
    · rw [if_neg hends, if_neg hends]
  · have hparts : length = 0 ∨ base % pageSize ≠ 0 ∨ length % pageSize ≠ 0 := by
      by_cases hbase : base % pageSize = 0
      · exact .inr (.inr fun hlength => hpages ⟨hbase, hlength⟩)
      · exact .inr (.inl hbase)
    rw [if_neg fun hends => hpages (pages_of_boundaries hends.1 hends.2), Controller.setAttributes,
      if_pos hparts]
    rfl

/-- A range below 1 MiB is accepted exactly when both its ends are boundaries. The type bytes inside it
then have its type and all others the one they had; the registers with type bytes inside are written once
each, and no other register is. Every address below 1 MiB belongs to one of the type bytes. -/
theorem setAttributes_exact {width : UInt8} (hc : Controller.new Msrs.access width = .ok c) (m : Msrs)
    {base length : UInt64} (type : CacheType) (hpos : length ≠ 0)
    (hlow : base.toNat + length.toNat ≤ 0x100000) :
    Step.answer (c.setAttributes base length type) m =
      (if base.toNat % granularity base.toNat = 0 ∧
          (base.toNat + length.toNat) % granularity (base.toNat + length.toNat) = 0
        then .ok () else .error (.error .invalidParameter)) ∧
    (∀ m', c.setAttributes base length type m = .ok () m' →
      (∀ b ∈ typeBytes, b.type m' =
        if base.toNat ≤ b.start ∧ b.stop ≤ base.toNat + length.toNat then type.code else b.type m) ∧
      (∀ msr, (∀ r ∈ fixedRegisters, msr ≠ r.msr) → m' msr = m msr) ∧
      Step.after (c.noting.setAttributes base length type) ⟨m, []⟩ = ⟨m',
        ((fixedRegisters.filter fun r => r.lanes base.toNat (base.toNat + length.toNat) ≠ []).map fun r =>
          (r.msr, m' r.msr)).reverse⟩) ∧
    typeBytes.length = 88 ∧ ∀ a < 0x100000, ∃! b, b ∈ typeBytes ∧ b.Holds a := by
  have hbits := forBits_of_new hc
  have hanswer := answer_setAttributes_low (m := m) hbits hpos hlow type
  refine ⟨hanswer, fun m' hrun => ?_, length_typeBytes, fun a => existsUnique_typeByte⟩
  have hends : base.toNat % granularity base.toNat = 0 ∧
      (base.toNat + length.toNat) % granularity (base.toNat + length.toNat) = 0 := by
    refine Decidable.byContradiction fun hends => ?_
    rw [if_neg hends, Step.answer, hrun] at hanswer
    cases hanswer
  obtain ⟨hbase, hlength⟩ := pages_of_boundaries hends.1 hends.2
  rw [setAttributes_low hbits hbase hlength hpos hlow, if_pos hends] at hrun
  cases hrun
  have hset := lanesSet_paint base.toNat (base.toNat + length.toNat) type m
  refine ⟨fun b hb => ?_, hset.other, ?_⟩
  · obtain ⟨hregister, hlane⟩ := mem_typeBytes.mp hb
    exact hset.lanes b.register hregister b.lane hlane
  · rw [Step.after_congr (setAttributes_eq_setFixed c.noting ⟨m, []⟩ hbase hlength hpos hlow type),
      setFixed_noting hbits]

theorem setAttributes_exact_conventional : ∃ c m', Controller.new Msrs.access 36 = .ok c ∧
    (0 : UInt64).toNat + (0xA0000 : UInt64).toNat ≤ 0x100000 ∧
    c.setAttributes 0 0xA0000 .writeBack singlePair = .ok () m' ∧
    TypeByte.type m' ⟨⟨0x258, 0x80000, 0x4000⟩, 7⟩ = CacheType.writeBack.code ∧
    TypeByte.type m' ⟨⟨0x259, 0xA0000, 0x4000⟩, 0⟩ = CacheType.uncacheable.code ∧
    (Step.after (c.noting.setAttributes 0 0xA0000 .writeBack) ⟨singlePair, []⟩).calls.map Prod.fst =
      [0x258, 0x250] := by
  have hnew : Controller.new Msrs.access 36 = .ok ⟨Msrs.access, 0xFFFFFF000⟩ := rfl
  have hlow : (0 : UInt64).toNat + (0xA0000 : UInt64).toNat ≤ 0x100000 := by decide
  obtain ⟨hanswer, hset, -⟩ := setAttributes_exact hnew singlePair .writeBack (by decide) hlow
  rw [if_pos (by decide)] at hanswer
  obtain ⟨m', hrun⟩ := Step.answer_eq_ok.mp hanswer
  obtain ⟨htypes, -, hwrites⟩ := hset m' hrun
  refine ⟨_, m', hnew, hlow, hrun, ?_, ?_, ?_⟩
  · exact htypes ⟨⟨0x258, 0x80000, 0x4000⟩, 7⟩ (mem_typeBytes.mpr ⟨by simp [fixedRegisters], by decide⟩)
  · exact htypes ⟨⟨0x259, 0xA0000, 0x4000⟩, 0⟩ (mem_typeBytes.mpr ⟨by simp [fixedRegisters], by decide⟩)
  · rw [hwrites]
    rfl

end Mtrr
end PlatformInit
