import PlatformInit.Proofs.Cache.MemoryMap

/-!
Which variable pairs the pieces of a range go into.

The pieces and the free pairs are both taken in ascending order, so that piece by piece and pair by
pair they belong together. `setPieces_eq` says what is in the registers then, and that the pieces are
refused exactly when there are more of them than free pairs.
-/
set_option autoImplicit false
namespace PlatformInit.Mtrr

def freeFrom (m : Msrs) (next : Nat) : List Nat :=
  (List.range' next (pairCount m - next)).filter fun slot => !inUse m slot

/-- The pairs that are not in use, in ascending order. -/
def freePairs (m : Msrs) : List Nat := freeFrom m 0

/-- The registers after each piece was written to its pair. -/
def withPieces (c : Controller Msrs) (type : CacheType) (m : Msrs) (placed : List (Nat × Nat × Nat)) :
    Msrs :=
  placed.foldl (fun m p =>
    withPair m p.1 (UInt64.ofNat p.2.1 ||| type.code.toUInt64) (c.maskFor p.2.2)) m

section
variable {m : Msrs} {next slot : Nat}

theorem mem_freeFrom : slot ∈ freeFrom m next ↔
    next ≤ slot ∧ slot < pairCount m ∧ inUse m slot = false := by
  have hrange : next ≤ slot ∧ slot < next + (pairCount m - next) ↔ next ≤ slot ∧ slot < pairCount m := by
    omega
  rw [freeFrom, List.mem_filter, List.mem_range'_1, Bool.not_eq_true', hrange, and_assoc]

theorem freeFrom_pairwise (m : Msrs) (next : Nat) : (freeFrom m next).Pairwise (· < ·) :=
  List.Pairwise.filter _ List.pairwise_lt_range'

theorem freeFrom_of_head? (h : (freeFrom m next).head? = some slot) :
    freeFrom m next = slot :: freeFrom m (slot + 1) := by
  generalize hd : pairCount m - next = d
  induction d generalizing next with
  | zero =>
    rw [freeFrom, hd] at h
    cases h
  | succ d ih =>
    have hlist : freeFrom m next = if inUse m next = false then next :: freeFrom m (next + 1)
        else freeFrom m (next + 1) := by
      rw [freeFrom, hd, List.range'_succ, List.filter_cons, freeFrom,
        show pairCount m - (next + 1) = d by omega]
      simp only [Bool.not_eq_true']
    rw [hlist] at h ⊢
    split at h
    · rename_i hfree
      rw [if_pos hfree]
      cases h
      rfl
    · rename_i hused
      rw [if_neg hused]
      exact ih h (by omega)

end

section
variable {bits : Nat} {c : Controller Msrs} {type : CacheType}

theorem freeSlot?_eq (hc : c.ForBits bits) (m : Msrs) (next : Nat) :
    c.freeSlot? m next (pairCount m) = (freeFrom m next).head? := by
  have hfree : c.isFree m = fun slot => !inUse m slot := by
    funext slot
    rw [Controller.isFree, hc.msrs, inUse, bne, Bool.not_not]
    rfl
  rw [Controller.freeSlot?, hfree, freeFrom, List.head?_filter]

theorem freeFrom_withPair {m : Msrs} {slot next : Nat} (hcount : pairCount m ≤ pairLimit)
    (hslot : slot < pairCount m) (hlt : slot < next) (base mask : UInt64) :
    pairCount (withPair m slot base mask) = pairCount m ∧
      freeFrom (withPair m slot base mask) next = freeFrom m next := by
  have hlimit : slot < pairLimit := Nat.lt_of_lt_of_le hslot hcount
  have hpairs : pairCount (withPair m slot base mask) = pairCount m := by
    rw [pairCount, withPair_capability hlimit, pairCount]
  refine ⟨hpairs, ?_⟩
  rw [freeFrom, freeFrom, hpairs]
  apply List.filter_congr
  intro i hi
  have hi' := List.mem_range'_1.mp hi
  have hmask : withPair m slot base mask (maskRegister (.ofNat i)) = m (maskRegister (.ofNat i)) :=
    (withPair_of_ne hlimit (by omega) (by omega)).2
  rw [inUse, inUse, hmask]

theorem setPieces_eq (hc : c.ForBits bits) (type : CacheType) (ps : List (Nat × Nat)) (next : Nat)
    {m : Msrs} {limit : Nat} (hcount : pairCount m ≤ limit) (hlimit : limit ≤ pairLimit := by decide) :
    c.setPieces type (pairCount m) ps next m =
      if ps.length ≤ (freeFrom m next).length
        then .ok () (withPieces c type m ((freeFrom m next).zip ps))
        else .error (.error .outOfResources) (withPieces c type m ((freeFrom m next).zip ps)) := by
  induction ps generalizing next m with
  | nil =>
    rw [if_pos (show ([] : List (Nat × Nat)).length ≤ _ from Nat.zero_le _), List.zip_nil_right]
    rfl
  | cons p ps ih =>
    obtain ⟨base, size⟩ := p
    rw [Controller.setPieces, Step.bind_of_ok (Step.get_eq_ok.mpr ⟨rfl, rfl⟩), freeSlot?_eq hc]
    cases hhead : (freeFrom m next).head? with
    | none =>
      rw [List.head?_eq_none_iff.mp hhead, List.zip_nil_left, List.length_cons, List.length_nil,
        if_neg (Nat.not_succ_le_zero _)]
      rfl
    | some slot =>
      -- The search goes on behind `slot`, where the write to it changes nothing.
      have hlist := freeFrom_of_head? hhead
      obtain ⟨-, hslot, -⟩ := mem_freeFrom.mp (hlist ▸ List.mem_cons_self : slot ∈ freeFrom m next)
      obtain ⟨hpairs, hrest⟩ := freeFrom_withPair (Nat.le_trans hcount hlimit) hslot (Nat.lt_succ_self slot)
        (UInt64.ofNat base ||| type.code.toUInt64) (c.maskFor size)
      dsimp only
      rw [Step.bind_of_ok (write_eq hc ..), Step.bind_of_ok (write_eq hc ..)]
      change c.setPieces type (pairCount m) ps (slot + 1) (withPair m slot _ _) = _
      rw [← hpairs, ih (slot + 1) (hpairs ▸ hcount), hrest, hlist, List.zip_cons_cons,
        List.length_cons, List.length_cons]
      simp only [Nat.add_le_add_iff_right]
      rfl

/-! ### The registers after the pieces were written -/

theorem withPieces_frame {m : Msrs} {placed : List (Nat × Nat × Nat)} {msr : UInt32}
    (h : ∀ p ∈ placed, msr ≠ baseRegister (.ofNat p.1) ∧ msr ≠ maskRegister (.ofNat p.1)) :
    withPieces c type m placed msr = m msr := by
  induction placed generalizing m with
  | nil => rfl
  | cons p placed ih =>
    obtain ⟨hfirst, hrest⟩ := List.forall_mem_cons.mp h
    change withPieces c type (withPair m p.1 _ _) placed msr = m msr
    rw [ih hrest, withPair, if_neg hfirst.2, if_neg hfirst.1]

theorem registers_ne {i j : Nat} (hi : i < pairLimit) (hj : j < pairLimit) (hne : i ≠ j) :
    (baseRegister (.ofNat i) ≠ baseRegister (.ofNat j) ∧
      baseRegister (.ofNat i) ≠ maskRegister (.ofNat j)) ∧
    maskRegister (.ofNat i) ≠ baseRegister (.ofNat j) ∧
      maskRegister (.ofNat i) ≠ maskRegister (.ofNat j) := by
  have hbi := toNat_baseRegister hi
  have hmi := toNat_maskRegister hi
  have hbj := toNat_baseRegister hj
  have hmj := toNat_maskRegister hj
  refine ⟨⟨fun h => ?_, fun h => ?_⟩, fun h => ?_, fun h => ?_⟩
  · rw [h] at hbi
    omega
  · rw [h] at hbi
    omega
  · rw [h] at hmi
    omega
  · rw [h] at hmi
    omega

theorem withPieces_of_mem {m : Msrs} {placed : List (Nat × Nat × Nat)} {p : Nat × Nat × Nat}
    (hbound : ∀ p ∈ placed, p.1 < pairLimit) (hdistinct : placed.Pairwise fun p q => p.1 < q.1)
    (hp : p ∈ placed) :
    withPieces c type m placed (baseRegister (.ofNat p.1)) =
        UInt64.ofNat p.2.1 ||| type.code.toUInt64 ∧
      withPieces c type m placed (maskRegister (.ofNat p.1)) = c.maskFor p.2.2 := by
  induction placed generalizing m with
  | nil => exact absurd hp List.not_mem_nil
  | cons q placed ih =>
    obtain ⟨hqbound, hbounds⟩ := List.forall_mem_cons.mp hbound
    obtain ⟨hq, hrest⟩ := List.pairwise_cons.mp hdistinct
    rcases List.mem_cons.mp hp with rfl | hmem
    · -- The pieces behind it go into other pairs and leave its registers alone.
      have hne : ∀ r ∈ placed, _ := fun r hr =>
        registers_ne hqbound (hbounds r hr) (Nat.ne_of_lt (hq r hr))
      change withPieces c type (withPair m p.1 _ _) placed _ = _ ∧
        withPieces c type (withPair m p.1 _ _) placed _ = _
      rw [withPieces_frame fun r hr => (hne r hr).1, withPieces_frame fun r hr => (hne r hr).2]
      exact withPair_self hqbound
    · exact ih hbounds hrest hmem

/-! ### A range in the variable pairs -/

/-- Pieces that make up the addresses from `base` to `stop`, one behind the other. -/
structure Tiling (base stop : Nat) (ps : List (Nat × Nat)) : Prop where
  natural : ∀ p ∈ ps, Natural p
  ascending : ps.Pairwise fun p q => p.1 + p.2 ≤ q.1
  covers : ∀ a, (∃ p ∈ ps, p.1 ≤ a ∧ a < p.1 + p.2) ↔ base ≤ a ∧ a < stop

theorem tiling_pieces {base length : Nat} (hbase : 2 ^ 12 ∣ base) (hlength : 2 ^ 12 ∣ length) :
    Tiling base (base + length) (pieces base length) where
  natural _ hp := natural_of_mem_pieces hbase hlength hp
  ascending := pieces_ascending base length
  covers _ := mem_piece_iff

/-- Each piece is in its pair. The pairs that were in use and all other registers are as before. -/
structure Placed (c : Controller Msrs) (type : CacheType) (placed : List (Nat × Nat × Nat))
    (m m' : Msrs) : Prop where
  base : ∀ p ∈ placed, m' (baseRegister (.ofNat p.1)) = UInt64.ofNat p.2.1 ||| type.code.toUInt64
  mask : ∀ p ∈ placed,
    m' (maskRegister (.ofNat p.1)) = ~~~(UInt64.ofNat p.2.2 - 1) &&& c.addressMask ||| valid
  used : ∀ slot < pairCount m, inUse m slot = true →
    m' (baseRegister (.ofNat slot)) = m (baseRegister (.ofNat slot)) ∧
      m' (maskRegister (.ofNat slot)) = m (maskRegister (.ofNat slot))
  other : ∀ msr, (∀ p ∈ placed, msr ≠ baseRegister (.ofNat p.1) ∧ msr ≠ maskRegister (.ofNat p.1)) →
    m' msr = m msr

theorem zip_pairwise {slots : List Nat} (h : slots.Pairwise (· < ·)) (ps : List (Nat × Nat)) :
    (slots.zip ps).Pairwise fun p q => p.1 < q.1 := by
  induction slots generalizing ps with
  | nil => exact .nil
  | cons slot slots ih =>
    obtain ⟨hslot, hrest⟩ := List.pairwise_cons.mp h
    cases ps with
    | nil => exact .nil
    | cons p ps => exact .cons (fun q hq => hslot q.1 (List.of_mem_zip hq).1) (ih hrest ps)

theorem placed_withPieces {m : Msrs} {limit : Nat} (hcount : pairCount m ≤ limit) (ps : List (Nat × Nat))
    (hlimit : limit ≤ pairLimit := by decide) :
    Placed c type ((freePairs m).zip ps) m (withPieces c type m ((freePairs m).zip ps)) := by
  have hfree : ∀ p ∈ (freePairs m).zip ps, p.1 < pairCount m ∧ inUse m p.1 = false := fun p hp =>
    (mem_freeFrom.mp (List.of_mem_zip hp).1).2
  have hcount := Nat.le_trans hcount hlimit
  have hbound : ∀ p ∈ (freePairs m).zip ps, p.1 < pairLimit := fun p hp =>
    Nat.lt_of_lt_of_le (hfree p hp).1 hcount
  have hordered := zip_pairwise (freeFrom_pairwise m 0) ps
  refine ⟨fun p hp => (withPieces_of_mem hbound hordered hp).1,
    fun p hp => (withPieces_of_mem hbound hordered hp).2, fun slot hslot hused => ?_,
    fun msr hmsr => withPieces_frame hmsr⟩
  have hne : ∀ p ∈ (freePairs m).zip ps, _ := fun p hp =>
    registers_ne (Nat.lt_of_lt_of_le hslot hcount) (hbound p hp) fun heq => by
      have := (hfree p hp).2
      rw [← heq, hused] at this
      cases this
  exact ⟨withPieces_frame fun p hp => (hne p hp).1, withPieces_frame fun p hp => (hne p hp).2⟩

theorem setAttributes_eq_setPieces (hc : c.ForBits bits) {base length : UInt64} {m : Msrs}
    (hbase : base % pageSize = 0) (hlength : length % pageSize = 0) (hpos : length ≠ 0)
    (hlow : size1M.toNat < base.toNat + length.toNat)
    (hhigh : base.toNat + length.toNat < UInt64.size) (type : CacheType) :
    c.setAttributes base length type m =
      c.setPieces type (pairCount m) (pieces base.toNat length.toNat) 0 m := by
  have hstop : add64 base length = .ok (base + length) := if_pos hhigh
  have hsum := add64_eq_ok_iff.mp hstop
  rw [Controller.setAttributes, if_neg (by simp [hbase, hlength, hpos]), hstop]
  change (if base + length ≤ size1M then _ else _ : Step Msrs EfiError Unit) m = _
  rw [if_neg fun hle => by have := UInt64.le_iff_toNat_le.mp hle; omega,
    Step.bind_of_ok (Step.get_eq_ok.mpr ⟨rfl, rfl⟩), slotCount_eq hc]

/-- A range of whole pages that ends above 1 MiB is split into naturally aligned powers of two that
tile it. They are accepted when there are as many free pairs, and are then in the first of these, one
each, so that an address matches a pair when it lies in its piece. -/
theorem setAttributes_tiles {width : UInt8} {c : Controller Msrs} {m : Msrs} {base length : UInt64}
    (hc : Controller.new Msrs.access width = .ok c) (hcount : pairCount m ≤ 40)
    (hbase : base % pageSize = 0) (hlength : length % pageSize = 0) (hpos : length ≠ 0)
    (hlow : size1M.toNat < base.toNat + length.toNat)
    (hhigh : base.toNat + length.toNat < 2 ^ 63) (type : CacheType) :
    Tiling base.toNat (base.toNat + length.toNat) (pieces base.toNat length.toNat) ∧
      if (pieces base.toNat length.toNat).length ≤ (freePairs m).length then
        ∃ m', c.setAttributes base length type m = .ok () m' ∧
          Placed c type ((freePairs m).zip (pieces base.toNat length.toNat)) m m' ∧
          (base.toNat + length.toNat ≤ 2 ^ width.toNat →
            ∀ p ∈ (freePairs m).zip (pieces base.toNat length.toNat), ∀ a < 2 ^ width.toNat,
              matchesPair width.toNat m' a p.1 = true ↔ p.2.1 ≤ a ∧ a < p.2.1 + p.2.2)
      else ∃ m', c.setAttributes base length type m = .error (.error .outOfResources) m' := by
  have hbits := forBits_of_new hc
  have htiling := tiling_pieces (dvd_of_mod_pageSize hbase) (dvd_of_mod_pageSize hlength)
  have hrun := setAttributes_eq_setPieces (m := m) hbits hbase hlength hpos hlow
    (Nat.lt_trans hhigh (by decide)) type
  rw [setPieces_eq hbits type _ 0 hcount] at hrun
  refine ⟨htiling, ?_⟩
  split
  · rename_i hroom
    have hplaced : Placed c type _ m _ := placed_withPieces hcount (pieces base.toNat length.toNat)
    refine ⟨_, hrun.trans (if_pos hroom), hplaced, fun hstop p hp a ha => ?_⟩
    have hpiece := (List.of_mem_zip hp).2
    have hend := (piece_le_stop hpiece (pos_of_mem_pieces hpiece)).2
    exact matches_piece_iff hbits (htiling.natural _ hpiece) (by omega) ha (hplaced.base p hp)
      (hplaced.mask p hp)
  · rename_i hroom
    exact ⟨_, hrun.trans (if_neg hroom)⟩

def middlePairUsed : Msrs := fun msr =>
  if msr = capability then 3 else if msr = maskRegister 1 then valid else 0

theorem setAttributes_tiles_around_used : ∃ c m', Controller.new Msrs.access 36 = .ok c ∧
    pairCount middlePairUsed ≤ 40 ∧
    c.setAttributes 0x100000000 0x60000000 .writeBack middlePairUsed = .ok () m' ∧
    m' (maskRegister 1) = valid ∧ m' (baseRegister 2) = 0x140000006 ∧
    m' (maskRegister 2) = 0xFE0000800 ∧ matchesPair 36 m' 0x15FFFFFFF 2 = true := by
  have hnew : Controller.new Msrs.access 36 = .ok ⟨Msrs.access, 0xFFFFFF000⟩ := rfl
  obtain ⟨-, hplaced⟩ := setAttributes_tiles hnew (by decide : pairCount middlePairUsed ≤ 40)
    (by decide : (0x100000000 : UInt64) % pageSize = 0) (by decide : (0x60000000 : UInt64) % pageSize = 0)
    (by decide) (by decide) (by decide) .writeBack
  have hroom : (pieces (0x100000000 : UInt64).toNat (0x60000000 : UInt64).toNat).length ≤
      (freePairs middlePairUsed).length := by decide +kernel
  have hlast : (2, 0x140000000, 0x20000000) ∈ (freePairs middlePairUsed).zip
      (pieces (0x100000000 : UInt64).toNat (0x60000000 : UInt64).toNat) := by decide +kernel
  rw [if_pos hroom] at hplaced
  obtain ⟨m', hrun, hplaced, hmatch⟩ := hplaced
  exact ⟨_, m', hnew, by decide, hrun, (hplaced.used 1 (by decide) (by decide)).2,
    (hplaced.base _ hlast).trans (by decide), (hplaced.mask _ hlast).trans (by decide),
    (hmatch (by decide) _ hlast 0x15FFFFFFF (by decide)).mpr ⟨by decide, by decide⟩⟩

end
end PlatformInit.Mtrr
