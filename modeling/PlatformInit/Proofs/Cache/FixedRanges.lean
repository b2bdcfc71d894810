import PlatformInit.Proofs.Cache.Registers

/-!
Which ranges below 1 MiB the fixed-range registers can take.

Their type bytes stand for sub-ranges that follow one another from zero to 1 MiB. The sub-ranges inside a
range make it up when no sub-range crosses an end of it, and that is a matter of the unit of the
registers at the two ends.
-/
set_option autoImplicit false
namespace PlatformInit.Mtrr

/-- The sub-ranges that the type bytes of a register stand for, each with its length. -/
def FixedRegister.subRanges (r : FixedRegister) : List (Nat × Nat) :=
  (List.range 8).map fun i => (r.start + i * r.unit, r.unit)

def subRanges : List (Nat × Nat) := fixedRegisters.flatMap FixedRegister.subRanges

/-- The unit of the fixed-range registers at an address. -/
def granularity (a : Nat) : Nat := if a < 0x80000 then 0x10000 else if a < 0xC0000 then 0x4000 else 0x1000

def Consecutive : Nat → List (Nat × Nat) → Nat → Prop
  | lo, [], hi => lo = hi
  | lo, s :: rest, hi => s.1 = lo ∧ 0 < s.2 ∧ Consecutive (lo + s.2) rest hi

instance decideConsecutive : (lo : Nat) → (ss : List (Nat × Nat)) → (hi : Nat) →
    Decidable (Consecutive lo ss hi)
  | lo, [], hi => inferInstanceAs (Decidable (lo = hi))
  | lo, s :: rest, hi =>
    have := decideConsecutive (lo + s.2) rest hi
    inferInstanceAs (Decidable (s.1 = lo ∧ 0 < s.2 ∧ Consecutive (lo + s.2) rest hi))

theorem consecutive_subRanges : Consecutive 0 subRanges 0x100000 := by decide +kernel

/-! ### Lengths -/

/-- What of a sub-range counts: all of it when it lies in `[base, stop)`, otherwise nothing. -/
def inside (base stop : Nat) (s : Nat × Nat) : Nat := if base ≤ s.1 ∧ s.1 + s.2 ≤ stop then s.2 else 0

def overlap (base stop : Nat) (s : Nat × Nat) : Nat := min stop (s.1 + s.2) - max base s.1

theorem lanes_size (r : FixedRegister) (base stop : Nat) :
    (r.lanes base stop).length * r.unit = (r.subRanges.map (inside base stop)).sum := by
  rw [FixedRegister.lanes, FixedRegister.subRanges, List.map_map]
  induction List.range 8 with
  | nil => exact Nat.zero_mul _
  | cons i is ih =>
    rw [List.filter_cons, List.map_cons, List.sum_cons, ← ih, Function.comp, inside]
    by_cases hin : base ≤ r.start + i * r.unit ∧ r.start + i * r.unit + r.unit ≤ stop
    · rw [if_pos (decide_eq_true hin), if_pos hin, List.length_cons, Nat.succ_mul, Nat.add_comm]
    · rw [if_neg (by rwa [decide_eq_true_eq]), if_neg hin, Nat.zero_add]

theorem lanesSize_eq (base stop : Nat) (rs : List FixedRegister) :
    lanesSize base stop rs = ((rs.flatMap FixedRegister.subRanges).map (inside base stop)).sum := by
  induction rs with
  | nil => rfl
  | cons r rs ih =>
    rw [lanesSize, List.map_cons, List.sum_cons, List.flatMap_cons, List.map_append, List.sum_append,
      lanes_size, ← ih, lanesSize]

section
variable {base stop : Nat}

theorem inside_le (s : Nat × Nat) : inside base stop s ≤ overlap base stop s := by
  rw [inside, overlap]
  split <;> omega

theorem sum_inside_le (ss : List (Nat × Nat)) :
    (ss.map (inside base stop)).sum ≤ (ss.map (overlap base stop)).sum := by
  induction ss with
  | nil => exact Nat.le_refl _
  | cons s ss ih => exact Nat.add_le_add (inside_le s) ih

theorem sum_inside_eq_iff {ss : List (Nat × Nat)} :
    (ss.map (inside base stop)).sum = (ss.map (overlap base stop)).sum ↔
      ∀ s ∈ ss, inside base stop s = overlap base stop s := by
  induction ss with
  | nil => simp
  | cons s ss ih =>
    have hs : inside base stop s ≤ overlap base stop s := inside_le s
    have hss : (ss.map (inside base stop)).sum ≤ (ss.map (overlap base stop)).sum := sum_inside_le ss
    rw [List.forall_mem_cons, ← ih, List.map_cons, List.map_cons, List.sum_cons, List.sum_cons]
    omega

end

namespace Consecutive
variable {lo hi base stop : Nat} {ss : List (Nat × Nat)}

theorem le (h : Consecutive lo ss hi) : lo ≤ hi := by
  induction ss generalizing lo with
  | nil => exact Nat.le_of_eq h
  | cons s ss ih =>
    have := ih h.2.2
    omega

theorem sum_overlap (h : Consecutive lo ss hi) (hrange : base ≤ stop) :
    (ss.map (overlap base stop)).sum = min stop hi - max base lo := by
  induction ss generalizing lo with
  | nil =>
    obtain rfl : lo = hi := h
    rw [List.map_nil, List.sum_nil]
    omega
  | cons s ss ih =>
    obtain ⟨hstart, -, hrest⟩ := h
    have hle := hrest.le
    rw [List.map_cons, List.sum_cons, ih hrest, overlap]
    omega

theorem exists_mem (h : Consecutive lo ss hi) {a : Nat} (hlo : lo ≤ a) (hhi : a < hi) :
    ∃ s ∈ ss, s.1 ≤ a ∧ a < s.1 + s.2 := by
  induction ss generalizing lo with
  | nil =>
    obtain rfl : lo = hi := h
    omega
  | cons s ss ih =>
    obtain ⟨hstart, -, hrest⟩ := h
    by_cases hin : a < lo + s.2
    · exact ⟨s, List.mem_cons_self, by omega, by omega⟩
    · obtain ⟨t, ht, hat⟩ := ih hrest (by omega)
      exact ⟨t, List.mem_cons_of_mem _ ht, hat⟩

end Consecutive

/-! ### Boundaries -/

theorem granularity_of_mem {s : Nat × Nat} (hs : s ∈ subRanges) {a : Nat} (hle : s.1 ≤ a)
    (hlt : a < s.1 + s.2) : granularity a = s.2 ∧ s.1 % s.2 = 0 := by
  have hshape : ∀ s ∈ subRanges, s.1 % s.2 = 0 ∧ (s.2 = 0x10000 ∧ s.1 + s.2 ≤ 0x80000 ∨
      s.2 = 0x4000 ∧ 0x80000 ≤ s.1 ∧ s.1 + s.2 ≤ 0xC0000 ∨ s.2 = 0x1000 ∧ 0xC0000 ≤ s.1) := by decide
  obtain ⟨hmod, hunit⟩ := hshape s hs
  refine ⟨?_, hmod⟩
  rcases hunit with ⟨hunit, hlast⟩ | ⟨hunit, hfirst, hlast⟩ | ⟨hunit, hfirst⟩
  · rw [granularity, if_pos (by omega), hunit]
  · rw [granularity, if_neg (by omega), if_pos (by omega), hunit]
  · rw [granularity, if_neg (by omega), if_neg (by omega), hunit]

theorem boundary_iff {a : Nat} (ha : a ≤ 0x100000) : a % granularity a = 0 ↔
    ∀ s ∈ subRanges, ¬(s.1 < a ∧ a < s.1 + s.2) := by
  constructor
  · rintro hmod s hs ⟨hlt, hend⟩
    obtain ⟨hunit, hstart⟩ := granularity_of_mem hs (Nat.le_of_lt hlt) hend
    rw [hunit] at hmod
    have hdvd := (Nat.dvd_sub (Nat.dvd_of_mod_eq_zero hmod) (Nat.dvd_of_mod_eq_zero hstart))
    exact absurd (Nat.le_of_dvd (by omega) hdvd) (by omega)
  · intro hfree
    by_cases hlast : a = 0x100000
    · subst hlast
      decide
    · obtain ⟨s, hs, hle, hend⟩ := consecutive_subRanges.exists_mem (Nat.zero_le a) (by omega)
      obtain ⟨hunit, hstart⟩ := granularity_of_mem hs hle hend
      obtain rfl : a = s.1 := by
        have := hfree s hs
        omega
      rw [hunit, hstart]

/-- The type bytes inside a range make it up exactly when both its ends are multiples of the unit there. -/
theorem lanesSize_eq_iff {base stop : Nat} (hrange : base < stop) (hstop : stop ≤ 0x100000) :
    base + lanesSize base stop fixedRegisters = stop ↔
      base % granularity base = 0 ∧ stop % granularity stop = 0 := by
  have hsum := consecutive_subRanges.sum_overlap (Nat.le_of_lt hrange)
  have hequal : base + lanesSize base stop fixedRegisters = stop ↔
      ∀ s ∈ subRanges, inside base stop s = overlap base stop s := by
    rw [← sum_inside_eq_iff, hsum, lanesSize_eq]
    change base + (subRanges.map (inside base stop)).sum = stop ↔ _
    omega
  rw [hequal, boundary_iff (by omega), boundary_iff hstop]
  constructor
  · intro hall
    constructor
    · intro s hs hcrossed
      have := hall s hs
      rw [inside, overlap] at this
      split at this <;> omega
    · intro s hs hcrossed
      have := hall s hs
      rw [inside, overlap] at this
      split at this <;> omega
  · rintro ⟨hbase, hend⟩ s hs
    have hfirst := hbase s hs
    have hlast := hend s hs
    rw [inside, overlap]
    split <;> omega

end PlatformInit.Mtrr
