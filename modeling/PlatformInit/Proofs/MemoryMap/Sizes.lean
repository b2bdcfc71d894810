import PlatformInit.Proofs.MemoryMap.Tiling

/-!
The sizes that a chipset reports, counted in bytes, and what machine words keep of them.

`lowBytes`, `highBytes` and `tsegBytes` count without a bound. Memory above 4 GiB always fits its word.
Low memory that does not fit stops the machine; of a TSEG that does not fit the low bits are left, and
detection goes on with these. `detect_sizes` says when a layout is found and how it divides low memory.
-/
set_option autoImplicit false
namespace PlatformInit

/-- The bytes below 4 GiB that CMOS counts: units of 64 KiB above 16 MiB. -/
def lowBytes (cells : UInt8 → UInt8) : Nat :=
  0x1000000 + 0x10000 * (0x100 * (cells 0x35).toNat + (cells 0x34).toNat)

def highBytes (cells : UInt8 → UInt8) : Nat :=
  0x10000 * (0x10000 * (cells 0x5d).toNat + 0x100 * (cells 0x5c).toNat + (cells 0x5b).toNat)

/-- The bytes of TSEG when the chipset answers `mbytes`. -/
def tsegBytes (config : LayoutConfig) (mbytes : UInt16) : Nat :=
  if mbytes = tsegQuery then config.defaultTsegSize.toNat else 0x100000 * mbytes.toNat

/-! ### Words put together from bytes -/

theorem toNat_lowUnits (high low : UInt8) : ((high.toUInt32 <<< 8 ||| low.toUInt32) <<< 16).toNat =
    0x10000 * (0x100 * high.toNat + low.toNat) := by
  have hhigh := high.toNat_lt
  have hlow := low.toNat_lt
  have hshift (n k : Nat) (h : n * 2 ^ k < 2 ^ 32) : n <<< k % 2 ^ 32 = n * 2 ^ k := by
    rw [Nat.shiftLeft_eq, Nat.mod_eq_of_lt h]
  have hunits : (high.toUInt32 <<< 8 ||| low.toUInt32).toNat = 0x100 * high.toNat + low.toNat := by
    rw [UInt32.toNat_or, UInt32.toNat_shiftLeft, UInt8.toNat_toUInt32, UInt8.toNat_toUInt32]
    change high.toNat <<< 8 % 2 ^ 32 ||| low.toNat = _
    rw [hshift _ 8 (by omega), ← Nat.shiftLeft_eq, ← Nat.shiftLeft_add_eq_or_of_lt hlow, Nat.shiftLeft_eq,
      Nat.mul_comm]
  rw [UInt32.toNat_shiftLeft, hunits]
  exact (hshift _ 16 (by omega)).trans (Nat.mul_comm ..)

theorem toNat_highUnits (high mid low : UInt8) :
    ((high.toUInt64 <<< 16 ||| mid.toUInt64 <<< 8 ||| low.toUInt64) <<< 16).toNat =
      0x10000 * (0x10000 * high.toNat + 0x100 * mid.toNat + low.toNat) := by
  have hhigh := high.toNat_lt
  have hmid := mid.toNat_lt
  have hlow := low.toNat_lt
  have hshift (n k : Nat) (h : n * 2 ^ k < 2 ^ 64) : n <<< k % 2 ^ 64 = n * 2 ^ k := by
    rw [Nat.shiftLeft_eq, Nat.mod_eq_of_lt h]
  have hupper : high.toNat * 2 ^ 16 ||| mid.toNat * 2 ^ 8 = (0x100 * high.toNat + mid.toNat) * 2 ^ 8 := by
    rw [← Nat.shiftLeft_eq, ← Nat.shiftLeft_add_eq_or_of_lt (show mid.toNat * 2 ^ 8 < 2 ^ 16 by omega),
      Nat.shiftLeft_eq]
    omega
  have hunits : (high.toUInt64 <<< 16 ||| mid.toUInt64 <<< 8 ||| low.toUInt64).toNat =
      0x10000 * high.toNat + 0x100 * mid.toNat + low.toNat := by
    rw [UInt64.toNat_or, UInt64.toNat_or, UInt64.toNat_shiftLeft, UInt64.toNat_shiftLeft,
      UInt8.toNat_toUInt64, UInt8.toNat_toUInt64, UInt8.toNat_toUInt64]
    change high.toNat <<< 16 % 2 ^ 64 ||| mid.toNat <<< 8 % 2 ^ 64 ||| low.toNat = _
    rw [hshift _ 16 (by omega), hshift _ 8 (by omega), hupper, ← Nat.shiftLeft_eq,
      ← Nat.shiftLeft_add_eq_or_of_lt hlow, Nat.shiftLeft_eq]
    omega
  rw [UInt64.toNat_shiftLeft, hunits]
  exact (hshift _ 16 (by omega)).trans (Nat.mul_comm ..)

theorem toUInt32_shiftLeft_20 (n : UInt16) : n.toUInt32 <<< 20 = .ofNat (0x100000 * n.toNat) := by
  apply UInt32.toNat_inj.mp
  rw [UInt32.toNat_shiftLeft, UInt16.toNat_toUInt32, UInt32.toNat_ofNat', Nat.mul_comm]
  exact congrArg (· % 2 ^ 32) (Nat.shiftLeft_eq ..)

theorem toUInt16_shiftRight_20 (n : UInt32) : (n >>> 20).toUInt16 = .ofNat (n.toNat / 0x100000) := by
  apply UInt16.toNat_inj.mp
  rw [UInt32.toNat_toUInt16, UInt32.toNat_shiftRight, UInt16.toNat_ofNat']
  exact congrArg (· % 2 ^ 16) (Nat.shiftRight_eq_div_pow ..)

theorem highBytes_lt (cells : UInt8 → UInt8) : highBytes cells < UInt64.size := by
  have hhigh := (cells 0x5d).toNat_lt
  have hmid := (cells 0x5c).toNat_lt
  have hlow := (cells 0x5b).toNat_lt
  rw [highBytes, UInt64.size]
  omega

/-! ### The sizes that are read -/

namespace Chipset

variable {ω ε : Type} {c : Chipset ω} {cells : UInt8 → UInt8} {mbytes : UInt16}

/-- In every state the CMOS of the chipset holds `cells`, and a question for its extended TSEG is
answered with `mbytes`. -/
structure Holds (c : Chipset ω) (cells : UInt8 → UInt8) (mbytes : UInt16) : Prop where
  cmos : ∀ index w, (c.readCmos index w).1 = cells index
  tseg : ∀ w, (c.queryTseg w).1 = mbytes

section
variable (hc : c.Holds cells mbytes) (w : ω)
include hc

theorem cmos_eq (index : UInt8) : ∃ w', (c.cmos index : Step ω ε UInt8) w = .ok (cells index) w' := by
  rw [← hc.cmos index w]
  exact ⟨_, rfl⟩

theorem lowMemory_eq : ∃ w', (c.lowMemory : Step ω ε UInt32) w =
    if lowBytes cells < UInt32.size then .ok (.ofNat (lowBytes cells)) w'
    else .error (.halt .overflow) w' := by
  obtain ⟨w₁, hhigh⟩ := cmos_eq hc w 0x35
  obtain ⟨w₂, hlow⟩ := cmos_eq hc w₁ 0x34
  let units := ((cells 0x35).toUInt32 <<< 8 ||| (cells 0x34).toUInt32) <<< 16
  have hsum : units.toNat + (0x1000000 : UInt32).toNat = lowBytes cells := by
    rw [toNat_lowUnits, lowBytes, Nat.add_comm]
    rfl
  refine ⟨w₂, ?_⟩
  rw [lowMemory, Step.bind_of_ok hhigh, Step.bind_of_ok hlow]
  change Step.ofHalting (add32 units 0x1000000) w₂ = _
  split
  · rename_i hfits
    have hword : add32 units 0x1000000 = .ok (.ofNat (lowBytes cells)) :=
      add32_eq_ok_iff.mpr ((UInt32.toNat_ofNat_of_lt' hfits).trans hsum.symm)
    rw [hword]
    rfl
  · rename_i hfits
    exact Step.ofHalting_of_error (if_neg (by rwa [hsum]))

theorem highMemory_eq : ∃ w', (c.highMemory : Step ω ε UInt64) w = .ok (.ofNat (highBytes cells)) w' := by
  obtain ⟨w₁, hhigh⟩ := cmos_eq hc w 0x5d
  obtain ⟨w₂, hmid⟩ := cmos_eq hc w₁ 0x5c
  obtain ⟨w₃, hlow⟩ := cmos_eq hc w₂ 0x5b
  refine ⟨w₃, ?_⟩
  rw [highMemory, Step.bind_of_ok hhigh, Step.bind_of_ok hmid, Step.bind_of_ok hlow, highBytes,
    ← toNat_highUnits, UInt64.ofNat_toNat]
  rfl

theorem tsegSize_eq (config : LayoutConfig) : (c.tsegSize config : Step ω ε UInt32) w =
    .ok (.ofNat (tsegBytes config mbytes)) (if mbytes = tsegQuery
      then c.writeTseg (.ofNat (config.defaultTsegSize.toNat / 0x100000)) (c.queryTseg w).2
      else (c.queryTseg w).2) := by
  have hanswer := hc.tseg w
  rw [tsegSize, tsegBytes, ← hanswer]
  dsimp only
  split
  · rw [UInt32.ofNat_toNat, toUInt16_shiftRight_20]
  · rw [toUInt32_shiftLeft_20]

end

end Chipset

/-! ### The layout -/

namespace MemoryLayout

variable {ω : Type} {c : Chipset ω} {cells : UInt8 → UInt8} {mbytes : UInt16}

/-- The layout has the sizes that were read, of TSEG what a word keeps, and its parts end where the next
one begins. -/
structure Measured (l : MemoryLayout) (config : LayoutConfig) (cells : UInt8 → UInt8) (mbytes : UInt16) :
    Prop where
  low : l.lowLength.toNat = lowBytes cells
  high : l.highLength.toNat = highBytes cells
  tseg : l.tsegSize.toNat = tsegBytes config mbytes % UInt32.size
  reserved : l.reservedSize = config.reservedLength
  carved : Carved l

theorem detect_of_reads {config : LayoutConfig} {w w₁ w₂ w₃ : ω} {low tseg : UInt32} {high : UInt64}
    (hlow : (c.lowMemory : Step ω BootError UInt32) w = .ok low w₁)
    (hhigh : (c.highMemory : Step ω BootError UInt64) w₁ = .ok high w₂)
    (htseg : (c.tsegSize config : Step ω BootError UInt32) w₂ = .ok tseg w₃) : detect c config w =
      if tseg.toNat + config.reservedLength.toNat < low.toNat
      then .ok ⟨low, high, low - tseg, tseg, low - tseg - config.reservedLength, config.reservedLength⟩ w₃
      else .error (.error .configurationInvalid) w₃ := by
  rw [detect, Step.bind_of_ok hlow, Step.bind_of_ok hhigh, Step.bind_of_ok htseg]
  by_cases hroom : tseg.toNat + config.reservedLength.toNat < low.toNat
  · have hbase : sub32 low tseg = .ok (low - tseg) := if_pos (UInt32.le_iff_toNat_le.mpr (by omega))
    have hsum := sub32_eq_ok_iff.mp hbase
    have hreserved : sub32 (low - tseg) config.reservedLength = .ok (low - tseg - config.reservedLength) :=
      if_pos (UInt32.le_iff_toNat_le.mpr (by omega))
    rw [if_pos hroom, if_neg (by omega), Step.bind_of_ok (Step.ofHalting_eq_ok.mpr ⟨hbase, rfl⟩),
      Step.bind_of_ok (Step.ofHalting_eq_ok.mpr ⟨hreserved, rfl⟩)]
    rfl
  · rw [if_neg hroom, if_pos (by omega)]
    rfl

section
variable (hc : c.Holds cells mbytes) (config : LayoutConfig) (w : ω)
include hc

theorem detect_overflows (hlow : UInt32.size ≤ lowBytes cells) :
    ∃ w', detect c config w = .error (.halt .overflow) w' := by
  obtain ⟨w', hread⟩ := Chipset.lowMemory_eq hc w
  rw [if_neg (Nat.not_lt_of_le hlow)] at hread
  exact ⟨w', Step.bind_of_error hread⟩

theorem detect_decides (hlow : lowBytes cells < UInt32.size) :
    if tsegBytes config mbytes % UInt32.size + config.reservedLength.toNat < lowBytes cells
    then ∃ l w', detect c config w = .ok l w' ∧ Measured l config cells mbytes
    else ∃ w', detect c config w = .error (.error .configurationInvalid) w' := by
  obtain ⟨w₁, hlowRead⟩ := Chipset.lowMemory_eq hc w
  obtain ⟨w₂, hhighRead⟩ := Chipset.highMemory_eq hc w₁
  rw [if_pos hlow] at hlowRead
  have hrun := detect_of_reads hlowRead hhighRead (Chipset.tsegSize_eq hc w₂ config)
  have hlowWord : (UInt32.ofNat (lowBytes cells)).toNat = lowBytes cells := UInt32.toNat_ofNat_of_lt' hlow
  have hhighWord : (UInt64.ofNat (highBytes cells)).toNat = highBytes cells :=
    UInt64.toNat_ofNat_of_lt' (highBytes_lt cells)
  have htsegWord : (UInt32.ofNat (tsegBytes config mbytes)).toNat =
      tsegBytes config mbytes % UInt32.size := UInt32.toNat_ofNat'
  rw [hlowWord, htsegWord] at hrun
  split
  · rename_i hroom
    rw [if_pos hroom] at hrun
    exact ⟨_, _, hrun, hlowWord, hhighWord, htsegWord, rfl, carved_of_detect hrun⟩
  · rename_i hroom
    rw [if_neg hroom] at hrun
    exact ⟨_, hrun⟩

end

theorem tsegBytes_lt_iff (config : LayoutConfig) (mbytes : UInt16) :
    tsegBytes config mbytes < UInt32.size ↔ mbytes.toNat < 0x1000 ∨ mbytes = tsegQuery := by
  have hsize : UInt32.size = 0x100000 * 0x1000 := rfl
  unfold tsegBytes
  split
  · rename_i hquery
    exact iff_of_true config.defaultTsegSize.toNat_lt_size (Or.inr hquery)
  · rename_i hother
    rw [or_iff_left hother]
    omega

/-- High memory is read as it is counted, and low memory where it fits a word; where it does not, reading
it stops the machine. TSEG is read as it is answered below 4 GiB, and less a multiple of 4 GiB otherwise; the
default is told in whole megabytes. A layout is found just when these sizes leave room, and divides low
memory. -/
theorem detect_sizes (hc : c.Holds cells mbytes) (config : LayoutConfig) (w : ω) :
    (∃ w', (c.lowMemory : Step ω BootError UInt32) w =
      if lowBytes cells < UInt32.size then .ok (.ofNat (lowBytes cells)) w'
      else .error (.halt .overflow) w') ∧
    (∃ high w', (c.highMemory : Step ω BootError UInt64) w = .ok high w' ∧
      high.toNat = highBytes cells) ∧
    (∃ size told, (c.tsegSize config : Step ω BootError UInt32) w = .ok size (if mbytes = tsegQuery
        then c.writeTseg told (c.queryTseg w).2 else (c.queryTseg w).2) ∧
      size.toNat = tsegBytes config mbytes % UInt32.size ∧
      told.toNat = config.defaultTsegSize.toNat / 0x100000) ∧
    (tsegBytes config mbytes < UInt32.size ↔ mbytes.toNat < 0x1000 ∨ mbytes = tsegQuery) ∧
    (lowBytes cells < UInt32.size →
      ((∃ l w', detect c config w = .ok l w') ↔
        tsegBytes config mbytes % UInt32.size + config.reservedLength.toNat < lowBytes cells) ∧
      (∀ l w', detect c config w = .ok l w' → Measured l config cells mbytes) ∧
      ∀ why w', detect c config w = .error why w' → why = .error .configurationInvalid) ∧
    (UInt32.size ≤ lowBytes cells → ∃ w', detect c config w = .error (.halt .overflow) w') := by
  refine ⟨Chipset.lowMemory_eq hc w, ?high, ?tseg, tsegBytes_lt_iff config mbytes, fun hlow => ?decides,
    detect_overflows hc config w⟩
  case high =>
    obtain ⟨w', hread⟩ := Chipset.highMemory_eq hc w
    exact ⟨_, w', hread, UInt64.toNat_ofNat_of_lt' (highBytes_lt cells)⟩
  case tseg =>
    have hdefault := config.defaultTsegSize.toNat_lt
    refine ⟨_, _, Chipset.tsegSize_eq hc w config, UInt32.toNat_ofNat', UInt16.toNat_ofNat_of_lt' ?_⟩
    rw [UInt16.size]
    omega
  case decides =>
    have hdecides := detect_decides hc config w hlow
    split at hdecides
    · rename_i hroom
      obtain ⟨l, w', hrun, hmeasured⟩ := hdecides
      refine ⟨iff_of_true ⟨l, w', hrun⟩ hroom, fun l' w'' h => ?_, fun why w'' h => ?_⟩
      · rw [hrun] at h
        cases h
        exact hmeasured
      · rw [hrun] at h
        cases h
    · rename_i hroom
      obtain ⟨w', hrun⟩ := hdecides
      simp only [hrun]
      refine ⟨iff_of_false nofun hroom, nofun, fun why w'' h => ?_⟩
      cases h
      rfl

/-- A chipset whose CMOS holds `cells`; its state is the sizes it was told for TSEG. -/
def told (cells : UInt8 → UInt8) (mbytes : UInt16) : Chipset (List UInt16) where
  readCmos index w := (cells index, w)
  queryTseg w := (mbytes, w)
  writeTseg size w := size :: w

def threeGiBCells (index : UInt8) : UInt8 :=
  if index = 0x35 then 0x7F else if index = 0x5c then 0x40 else 0

theorem detect_sizes_default : (told threeGiBCells tsegQuery).Holds threeGiBCells tsegQuery ∧
    ∃ l w', detect (told threeGiBCells tsegQuery) {} [] = .ok l w' ∧
      l.tsegBase.toNat + l.tsegSize.toNat = 0x80000000 ∧ l.highLength.toNat = 0x40000000 := by
  have hholds : (told threeGiBCells tsegQuery).Holds threeGiBCells tsegQuery := ⟨fun _ _ => rfl, fun _ => rfl⟩
  obtain ⟨-, -, -, -, hdecides, -⟩ := detect_sizes hholds {} []
  obtain ⟨hfound, hmeasured, -⟩ := hdecides (by decide)
  obtain ⟨l, w', hrun⟩ := hfound.mpr (by decide)
  have hl := hmeasured l w' hrun
  exact ⟨hholds, l, w', hrun, hl.carved.tseg.trans hl.low, hl.high⟩

/-- A TSEG of 4 GiB is read as none at all, so that 2 GiB of low memory seem to have room for it. -/
theorem large_tseg_lost : tsegBytes {} 0x1000 = 0x100000000 ∧ lowBytes threeGiBCells = 0x80000000 ∧
    detect (told threeGiBCells 0x1000) {} [] =
      .ok ⟨0x80000000, 0x40000000, 0x80000000, 0, 0x7FC00000, 0x400000⟩ [] :=
  ⟨rfl, rfl, rfl⟩

end MemoryLayout
end PlatformInit
