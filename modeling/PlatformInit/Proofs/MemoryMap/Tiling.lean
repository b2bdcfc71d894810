import PlatformInit.MemoryMap.Layout
import PlatformInit.MemoryMap.Totals
import PlatformInit.Proofs.Smram.Handoff
import PlatformInit.Proofs.Step

/-!
The resources that describe a layout, and what is read back from them.

`Tiles` says that ranges follow one another without a gap. The ranges up to the top of low memory tile
it, and the range above 4 GiB, if there is one, lies apart from them. The list comes back unchanged from
its bytes, so that whoever reads it there finds the same. Not every layout that is detected has a list:
`detect_publishable` says which ones do.
-/
set_option autoImplicit false
namespace PlatformInit

namespace ResourceDescriptor

def Covers (r : ResourceDescriptor) (x : Nat) : Prop :=
  r.start.toNat ≤ x ∧ x < r.start.toNat + r.length.toNat

def Apart (r s : ResourceDescriptor) : Prop := ∀ x, ¬ (r.Covers x ∧ s.Covers x)

theorem Apart.symm {r s : ResourceDescriptor} (h : Apart r s) : Apart s r := fun x hx => h x hx.symm

/-- The ranges follow one another from `lo` to `hi`. -/
def Tiles : List ResourceDescriptor → Nat → Nat → Prop
  | [], lo, hi => lo = hi
  | r :: rs, lo, hi => r.start.toNat = lo ∧ Tiles rs (lo + r.length.toNat) hi

namespace Tiles
variable {rs : List ResourceDescriptor} {lo hi : Nat}

theorem le (h : Tiles rs lo hi) : lo ≤ hi := by
  induction rs generalizing lo with
  | nil => exact Nat.le_of_eq h
  | cons r rs ih => exact Nat.le_trans (Nat.le_add_right _ _) (ih h.2)

theorem covers_iff (h : Tiles rs lo hi) (x : Nat) : (∃ r ∈ rs, r.Covers x) ↔ lo ≤ x ∧ x < hi := by
  induction rs generalizing lo with
  | nil =>
    have heq : lo = hi := h
    simp
    omega
  | cons r rs ih =>
    obtain ⟨hstart, hrest⟩ := h
    have hle := le hrest
    have hcons : (∃ s ∈ r :: rs, s.Covers x) ↔ r.Covers x ∨ ∃ s ∈ rs, s.Covers x := by simp
    rw [hcons, ih hrest, Covers, hstart]
    omega

theorem pairwise_apart (h : Tiles rs lo hi) : rs.Pairwise Apart := by
  induction rs generalizing lo with
  | nil => exact .nil
  | cons r rs ih =>
    obtain ⟨hstart, hrest⟩ := h
    refine .cons (fun s hs x hx => ?_) (ih hrest)
    have hbound := (covers_iff hrest x).mp ⟨s, hs, hx.2⟩
    have hcovers := hx.1
    rw [Covers, hstart] at hcovers
    omega

end Tiles

end ResourceDescriptor

namespace MemoryLayout

open ResourceDescriptor (Apart Tiles systemMemory reserved testedMemory untestedMemory)

variable {l : MemoryLayout} {systemLength : UInt64}

/-! ### Layouts that are detected -/

/-- The parts of low memory end where the next one begins. -/
structure Carved (l : MemoryLayout) : Prop where
  reserved : l.reservedBase.toNat + l.reservedSize.toNat = l.tsegBase.toNat
  tseg : l.tsegBase.toNat + l.tsegSize.toNat = l.lowLength.toNat

theorem carved_with_room_of_detect {ω : Type} {c : Chipset ω} {config : LayoutConfig} {w w' : ω}
    (h : detect c config w = .ok l w') :
    l.reservedSize.toNat + l.tsegSize.toNat < l.lowLength.toNat ∧ Carved l := by
  obtain ⟨lowLength, w₁, -, h⟩ := Step.bind_eq_ok.mp h
  obtain ⟨highLength, w₂, -, h⟩ := Step.bind_eq_ok.mp h
  obtain ⟨tsegSize, w₃, -, h⟩ := Step.bind_eq_ok.mp h
  split at h
  · cases h
  · rename_i hroom
    obtain ⟨tsegBase, w₄, hbase, h⟩ := Step.bind_eq_ok.mp h
    obtain ⟨reservedBase, w₅, hreserved, h⟩ := Step.bind_eq_ok.mp h
    obtain ⟨rfl, -⟩ := Step.pure_eq_ok.mp h
    exact ⟨Nat.lt_of_not_le hroom, sub32_eq_ok_iff.mp (Step.ofHalting_eq_ok.mp hreserved).1,
      sub32_eq_ok_iff.mp (Step.ofHalting_eq_ok.mp hbase).1⟩

theorem carved_of_detect {ω : Type} {c : Chipset ω} {config : LayoutConfig} {w w' : ω}
    (h : detect c config w = .ok l w') : Carved l := (carved_with_room_of_detect h).2

/-! ### The resources of a layout -/

def belowTseg (l : MemoryLayout) (systemLength : UInt64) : List ResourceDescriptor :=
  [⟨.zero, systemMemory, testedMemory, 0, size640K⟩,
    ⟨.zero, reserved, testedMemory, size640K, size384K⟩,
    ⟨.zero, systemMemory, testedMemory, size1M, systemLength⟩,
    ⟨.reservedMemory, reserved, testedMemory, l.reservedBase.toUInt64, l.reservedSize.toUInt64⟩]

def above4G (l : MemoryLayout) : List ResourceDescriptor :=
  if l.highLength = 0 then [] else [⟨.zero, systemMemory, untestedMemory, size4G, l.highLength⟩]

def tsegRange (l : MemoryLayout) : ResourceDescriptor :=
  ⟨.tsegMemory, reserved, testedMemory, l.tsegBase.toUInt64, l.tsegSize.toUInt64⟩

/-- The list of a layout whose system memory from 1 MiB on has a length of `systemLength`. -/
def listing (l : MemoryLayout) (systemLength : UInt64) : HobList :=
  (l.belowTseg systemLength ++ l.above4G ++ [l.tsegRange]).map .resource ++
    [.guidExtension .smramMemory (DescriptorBlock.encode [l.smramRange])]

theorem hobs_eq_ok {list : HobList} : l.hobs = .ok list ↔ ∃ systemLength : UInt64,
    systemLength.toNat + size1M.toNat = l.reservedBase.toNat ∧ list = l.listing systemLength := by
  have hlist (systemLength : UInt64) : l.listing systemLength =
      [resource systemMemory testedMemory 0 size640K .zero,
        resource reserved testedMemory size640K size384K .zero,
        resource systemMemory testedMemory size1M systemLength .zero,
        resource reserved testedMemory l.reservedBase.toUInt64 l.reservedSize.toUInt64 .reservedMemory]
      ++ (if l.highLength = 0 then []
        else [resource systemMemory untestedMemory size4G l.highLength .zero])
      ++ [resource reserved testedMemory l.tsegBase.toUInt64 l.tsegSize.toUInt64 .tsegMemory,
        .guidExtension .smramMemory (DescriptorBlock.encode [l.smramRange])] := by
    unfold listing above4G
    split <;> rfl
  unfold hobs
  rw [Fallible.bind_eq_ok]
  constructor
  · rintro ⟨systemLength, hlength, h⟩
    refine ⟨systemLength, ?_, ?_⟩
    · simpa using sub64_eq_ok_iff.mp hlength
    · rw [hlist]
      cases h
      rfl
  · rintro ⟨systemLength, hlength, rfl⟩
    refine ⟨systemLength, sub64_eq_ok_iff.mpr (by simpa using hlength), ?_⟩
    rw [hlist]
    rfl

theorem toNat_systemLength (h : size1M.toNat ≤ l.reservedBase.toNat) :
    (UInt64.ofNat (l.reservedBase.toNat - size1M.toNat)).toNat + size1M.toNat =
      l.reservedBase.toNat := by
  have hword := l.reservedBase.toNat_lt_size
  have h64 : UInt32.size ≤ UInt64.size := by decide
  rw [UInt64.toNat_ofNat_of_lt' (by omega)]
  omega

theorem resources_listing :
    (l.listing systemLength).resources = l.belowTseg systemLength ++ l.above4G ++ [l.tsegRange] := by
  have hresources (rs : List ResourceDescriptor) :
      HobList.resources (rs.map .resource ++ [.guidExtension .smramMemory
        (DescriptorBlock.encode [l.smramRange])]) = rs := by
    induction rs with
    | nil => rfl
    | cons r rs ih => exact congrArg (r :: ·) ih
  exact hresources _

/-! ### The ranges and memory -/

theorem tiles_below4G (hl : Carved l) (hsystem : systemLength.toNat + size1M.toNat = l.reservedBase.toNat) :
    Tiles (l.belowTseg systemLength ++ [l.tsegRange]) 0 l.lowLength.toNat := by
  have hreserved := hl.reserved
  have htseg := hl.tseg
  have h640K : size640K.toNat = 0xA0000 := rfl
  have h384K : size384K.toNat = 0x60000 := rfl
  have h1M : size1M.toNat = 0x100000 := rfl
  simp only [belowTseg, tsegRange, List.cons_append, List.nil_append, Tiles, UInt32.toNat_toUInt64,
    UInt64.toNat_zero, true_and]
  omega

theorem tiles_above4G : Tiles l.above4G size4G.toNat (size4G.toNat + l.highLength.toNat) := by
  unfold above4G
  split
  · rename_i hzero
    rw [hzero]
    rfl
  · exact ⟨rfl, rfl⟩

theorem perm_resources : List.Perm (l.listing systemLength).resources
    ((l.belowTseg systemLength ++ [l.tsegRange]) ++ l.above4G) := by
  rw [resources_listing, List.append_assoc, List.append_assoc]
  exact List.perm_append_comm.append_left _

theorem apart_resources (hl : Carved l)
    (hsystem : systemLength.toNat + size1M.toNat = l.reservedBase.toNat) :
    (l.listing systemLength).resources.Pairwise Apart := by
  have hbelow := tiles_below4G hl hsystem
  have habove := tiles_above4G (l := l)
  rw [List.Perm.pairwise_iff Apart.symm perm_resources, List.pairwise_append]
  refine ⟨hbelow.pairwise_apart, habove.pairwise_apart, ?_⟩
  intro r hr s hs x hx
  have hlow := (hbelow.covers_iff x).mp ⟨r, hr, hx.1⟩
  have hhigh := (habove.covers_iff x).mp ⟨s, hs, hx.2⟩
  have hword := l.lowLength.toNat_lt_size
  have h4G : size4G.toNat = UInt32.size := rfl
  omega

theorem covers_resources (hl : Carved l)
    (hsystem : systemLength.toNat + size1M.toNat = l.reservedBase.toNat) (x : Nat) :
    (∃ r ∈ (l.listing systemLength).resources, r.Covers x) ↔ x < l.lowLength.toNat ∨
      size4G.toNat ≤ x ∧ x < size4G.toNat + l.highLength.toNat := by
  have hbelow := (tiles_below4G hl hsystem).covers_iff x
  have habove := (tiles_above4G (l := l)).covers_iff x
  rw [← habove, ← (show 0 ≤ x ∧ x < l.lowLength.toNat ↔ x < l.lowLength.toNat by omega), ← hbelow]
  simp only [perm_resources.mem_iff, List.mem_append (s := l.belowTseg systemLength ++ [l.tsegRange]),
    or_and_right, exists_or]

/-! ### Reading the list -/

/-- What the consumers of a list find in it. -/
structure ReadsBack (l : MemoryLayout) (hobs : HobList) : Prop where
  topOfLowMemory : hobs.topOfLowMemory = .ok l.tsegBase.toUInt64
  systemMemory : ∃ low, hobs.systemMemory = .ok (low, l.highLength) ∧
    low.toNat + size1M.toNat = size640K.toNat + l.reservedBase.toNat
  smram : ∃ r, SmramTable.ofHobs hobs = .ok ⟨[r]⟩ ∧ r.physicalStart = l.tsegBase.toUInt64 ∧
    r.cpuStart = l.tsegBase.toUInt64 ∧ r.size = l.tsegSize.toUInt64

theorem resourceOf?_reservedMemory : (l.listing systemLength).resourceOf? .reservedMemory =
    some ⟨.reservedMemory, reserved, testedMemory, l.reservedBase.toUInt64, l.reservedSize.toUInt64⟩ := by
  rw [HobList.resourceOf?, resources_listing]
  rfl

theorem resourceOf?_bootLoaderMemory :
    (l.listing systemLength).resourceOf? .bootLoaderMemory = none := by
  rw [HobList.resourceOf?, resources_listing, above4G]
  split <;> rfl

theorem topOfLowMemory_listing (hl : Carved l) :
    (l.listing systemLength).topOfLowMemory = .ok l.tsegBase.toUInt64 := by
  have hstop : add64 l.reservedBase.toUInt64 l.reservedSize.toUInt64 = .ok l.tsegBase.toUInt64 := by
    rw [add64_eq_ok_iff]
    simpa using hl.reserved.symm
  rw [HobList.topOfLowMemory, resourceOf?_reservedMemory]
  simp only [resourceOf?_bootLoaderMemory, ResourceDescriptor.stop, hstop]
  rfl

section
open HobList (addSystemMemory)
variable {low high sum : UInt64} {r : ResourceDescriptor}

theorem reserved_ne_systemMemory : reserved ≠ systemMemory := by decide

theorem addSystemMemory_other (sums : UInt64 × UInt64) (h : r.kind ≠ systemMemory) :
    addSystemMemory sums r = .ok sums := if_pos h

theorem addSystemMemory_low (hkind : r.kind = systemMemory) (hstart : r.start < size4G)
    (hsum : add64 low r.length = .ok sum) : addSystemMemory (low, high) r = .ok (sum, high) := by
  rw [addSystemMemory, if_neg (not_not_intro hkind), if_neg (UInt64.not_le.mpr hstart)]
  simp only [hsum]
  rfl

theorem addSystemMemory_high (hkind : r.kind = systemMemory) (hstart : size4G ≤ r.start)
    (hsum : add64 high r.length = .ok sum) : addSystemMemory (low, high) r = .ok (low, sum) := by
  rw [addSystemMemory, if_neg (not_not_intro hkind), if_pos hstart]
  simp only [hsum]
  rfl

theorem foldlM_addSystemMemory {sums sums' : UInt64 × UInt64} (h : addSystemMemory sums r = .ok sums')
    (rs : List ResourceDescriptor) :
    (r :: rs).foldlM addSystemMemory sums = rs.foldlM addSystemMemory sums' := by
  rw [List.foldlM_cons, h]
  rfl

theorem foldlM_belowTseg (hlow : add64 size640K systemLength = .ok low) (rs : List ResourceDescriptor) :
    (l.belowTseg systemLength ++ rs).foldlM addSystemMemory (0, 0) =
      rs.foldlM addSystemMemory (low, 0) := by
  have hfirst : add64 0 size640K = .ok size640K := rfl
  have hzero : 0 < size4G := by decide
  have h1M : size1M < size4G := by decide
  rw [belowTseg, List.cons_append, foldlM_addSystemMemory (addSystemMemory_low rfl hzero hfirst),
    List.cons_append, foldlM_addSystemMemory (addSystemMemory_other _ reserved_ne_systemMemory),
    List.cons_append, foldlM_addSystemMemory (addSystemMemory_low rfl h1M hlow),
    List.cons_append, foldlM_addSystemMemory (addSystemMemory_other _ reserved_ne_systemMemory),
    List.nil_append]

theorem foldlM_above4G (rs : List ResourceDescriptor) :
    (l.above4G ++ rs).foldlM addSystemMemory (low, 0) =
      rs.foldlM addSystemMemory (low, l.highLength) := by
  have hhigh : add64 0 l.highLength = .ok l.highLength := by
    rw [add64_eq_ok_iff, UInt64.toNat_zero, Nat.zero_add]
  unfold above4G
  split
  · rename_i hzero
    rw [List.nil_append, hzero]
  · rw [List.cons_append, foldlM_addSystemMemory (addSystemMemory_high rfl (UInt64.le_refl size4G) hhigh),
      List.nil_append]

end

theorem systemMemory_listing (hsystem : systemLength.toNat + size1M.toNat = l.reservedBase.toNat) :
    ∃ low, (l.listing systemLength).systemMemory = .ok (low, l.highLength) ∧
      low.toNat + size1M.toNat = size640K.toNat + l.reservedBase.toNat := by
  have hword := l.reservedBase.toNat_lt_size
  have h32 : UInt32.size = 0x100000000 := rfl
  have h64 : UInt64.size = 0x10000000000000000 := rfl
  have h640K : size640K.toNat = 0xA0000 := rfl
  have hsum : (size640K + systemLength).toNat = size640K.toNat + systemLength.toNat := by
    rw [UInt64.toNat_add]
    exact Nat.mod_eq_of_lt (by omega)
  refine ⟨size640K + systemLength, ?_, by omega⟩
  rw [HobList.systemMemory, resources_listing, List.append_assoc,
    foldlM_belowTseg (add64_eq_ok_iff.mpr hsum), foldlM_above4G,
    foldlM_addSystemMemory (addSystemMemory_other _ reserved_ne_systemMemory)]
  rfl

theorem ofHobs_listing : SmramTable.ofHobs (l.listing systemLength) = .ok ⟨[l.smramRange]⟩ := by
  have hfirst (rs : List ResourceDescriptor) :
      HobList.dataOf? (rs.map .resource) .smramMemory = none := by
    induction rs with
    | nil => rfl
    | cons r rs ih => exact ih
  have hcount : [l.smramRange].length < UInt32.size := show 1 < UInt32.size by decide
  exact SmramTable.ofHobs_of_dataOf? (SmramTable.dataOf?_block (hfirst _) _ []) (List.prefix_refl _)
    hcount nofun

theorem padded_listing : (l.listing systemLength).map Hob.padded = l.listing systemLength := by
  have hblock : (DescriptorBlock.encode [l.smramRange]).padTo 8 = DescriptorBlock.encode [l.smramRange] :=
    Bytes.padTo_of_mod (by simp [DescriptorBlock.length_encode, DescriptorBlock.start,
      SmramRange.encodedSize])
  rw [listing, List.map_append, List.map_map]
  congr 1
  rw [List.map_singleton, Hob.padded, hblock]

theorem encodable_listing : ∀ hob ∈ l.listing systemLength, hob.Encodable := by
  intro hob hmem
  rcases List.mem_append.mp hmem with hresource | hextension
  · obtain ⟨r, -, rfl⟩ := List.mem_map.mp hresource
    refine ⟨?_, fun _ _ heq => by cases heq⟩
    simp [Hob.length_toBytes, Bytes.length_padTo, Hob.body, Hob.headerSize]
  · rw [List.mem_singleton.mp hextension]
    refine ⟨?_, fun _ _ heq => by cases heq⟩
    simp [Hob.length_toBytes, Bytes.length_padTo, Hob.body, Hob.headerSize, DescriptorBlock.length_encode,
      DescriptorBlock.start, SmramRange.encodedSize]

theorem parse_listing :
    HobList.parse (l.listing systemLength).toBytes = .ok (l.listing systemLength) := by
  rw [HobList.parse_toBytes encodable_listing, padded_listing]

theorem readsBack_listing (hl : Carved l)
    (hsystem : systemLength.toNat + size1M.toNat = l.reservedBase.toNat) :
    ReadsBack l (l.listing systemLength) where
  topOfLowMemory := topOfLowMemory_listing hl
  systemMemory := systemMemory_listing hsystem
  smram := ⟨l.smramRange, ofHobs_listing, rfl, rfl, rfl⟩

/-- The list that describes a layout from the chipset covers the memory that there is, each byte once,
and its consumers find the layout in it, also when it went through its bytes. -/
theorem detect_published {ω : Type} {c : Chipset ω} {config : LayoutConfig} {w w' : ω}
    (hdetect : detect c config w = .ok l w') (hreserved : size1M.toNat ≤ l.reservedBase.toNat) :
    ∃ hobs, l.hobs = .ok hobs ∧ hobs.resources.Pairwise Apart ∧
      (∀ x, (∃ r ∈ hobs.resources, r.Covers x) ↔ x < l.lowLength.toNat ∨
        size4G.toNat ≤ x ∧ x < size4G.toNat + l.highLength.toNat) ∧
      ReadsBack l hobs ∧ ∃ decoded, HobList.parse hobs.toBytes = .ok decoded ∧ ReadsBack l decoded := by
  have hl := carved_of_detect hdetect
  have hsystem := toNat_systemLength hreserved
  have hreads := readsBack_listing hl hsystem
  exact ⟨_, hobs_eq_ok.mpr ⟨_, hsystem, rfl⟩, apart_resources hl hsystem, covers_resources hl hsystem,
    hreads, _, parse_listing, hreads⟩

def threeGiB : Chipset Unit where
  readCmos index w := (if index = 0x35 then 0x7F else if index = 0x5c then 0x40 else 0, w)
  queryTseg w := (tsegQuery, w)
  writeTseg _ w := w

theorem detect_published_three_gib :
    detect threeGiB {} () =
      .ok ⟨0x80000000, 0x40000000, 0x7F000000, 0x1000000, 0x7EC00000, 0x400000⟩ () ∧
    ∃ list decoded, hobs ⟨0x80000000, 0x40000000, 0x7F000000, 0x1000000, 0x7EC00000, 0x400000⟩ =
        .ok list ∧ HobList.parse list.toBytes = .ok decoded ∧
      decoded.topOfLowMemory = .ok 0x7F000000 ∧
      ∃ r, SmramTable.ofHobs decoded = .ok ⟨[r]⟩ ∧ r.cpuStart = 0x7F000000 ∧ r.size = 0x1000000 := by
  have hdetect : detect threeGiB {} () =
      .ok ⟨0x80000000, 0x40000000, 0x7F000000, 0x1000000, 0x7EC00000, 0x400000⟩ () := rfl
  obtain ⟨list, hlist, -, -, -, decoded, hparse, hreads⟩ := detect_published hdetect (by decide)
  obtain ⟨r, hr, -, hstart, hsize⟩ := hreads.smram
  exact ⟨hdetect, list, decoded, hlist, hparse, hreads.topOfLowMemory, r, hr, hstart, hsize⟩

/-- A layout that is detected has a list when 1 MiB of low memory is left besides TSEG and the reserved
region. Detection asks for a byte only; with less than 1 MiB the list stops the machine. -/
theorem detect_publishable {ω : Type} {c : Chipset ω} {config : LayoutConfig} {w w' : ω}
    (hdetect : detect c config w = .ok l w') :
    l.reservedSize.toNat + l.tsegSize.toNat < l.lowLength.toNat ∧
      l.hobs = if size1M.toNat + l.reservedSize.toNat + l.tsegSize.toNat ≤ l.lowLength.toNat
        then .ok (l.listing (.ofNat (l.reservedBase.toNat - size1M.toNat)))
        else .error .overflow := by
  obtain ⟨hroom, hl⟩ := carved_with_room_of_detect hdetect
  have hreserved := hl.reserved
  have htseg := hl.tseg
  refine ⟨hroom, ?_⟩
  split
  · exact hobs_eq_ok.mpr ⟨_, toNat_systemLength (by omega), rfl⟩
  · have hsub : sub64 l.reservedBase.toUInt64 size1M = .error .overflow := by
      refine if_neg fun hle => ?_
      have hle' := UInt64.le_iff_toNat_le.mp hle
      rw [UInt32.toNat_toUInt64] at hle'
      omega
    rw [hobs, hsub]
    rfl

/-- A chipset without an extended TSEG and with 16 MiB of low memory and `units` times 64 KiB more. -/
def smallMemory (units : UInt8) : Chipset Unit where
  readCmos index w := (if index = 0x34 then units else 0, w)
  queryTseg w := (tsegQuery, w)
  writeTseg _ w := w

theorem detect_publishable_least :
    detect (smallMemory 0x50) {} () = .ok ⟨0x1500000, 0, 0x500000, 0x1000000, 0x100000, 0x400000⟩ () ∧
      ∃ list, hobs ⟨0x1500000, 0, 0x500000, 0x1000000, 0x100000, 0x400000⟩ = .ok list := by
  have hdetect : detect (smallMemory 0x50) {} () =
      .ok ⟨0x1500000, 0, 0x500000, 0x1000000, 0x100000, 0x400000⟩ () := rfl
  obtain ⟨-, hlist⟩ := detect_publishable hdetect
  rw [if_pos (by decide)] at hlist
  exact ⟨hdetect, _, hlist⟩

/-- A layout for 64 KiB more than TSEG and the reserved region is accepted but has no list. -/
theorem detected_without_list : ∃ l, detect (smallMemory 0x41) {} () = .ok l () ∧
    l.hobs = .error .overflow :=
  ⟨⟨0x1410000, 0, 0x410000, 0x1000000, 0x10000, 0x400000⟩, rfl, rfl⟩

end MemoryLayout
end PlatformInit
