import PlatformInit.Proofs.Hob.RoundTrip
import PlatformInit.Proofs.Smram.Descriptors
import PlatformInit.Smram.Table

/-!
The descriptor block on its way through a hand-off list: none of it can be missing, and whoever looks up
the list finds the ranges that were put into it.
-/
set_option autoImplicit false
namespace PlatformInit

theorem SmramRange.le_length_of_read? {bytes : Bytes} {r : SmramRange} (h : read? bytes 0 = some r) :
    encodedSize ≤ bytes.length := by
  simp only [read?, Option.bind_eq_bind, Option.bind_eq_some_iff] at h
  obtain ⟨-, -, -, -, -, -, state, hstate, -⟩ := h
  obtain ⟨n, hword, -⟩ := Option.map_eq_some_iff.mp hstate
  exact Bytes.le_length_of_word? hword

namespace DescriptorBlock

theorem le_length_of_readRanges {count : Nat} {bytes : Bytes} {ranges : List SmramRange}
    (h : readRanges count bytes = some ranges) : SmramRange.encodedSize * count ≤ bytes.length := by
  induction count generalizing bytes ranges with
  | zero => exact Nat.zero_le _
  | succ count ih =>
    rw [readRanges] at h
    split at h
    · cases h
    · rename_i range hrange
      obtain ⟨rest, hrest, -⟩ := Option.map_eq_some_iff.mp h
      have hfirst := SmramRange.le_length_of_read? hrange
      have hle := ih hrest
      rw [List.length_drop] at hle
      rw [Nat.mul_succ]
      omega

/-- A block that is cut short anywhere is not read, as its count says how much there has to be. -/
theorem decode_cut {ranges : List SmramRange} (hcount : ranges.length < UInt32.size) (hne : ranges ≠ [])
    {front : Bytes} (hfront : front <+: encode ranges) (hcut : front ≠ encode ranges) :
    decode front = .error .truncated := by
  obtain ⟨rest, heq⟩ := hfront
  rw [decode]
  split
  · rfl
  rename_i count hread
  split
  · rfl
  rename_i found hfound
  obtain ⟨n, hn, rfl⟩ := Option.map_eq_some_iff.mp hread
  have hheaded := Bytes.le_length_of_word? hn
  rw [Bytes.word?_eq, if_pos hheaded, Option.some.injEq] at hn
  have hlength : n = ranges.length := by
    rw [← hn, ← Bytes.numberAt_append (q := rest) hheaded, heq, encode, List.append_assoc,
      Bytes.numberAt_leBytes]
    exact Nat.mod_eq_of_lt hcount
  have hle := le_length_of_readRanges hfound
  rw [hlength, UInt32.toNat_ofNat_of_lt' hcount, List.length_drop] at hle
  have hwhole := congrArg List.length heq
  rw [length_encode, List.length_append] at hwhole
  have hsome : 0 < ranges.length := List.length_pos_iff.mpr hne
  rw [SmramRange.encodedSize] at *
  have hnil : rest = [] := List.eq_nil_of_length_eq_zero (by omega)
  rw [hnil, List.append_nil] at heq
  exact absurd heq hcut

end DescriptorBlock

namespace SmramTable

open HobList (parse)

theorem ofHobs_of_dataOf? {hobs : HobList} {ranges : List SmramRange} {data : Bytes}
    (hdata : hobs.dataOf? .smramMemory = some data) (hblock : DescriptorBlock.encode ranges <+: data)
    (hcount : ranges.length < UInt32.size) (hne : ranges ≠ []) : ofHobs hobs = .ok ⟨ranges⟩ := by
  obtain ⟨rest, rfl⟩ := hblock
  rw [ofHobs, hdata]
  dsimp only
  rw [DescriptorBlock.decode_encode hcount]
  cases ranges with
  | nil => exact absurd rfl hne
  | cons => rfl

theorem encodable_block {ranges : List SmramRange} (h : ranges.length ≤ 2046) :
    Hob.Encodable (.guidExtension .smramMemory (DescriptorBlock.encode ranges)) := by
  refine ⟨?_, nofun⟩
  rw [Hob.length_toBytes, Hob.headerSize, Hob.body, Bytes.length_padTo, List.length_append,
    Guid.length_toBytes, DescriptorBlock.length_encode, DescriptorBlock.start, SmramRange.encodedSize]
  omega

theorem dataOf?_block {before : HobList} (hfirst : before.dataOf? .smramMemory = none) (data : Bytes)
    (after : HobList) :
    HobList.dataOf? (before ++ .guidExtension .smramMemory data :: after) .smramMemory = some data := by
  rw [HobList.dataOf?_append, hfirst]
  rfl

/-- A block is read back whatever follows it and refused when any of it is missing. As the first record
of its name in a list it gives the table of its ranges, from the list and from the list's bytes, and the
block of that table says the same. -/
theorem block_handed_on {ranges : List SmramRange} (hcount : ranges.length < UInt32.size) :
    (∀ rest, DescriptorBlock.decode (DescriptorBlock.encode ranges ++ rest) = .ok ranges) ∧
    (ranges ≠ [] → ∀ front, front <+: DescriptorBlock.encode ranges →
      front ≠ DescriptorBlock.encode ranges → DescriptorBlock.decode front = .error .truncated) ∧
    (ranges ≠ [] → ranges.length ≤ 2046 → ∀ before after : HobList,
      (∀ hob ∈ before ++ after, hob.Encodable) → before.dataOf? .smramMemory = none →
      ∃ table decoded,
        ofHobs (before ++ .guidExtension .smramMemory (DescriptorBlock.encode ranges) :: after) = .ok table ∧
        parse (HobList.toBytes
          (before ++ .guidExtension .smramMemory (DescriptorBlock.encode ranges) :: after)) = .ok decoded ∧
        ofHobs decoded = .ok table ∧ table.ranges = ranges ∧
        DescriptorBlock.decode (DescriptorBlock.encode table.ranges) = .ok ranges) := by
  refine ⟨DescriptorBlock.decode_encode hcount, fun hne front hfront hcut =>
    DescriptorBlock.decode_cut hcount hne hfront hcut, fun hne hmost before after hothers hfirst => ?_⟩
  have hencodable : ∀ hob ∈ before ++ .guidExtension .smramMemory (DescriptorBlock.encode ranges) :: after,
      hob.Encodable := by
    intro hob hmem
    rcases List.mem_append.mp hmem with hbefore | hrest
    · exact hothers hob (List.mem_append_left _ hbefore)
    rcases List.mem_cons.mp hrest with rfl | hafter
    · exact encodable_block hmost
    · exact hothers hob (List.mem_append_right _ hafter)
  have hdata := dataOf?_block hfirst (DescriptorBlock.encode ranges) after
  refine ⟨⟨ranges⟩, _, ?onList, HobList.parse_toBytes hencodable, ?onBytes, rfl, ?again⟩
  case onList => exact ofHobs_of_dataOf? hdata (List.prefix_refl _) hcount hne
  case onBytes =>
    refine ofHobs_of_dataOf? ?_ (Bytes.prefix_padTo _) hcount hne
    rw [HobList.dataOf?_padded, hdata, Option.map_some]
  case again =>
    have hagain := DescriptorBlock.decode_encode hcount []
    rwa [List.append_nil] at hagain

theorem block_handed_on_between :
    ∃ table decoded,
      HobList.parse (HobList.toBytes [.cpu 46 16,
        .guidExtension .smramMemory (DescriptorBlock.encode [⟨0x7F000000, 0x7F000000, 0x1000000, 2⟩]),
        .guidExtension .smramMemory []]) = .ok decoded ∧
      ofHobs decoded = .ok table ∧ table.ranges = [⟨0x7F000000, 0x7F000000, 0x1000000, 2⟩] := by
  have hothers : ∀ hob ∈ [Hob.cpu 46 16] ++ [Hob.guidExtension .smramMemory []], hob.Encodable := by
    intro hob hmem
    simp only [List.cons_append, List.nil_append, List.mem_cons, List.not_mem_nil, or_false] at hmem
    obtain rfl | rfl := hmem
    · exact ⟨by decide, nofun⟩
    · exact ⟨by decide, nofun⟩
  have hblock : [SmramRange.mk 0x7F000000 0x7F000000 0x1000000 2].length < UInt32.size := by decide
  obtain ⟨-, -, hhanded⟩ := block_handed_on hblock
  obtain ⟨table, decoded, -, hparse, htable, hranges, -⟩ :=
    hhanded nofun (by decide) _ _ hothers rfl
  exact ⟨table, decoded, hparse, htable, hranges⟩

end SmramTable
end PlatformInit
