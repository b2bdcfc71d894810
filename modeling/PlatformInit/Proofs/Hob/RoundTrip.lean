import PlatformInit.Proofs.Hob.Parsing

/-!
What the questions asked of a list answer, also after it was added to or went through its bytes.
-/
set_option autoImplicit false
namespace PlatformInit

namespace Bytes

theorem prefix_padTo (bytes : Bytes) : bytes <+: bytes.padTo 8 := ⟨_, rfl⟩

end Bytes

namespace HobList

theorem resources_padded (hobs : HobList) : resources (hobs.map Hob.padded) = hobs.resources := by
  rw [resources, resources, List.filterMap_map]
  congr 1
  funext hob
  cases hob <;> rfl

theorem nestedVolumes_padded (hobs : HobList) :
    nestedVolumes (hobs.map Hob.padded) = hobs.nestedVolumes := by
  rw [nestedVolumes, nestedVolumes, List.filterMap_map]
  congr 1
  funext hob
  cases hob <;> rfl

theorem dataOf?_append (before after : HobList) (name : Guid) :
    dataOf? (before ++ after) name = (before.dataOf? name).or (after.dataOf? name) :=
  List.findSome?_append

theorem dataOf?_padded (hobs : HobList) (name : Guid) :
    dataOf? (hobs.map Hob.padded) name = (hobs.dataOf? name).map (Bytes.padTo 8) := by
  rw [dataOf?, dataOf?, List.findSome?_map, List.map_findSome?]
  congr 1
  funext hob
  cases hob with
  | guidExtension n data =>
    change (if n = name then some (data.padTo 8) else none) = (if n = name then some data else none).map _
    split <;> rfl
  | _ => rfl

/-- A list comes back from its bytes record by record, only data being filled up with zeros to a
multiple of eight bytes. Resources and nested volumes are found as before, and data of a name
begins as it did. -/
theorem toBytes_roundTrip (hobs : HobList) (h : ∀ hob ∈ hobs, hob.Encodable) :
    ∃ decoded, parse hobs.toBytes = .ok decoded ∧ decoded = hobs.map Hob.padded ∧
      (∀ owner, decoded.resourceOf? owner = hobs.resourceOf? owner) ∧
      decoded.nestedVolumes = hobs.nestedVolumes ∧
      ∀ name, (decoded.dataOf? name = none ↔ hobs.dataOf? name = none) ∧
        ∀ data, hobs.dataOf? name = some data →
          ∃ found, decoded.dataOf? name = some found ∧ data <+: found := by
  refine ⟨hobs.map Hob.padded, parse_toBytes h, rfl, fun owner => ?_, nestedVolumes_padded hobs,
    fun name => ⟨?_, fun data hdata => ?_⟩⟩
  · rw [resourceOf?, resources_padded, resourceOf?]
  · rw [dataOf?_padded, Option.map_eq_none_iff]
  · refine ⟨data.padTo 8, ?_, Bytes.prefix_padTo data⟩
    rw [dataOf?_padded, hdata, Option.map_some]

theorem toBytes_roundTrip_odd_data :
    ∃ decoded, parse (toBytes [.cpu 46 16, .guidExtension Guid.smramMemory [1, 2, 3], .other 1 [7]]) =
        .ok decoded ∧
      decoded.dataOf? Guid.smramMemory = some [1, 2, 3, 0, 0, 0, 0, 0] := by
  obtain ⟨decoded, hparse, hdecoded, -⟩ := toBytes_roundTrip
    [.cpu 46 16, .guidExtension Guid.smramMemory [1, 2, 3], .other 1 [7]] (by
      intro hob hmem
      simp only [List.mem_cons, List.not_mem_nil, or_false] at hmem
      obtain rfl | rfl | rfl := hmem
      · exact ⟨by decide, nofun⟩
      · exact ⟨by decide, nofun⟩
      · refine ⟨by decide, fun kind data heq => ?_⟩
        cases heq
        decide)
  refine ⟨decoded, hparse, ?_⟩
  rw [hdecoded]
  decide

end HobList
end PlatformInit
