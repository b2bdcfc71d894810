import PlatformInit.Proofs.Hob.Records

/-!
Which bytes `HobList.parse` accepts and what it makes of them: the round trip from a list through
its bytes, the grammar of the accepted bytes, and the walk over the records by offsets.
-/
set_option autoImplicit false
namespace PlatformInit

namespace HobList

open Hob (IsRecord Encodable)

/-- Bytes that end a list, whatever follows the type code and the length of the end record. -/
structure IsEnd (tail : Bytes) : Prop where
  headed : 4 ≤ tail.length
  kind : Hob.kindOf tail = Hob.endKind

theorem parse_of_isEnd {tail : Bytes} (h : IsEnd tail) : parse tail = .ok [] := by
  have hheaded := h.headed
  have hkind : tail.u16? 0 = some Hob.endKind := Bytes.u16?_eq_some.mpr ⟨by omega, h.kind⟩
  have hlength := Bytes.u16?_eq_some.mpr ⟨(by omega : 2 + 2 ≤ tail.length), rfl⟩
  rw [parse, hkind, hlength]
  rfl

theorem parse_record_append {record : Bytes} (h : IsRecord record) (rest : Bytes) :
    parse (record ++ rest) = (parse rest).map (Hob.ofRecord record :: ·) := by
  have hheaded := h.headed
  have hdeclared := h.declared
  have hwhole := h.whole
  rw [Hob.headerSize] at hheaded
  have hlen : 8 ≤ (record ++ rest).length := by
    rw [List.length_append]
    omega
  have hkind : (record ++ rest).u16? 0 = some (Hob.kindOf record) := by
    refine Bytes.u16?_eq_some.mpr ⟨by omega, ?_⟩
    rw [Bytes.numberAt_append (by omega), Hob.kindOf]
  have hlength : (record ++ rest).u16? 2 = some (.ofNat record.length) := by
    refine Bytes.u16?_eq_some.mpr ⟨by omega, ?_⟩
    rw [Bytes.numberAt_append (by omega), hdeclared]
  have hfits : record.length < 65536 := by
    rw [← hdeclared]
    exact Bytes.numberAt_lt record 2 2
  have htoNat : (UInt16.ofNat record.length).toNat = record.length := UInt16.toNat_ofNat_of_lt' hfits
  have hbody : (record ++ rest).slice? Hob.headerSize (record.length - Hob.headerSize) =
      some (record.drop Hob.headerSize) := by
    rw [Bytes.slice?_eq, Hob.headerSize, if_pos (by rw [List.length_append]; omega),
      List.drop_append_of_le_length hheaded, List.take_left' (by rw [List.length_drop])]
  have hhob : Hob.ofBody? (Hob.kindOf record) (record.drop Hob.headerSize) =
      some (Hob.ofRecord record) := by
    have hmin := h.minBody_le
    rw [Hob.ofBody?_eq, if_pos, Hob.ofRecord]
    rw [List.length_drop]
    omega
  rw [parse, hkind, hlength]
  simp only [htoNat]
  rw [if_neg h.not_end, if_neg (by rw [Hob.headerSize]; omega)]
  split
  · rename_i hnone
    rw [htoNat, hbody] at hnone
    cases hnone
  · rename_i body hsome
    rw [htoNat, hbody, Option.some.injEq] at hsome
    rw [← hsome, hhob, List.drop_left]

theorem isRecord_take {bytes body : Bytes} {kind length : UInt16} {hob : Hob}
    (hkind : bytes.u16? 0 = some kind) (hlength : bytes.u16? 2 = some length)
    (hnot : kind ≠ Hob.endKind)
    (hchecks : ¬(length.toNat < Hob.headerSize ∨ length.toNat % 8 ≠ 0))
    (hbody : bytes.slice? Hob.headerSize (length.toNat - Hob.headerSize) = some body)
    (hhob : Hob.ofBody? kind body = some hob) :
    IsRecord (bytes.take length.toNat) ∧ Hob.ofRecord (bytes.take length.toNat) = hob := by
  obtain ⟨hheaded, hwhole⟩ := not_or.mp hchecks
  have hle := Bytes.le_length_of_slice? hbody
  have hbodylen := Bytes.length_of_slice? hbody
  rw [Hob.headerSize] at hheaded hle hbodylen
  have htake : (bytes.take length.toNat).length = length.toNat := by
    rw [List.length_take]
    omega
  have hread (offset : Nat) (h : offset + 2 ≤ length.toNat) :
      Bytes.numberAt (bytes.take length.toNat) 2 offset = bytes.numberAt 2 offset := by
    have happend := Bytes.numberAt_append (q := bytes.drop length.toNat)
      (show offset + 2 ≤ (bytes.take length.toNat).length by omega)
    rw [← happend, List.take_append_drop]
  obtain ⟨-, hkind⟩ := Bytes.u16?_eq_some.mp hkind
  obtain ⟨-, hlength⟩ := Bytes.u16?_eq_some.mp hlength
  have hkind' : Hob.kindOf (bytes.take length.toNat) = kind := by
    rw [Hob.kindOf, hread 0 (by omega), hkind]
  have hbody' : (bytes.take length.toNat).drop Hob.headerSize = body := by
    rw [Bytes.slice?_eq, if_pos (by rw [Hob.headerSize]; omega), Option.some.injEq] at hbody
    rw [List.drop_take, hbody]
  rw [Hob.ofBody?_eq] at hhob
  split at hhob
  · rename_i hmin
    rw [Option.some.injEq] at hhob
    refine ⟨⟨?declared, ?headed, ?whole, ?not_end, ?minBody_le⟩, ?_⟩
    case declared =>
      rw [hread 2 (by omega), htake, ← hlength]
      exact (UInt16.toNat_ofNat_of_lt' (Bytes.numberAt_lt bytes 2 2)).symm
    case headed =>
      rw [htake, Hob.headerSize]
      omega
    case whole =>
      rw [htake]
      omega
    case not_end =>
      rw [hkind']
      exact hnot
    case minBody_le =>
      rw [hkind', htake, Hob.headerSize]
      omega
    rw [Hob.ofRecord, hkind', hbody', hhob]
  · cases hhob

theorem exists_records {bytes : Bytes} {hobs : HobList} (h : parse bytes = .ok hobs) :
    ∃ (records : List Bytes) (tail : Bytes), bytes = records.flatten ++ tail ∧
      (∀ record ∈ records, IsRecord record) ∧ IsEnd tail ∧ hobs = records.map Hob.ofRecord := by
  fun_induction parse bytes generalizing hobs with
  | case1 bytes length hlength hkind =>
    cases h
    exact ⟨[], bytes, rfl, List.forall_mem_nil _, ⟨(Bytes.u16?_eq_some.mp hlength).1,
      (Bytes.u16?_eq_some.mp hkind).2⟩, rfl⟩
  | case2 | case3 | case4 | case6 => cases h
  | case5 bytes kind length hlength hkind hnot hchecks body hbody hob hhob ih =>
    obtain ⟨hrecord, hof⟩ := isRecord_take hkind hlength hnot hchecks hbody hhob
    cases hrest : parse (bytes.drop length.toNat) with
    | error e =>
      rw [hrest] at h
      cases h
    | ok rest =>
      rw [hrest] at h
      cases h
      obtain ⟨records, tail, hsplit, hall, hend, hmap⟩ := ih hrest
      refine ⟨bytes.take length.toNat :: records, tail, ?_, ?_, hend, ?_⟩
      · rw [List.flatten_cons, List.append_assoc, ← hsplit, List.take_append_drop]
      · exact List.forall_mem_cons.mpr ⟨hrecord, hall⟩
      · rw [List.map_cons, hof, hmap]

theorem parse_records_append {records : List Bytes} (h : ∀ record ∈ records, IsRecord record)
    (rest : Bytes) :
    parse (records.flatten ++ rest) = (parse rest).map (records.map Hob.ofRecord ++ ·) := by
  induction records with
  | nil =>
    change parse rest = _
    cases parse rest <;> rfl
  | cons record records ih =>
    obtain ⟨hrecord, hrecords⟩ := List.forall_mem_cons.mp h
    rw [List.flatten_cons, List.append_assoc, parse_record_append hrecord, ih hrecords]
    cases parse rest <;> rfl

theorem parse_records {records : List Bytes} {tail : Bytes}
    (h : ∀ record ∈ records, IsRecord record) (hend : IsEnd tail) :
    parse (records.flatten ++ tail) = .ok (records.map Hob.ofRecord) := by
  rw [parse_records_append h, parse_of_isEnd hend]
  exact congrArg Except.ok (List.append_nil _)

theorem isEnd_append {tail : Bytes} (h : IsEnd tail) (suffix : Bytes) : IsEnd (tail ++ suffix) := by
  have hheaded := h.headed
  constructor
  · rw [List.length_append]
    omega
  · rw [Hob.kindOf, Bytes.numberAt_append (by omega), ← Hob.kindOf, h.kind]

theorem isEnd_endRecord : IsEnd endRecord := by
  constructor <;> decide

theorem parse_toBytes {hobs : HobList} (h : ∀ hob ∈ hobs, Encodable hob) :
    parse hobs.toBytes = .ok (hobs.map Hob.padded) := by
  have hrecords : ∀ record ∈ hobs.map Hob.toBytes, IsRecord record := by
    rw [List.forall_mem_map]
    exact fun hob hmem => Hob.isRecord_toBytes (h hob hmem)
  rw [toBytes, List.flatMap_def, parse_records hrecords isEnd_endRecord, List.map_map]
  congr 1
  exact List.map_congr_left fun hob hmem => Hob.ofRecord_toBytes (h hob hmem)

end HobList
end PlatformInit
