import PlatformInit.Proofs.Hob.Parsing

/-!
Why bytes are refused as a list: what stands at the first place where neither a record nor an end begins.

`FirstFault` says what is left of the bytes from that place on, and determines it. The error is named by
its header alone, so a whole record that is too short for its type counts as cut short.
-/
set_option autoImplicit false
namespace PlatformInit.HobList

open Hob (IsRecord)

/-- The length that a header at the beginning of the bytes declares. -/
def declared (bytes : Bytes) : UInt16 := .ofNat (bytes.numberAt 2 2)

/-- Neither a record nor an end begins here. -/
structure Stuck (tail : Bytes) : Prop where
  not_end : ¬IsEnd tail
  not_record : ∀ record rest, tail = record ++ rest → ¬IsRecord record

/-- Records fill the bytes up to `tail`, where the walk over them cannot go on. -/
def FirstFault (bytes tail : Bytes) : Prop := ∃ records : List Bytes,
  bytes = records.flatten ++ tail ∧ (∀ record ∈ records, IsRecord record) ∧ Stuck tail

/-! ### Where the walk is stuck -/

theorem exists_split (bytes : Bytes) : ∃ (records : List Bytes) (tail : Bytes),
    bytes = records.flatten ++ tail ∧ (∀ record ∈ records, IsRecord record) ∧ (IsEnd tail ∨ Stuck tail) := by
  by_cases hend : IsEnd bytes
  · exact ⟨[], bytes, rfl, List.forall_mem_nil _, .inl hend⟩
  by_cases hrecord : ∃ record rest, bytes = record ++ rest ∧ IsRecord record
  · obtain ⟨record, rest, rfl, hrecord⟩ := hrecord
    have hheaded := hrecord.headed
    obtain ⟨records, tail, rfl, hrecords, htail⟩ := exists_split rest
    exact ⟨record :: records, tail, by rw [List.flatten_cons, List.append_assoc],
      List.forall_mem_cons.mpr ⟨hrecord, hrecords⟩, htail⟩
  · refine ⟨[], bytes, rfl, List.forall_mem_nil _, .inr ⟨hend, ?_⟩⟩
    exact fun record rest heq h => hrecord ⟨record, rest, heq, h⟩
termination_by bytes.length
decreasing_by
  simp only [*, Hob.headerSize, List.length_append] at *
  omega

theorem eq_of_isRecord {record record' rest rest' : Bytes} (h : IsRecord record) (h' : IsRecord record')
    (heq : record ++ rest = record' ++ rest') : record = record' ∧ rest = rest' := by
  have hheaded := h.headed
  have hheaded' := h'.headed
  rw [Hob.headerSize] at hheaded hheaded'
  have hlength : record.length = record'.length := by
    rw [← h.declared, ← h'.declared, ← Bytes.numberAt_append (q := rest) (by omega), heq,
      Bytes.numberAt_append (by omega)]
  exact List.append_inj heq hlength

theorem FirstFault.unique {bytes tail tail' : Bytes} (h : FirstFault bytes tail)
    (h' : FirstFault bytes tail') : tail = tail' := by
  obtain ⟨records, rfl, hrecords, hstuck⟩ := h
  obtain ⟨records', heq, hrecords', hstuck'⟩ := h'
  induction records generalizing records' with
  | nil =>
    cases records' with
    | nil => exact heq
    | cons record' records' =>
      rw [List.flatten_nil, List.nil_append, List.flatten_cons, List.append_assoc] at heq
      exact absurd (hrecords' _ List.mem_cons_self) (hstuck.not_record _ _ heq)
  | cons record records ih =>
    obtain ⟨hrecord, hrecords⟩ := List.forall_mem_cons.mp hrecords
    rw [List.flatten_cons, List.append_assoc] at heq
    cases records' with
    | nil => exact absurd hrecord (hstuck'.not_record _ _ heq.symm)
    | cons record' records' =>
      obtain ⟨hrecord', hrecords'⟩ := List.forall_mem_cons.mp hrecords'
      rw [List.flatten_cons, List.append_assoc] at heq
      obtain ⟨-, hrest⟩ := eq_of_isRecord hrecord hrecord' heq
      exact ih hrecords records' hrest hrecords'

/-! ### What is told about it -/

theorem parse_of_stuck {tail : Bytes} (h : Stuck tail) : parse tail = .error
    (if 4 ≤ tail.length ∧ ((declared tail).toNat < Hob.headerSize ∨ (declared tail).toNat % 8 ≠ 0)
      then .invalidLength (declared tail) else .truncated) := by
  by_cases hheaded : 4 ≤ tail.length
  · have hkind : tail.u16? 0 = some (Hob.kindOf tail) := Bytes.u16?_eq_some.mpr ⟨by omega, rfl⟩
    have hlength : tail.u16? 2 = some (declared tail) := Bytes.u16?_eq_some.mpr ⟨by omega, rfl⟩
    have hnot : Hob.kindOf tail ≠ Hob.endKind := fun hend => h.not_end ⟨hheaded, hend⟩
    rw [parse, hkind, hlength]
    dsimp only
    rw [if_neg hnot]
    by_cases hbad : (declared tail).toNat < Hob.headerSize ∨ (declared tail).toNat % 8 ≠ 0
    · rw [if_pos hbad, if_pos ⟨hheaded, hbad⟩]
    rw [if_neg hbad, if_neg fun hboth => hbad hboth.2]
    split
    · rfl
    · rename_i body hbody
      cases hhob : Hob.ofBody? (Hob.kindOf tail) body with
      | none => rfl
      | some hob =>
        obtain ⟨hrecord, -⟩ := isRecord_take hkind hlength hnot hbad hbody hhob
        exact absurd hrecord (h.not_record _ _ (List.take_append_drop _ tail).symm)
  · have hnone : tail.u16? 2 = none := by
      rw [Bytes.u16?, Bytes.word?_eq, if_neg (by omega)]
      rfl
    rw [parse, hnone, if_neg fun hboth => hheaded hboth.1]
    cases tail.u16? 0 <;> rfl

theorem parse_of_firstFault {bytes tail : Bytes} (h : FirstFault bytes tail) : parse bytes = .error
    (if 4 ≤ tail.length ∧ ((declared tail).toNat < Hob.headerSize ∨ (declared tail).toNat % 8 ≠ 0)
      then .invalidLength (declared tail) else .truncated) := by
  obtain ⟨records, rfl, hrecords, hstuck⟩ := h
  rw [parse_records_append hrecords, parse_of_stuck hstuck]
  rfl

/-- Where a record can have the length that is declared, the walk is stuck only when so many bytes are
not left or are too few for the type. -/
theorem Stuck.short {tail : Bytes} (h : Stuck tail) (hheaded : 4 ≤ tail.length)
    (hlength : Hob.headerSize ≤ (declared tail).toNat ∧ (declared tail).toNat % 8 = 0) :
    tail.length < (declared tail).toNat ∨
      (declared tail).toNat < Hob.headerSize + Hob.minBody (Hob.kindOf tail) := by
  refine Decidable.byContradiction fun hshort => ?_
  rw [not_or, Nat.not_lt, Nat.not_lt] at hshort
  obtain ⟨hwhole, hmin⟩ := hshort
  have hbody : tail.slice? Hob.headerSize ((declared tail).toNat - Hob.headerSize) =
      some ((tail.drop Hob.headerSize).take ((declared tail).toNat - Hob.headerSize)) := by
    rw [Bytes.slice?_eq, if_pos (by omega)]
  have hhob := Hob.ofBody?_eq (Hob.kindOf tail)
    ((tail.drop Hob.headerSize).take ((declared tail).toNat - Hob.headerSize))
  rw [if_pos (by rw [Bytes.length_of_slice? hbody]; omega)] at hhob
  have hkind : tail.u16? 0 = some (Hob.kindOf tail) := Bytes.u16?_eq_some.mpr ⟨by omega, rfl⟩
  have hread : tail.u16? 2 = some (declared tail) := Bytes.u16?_eq_some.mpr ⟨by omega, rfl⟩
  have hnot : Hob.kindOf tail ≠ Hob.endKind := fun hend => h.not_end ⟨hheaded, hend⟩
  obtain ⟨hrecord, -⟩ := isRecord_take hkind hread hnot (by omega) hbody hhob
  exact h.not_record _ _ (List.take_append_drop _ tail).symm hrecord

/-- Bytes are refused just when records fill them up to a place, and to one only, where neither a record
nor an end begins. A length there that no record can have is named. The bytes are told to be cut short when
that length cannot be read, when so many bytes are not left, and also when the record is whole but too short
for its type. -/
theorem parse_fault (bytes : Bytes) :
    ((∃ e, parse bytes = .error e) ↔ ∃ tail, FirstFault bytes tail) ∧
    ∀ tail, FirstFault bytes tail →
      (∀ tail', FirstFault bytes tail' → tail' = tail) ∧
      (∀ length, parse bytes = .error (.invalidLength length) ↔ 4 ≤ tail.length ∧
        declared tail = length ∧ (length.toNat < Hob.headerSize ∨ length.toNat % 8 ≠ 0)) ∧
      (parse bytes = .error .truncated ↔ tail.length < 4 ∨
        (Hob.headerSize ≤ (declared tail).toNat ∧ (declared tail).toNat % 8 = 0) ∧
          (tail.length < (declared tail).toNat ∨
            (declared tail).toNat < Hob.headerSize + Hob.minBody (Hob.kindOf tail))) := by
  refine ⟨⟨?_, fun ⟨tail, htail⟩ => ⟨_, parse_of_firstFault htail⟩⟩, fun tail htail =>
    ⟨fun tail' htail' => htail'.unique htail, fun length => ?invalid, ?truncated⟩⟩
  · rintro ⟨e, herror⟩
    obtain ⟨records, tail, rfl, hrecords, hend | hstuck⟩ := exists_split bytes
    · rw [parse_records hrecords hend] at herror
      cases herror
    · exact ⟨tail, records, rfl, hrecords, hstuck⟩
  case invalid =>
    rw [parse_of_firstFault htail, Except.error.injEq]
    split
    · rename_i hbad
      rw [HobError.invalidLength.injEq]
      constructor
      · rintro rfl
        exact ⟨hbad.1, rfl, hbad.2⟩
      · exact fun h => h.2.1
    · rename_i hgood
      refine iff_of_false nofun ?_
      rintro ⟨hheaded, rfl, hlength⟩
      exact hgood ⟨hheaded, hlength⟩
  case truncated =>
    obtain ⟨-, -, -, hstuck⟩ := id htail
    rw [parse_of_firstFault htail, Except.error.injEq]
    split
    · rename_i hbad
      exact iff_of_false nofun (by omega)
    · rename_i hgood
      refine iff_of_true rfl ?_
      rcases Nat.lt_or_ge tail.length 4 with hshort | hheaded
      · exact .inl hshort
      · have hlength : Hob.headerSize ≤ (declared tail).toNat ∧ (declared tail).toNat % 8 = 0 := by omega
        exact .inr ⟨hlength, hstuck.short hheaded hlength⟩

theorem parse_fault_odd_length :
    FirstFault (Hob.toBytes (.cpu 46 16) ++ [3, 0, 47, 0]) [3, 0, 47, 0] ∧
    parse (Hob.toBytes (.cpu 46 16) ++ [3, 0, 47, 0]) = .error (.invalidLength 47) := by
  have hencodable : Hob.Encodable (.cpu 46 16) := ⟨by decide, nofun⟩
  have hrecord := Hob.isRecord_toBytes hencodable
  have hstuck : Stuck [3, 0, 47, 0] := by
    refine ⟨fun hend => absurd hend.kind (by decide), fun record rest heq hrecord => ?_⟩
    have hheaded := hrecord.headed
    have hlength : 4 = record.length + rest.length := by rw [← List.length_append, ← heq]; rfl
    rw [Hob.headerSize] at hheaded
    omega
  have hfault : FirstFault (Hob.toBytes (.cpu 46 16) ++ [3, 0, 47, 0]) [3, 0, 47, 0] :=
    ⟨[Hob.toBytes (.cpu 46 16)], rfl, List.forall_mem_singleton.mpr hrecord, hstuck⟩
  obtain ⟨-, hinvalid, -⟩ := (parse_fault (Hob.toBytes (.cpu 46 16) ++ [3, 0, 47, 0])).2 _ hfault
  exact ⟨hfault, (hinvalid 47).mpr ⟨by decide, by decide, by decide⟩⟩

/-- A resource record that consists of its header lies within the bytes with an end behind it. Its length
is too small for its type, which is not what is told. -/
theorem undersized_record_truncated :
    parse [3, 0, 8, 0, 0, 0, 0, 0, 0xFF, 0xFF, 8, 0, 0, 0, 0, 0] = .error .truncated ∧
    parse [3, 0, 8, 0, 0, 0, 0, 0, 0xFF, 0xFF, 8, 0, 0, 0, 0, 0] ≠ .error (.invalidLength 8) := by
  have htold : parse [3, 0, 8, 0, 0, 0, 0, 0, 0xFF, 0xFF, 8, 0, 0, 0, 0, 0] = .error .truncated := by
    rw [parse]
    rfl
  refine ⟨htold, fun hother => ?_⟩
  rw [htold] at hother
  cases hother

end PlatformInit.HobList
