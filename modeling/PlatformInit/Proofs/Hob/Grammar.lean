import PlatformInit.Proofs.Bytes.Slicing
import PlatformInit.Proofs.Hob.Parsing

/-!
The accepted bytes as a grammar, and the walk over them round by round.

`rounds` is the loop on an offset into bytes that stay whole; `parse` drops what it has read. They
agree, and the loop never needs more rounds than the bytes have room for headers.
-/
set_option autoImplicit false
namespace PlatformInit

namespace HobList

open Hob (IsRecord)

/-- One round of the loop, which has come to `offset` and read `hobs`: how the loop ends, or where
it goes on. -/
def round (bytes : Bytes) (offset : Nat) (hobs : HobList) :
    Except HobError HobList ⊕ Nat × HobList :=
  match bytes.u16? offset, bytes.u16? (offset + 2) with
  | some kind, some length =>
    if kind = Hob.endKind then .inl (.ok hobs)
    else if length.toNat < Hob.headerSize ∨ length.toNat % 8 ≠ 0 then
      .inl (.error (.invalidLength length))
    else
      match bytes.slice? (offset + Hob.headerSize) (length.toNat - Hob.headerSize) with
      | none => .inl (.error .truncated)
      | some body =>
        match Hob.ofBody? kind body with
        | none => .inl (.error .truncated)
        | some hob => .inr (offset + length.toNat, hobs ++ [hob])
  | _, _ => .inl (.error .truncated)

/-- The result of the loop; `none` when it is not done after the given number of rounds. -/
def rounds (bytes : Bytes) : Nat → Nat → HobList → Option (Except HobError HobList)
  | 0, _, _ => none
  | n + 1, offset, hobs =>
    match round bytes offset hobs with
    | .inl result => some result
    | .inr (next, read) => rounds bytes n next read

section
variable {bytes : Bytes} {offset : Nat} (hle : offset ≤ bytes.length)
include hle

/-- What one round does: it ends the loop as `parse` ends, or passes one record of at least eight
bytes and leaves it to `parse` to go on. -/
theorem round_spec (hobs : HobList) :
    match round bytes offset hobs with
    | .inl result => (parse (bytes.drop offset)).map (hobs ++ ·) = result
    | .inr (next, read) => offset + 8 ≤ next ∧ next ≤ bytes.length ∧
        (parse (bytes.drop offset)).map (hobs ++ ·) = (parse (bytes.drop next)).map (read ++ ·) := by
  rw [round, parse, Bytes.u16?_drop hle, Bytes.u16?_drop hle]
  cases hkind : bytes.u16? offset with
  | none => rfl
  | some kind =>
    cases hlength : bytes.u16? (offset + 2) with
    | none => rfl
    | some length =>
      dsimp only
      by_cases hend : kind = Hob.endKind
      · rw [if_pos hend, if_pos hend]
        exact congrArg Except.ok (List.append_nil hobs)
      rw [if_neg hend, if_neg hend]
      by_cases hbad : length.toNat < Hob.headerSize ∨ length.toNat % 8 ≠ 0
      · rw [if_pos hbad, if_pos hbad]
        rfl
      rw [if_neg hbad, if_neg hbad, ← Bytes.slice?_drop hle]
      cases hbody : Bytes.slice? (bytes.drop offset) Hob.headerSize (length.toNat - Hob.headerSize) with
      | none => rfl
      | some body =>
        have hfits := Bytes.le_length_of_slice? hbody
        rw [List.length_drop] at hfits
        rw [Hob.headerSize] at hbad hfits
        cases hhob : Hob.ofBody? kind body with
        | none =>
          simp only [hhob]
          rfl
        | some hob =>
          simp only [hhob]
          refine ⟨by omega, by omega, ?_⟩
          rw [List.drop_drop]
          cases parse (bytes.drop (offset + length.toNat)) with
          | error e => rfl
          | ok rest => exact congrArg Except.ok (List.append_cons hobs hob rest)

end

theorem rounds_eq_parse {bytes : Bytes} {offset : Nat} (hle : offset ≤ bytes.length)
    (hobs : HobList) {n : Nat} (hn : (bytes.length - offset) / 8 < n) :
    rounds bytes n offset hobs = some ((parse (bytes.drop offset)).map (hobs ++ ·)) := by
  induction n generalizing offset hobs with
  | zero => omega
  | succ n ih =>
    have hround := round_spec hle hobs
    rw [rounds]
    split at hround
    · rename_i result heq
      rw [hround]
    · rename_i next read heq
      obtain ⟨hnext, hbound, hparse⟩ := hround
      rw [hparse]
      exact ih hbound read (by omega)

/-- `parse` accepts exactly the bytes that are records up to an end, and answers what the records
say. What follows the end does not matter, the answer comes back from its own bytes, and the loop
is done after at most one round for each eight bytes and one for the end. -/
theorem parse_grammar (bytes : Bytes) (hobs : HobList) :
    (parse bytes = .ok hobs ↔ ∃ (records : List Bytes) (tail : Bytes),
        bytes = records.flatten ++ tail ∧ (∀ record ∈ records, IsRecord record) ∧ IsEnd tail ∧
          hobs = records.map Hob.ofRecord) ∧
      (parse bytes = .ok hobs →
        (∀ suffix, parse (bytes ++ suffix) = .ok hobs) ∧ parse hobs.toBytes = .ok hobs) ∧
      rounds bytes (bytes.length / 8 + 1) 0 [] = some (parse bytes) := by
  refine ⟨⟨exists_records, ?_⟩, fun h => ?_, ?_⟩
  · rintro ⟨records, tail, rfl, hrecords, hend, rfl⟩
    exact parse_records hrecords hend
  · obtain ⟨records, tail, rfl, hrecords, hend, rfl⟩ := exists_records h
    refine ⟨fun suffix => ?_, ?_⟩
    · rw [List.append_assoc]
      exact parse_records hrecords (isEnd_append hend suffix)
    · rw [parse_toBytes, List.map_map]
      · congr 1
        exact List.map_congr_left fun record hmem => Hob.padded_ofRecord (hrecords record hmem)
      · rw [List.forall_mem_map]
        exact fun record hmem => Hob.encodable_ofRecord (hrecords record hmem)
  · rw [rounds_eq_parse (Nat.zero_le _) [] (by omega), List.drop_zero]
    cases parse bytes <;> rfl

theorem parse_grammar_oversized :
    parse [6, 0, 16, 0, 0, 0, 0, 0, 46, 16, 1, 2, 3, 4, 5, 6, 0xFF, 0xFF, 0, 0] = .ok [.cpu 46 16] ∧
      parse (toBytes [.cpu 46 16]) = .ok [.cpu 46 16] := by
  obtain ⟨haccepts, hcanonical, -⟩ := parse_grammar
    [6, 0, 16, 0, 0, 0, 0, 0, 46, 16, 1, 2, 3, 4, 5, 6, 0xFF, 0xFF, 0, 0] [.cpu 46 16]
  have hrecord : IsRecord [6, 0, 16, 0, 0, 0, 0, 0, 46, 16, 1, 2, 3, 4, 5, 6] := by
    constructor <;> decide
  have hend : IsEnd [0xFF, 0xFF, 0, 0] := by
    constructor <;> decide
  have hparse := haccepts.mpr ⟨[_], _, rfl, List.forall_mem_singleton.mpr hrecord, hend, by decide⟩
  exact ⟨hparse, (hcanonical hparse).2⟩

end HobList
end PlatformInit
