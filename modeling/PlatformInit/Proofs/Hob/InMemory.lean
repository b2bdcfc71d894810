import Mathlib.Tactic.Common
import PlatformInit.Hob.Address
import PlatformInit.Proofs.Hob.Grammar
import PlatformInit.Proofs.Memory
import PlatformInit.Proofs.Step

/-!
A list in memory against the same list as bytes.

In memory the length of a list is found by a walk of its own, which refuses less than `parse` does.
Where zeros follow, the walk comes to an end and finds the length of every list that `parse` accepts.
-/
set_option autoImplicit false
namespace PlatformInit

namespace Memory

theorem read_append (m : Memory) (a n k : Nat) : m.read a (n + k) = m.read a n ++ m.read (a + n) k := by
  rw [read, read, read, ← List.map_append, List.range'_append_1]

theorem numberAt_read (m : Memory) {a n width offset : Nat} (h : offset + width ≤ n) :
    (m.read a n).numberAt width offset = leValue (m.read (a + offset) width) := by
  obtain ⟨rest, rfl⟩ : ∃ rest, n = offset + (width + rest) := ⟨n - offset - width, by omega⟩
  rw [read_append, read_append, Bytes.numberAt, List.drop_left' (length_read ..),
    List.take_left' (length_read ..)]

theorem u16_eq (m : Memory) (a : Nat) :
    (m.u16 a).toNat = (m.byte a).toNat + 256 * (m.byte (a + 1)).toNat := by
  have hlow := (m.byte a).toNat_lt
  have hhigh := (m.byte (a + 1)).toNat_lt
  have hread : m.read a 2 = [m.byte a, m.byte (a + 1)] := rfl
  rw [u16, hread, leValue, leValue, leValue, UInt16.toNat_ofNat_of_lt' (Nat.lt_of_lt_of_le
    (by omega : _ < 65536) (by decide))]
  omega

/-- Memory holds `image` at `address` and nothing but zeros behind it. -/
structure HoldsAlone (m : Memory) (address : Nat) (image : Bytes) : Prop where
  bytes : m.read address image.length = image
  zeros : ∀ a, address + image.length ≤ a → m.byte a = 0

namespace HoldsAlone
variable {m : Memory} {address : Nat} {image : Bytes}

theorem read_eq (h : m.HoldsAlone address image) (count : Nat) :
    m.read address (image.length + count) = image ++ List.replicate count 0 := by
  rw [read_append, h.bytes]
  congr 1
  rw [List.eq_replicate_iff, length_read]
  refine ⟨rfl, fun b hb => ?_⟩
  obtain ⟨i, hi, rfl⟩ := List.mem_iff_getElem.mp hb
  rw [getElem_read]
  exact h.zeros _ (by omega)

theorem u16_zero (h : m.HoldsAlone address image) {a : Nat} (ha : address + image.length ≤ a) :
    m.u16 a = 0 := by
  apply UInt16.toNat_inj.mp
  rw [u16_eq, h.zeros a ha, h.zeros (a + 1) (by omega), UInt8.toNat_zero]
  rfl

end HoldsAlone

theorem holdsAlone_write (address : Nat) (image : Bytes) :
    (blank.write address image).HoldsAlone address image := by
  refine ⟨read_write .., fun a ha => ?_⟩
  rw [byte_write, if_neg (by omega), List.getD_eq_getElem?_getD,
    List.getElem?_eq_none (by omega), Option.getD_none]
  rfl

end Memory

namespace HobList

open Hob (IsRecord)
open Memory (HoldsAlone)

/-! ### The walk -/

/-- One round of the walk, `walked` bytes behind the address: how it ends, or how far it has come. -/
def walkRound (m : Memory) (address walked : Nat) : Fallible HobError Nat ⊕ Nat :=
  if address + walked < UInt64.size then
    if m.u16 (address + walked) = Hob.endKind then
      .inl (Fallible.ofHalting (fit64 (walked + Hob.headerSize)))
    else if (m.u16 (address + walked + 2)).toNat < Hob.headerSize then
      .inl (.fail (.invalidLength (m.u16 (address + walked + 2))))
    else .inr (walked + (m.u16 (address + walked + 2)).toNat)
  else .inl (.error (.halt .overflow))

def walkRounds (m : Memory) (address : Nat) : Nat → Nat → Option (Fallible HobError Nat)
  | 0, _ => none
  | n + 1, walked =>
    match walkRound m address walked with
    | .inl result => some result
    | .inr next => walkRounds m address n next

/-- `parseAt` with at most `n` rounds for the walk and as many for the records. -/
def parseAtWithin (m : Memory) (address n : Nat) : Option (Fallible HobError HobList) :=
  match walkRounds m address n 0 with
  | none => none
  | some (.error e) => some (.error e)
  | some (.ok length) => (rounds (m.read address length) n 0 []).map Fallible.ofExcept

section
variable {m : Memory} {address walked : Nat} {image : Bytes}

theorem span_eq (m : Memory) (address walked : Nat) : span m address walked =
    match walkRound m address walked with
    | .inl result => result
    | .inr next => span m address next := by
  rw [span, walkRound]
  split_ifs <;> rfl

theorem endKind_inside (h : m.HoldsAlone address image) {k : Nat}
    (hkind : m.u16 (address + k) = Hob.endKind) : k + 2 ≤ image.length := by
  have hlow := (m.byte (address + k)).toNat_lt
  have hvalue := m.u16_eq (address + k)
  rw [hkind, show Hob.endKind.toNat = 65535 from rfl] at hvalue
  by_contra hout
  rw [h.zeros (address + k + 1) (by omega), UInt8.toNat_zero] at hvalue
  omega

theorem walkRound_inr (h : m.HoldsAlone address image) {next : Nat}
    (hround : walkRound m address walked = .inr next) :
    walked < image.length ∧ walked + 8 ≤ next ∧ next ≤ walked + 65535 := by
  have hword := (m.u16 (address + walked + 2)).toNat_lt
  rw [walkRound] at hround
  split_ifs at hround with hin hend hshort
  rw [Sum.inr.injEq] at hround
  rw [Hob.headerSize] at hshort
  refine ⟨?_, by omega, by omega⟩
  by_contra hout
  rw [h.u16_zero (by omega), UInt16.toNat_zero] at hshort
  omega

theorem walkRounds_eq_span (h : m.HoldsAlone address image) {n : Nat}
    (hn : image.length ≤ walked + 8 * n) :
    walkRounds m address (n + 1) walked = some (span m address walked) := by
  induction n generalizing walked with
  | zero =>
    rw [walkRounds, span_eq]
    cases hround : walkRound m address walked with
    | inl result => rfl
    | inr next =>
      have := walkRound_inr h hround
      omega
  | succ n ih =>
    rw [walkRounds, span_eq]
    cases hround : walkRound m address walked with
    | inl result => rfl
    | inr next =>
      have hnext := (walkRound_inr h hround).2.1
      exact ih (by omega)

theorem span_eq_ok {length : Nat} (hspan : span m address walked = .ok length) :
    ∃ k, length = k + Hob.headerSize ∧ m.u16 (address + k) = Hob.endKind := by
  fun_induction span m address walked with
  | case1 walked hin hend =>
    have hfit := fit64_eq_ok_iff.mp (Fallible.ofHalting_eq_ok.mp hspan)
    exact ⟨walked, hfit.1.symm, hend⟩
  | case2 | case4 => cases hspan
  | case3 walked hin hend hshort ih => exact ih hspan

theorem u16_of_isEnd {a : Nat} {tail : Bytes} (hread : m.read a tail.length = tail)
    (hend : IsEnd tail) : m.u16 a = Hob.endKind := by
  have hheaded := hend.headed
  have hvalue : (m.read a tail.length).numberAt 2 0 = leValue (m.read (a + 0) 2) :=
    m.numberAt_read (by omega)
  rw [hread, Nat.add_zero] at hvalue
  rw [Memory.u16, ← hvalue]
  exact hend.kind

theorem isEnd_read {a : Nat} (hkind : m.u16 a = Hob.endKind) : IsEnd (m.read a Hob.headerSize) := by
  constructor
  · rw [Memory.length_read]
    decide
  · rw [Hob.kindOf, m.numberAt_read (by decide), Nat.add_zero]
    exact hkind

theorem span_records {records : List Bytes} {tail : Bytes}
    (hread : m.read (address + walked) (records.flatten ++ tail).length = records.flatten ++ tail)
    (hrecords : ∀ record ∈ records, IsRecord record) (hend : IsEnd tail)
    (hinside : address + walked + records.flatten.length < UInt64.size)
    (hfits : walked + records.flatten.length + Hob.headerSize < UInt64.size) :
    span m address walked = .ok (walked + records.flatten.length + Hob.headerSize) := by
  induction records generalizing walked with
  | nil =>
    have hkind : m.u16 (address + walked) = Hob.endKind := u16_of_isEnd hread hend
    rw [List.flatten_nil, List.length_nil, Nat.add_zero] at hinside hfits ⊢
    rw [span_eq, walkRound, if_pos hinside, if_pos hkind, fit64, if_pos hfits]
    rfl
  | cons record records ih =>
    obtain ⟨hrecord, hrest⟩ := List.forall_mem_cons.mp hrecords
    have hheaded := hrecord.headed
    have hnumber {width offset : Nat} (hfield : offset + width ≤ record.length) :
        leValue (m.read (address + walked + offset) width) = record.numberAt width offset := by
      rw [← m.numberAt_read (n := ((record :: records).flatten ++ tail).length) (by simp; omega), hread,
        List.flatten_cons, List.append_assoc, Bytes.numberAt_append hfield]
    rw [Hob.headerSize] at hheaded
    have hkind : m.u16 (address + walked) = Hob.kindOf record := by
      rw [Memory.u16, Hob.kindOf, ← hnumber (by omega), Nat.add_zero]
    have hlength : (m.u16 (address + walked + 2)).toNat = record.length := by
      have hvalue : leValue (m.read (address + walked + 2) 2) = record.numberAt 2 2 :=
        hnumber (by omega)
      rw [hrecord.declared] at hvalue
      have hlt := Bytes.numberAt_lt record 2 2
      rw [hrecord.declared] at hlt
      rw [Memory.u16, hvalue]
      exact UInt16.toNat_ofNat_of_lt' hlt
    rw [List.flatten_cons, List.length_append] at hinside hfits ⊢
    rw [span_eq, walkRound, if_pos (by omega), if_neg (hkind ▸ hrecord.not_end), hlength,
      if_neg (by rw [Hob.headerSize]; omega)]
    dsimp only
    have hbehind : m.read (address + (walked + record.length)) (records.flatten ++ tail).length =
        records.flatten ++ tail := by
      rw [List.flatten_cons, List.append_assoc, List.length_append, Memory.read_append,
        Nat.add_assoc] at hread
      exact (List.append_inj hread (Memory.length_read ..)).2
    rw [ih hbehind hrest (by omega) (by omega)]
    congr 1
    omega

theorem span_ne_halt (h : m.HoldsAlone address image)
    (hroom : address + image.length + 0x20000 ≤ UInt64.size) (hwalked : walked ≤ image.length + 0xFFFF)
    (why : Halt) : span m address walked ≠ .error (.halt why) := by
  fun_induction span m address walked with
  | case1 walked hin hend =>
    have hinside := endKind_inside h hend
    rw [fit64, Hob.headerSize, if_pos (by omega)]
    intro hhalt
    cases hhalt
  | case2 =>
    intro hhalt
    cases hhalt
  | case3 walked hin hend hshort ih =>
    have hround : walkRound m address walked =
        .inr (walked + (m.u16 (address + walked + 2)).toNat) := by
      rw [walkRound, if_pos hin, if_neg hend, if_neg hshort]
    have := walkRound_inr h hround
    exact ih (by omega)
  | case4 walked hout => omega

/-! ### The list that is found -/

theorem parseAt_eq_ok {hobs : HobList} : parseAt m address = .ok hobs ↔
    ∃ length, span m address 0 = .ok length ∧ parse (m.read address length) = .ok hobs := by
  rw [parseAt, Fallible.bind_eq_ok]
  simp only [Fallible.ofExcept_eq_ok]

theorem parse_append {bytes : Bytes} {hobs : HobList} (hparse : parse bytes = .ok hobs)
    (suffix : Bytes) : parse (bytes ++ suffix) = .ok hobs := by
  obtain ⟨records, tail, rfl, hrecords, hend, rfl⟩ := exists_records hparse
  rw [List.append_assoc]
  exact parse_records hrecords (isEnd_append hend suffix)

theorem parse_of_parseAt (h : m.HoldsAlone address image) {hobs : HobList}
    (hparse : parseAt m address = .ok hobs) :
    parse (image ++ List.replicate 0x20000 0) = .ok hobs := by
  obtain ⟨length, hspan, hlist⟩ := parseAt_eq_ok.mp hparse
  obtain ⟨k, rfl, hkind⟩ := span_eq_ok hspan
  have hinside := endKind_inside h hkind
  obtain ⟨rest, hrest⟩ : ∃ rest, image.length + 0x20000 = k + Hob.headerSize + rest :=
    ⟨image.length + 0x20000 - (k + 8), by rw [Hob.headerSize]; omega⟩
  rw [← h.read_eq, hrest, Memory.read_append]
  exact parse_append hlist _

theorem parseAt_of_parse (h : m.HoldsAlone address image)
    (hinside : address + image.length ≤ UInt64.size)
    (hlength : image.length + 0x20000 ≤ UInt64.size) {hobs : HobList}
    (hparse : parse (image ++ List.replicate 0x20000 0) = .ok hobs) : parseAt m address = .ok hobs := by
  obtain ⟨records, tail, hsplit, hrecords, hend, rfl⟩ := exists_records hparse
  have hread : m.read address (records.flatten ++ tail).length = records.flatten ++ tail := by
    rw [← hsplit, List.length_append, List.length_replicate, h.read_eq]
  have hboth := hread
  rw [List.length_append, Memory.read_append] at hboth
  obtain ⟨hfront, htail⟩ := List.append_inj hboth (Memory.length_read ..)
  have hkind := u16_of_isEnd htail hend
  have hend' := endKind_inside h hkind
  have hspan : span m address 0 = .ok (0 + records.flatten.length + Hob.headerSize) :=
    span_records hread hrecords hend (by omega) (by rw [Hob.headerSize]; omega)
  rw [Nat.zero_add] at hspan
  refine parseAt_eq_ok.mpr ⟨_, hspan, ?_⟩
  rw [Memory.read_append, hfront]
  exact parse_records hrecords (isEnd_read hkind)

theorem parseAtWithin_eq (h : m.HoldsAlone address image) :
    parseAtWithin m address ((image.length + 7) / 8 + 1) = some (parseAt m address) := by
  rw [parseAtWithin, walkRounds_eq_span h (by omega), parseAt]
  cases hspan : span m address 0 with
  | error e => rfl
  | ok length =>
    obtain ⟨k, rfl, hkind⟩ := span_eq_ok hspan
    have hinside := endKind_inside h hkind
    dsimp only
    rw [rounds_eq_parse (Nat.zero_le _) [] (by rw [Memory.length_read, Hob.headerSize]; omega),
      List.drop_zero, Option.map_some]
    change some (Fallible.ofExcept ((parse _).map id)) = some (Fallible.ofExcept (parse _))
    cases parse (m.read address (k + Hob.headerSize)) <;> rfl

theorem parseAt_ne_halt (h : m.HoldsAlone address image)
    (hroom : address + image.length + 0x20000 ≤ UInt64.size) (why : Halt) :
    parseAt m address ≠ .error (.halt why) := by
  intro hhalt
  rw [parseAt] at hhalt
  cases hspan : span m address 0 with
  | error e =>
    rw [hspan] at hhalt
    cases hhalt
    exact span_ne_halt h hroom (Nat.zero_le _) why hspan
  | ok length =>
    rw [hspan] at hhalt
    change Fallible.ofExcept (parse (m.read address length)) = _ at hhalt
    cases hparse : parse (m.read address length) with
    | error e =>
      rw [hparse] at hhalt
      cases hhalt
    | ok hobs =>
      rw [hparse] at hhalt
      cases hhalt

/-- Bytes in memory with zeros behind them are the same list as the bytes followed by zeros, and are no
list where these are none. The search ends after a round for each eight bytes and one more; it stops the
machine only where memory ends. -/
theorem parseAt_agrees (h : m.HoldsAlone address image)
    (hinside : address + image.length ≤ UInt64.size)
    (hlength : image.length + 0x20000 ≤ UInt64.size) :
    parseAtWithin m address ((image.length + 7) / 8 + 1) = some (parseAt m address) ∧
      (∀ hobs, parseAt m address = .ok hobs ↔
        parse (image ++ List.replicate 0x20000 0) = .ok hobs) ∧
      (address + image.length + 0x20000 ≤ UInt64.size →
        ((∃ e, parseAt m address = .error (.error e)) ↔
          ∃ e, parse (image ++ List.replicate 0x20000 0) = .error e)) := by
  have hagree : ∀ hobs, parseAt m address = .ok hobs ↔
      parse (image ++ List.replicate 0x20000 0) = .ok hobs := fun hobs =>
    ⟨parse_of_parseAt h, parseAt_of_parse h hinside hlength⟩
  refine ⟨parseAtWithin_eq h, hagree, fun hroom => ⟨?_, ?_⟩⟩
  · rintro ⟨e, hrefused⟩
    cases hparse : parse (image ++ List.replicate 0x20000 0) with
    | error e' => exact ⟨e', rfl⟩
    | ok hobs =>
      rw [(hagree hobs).mpr hparse] at hrefused
      cases hrefused
  · rintro ⟨e, hrefused⟩
    cases hparse : parseAt m address with
    | ok hobs =>
      rw [(hagree hobs).mp hparse] at hrefused
      cases hrefused
    | error fault =>
      cases fault with
      | error e' => exact ⟨e', rfl⟩
      | halt why => exact absurd hparse (parseAt_ne_halt h hroom why)

theorem parseAt_agrees_odd_address :
    parseAt (Memory.blank.write 0x1003 (toBytes [.cpu 46 16])) 0x1003 = .ok [.cpu 46 16] := by
  have hlength : (toBytes [.cpu 46 16]).length = 24 := by decide
  have hparse : parse (toBytes [.cpu 46 16]) = .ok [.cpu 46 16] := by decide +kernel
  obtain ⟨-, hagree, -⟩ := parseAt_agrees (Memory.holdsAlone_write 0x1003 (toBytes [.cpu 46 16]))
    (by rw [hlength]; decide) (by rw [hlength]; decide)
  exact (hagree _).mpr (parse_append hparse _)

end
end HobList
end PlatformInit
