import PlatformInit.Cpu.Idt
import PlatformInit.Proofs.Bytes.Reading
import PlatformInit.Proofs.Memory

/-!
Gate descriptors as bits and as bytes.

A gate scatters its address over three fields; put together they are the address again. A table that
has been written is loaded again, word and gates.
-/
set_option autoImplicit false
namespace PlatformInit

namespace Memory
variable (m : Memory) (address : Nat) {bytes : Bytes} {i : Nat}

theorem u32_write (h : i + 4 ≤ bytes.length) :
    (m.write address bytes).u32 (address + i) = .ofNat (bytes.numberAt 4 i) := by
  rw [u32, read_write_within m address h, Bytes.numberAt]

theorem u64_write (h : i + 8 ≤ bytes.length) :
    (m.write address bytes).u64 (address + i) = .ofNat (bytes.numberAt 8 i) := by
  rw [u64, read_write_within m address h, Bytes.numberAt]

end Memory

namespace GateLow

theorem ofBits_toBits (g : GateLow) : ofBits g.toBits = g := by
  have hpresent : g.toBits.getLsbD 47 = g.present := by
    simp only [toBits, BitVec.getLsbD_append, Nat.reduceLT, Nat.reduceSub, decide_true, if_true,
      if_false, BitVec.getLsbD_ofBool, Bool.true_and]
  unfold ofBits
  rw [hpresent]
  unfold toBits
  simp (disch := decide) only [BitVec.extractLsb'_append_eq_of_le,
    BitVec.extractLsb'_append_eq_of_add_le, Nat.reduceSub, BitVec.extractLsb'_eq_self]

end GateLow

namespace Gate

theorem handler_interrupt (handler : UInt64) (selector : UInt16) :
    (interrupt handler selector).handler = handler := by
  have hhigh : handler.toBitVec.extractLsb' 32 32 ++ handler.toBitVec.extractLsb' 16 16 =
      handler.toBitVec.extractLsb' 16 48 := BitVec.extractLsb'_append_extractLsb'_eq_extractLsb' rfl
  have hall : handler.toBitVec.extractLsb' 16 48 ++ handler.toBitVec.extractLsb' 0 16 =
      handler.toBitVec.extractLsb' 0 64 := BitVec.extractLsb'_append_extractLsb'_eq_extractLsb' rfl
  apply UInt64.toBitVec_inj.mp
  change handler.toBitVec.extractLsb' 32 32 ++ handler.toBitVec.extractLsb' 16 16
    ++ handler.toBitVec.extractLsb' 0 16 = handler.toBitVec
  rw [hhigh, hall, BitVec.extractLsb'_eq_self]

/-- A present interrupt gate for the most privileged ring that leads to `handler`. -/
structure Leads (g : Gate) (selector : UInt16) (handler : UInt64) : Prop where
  present : g.low.present = true
  privilege : g.low.privilege = 0
  type : g.low.type = interruptType.toBitVec.setWidth 4
  selector : g.low.selector = selector.toBitVec
  handler : g.handler = handler

theorem interrupt_leads (handler : UInt64) (selector : UInt16) :
    (interrupt handler selector).Leads selector handler :=
  ⟨rfl, rfl, rfl, rfl, handler_interrupt handler selector⟩

@[simp] theorem length_toBytes (g : Gate) : g.toBytes.length = size := by
  simp [toBytes, size]

theorem load_write (m : Memory) (address : Nat) (g : Gate) (before after : Bytes) :
    load (m.write address (before ++ (g.toBytes ++ after))) (address + before.length) = g := by
  have hlength : (before ++ (g.toBytes ++ after)).length = before.length + (16 + after.length) := by
    rw [List.length_append, List.length_append, length_toBytes]
    rfl
  have hbytes : g.toBytes ++ after =
      le64 ⟨g.low.toBits⟩ ++ (le32 g.offsetHigh ++ (le32 g.reserved ++ after)) := by
    rw [toBytes, List.append_assoc, List.append_assoc]
  unfold load
  rw [Nat.add_assoc, Nat.add_assoc, Memory.u64_write m address (by omega),
    Memory.u32_write m address (by omega), Memory.u32_write m address (by omega),
    Bytes.numberAt_append_of_le (Nat.le_refl _), Bytes.numberAt_append_of_le (Nat.le_add_right _ _),
    Bytes.numberAt_append_of_le (Nat.le_add_right _ _), Nat.sub_self, Nat.add_sub_cancel_left,
    Nat.add_sub_cancel_left, hbytes, Bytes.numberAt_le64, UInt64.ofNat_toNat]
  have hhigh : Bytes.numberAt (le64 ⟨g.low.toBits⟩ ++ (le32 g.offsetHigh ++ (le32 g.reserved ++ after)))
      4 8 = g.offsetHigh.toNat := by
    rw [Bytes.numberAt_append_of_le (by simp), length_le64, Bytes.numberAt_le32]
  have hreserved : Bytes.numberAt
      (le64 ⟨g.low.toBits⟩ ++ (le32 g.offsetHigh ++ (le32 g.reserved ++ after))) 4 12 =
        g.reserved.toNat := by
    rw [Bytes.numberAt_append_of_le (by simp), length_le64, Bytes.numberAt_append_of_le (by simp),
      length_le32, Bytes.numberAt_le32]
  rw [hhigh, hreserved, UInt32.ofNat_toNat, UInt32.ofNat_toNat, GateLow.ofBits_toBits]

theorem load_write_of_apart (m : Memory) {address start : Nat} {bytes : Bytes}
    (h : Memory.Apart address size start bytes.length) :
    load (m.write start bytes) address = load m address := by
  have happart (i n : Nat) (hi : i + n ≤ size) : Memory.Apart (address + i) n start bytes.length := by
    unfold Memory.Apart at h ⊢
    omega
  have hlow : Memory.Apart address 8 start bytes.length := happart 0 8 (by decide)
  rw [load, load, Memory.u64_write_of_apart m hlow,
    Memory.u32_write_of_apart m (happart 8 4 (by decide)),
    Memory.u32_write_of_apart m (happart 12 4 (by decide))]

end Gate

namespace Idt

@[simp] theorem length_flatMap_toBytes (gates : List Gate) :
    (gates.flatMap Gate.toBytes).length = Gate.size * gates.length := by
  induction gates with
  | nil => rfl
  | cons g gates ih =>
    rw [List.flatMap_cons, List.length_append, ih, Gate.length_toBytes, List.length_cons, Nat.mul_succ]
    omega

@[simp] theorem length_toBytes (t : Idt) : t.toBytes.length = 8 + Gate.size * t.gates.length := by
  rw [toBytes, List.length_append, length_le64, length_flatMap_toBytes]

theorem u64_write (m : Memory) (address : Nat) (t : Idt) :
    (m.write address t.toBytes).u64 address = t.context := by
  have hword : (m.write address t.toBytes).u64 (address + 0) = .ofNat (t.toBytes.numberAt 8 0) :=
    m.u64_write address (by rw [length_toBytes]; omega)
  rw [Nat.add_zero] at hword
  rw [hword, toBytes, Bytes.numberAt_le64, UInt64.ofNat_toNat]

theorem load_write (m : Memory) (address : Nat) {t : Idt} (h : t.gates.length = gateCount) :
    load (m.write address t.toBytes) address = t := by
  have hgates : (List.range gateCount).map
      (fun i => Gate.load (m.write address t.toBytes) (address + 8 + Gate.size * i)) = t.gates := by
    apply List.ext_getElem
    · rw [List.length_map, List.length_range, h]
    · intro i hi hi'
      rw [List.getElem_map, List.getElem_range]
      have hsplit : t.gates = t.gates.take i ++ t.gates[i] :: t.gates.drop (i + 1) := by
        rw [List.getElem_cons_drop, List.take_append_drop]
      have hbefore : (le64 t.context ++ (t.gates.take i).flatMap Gate.toBytes : Bytes).length =
          8 + Gate.size * i := by
        rw [List.length_append, length_le64, length_flatMap_toBytes, List.length_take,
          Nat.min_eq_left (Nat.le_of_lt hi')]
      have hbytes : t.toBytes = (le64 t.context ++ (t.gates.take i).flatMap Gate.toBytes) ++
          (t.gates[i].toBytes ++ (t.gates.drop (i + 1)).flatMap Gate.toBytes) := by
        conv =>
          lhs
          rw [toBytes, hsplit]
        rw [List.flatMap_append, List.flatMap_cons, List.append_assoc]
      rw [Nat.add_assoc, ← hbefore, hbytes, Gate.load_write]
  rw [load, u64_write, hgates]

theorem load_write_of_apart (m : Memory) {address start : Nat} {bytes : Bytes}
    (h : Memory.Apart address size start bytes.length) :
    load (m.write start bytes) address = load m address := by
  have hsize : address + 552 ≤ start ∨ start + bytes.length ≤ address := h
  have hword : Memory.Apart address 8 start bytes.length := by
    unfold Memory.Apart
    omega
  have hgate (i : Nat) (hi : i < 34) :
      Memory.Apart (address + 8 + 16 * i) 16 start bytes.length := by
    unfold Memory.Apart
    omega
  have hgates : (List.range gateCount).map
        (fun i => Gate.load (m.write start bytes) (address + 8 + Gate.size * i)) =
      (List.range gateCount).map fun i => Gate.load m (address + 8 + Gate.size * i) :=
    List.map_congr_left fun i hi => Gate.load_write_of_apart m (hgate i (List.mem_range.mp hi))
  rw [load, load, m.u64_write_of_apart hword, hgates]

theorem getElem?_populated (context : UInt64) (selector : UInt16) (stub : UInt8 → UInt64) {v : Nat}
    (hv : v < gateCount) :
    (populated context selector stub).gates[v]? = some (.interrupt (stub (.ofNat v)) selector) := by
  rw [populated, List.getElem?_map, List.getElem?_range hv, Option.map_some]

theorem length_populated (context : UInt64) (selector : UInt16) (stub : UInt8 → UInt64) :
    (populated context selector stub).gates.length = gateCount := by
  rw [populated, List.length_map, List.length_range]

end Idt
end PlatformInit
