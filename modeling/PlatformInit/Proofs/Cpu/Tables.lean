import PlatformInit.Cpu.Stage
import PlatformInit.Proofs.Context.Record
import PlatformInit.Proofs.Cpu.Gates

/-!
The descriptor tables of a stage in memory, and records that lie apart from them.
-/
set_option autoImplicit false
namespace PlatformInit.StageTables
variable {ω : Type} {t : StageTables} {context : UInt64} {cpu : StageCpu ω} {w : ω} {m : Memory}
  {a : UInt64}

/-- The record at `a` lies apart from both tables. -/
structure ClearOf (t : StageTables) (a : UInt64) : Prop where
  gdt : GlobalContext.Clear a t.gdt.toNat Gdt.size
  idt : GlobalContext.Clear a t.idt.toNat Idt.size

/-- Memory holds both tables in full, and the word in front of the gates names the context. -/
structure Hold (t : StageTables) (context : UInt64) (selector : UInt16) (stub : UInt8 → UInt64)
    (m : Memory) : Prop where
  gdt : m.read t.gdt.toNat Gdt.size = Gdt.toBytes
  idt : Idt.load m t.idt.toNat = .populated context selector stub

theorem length_toBytes_populated (context : UInt64) (selector : UInt16) (stub : UInt8 → UInt64) :
    (Idt.populated context selector stub).toBytes.length = Idt.size := by
  rw [Idt.length_toBytes, Idt.length_populated]
  rfl

theorem read_prepare {start length : Nat} (hgdt : Memory.Apart start length t.gdt.toNat Gdt.size)
    (hidt : Memory.Apart start length t.idt.toNat Idt.size) :
    (t.prepare context cpu w m).read start length = m.read start length := by
  rw [← length_toBytes_populated context (cpu.codeSelector w) (cpu.stub w)] at hidt
  have hgdt' : Memory.Apart start length t.gdt.toNat Gdt.toBytes.length := hgdt
  rw [prepare, Memory.read_write_of_apart _ hidt, Memory.read_write_of_apart m hgdt']

theorem load_prepare (h : t.ClearOf a) :
    GlobalContext.load (t.prepare context cpu w m) a = GlobalContext.load m a := by
  rw [GlobalContext.load, GlobalContext.load, read_prepare h.gdt h.idt]

theorem u64_prepare : (t.prepare context cpu w m).u64 t.idt.toNat = context := Idt.u64_write _ _ _

theorem prepare_hold (h : Memory.Apart t.gdt.toNat Gdt.size t.idt.toNat Idt.size) :
    t.Hold context (cpu.codeSelector w) (cpu.stub w) (t.prepare context cpu w m) where
  gdt := by
    rw [← length_toBytes_populated context (cpu.codeSelector w) (cpu.stub w)] at h
    rw [prepare, Memory.read_write_of_apart _ h]
    exact m.read_write t.gdt.toNat Gdt.toBytes
  idt := Idt.load_write _ _ (Idt.length_populated context (cpu.codeSelector w) (cpu.stub w))

namespace Hold
variable {selector : UInt16} {stub : UInt8 → UInt64}

theorem store (h : t.Hold context selector stub m) (c : GlobalContext) (ha : t.ClearOf a) :
    t.Hold context selector stub (GlobalContext.store m a c) where
  gdt := by rw [GlobalContext.read_store_of_clear m c ha.gdt, h.gdt]
  idt := by
    have hidt : Memory.Apart t.idt.toNat Idt.size a.toNat c.toBytes.length := by
      rw [GlobalContext.length_toBytes]
      exact ha.idt.symm
    rw [GlobalContext.store, Idt.load_write_of_apart m hidt, h.idt]

theorem word (h : t.Hold context selector stub m) : m.u64 t.idt.toNat = context := by
  have hloaded : (Idt.load m t.idt.toNat).context = m.u64 t.idt.toNat := by rw [Idt.load]
  rw [← hloaded, h.idt, Idt.populated]

theorem gate (h : t.Hold context selector stub m) {v : Nat} (hv : v < Idt.gateCount) :
    (Gate.load m (t.idt.toNat + 8 + Gate.size * v)).Leads selector (stub (.ofNat v)) := by
  have hloaded : (Idt.load m t.idt.toNat).gates[v]? =
      some (Gate.load m (t.idt.toNat + 8 + Gate.size * v)) := by
    rw [Idt.load, List.getElem?_map, List.getElem?_range hv, Option.map_some]
  rw [h.idt, Idt.getElem?_populated context selector stub hv] at hloaded
  rw [← Option.some.inj hloaded]
  exact Gate.interrupt_leads _ _

end Hold

end PlatformInit.StageTables
