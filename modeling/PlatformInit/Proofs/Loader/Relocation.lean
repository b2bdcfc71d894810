import PlatformInit.Proofs.Loader.PoolLayout
import PlatformInit.Proofs.Loader.Stable

/-!
The context and its tables are complete whenever the processor can find them.

The word below the interrupt table names the context. Before the table registers are loaded, in
temporary memory and again in the pool, the record that it names has been written in full: in the pool
it is a copy of the active record, which no other write reaches.
-/
set_option autoImplicit false
namespace PlatformInit

open Step (Ends Keeps)

namespace GlobalContext
variable {m : Memory} {a : UInt64} {c : GlobalContext}

/-- Memory holds a whole record with the signature at `a`. -/
def Complete (m : Memory) (a : UInt64) : Prop :=
  ∃ c : GlobalContext, c.isValid ∧ m.read a.toNat size = c.toBytes

theorem complete_store (m : Memory) (a : UInt64) (hc : c.isValid) : Complete (store m a c) a :=
  ⟨c, hc, read_store m a c⟩

theorem Complete.congr {m' : Memory} (h : Complete m a)
    (hread : m'.read a.toNat size = m.read a.toNat size) : Complete m' a := by
  obtain ⟨c, hc, hbytes⟩ := h
  exact ⟨c, hc, hread.trans hbytes⟩

theorem Complete.isValid_load (h : Complete m a) : (load m a).isValid := by
  obtain ⟨c, hc, hbytes⟩ := h
  rwa [load, hbytes, ofBytes_toBytes]

theorem isValid_temporary {stackTop poolSize : UInt32} (h : temporary stackTop poolSize = .ok c) :
    c.isValid := by
  obtain ⟨poolEnd, -, h⟩ := Fallible.bind_eq_ok.mp h
  cases h
  rfl

end GlobalContext

namespace ContextStore
variable {s s' : ContextStore} {m : Memory} {a : UInt64}

theorem eq_of_install (h : s.install m a = .ok s') : s' = ⟨a, .temporary⟩ := by
  unfold install at h
  split at h
  · cases h
  split at h
  · exact (Except.ok.inj h).symm
  · cases h

theorem eq_of_relocate {f : GlobalContext → GlobalContext} {r : ContextStore × Memory}
    (h : s.relocate m a f = .ok r) : s.address ≠ 0 ∧
      r = (⟨a, .permanent⟩, GlobalContext.store m a (f (GlobalContext.load m s.address))) := by
  unfold relocate get at h
  split at h
  · cases h
  · cases h
  by_cases haddress : s.address = 0
  · rw [if_pos haddress] at h
    cases h
  · rw [if_neg haddress] at h
    exact ⟨haddress, (Except.ok.inj h).symm⟩

end ContextStore

open GlobalContext (Complete)

/-- When tables are loaded, the word below the interrupt table names a record that is complete. -/
def LoaderCall.FindsContext : LoaderCall → Prop
  | loadTables memory _ idt => Complete memory (memory.u64 (idt.base - 8).toNat)
  | _ => True

/-- What is given to an operation does not overlap: the record in temporary memory and its tables, and
the active record and the pool. -/
def LoaderOp.Sound {ω : Type} (p : LoaderParts ω) (l : Loader ω) : LoaderOp → Prop
  | installTemporary context tables _ => tables.ClearOf context
  | relocate hobs => ∀ layout, Loader.layoutBelow hobs p.config = .ok layout →
    layout.Outside l.store.address.toNat GlobalContext.size
  | _ => True

namespace Loader
variable {ω : Type} {p : LoaderParts ω} {l t : Loader ω}

/-- The states between the operations of a boot, in any order. Others may change memory outside the
active record. -/
inductive Reached (p : LoaderParts ω) : Loader ω → Prop where
  | start {l : Loader ω} (hstage : l.stage = .preMemory) (hstore : l.store = .empty) : Reached p l
  | perform {l t : Loader ω} (h : Reached p l) {op : LoaderOp} (hop : op.Sound p l)
      (hrun : perform p op l = .ok () t) : Reached p t
  | others {l : Loader ω} (h : Reached p l) {memory : Memory}
      (hmemory : l.store.address ≠ 0 → memory.read l.store.address.toNat GlobalContext.size =
        l.memory.read l.store.address.toNat GlobalContext.size) : Reached p { l with memory }

def Intact (l : Loader ω) : Prop := l.store.address ≠ 0 → Complete l.memory l.store.address

theorem stable_intact (p : LoaderParts ω) (K : FspCall → Prop) : Stable p K Intact where
  stage _ _ h := h
  hobList _ _ h := h
  arena _ _ h := h
  update l f memory hf hupdate h := by
    intro haddress
    have hvalid := (h haddress).isValid_load
    unfold ContextStore.update ContextStore.updateWith ContextStore.get at hupdate
    rw [if_neg haddress] at hupdate
    cases hupdate
    refine GlobalContext.complete_store _ _ ?_
    unfold GlobalContext.isValid at *
    rwa [hf]
  memoryGate _ _ _ _ _ h := h
  siliconGate _ _ _ _ _ h := h
  readWord _ _ h := h
  enterPayload _ _ h := h

/-! ### Temporary memory -/

theorem complete_temporaryMemory {context : UInt64} {tables : StageTables} {stackTop : UInt32}
    {initial : GlobalContext} (hclear : tables.ClearOf context)
    (hinitial : GlobalContext.temporary stackTop p.config.temporaryPoolSize = .ok initial) :
    Complete (temporaryMemory p l context tables initial) context := by
  have hvalid : ({ initial with printMask := p.config.printMask } : GlobalContext).isValid := by
    change initial.isValid
    exact GlobalContext.isValid_temporary hinitial
  exact (GlobalContext.complete_store l.memory context hvalid).congr (StageTables.read_prepare hclear.gdt hclear.idt)

theorem installTemporary_intact {context : UInt64} {tables : StageTables} (stackTop : UInt32)
    (hclear : tables.ClearOf context) :
    Ends (installTemporary p context tables stackTop) l fun r t => r = .ok () → Intact t := by
  refine Ends.get_bind ?_
  split
  · exact nofun
  refine Ends.ofFallible_bind (fun initial hinitial => ?_) fun _ _ => nofun
  refine Ends.bind_of_ok rfl (Ends.bind_of_ok rfl ?_)
  refine Ends.valueOrFatal_bind (fun store hstore _ _ => ?_) fun _ => nofun
  cases ContextStore.eq_of_install hstore
  exact complete_temporaryMemory hclear (Fallible.ofHalting_eq_ok.mp hinitial)

/-! ### The pool -/

theorem layoutBelow_eq_ok {hobs : HobList} {config : LoaderConfig} {layout : PoolLayout}
    (h : layoutBelow hobs config = .ok layout) : ∃ r, hobs.resourceOf? Guid.reservedMemory = some r ∧
      PoolLayout.compute r.start r.length config = .ok layout := by
  unfold layoutBelow at h
  split at h
  · cases h
  · rename_i r hr
    split at h
    · cases h
      exact ⟨r, hr, by assumption⟩
    · cases h
    · cases h

def movedRecord (l : Loader ω) (layout : PoolLayout) : GlobalContext :=
  layout.apply l.hobList (GlobalContext.load l.memory l.store.address)

def movedMemory (p : LoaderParts ω) (l : Loader ω) (layout : PoolLayout) : Memory :=
  GlobalContext.store (layout.tables.prepare layout.context p.cpu l.world l.memory) layout.context
    (movedRecord l layout)

/-- All that a move does when it succeeds: the tables are written and then the copy, which is the active
record from there on. -/
theorem moveContext_moves {hobs : HobList} (hsound : LoaderOp.Sound p l (.relocate hobs)) :
    Ends (moveContext p hobs) l fun r t => ∀ layout, r = .ok layout →
      layoutBelow hobs p.config = .ok layout ∧ l.store.address ≠ 0 ∧
        t = { l with store := ⟨layout.context, .permanent⟩, memory := movedMemory p l layout } := by
  refine Ends.get_bind ?_
  split
  · exact nofun
  refine Ends.ofFallible_bind (fun layout hlayout => ?_) fun _ _ => nofun
  have hbelow := Fallible.ofHalting_eq_ok.mp hlayout
  obtain ⟨r, -, hcompute⟩ := layoutBelow_eq_ok hbelow
  have hclear := (PoolLayout.compute_carved hcompute).clear_of_outside (hsound layout hbelow)
  refine Ends.bind_of_ok rfl ?_
  split
  · exact nofun
  refine Ends.valueOrFatal_bind (fun moved hmoved => ?_) fun _ => nofun
  obtain ⟨haddress, rfl⟩ := ContextStore.eq_of_relocate hmoved
  rintro layout' ⟨⟩
  refine ⟨hbelow, haddress, ?_⟩
  have hsame : GlobalContext.load (layout.tables.prepare layout.context p.cpu l.world l.memory)
      l.store.address = GlobalContext.load l.memory l.store.address := StageTables.load_prepare hclear
  rw [movedMemory, movedRecord, ← hsame]
  rfl

/-- What memory holds after a move from `l`. In the pool there are, without overlap, a copy of the
active record with other bounds, and the tables, whose gates lead to the entry points of their vectors;
outside the pool nothing has changed. -/
structure Moved (p : LoaderParts ω) (l : Loader ω) (layout : PoolLayout) (m : Memory) : Prop where
  carved : layout.Carved
  record : ∃ c, l.store.get l.memory = .ok c ∧ c.isValid ∧
    m.read layout.context.toNat GlobalContext.size = (layout.apply l.hobList c).toBytes
  tables : layout.tables.Hold layout.context (p.cpu.codeSelector l.world) (p.cpu.stub l.world) m
  gates : ∀ v < Idt.gateCount, (Gate.load m (layout.idt.toNat + 8 + Gate.size * v)).Leads
    (p.cpu.codeSelector l.world) (p.cpu.stub l.world (.ofNat v))
  outside : ∀ start length, layout.Outside start length → m.read start length = l.memory.read start length

theorem movedMemory_moved {hobs : HobList} {layout : PoolLayout} (h : Intact l)
    (hlayout : layoutBelow hobs p.config = .ok layout) (haddress : l.store.address ≠ 0) :
    Moved p l layout (movedMemory p l layout) := by
  obtain ⟨r, -, hcompute⟩ := layoutBelow_eq_ok hlayout
  have hcarved := PoolLayout.compute_carved hcompute
  have hprepared : layout.tables.Hold layout.context (p.cpu.codeSelector l.world) (p.cpu.stub l.world)
      (layout.tables.prepare layout.context p.cpu l.world l.memory) :=
    StageTables.prepare_hold hcarved.apart
  have htables := hprepared.store (movedRecord l layout) hcarved.clear
  refine ⟨hcarved, ?_, htables, fun v hv => htables.gate hv, fun start length hout => ?_⟩
  · exact ⟨_, if_neg haddress, (h haddress).isValid_load, GlobalContext.read_store _ _ _⟩
  · obtain ⟨hgdt, hidt, hcontext⟩ := hcarved.apart_of_outside hout
    rw [movedMemory, GlobalContext.read_store_of_clear _ _ hcontext.symm,
      StageTables.read_prepare hgdt hidt]

theorem Moved.finds {layout : PoolLayout} {m : Memory} (h : Moved p l layout m) :
    m.u64 layout.idt.toNat = layout.context ∧ Complete m layout.context := by
  obtain ⟨c, -, hvalid, hbytes⟩ := h.record
  exact ⟨h.tables.word, layout.apply l.hobList c, hvalid, hbytes⟩

theorem relocate_eq_ok {hobs : HobList} {layout : PoolLayout} (h : relocate p hobs l = .ok layout t) :
    ∃ l₁, moveContext p hobs l = .ok layout l₁ ∧
      t = { l₁ with world := layout.tables.load p.cpu l₁.memory l₁.world } := by
  obtain ⟨layout', l₁, hmove, h⟩ := Step.bind_eq_ok.mp h
  cases h
  exact ⟨l₁, hmove, rfl⟩

/-! ### Every operation, and every run -/

theorem perform_intact {op : LoaderOp} (h : Intact l) (hop : op.Sound p l)
    (hrun : perform p op l = .ok () t) : Intact t := by
  cases hbuilds : op.buildsContext with
  | false => exact (perform_keeps (stable_intact p _) hbuilds l h).of_ok hrun
  | true =>
    cases op with
    | installTemporary context tables stackTop =>
      exact (installTemporary_intact stackTop hop).of_ok hrun rfl
    | relocate hobs =>
      obtain ⟨layout, t', hrelocate, hrun⟩ := Step.bind_eq_ok.mp hrun
      cases hrun
      obtain ⟨l₁, hmove, rfl⟩ := relocate_eq_ok hrelocate
      obtain ⟨hlayout, haddress, rfl⟩ := (moveContext_moves hop).of_ok hmove layout rfl
      exact fun _ => (movedMemory_moved h hlayout haddress).finds.2
    | _ => cases hbuilds

theorem Reached.intact (h : Reached p l) : Intact l := by
  induction h with
  | start hstage hstore =>
    intro haddress
    rw [hstore] at haddress
    exact (haddress rfl).elim
  | perform h hop hrun ih => exact perform_intact ih hop hrun
  | others h hmemory ih => exact fun haddress => (ih haddress).congr (hmemory haddress)

theorem perform_finds {op : LoaderOp} {call : LoaderCall} (h : Intact l) (hop : op.Sound p l)
    (hcall : call ∈ trace (perform p.noting op) l) : call.FindsContext := by
  cases hbuilds : op.buildsContext with
  | false =>
    have hother : Keeps (fun l => l.world.All LoaderCall.FindsContext) (perform p.noting op) :=
      perform_keeps (stable_calls p (fun _ _ _ _ => trivial) fun _ _ _ => trivial) hbuilds
    exact Ends.iff_answer.mp (hother (l.noted []) nofun) call (mem_trace.mp hcall)
  | true =>
    cases op with
    | installTemporary context tables stackTop =>
      obtain ⟨initial, hinitial, rfl⟩ := installTemporary_calls hcall
      change Complete _ (Memory.u64 _ (tables.idt + 8 - 8).toNat)
      rw [UInt64.add_sub_cancel, temporaryMemory, StageTables.u64_prepare]
      exact complete_temporaryMemory hop hinitial
    | relocate hobs =>
      rw [trace_perform_relocate] at hcall
      obtain ⟨layout, l₁, hmove, rfl⟩ := relocate_calls hcall
      obtain ⟨hlayout, haddress, rfl⟩ := (moveContext_moves hop).of_ok hmove layout rfl
      obtain ⟨hword, hcomplete⟩ := (movedMemory_moved h hlayout haddress).finds
      change Complete (movedMemory p l layout) ((movedMemory p l layout).u64 (layout.idt + 8 - 8).toNat)
      rw [UInt64.add_sub_cancel, hword]
      exact hcomplete
    | _ => cases hbuilds

/-- In every state that a boot can reach, whatever is loaded into the table registers leads to a
complete record. When the context is moved, the pool holds the copy and the tables in full, and the copy
is the active record before the tables are loaded, once. -/
theorem relocate_exposes_complete (p : LoaderParts ω) {l : Loader ω} (h : Reached p l) :
    (∀ op : LoaderOp, op.Sound p l → ∀ call ∈ trace (perform p.noting op) l, call.FindsContext) ∧
    ∀ hobs layout t, LoaderOp.Sound p l (.relocate hobs) → relocate p hobs l = .ok layout t →
      (∃ r, hobs.resourceOf? Guid.reservedMemory = some r ∧
        PoolLayout.compute r.start r.length p.config = .ok layout) ∧
      Moved p l layout t.memory ∧
      ∃ l₁, moveContext p hobs l = .ok layout l₁ ∧ l₁.memory = t.memory ∧
        l₁.store = ⟨layout.context, .permanent⟩ ∧ l₁.memory.u64 layout.idt.toNat = l₁.store.address ∧
        trace (relocate p.noting hobs) l = [loading l₁.memory layout.tables] := by
  refine ⟨fun op hop call => perform_finds h.intact hop, fun hobs layout t hop hrelocate => ?_⟩
  obtain ⟨l₁, hmove, rfl⟩ := relocate_eq_ok hrelocate
  have htrace := trace_relocate hmove
  obtain ⟨hlayout, haddress, rfl⟩ := (moveContext_moves hop).of_ok hmove layout rfl
  have hmoved := movedMemory_moved h.intact hlayout haddress
  exact ⟨layoutBelow_eq_ok hlayout, hmoved, _, hmove, rfl, rfl, hmoved.finds.1, htrace⟩

def reservedLayout : PoolLayout where
  start := 0x7EB00000
  stop := 0x7EBFF000
  context := 0x7EBFEFB0
  idt := 0x7EBFED80
  gdt := 0x7EBFED40
  stackTop := 0x7EC00000
  usableTop := 0x7F000000
  switchStackTop := 0x7EC00000

def initialized : Loader Unit := Step.after (run acceptingParts (bootOps.take 2)) (.start .blank ())

theorem reached_initialized : Reached acceptingParts initialized := by
  have hsucceeds : Step.succeeds (run acceptingParts (bootOps.take 2)) (.start .blank ()) := by
    decide +kernel
  obtain ⟨⟨⟩, l, hrun⟩ := Step.succeeds_iff.mp hsucceeds
  have hend : initialized = l := Step.after_of_ok hrun
  obtain ⟨l₁, hinstall, hrun⟩ := Step.forM_cons_eq_ok.mp hrun
  obtain ⟨l₂, hinit, hrun⟩ := Step.forM_cons_eq_ok.mp hrun
  have hstart : Reached acceptingParts (.start .blank ()) := .start rfl rfl
  have hclear : LoaderOp.Sound acceptingParts (.start .blank ())
      (.installTemporary 0x20001000 ⟨0x20002000, 0x20003000⟩ 0x20010000) :=
    ⟨.inl (by decide), .inl (by decide)⟩
  have hinstalled : Reached acceptingParts l₁ := hstart.perform hclear hinstall
  have hready : LoaderOp.Sound acceptingParts l₁ .memoryInit := trivial
  rw [hend, ← Step.forM_nil_eq_ok.mp hrun]
  exact hinstalled.perform hready hinit

theorem relocate_exposes_complete_reserved : Reached acceptingParts initialized ∧
    LoaderOp.Sound acceptingParts initialized (.relocate reservedHobs) ∧
    (∀ call ∈ trace (perform acceptingParts.noting (.relocate reservedHobs)) initialized,
      call.FindsContext) ∧
    ∃ t, relocate acceptingParts reservedHobs initialized = .ok reservedLayout t ∧
      Moved acceptingParts initialized reservedLayout t.memory := by
  have hlayout : layoutBelow reservedHobs acceptingParts.config = .ok reservedLayout := by
    decide +kernel
  have haddress : initialized.store.address = 0x20001000 := by decide +kernel
  have hsound : LoaderOp.Sound acceptingParts initialized (.relocate reservedHobs) := by
    intro layout hbelow
    rw [hlayout] at hbelow
    cases hbelow
    rw [haddress]
    exact .inl (by decide)
  have hanswer : Step.answer (relocate acceptingParts reservedHobs) initialized =
      .ok reservedLayout := by decide +kernel
  obtain ⟨t, hrelocate⟩ := Step.answer_eq_ok.mp hanswer
  obtain ⟨hfinds, hmoves⟩ := relocate_exposes_complete acceptingParts reached_initialized
  obtain ⟨-, hmoved, -⟩ := hmoves reservedHobs reservedLayout t hsound hrelocate
  exact ⟨reached_initialized, hsound, hfinds _ hsound, t, hrelocate, hmoved⟩

end Loader
end PlatformInit
