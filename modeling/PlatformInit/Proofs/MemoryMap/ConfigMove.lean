import PlatformInit.Proofs.Context.Generations
import PlatformInit.Proofs.Context.Ownership
import PlatformInit.Proofs.MemoryMap.Effects

/-!
The move of the configuration blocks, and what the rest of the sequence leaves of it.

`ConfigState` is the part of the state that the move works on. A move that ends is complete: the
context names copies in a new generation and nothing else of it has changed. A move that cannot be made,
because the state is `Unready`, changes nothing.
-/
set_option autoImplicit false
namespace PlatformInit

open Step (Ends Keeps)

/-- The context and the blocks that it names. -/
structure ConfigState where
  store : ContextStore
  memory : Memory
  arena : ConfigArena

namespace ConfigState

def context (s : ConfigState) : Except ContextError GlobalContext := s.store.get s.memory

/-- Two handles, each in its own state, stand for the same bytes. -/
def SameBytes (s s' : ConfigState) (h h' : ConfigHandle) : Prop :=
  ∃ block, s.arena.get h = .ok block ∧ s'.arena.get h' = .ok block

/-- The context `c'` of `s'` is `c`, with handles of what is kept of the blocks of `c`. -/
structure Repointed (configSize : Nat) (s s' : ConfigState) (c c' : GlobalContext) : Prop where
  memoryUpd : ∃ old new block, c.memoryUpd = some old ∧ c'.memoryUpd = some new ∧
    s.arena.get old = .ok block ∧ configSize ≤ block.length ∧
      s'.arena.get new = .ok (block.take configSize)
  siliconUpd : Option.Rel (s.SameBytes s') c.siliconUpd c'.siliconUpd
  others : c' = { c with memoryUpd := c'.memoryUpd, siliconUpd := c'.siliconUpd }

structure Moved (configSize : Nat) (s s' : ConfigState) : Prop where
  store : s'.store = s.store
  generation : s'.arena.generation = s.arena.generation + 1
  context : ∃ c c', s.context = .ok c ∧ s'.context = .ok c' ∧ Repointed configSize s s' c c'

/-- The states in which the blocks cannot be moved. -/
inductive Unready (configSize : Nat) (s : ConfigState) : Prop where
  | noContext (h : s.context = .error .notInstalled)
  | noMemoryBlock {c : GlobalContext} (h : s.context = .ok c) (hupd : c.memoryUpd = none)
  | staleMemoryBlock {c : GlobalContext} {upd : ConfigHandle} (h : s.context = .ok c)
      (hupd : c.memoryUpd = some upd) (hstale : s.arena.get upd = .error .staleHandle)
  | shortMemoryBlock {c : GlobalContext} {upd : ConfigHandle} {block : Bytes} (h : s.context = .ok c)
      (hupd : c.memoryUpd = some upd) (hblock : s.arena.get upd = .ok block)
      (hshort : block.length < configSize)
  | staleSiliconBlock {c : GlobalContext} {upd : ConfigHandle} (h : s.context = .ok c)
      (hupd : c.siliconUpd = some upd) (hstale : s.arena.get upd = .error .staleHandle)

variable {configSize : Nat} {s s' : ConfigState}

theorem SameBytes.not_stale {h h' : ConfigHandle} (hsame : s.SameBytes s' h h') :
    s.arena.get h ≠ .error .staleHandle := by
  obtain ⟨block, hblock, -⟩ := hsame
  rw [hblock]
  nofun

theorem Moved.not_unready (h : Moved configSize s s') : ¬ Unready configSize s := by
  obtain ⟨c, c', hc, -, hrepointed⟩ := h.context
  obtain ⟨old, new, block, hold, -, hblock, hlength, -⟩ := hrepointed.memoryUpd
  intro hunready
  cases hunready with
  | noContext hnone =>
    rw [hc] at hnone
    cases hnone
  | noMemoryBlock hc' hupd =>
    cases hc.symm.trans hc'
    cases hold.symm.trans hupd
  | staleMemoryBlock hc' hupd hstale =>
    cases hc.symm.trans hc'
    cases hold.symm.trans hupd
    cases hblock.symm.trans hstale
  | shortMemoryBlock hc' hupd hblock' hshort =>
    cases hc.symm.trans hc'
    cases hold.symm.trans hupd
    cases hblock.symm.trans hblock'
    omega
  | staleSiliconBlock hc' hupd hstale =>
    cases hc.symm.trans hc'
    have hrel := hrepointed.siliconUpd
    rw [hupd] at hrel
    generalize c'.siliconUpd = copy at hrel
    cases hrel with
    | some hsame => exact hsame.not_stale hstale

theorem Moved.get_issued (h : Moved configSize s s') {ops : List ArenaOp}
    (harena : s.arena = (ConfigArena.run ops).world)
    (hfits : ArenaEvent.migrations (ConfigArena.run ops).calls + 1 < UInt32.size) {old : ConfigHandle}
    (hold : old ∈ ArenaEvent.issued (ConfigArena.run ops).calls) :
    s'.arena.get old = .error .staleHandle := by
  have hdated := ConfigArena.dated_run ops (Nat.lt_of_succ_lt hfits)
  have hle := hdated.generation_le hold
  have hnow := hdated.generation
  apply ConfigArena.get_of_generation_ne
  rw [h.generation, harena]
  intro heq
  rw [heq, UInt32.toNat_add, hnow] at hle
  change (_ + 1) % UInt32.size ≤ _ at hle
  rw [Nat.mod_eq_of_lt hfits] at hle
  omega

end ConfigState

namespace Discovery
variable {ω : Type}

open ConfigState (Moved Repointed Unready)

def configState (d : Discovery ω) : ConfigState := ⟨d.store, d.memory, d.arena⟩

/-! ### The move -/

theorem keptBlocks_eq_ok {c : GlobalContext} {a : ConfigArena} {configSize : Nat}
    {kept : List (ConfigHandle × Nat)} (h : keptBlocks c a configSize = .ok kept) :
    ∃ memoryUpd, c.memoryUpd = some memoryUpd ∧
      (c.siliconUpd = none ∧ kept = [(memoryUpd, configSize)] ∨
        ∃ siliconUpd block, c.siliconUpd = some siliconUpd ∧ a.get siliconUpd = .ok block ∧
          kept = [(memoryUpd, configSize), (siliconUpd, block.length)]) := by
  unfold keptBlocks at h
  cases hmemory : c.memoryUpd with
  | none =>
    rw [hmemory] at h
    cases h
  | some memoryUpd =>
    refine ⟨memoryUpd, rfl, ?_⟩
    rw [hmemory] at h
    cases hsilicon : c.siliconUpd with
    | none =>
      rw [hsilicon] at h
      cases h
      exact .inl ⟨rfl, rfl⟩
    | some siliconUpd =>
      rw [hsilicon] at h
      dsimp only at h
      cases hblock : a.get siliconUpd with
      | error e =>
        rw [hblock] at h
        cases h
      | ok block =>
        rw [hblock] at h
        cases h
        exact .inr ⟨siliconUpd, block, rfl, hblock, rfl⟩

def repoint (s : ConfigState) (c : GlobalContext) (arena : ConfigArena) (handles : List ConfigHandle) :
    ConfigState :=
  ⟨s.store, GlobalContext.store s.memory s.store.address
    { c with memoryUpd := handles[0]?, siliconUpd := handles[1]? }, arena⟩

theorem context_repoint {s : ConfigState} {c : GlobalContext} (hc : s.context = .ok c)
    (arena : ConfigArena) (handles : List ConfigHandle) : (repoint s c arena handles).context =
      .ok { c with memoryUpd := handles[0]?, siliconUpd := handles[1]? } := by
  apply ContextStore.get_store
  intro hzero
  change s.store.address = 0 at hzero
  rw [ConfigState.context, ContextStore.get, if_pos hzero] at hc
  cases hc

theorem moved_repoint {s : ConfigState} {c : GlobalContext} {configSize : Nat} {arena : ConfigArena}
    {kept : List (ConfigHandle × Nat)} {handles : List ConfigHandle} (hc : s.context = .ok c)
    (hkept : keptBlocks c s.arena configSize = .ok kept)
    (hmigrate : s.arena.migrate kept = .ok (arena, handles)) :
    Moved configSize s (repoint s c arena handles) := by
  obtain ⟨memoryUpd, hmemory, hsilicon⟩ := keptBlocks_eq_ok hkept
  have hfirst : kept[0]? = some (memoryUpd, configSize) := by
    rcases hsilicon with ⟨-, rfl⟩ | ⟨siliconUpd, block, -, -, rfl⟩ <;> rfl
  have hfits : kept.length ≤ UInt32.size := by
    have hlength : kept.length ≤ 2 := by
      rcases hsilicon with ⟨-, rfl⟩ | ⟨siliconUpd, block, -, -, rfl⟩ <;> simp
    exact Nat.le_trans hlength (by decide)
  obtain ⟨new, block, hnew, hold, hlength, hcopy⟩ := ConfigArena.get_migrate hfits hmigrate hfirst
  refine ⟨rfl, (ConfigArena.migrate_eq_ok.mp hmigrate).2.1, c, _, hc, context_repoint hc _ _, ?_⟩
  refine ⟨⟨memoryUpd, new, block, hmemory, hnew, hold, hlength, hcopy⟩, ?_, rfl⟩
  rcases hsilicon with ⟨hnone, rfl⟩ | ⟨siliconUpd, block', hsome, hblock', rfl⟩
  · have hshort : handles[1]? = none := by
      rw [List.getElem?_eq_none_iff, ConfigArena.length_copies hmigrate]
      exact Nat.le_refl 1
    rw [hnone]
    dsimp only
    rw [hshort]
    exact .none
  · obtain ⟨new', old', hnew', hold', -, hcopy'⟩ :=
      ConfigArena.get_migrate (i := 1) hfits hmigrate rfl
    cases hold'.symm.trans hblock'
    rw [List.take_length] at hcopy'
    rw [hsome]
    dsimp only
    rw [hnew']
    exact .some ⟨block', hblock', hcopy'⟩

theorem unready_of_context {s : ConfigState} {e : ContextError} (h : s.context = .error e)
    (configSize : Nat) : Unready configSize s := by
  refine .noContext ?_
  rw [h]
  unfold ConfigState.context ContextStore.get at h
  split at h
  · cases h
    rfl
  · cases h

theorem unready_of_keptBlocks {s : ConfigState} {c : GlobalContext} {configSize : Nat} {why : Halt}
    (hc : s.context = .ok c) (h : keptBlocks c s.arena configSize = .error why) :
    Unready configSize s := by
  unfold keptBlocks at h
  cases hmemory : c.memoryUpd with
  | none => exact .noMemoryBlock hc hmemory
  | some memoryUpd =>
    rw [hmemory] at h
    cases hsilicon : c.siliconUpd with
    | none =>
      rw [hsilicon] at h
      cases h
    | some siliconUpd =>
      rw [hsilicon] at h
      dsimp only at h
      cases hblock : s.arena.get siliconUpd with
      | ok block =>
        rw [hblock] at h
        cases h
      | error e =>
        rw [ConfigArena.get_eq_error hblock] at hblock
        exact .staleSiliconBlock hc hsilicon hblock

theorem unready_of_migrate {s : ConfigState} {c : GlobalContext} {configSize : Nat}
    {kept : List (ConfigHandle × Nat)} {e : ContextError} (hc : s.context = .ok c)
    (hkept : keptBlocks c s.arena configSize = .ok kept) (h : s.arena.migrate kept = .error e) :
    Unready configSize s := by
  obtain ⟨memoryUpd, hmemory, hsilicon⟩ := keptBlocks_eq_ok hkept
  cases hblock : s.arena.get memoryUpd with
  | error e' =>
    rw [ConfigArena.get_eq_error hblock] at hblock
    exact .staleMemoryBlock hc hmemory hblock
  | ok block =>
    by_cases hshort : block.length < configSize
    · exact .shortMemoryBlock hc hmemory hblock hshort
    · -- both blocks are long enough, so that the arena would have moved them
      have hmoves : ∃ moved, s.arena.migrate kept = .ok moved := by
        rw [ConfigArena.migrate_succeeds_iff]
        rcases hsilicon with ⟨-, rfl⟩ | ⟨siliconUpd, block', -, hblock', rfl⟩
        · simpa [hblock] using hshort
        · simpa [hblock, hblock'] using hshort
      obtain ⟨moved, hmoved⟩ := hmoves
      cases h.symm.trans hmoved

theorem migrateConfig_ends (configSize : Nat) (d : Discovery ω) :
    Ends (migrateConfig configSize) d fun r d' => d'.hobs = d.hobs ∧ d'.world = d.world ∧
      match r with
      | .ok _ => Moved configSize d.configState d'.configState
      | .error e => (∃ why, e = .halt why) ∧ d' = d ∧ Unready configSize d.configState := by
  refine Ends.get_bind ?_
  cases hc : d.store.get d.memory with
  | error e => exact ⟨rfl, rfl, ⟨_, rfl⟩, rfl, unready_of_context (s := d.configState) hc configSize⟩
  | ok c =>
    dsimp only
    refine Ends.ofFallible_bind (fun kept hkept => ?_) fun e he => ?_
    · have hkept : keptBlocks c d.arena configSize = .ok kept := Fallible.ofHalting_eq_ok.mp hkept
      cases hmigrate : d.arena.migrate kept with
      | error e => exact ⟨rfl, rfl, ⟨_, rfl⟩, rfl, unready_of_migrate hc hkept hmigrate⟩
      | ok moved =>
        have hmoved := moved_repoint (s := d.configState) hc hkept hmigrate
        have hupdate : d.store.update d.memory (fun c =>
            { c with memoryUpd := moved.2[0]?, siliconUpd := moved.2[1]? }) =
              .ok (repoint d.configState c moved.1 moved.2).memory := by
          rw [ContextStore.update, ContextStore.updateWith, hc]
          rfl
        dsimp only
        rw [hupdate]
        exact Ends.set ⟨rfl, rfl, hmoved⟩
    · cases hkept : keptBlocks c d.arena configSize with
      | ok kept =>
        rw [hkept] at he
        cases he
      | error why =>
        rw [hkept] at he
        cases he
        exact ⟨rfl, rfl, ⟨why, rfl⟩, rfl, unready_of_keptBlocks hc hkept⟩

/-! ### The whole sequence -/

def reported (config : LayoutConfig) (p : Platform ω) (d : Discovery ω) : HobList :=
  d.hobs ++ [.cpu (p.cpu.addressBits config.fallbackAddressBits d.world).1 config.ioSpaceBits]

def begun (config : LayoutConfig) (p : Platform ω) (d : Discovery ω) : Discovery ω :=
  { d with hobs := reported config p d
           world := (p.cpu.addressBits config.fallbackAddressBits d.world).2 }

/-- What stops the sequence before the move. -/
inductive Unprepared (config : LayoutConfig) (image : FspImage) (p : Platform ω) (d : Discovery ω) :
    Prop where
  | noTotals (h : ∀ sums, (reported config p d).systemMemory ≠ .ok sums)
  | noReservedMemory (h : ∀ top, (reported config p d).topOfLowMemory ≠ .ok top)
  | unready (h : Unready image.configSize d.configState)

theorem reported_noting (config : LayoutConfig) (p : Platform ω) (d : Discovery ω)
    (calls : List DiscoveryEvent) :
    reported config p.noting (d.noted calls) = reported config p d := by
  simp only [reported, noted, addressBits_noting]

theorem unprepared_of_noting {config : LayoutConfig} {image : FspImage} {p : Platform ω}
    {d : Discovery ω} {calls : List DiscoveryEvent} (h : Unprepared config image p.noting (d.noted calls)) :
    Unprepared config image p d := by
  cases h with
  | noTotals h => exact .noTotals (by rwa [reported_noting] at h)
  | noReservedMemory h => exact .noReservedMemory (by rwa [reported_noting] at h)
  | unready h => exact .unready h

theorem begun_noting (config : LayoutConfig) (p : Platform ω) (d : Discovery ω)
    (calls : List DiscoveryEvent) :
    begun config p.noting (d.noted calls) = (begun config p d).noted calls := by
  simp only [begun, reported_noting]
  simp only [noted, addressBits_noting]

theorem onMemoryDiscovered_begun (config : LayoutConfig) (image : FspImage) (p : Platform ω)
    (d : Discovery ω) : onMemoryDiscovered config image p d = (do
      let (_, high) ← Step.ofHalting (reported config p d).systemMemory
      let top ← Step.orFatal (fun e : BootError => "FSP reserved memory resource not found: " ++ e.name)
        (Step.ofFallible (reported config p d).topOfLowMemory)
      migrateConfig image.configSize
      complete image p (reported config p d)
        (p.cpu.addressBits config.fallbackAddressBits d.world).1 top high) (begun config p d) := by
  rw [onMemoryDiscovered_eq]
  rfl

/-- The machine stops before the move with all else as it was, or the blocks move and the sequence is
completed. -/
theorem onMemoryDiscovered_ends {config : LayoutConfig} {image : FspImage} {p : Platform ω}
    {d : Discovery ω} {post : Except (Fault Empty) DiscoverySummary → Discovery ω → Prop}
    (hhalt : ∀ why, Unprepared config image p d → post (.error (.halt why)) (begun config p d))
    (hmoved : ∀ low high top moved, (reported config p d).systemMemory = .ok (low, high) →
      (reported config p d).topOfLowMemory = .ok top → moved.hobs = (begun config p d).hobs →
      moved.world = (begun config p d).world →
      Moved image.configSize d.configState moved.configState →
      Ends (complete image p (reported config p d)
        (p.cpu.addressBits config.fallbackAddressBits d.world).1 top high) moved post) :
    Ends (onMemoryDiscovered config image p) d post := by
  have hend (e : Fault Empty) (h : Unprepared config image p d) :
      post (.error e) (begun config p d) := by
    cases e with
    | error e => cases e
    | halt why => exact hhalt why h
  refine Ends.congr (onMemoryDiscovered_begun config image p d) ?_
  refine Ends.ofFallible_bind (fun sums hsums => ?_) fun e he => hend e (.noTotals fun sums hsums => ?_)
  · obtain ⟨low, high⟩ := sums
    have hsums := Fallible.ofHalting_eq_ok.mp hsums
    have htops : Ends (Step.orFatal
        (fun e : BootError => "FSP reserved memory resource not found: " ++ e.name)
        (Step.ofFallible (reported config p d).topOfLowMemory) : Step (Discovery ω) Empty UInt64)
        (begun config p d) fun r d' => d' = begun config p d ∧
          ∀ top, r = .ok top ↔ (reported config p d).topOfLowMemory = .ok top := by
      cases (reported config p d).topOfLowMemory with
      | ok top => exact ⟨rfl, fun _ => by simp⟩
      | error e => cases e <;> exact ⟨rfl, fun _ => by simp⟩
    refine Ends.bind htops (fun top d' h => ?_) fun e d' h => ?_
    · obtain ⟨rfl, htop⟩ := h
      refine Ends.bind (migrateConfig_ends image.configSize _) (fun _ moved h => ?_) fun e d' h => ?_
      · exact hmoved low high top moved hsums ((htop top).mp rfl) h.1 h.2.1 h.2.2
      · obtain ⟨-, -, -, rfl, hunready⟩ := h
        exact hend e (.unready hunready)
    · obtain ⟨rfl, htop⟩ := h
      exact hend e (.noReservedMemory fun top h => by cases (htop top).mpr h)
  · rw [hsums] at he
    cases he

theorem complete_keeps (image : FspImage) (p : Platform ω) (hobs : HobList) (bits : UInt8)
    (top high : UInt64) (s : ConfigState) :
    Keeps (fun d : Discovery ω => d.configState = s) (complete image p hobs bits top high) := by
  have honWorld {ε α : Type} (x : Step ω ε α) :
      Keeps (fun d : Discovery ω => d.configState = s) (onWorld x) := fun d hd =>
    Ends.focus (Ends.intro (fun _ _ _ => hd) fun _ _ _ => hd)
  refine Keeps.bind (Keeps.modify fun _ hd => hd) fun _ => Keeps.bind (honWorld _) fun index => ?_
  refine Keeps.bind ?_ fun _ => Keeps.bind ?_ fun _ => Keeps.pure _
  · refine Keeps.ite (Keeps.bind (Keeps.orFatal (honWorld _)) fun _ => ?_) (Keeps.pure _)
    exact Keeps.modify fun _ hd => hd
  · exact Keeps.bind (Keeps.modify fun _ hd => hd) fun _ => Keeps.bind (Keeps.ofFallible _) fun _ =>
      Keeps.pure _

theorem onMemoryDiscovered_configState (config : LayoutConfig) (image : FspImage) (p : Platform ω)
    (d : Discovery ω) : Ends (onMemoryDiscovered config image p) d fun r d' =>
      (∃ why, r = .error (.halt why)) ∧ d' = begun config p d ∨
        Moved image.configSize d.configState d'.configState := by
  refine onMemoryDiscovered_ends (fun why _ => .inl ⟨⟨why, rfl⟩, rfl⟩) ?_
  intro low high top moved _ _ _ _ hmoved
  refine (complete_keeps image p _ _ top high moved.configState moved rfl).mono fun r d' hd' => ?_
  rw [hd']
  exact .inr hmoved

/-- When the sequence returns, the context names what is to be kept of its blocks, in full, and all
earlier handles are stale; when the blocks cannot be moved, nothing has been moved and nobody called. -/
theorem config_survives (config : LayoutConfig) (image : FspImage) (p : Platform ω) (d : Discovery ω) :
    (∀ summary d', onMemoryDiscovered config image p d = .ok summary d' →
      Moved image.configSize d.configState d'.configState ∧
        ∀ ops, d.arena = (ConfigArena.run ops).world →
          ArenaEvent.migrations (ConfigArena.run ops).calls + 1 < UInt32.size →
            ∀ old ∈ ArenaEvent.issued (ConfigArena.run ops).calls,
              d'.arena.get old = .error .staleHandle) ∧
    (Unready image.configSize d.configState →
      ∃ why d', onMemoryDiscovered config image p.noting (d.noted []) = .error (.halt why) d' ∧
        onMemoryDiscovered config image p d = .error (.halt why) (mapWorld Noted.world d') ∧
        d'.configState = d.configState ∧ d'.world.calls = []) := by
  constructor
  · intro summary d' hreturns
    rcases (onMemoryDiscovered_configState config image p d).of_ok hreturns with
      ⟨⟨why, hwhy⟩, -⟩ | hmoved
    · cases hwhy
    · exact ⟨hmoved, fun ops harena hfits old hold => hmoved.get_issued harena hfits hold⟩
  · intro hunready
    have hfollows := onMemoryDiscovered_follows config image p (d.noted [])
    cases hend : onMemoryDiscovered config image p.noting (d.noted []) with
    | ok summary d' =>
      rcases (onMemoryDiscovered_configState config image p.noting (d.noted [])).of_ok hend with
        ⟨⟨why, hwhy⟩, -⟩ | hmoved
      · cases hwhy
      · exact (hmoved.not_unready hunready).elim
    | error e d' =>
      rcases (onMemoryDiscovered_configState config image p.noting (d.noted [])).of_error hend with
        ⟨⟨why, hwhy⟩, rfl⟩ | hmoved
      · cases hwhy
        rw [hend] at hfollows
        refine ⟨why, _, rfl, hfollows, rfl, ?_⟩
        rw [begun_noting]
        rfl
      · exact (hmoved.not_unready hunready).elim

def quietPlatform : Platform Unit where
  cpu := ⟨fun _ w => (0, w)⟩
  cache := ⟨Step.fail .deviceError, fun _ _ _ => Step.fail .deviceError⟩
  callback := ⟨fun w => (.memoryInit, w), fun _ w => w, fun w => w⟩

def twoBlocks : Discovery Unit where
  hobs := [.resource ⟨.reservedMemory, ResourceDescriptor.reserved, ResourceDescriptor.testedMemory,
    0x7EC00000, 0x400000⟩]
  store := ⟨0x1000, .temporary⟩
  memory := GlobalContext.store .blank 0x1000
    { GlobalContext.blank with memoryUpd := some ⟨0, 0⟩, siliconUpd := some ⟨0, 1⟩ }
  arena := (ConfigArena.run [.insert [1, 2, 3, 4], .insert [5, 6]]).world
  world := ()

theorem config_survives_two_blocks :
    (∃ summary d', onMemoryDiscovered {} ⟨0xFFE00000, [], 3⟩ quietPlatform twoBlocks = .ok summary d' ∧
      Moved 3 twoBlocks.configState d'.configState ∧ d'.arena.get ⟨1, 0⟩ = .ok [1, 2, 3] ∧
      d'.arena.get ⟨1, 1⟩ = .ok [5, 6] ∧ d'.arena.get ⟨0, 1⟩ = .error .staleHandle) ∧
    ∃ why d', onMemoryDiscovered {} ⟨0xFFE00000, [], 5⟩ quietPlatform twoBlocks =
        .error (.halt why) d' ∧ d'.configState = twoBlocks.configState := by
  have hcontext : twoBlocks.configState.context =
      .ok { GlobalContext.blank with memoryUpd := some ⟨0, 0⟩, siliconUpd := some ⟨0, 1⟩ } :=
    ContextStore.get_store _ _ _ (by decide)
  constructor
  · have hreturns : Step.succeeds (onMemoryDiscovered {} ⟨0xFFE00000, [], 3⟩ quietPlatform) twoBlocks =
        true := by decide +kernel
    have hcopies : ((Step.after (onMemoryDiscovered {} ⟨0xFFE00000, [], 3⟩ quietPlatform)
        twoBlocks).arena.blocks) = [[1, 2, 3], [5, 6]] := by decide +kernel
    obtain ⟨summary, d', hend⟩ := Step.succeeds_iff.mp hreturns
    rw [Step.after_of_ok hend] at hcopies
    obtain ⟨hmoved, hstale⟩ := (config_survives _ _ _ _).1 summary d' hend
    have hgeneration : d'.arena.generation = 1 := hmoved.generation
    refine ⟨summary, d', hend, hmoved, ?_, ?_, hstale _ rfl (by decide) _ (by decide)⟩
    · exact ConfigArena.get_eq_ok.mpr ⟨hgeneration.symm, by rw [hcopies]; rfl⟩
    · exact ConfigArena.get_eq_ok.mpr ⟨hgeneration.symm, by rw [hcopies]; rfl⟩
  · obtain ⟨why, d', -, hend, hsame, -⟩ := (config_survives {} ⟨0xFFE00000, [], 5⟩ quietPlatform
      twoBlocks).2 (.shortMemoryBlock hcontext rfl rfl (by decide))
    exact ⟨why, _, hend, hsame⟩

end Discovery
end PlatformInit
