import PlatformInit.Proofs.Hob.RoundTrip
import PlatformInit.Proofs.Mm.Loading
import PlatformInit.Proofs.Mm.WorldInvariants

/-!
What loading a core does to its collaborators.

`loadCore_writeImage` says everything there is to say of a call that writes an image: which range
and which core were chosen, what place the image was given, and what had been published.
-/
set_option autoImplicit false
namespace PlatformInit

open Step (Keeps Ends)

def SmramTable.opened (t : SmramTable) : SmramTable := t.setState RegionState.opened RegionState.closed

theorem SmramTable.ofHobs_publishCore (hobs : HobList) (core : UInt64) :
    ofHobs (hobs.publishCore core) = ofHobs hobs := by
  have hdata : (hobs.publishCore core).dataOf? Guid.smramMemory = hobs.dataOf? Guid.smramMemory := by
    rw [HobList.publishCore, HobList.dataOf?_append]
    exact Option.or_none
  rw [ofHobs, hdata, ofHobs]

namespace Machine
variable {ω : Type}

/-- The record of a core points behind the count of a stored block that describes `ranges`. -/
def Publishes (m : Machine ω) (core : UInt64) (ranges : List SmramRange) : Prop :=
  ∃ (before : Memory) (block : UInt64),
    m.memory = before.write block.toNat (DescriptorBlock.encode ranges) ∧
      (m.cores core).ranges = (block + .ofNat DescriptorBlock.start, .ofNat ranges.length)

theorem Publishes.updateCore {m : Machine ω} {core : UInt64} {ranges : List SmramRange}
    (h : m.Publishes core ranges) {f : CoreRecord → CoreRecord} (hf : ∀ r, (f r).ranges = r.ranges) :
    (m.updateCore core f).Publishes core ranges := by
  obtain ⟨before, block, hmemory, hranges⟩ := h
  exact ⟨before, block, hmemory, by rw [cores_updateCore, hf, hranges]⟩

end Machine

namespace Ipl
variable {ω : Type}

/-- The range at `index` is the one chosen in the open table that the hand-off list reports. -/
structure Chosen (hobs : HobList) (table : SmramTable) (index : Nat) (range : SmramRange) : Prop where
  reported : SmramTable.ofHobs hobs = .ok table
  selected : table.opened.selectRange = .ok (some index)
  range_eq : table.opened.ranges[index]? = some range

/-- What led to `placed` being written at `base`: the range that was chosen, the core that was
found, the place that it was given in the table, and what its record says at that moment. -/
structure Written (reader : PeReader) (c : IplConfig) (volumes : List MappedVolume) (hobs : HobList)
    (core : UInt64) (base : UInt64) (placed : Bytes) (m : Machine ω) (table final : SmramTable)
    (index : Nat) (range : SmramRange) (p : PeImage) (destination : UInt64)
    (carved : Option Carveout) : Prop
    extends Chosen hobs table index range where
  found : ∃ volume image, MappedVolume.findCore volumes = .ok (volume, image) ∧
    reader.parse image = .ok p ∧ place p image base = .ok placed
  chosen : choosePlace c p index range table.opened = .ok (destination, carved) final
  aligned : alignUp destination (max p.sectionAlignment.toUInt64 1) = .ok base
  published : m.Publishes core final.ranges

variable {P : IplCall ω → Prop}

theorem transition_ends {x : Step (Noted ω (IplCall ω)) EfiError Unit} (hx : Keeps (Noted.All P) x)
    (on off : RegionState) {s : IplState (Noted ω (IplCall ω))} (hs : s.All P) :
    Ends (onWindow (SmramTable.transition x on off)) s fun r t =>
      t.All P ∧ (r = .ok () → t.table = s.table.setState on off) := by
  refine Ends.focus (Ends.bind (R := fun r t => Noted.All P t.2 ∧ (r = .ok () → t.1 = s.table)) ?_
    (fun _ t ht => ?_) fun e t ht => ?_)
  · exact Ends.focus ((hx _ hs).mono fun r w hw => ⟨hw, fun _ => rfl⟩)
  · exact Ends.modify ⟨ht.1, fun _ => by rw [ht.2 rfl]⟩
  · exact ⟨ht.1, nofun⟩

theorem publishRanges_ends (core : UInt64) {s : IplState (Noted ω (IplCall ω))} (hs : s.All P) :
    Ends (publishRanges core : Step (IplState (Noted ω (IplCall ω))) EfiError Unit) s fun r t =>
      r = .ok () ∧ t.All P ∧ t.machine.Publishes core s.table.ranges :=
  Ends.modify ⟨rfl, hs, s.machine.memory, s.machine.free, rfl, by rw [Machine.cores_updateCore]; rfl⟩

structure PlacedAt (p : PeImage) (image : Bytes) (destination base : UInt64) (placed : Bytes) : Prop where
  aligned : alignUp destination (max p.sectionAlignment.toUInt64 1) = .ok base
  place_eq : place p image base = .ok placed

/-- The calls made when a core was to be put in its place on `m`, by how far that came. When the core was
entered, its record held where. -/
inductive PlacingCalls (p : PeImage) (image : Bytes) (destination core : UInt64)
    (m : Machine (Noted ω (IplCall ω))) : List (IplCall ω) → Prop where
  | unplaced : PlacingCalls p image destination core m m.world.calls
  | written {base : UInt64} {placed : Bytes} (hplaced : PlacedAt p image destination base placed) :
      PlacingCalls p image destination core m (.writeImage base placed m.bare :: m.world.calls)
  | visible {base : UInt64} {placed : Bytes} {m₁ : Machine ω}
      (hplaced : PlacedAt p image destination base placed) :
      PlacingCalls p image destination core m
        (.invalidate base (.ofNat placed.length) m₁ :: .writeImage base placed m.bare :: m.world.calls)
  | entered {base entry : UInt64} {placed list : Bytes} {m₁ m₂ : Machine ω}
      (hplaced : PlacedAt p image destination base placed)
      (hentry : entry.toNat = base.toNat + p.entryPoint.toNat)
      (hrecorded : (m₂.cores core).image = ⟨base, .ofNat placed.length, entry⟩) :
      PlacingCalls p image destination core m (.startCore entry list m₂ ::
        .invalidate base (.ofNat placed.length) m₁ :: .writeImage base placed m.bare :: m.world.calls)

theorem placeAndStart_calls (parts : IplParts ω) (p : PeImage) (image : Bytes) (destination : UInt64)
    (hobs : HobList) (core : UInt64) (m : Machine (Noted ω (IplCall ω))) :
    Ends (placeAndStart parts.noting p image destination hobs core) m fun _ t =>
      PlacingCalls p image destination core m t.world.calls := by
  unfold placeAndStart
  cases hbase : alignUp destination (max p.sectionAlignment.toUInt64 1) with
  | error e => exact .unplaced
  | ok base =>
    refine Ends.ofFallible_bind (fun placed hplace => ?_) fun _ _ => .unplaced
    have hplaced : PlacedAt p image destination base placed := ⟨hbase, hplace⟩
    refine Ends.bind (R := fun _ (t : Machine (Noted ω (IplCall ω))) =>
        t.world.calls = .writeImage base placed m.bare :: m.world.calls)
      (Ends.ofAttempt (Machine.call_calls _ _ m)) (fun _ t ht => ?_) fun _ t ht => ht ▸ .written hplaced
    let visible := parts.noting.launcher.invalidate base (.ofNat placed.length) t
    have hvisible : visible.world.calls = .invalidate base (.ofNat placed.length) t.bare ::
      .writeImage base placed m.bare :: m.world.calls := congrArg (_ :: ·) ht
    refine Ends.bind_of_ok rfl (Ends.ofFallible_bind (fun entry hsum => ?_) fun _ _ =>
      hvisible ▸ .visible hplaced)
    have hentry : entry.toNat = base.toNat + p.entryPoint.toNat := by
      rw [← UInt32.toNat_toUInt64]
      exact add64_eq_ok_iff.mp (Fallible.ofHalting_eq_ok.mp hsum)
    let recorded := visible.updateCore core fun r => { r with image := ⟨base, .ofNat placed.length, entry⟩ }
    have hrecorded : (recorded.cores core).image = ⟨base, .ofNat placed.length, entry⟩ := by
      rw [Machine.cores_updateCore]
    have hentered : PlacingCalls p image destination core m
        (.startCore entry hobs.toBytes recorded.bare :: visible.world.calls) :=
      hvisible ▸ .entered hplaced hentry hrecorded
    refine Ends.bind_of_ok rfl (Ends.get_bind (Ends.bind_of_ok rfl ?_))
    exact Ends.ofFallible hentered

section
variable (hother : ∀ call : IplCall ω, call.isWrite = false → P call)
include hother

theorem noting_keeps (a : SmramAccess ω) : a.noting.KeepsWorld (Noted.All P) where
  reveal n hn _ := Noted.call_keeps (fun w => hother (.reveal w) rfl) _ n hn
  hide n hn _ := Noted.call_keeps (fun w => hother (.hide w) rfl) _ n hn
  lock n hn _ := Noted.call_keeps (fun w => hother (.lock w) rfl) _ n hn

theorem openAll_ends (a : SmramAccess ω) {s : IplState (Noted ω (IplCall ω))} (hs : s.All P) :
    Ends (onWindow (SmramTable.openAll a.noting)) s fun r t =>
      t.All P ∧ (r = .ok () → t.table = s.table.opened) :=
  transition_ends (SmramAccess.openWindow_keeps (noting_keeps hother a)) _ _ hs

theorem cacheRange_ends (parts : IplParts ω) (index : Nat) {s : IplState (Noted ω (IplCall ω))}
    (hs : s.All P) : Ends (cacheRange parts.noting index) s fun _ t =>
      t.All P ∧ t.table = s.table := by
  refine Ends.get_bind (Ends.ofFallible_bind (fun region _ => ?_) fun _ _ => ⟨hs, rfl⟩)
  cases region with
  | none => exact ⟨hs, rfl⟩
  | some region =>
    refine Ends.bind (R := fun _ t => t.All P ∧ t.table = s.table) ?_ (fun _ _ ht => Ends.pure ht)
      fun _ _ ht => ht
    refine Ends.attempt (Ends.focus (Ends.focus ?_))
    exact (Noted.call_keeps (fun w => hother (.setAttributes _ _ _ w) rfl) _ _ hs).mono
      fun _ _ h => ⟨h, rfl⟩

theorem PlacingCalls.forall_mem {p : PeImage} {image : Bytes} {destination core : UInt64}
    {m : Machine (Noted ω (IplCall ω))} {calls : List (IplCall ω)}
    (h : PlacingCalls p image destination core m calls) (hm : m.All P)
    (hwrite : ∀ base placed, PlacedAt p image destination base placed →
      P (.writeImage base placed m.bare)) : ∀ call ∈ calls, P call := by
  have hwritten {base : UInt64} {placed : Bytes} (hplaced : PlacedAt p image destination base placed) :
      ∀ call ∈ .writeImage base placed m.bare :: m.world.calls, P call :=
    List.forall_mem_cons.mpr ⟨hwrite base placed hplaced, hm⟩
  cases h with
  | unplaced => exact hm
  | written hplaced => exact hwritten hplaced
  | visible hplaced => exact List.forall_mem_cons.mpr ⟨hother _ rfl, hwritten hplaced⟩
  | entered hplaced =>
    exact List.forall_mem_cons.mpr ⟨hother _ rfl, List.forall_mem_cons.mpr ⟨hother _ rfl, hwritten hplaced⟩⟩

theorem executeCore_ends (parts : IplParts ω) {hobs : HobList} {volumes : List MappedVolume}
    {core : UInt64} {table : SmramTable} {index : Nat} {range : SmramRange}
    (hchosen : Chosen hobs table index range) (list : HobList)
    (hwrite : ∀ base placed m final p destination carved, Written parts.reader parts.config volumes
      hobs core base placed m table final index range p destination carved → P (.writeImage base placed m))
    {s : IplState (Noted ω (IplCall ω))} (hs : s.All P) (htable : s.table = table.opened) :
    Ends (executeCore parts.noting index range list volumes core) s fun _ => IplState.All P := by
  refine (executeCore_executing parts.noting index range list volumes core s).mono fun r t hrun => ?_
  have hplace {volume : UInt64} {image : Bytes} {p : PeImage} {destination : UInt64}
      {carved : Option Carveout} {final : SmramTable}
      (h : Fitted parts.reader parts.config index range volumes s.table volume image p destination
        carved final) :
      Ends (onMachine (placeAndStart parts.noting p image destination list core))
        (readied core volume { s with table := final }) fun _ => IplState.All P := by
    have hlisted : IplState.All P { s with table := final } := hs
    obtain ⟨-, hall, hpublished⟩ := Ends.iff_answer.mp (publishRanges_ends core hlisted)
    have hready : (readied core volume { s with table := final }).machine.Publishes core final.ranges :=
      hpublished.updateCore fun _ => rfl
    refine Ends.focus ((placeAndStart_calls parts p image destination list core _).mono fun _ t hcalls => ?_)
    refine hcalls.forall_mem hother hall fun base placed hplaced => ?_
    exact hwrite base placed _ final p destination carved
      ⟨hchosen, ⟨volume, image, h.found, h.parsed, hplaced.place_eq⟩, htable ▸ h.chosen, hplaced.aligned, hready⟩
  have hgiveUp (carved : Option Carveout) {t : IplState (Noted ω (IplCall ω))} (ht : t.All P) :
      Ends (giveUp core carved) t fun _ => IplState.All P := giveUp_keeps core carved t ht
  cases hrun with
  | missing _ => exact hs
  | unreadable _ _ => exact hs
  | unplaced _ _ _ => exact hs
  | started h hstart => exact (hplace h).of_ok hstart
  | stopped h hstart => exact (hplace h).of_error hstart
  | failed h hstart hgiven => exact (hgiveUp _ ((hplace h).of_error hstart)).of_ok hgiven
  | lost h hstart hgiven => exact (hgiveUp _ ((hplace h).of_error hstart)).of_error hgiven

theorem loadInto_ends (parts : IplParts ω) {hobs : HobList} {volumes : List MappedVolume}
    {core : UInt64} {table : SmramTable} (hreported : SmramTable.ofHobs hobs = .ok table)
    (list : HobList)
    (hwrite : ∀ base placed m final index range p destination carved, Written parts.reader
      parts.config volumes hobs core base placed m table final index range p destination carved →
        P (.writeImage base placed m))
    {s : IplState (Noted ω (IplCall ω))} (hs : s.All P) (htable : s.table = table) :
    Ends (loadInto parts.noting list volumes core) s fun _ => IplState.All P := by
  refine (loadInto_loading parts.noting list volumes core s).mono fun r t hrun => ?_
  have hopen := openAll_ends hother parts.access hs
  have hcached {index : Nat} {range : SmramRange} {t : IplState (Noted ω (IplCall ω))}
      (h : Picked parts.noting index range s t) :
      Ends (cacheRange parts.noting index) t fun _ u => u.All P ∧ u.table = t.table :=
    cacheRange_ends hother parts index (hopen.of_ok h.opened).1
  have hexecute {index : Nat} {range : SmramRange} {t u : IplState (Noted ω (IplCall ω))}
      (h : Picked parts.noting index range s t) (hcache : cacheRange parts.noting index t = .ok () u) :
      Ends (executeCore parts.noting index range list volumes core) u fun _ => IplState.All P := by
    have hopened : t.table = table.opened := by rw [(hopen.of_ok h.opened).2 rfl, htable]
    have hchosen : Chosen hobs table index range :=
      ⟨hreported, hopened ▸ h.selected, hopened ▸ h.range_eq⟩
    obtain ⟨hall, hleft⟩ := (hcached h).of_ok hcache
    exact executeCore_ends hother parts hchosen list
      (fun base placed m final p destination carved =>
        hwrite base placed m final index range p destination carved) hall (hleft.trans hopened)
  have habandon {t : IplState (Noted ω (IplCall ω))} (ht : t.All P) :
      IplState.All P (Step.after (abandon parts.noting) t) := by
    have hclose : Keeps (IplState.All P) (abandon parts.noting) :=
      Keeps.bind (closeWindow_keeps (noting_keeps hother parts.access)) fun _ => Keeps.fail _
    exact Ends.iff_answer.mp (hclose t ht)
  cases hrun with
  | refused hrefused => exact (hopen.of_error hrefused).1
  | halted hok _ => exact (hopen.of_ok hok).1
  | unfit hok _ => exact habandon (hopen.of_ok hok).1
  | uncached h hfails => exact ((hcached h).of_error hfails).1
  | loaded h hcache hload => exact (hexecute h hcache).of_ok hload
  | stopped h hcache hload => exact (hexecute h hcache).of_error hload
  | failed h hcache hload => exact habandon ((hexecute h hcache).of_error hload)

theorem loadCore_ends (parts : IplParts ω) {hobs : HobList} {volumes : List MappedVolume}
    {machine : Machine (Noted ω (IplCall ω))} (hmachine : machine.All P)
    (hwrite : ∀ base placed m table final index range p destination carved, Written parts.reader
      parts.config volumes hobs machine.newCore.2 base placed m table final index range p destination carved →
        P (.writeImage base placed m)) :
    Ends (loadCore parts.noting volumes) (hobs, machine) fun _ t => t.2.All P := by
  unfold Ends loadCore
  dsimp only
  rw [SmramTable.ofHobs_publishCore]
  cases hreported : SmramTable.ofHobs hobs with
  | error e => exact hmachine
  | ok table =>
    dsimp only
    have hends := loadInto_ends hother parts hreported (hobs.publishCore machine.newCore.2)
      (fun base placed m => hwrite base placed m table) (s := ⟨table, machine.newCore.1⟩) hmachine rfl
    cases hload : loadInto parts.noting (hobs.publishCore machine.newCore.2) volumes machine.newCore.2
        ⟨table, machine.newCore.1⟩ with
    | ok _ t => exact hends.of_ok hload
    | error e t => exact hends.of_error hload

end

/-- An image is only written after the steps that `Written` lists. -/
theorem loadCore_writeImage {parts : IplParts ω} {volumes : List MappedVolume} {hobs : HobList}
    {machine m : Machine ω} {base : UInt64} {placed : Bytes}
    (h : .writeImage base placed m ∈ loadCalls parts volumes hobs machine) :
    ∃ table final index range p destination carved, Written parts.reader parts.config
      volumes hobs machine.newCore.2 base placed m table final index range p destination carved := by
  let P : IplCall ω → Prop := fun call => ∀ base placed m, call = .writeImage base placed m →
    ∃ table final index range p destination carved, Written parts.reader parts.config
      volumes hobs machine.newCore.2 base placed m table final index range p destination carved
  have hother : ∀ call : IplCall ω, call.isWrite = false → P call := by
    rintro call hcall base placed m rfl
    cases hcall
  have hends : Ends (loadCore parts.noting volumes) (hobs, machine.noted []) fun _ t => t.2.All P := by
    refine loadCore_ends hother parts (List.forall_mem_nil _) ?_
    rintro base placed m table final index range p destination carved hwritten _ _ _ heq
    cases heq
    exact ⟨table, final, index, range, p, destination, carved, hwritten⟩
  unfold loadCalls at h
  cases hload : loadCore parts.noting volumes (hobs, machine.noted []) with
  | ok core t =>
    rw [hload] at h
    exact hends.of_ok hload _ h base placed m rfl
  | error e t =>
    rw [hload] at h
    exact hends.of_error hload _ h base placed m rfl

end Ipl
end PlatformInit
