import PlatformInit.Proofs.Context.Generations
import PlatformInit.Proofs.Context.Ownership
import PlatformInit.Proofs.Fsp.Defaults
import PlatformInit.Proofs.Loader.FirstStage

/-!
The configuration block that memory initialization hands over.

Memory initialization is a preparation and a call (`memoryInit_eq`). `Ready` says what the preparation leaves
behind: the active context names a block of the arena, which is the component's default block but for the
boot loader's own fields. This block is what the component is called with.
-/
set_option autoImplicit false
namespace PlatformInit

open Step (Ends Follows)

/-! ### The call -/

namespace FspComponent
variable {ω : Type}

theorem memoryInit_calls (c : FspComponent) (gate : CallGate ω) (s : Bytes × Noted ω LoaderCall) :
    Ends (c.memoryInit gate.noting) s fun _ s' => s' = s ∨ ∃ address reply world,
      c.entry? c.header.memoryInit = some address ∧
      gate.call address (.memoryInit s.1) s.2.world = (reply, world) ∧
      s' = (reply.upd, ⟨world, .interface address (.memoryInit s.1) reply :: s.2.calls⟩) := by
  unfold memoryInit
  cases hentry : c.entry? c.header.memoryInit with
  | none => exact .inl rfl
  | some address =>
    unfold Ends callWithUpd CallGate.noting
    dsimp only
    cases (gate.call address (.memoryInit s.1) s.2.world).1.status.toExcept <;>
      exact Or.inr ⟨address, _, _, rfl, rfl, rfl⟩

end FspComponent

namespace Loader
variable {ω ω' α ε : Type}

/-- What memory initialization does before it calls the component. -/
def prepareMemory (p : LoaderParts ω) : Step (Loader ω) Empty ConfigHandle := do
  advance .preMemory .memoryInitCalled
  let upd ← Step.valueOrFatal (fun e : BootError => "FSP-M UPD rejected: " ++ e.name)
    (memoryDefaults p.memoryComponent)
  let h ← insertBlock upd
  updateContext fun c => { c with memoryUpd := some h }
  return h

def callMemory (p : LoaderParts ω) (h : ConfigHandle) : Step (Loader ω) Empty UInt64 := do
  let hobList ← Step.orFatal (fun e : EfiError => "FspMemoryInit failed: " ++ e.name)
    (onBlock "FSP-M" h (p.memoryComponent.memoryInit p.memoryGate))
  modify fun l => { l with hobList }
  return hobList

theorem memoryInit_eq (p : LoaderParts ω) : memoryInit p = prepareMemory p >>= callMemory p := by
  simp only [memoryInit, prepareMemory, callMemory, bind_assoc, pure_bind]

theorem prepareMemory_follows {f : ω' → ω} {q : LoaderParts ω'} {p : LoaderParts ω}
    (h : q.Mirrors f p) : Follows (mapWorld f) (prepareMemory q) (prepareMemory p) := by
  unfold prepareMemory
  rw [h.memoryComponent]
  refine Follows.bind (advance_follows _ _) fun _ => Follows.bind (Follows.valueOrFatal _ _) fun upd => ?_
  refine Follows.bind (fun _ => rfl) fun block => ?_
  exact Follows.bind (updateContext_follows _) fun _ => Follows.pure _

/-! ### Before the call -/

variable {p : LoaderParts ω} {l l₁ : Loader ω} {h : ConfigHandle}

theorem memoryDefaults_eq_ok {c : FspComponent} {upd : Bytes} (hupd : memoryDefaults c = .ok upd) :
    Upd.OwnFields c.defaultUpd upd ∧ upd.u64? 0 = some UpdHeader.memoryMagic ∧
      ∃ stackBase, upd.u32? 0x28 = some stackBase ∧ stackBase ≠ 0 := by
  unfold memoryDefaults at hupd
  by_cases hshort : c.defaultUpd.length < 0x38
  · rw [Upd.applyLoaderDefaults_of_short hshort] at hupd
    cases hupd
  · obtain ⟨upd', happly, hown⟩ := Upd.applyLoaderDefaults_of_le (Nat.le_of_not_lt hshort)
    rw [happly] at hupd
    obtain ⟨⟨⟩, hcheck, rfl⟩ : ∃ u, Upd.checkMemory upd' = .ok u ∧ upd' = upd := by
      change (Upd.checkMemory upd').map _ = _ at hupd
      cases hcheck : Upd.checkMemory upd' with
      | error e =>
        rw [hcheck] at hupd
        cases hupd
      | ok u =>
        rw [hcheck] at hupd
        exact ⟨u, rfl, Except.ok.inj hupd⟩
    exact ⟨hown, Upd.checkMemory_eq_ok hcheck⟩

/-- The active context names a block that is the default block with the boot loader's own fields and
acceptable to the memory component. -/
structure Ready (default : Bytes) (h : ConfigHandle) (upd : Bytes) (l : Loader ω) : Prop where
  named : ∃ record, l.store.get l.memory = .ok record ∧ record.memoryUpd = some h
  block : l.arena.get h = .ok upd
  fields : Upd.OwnFields default upd
  signature : upd.u64? 0 = some UpdHeader.memoryMagic
  stackBase : ∃ stackBase, upd.u32? 0x28 = some stackBase ∧ stackBase ≠ 0

theorem prepareMemory_ends (p : LoaderParts ω) (l : Loader ω) :
    Ends (prepareMemory p) l fun r l₁ => l₁.world = l.world ∧ ∀ h, r = .ok h → ∃ upd memory,
      l.stage = .preMemory ∧ memoryDefaults p.memoryComponent = .ok upd ∧ h = (l.arena.insert upd).2 ∧
      l.store.update l.memory (fun c => { c with memoryUpd := some h }) = .ok memory ∧
      l₁ = { l with stage := .memoryInitCalled, arena := (l.arena.insert upd).1, memory } := by
  rcases advance_cases .preMemory .memoryInitCalled l with ⟨hfirst, hadvance⟩ | ⟨e, hadvance⟩
  · refine Ends.bind_of_ok hadvance ?_
    refine Ends.valueOrFatal_bind (fun upd hupd => ?_) fun _ => ⟨rfl, nofun⟩
    refine Ends.bind_of_ok rfl (Ends.bind (R := fun r l₁ => l₁.world = l.world ∧ ∀ a, r = .ok a →
      ∃ memory, l.store.update l.memory (fun c => { c with memoryUpd := some (l.arena.insert upd).2 }) =
        .ok memory ∧
      l₁ = { l with stage := .memoryInitCalled, arena := (l.arena.insert upd).1, memory }) ?_ ?_ ?_)
    · refine Ends.get_bind (Ends.valueOrFatal_bind (fun memory hmemory => ?_) fun _ => ⟨rfl, nofun⟩)
      exact ⟨rfl, fun _ _ => ⟨memory, hmemory, rfl⟩⟩
    · rintro _ l₁ ⟨hworld, hnamed⟩
      obtain ⟨memory, hmemory, hend⟩ := hnamed _ rfl
      refine ⟨hworld, fun h hh => ?_⟩
      cases hh
      exact ⟨upd, memory, hfirst, hupd, rfl, hmemory, hend⟩
    · exact fun _ _ hend => ⟨hend.1, nofun⟩
  · exact Ends.bind_of_error hadvance ⟨rfl, nofun⟩

theorem prepareMemory_ready (hroom : l.arena.blocks.length < UInt32.size ∨
      ∃ memory world ops, run p ops (.start memory world) = .ok () l)
    (hprepare : prepareMemory p l = .ok h l₁) : ∃ upd, Ready p.memoryComponent.defaultUpd h upd l₁ := by
  obtain ⟨upd, memory, hfirst, hupd, rfl, hmemory, rfl⟩ :=
    ((prepareMemory_ends p l).of_ok hprepare).2 h rfl
  obtain ⟨hfields, hsignature, hstack⟩ := memoryDefaults_eq_ok hupd
  obtain ⟨c, -, hget⟩ := ContextStore.get_update hmemory
  have hfits : l.arena.blocks.length < UInt32.size := by
    rcases hroom with hfits | ⟨memory, world, ops, hrun⟩
    · exact hfits
    · rw [arena_of_run p hrun hfirst]
      decide
  exact ⟨upd, ⟨_, hget, rfl⟩, ConfigArena.get_insert hfits, hfields, hsignature, hstack⟩

/-! ### What is called with -/

theorem onBlock_ends {component : String} {block : Bytes} {x : Step (Bytes × ω) ε α}
    {R : Bytes × ω → Prop} (hblock : l.arena.get h = .ok block)
    (hx : Ends x (block, l.world) fun _ s => R s) :
    Ends (onBlock component h x) l fun _ l' => ∃ upd, l'.arena.get h = .ok upd ∧ R (upd, l'.world) := by
  have hput (upd : Bytes) : ((l.arena.modify h fun _ => upd).toOption.getD l.arena).get h = .ok upd := by
    obtain ⟨arena, harena⟩ : ∃ arena, l.arena.modify h (fun _ => upd) = .ok arena :=
      ⟨_, ConfigArena.modify_eq_ok.mpr ⟨block, hblock, rfl⟩⟩
    rw [harena]
    exact (ConfigArena.get_modify harena).trans (by rw [if_pos rfl, hblock]; rfl)
  unfold Ends onBlock
  rw [hblock]
  dsimp only
  cases hrun : x (block, l.world) with
  | ok a s => exact ⟨s.1, hput s.1, hx.of_ok hrun⟩
  | error e s => exact ⟨s.1, hput s.1, hx.of_error hrun⟩

/-- From `t` to `t'` no call was made, or one: of the entry point with the block that the handle resolves
to, which is then what the call left. -/
def HandsOver (p : LoaderParts ω) (h : ConfigHandle) (t t' : Loader (Noted ω LoaderCall)) : Prop :=
  t'.world = t.world ∨ ∃ upd address reply world, t.arena.get h = .ok upd ∧
    p.memoryComponent.entry? p.memoryComponent.header.memoryInit = some address ∧
    p.memoryGate.call address (.memoryInit upd) t.world.world = (reply, world) ∧
    t'.world.calls = .interface address (.memoryInit upd) reply :: t.world.calls ∧
    t'.arena.get h = .ok reply.upd

theorem onBlock_memoryInit_handsOver (component : String) (t : Loader (Noted ω LoaderCall)) :
    Ends (onBlock component h (p.memoryComponent.memoryInit p.memoryGate.noting)) t fun _ t' =>
      HandsOver p h t t' := by
  cases hblock : t.arena.get h with
  | error e =>
    unfold Ends onBlock
    rw [hblock]
    exact .inl rfl
  | ok upd =>
    have hcalls := p.memoryComponent.memoryInit_calls p.memoryGate (upd, t.world)
    refine (onBlock_ends hblock hcalls).mono fun _ t' hend => ?_
    obtain ⟨left, hleft, hsame | ⟨address, reply, world, hentry, hcall, hmade⟩⟩ := hend
    · exact .inl (congrArg Prod.snd hsame)
    · obtain ⟨rfl, hworld⟩ := Prod.mk.inj hmade
      exact .inr ⟨upd, address, reply, world, hblock, hentry, hcall, congrArg Noted.calls hworld, hleft⟩

theorem callMemory_handsOver (p : LoaderParts ω) (h : ConfigHandle) (t : Loader (Noted ω LoaderCall)) :
    Ends (callMemory p.noting h) t fun _ t' => HandsOver p h t t' :=
  Ends.bind (R := fun _ t' => HandsOver p h t t')
    (Ends.orFatal (onBlock_memoryInit_handsOver "FSP-M" t) (fun _ _ hend => hend) fun _ _ hend _ => hend)
    (fun _ _ hend => hend) fun _ _ hend => hend

/-- A call of memory initialization is made right after the preparation, with the prepared block. -/
theorem mem_trace_memoryInit {call : LoaderCall}
    (hcall : call ∈ trace (perform p.noting .memoryInit) l) :
    ∃ h l₁ upd address reply world, prepareMemory p l = .ok h l₁ ∧ l₁.arena.get h = .ok upd ∧
      p.memoryComponent.entry? p.memoryComponent.header.memoryInit = some address ∧
      p.memoryGate.call address (.memoryInit upd) l₁.world = (reply, world) ∧
      call = .interface address (.memoryInit upd) reply ∧
      (Step.after (perform p .memoryInit) l).arena.get h = .ok reply.upd := by
  have hafter : Step.after (perform p .memoryInit) l = mapWorld Noted.world
      (Step.after (perform p.noting .memoryInit) (l.noted [])) :=
    (perform_follows p.noting_mirrors .memoryInit).after (l.noted [])
  have hnoted : Step.after (perform p.noting .memoryInit) (l.noted []) =
      Step.after (memoryInit p.noting) (l.noted []) := Step.after_bind_pure _ (fun _ => ()) _
  rw [hafter, hnoted]
  rw [mem_trace, hnoted, memoryInit_eq] at hcall
  rw [memoryInit_eq]
  have hbare := prepareMemory_follows p.noting_mirrors (l.noted [])
  cases hprepare : prepareMemory p.noting (l.noted []) with
  | error e t =>
    have hworld := ((prepareMemory_ends p.noting (l.noted [])).of_error hprepare).1
    rw [Step.after_bind_of_error hprepare, hworld] at hcall
    cases hcall
  | ok h t =>
    have hworld := ((prepareMemory_ends p.noting (l.noted [])).of_ok hprepare).1
    rw [hprepare] at hbare
    rw [Step.after_bind_of_ok hprepare] at hcall ⊢
    have hlast := Ends.iff_answer.mp (callMemory_handsOver p h t)
    rcases hlast with hsame | ⟨upd, address, reply, world, hblock, hentry, hgate, hmade, hleft⟩
    · rw [hsame, hworld] at hcall
      cases hcall
    · rw [hmade, hworld] at hcall
      exact ⟨h, _, upd, address, reply, world, hbare, hblock, hentry, hgate,
        List.mem_singleton.mp hcall, hleft⟩

/-- Whatever image the memory component was found in, in every boot and otherwise whatever the arena holds
as long as it has a handle left: a call of memory initialization hands over the block that the active
context names. It is as long as the configuration region and a copy of it but for the boot loader's own
fields, and what the call makes of it is what the handle names afterwards. The fields are written where they
are read, nothing else is touched, and a region too short for them is refused and left alone. -/
theorem memoryInit_defaults {image : Bytes} {base : UInt64}
    (hcomponent : FspComponent.ofImage image base = .ok p.memoryComponent)
    (hroom : l.arena.blocks.length < UInt32.size ∨
      ∃ memory world ops, run p ops (.start memory world) = .ok () l) :
    (∀ call ∈ trace (perform p.noting .memoryInit) l,
      ∃ h l₁ upd default address reply world, prepareMemory p l = .ok h l₁ ∧
        image.slice? p.memoryComponent.header.configOffset.toNat
          p.memoryComponent.header.configSize.toNat = some default ∧
        upd.length = p.memoryComponent.header.configSize.toNat ∧
        Ready default h upd l₁ ∧
        p.memoryComponent.entry? p.memoryComponent.header.memoryInit = some address ∧
        p.memoryGate.call address (.memoryInit upd) l₁.world = (reply, world) ∧
        call = .interface address (.memoryInit upd) reply ∧
        (Step.after (perform p .memoryInit) l).arena.get h = .ok reply.upd) ∧
    (∀ upd : Bytes, upd.length < 0x38 →
      Upd.applyLoaderDefaults upd = (upd, .error .configurationInvalid)) ∧
    ∀ (a : UpdArch) (upd : Bytes), 0x38 ≤ upd.length →
      ∃ upd', a.write upd = (upd', .ok ()) ∧ UpdArch.read upd' = .ok a ∧ upd'.length = upd.length ∧
        ∀ i, i ≠ 0x20 → ¬(0x24 ≤ i ∧ i < 0x38) → upd'[i]? = upd[i]? := by
  refine ⟨fun call hcall => ?_, fun upd => Upd.applyLoaderDefaults_of_short, fun a upd => a.write_of_le⟩
  obtain ⟨h, l₁, upd, address, reply, world, hprepare, hblock, hentry, hgate, rfl, hleft⟩ :=
    mem_trace_memoryInit hcall
  obtain ⟨upd', hready⟩ := prepareMemory_ready hroom hprepare
  obtain rfl : upd = upd' := Except.ok.inj (hblock.symm.trans hready.block)
  have hregion := FspComponent.slice?_of_ofImage hcomponent
  have hlength := hready.fields.length.trans (Bytes.length_of_slice? hregion)
  exact ⟨h, l₁, upd, _, address, reply, world, hprepare, hregion, hlength, hready, hentry, hgate, rfl, hleft⟩

def signedImage : Bytes :=
  le64 UpdHeader.memoryMagic ++ List.replicate 0x18 0 ++ le32 1 ++ le32 0x1234 ++ le32 0xFEF00000
    ++ le32 0x20000 ++ le32 0x1000 ++ le32 BootMode.s3Resume ++ List.replicate 0x5C 0
    ++ le32 FspHeader.magic ++ le32 0x48 ++ [0, 0, 0x20, 3] ++ List.replicate 0xC 0 ++ le32 0x40
    ++ le32 0xFFF90000 ++ le32 0 ++ le32 0 ++ le32 0x40 ++ List.replicate 0xC 0 ++ le32 0x100
    ++ le32 0x200 ++ le32 0x300 ++ le32 0x400

def signedParts : LoaderParts Unit :=
  { acceptingParts with
    memoryComponent := { blockComponent UpdHeader.memoryMagic with image := signedImage } }

def installed : Loader Unit := Step.after (run signedParts (bootOps.take 1)) (.start .blank ())

theorem memoryInit_defaults_signed :
    FspComponent.ofImage signedImage 0xFFF90000 = .ok signedParts.memoryComponent ∧
    run signedParts (bootOps.take 1) (.start .blank ()) = .ok () installed ∧
    ∃ h l₁ upd, prepareMemory signedParts installed = .ok h l₁ ∧
      Ready (signedImage.take 0x40) h upd l₁ ∧
      ∃ reply, .interface 0xFFF90200 (.memoryInit upd) reply ∈
        trace (perform signedParts.noting .memoryInit) installed := by
  have hcomponent : FspComponent.ofImage signedImage 0xFFF90000 = .ok signedParts.memoryComponent := by
    decide +kernel
  have hinstall : Step.succeeds (run signedParts (bootOps.take 1)) (.start .blank ()) = true := by
    decide +kernel
  obtain ⟨_, l, hrun⟩ := Step.succeeds_iff.mp hinstall
  obtain rfl : installed = l := Step.after_of_ok hrun
  have hcalled : (trace (perform signedParts.noting .memoryInit) installed).isEmpty = false := by
    decide +kernel
  obtain ⟨call, hcall⟩ := List.exists_mem_of_ne_nil _ (List.isEmpty_eq_false_iff.mp hcalled)
  obtain ⟨hcalls, -⟩ := memoryInit_defaults hcomponent (.inr ⟨_, _, _, hrun⟩)
  obtain ⟨h, l₁, upd, default, address, reply, world, hprepare, hregion, -, hready, hentry, -, rfl, -⟩ :=
    hcalls call hcall
  obtain rfl : signedImage.take 0x40 = default := Option.some.inj hregion
  obtain rfl : 0xFFF90200 = address := Option.some.inj hentry
  exact ⟨hcomponent, hrun, h, l₁, upd, hprepare, hready, reply, hcall⟩

end Loader
end PlatformInit
