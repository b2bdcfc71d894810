import PlatformInit.Proofs.Mm.Delivery
import PlatformInit.Proofs.Mm.Guarding

/-!
Runs of operations between which other software is at work: what is true of the calls of one operation
is true in every state that is reached.
-/
set_option autoImplicit false
namespace PlatformInit

open Step (Ends Returns)

namespace Communicator
variable {ω ε α : Type} {p : CommParts ω} {op : CommOp} {c : Communicator ω}

theorem calls_permitted (hp : p.KeepsMode) (op : CommOp) (c : Communicator ω) :
    ∀ call ∈ calls p op c, OpPermitted p op c call := by
  by_cases hop : op = .goVirtual
  · subst hop
    exact List.forall_mem_nil _
  · have hends := perform_ends hp hop (c := c.noted []) (List.forall_mem_nil _)
    unfold calls
    cases hend : perform p.noting op (c.noted []) with
    | ok a t => exact (hends.of_ok hend).1
    | error e t => exact (hends.of_error hend).1

theorem noted_end {r : Except CommError CommAnswer} {c' : Communicator ω}
    (h : perform p op c = returned r c')
    {post : Except (Fault CommError) CommAnswer → Communicator (Noted ω (CommCall ω)) → Prop}
    (hends : Ends (perform p.noting op) (c.noted []) post) :
    ∃ t, t.bare = c' ∧ t.machine.world.calls = calls p op c ∧ post (Fallible.ofExcept r) t := by
  have hbare := perform_follows p.noting_mirrors op (c.noted [])
  change perform p op c = _ at hbare
  rw [h] at hbare
  unfold calls
  cases hend : perform p.noting op (c.noted []) with
  | ok a t =>
    rw [hend] at hbare
    cases r with
    | error e => cases hbare
    | ok a' =>
      cases hbare
      exact ⟨t, rfl, rfl, hends.of_ok hend⟩
  | error e t =>
    rw [hend] at hbare
    cases r with
    | ok a' => cases hbare
    | error e' =>
      cases hbare
      exact ⟨t, rfl, rfl, hends.of_error hend⟩

theorem returns_ofExcept (r : Except ε α) : Returns (Fallible.ofExcept r) := by
  cases r <;> trivial

theorem perform_kept (hp : p.KeepsMode) (hop : op ≠ .goVirtual) {r : Except CommError CommAnswer}
    {c' : Communicator ω} (h : perform p op c = returned r c') : Kept p c c' := by
  obtain ⟨t, rfl, -, -, hkept⟩ := noted_end h (perform_ends hp hop (List.forall_mem_nil _))
  obtain ⟨hinMm, hmailbox, hvirtual, hbuffers⟩ := hkept (returns_ofExcept r)
  exact ⟨hinMm, hmailbox, hvirtual, hbuffers⟩

theorem raw_size (hp : p.KeepsMode) {id : UInt8} {size : UInt64} {r : Except CommError CommAnswer}
    {c' : Communicator ω} (h : perform p (.raw id size) c = returned r c')
    (hcalls : ∀ call ∈ calls p (.raw id size) c, call.delivered = false) :
    ∃ status, r = .ok (.status status size) := by
  obtain ⟨t, -, hnotes, hraw⟩ := noted_end h (raw_ends hp (List.forall_mem_nil _))
  obtain ⟨status, size', hr, hsize⟩ := hraw (returns_ofExcept r)
  have hundelivered : ¬t.machine.Delivered := by
    rintro ⟨call, hcall, hdelivered⟩
    rw [hcalls call (hnotes ▸ hcall)] at hdelivered
    cases hdelivered
  obtain rfl := hsize.resolve_right hundelivered
  cases r with
  | error e => cases hr
  | ok a =>
    cases hr
    exact ⟨status, rfl⟩

theorem Run.reached {start : Communicator ω} {ops : List CommOp} (hp : p.KeepsMode)
    (hphysical : start.goneVirtual = false) (hmailbox : (start.machine.cores p.core).buffer = 0)
    (hrun : Run p start ops c) :
    (c.goneVirtual = true ↔ .goVirtual ∈ ops) ∧
      (p.KeepsMailbox → (c.machine.cores p.core).buffer = 0) := by
  induction hrun with
  | start =>
    rw [hphysical]
    exact ⟨⟨nofun, nofun⟩, fun _ => hmailbox⟩
  | outside _ m hkept ih => exact ⟨ih.1, fun hkeeps => hkept.trans (ih.2 hkeeps)⟩
  | @operation ops c c' op r _ hend ih =>
    by_cases hop : op = .goVirtual
    · subst hop
      cases r with
      | error e => cases hend
      | ok a =>
        cases hend
        exact ⟨⟨fun _ => List.mem_cons_self, fun _ => rfl⟩, ih.2⟩
    · -- Only one operation has to do with virtual addresses.
      have hkept := perform_kept hp hop hend
      rw [hkept.goneVirtual, List.mem_cons, or_iff_right (Ne.symm hop)]
      exact ⟨ih.1, fun hkeeps => hkept.mailbox hkeeps (ih.2 hkeeps)⟩

/-- In every state that a communicator reaches, an operation makes no calls but those that are allowed
in that state. When it returns, the core is in MM or not as before, the mailbox is empty, and the
size of a raw request that did not reach a handler is as it was. -/
theorem run_guarded {start : Communicator ω} {ops : List CommOp} (hp : p.KeepsMode)
    (hphysical : start.goneVirtual = false) (hmailbox : (start.machine.cores p.core).buffer = 0)
    (hrun : Run p start ops c) (op : CommOp) :
    (c.goneVirtual = true ↔ .goVirtual ∈ ops) ∧
      (∀ call ∈ calls p op c, OpPermitted p op c call) ∧
      ∀ r c', perform p op c = returned r c' →
        (c'.machine.cores p.core).inMm = (c.machine.cores p.core).inMm ∧
        (p.KeepsMailbox → (c'.machine.cores p.core).buffer = 0) ∧
        ∀ id size, op = .raw id size → (∀ call ∈ calls p op c, call.delivered = false) →
          ∃ status, r = .ok (.status status size) := by
  obtain ⟨hvirtual, -⟩ := hrun.reached hp hphysical hmailbox
  refine ⟨hvirtual, calls_permitted hp op c, fun r c' hend => ⟨?_, ?_, ?_⟩⟩
  · by_cases hop : op = .goVirtual
    · subst hop
      cases r with
      | error e => cases hend
      | ok a =>
        cases hend
        rfl
    · exact (perform_kept hp hop hend).inMm
  · exact ((Run.operation hrun hend).reached hp hphysical hmailbox).2
  · rintro id size rfl hcalls
    exact raw_size hp hend hcalls

end Communicator

theorem MmHandler.keepsMode {ω : Type} {h : MmHandler} {p : CommParts ω}
    (hexecutor : p.executor = some (h.executor p.core)) : p.KeepsMode := by
  intro e he b m
  rw [hexecutor, Option.some.injEq] at he
  subst he
  unfold Ends MmHandler.executor
  dsimp only
  cases CommHeader.read? (m.memory.read (m.cores p.core).buffer.toNat b.length) with
  | none => rfl
  | some header =>
    dsimp only
    rw [Machine.cores_updateCore]
    rfl

theorem MmHandler.keepsMailbox {ω : Type} {h : MmHandler} {p : CommParts ω}
    (hdirect : p.direct = some h.dispatcher) : p.KeepsMailbox := by
  intro d hd recipient area length m hzero
  rw [hdirect, Option.some.injEq] at hd
  subst hd
  exact hzero

namespace Communicator

def bothWays : CommParts Unit :=
  ⟨0x100, ⟨pure (), pure (), pure (), fun _ => true, fun _ => false⟩,
    some (incrementing.executor 0x100), some incrementing.dispatcher, 1⟩

def dormant : Communicator Unit := .new [.new 0x1000 7 64] (.new 0 ())

def awakened : Communicator Unit :=
  match perform bothWays (.communicate 7 [1, 2, 3] Guid.endOfDxe) dormant with
  | .ok _ c => { c with machine := c.machine.updateCore 0x100 fun r => { r with registered := true } }
  | .error _ c => c

theorem run_guarded_awakened :
    Run bothWays dormant [.communicate 7 [1, 2, 3] Guid.endOfDxe] awakened ∧
      (calls bothWays (.raw 7 27) awakened).length = 1 ∧
      (∀ call ∈ calls bothWays (.raw 7 27) awakened, OpPermitted bothWays (.raw 7 27) awakened call) ∧
      ∃ r c', perform bothWays (.raw 7 27) awakened = returned r c' ∧
        (c'.machine.cores bothWays.core).buffer = 0 := by
  have hrun : Run bothWays dormant [.communicate 7 [1, 2, 3] Guid.endOfDxe] awakened := by
    obtain ⟨a, c, hend⟩ := Step.succeeds_iff.mp
      (show Step.succeeds (perform bothWays (.communicate 7 [1, 2, 3] Guid.endOfDxe)) dormant = true by
        decide +kernel)
    have hreturned : perform bothWays (.communicate 7 [1, 2, 3] Guid.endOfDxe) dormant =
        returned (.ok a) c := hend
    rw [awakened, hend]
    refine .outside (.operation .start hreturned) _ ?_
    rw [show bothWays.core = 0x100 from rfl, Machine.cores_updateCore]
  obtain ⟨-, hcalls, hends⟩ := run_guarded (MmHandler.keepsMode rfl) rfl rfl hrun (.raw 7 27)
  obtain ⟨a, c', hend⟩ := Step.succeeds_iff.mp
    (show Step.succeeds (perform bothWays (.raw 7 27)) awakened = true by decide +kernel)
  obtain ⟨-, hmailbox, -⟩ := hends (.ok a) c' hend
  exact ⟨hrun, by decide +kernel, hcalls, .ok a, c', hend, hmailbox (MmHandler.keepsMailbox rfl)⟩

end Communicator
end PlatformInit
