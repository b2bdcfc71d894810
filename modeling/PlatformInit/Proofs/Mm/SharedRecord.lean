import PlatformInit.Proofs.Hob.RoundTrip
import PlatformInit.Proofs.Mm.Publication

/-!
Which record a core finds in the list that it is handed.

The list goes through its bytes, and the search stops at the first record. A load appends its record,
however it ends, so from the second load on the core finds the record of the first.
-/
set_option autoImplicit false
namespace PlatformInit

namespace HobList

theorem encodable_publish {hobs : HobList} (h : ∀ hob ∈ hobs, hob.Encodable) (core : UInt64) :
    ∀ hob ∈ hobs.publishCore core, hob.Encodable := by
  intro hob hmem
  obtain hmem | hmem := List.mem_append.mp hmem
  · exact h hob hmem
  · rw [List.mem_singleton.mp hmem]
    refine ⟨?_, nofun⟩
    rw [Hob.length_toBytes, Bytes.length_padTo, Hob.body, List.length_append, Guid.length_toBytes,
      length_le64]
    decide

theorem findCore_of_dataOf? {hobs : HobList} {data : Bytes}
    (h : hobs.dataOf? Guid.mmCoreData = some data) (cores : UInt64 → CoreRecord) :
    hobs.findCore cores = findCore [.guidExtension Guid.mmCoreData data] cores := by
  have hself : dataOf? [.guidExtension Guid.mmCoreData data] Guid.mmCoreData = some data := rfl
  rw [findCore, findCore, h, hself]

end HobList

def IplCall.found? {ω : Type} : IplCall ω → Option (Except EfiError UInt64)
  | startCore _ list m => (HobList.parse list).toOption.map fun hobs => hobs.findCore m.cores
  | _ => none

namespace Ipl
variable {ω : Type}

/-- The lists that loads lead to from a list, with the addresses of the records that they published,
newest first. Each load goes on with the list that the one before left, however that one ended, and
with whatever machine there then is. -/
inductive Loads (initial : HobList) : List UInt64 → HobList → Prop where
  | none : Loads initial [] initial
  | load {ω : Type} {published : List UInt64} {hobs : HobList} (before : Loads initial published hobs)
      (parts : IplParts ω) (volumes : List MappedVolume) (machine : Machine ω) :
      Loads initial (machine.free :: published)
        (Step.after (loadCore parts volumes) (hobs, machine)).1

theorem after_loadCore (parts : IplParts ω) (volumes : List MappedVolume) (hobs : HobList)
    (machine : Machine ω) : (Step.after (loadCore parts volumes) (hobs, machine)).1 =
      hobs.publishCore machine.free :=
  Step.Ends.iff_answer.mp (loadCore_list parts volumes hobs machine)

namespace Loads
variable {initial hobs : HobList} {published : List UInt64}

theorem dataOf?_eq (h : Loads initial published hobs) : hobs.dataOf? Guid.mmCoreData =
    (initial.dataOf? Guid.mmCoreData).or (published.getLast?.map le64) := by
  induction h with
  | none => exact Option.or_none.symm
  | @load _ published _ _ parts volumes machine ih =>
    rw [after_loadCore, HobList.dataOf?_publish, ih, Option.or_assoc]
    cases published with
    | nil => rfl
    | cons address published =>
      rw [List.getLast?_cons_cons, List.getLast?_eq_some_getLast (List.cons_ne_nil _ _)]
      rfl

theorem encodable (h : Loads initial published hobs) (hinitial : ∀ hob ∈ initial, hob.Encodable) :
    ∀ hob ∈ hobs, hob.Encodable := by
  induction h with
  | none => exact hinitial
  | load _ parts volumes machine ih =>
    rw [after_loadCore]
    exact HobList.encodable_publish ih machine.free

end Loads

theorem opened_of_loadInto {parts : IplParts ω} {list : HobList} {volumes : List MappedVolume}
    {core : UInt64} {s t : IplState ω} (h : loadInto parts list volumes core s = .ok () t) :
    ∃ w, parts.access.openWindow s.machine.world = .ok () w := by
  cases hopen : parts.access.openWindow s.machine.world with
  | ok _ w => exact ⟨w, rfl⟩
  | error e w =>
    have hrefused : loadInto parts list volumes core s = .error e _ :=
      Step.bind_of_error (transition_of_error hopen _ _)
    rw [hrefused] at h
    cases h

/-- What a load with success does last: it starts the core, with the list that it leaves. -/
theorem loadCore_starts {parts : IplParts ω} {volumes : List MappedVolume} {hobs : HobList}
    {machine : Machine ω} {core : UInt64} {t : HobList × Machine ω}
    (hload : loadCore parts volumes (hobs, machine) = .ok core t) :
    core = machine.free ∧ ∃ entryPoint found before, loadCalls parts volumes hobs machine =
      .startCore entryPoint (hobs.publishCore core).toBytes found :: before := by
  cases hreported : SmramTable.ofHobs hobs with
  | error e =>
    rw [loadCore_of_error ((SmramTable.ofHobs_publishCore hobs machine.free).trans hreported)] at hload
    cases hload
  | ok table =>
    obtain ⟨hrun, hcalls⟩ := loadCore_noted parts volumes machine hreported
    rw [hrun] at hload
    cases hinto : loadInto parts.noting (hobs.publishCore machine.free) volumes machine.free
        (fresh table machine) with
    | error why s =>
      rw [hinto] at hload
      cases hload
    | ok _ s =>
      rw [hinto] at hload
      cases hload
      rw [Step.after_of_ok hinto] at hcalls
      obtain ⟨n, hnoted⟩ := opened_of_loadInto hinto
      have hopened := SmramAccess.openWindow_follows parts.noting_mirrors.access
        (fresh table machine).machine.world
      rw [hnoted] at hopened
      obtain ⟨entryPoint, found, before, hlast, -⟩ := (loadInto_finishes parts
        (hobs.publishCore machine.free) volumes (fresh_rests table machine) hopened).of_ok hinto
      exact ⟨rfl, entryPoint, found, before, hcalls.trans hlast⟩

/-- The core that a load starts finds the first record of the list that it is handed. On a list that
began with a record this is whatever that record names. On one that began without, it is the record of
the first load, and so the one that the load answers only if no load went before, or if it was put in
the same place. -/
theorem loadCore_finds_first {initial hobs : HobList} {published : List UInt64}
    (hloads : Loads initial published hobs) (hencodable : ∀ hob ∈ initial, hob.Encodable)
    {parts : IplParts ω} {volumes : List MappedVolume} {machine : Machine ω} {core : UInt64}
    {t : HobList × Machine ω} (hload : loadCore parts volumes (hobs, machine) = .ok core t) :
    core = machine.free ∧ ∃ entryPoint list found before decoded,
      loadCalls parts volumes hobs machine = .startCore entryPoint list found :: before ∧
      HobList.parse list = .ok decoded ∧
      (initial.dataOf? Guid.mmCoreData = none → ∀ a, decoded.findCore found.cores = .ok a ↔
        a = published.getLastD core ∧ a ≠ 0 ∧ (found.cores a).signature = CoreRecord.magic) ∧
      ∀ data, initial.dataOf? Guid.mmCoreData = some data → decoded.findCore found.cores =
        HobList.findCore [.guidExtension Guid.mmCoreData (data.padTo 8)] found.cores := by
  obtain ⟨rfl, entryPoint, found, before, hcalls⟩ := loadCore_starts hload
  have hparsed := HobList.parse_toBytes
    (HobList.encodable_publish (hloads.encodable hencodable) machine.free)
  have hdata := HobList.dataOf?_padded (hobs.publishCore machine.free) Guid.mmCoreData
  rw [HobList.dataOf?_publish, hloads.dataOf?_eq] at hdata
  refine ⟨rfl, entryPoint, _, found, before, _, hcalls, hparsed, fun hnone a => ?_, fun data hsome => ?_⟩
  · have hfirst : (published.getLast?.map le64).or (some (le64 machine.free)) =
        some (le64 (published.getLastD machine.free)) := by
      rw [List.getLastD_eq_getLast?]
      cases published.getLast? <;> rfl
    have hwhole (address : UInt64) : Bytes.padTo 8 (le64 address) = le64 address :=
      Bytes.padTo_of_mod (by rw [length_le64])
    rw [hnone, Option.none_or, hfirst, Option.map_some, hwhole] at hdata
    exact HobList.findCore_eq_ok hdata found.cores a
  · rw [hsome, Option.some_or, Option.some_or, Option.map_some] at hdata
    exact HobList.findCore_of_dataOf? hdata found.cores

def abandonedOnce : HobList × Machine Unit :=
  Step.after (loadCore obliging []) (oneRangeHobs, .new 0x1000 ())

theorem loadCore_finds_first_retried :
    Step.answer (loadCore obliging []) (oneRangeHobs, .new 0x1000 ()) = .error (.error .unsupported) ∧
    ∃ t, loadCore obliging [⟨0, bareVolume⟩] abandonedOnce = .ok 0x1050 t ∧
      ∃ entryPoint list found before decoded,
        loadCalls obliging [⟨0, bareVolume⟩] abandonedOnce.1 abandonedOnce.2 =
          .startCore entryPoint list found :: before ∧
        HobList.parse list = .ok decoded ∧ decoded.findCore found.cores = .ok 0x1000 := by
  have habandoned : Step.answer (loadCore obliging []) (oneRangeHobs, .new 0x1000 ()) =
      .error (.error .unsupported) := by decide +kernel
  have hanswer : Step.answer (loadCore obliging [⟨0, bareVolume⟩]) abandonedOnce = .ok 0x1050 := by
    decide +kernel
  have hloads : Loads oneRangeHobs [0x1000] abandonedOnce.1 :=
    .load .none obliging [] (.new 0x1000 ())
  have hencodable : ∀ hob ∈ oneRangeHobs, hob.Encodable := by
    intro hob hmem
    rw [List.mem_singleton.mp hmem]
    exact ⟨by decide +kernel, nofun⟩
  obtain ⟨t, hload⟩ := Step.answer_eq_ok.mp hanswer
  obtain ⟨-, entryPoint, list, found, before, decoded, hcalls, hparse, hfirst, -⟩ :=
    loadCore_finds_first hloads hencodable hload
  have hsigned : ((loadCalls obliging [⟨0, bareVolume⟩] abandonedOnce.1 abandonedOnce.2).head?.any
      fun
        | .startCore _ _ m => (m.cores 0x1000).signature = CoreRecord.magic
        | _ => false) = true := by decide +kernel
  change loadCalls obliging [⟨0, bareVolume⟩] abandonedOnce.1 abandonedOnce.2 = _ at hcalls
  rw [hcalls] at hsigned
  have haddress : (0x1000 : UInt64) ≠ 0 := by decide
  exact ⟨habandoned, t, hload, entryPoint, list, found, before, decoded, hcalls, hparse,
    (hfirst rfl 0x1000).mpr ⟨rfl, haddress, of_decide_eq_true hsigned⟩⟩

def loadedOnce : HobList × Machine Unit :=
  Step.after (loadCore obliging [⟨0, bareVolume⟩]) (oneRangeHobs, .new 0x1000 ())

/-- A second load answers its own record, and its core finds the record of the first. -/
theorem second_core_misled :
    Step.answer (loadCore obliging [⟨0, bareVolume⟩]) (oneRangeHobs, .new 0x1000 ()) = .ok 0x1000 ∧
    Step.answer (loadCore obliging [⟨0, bareVolume⟩]) loadedOnce = .ok 0x1098 ∧
    (loadCalls obliging [⟨0, bareVolume⟩] loadedOnce.1 loadedOnce.2).head?.bind IplCall.found? =
      some (.ok 0x1000) := by
  decide +kernel

end Ipl
end PlatformInit
