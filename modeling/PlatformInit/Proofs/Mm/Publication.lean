import PlatformInit.Proofs.Mm.Cleanup
import PlatformInit.Proofs.Mm.Introduction

/-!
What a load leaves in the hand-off list, and what a gateway makes of it.

The record is published before anything else and never taken back, so a list with a record says that a
load was tried, not that a core runs. What a failed load takes back are the ranges in the record.
-/
set_option autoImplicit false
namespace PlatformInit

open Step (Ends Returns)

namespace HobList

theorem dataOf?_publish (hobs : HobList) (core : UInt64) :
    (hobs.publishCore core).dataOf? Guid.mmCoreData =
      (hobs.dataOf? Guid.mmCoreData).or (some (le64 core)) := by
  rw [publishCore, dataOf?_append]
  rfl

theorem dataOf?_publishCore {hobs : HobList} (h : hobs.dataOf? Guid.mmCoreData = none) (core : UInt64) :
    (hobs.publishCore core).dataOf? Guid.mmCoreData = some (le64 core) := by
  rw [dataOf?_publish, h, Option.none_or]

theorem findCore_eq_ok {hobs : HobList} {core : UInt64}
    (h : hobs.dataOf? Guid.mmCoreData = some (le64 core)) (cores : UInt64 → CoreRecord) (a : UInt64) :
    hobs.findCore cores = .ok a ↔ a = core ∧ a ≠ 0 ∧ (cores a).signature = CoreRecord.magic := by
  have hcore : Bytes.u64? (le64 core) 0 = some core := by
    simp [Bytes.u64?, Bytes.word?_eq, length_le64]
  have haddress : (hobs.dataOf? Guid.mmCoreData).bind (·.u64? 0) = some core := by
    rw [h]
    exact hcore
  rw [findCore, haddress]
  dsimp only
  by_cases hlost : core = 0 ∨ (cores core).signature ≠ CoreRecord.magic
  · rw [if_pos hlost]
    constructor
    · intro hfound
      cases hfound
    · rintro ⟨rfl, haddress, hsigned⟩
      rcases hlost with hzero | hunsigned
      · exact absurd hzero haddress
      · exact absurd hsigned hunsigned
  · rw [if_neg hlost]
    obtain ⟨haddress, hsigned⟩ := not_or.mp hlost
    constructor
    · rintro ⟨⟩
      exact ⟨rfl, haddress, not_not.mp hsigned⟩
    · rintro ⟨rfl, -⟩
      rfl

theorem findCore_publishCore {hobs : HobList} (h : hobs.dataOf? Guid.mmCoreData = none) (core : UInt64)
    (cores : UInt64 → CoreRecord) : (hobs.publishCore core).findCore cores = .ok core ↔
      core ≠ 0 ∧ (cores core).signature = CoreRecord.magic := by
  rw [findCore_eq_ok (dataOf?_publishCore h core)]
  exact and_iff_right rfl

end HobList

theorem Gateway.environmentMessages_publishCore (hobs : HobList) (core systemTable : UInt64) :
    environmentMessages (hobs.publishCore core) systemTable = environmentMessages hobs systemTable := by
  rw [environmentMessages, HobList.publishCore, List.filterMap_append]
  exact congrArg _ (List.append_nil _)

namespace Ipl
variable {ω : Type}

theorem loadCore_list (parts : IplParts ω) (volumes : List MappedVolume) (hobs : HobList)
    (machine : Machine ω) : Ends (loadCore parts volumes) (hobs, machine) fun _ t =>
      t.1 = hobs.publishCore machine.free := by
  cases htable : SmramTable.ofHobs (hobs.publishCore machine.free) with
  | error e =>
    exact Ends.of_eq_error (loadCore_of_error htable) rfl
  | ok table =>
    rw [Ends, loadCore_of_ok htable]
    cases loadInto parts (hobs.publishCore machine.free) volumes machine.free
      ⟨table, machine.newCore.1⟩ <;> rfl

/-- A load that fails, at whatever step, leaves a record without ranges. -/
theorem loadCore_forgets {parts : IplParts ω} {volumes : List MappedVolume} {hobs : HobList}
    {machine : Machine ω} {e : EfiError} {t : HobList × Machine ω}
    (hfails : loadCore parts volumes (hobs, machine) = .error (.error e) t) :
    (t.2.cores machine.free).ranges = (0, 0) := by
  have hpublished := SmramTable.ofHobs_publishCore hobs machine.free
  have hnew : (machine.newCore.1.cores machine.free).ranges = (0, 0) :=
    congrArg CoreRecord.ranges (if_pos rfl)
  cases hreported : SmramTable.ofHobs hobs with
  | error e =>
    rw [loadCore_of_error (hpublished.trans hreported)] at hfails
    cases hfails
    exact hnew
  | ok table =>
    cases hopened : parts.access.openWindow machine.world with
    | error e w =>
      have hinto : loadInto parts (hobs.publishCore machine.free) volumes machine.free
          ⟨table, machine.newCore.1⟩ = .error e _ :=
        Step.bind_of_error (transition_of_error hopened _ _)
      rw [loadCore_of_ok (hpublished.trans hreported), hinto] at hfails
      cases hfails
      exact hnew
    | ok _ w =>
      have hends := loadInto_finishes parts (hobs.publishCore machine.free) volumes
        (fresh_rests table machine) hopened
      rw [(loadCore_noted parts volumes machine hreported).1] at hfails
      cases hinto : loadInto parts.noting (hobs.publishCore machine.free) volumes machine.free
          (fresh table machine) with
      | ok _ s =>
        rw [hinto] at hfails
        cases hfails
      | error why s =>
        rw [hinto] at hfails
        cases hfails
        exact (hends.of_error hinto).2.1

/-- A list without a record of a core is refused by a gateway, which then does nothing, and by the search
for the record. A load that fails on it leaves one record behind, without ranges: the search finds it
as long as it is signed, and a gateway is started as if the core ran. -/
theorem loadCore_leaves_record (parts : IplParts ω) (volumes : List MappedVolume) {hobs : HobList}
    (machine : Machine ω) (hnone : hobs.dataOf? Guid.mmCoreData = none) :
    (∀ (p : GatewayParts ω) systemTable g,
      Gateway.perform p (.start hobs systemTable) g = .error (.error .unsupported) g ∧
        Gateway.calls p (.start hobs systemTable) g = []) ∧
    (∀ cores, hobs.findCore cores = .error .unsupported) ∧
    ∀ e t, loadCore parts volumes (hobs, machine) = .error (.error e) t →
      t.1 = hobs.publishCore machine.free ∧
      (t.2.cores machine.free).ranges = (0, 0) ∧
      (t.1.findCore t.2.cores = .ok machine.free ↔
        machine.free ≠ 0 ∧ (t.2.cores machine.free).signature = CoreRecord.magic) ∧
      ∀ (p : GatewayParts ω) systemTable g,
        (Ends (Gateway.start p t.1 systemTable) g fun r _ => Returns r → ∃ a, r = .ok a) ∧
        (g.locked = false → ∃ made ending,
          Communicator.Conversation p.comm (Gateway.greeted p g).comm
            (Gateway.lockMessages (p.isInstalled Guid.readyToLock g.world).1 ++
              Gateway.environmentMessages hobs systemTable) made ending ∧
          (Gateway.calls p (.start t.1 systemTable) g).reverse = Gateway.greetingCalls p g ++ made) := by
  have hmissing : (hobs.dataOf? Guid.mmCoreData).isSome = false := by rw [hnone]; rfl
  refine ⟨fun p systemTable g => Gateway.start_refused p systemTable g hmissing, fun cores => ?_,
    fun e t hfails => ?_⟩
  · rw [HobList.findCore, hnone]
    rfl
  · have hlist : t.1 = hobs.publishCore machine.free :=
      (loadCore_list parts volumes hobs machine).of_error hfails
    have hcore : (t.1.dataOf? Guid.mmCoreData).isSome = true := by
      rw [hlist, HobList.dataOf?_publishCore hnone]
      rfl
    refine ⟨hlist, loadCore_forgets hfails, ?_, fun p systemTable g =>
      ⟨Gateway.start_unfailing p systemTable g hcore, fun hunlocked => ?_⟩⟩
    · rw [hlist]
      exact HobList.findCore_publishCore hnone machine.free t.2.cores
    · obtain ⟨made, ending, hconversation, hcalls, -⟩ :=
        Gateway.start_tells p systemTable hcore hunlocked
      rw [hlist, Gateway.environmentMessages_publishCore] at hconversation
      exact ⟨made, ending, hconversation, hcalls⟩

theorem loadCore_without_smram (parts : IplParts Unit) : loadCore parts [] ([], .new 0x1000 ()) =
    .error (.error .notFound) (HobList.publishCore [] 0x1000, (Machine.new 0x1000 ()).newCore.1) := by
  have hmissing : SmramTable.ofHobs (HobList.publishCore [] (Machine.new 0x1000 ()).free) =
      .error .resourceNotFound := rfl
  exact loadCore_of_error hmissing

/-- A gateway that speaks to the record at an address, by software MMIs that nobody answers. -/
def unanswered (core : UInt64) : GatewayParts Unit where
  comm := ⟨core, obliging.access, some ⟨fun _ m => .ok () m⟩, none, 1⟩
  isInstalled _ w := (false, w)

theorem declined_published : ∃ entry list m,
    .startCore entry list m ∈ loadCalls (declining false) [⟨0, bareVolume⟩] oneRangeHobs
      (.new 0x1000 false) ∧ (m.cores 0x1000).ranges ≠ (0, 0) := by
  have hentered : (loadCalls (declining false) [⟨0, bareVolume⟩] oneRangeHobs
      (.new 0x1000 false)).any (fun
        | .startCore _ _ m => (m.cores 0x1000).ranges != (0, 0)
        | _ => false) = true := by decide +kernel
  obtain ⟨call, hcall, hranges⟩ := List.any_eq_true.mp hentered
  cases call with
  | startCore entry list m => exact ⟨entry, list, m, hcall, bne_iff_ne.mp hranges⟩
  | _ => cases hranges

theorem loadCore_leaves_record_declined :
    (Gateway.perform (unanswered 0x1000) (.start [] 0) (.new (.new [] (.new 0x1000 ()))) =
        .error (.error .unsupported) (.new (.new [] (.new 0x1000 ()))) ∧
      ∃ t, loadCore obliging [] ([], .new 0x1000 ()) = .error (.error .notFound) t ∧
        t.1 = [.guidExtension Guid.mmCoreData (le64 0x1000)] ∧ (t.2.cores 0x1000).ranges = (0, 0) ∧
        t.1.findCore t.2.cores = .ok 0x1000) ∧
    (∃ entry list m, .startCore entry list m ∈ loadCalls (declining false) [⟨0, bareVolume⟩]
        oneRangeHobs (.new 0x1000 false) ∧ (m.cores 0x1000).ranges ≠ (0, 0)) ∧
    ∃ t, loadCore (declining false) [⟨0, bareVolume⟩] (oneRangeHobs, .new 0x1000 false) =
        .error (.error .unsupported) t ∧
      t.1 = oneRangeHobs.publishCore 0x1000 ∧ (t.2.cores 0x1000).ranges = (0, 0) ∧
      t.1.findCore t.2.cores = .ok 0x1000 := by
  have haddress : (0x1000 : UInt64) ≠ 0 := by decide
  refine ⟨?missing, declined_published, ?declined⟩
  case missing =>
    have hnone : HobList.dataOf? [] Guid.mmCoreData = none := rfl
    obtain ⟨hrefused, -, hfails⟩ := loadCore_leaves_record obliging [] (.new 0x1000 ()) hnone
    obtain ⟨hlist, hranges, hfound, -⟩ := hfails .notFound _ (loadCore_without_smram obliging)
    exact ⟨(hrefused (unanswered 0x1000) 0 _).1, _, loadCore_without_smram obliging, hlist, hranges,
      hfound.mpr ⟨haddress, rfl⟩⟩
  case declined =>
    have hnone : HobList.dataOf? oneRangeHobs Guid.mmCoreData = none := by decide
    have hanswer : Step.answer (loadCore (declining false) [⟨0, bareVolume⟩])
          (oneRangeHobs, .new 0x1000 false) = .error (.error .unsupported) ∧
        ((Step.after (loadCore (declining false) [⟨0, bareVolume⟩])
          (oneRangeHobs, .new 0x1000 false)).2.cores 0x1000).signature = CoreRecord.magic := by
      decide +kernel
    obtain ⟨herror, hsigned⟩ := hanswer
    obtain ⟨t, ht⟩ := Step.answer_eq_error.mp herror
    rw [Step.after_of_error ht] at hsigned
    obtain ⟨-, -, hfails⟩ := loadCore_leaves_record (declining false) [⟨0, bareVolume⟩]
      (.new 0x1000 false) hnone
    obtain ⟨hlist, hranges, hfound, -⟩ := hfails .unsupported t ht
    exact ⟨t, ht, hlist, hranges, hfound.mpr ⟨haddress, hsigned⟩⟩

/-- Without SMRAM no core is loaded, yet the record is found and the gateway is started. -/
theorem failed_load_published : ∃ t,
    loadCore obliging [] ([], .new 0x1000 ()) = .error (.error .notFound) t ∧
    t.1.findCore t.2.cores = .ok 0x1000 ∧
    Step.succeeds (Gateway.start (unanswered 0x1000) t.1 0) (.new (.new [] t.2)) = true := by
  refine ⟨_, loadCore_without_smram obliging, ?_, ?_⟩
  · decide +kernel
  · decide +kernel

end Ipl
end PlatformInit
