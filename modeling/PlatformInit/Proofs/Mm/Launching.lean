import PlatformInit.Proofs.Mm.FixedPlace

/-!
Where a core is entered.

A core is started right behind the calls that write its image and make it visible to the processor, at
the entry point of its headers, and its record says so. No header is checked against another one: the
entry point lies in the image exactly when the headers put it there.
-/
set_option autoImplicit false
namespace PlatformInit

open Step (Keeps Ends)
open Noted (Justified)

namespace Ipl
variable {ω : Type}

/-- The core entered at `entry` is the one that the volumes hold. The last calls before wrote `placed` at
`base`, its image as it looks there, and made it visible to the processor. -/
structure Launched (reader : PeReader) (volumes : List MappedVolume) (core entry : UInt64)
    (m : Machine ω) (earlier : List (IplCall ω)) (p : PeImage) (base : UInt64) (placed : Bytes) :
    Prop where
  found : ∃ volume image, MappedVolume.findCore volumes = .ok (volume, image) ∧
    reader.parse image = .ok p ∧ place p image base = .ok placed
  written : ∃ before m₁ m₂, earlier =
    .invalidate base (.ofNat placed.length) m₂ :: .writeImage base placed m₁ :: before
  entry_eq : entry.toNat = base.toNat + p.entryPoint.toNat
  recorded : (m.cores core).image = ⟨base, .ofNat placed.length, entry⟩

namespace Launched
variable {reader : PeReader} {volumes : List MappedVolume} {core entry base : UInt64} {m : Machine ω}
  {earlier : List (IplCall ω)} {p : PeImage} {placed : Bytes}
  (h : Launched reader volumes core entry m earlier p base placed)
include h

theorem length_eq : placed.length = p.sizeOfImage.toNat := by
  obtain ⟨volume, image, -, -, hplace⟩ := h.found
  exact place_length hplace

theorem headers_eq {volume : UInt64} {image : Bytes} {q : PeImage}
    (hfound : MappedVolume.findCore volumes = .ok (volume, image)) (hparse : reader.parse image = .ok q) :
    p = q := by
  obtain ⟨volume', image', hfound', hparse', -⟩ := h.found
  exact headers_unique hfound hparse hfound' hparse'

end Launched

def Launches (reader : PeReader) (volumes : List MappedVolume) (core : UInt64) (call : IplCall ω)
    (earlier : List (IplCall ω)) : Prop :=
  ∀ entry list m, call = .startCore entry list m →
    ∃ p base placed, Launched reader volumes core entry m earlier p base placed

variable {reader : PeReader} {volumes : List MappedVolume} {core : UInt64}

theorem launches_of_not_start {call : IplCall ω} (h : call.isStart = false)
    (earlier : List (IplCall ω)) : Launches reader volumes core call earlier := by
  rintro entry list m rfl
  cases h

theorem launches_startCore {entry : UInt64} {list : Bytes} {m : Machine ω} {earlier : List (IplCall ω)}
    {p : PeImage} {base : UInt64} {placed : Bytes}
    (h : Launched reader volumes core entry m earlier p base placed) :
    Launches reader volumes core (.startCore entry list m) earlier := by
  rintro _ _ _ ⟨⟩
  exact ⟨p, base, placed, h⟩

abbrev Orderly (reader : PeReader) (volumes : List MappedVolume) (core : UInt64)
    (n : Noted ω (IplCall ω)) : Prop :=
  Justified (Launches reader volumes core) n.calls

theorem noting_access_keeps (a : SmramAccess ω) : a.noting.KeepsWorld (Orderly reader volumes core) where
  reveal n hn _ := Noted.call_justified (fun _ => launches_of_not_start rfl) a.reveal n hn
  hide n hn _ := Noted.call_justified (fun _ => launches_of_not_start rfl) a.hide n hn
  lock n hn _ := Noted.call_justified (fun _ => launches_of_not_start rfl) a.lock n hn

theorem PlacingCalls.justified {volume : UInt64} {image : Bytes} {p : PeImage} {destination : UInt64}
    {m : Machine (Noted ω (IplCall ω))} {calls : List (IplCall ω)}
    (h : PlacingCalls p image destination core m calls)
    (hfound : MappedVolume.findCore volumes = .ok (volume, image)) (hparse : reader.parse image = .ok p)
    (hm : Orderly reader volumes core m.world) : Justified (Launches reader volumes core) calls := by
  have hother {call : IplCall ω} {earlier : List (IplCall ω)} (hcall : call.isStart = false)
      (h : Justified (Launches reader volumes core) earlier) :
      Justified (Launches reader volumes core) (call :: earlier) :=
    ⟨launches_of_not_start hcall earlier, h⟩
  cases h with
  | unplaced => exact hm
  | written => exact hother rfl hm
  | visible => exact hother rfl (hother rfl hm)
  | entered hplaced hentry hrecorded =>
    have hcore := And.intro hfound (And.intro hparse hplaced.place_eq)
    exact ⟨launches_startCore ⟨⟨volume, image, hcore⟩, ⟨_, _, _, rfl⟩, hentry, hrecorded⟩,
      hother rfl (hother rfl hm)⟩

theorem placing_launches (parts : IplParts ω) (hobs : HobList) :
    PlacingKeeps (Orderly parts.reader volumes core) parts.noting volumes hobs core :=
  fun _ image p destination hfound hparse m hm =>
    (placeAndStart_calls parts p image destination hobs core m).mono fun _ _ h =>
      h.justified hfound hparse hm

/-- Every core that a load starts is the one it found, launched for the record that it published. -/
theorem loadCalls_launch (parts : IplParts ω) (volumes : List MappedVolume) (hobs : HobList)
    (machine : Machine ω) :
    Justified (Launches parts.reader volumes machine.newCore.2) (loadCalls parts volumes hobs machine) := by
  have hset (base length : UInt64) (type : CacheType) :
      Keeps (Orderly parts.reader volumes machine.newCore.2)
        (parts.noting.cache.setAttributes base length type) :=
    Noted.call_justified (fun _ => launches_of_not_start rfl) _
  have hends : Ends (loadCore parts.noting volumes) (hobs, machine.noted []) fun _ t =>
      Orderly parts.reader volumes machine.newCore.2 t.2.world :=
    loadCore_ends_keeping (noting_access_keeps parts.access) hset (placing_launches parts _) trivial
  unfold loadCalls
  cases hload : loadCore parts.noting volumes (hobs, machine.noted []) with
  | ok _ t => exact hends.of_ok hload
  | error _ t => exact hends.of_error hload

/-- A core is entered behind the calls that wrote its image, at the entry point that its record holds.
That is an address of the image exactly when the headers have the entry point below the size of the
image; no check of the loader sees to that. -/
theorem core_entered_behind_image (parts : IplParts ω) (volumes : List MappedVolume) (hobs : HobList)
    (machine m : Machine ω) (later earlier : List (IplCall ω)) (entry : UInt64) (list : Bytes)
    (hcalls : loadCalls parts volumes hobs machine = later ++ .startCore entry list m :: earlier) :
    ∃ p base placed, Launched parts.reader volumes machine.newCore.2 entry m earlier p base placed ∧
      placed.length = p.sizeOfImage.toNat ∧
      (base.toNat ≤ entry.toNat ∧ entry.toNat < base.toNat + placed.length ↔
        p.entryPoint < p.sizeOfImage) := by
  have hjustified := loadCalls_launch parts volumes hobs machine
  rw [hcalls] at hjustified
  obtain ⟨p, base, placed, hlaunched⟩ := hjustified.of_append entry list m rfl
  refine ⟨p, base, placed, hlaunched, hlaunched.length_eq, ?_⟩
  rw [hlaunched.entry_eq, hlaunched.length_eq, UInt32.lt_iff_toNat_lt]
  omega

theorem exists_startCore (calls : List (IplCall ω)) (h : calls.any IplCall.isStart = true) :
    ∃ later entry list m earlier, calls = later ++ .startCore entry list m :: earlier := by
  obtain ⟨call, hcall, hstart⟩ := List.any_eq_true.mp h
  obtain ⟨later, earlier, hsplit⟩ := List.append_of_mem hcall
  cases call with
  | startCore entry list m => exact ⟨later, entry, list, m, earlier, hsplit⟩
  | _ => cases hstart

theorem core_entered_behind_image_recording : ∃ later entry list m earlier,
    loadCalls obliging [⟨0xFFC00000, recordingVolume 0⟩] oneRangeHobs (.new 0x1000 ()) =
      later ++ .startCore entry list m :: earlier ∧
    ∃ base placed before m₁ m₂, earlier =
      .invalidate base (.ofNat placed.length) m₂ :: .writeImage base placed m₁ :: before ∧
      base.toNat ≤ entry.toNat ∧ entry.toNat < base.toNat + placed.length := by
  obtain ⟨later, entry, list, m, earlier, hcalls⟩ := exists_startCore (loadCalls obliging
    [⟨0xFFC00000, recordingVolume 0⟩] oneRangeHobs (.new 0x1000 ())) (by decide +kernel)
  obtain ⟨p, base, placed, hlaunched, -, hinside⟩ :=
    core_entered_behind_image obliging _ _ _ m later earlier entry list hcalls
  have hfound : MappedVolume.findCore [⟨0xFFC00000, recordingVolume 0⟩] =
      .ok (0xFFC00000, recordingImage 0) := by decide +kernel
  have hparse : obliging.reader.parse (recordingImage 0) = .ok (recordedHeaders 0) := by decide +kernel
  have hp := hlaunched.headers_eq hfound hparse
  obtain ⟨before, m₁, m₂, hwritten⟩ := hlaunched.written
  subst hp
  exact ⟨later, entry, list, m, earlier, hcalls, base, placed, before, m₁, m₂, hwritten,
    hinside.mpr (by decide)⟩

/-- `recordingImage` without a place, and with its entry point behind its 432 bytes. -/
def strayImage : Bytes := (recordingImage 0).overwrite 168 (le32 0x1000)

def strayVolume : Bytes := (recordingVolume 0).overwrite 252 (le32 0x1000)

/-- Headers with an entry point behind the image are accepted, and the core is entered there. -/
theorem core_entered_outside : ∃ later entry list m earlier p base placed,
    obliging.reader.parse strayImage = .ok p ∧
    loadCalls obliging [⟨0xFFC00000, strayVolume⟩] oneRangeHobs (.new 0x1000 ()) =
      later ++ .startCore entry list m :: earlier ∧
    Launched obliging.reader [⟨0xFFC00000, strayVolume⟩] 0x1000 entry m earlier p base placed ∧
    base.toNat + placed.length < entry.toNat := by
  have hfound : MappedVolume.findCore [⟨0xFFC00000, strayVolume⟩] = .ok (0xFFC00000, strayImage) := by
    decide +kernel
  have hparse : obliging.reader.parse strayImage = .ok { recordedHeaders 0 with entryPoint := 0x1000 } := by
    decide +kernel
  obtain ⟨later, entry, list, m, earlier, hcalls⟩ := exists_startCore (loadCalls obliging
    [⟨0xFFC00000, strayVolume⟩] oneRangeHobs (.new 0x1000 ())) (by decide +kernel)
  have hjustified := loadCalls_launch obliging [⟨0xFFC00000, strayVolume⟩] oneRangeHobs (.new 0x1000 ())
  rw [hcalls] at hjustified
  obtain ⟨p, base, placed, hlaunched⟩ := hjustified.of_append entry list m rfl
  have hp := hlaunched.headers_eq hfound hparse
  subst hp
  refine ⟨later, entry, list, m, earlier, _, base, placed, hparse, hcalls, hlaunched, ?_⟩
  rw [hlaunched.entry_eq, hlaunched.length_eq]
  change base.toNat + 432 < base.toNat + 0x1000
  omega

end Ipl
end PlatformInit
