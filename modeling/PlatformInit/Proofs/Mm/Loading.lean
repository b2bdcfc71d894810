import PlatformInit.Mm.Ipl
import PlatformInit.Proofs.Contract

/-!
All ways a load can go.

`Executing` and `Loading` say once what trying a core and loading into the open window can do, with
what each step found and left. What is true of every load is proved by cases on them.
-/
set_option autoImplicit false
namespace PlatformInit.Ipl

open Step (Ends)

variable {ω : Type}

/-- The state in which a core is put in its place: its record lists the ranges and names its volume. -/
def readied (core volume : UInt64) (s : IplState ω) : IplState ω :=
  let listed := Step.after (publishRanges core : Step (IplState ω) EfiError Unit) s
  { listed with machine := listed.machine.updateCore core fun r => { r with bootVolume := volume } }

/-- The core that the volumes hold, and the place that it is given. -/
structure Fitted (reader : PeReader) (c : IplConfig) (index : Nat) (range : SmramRange)
    (volumes : List MappedVolume) (t : SmramTable) (volume : UInt64) (image : Bytes) (p : PeImage)
    (destination : UInt64) (carved : Option Carveout) (final : SmramTable) : Prop where
  found : MappedVolume.findCore volumes = .ok (volume, image)
  parsed : reader.parse image = .ok p
  chosen : choosePlace c p index range t = .ok (destination, carved) final

theorem headers_unique {reader : PeReader} {volumes : List MappedVolume} {volume volume' : UInt64}
    {image image' : Bytes} {p p' : PeImage}
    (hfound : MappedVolume.findCore volumes = .ok (volume, image)) (hparse : reader.parse image = .ok p)
    (hfound' : MappedVolume.findCore volumes = .ok (volume', image'))
    (hparse' : reader.parse image' = .ok p') : p' = p := by
  rw [hfound, Except.ok.injEq, Prod.mk.injEq] at hfound'
  rw [← hfound'.2, hparse, Except.ok.injEq] at hparse'
  exact hparse'.symm

section
variable (parts : IplParts ω) (index : Nat) (range : SmramRange) (list : HobList)
  (volumes : List MappedVolume) (core : UInt64)

/-- How trying a core in a range ends. -/
inductive Executing (s : IplState ω) : Except (Fault EfiError) Unit → IplState ω → Prop where
  | missing {e : Fault EfiError} (hfound : MappedVolume.findCore volumes = .error e) :
      Executing s (.error e) s
  | unreadable {volume : UInt64} {image : Bytes} {e : PeError}
      (hfound : MappedVolume.findCore volumes = .ok (volume, image))
      (hparse : parts.reader.parse image = .error e) : Executing s (.error (.error e.toEfi)) s
  | unplaced {volume : UInt64} {image : Bytes} {p : PeImage} {e : Fault EfiError} {final : SmramTable}
      (hfound : MappedVolume.findCore volumes = .ok (volume, image))
      (hparse : parts.reader.parse image = .ok p)
      (hplace : choosePlace parts.config p index range s.table = .error e final) :
      Executing s (.error e) { s with table := final }
  | started {volume : UInt64} {image : Bytes} {p : PeImage} {destination : UInt64}
      {carved : Option Carveout} {final : SmramTable} {t : IplState ω}
      (hfitted : Fitted parts.reader parts.config index range volumes s.table volume image p destination
        carved final)
      (hstart : onMachine (placeAndStart parts p image destination list core)
        (readied core volume { s with table := final }) = .ok () t) :
      Executing s (.ok ()) t
  | stopped {volume : UInt64} {image : Bytes} {p : PeImage} {destination : UInt64}
      {carved : Option Carveout} {final : SmramTable} {why : Halt} {t : IplState ω}
      (hfitted : Fitted parts.reader parts.config index range volumes s.table volume image p destination
        carved final)
      (hstart : onMachine (placeAndStart parts p image destination list core)
        (readied core volume { s with table := final }) = .error (.halt why) t) :
      Executing s (.error (.halt why)) t
  | failed {volume : UInt64} {image : Bytes} {p : PeImage} {destination : UInt64}
      {carved : Option Carveout} {final : SmramTable} {e : EfiError} {t u : IplState ω}
      (hfitted : Fitted parts.reader parts.config index range volumes s.table volume image p destination
        carved final)
      (hstart : onMachine (placeAndStart parts p image destination list core)
        (readied core volume { s with table := final }) = .error (.error e) t)
      (hgiven : giveUp core carved t = .ok () u) :
      Executing s (.error (.error e)) u
  | lost {volume : UInt64} {image : Bytes} {p : PeImage} {destination : UInt64}
      {carved : Option Carveout} {final : SmramTable} {e : EfiError} {e' : Fault EfiError}
      {t u : IplState ω}
      (hfitted : Fitted parts.reader parts.config index range volumes s.table volume image p destination
        carved final)
      (hstart : onMachine (placeAndStart parts p image destination list core)
        (readied core volume { s with table := final }) = .error (.error e) t)
      (hgiven : giveUp core carved t = .error e' u) :
      Executing s (.error e') u

theorem executeCore_executing (s : IplState ω) :
    Ends (executeCore parts index range list volumes core) s
      (Executing parts index range list volumes core s) := by
  refine Ends.ofFallible_bind (fun (volume, image) hfound => ?_) fun e he => .missing he
  dsimp only
  cases hparse : parts.reader.parse image with
  | error e => exact Ends.bind_of_error rfl (.unreadable hfound hparse)
  | ok p =>
    refine Ends.bind_of_ok rfl ?_
    cases hplace : choosePlace parts.config p index range s.table with
    | error e final =>
      exact Ends.bind_of_error (Step.focus_of_error hplace) (.unplaced hfound hparse hplace)
    | ok place final =>
      obtain ⟨destination, carved⟩ := place
      have hfitted : Fitted parts.reader parts.config index range volumes s.table volume image p
        destination carved final := ⟨hfound, hparse, hplace⟩
      refine Ends.bind_of_ok (Step.focus_of_ok hplace) (Ends.bind_of_ok rfl (Ends.bind_of_ok rfl ?_))
      cases hstart : onMachine (placeAndStart parts p image destination list core)
          (readied core volume { s with table := final }) with
      | ok _ t => exact Ends.bind_of_ok (Step.attempt_of_ok hstart) (.started hfitted hstart)
      | error e t =>
        cases e with
        | halt why => exact Ends.bind_of_error (Step.attempt_of_halt hstart) (.stopped hfitted hstart)
        | error e =>
          refine Ends.bind_of_ok (Step.attempt_of_error hstart) ?_
          cases hgiven : giveUp core carved t with
          | ok _ u => exact Ends.bind_of_ok hgiven (.failed hfitted hstart hgiven)
          | error e' u => exact Ends.bind_of_error hgiven (.lost hfitted hstart hgiven)

structure Picked (s : IplState ω) (t : IplState ω) : Prop where
  opened : onWindow (SmramTable.openAll parts.access) s = .ok () t
  selected : t.table.selectRange = .ok (some index)
  range_eq : t.table.ranges[index]? = some range

def abandon : Step (IplState ω) EfiError Unit := do
  closeWindow parts
  Step.fail .unsupported

end

section
variable (parts : IplParts ω) (list : HobList) (volumes : List MappedVolume) (core : UInt64)

inductive Loading (s : IplState ω) : Except (Fault EfiError) Unit → IplState ω → Prop where
  | refused {e : Fault EfiError} {t : IplState ω}
      (hopen : onWindow (SmramTable.openAll parts.access) s = .error e t) : Loading s (.error e) t
  | halted {why : Halt} {t : IplState ω}
      (hopen : onWindow (SmramTable.openAll parts.access) s = .ok () t)
      (hselect : t.table.selectRange = .error why) : Loading s (.error (.halt why)) t
  | unfit {t : IplState ω} (hopen : onWindow (SmramTable.openAll parts.access) s = .ok () t)
      (hselect : ∀ index range, ¬Picked parts index range s t) :
      Loading s (Step.answer (abandon parts) t) (Step.after (abandon parts) t)
  | uncached {index : Nat} {range : SmramRange} {e : Fault EfiError} {t u : IplState ω}
      (hpicked : Picked parts index range s t) (hcache : cacheRange parts index t = .error e u) :
      Loading s (.error e) u
  | loaded {index : Nat} {range : SmramRange} {t u v : IplState ω}
      (hpicked : Picked parts index range s t) (hcache : cacheRange parts index t = .ok () u)
      (hexecute : executeCore parts index range list volumes core u = .ok () v) : Loading s (.ok ()) v
  | stopped {index : Nat} {range : SmramRange} {why : Halt} {t u v : IplState ω}
      (hpicked : Picked parts index range s t) (hcache : cacheRange parts index t = .ok () u)
      (hexecute : executeCore parts index range list volumes core u = .error (.halt why) v) :
      Loading s (.error (.halt why)) v
  | failed {index : Nat} {range : SmramRange} {e : EfiError} {t u v : IplState ω}
      (hpicked : Picked parts index range s t) (hcache : cacheRange parts index t = .ok () u)
      (hexecute : executeCore parts index range list volumes core u = .error (.error e) v) :
      Loading s (Step.answer (abandon parts) v) (Step.after (abandon parts) v)

theorem loadInto_loading (s : IplState ω) :
    Ends (loadInto parts list volumes core) s (Loading parts list volumes core s) := by
  have habandon {t : IplState ω} (h : Loading parts list volumes core s
      (Step.answer (abandon parts) t) (Step.after (abandon parts) t)) :
      Ends (abandon parts) t (Loading parts list volumes core s) := Ends.iff_answer.mpr h
  cases hopen : onWindow (SmramTable.openAll parts.access) s with
  | error e t => exact Ends.bind_of_error hopen (.refused hopen)
  | ok _ t =>
    refine Ends.bind_of_ok hopen (Ends.get_bind ?_)
    cases hselect : t.table.selectRange with
    | error why => exact Ends.bind_of_error (Step.ofHalting_of_error hselect) (.halted hopen hselect)
    | ok selected =>
      refine Ends.bind_of_ok (Step.ofHalting_eq_ok.mpr ⟨hselect, rfl⟩) ?_
      cases selected with
      | none =>
        refine habandon (.unfit hopen fun index range hpicked => ?_)
        cases hselect.symm.trans hpicked.selected
      | some index =>
        rw [Option.bind_some]
        cases hrange : t.table.ranges[index]? with
        | none =>
          refine habandon (.unfit hopen fun other range hpicked => ?_)
          cases hselect.symm.trans hpicked.selected
          cases hrange.symm.trans hpicked.range_eq
        | some range =>
          have hpicked : Picked parts index range s t := ⟨hopen, hselect, hrange⟩
          dsimp only
          cases hcache : cacheRange parts index t with
          | error e u => exact Ends.bind_of_error hcache (.uncached hpicked hcache)
          | ok _ u =>
            refine Ends.bind_of_ok hcache ?_
            cases hexecute : executeCore parts index range list volumes core u with
            | ok _ v =>
              exact Ends.bind_of_ok (Step.attempt_of_ok hexecute) (.loaded hpicked hcache hexecute)
            | error e v =>
              cases e with
              | halt why =>
                exact Ends.bind_of_error (Step.attempt_of_halt hexecute)
                  (.stopped hpicked hcache hexecute)
              | error e =>
                exact Ends.bind_of_ok (Step.attempt_of_error hexecute)
                  (habandon (.failed hpicked hcache hexecute))

end

end PlatformInit.Ipl
