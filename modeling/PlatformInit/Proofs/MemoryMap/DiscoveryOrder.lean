import PlatformInit.Proofs.MemoryMap.ConfigMove
import PlatformInit.Proofs.Walk

/-!
The order of what the sequence does once memory has been found.

`plan` is all that a run without failures does, computed from the state at its start. A run that fails
does the beginning of it. `Does` says this of a part of the sequence; there is one rule for each way in
which parts are put together.
-/
set_option autoImplicit false
namespace PlatformInit

open Step (Ends)

namespace Discovery
variable {ω ε ε' α β : Type}

open ConfigState (Moved)

/-! ### What is to be done -/

/-- One record for each volume of the image. -/
def volumes (image : FspImage) : List DiscoveryEffect :=
  (Volume.report image.base image.bytes 0).items.map fun v => .publish (.volume v.1 v.2)

theorem filterMap_hob_volumes (image : FspImage) : (volumes image).filterMap DiscoveryEffect.hob? =
    (Volume.report image.base image.bytes 0).items.map fun v => .volume v.1 v.2 := by
  rw [volumes, List.filterMap_map, ← List.filterMap_eq_map]
  rfl

def policy? (hobs : HobList) : Option (List CacheRange) := do
  let (_, high) ← hobs.systemMemory.toOption
  let top ← hobs.topOfLowMemory.toOption
  (CachePolicy.ranges top high).toOption

def finish (image : FspImage) (index : ApiIndex) (policy : Option (List CacheRange)) :
    List DiscoveryEffect :=
  if index = .tempRamExit then
    .resetCache :: match policy with
      | some ranges => ranges.map .setAttributes ++ .tempRamExitDone :: volumes image
      | none => []
  else volumes image

def callingIndex (config : LayoutConfig) (p : Platform ω) (d : Discovery ω) : ApiIndex :=
  (p.callback.callingIndex (p.callback.memoryInitDone (reported config p d) (begun config p d).world)).1

def plan (config : LayoutConfig) (image : FspImage) (p : Platform ω) (d : Discovery ω) :
    List DiscoveryEffect :=
  .publish (.cpu (p.cpu.addressBits config.fallbackAddressBits d.world).1 config.ioSpaceBits) ::
    .moveConfig :: .memoryInitDone (reported config p d) ::
      finish image (callingIndex config p d) (policy? (reported config p d))

/-! ### Beginnings of a plan -/

/-- The effects are the first of a plan, nothing follows one that failed, success is the whole plan, and
there is a failure only if an effect failed or for `cause`. -/
structure Planned (cause : Prop) (plan : List DiscoveryEffect) (events : List DiscoveryEvent)
    (r : Except ε α) : Prop where
  order : events.map DiscoveryEvent.effect <+: plan
  stops : events.Pairwise fun e _ => e.answer = .ok ()
  complete : ∀ a, r = .ok a →
    events.map DiscoveryEvent.effect = plan ∧ ∀ e ∈ events, e.answer = .ok ()
  fails : ∀ e, r = .error e → (∃ event ∈ events, event.answer ≠ .ok ()) ∨ cause

namespace Planned
variable {cause : Prop} {plan plan' : List DiscoveryEffect} {events events' : List DiscoveryEvent}
  {a : α} {r : Except ε β}

theorem done (plan : List DiscoveryEffect) (a : α) :
    Planned cause plan (plan.map DiscoveryEffect.done) (.ok a : Except ε α) := by
  have heffects : (plan.map DiscoveryEffect.done).map DiscoveryEvent.effect = plan := by
    rw [List.map_map]
    exact List.map_id plan
  have hanswers : ∀ e ∈ plan.map DiscoveryEffect.done, e.answer = .ok () := by
    intro e he
    obtain ⟨effect, -, rfl⟩ := List.mem_map.mp he
    rfl
  refine ⟨⟨[], by rw [List.append_nil, heffects]⟩, ?_, fun _ _ => ⟨heffects, hanswers⟩, nofun⟩
  exact List.pairwise_iff_forall_sublist.mpr fun h => hanswers _ (h.subset List.mem_cons_self)

theorem failed (effect : DiscoveryEffect) {answer : Except (Fault EfiError) Unit} (e : ε)
    (h : answer ≠ .ok ()) : Planned cause [effect] [⟨effect, answer⟩] (.error e : Except ε α) where
  order := List.prefix_rfl
  stops := List.pairwise_singleton ..
  complete := nofun
  fails _ _ := .inl ⟨_, List.mem_singleton_self _, h⟩

theorem stopped (h : cause) (e : ε) : Planned cause [] [] (.error e : Except ε α) :=
  ⟨List.prefix_rfl, .nil, nofun, fun _ _ => .inr h⟩

theorem append (h : Planned cause plan events (.ok a : Except ε α))
    (h' : Planned cause plan' events' r) :
    Planned cause (plan ++ plan') (events ++ events') r := by
  obtain ⟨hplan, hanswers⟩ := h.complete a rfl
  refine ⟨?_, ?_, fun b hb => ?_, fun e he => ?_⟩
  · rw [List.map_append, hplan]
    exact (List.prefix_append_right_inj plan).mpr h'.order
  · exact List.pairwise_append.mpr ⟨h.stops, h'.stops, fun e he _ _ => hanswers e he⟩
  · obtain ⟨hplan', hanswers'⟩ := h'.complete b hb
    refine ⟨by rw [List.map_append, hplan, hplan'], fun e he => ?_⟩
    exact (List.mem_append.mp he).elim (hanswers e) (hanswers' e)
  · refine (h'.fails e he).imp_left fun hfailed => ?_
    obtain ⟨event, hmem, hne⟩ := hfailed
    exact ⟨event, List.mem_append_right events hmem, hne⟩

theorem of_error {e : ε} (h : Planned cause plan events (.error e : Except ε α))
    (plan' : List DiscoveryEffect) (e' : ε') :
    Planned cause (plan ++ plan') events (.error e' : Except ε' β) :=
  ⟨h.order.trans (List.prefix_append plan plan'), h.stops, nofun, fun _ _ => h.fails e rfl⟩

end Planned

/-- What the effects leave behind: the records at the end of the list, and the calls. -/
structure Recorded (d d' : Discovery (Noted ω DiscoveryEvent)) (events : List DiscoveryEvent) :
    Prop where
  hobs : d'.hobs = d.hobs ++ events.filterMap (·.effect.hob?)
  calls : d'.world.calls = (events.filter (·.effect.isCall)).reverse ++ d.world.calls

theorem Recorded.refl (d : Discovery (Noted ω DiscoveryEvent)) : Recorded d d [] :=
  ⟨(List.append_nil _).symm, rfl⟩

theorem Recorded.trans {d d' d'' : Discovery (Noted ω DiscoveryEvent)}
    {events events' : List DiscoveryEvent} (h : Recorded d d' events) (h' : Recorded d' d'' events') :
    Recorded d d'' (events ++ events') where
  hobs := by rw [h'.hobs, h.hobs, List.filterMap_append, List.append_assoc]
  calls := by
    rw [h'.calls, h.calls, List.filter_append, List.reverse_append, List.append_assoc]

/-- From `d` on, `x` does what is planned, as far as it comes. -/
def Does (cause : Prop) (plan : List DiscoveryEffect)
    (x : EStateM ε (Discovery (Noted ω DiscoveryEvent)) α) (d : Discovery (Noted ω DiscoveryEvent)) :
    Prop :=
  Ends x d fun r d' => ∃ events, Planned cause plan events r ∧ Recorded d d' events

namespace Does
variable {cause : Prop} {plan : List DiscoveryEffect} {d : Discovery (Noted ω DiscoveryEvent)}

theorem bind (plan plan' : List DiscoveryEffect) {x : EStateM ε (Discovery (Noted ω DiscoveryEvent)) α}
    {f : α → EStateM ε (Discovery (Noted ω DiscoveryEvent)) β} (hx : Does cause plan x d)
    (hf : ∀ a d', x d = .ok a d' → Does cause plan' (f a) d') :
    Does cause (plan ++ plan') (x >>= f) d := by
  cases hend : x d with
  | ok a d' =>
    obtain ⟨events, hplanned, hrecorded⟩ := Ends.of_ok hx hend
    refine Ends.bind_of_ok hend ((hf a d' hend).mono fun r d'' h => ?_)
    obtain ⟨events', hplanned', hrecorded'⟩ := h
    exact ⟨events ++ events', hplanned.append hplanned', hrecorded.trans hrecorded'⟩
  | error e d' =>
    obtain ⟨events, hplanned, hrecorded⟩ := Ends.of_error hx hend
    exact Ends.bind_of_error hend ⟨events, hplanned.of_error plan' e, hrecorded⟩

theorem pure (a : α) :
    Does cause [] (Pure.pure a : EStateM ε (Discovery (Noted ω DiscoveryEvent)) α) d :=
  ⟨[], .done [] a, .refl d⟩

theorem ofFallible {x : Fallible ε α} (h : ∀ e, x = .error e → cause) :
    Does cause [] (Step.ofFallible x) d := by
  refine Ends.ofFallible ⟨[], ?_, .refl d⟩
  cases x with
  | ok a => exact .done [] a
  | error e => exact .stopped (h e rfl) e

theorem orFatal {x : Step (Discovery (Noted ω DiscoveryEvent)) ε α} (reason : ε → String)
    (hx : Does cause plan x d) : Does cause plan (Step.orFatal reason x : Step _ ε' α) d := by
  refine Ends.orFatal hx (fun a d' h => ?_) fun e d' h e' => ?_
  · obtain ⟨events, hplanned, hrecorded⟩ := h
    exact ⟨events, ⟨hplanned.order, hplanned.stops, fun _ _ => hplanned.complete a rfl, nofun⟩,
      hrecorded⟩
  · obtain ⟨events, hplanned, hrecorded⟩ := h
    exact ⟨events, ⟨hplanned.order, hplanned.stops, nofun, fun _ _ => hplanned.fails e rfl⟩, hrecorded⟩

theorem cacheCall {effect : DiscoveryEffect} (hcall : effect.isCall) (hhob : effect.hob? = none)
    (x : Step ω EfiError Unit) : Does cause [effect] (onWorld (Discovery.cacheCall effect x)) d := by
  have hrecorded (w : ω) (answer : Except (Fault EfiError) Unit) :
      Recorded d { d with world := ⟨w, ⟨effect, answer⟩ :: d.world.calls⟩ } [⟨effect, answer⟩] :=
    ⟨by simp [hhob], by simp [hcall]⟩
  refine Ends.focus ?_
  unfold Ends Discovery.cacheCall Noted.call
  cases hend : x d.world.world with
  | ok a w =>
    have hanswer : Step.answer x d.world.world = .ok () := Step.answer_eq_ok.mpr ⟨w, hend⟩
    have hdone : Planned cause [effect] [⟨effect, Step.answer x d.world.world⟩]
        (.ok a : Except (Fault EfiError) Unit) := by
      rw [hanswer]
      exact .done [effect] a
    exact ⟨_, hdone, hrecorded w _⟩
  | error e w =>
    have hanswer : Step.answer x d.world.world = .error e := Step.answer_eq_error.mpr ⟨w, hend⟩
    exact ⟨_, .failed effect e (by rw [hanswer]; nofun), hrecorded w _⟩

theorem callback {effect : DiscoveryEffect} (hcall : effect.isCall) (hhob : effect.hob? = none)
    (f : ω → ω) :
    Does cause [effect] (modify (m := EStateM ε _) fun s : Discovery (Noted ω DiscoveryEvent) =>
      { s with world := ⟨f s.world.world, effect.done :: s.world.calls⟩ }) d :=
  Ends.modify ⟨[effect.done], .done [effect] _, by simp [DiscoveryEffect.done, hhob],
    by simp [DiscoveryEffect.done, hcall]⟩

end Does

/-! ### The parts of the sequence -/

theorem onWorld_bind (x : Step ω ε α) (f : α → Step ω ε β) :
    onWorld (x >>= f) = onWorld x >>= fun a => onWorld (f a) := by
  funext d
  change onWorld (x >>= f) d = EStateM.bind (onWorld x) (fun a => onWorld (f a)) d
  unfold EStateM.bind onWorld Step.focus
  cases hx : x d.world with
  | ok a w => rw [Step.bind_of_ok hx]
  | error e w => rw [Step.bind_of_error hx]

section
variable {cause : Prop} (p : Platform ω) (d : Discovery (Noted ω DiscoveryEvent))

theorem does_setAttributes (ranges : List CacheRange) :
    Does cause (ranges.map .setAttributes)
      (onWorld (ranges.forM fun r => p.noting.cache.setAttributes r.base r.length r.type)) d := by
  induction ranges generalizing d with
  | nil => exact Does.pure _
  | cons r ranges ih =>
    change Does cause ([.setAttributes r] ++ ranges.map .setAttributes) (onWorld
      (cacheCall (.setAttributes r) (p.cache.setAttributes r.base r.length r.type) >>= fun _ => _)) d
    rw [onWorld_bind]
    exact Does.bind _ _ (Does.cacheCall rfl rfl _) fun _ d' _ => ih d'

theorem program_eq (top high : UInt64) : onWorld (CachePolicy.program p.noting.cache top high) = (do
    onWorld (cacheCall .resetCache p.cache.reset)
    let ranges ← Step.ofHalting (CachePolicy.ranges top high)
    onWorld (ranges.forM fun r => p.noting.cache.setAttributes r.base r.length r.type)) := by
  change onWorld (cacheCall .resetCache p.cache.reset >>= fun _ => _) = _
  rw [onWorld_bind]
  congr 1
  funext _
  cases CachePolicy.ranges top high <;> rfl

theorem does_program {top high : UInt64} {ranges : List CacheRange}
    (hranges : CachePolicy.ranges top high = .ok ranges) :
    Does cause (.resetCache :: ranges.map .setAttributes)
      (onWorld (CachePolicy.program p.noting.cache top high)) d := by
  rw [program_eq, hranges]
  exact Does.bind [.resetCache] _ (Does.cacheCall rfl rfl _) fun _ d' _ =>
    does_setAttributes p d' ranges

theorem does_program_halt {top high : UInt64} {why : Halt}
    (hranges : CachePolicy.ranges top high = .error why) (hcause : cause) :
    Does cause [.resetCache] (onWorld (CachePolicy.program p.noting.cache top high)) d := by
  rw [program_eq, hranges]
  exact Does.bind [.resetCache] [] (Does.cacheCall rfl rfl _) fun _ d' _ =>
    Does.bind _ [] (Does.ofFallible fun _ _ => hcause) fun ranges d'' h => by cases h

theorem ranges_of_program {top high : UInt64} {d' : Discovery (Noted ω DiscoveryEvent)}
    (h : onWorld (CachePolicy.program p.noting.cache top high) d = .ok () d') :
    ∃ ranges, CachePolicy.ranges top high = .ok ranges := by
  rw [program_eq] at h
  obtain ⟨-, d₁, -, h⟩ := Step.bind_eq_ok.mp h
  obtain ⟨ranges, d₂, hranges, -⟩ := Step.bind_eq_ok.mp h
  exact ⟨ranges, (Step.ofHalting_eq_ok.mp hranges).1⟩

theorem ranges_of_tearDown {top high : UInt64} {d' : Discovery (Noted ω DiscoveryEvent)}
    (h : tearDown p.noting .tempRamExit top high d = .ok () d') :
    ∃ ranges, CachePolicy.ranges top high = .ok ranges := by
  obtain ⟨_, d₁, hprogram, -⟩ := Step.bind_eq_ok.mp h
  exact ranges_of_program p d (Step.orFatal_eq_ok.mp hprogram)

theorem does_reportVolumes (image : FspImage)
    (hcause : (∀ items, (Volume.report image.base image.bytes 0).toList ≠ .ok items) → cause) :
    Does cause (volumes image) (reportVolumes image) d := by
  have hpublished : ((volumes image).map DiscoveryEffect.done).filterMap (·.effect.hob?) =
      (Volume.report image.base image.bytes 0).items.map fun v => .volume v.1 v.2 := by
    rw [List.filterMap_map, ← filterMap_hob_volumes]
    rfl
  have hcalls : ((volumes image).map DiscoveryEffect.done).filter (·.effect.isCall) = [] := by
    rw [List.filter_eq_nil_iff, volumes, List.map_map]
    intro e he
    obtain ⟨v, -, rfl⟩ := List.mem_map.mp he
    exact Bool.false_ne_true
  have hpublish : Does cause (volumes image) (publish
      ((Volume.report image.base image.bytes 0).items.map fun v => .volume v.1 v.2) :
        Step (Discovery (Noted ω DiscoveryEvent)) Empty Unit) d :=
    Ends.modify ⟨_, .done _ _, by rw [hpublished], by rw [hcalls]; rfl⟩
  rw [← List.append_nil (volumes image)]
  refine Does.bind _ _ hpublish fun _ d' _ => Does.bind _ [] (Does.ofFallible fun e he => ?_) fun _ _ _ =>
    Does.pure _
  refine hcause fun items hitems => ?_
  rw [hitems] at he
  cases he

theorem reportVolumes_eq_ok {image : FspImage} {d : Discovery ω} {d' : Discovery ω} {n : Nat}
    (h : reportVolumes image d = .ok n d') : n = (volumes image).length := by
  obtain ⟨-, d₁, -, h⟩ := Step.bind_eq_ok.mp h
  obtain ⟨items, d₂, hitems, h⟩ := Step.bind_eq_ok.mp h
  have hitems := Walk.items_of_toList (Step.ofHalting_eq_ok.mp hitems).1
  obtain ⟨rfl, -⟩ := Step.pure_eq_ok.mp h
  rw [volumes, List.length_map, hitems]

theorem does_finish (image : FspImage) (index : ApiIndex) (bits : UInt8) (top high : UInt64)
    (hpolicy : index = .tempRamExit → (CachePolicy.ranges top high).toOption = none → cause)
    (hwalk : (∀ items, (Volume.report image.base image.bytes 0).toList ≠ .ok items) → cause) :
    Does cause (finish image index (CachePolicy.ranges top high).toOption) (do
      tearDown p.noting index top high
      let volumes ← reportVolumes image
      return (⟨bits, top, high, index = .tempRamExit, volumes⟩ : DiscoverySummary)) d := by
  have hvolumes (d : Discovery (Noted ω DiscoveryEvent)) : Does cause (volumes image) (do
      let volumes ← reportVolumes image
      return (⟨bits, top, high, index = .tempRamExit, volumes⟩ : DiscoverySummary) :
        Step _ Empty _) d := by
    rw [← List.append_nil (volumes image)]
    exact Does.bind _ _ (does_reportVolumes d image hwalk) fun _ _ _ => Does.pure _
  unfold finish tearDown
  by_cases hindex : index = .tempRamExit
  · rw [if_pos hindex, if_pos hindex, bind_assoc]
    cases hranges : CachePolicy.ranges top high with
    | error why =>
      have hcause : cause := hpolicy hindex (by rw [hranges]; rfl)
      refine Does.bind [.resetCache] [] (Does.orFatal _
        (does_program_halt p d hranges hcause)) fun _ d' h => ?_
      obtain ⟨ranges, hok⟩ := ranges_of_program p d (Step.orFatal_eq_ok.mp h)
      cases hranges.symm.trans hok
    | ok ranges =>
      change Does cause
        (.resetCache :: (ranges.map .setAttributes ++ ([.tempRamExitDone] ++ volumes image))) _ d
      rw [← List.cons_append]
      refine Does.bind _ _ (Does.orFatal _ (does_program p d hranges)) fun _ d' _ => ?_
      exact Does.bind _ _ (Does.callback rfl rfl p.callback.tempRamExitDone) fun _ d'' _ => hvolumes d''
  · rw [if_neg hindex, if_neg hindex]
    exact hvolumes d

theorem does_askIndex : Does cause [] (askIndex p.noting) d :=
  ⟨[], .done [] _, (List.append_nil _).symm, rfl⟩

theorem askIndex_eq_ok {d d' : Discovery (Noted ω DiscoveryEvent)} {index : ApiIndex}
    (h : askIndex p.noting d = .ok index d') :
    (p.callback.callingIndex d.world.world).1 = index := by
  cases h
  rfl

theorem does_complete (image : FspImage) (hobs : HobList) (bits : UInt8) (top high : UInt64)
    {index : ApiIndex}
    (hindex : (p.callback.callingIndex (p.callback.memoryInitDone hobs d.world.world)).1 = index)
    (hpolicy : index = .tempRamExit → (CachePolicy.ranges top high).toOption = none → cause)
    (hwalk : (∀ items, (Volume.report image.base image.bytes 0).toList ≠ .ok items) → cause) :
    Does cause (.memoryInitDone hobs :: finish image index (CachePolicy.ranges top high).toOption)
      (complete image p.noting hobs bits top high) d := by
  refine Does.bind [_] _ (Does.callback rfl rfl (p.callback.memoryInitDone hobs))
    fun _ d₁ h₁ => ?_
  cases h₁
  refine Does.bind [] _ (does_askIndex p _) fun index' d₂ h₂ => ?_
  have heq : index' = index := (askIndex_eq_ok p h₂).symm.trans hindex
  rw [heq]
  exact does_finish p d₂ image index bits top high hpolicy hwalk

theorem complete_eq_ok {image : FspImage} {hobs : HobList} {bits : UInt8} {top high : UInt64}
    {summary : DiscoverySummary} {d d' : Discovery (Noted ω DiscoveryEvent)}
    (h : complete image p.noting hobs bits top high d = .ok summary d') :
    ∃ index, (p.callback.callingIndex (p.callback.memoryInitDone hobs d.world.world)).1 = index ∧
      summary = ⟨bits, top, high, index = .tempRamExit, (volumes image).length⟩ ∧
      (index = .tempRamExit → ∃ ranges, CachePolicy.ranges top high = .ok ranges) := by
  obtain ⟨_, d₁, h₁, h⟩ := Step.bind_eq_ok.mp h
  cases h₁
  obtain ⟨index, d₂, h₂, h⟩ := Step.bind_eq_ok.mp h
  obtain ⟨_, d₃, htearDown, h⟩ := Step.bind_eq_ok.mp h
  obtain ⟨n, d₄, hvolumes, h⟩ := Step.bind_eq_ok.mp h
  obtain ⟨rfl, -⟩ := Step.pure_eq_ok.mp h
  refine ⟨index, askIndex_eq_ok p h₂, by rw [reportVolumes_eq_ok hvolumes], ?_⟩
  rintro rfl
  exact ranges_of_tearDown p d₂ htearDown

end

/-! ### The whole sequence -/

/-- What stops the sequence even if no call fails. -/
inductive Blocked (config : LayoutConfig) (image : FspImage) (p : Platform ω) (d : Discovery ω) :
    Prop where
  | unprepared (h : Unprepared config image p d)
  | noPolicy (hindex : callingIndex config p d = .tempRamExit) (h : policy? (reported config p d) = none)
  | badVolumes (h : ∀ items, (Volume.report image.base image.bytes 0).toList ≠ .ok items)

/-- The calls of the cache and of the boot loader in a run, oldest first. -/
def trace (config : LayoutConfig) (image : FspImage) (p : Platform ω) (d : Discovery ω) :
    List DiscoveryEvent :=
  (Step.after (onMemoryDiscovered config image p.noting) (d.noted [])).world.calls.reverse

/-- The summary equals what was done. -/
structure Reports (config : LayoutConfig) (p : Platform ω) (d : Discovery ω)
    (effects : List DiscoveryEffect) (summary : DiscoverySummary) : Prop where
  records : ∃ found, effects.filterMap DiscoveryEffect.hob? =
    .cpu summary.addressBits config.ioSpaceBits :: found ∧ found.length = summary.volumes
  topOfLowMemory : (reported config p d).topOfLowMemory = .ok summary.topOfLowMemory
  highMemory : ∃ low, (reported config p d).systemMemory = .ok (low, summary.highMemory)
  cacheReset : summary.cacheReprogrammed = true ↔ .resetCache ∈ effects
  tempRamExited : summary.cacheReprogrammed = true ↔ .tempRamExitDone ∈ effects

/-- The effects of a run with answer `r` that leaves `d'`. -/
structure InOrder (config : LayoutConfig) (image : FspImage) (p : Platform ω) (d : Discovery ω)
    (events : List DiscoveryEvent) (r : Except (Fault Empty) DiscoverySummary) (d' : Discovery ω) :
    Prop where
  effects : events.map DiscoveryEvent.effect <+: plan config image p d
  /-- Nothing follows an effect that failed. -/
  stops : events.Pairwise fun e _ => e.answer = .ok ()
  /-- The records from before the run come first, and then those that were published. -/
  hobs : d'.hobs = d.hobs ++ events.filterMap (·.effect.hob?)
  calls : events.filter (·.effect.isCall) = trace config image p d
  blocks : if .moveConfig ∈ events.map DiscoveryEvent.effect
    then Moved image.configSize d.configState d'.configState else d'.configState = d.configState
  cache : ∀ e ∈ events, e.effect.touchesCache → callingIndex config p d = .tempRamExit
  complete : ∀ summary, r = .ok summary →
    events.map DiscoveryEvent.effect = plan config image p d ∧
      (∀ e ∈ events, e.answer = .ok ()) ∧
        Reports config p d (events.map DiscoveryEvent.effect) summary
  fails : ∀ e, r = .error e → (∃ event ∈ events, event.answer ≠ .ok ()) ∨ Blocked config image p d

section
variable {image : FspImage} {index : ApiIndex} {policy : Option (List CacheRange)}
  {effect : DiscoveryEffect}

theorem mem_volumes (h : effect ∈ volumes image) : ∃ hob, effect = .publish hob := by
  obtain ⟨v, -, rfl⟩ := List.mem_map.mp h
  exact ⟨_, rfl⟩

theorem finish_of_ne (h : index ≠ .tempRamExit) : finish image index policy = volumes image :=
  if_neg h

theorem finish_tempRamExit (ranges : List CacheRange) : finish image .tempRamExit (some ranges) =
    .resetCache :: (ranges.map .setAttributes ++ .tempRamExitDone :: volumes image) := rfl

theorem index_of_touchesCache (h : effect ∈ finish image index policy) (hcache : effect.touchesCache) :
    index = .tempRamExit := by
  by_cases hindex : index = .tempRamExit
  · exact hindex
  · rw [finish_of_ne hindex] at h
    obtain ⟨hob, rfl⟩ := mem_volumes h
    cases hcache

theorem callingIndex_of_touchesCache {config : LayoutConfig} {p : Platform ω} {d : Discovery ω}
    (h : effect ∈ plan config image p d) (hcache : effect.touchesCache) :
    callingIndex config p d = .tempRamExit := by
  unfold plan at h
  simp only [List.mem_cons] at h
  rcases h with rfl | rfl | rfl | h
  · cases hcache
  · cases hcache
  · cases hcache
  · exact index_of_touchesCache h hcache

theorem filterMap_hob_finish (h : index = .tempRamExit → ∃ ranges, policy = some ranges) :
    (finish image index policy).filterMap DiscoveryEffect.hob? =
      (Volume.report image.base image.bytes 0).items.map fun v => .volume v.1 v.2 := by
  have hranges (ranges : List CacheRange) :
      (ranges.map DiscoveryEffect.setAttributes).filterMap DiscoveryEffect.hob? = [] := by
    rw [List.filterMap_map, List.filterMap_eq_nil_iff]
    exact fun _ _ => rfl
  by_cases hindex : index = .tempRamExit
  · obtain ⟨ranges, rfl⟩ := h hindex
    rw [hindex, finish_tempRamExit, List.filterMap_cons_none rfl, List.filterMap_append, hranges,
      List.nil_append, List.filterMap_cons_none rfl, filterMap_hob_volumes]
  · rw [finish_of_ne hindex, filterMap_hob_volumes]

theorem mem_finish (image : FspImage) (h : index = .tempRamExit → ∃ ranges, policy = some ranges)
    (heffect : effect = .resetCache ∨ effect = .tempRamExitDone) :
    index = .tempRamExit ↔ effect ∈ finish image index policy := by
  by_cases hindex : index = .tempRamExit
  · obtain ⟨ranges, rfl⟩ := h hindex
    rw [hindex, finish_tempRamExit]
    rcases heffect with rfl | rfl <;> simp
  · rw [finish_of_ne hindex]
    refine ⟨fun heq => (hindex heq).elim, fun hmem => ?_⟩
    obtain ⟨hob, rfl⟩ := mem_volumes hmem
    rcases heffect with heq | heq <;> cases heq

end

section
variable {config : LayoutConfig} {p : Platform ω} {d : Discovery ω} {low high top : UInt64}
  {moved : Discovery (Noted ω DiscoveryEvent)}

theorem policy_eq (hsums : (reported config p d).systemMemory = .ok (low, high))
    (htop : (reported config p d).topOfLowMemory = .ok top) :
    policy? (reported config p d) = (CachePolicy.ranges top high).toOption := by
  rw [policy?, hsums, htop]
  rfl

theorem callingIndex_eq (hworld : moved.world = ((begun config p d).noted []).world) :
    (p.callback.callingIndex (p.callback.memoryInitDone (reported config p d) moved.world.world)).1 =
      callingIndex config p d := by
  rw [hworld]
  rfl

theorem does_rest (image : FspImage) (bits : UInt8)
    (hsums : (reported config p d).systemMemory = .ok (low, high))
    (htop : (reported config p d).topOfLowMemory = .ok top)
    (hworld : moved.world = ((begun config p d).noted []).world) :
    Does (Blocked config image p d) (.memoryInitDone (reported config p d) ::
        finish image (callingIndex config p d) (policy? (reported config p d)))
      (complete image p.noting (reported config p d) bits top high) moved := by
  have hpolicy := policy_eq hsums htop
  rw [hpolicy]
  refine does_complete p moved image (reported config p d) bits top high (callingIndex_eq hworld) ?_ ?_
  · intro hindex hnone
    exact .noPolicy hindex (hpolicy.trans hnone)
  · exact .badVolumes

theorem reports_of_complete {image : FspImage} {summary : DiscoverySummary}
    {d' : Discovery (Noted ω DiscoveryEvent)}
    (hsums : (reported config p d).systemMemory = .ok (low, high))
    (htop : (reported config p d).topOfLowMemory = .ok top)
    (hworld : moved.world = ((begun config p d).noted []).world)
    (hend : complete image p.noting (reported config p d)
      (p.cpu.addressBits config.fallbackAddressBits d.world).1 top high moved = .ok summary d') :
    Reports config p d (plan config image p d) summary := by
  obtain ⟨index, hindex, rfl, hranges⟩ := complete_eq_ok p hend
  rw [callingIndex_eq hworld] at hindex
  subst hindex
  have hpolicy (h : callingIndex config p d = .tempRamExit) :
      ∃ ranges, policy? (reported config p d) = some ranges := by
    obtain ⟨ranges, hok⟩ := hranges h
    exact ⟨ranges, by rw [policy_eq hsums htop, hok]; rfl⟩
  have hrecords : ((finish image (callingIndex config p d) (policy? (reported config p d))).filterMap
      DiscoveryEffect.hob?).length = (volumes image).length := by
    rw [filterMap_hob_finish hpolicy, volumes, List.length_map, List.length_map]
  refine ⟨⟨_, rfl, hrecords⟩, htop, ⟨low, hsums⟩, ?_, ?_⟩
  · simp only [decide_eq_true_eq, mem_finish image hpolicy (.inl rfl)]
    simp [plan]
  · simp only [decide_eq_true_eq, mem_finish image hpolicy (.inr rfl)]
    simp [plan]

end

/-- A plan that was done in full publishes the processor and every volume of the image. -/
theorem Reports.records_eq {config : LayoutConfig} {image : FspImage} {p : Platform ω} {d : Discovery ω}
    {summary : DiscoverySummary} (h : Reports config p d (plan config image p d) summary) :
    (plan config image p d).filterMap DiscoveryEffect.hob? =
      .cpu summary.addressBits config.ioSpaceBits ::
        (Volume.report image.base image.bytes 0).items.map fun v => .volume v.1 v.2 := by
  obtain ⟨found, hrecords, -⟩ := h.records
  have hpolicy (hindex : callingIndex config p d = .tempRamExit) :
      ∃ ranges, policy? (reported config p d) = some ranges := by
    cases hnone : policy? (reported config p d) with
    | some ranges => exact ⟨ranges, rfl⟩
    | none =>
      have hplan : plan config image p d = [.publish (.cpu
          (p.cpu.addressBits config.fallbackAddressBits d.world).1 config.ioSpaceBits), .moveConfig,
          .memoryInitDone (reported config p d), .resetCache] := by
        rw [plan, hindex, hnone]
        rfl
      have hsame := h.cacheReset.symm.trans h.tempRamExited
      rw [hplan] at hsame
      exact absurd (hsame.mp (by simp)) (by simp)
  rw [hrecords]
  have hplan : (plan config image p d).filterMap DiscoveryEffect.hob? = .cpu
      (p.cpu.addressBits config.fallbackAddressBits d.world).1 config.ioSpaceBits ::
        (finish image (callingIndex config p d) (policy? (reported config p d))).filterMap
          DiscoveryEffect.hob? := rfl
  rw [hplan, filterMap_hob_finish hpolicy, List.cons.injEq] at hrecords
  rw [← hrecords.1, ← hrecords.2]

theorem onMemoryDiscovered_planned (config : LayoutConfig) (image : FspImage) (p : Platform ω)
    (d : Discovery ω) : Ends (onMemoryDiscovered config image p.noting) (d.noted []) fun r d' =>
      ∃ events, Planned (Blocked config image p d) (plan config image p d) events r ∧
        Recorded (d.noted []) d' events ∧
        (if .moveConfig ∈ events.map DiscoveryEvent.effect
          then Moved image.configSize d.configState d'.configState else d'.configState = d.configState) ∧
        ∀ summary, r = .ok summary → Reports config p d (plan config image p d) summary := by
  let cpu : Hob := .cpu (p.cpu.addressBits config.fallbackAddressBits d.world).1 config.ioSpaceBits
  refine onMemoryDiscovered_ends (fun why hwhy => ?_)
    fun low high top moved hsums htop hhobs hworld hmoved => ?_
  · have hblocked := Blocked.unprepared (unprepared_of_noting hwhy)
    refine ⟨[(DiscoveryEffect.publish cpu).done], ⟨⟨_, rfl⟩, List.pairwise_singleton .., nofun,
      fun _ _ => .inr hblocked⟩, ?_, ?_, nofun⟩
    · rw [begun_noting]
      exact ⟨rfl, rfl⟩
    · rw [if_neg (by simp [DiscoveryEffect.done])]
      rfl
  · rw [reported_noting] at hsums htop ⊢
    rw [begun_noting] at hhobs hworld
    have hbits : (p.noting.cpu.addressBits config.fallbackAddressBits (d.noted []).world).1 =
        (p.cpu.addressBits config.fallbackAddressBits d.world).1 := by
      rw [addressBits_noting]
      rfl
    rw [hbits]
    have hfront : Planned (Blocked config image p d) [.publish cpu, .moveConfig]
        ([.publish cpu, .moveConfig].map DiscoveryEffect.done)
        (.ok () : Except (Fault Empty) Unit) := .done _ ()
    have hstart : Recorded (d.noted []) moved
        ([.publish cpu, .moveConfig].map DiscoveryEffect.done) := ⟨hhobs, by rw [hworld]; rfl⟩
    have hdoes :=
      does_rest image (p.cpu.addressBits config.fallbackAddressBits d.world).1 hsums htop hworld
    have hkeeps := complete_keeps image p.noting (reported config p d)
      (p.cpu.addressBits config.fallbackAddressBits d.world).1 top high moved.configState moved rfl
    rw [Does, Ends.iff_answer] at hdoes
    rw [Ends.iff_answer] at hkeeps ⊢
    obtain ⟨events, hplanned, hrecorded⟩ := hdoes
    refine ⟨_, hfront.append hplanned, hstart.trans hrecorded, ?_, fun summary hsummary => ?_⟩
    · rw [if_pos (by simp [DiscoveryEffect.done]), hkeeps]
      exact hmoved
    · obtain ⟨d', hend⟩ := Step.answer_eq_ok.mp hsummary
      exact reports_of_complete hsums htop hworld hend

/-- However processor, cache and boot loader behave, and wherever the machine stops: what is done is the
beginning of the plan, in its order, and all of it unless a call failed or the sequence was blocked. -/
theorem onMemoryDiscovered_inOrder (config : LayoutConfig) (image : FspImage) (p : Platform ω)
    (d : Discovery ω) : ∃ events, InOrder config image p d events
      (Step.answer (onMemoryDiscovered config image p) d)
      (Step.after (onMemoryDiscovered config image p) d) := by
  have hfollows := onMemoryDiscovered_follows config image p
  have hanswer := hfollows.answer (d.noted [])
  have hafter := hfollows.after (d.noted [])
  obtain ⟨events, hplanned, hrecorded, hblocks, hreports⟩ :=
    Ends.iff_answer.mp (onMemoryDiscovered_planned config image p d)
  change Step.answer _ d = _ at hanswer
  change Step.after _ d = _ at hafter
  rw [hanswer, hafter]
  refine ⟨events, hplanned.order, hplanned.stops, hrecorded.hobs, ?_, hblocks, ?_, ?_, hplanned.fails⟩
  · rw [trace, hrecorded.calls]
    simp [noted]
  · intro e he hcache
    exact callingIndex_of_touchesCache (hplanned.order.subset (List.mem_map_of_mem he)) hcache
  · intro summary hsummary
    obtain ⟨heffects, hanswers⟩ := hplanned.complete summary hsummary
    refine ⟨heffects, hanswers, ?_⟩
    rw [heffects]
    exact hreports summary hsummary

end Discovery
end PlatformInit
