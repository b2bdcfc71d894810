import PlatformInit.Proofs.Mm.Cleanup
import PlatformInit.Proofs.Mm.CoreImage
import PlatformInit.Proofs.Smram.Claiming

/-!
Tables of ranges with which a load reports how it went, and tables with which it stops the machine.

A range that wraps stops the machine when the choice of a range looks at its end, which is after the
window was opened. Where no range wraps, nothing that the loader adds up overflows: the region to cache
ends where some range ends, a claim is part of its range, and the place for the image lies low.
-/
set_option autoImplicit false
namespace PlatformInit

open Step (Ends Returns)

/-- The range ends before the end of the address space, in memory too if it may hold the core, and is
not so large that a claim could not be added to it. -/
structure SmramRange.Contained (r : SmramRange) : Prop where
  cpu : ¬r.Wraps
  physical : r.Eligible → r.physicalStart.toNat + r.size.toNat < UInt64.size
  room : r.size.toNat + size4G.toNat ≤ UInt64.size

theorem SmramRange.Contained.rest_fits {range : SmramRange} (hcontained : range.Contained)
    (hrange : range.Eligible) {c : Carveout} (htail : c.TailOf range) :
    (c.rest range).physicalStart.toNat + (c.rest range).size.toNat < UInt64.size := by
  have hrest := htail.rest_size
  have hwhole := hcontained.physical hrange
  change range.physicalStart.toNat + _ < _
  omega

namespace SmramTable

theorem carve_returns {t : SmramTable} {index : Nat} {r : SmramRange} (hr : t.ranges[index]? = some r)
    (hwraps : ¬r.Wraps) (imageSize alignment : UInt64) :
    Ends (carve index imageSize alignment) t fun e _ => Returns e := by
  have houtcome := carve_outcome hr hwraps imageSize alignment
  split at houtcome
  · obtain ⟨c, t', hcarve, -⟩ := houtcome
    exact Ends.of_eq_ok hcarve trivial
  · exact Ends.of_eq_error houtcome trivial

theorem commit_returns {c : Carveout} {t : SmramTable} {r : SmramRange}
    (hr : t.ranges[c.index]? = some r)
    (hfits : r.physicalStart.toNat + r.size.toNat < UInt64.size) :
    Ends (commit c) t fun e _ => Returns e := by
  refine Ends.get_bind ?_
  rw [hr]
  dsimp only
  rw [add64, if_pos hfits]
  trivial

theorem restore_returns {c : Carveout} {t : SmramTable}
    (h : ∀ r ∈ t.ranges, r.size.toNat + c.size.toNat < UInt64.size) :
    Ends (restore c) t fun e _ => Returns e := by
  refine Ends.get_bind (Ends.bind_of_ok rfl ?_)
  cases hr : (t.ranges.filter fun r => !records c r)[c.index]? with
  | none => trivial
  | some r =>
    have hmem : r ∈ t.ranges := (List.mem_filter.mp (List.mem_of_getElem? hr)).1
    dsimp only
    rw [add64, if_pos (h r hmem)]
    trivial

end SmramTable

namespace Ipl
variable {ω : Type}

theorem fixedPlace_eq_ok (c : IplConfig) (p : PeImage) {range : SmramRange} (hrange : range.Eligible) :
    ∃ start, fixedPlace c p range = .ok start := by
  rw [fixedPlace]
  split
  · exact ⟨none, rfl⟩
  · dsimp only
    split
    · exact ⟨none, rfl⟩
    · obtain ⟨-, hbelow, -⟩ := hrange
      have hcode := codeSize_lt c
      have hfits : range.cpuStart.toNat + (pagesToSize c.fixedPages.toUInt64).toNat < UInt64.size := by
        rw [toNat_codeSize]
        change _ ≤ 2 ^ 32 at hbelow
        change _ < 2 ^ 64
        omega
      obtain ⟨stop, hstop, -⟩ := SmramTable.add64_of_lt hfits
      rw [hstop]
      exact ⟨_, rfl⟩

structure Placed (range : SmramRange) (t : SmramTable) (place : UInt64 × Option Carveout)
    (final : SmramTable) : Prop where
  low : place.1.toNat < 0x200000000000
  claim : ∀ c, place.2 = some c → c.TailOf range ∧ final = t.withClaim c range

theorem Placed.of_claim {range : SmramRange} (hrange : range.Eligible) {c : Carveout}
    (htail : c.TailOf range) (t : SmramTable) : Placed range t (c.destination, some c) (t.withClaim c range) := by
  refine ⟨?_, ?_⟩
  · obtain ⟨-, hbelow, -⟩ := hrange
    have hstop := htail.stop
    change _ ≤ 2 ^ 32 at hbelow
    dsimp only
    omega
  · rintro _ ⟨⟩
    exact ⟨htail, rfl⟩

theorem claim_returns (p : PeImage) {index : Nat} {range : SmramRange} {t : SmramTable}
    (hr : t.ranges[index]? = some range) (hrange : range.Eligible) (hcontained : range.Contained) :
    Ends (do
      let carved ← SmramTable.carve index p.sizeOfImage.toUInt64 p.sectionAlignment.toUInt64
      SmramTable.commit carved
      return (carved.destination, some carved) :
        Step SmramTable BootError (UInt64 × Option Carveout)) t fun r final =>
      Returns r ∧ ∀ place, r = .ok place → Placed range t place final := by
  have hsize := p.sizeOfImage.toNat_lt_size
  have halign := p.sectionAlignment.toNat_lt_size
  have hroom : p.sizeOfImage.toUInt64.toNat + p.sectionAlignment.toUInt64.toNat + 0xFFF <
      UInt64.size := by
    rw [UInt32.toNat_toUInt64, UInt32.toNat_toUInt64]
    change _ < 2 ^ 64
    change _ < 2 ^ 32 at hsize halign
    omega
  cases hcarve : SmramTable.carve index p.sizeOfImage.toUInt64 p.sectionAlignment.toUInt64 t with
  | error e u =>
    have hreturns := (SmramTable.carve_returns hr hcontained.cpu _ _).of_error hcarve
    refine Ends.bind_of_error hcarve ⟨hreturns.of_error, ?_⟩
    rintro _ ⟨⟩
  | ok claim u =>
    refine Ends.bind_of_ok hcarve ?_
    obtain ⟨r, hget, rfl, htail, -, rfl⟩ := SmramTable.carve_eq_ok hroom hcarve
    obtain rfl : range = r := Option.some.inj (hr.symm.trans hget)
    have hlt := (List.getElem?_eq_some_iff.mp hr).1
    have hleft : (t.ranges.set claim.index (claim.rest range))[claim.index]? =
        some (claim.rest range) := List.getElem?_set_self hlt
    have hphysical := hcontained.rest_fits hrange htail
    cases hcommit : SmramTable.commit claim ⟨t.ranges.set claim.index (claim.rest range)⟩ with
    | error e u =>
      have hreturns := (SmramTable.commit_returns hleft hphysical).of_error hcommit
      refine Ends.bind_of_error hcommit ⟨hreturns.of_error, ?_⟩
      rintro _ ⟨⟩
    | ok _ final =>
      obtain ⟨r, hget, -, -, -, rfl⟩ := SmramTable.carve_commit hroom hcarve hcommit
      obtain rfl : range = r := Option.some.inj (hr.symm.trans hget)
      refine Ends.bind_of_ok hcommit ⟨trivial, ?_⟩
      rintro _ ⟨⟩
      exact .of_claim hrange htail t

theorem choosePlace_returns (c : IplConfig) (p : PeImage) {index : Nat} {range : SmramRange}
    {t : SmramTable} (hr : t.ranges[index]? = some range) (hrange : range.Eligible)
    (hcontained : range.Contained) :
    Ends (choosePlace c p index range) t fun r final =>
      Returns r ∧ ∀ place, r = .ok place → Placed range t place final := by
  obtain ⟨start, hstart⟩ := fixedPlace_eq_ok c p hrange
  cases start with
  | some address =>
    refine Ends.of_eq_ok (choosePlace_fixed hstart index t) ⟨trivial, ?_⟩
    rintro _ ⟨⟩
    obtain ⟨-, hbelow, -⟩ := hrange
    obtain ⟨-, hinside⟩ := fixedPlace_inside hstart
    have hcode := codeSize_lt c
    change _ ≤ 2 ^ 32 at hbelow
    refine ⟨by dsimp only; omega, ?_⟩
    rintro _ ⟨⟩
  | none =>
    unfold choosePlace
    rw [hstart]
    refine Ends.bind_of_ok rfl (Ends.mapError ?_)
    refine (claim_returns p hr hrange hcontained).mono fun r final hplaced => ?_
    refine ⟨hplaced.1.mapError _, fun place hplace => hplaced.2 place ?_⟩
    cases r with
    | ok _ =>
      cases hplace
      rfl
    | error e => cases hplace

theorem placeAndStart_returns (parts : IplParts ω) {p : PeImage} {image : Bytes} {destination : UInt64}
    (hlow : destination.toNat < 0x200000000000)
    (hplace : ∀ base, Returns (place p image base)) (list : HobList) (core : UInt64)
    (m : Machine ω) :
    Ends (placeAndStart parts p image destination list core) m fun r _ => Returns r := by
  unfold placeAndStart
  cases hbase : alignUp destination (max p.sectionAlignment.toUInt64 1) with
  | error e => trivial
  | ok base =>
    refine Ends.ofFallible_bind (fun placed _ => ?_) fun e he => ?_
    · refine Ends.returns_bind (R := fun _ _ => True)
        (Ends.ofAttempt (Ends.intro (fun _ _ _ => ⟨trivial, fun _ _ => trivial⟩)
          fun _ _ _ => ⟨trivial, nofun⟩)) fun _ t _ => ?_
      obtain ⟨-, -, hbelow⟩ := aligned_inside hbase
      have halign := p.sectionAlignment.toNat_lt_size
      have hentry := p.entryPoint.toNat_lt_size
      have hfits : base.toNat + p.entryPoint.toUInt64.toNat < UInt64.size := by
        rw [UInt32.toNat_toUInt64]
        change _ < 2 ^ 64
        change _ < 2 ^ 32 at halign hentry
        omega
      obtain ⟨entryPoint, hadd, -⟩ := SmramTable.add64_of_lt hfits
      rw [hadd]
      refine Ends.bind_of_ok rfl (Ends.bind_of_ok rfl (Ends.bind_of_ok rfl ?_))
      refine Ends.get_bind (Ends.bind_of_ok rfl (Ends.ofFallible ?_))
      cases Status.toExcept _ <;> trivial
    · cases e with
      | error e => trivial
      | halt why =>
        have hreturns := hplace base
        rw [he] at hreturns
        exact hreturns

theorem giveUp_returns {core : UInt64} {carved : Option Carveout} {s : IplState ω}
    (h : ∀ c, carved = some c → ∀ r ∈ s.table.ranges, r.size.toNat + c.size.toNat < UInt64.size) :
    Ends (giveUp core carved) s fun r _ => Returns r := by
  cases carved with
  | none => trivial
  | some c =>
    have hrestore : Ends (onTable (Step.mapError BootError.toEfi (SmramTable.restore c))) s
        fun r _ => Returns r ∧ ∀ a, r = .ok a → True :=
      Ends.focus (Ends.mapError ((SmramTable.restore_returns (h c rfl)).mono fun _ _ hr =>
        ⟨hr.mapError _, fun _ _ => trivial⟩))
    exact hrestore.returns_bind fun _ _ _ => trivial

theorem claim_fits {t : SmramTable} {c : Carveout} {range : SmramRange}
    (h : ∀ r ∈ t.ranges, r.Contained) (htail : c.TailOf range) (hrange : range.Eligible) :
    ∀ r ∈ (t.withClaim c range).ranges, r.size.toNat + c.size.toNat < UInt64.size := by
  intro r hr
  obtain ⟨-, hbelow, -⟩ := hrange
  have hsmall := htail.size_lt
  have hrest := htail.rest_size
  have hword : UInt64.size = size4G.toNat * 2 ^ 32 := rfl
  have hpos : 0 < size4G.toNat := by decide
  rcases List.mem_append.mp hr with hset | hentry
  · rcases List.mem_or_eq_of_mem_set hset with hold | rfl
    · have hroom := (h r hold).room
      omega
    · omega
  · rw [List.mem_singleton.mp hentry]
    change c.size.toNat + c.size.toNat < _
    omega

variable {parts : IplParts ω} {volumes : List MappedVolume}

theorem executeCore_returns (hcore : CoreReadable parts.reader volumes) {index : Nat} {range : SmramRange}
    (list : HobList) (core : UInt64) {s : IplState ω} (hr : s.table.ranges[index]? = some range)
    (hrange : range.Eligible) (hcontained : ∀ r ∈ s.table.ranges, r.Contained) :
    Ends (executeCore parts index range list volumes core) s fun r _ => Returns r := by
  refine (executeCore_executing parts index range list volumes core s).mono fun r t hrun => ?_
  have hchoose (p : PeImage) := choosePlace_returns parts.config p hr hrange
    (hcontained range (List.mem_of_getElem? hr))
  have hplace {volume : UInt64} {image : Bytes} {p : PeImage} {destination : UInt64}
      {carved : Option Carveout} {final : SmramTable}
      (h : Fitted parts.reader parts.config index range volumes s.table volume image p destination
        carved final) :
      Ends (onMachine (placeAndStart parts p image destination list core))
        (readied core volume { s with table := final }) fun r t => Returns r ∧ t.table = final := by
    have hlow := (((hchoose p).of_ok h.chosen).2 _ rfl).low
    have hreadable (base : UInt64) : Returns (place p image base) := place_returns fun loaded =>
      hcore.relocatable volume image p loaded base h.found h.parsed
    exact Ends.focus ((placeAndStart_returns parts hlow hreadable list core _).mono
      fun _ _ hreturns => ⟨hreturns, rfl⟩)
  have hgiveUp {volume : UInt64} {image : Bytes} {p : PeImage} {destination : UInt64}
      {carved : Option Carveout} {final : SmramTable} {e : EfiError} {t : IplState ω}
      (h : Fitted parts.reader parts.config index range volumes s.table volume image p destination
        carved final)
      (hstart : onMachine (placeAndStart parts p image destination list core)
        (readied core volume { s with table := final }) = .error (.error e) t) :
      Ends (giveUp core carved) t fun r _ => Returns r := by
    refine giveUp_returns fun c hc r hmem => ?_
    obtain ⟨htail, hfinal⟩ := (((hchoose p).of_ok h.chosen).2 _ rfl).claim c hc
    rw [((hplace h).of_error hstart).2, hfinal] at hmem
    exact claim_fits hcontained htail hrange r hmem
  cases hrun with
  | missing hfound =>
    have hreturns := MappedVolume.findCore_returns hcore.walkable
    rw [hfound] at hreturns
    exact hreturns.of_error
  | unreadable _ _ => trivial
  | unplaced _ _ hplace => exact ((hchoose _).of_error hplace).1.of_error
  | started _ _ => trivial
  | stopped h hstart => exact ((hplace h).of_error hstart).1
  | failed _ _ _ => trivial
  | lost h hstart hgiven => exact (hgiveUp h hstart).of_error hgiven

/-! The window and the cache. -/

theorem abandon_returns (s : IplState ω) : Ends (abandon parts) s fun r _ => Returns r :=
  Ends.bind_of_ok (closeWindow_eq parts s) trivial

theorem cacheRange_returns
    (hcache : ∀ base length type w, Ends (parts.cache.setAttributes base length type) w
      fun r _ => Returns r) (index : Nat) {s : IplState ω} (hwraps : ∀ r ∈ s.table.ranges, ¬r.Wraps) :
    Ends (cacheRange parts index) s fun r t => Returns r ∧ ∀ a, r = .ok a → t.table = s.table := by
  obtain ⟨region, hregion⟩ := SmramTable.cacheRange_eq_ok hwraps index
  refine Ends.get_bind ?_
  rw [hregion]
  refine Ends.bind_of_ok rfl ?_
  cases region with
  | none => exact ⟨trivial, fun _ _ => rfl⟩
  | some region =>
    have hset : Ends (onMachine (Machine.onWorld
        (parts.cache.setAttributes region.1 region.2 .writeBack))) s fun r t =>
          Returns r ∧ t.table = s.table :=
      Ends.focus (Ends.focus ((hcache _ _ _ s.machine.world).mono fun _ _ hr => ⟨hr, rfl⟩))
    have htable : (Step.after (onMachine (Machine.onWorld
        (parts.cache.setAttributes region.1 region.2 .writeBack))) s).table = s.table :=
      (Ends.iff_answer.mp hset).2
    change Ends (Step.ignoringError _) s _
    rw [Ends, Step.ignoringError_of_returns (hset.mono fun _ _ hr => hr.1)]
    exact ⟨trivial, fun _ _ => htable⟩

theorem considered_opened (r : SmramRange) :
    SmramRange.Considered { r with state := r.state &&& ~~~RegionState.closed ||| RegionState.opened } ↔
      r.Considered := by
  have hstate : (r.state &&& ~~~RegionState.closed ||| RegionState.opened) &&& SmramTable.unusable =
      r.state &&& SmramTable.unusable := by
    have hcleared : ~~~RegionState.closed &&& SmramTable.unusable = SmramTable.unusable := by decide
    have hset : RegionState.opened &&& SmramTable.unusable = 0 := by decide
    have hdistrib (a b c : UInt64) : (a ||| b) &&& c = a &&& c ||| b &&& c := by
      apply UInt64.toNat_inj.mp
      simp only [UInt64.toNat_and, UInt64.toNat_or]
      exact Nat.and_or_distrib_right ..
    rw [hdistrib, UInt64.and_assoc, hcleared, hset, UInt64.or_zero]
  unfold SmramRange.Considered RegionState.intersects
  rw [hstate]

theorem contained_opened {r : SmramRange} (h : r.Contained) : SmramRange.Contained
    { r with state := r.state &&& ~~~RegionState.closed ||| RegionState.opened } where
  cpu := h.cpu
  physical := fun ⟨hconsidered, hbelow⟩ => h.physical ⟨(considered_opened r).mp hconsidered, hbelow⟩
  room := h.room

theorem selectRange_opened_eq_error {t : SmramTable} {why : Halt} :
    t.opened.selectRange = .error why ↔
      why = .overflow ∧ ∃ r ∈ t.ranges, r.Considered ∧ r.Wraps := by
  rw [SmramTable.selectRange_eq_error]
  refine and_congr_right fun _ => ⟨?_, ?_⟩
  · rintro ⟨_, hopened, hconsidered, hwraps⟩
    obtain ⟨r, hr, rfl⟩ := List.mem_map.mp hopened
    exact ⟨r, hr, (considered_opened r).mp hconsidered, hwraps⟩
  · rintro ⟨r, hr, hconsidered, hwraps⟩
    exact ⟨_, List.mem_map_of_mem hr, (considered_opened r).mpr hconsidered, hwraps⟩

theorem loadInto_returns
    (hcache : ∀ base length type w, Ends (parts.cache.setAttributes base length type) w
      fun r _ => Returns r) (hcore : CoreReadable parts.reader volumes) (list : HobList) (core : UInt64)
    {s : IplState ω} (hcontained : ∀ r ∈ s.table.ranges, r.Contained) :
    Ends (loadInto parts list volumes core) s fun r _ => Returns r := by
  refine (loadInto_loading parts list volumes core s).mono fun r t hrun => ?_
  have hopen : Ends (onWindow (SmramTable.openAll parts.access)) s fun r t =>
      Returns r ∧ ∀ a, r = .ok a → t.table = s.table.opened :=
    transition_returns (parts.access.unlessLocked_returns _ _) _ _
  have hopened : ∀ r ∈ s.table.opened.ranges, r.Contained := by
    intro r hr
    obtain ⟨r, hmem, rfl⟩ := List.mem_map.mp hr
    exact contained_opened (hcontained r hmem)
  have hcached {index : Nat} {range : SmramRange} {t : IplState ω} (h : Picked parts index range s t) :
      Ends (cacheRange parts index) t fun r u =>
        Returns r ∧ ∀ a, r = .ok a → u.table = s.table.opened := by
    have htable := (hopen.of_ok h.opened).2 _ rfl
    rw [← htable] at hopened ⊢
    exact cacheRange_returns hcache index fun r hr => (hopened r hr).cpu
  have hexecute {index : Nat} {range : SmramRange} {t u : IplState ω} (h : Picked parts index range s t)
      (hcache : cacheRange parts index t = .ok () u) :
      Ends (executeCore parts index range list volumes core) u fun r _ => Returns r := by
    have htable := (hopen.of_ok h.opened).2 _ rfl
    have hleft := ((hcached h).of_ok hcache).2 _ rfl
    obtain ⟨chosen, hchosen, hrange⟩ := SmramTable.eligible_of_selected h.selected
    obtain rfl : chosen = range := Option.some.inj (hchosen.symm.trans h.range_eq)
    rw [htable] at hchosen
    rw [← hleft] at hopened hchosen
    exact executeCore_returns hcore list core hchosen hrange hopened
  cases hrun with
  | refused hrefused => exact (hopen.of_error hrefused).1
  | halted hok hselect =>
    rw [(hopen.of_ok hok).2 _ rfl] at hselect
    obtain ⟨-, r, hr, -, hwraps⟩ := selectRange_opened_eq_error.mp hselect
    exact absurd hwraps (hcontained r hr).cpu
  | unfit _ _ => exact Ends.iff_answer.mp (abandon_returns _)
  | uncached h hfails => exact ((hcached h).of_error hfails).1
  | loaded _ _ _ => trivial
  | stopped h hcache hstops => exact (hexecute h hcache).of_error hstops
  | failed _ _ _ => exact Ends.iff_answer.mp (abandon_returns _)

theorem loadCore_stops {hobs : HobList} {machine : Machine ω} {table : SmramTable} {w : ω}
    (hreported : SmramTable.ofHobs hobs = .ok table) {r : SmramRange} (hr : r ∈ table.ranges)
    (hconsidered : r.Considered) (hwraps : r.Wraps)
    (hopened : parts.access.openWindow machine.world = .ok () w) :
    (∃ t, loadCore parts volumes (hobs, machine) = .error (.halt .overflow) t ∧ t.2.world = w) ∧
      loadCalls parts volumes hobs machine = [.reveal machine.world] := by
  let left : IplState (Noted ω (IplCall ω)) :=
    ⟨table.opened, { (fresh table machine).machine with world := ⟨w, [.reveal machine.world]⟩ }⟩
  have hopen : onWindow (SmramTable.openAll parts.noting.access) (fresh table machine) = .ok () left :=
    transition_of_ok (SmramAccess.noting_openWindow hopened) _ _
  have hselect : table.opened.selectRange = .error .overflow :=
    selectRange_opened_eq_error.mpr ⟨rfl, r, hr, hconsidered, hwraps⟩
  have hinto : loadInto parts.noting (hobs.publishCore machine.free) volumes machine.free
      (fresh table machine) = .error (.halt .overflow) left := by
    refine (Step.bind_of_ok hopen).trans ((Step.bind_of_ok rfl).trans ?_)
    exact Step.bind_of_error (Step.ofHalting_of_error hselect)
  obtain ⟨hload, hnotes⟩ := loadCore_noted parts volumes machine hreported
  rw [hload, hnotes, Step.after_of_error hinto, hinto]
  exact ⟨⟨_, rfl, rfl⟩, rfl⟩

/-- A range is only chosen if it may hold the core, and the choice stops the machine for the ranges at
whose end it looks and that wrap, and for no others; the window stays open then. A load from a table
without a range that wraps or is too large reports how it went. -/
theorem loadCore_reports (parts : IplParts ω) (volumes : List MappedVolume) (hobs : HobList)
    (machine : Machine ω)
    (hcache : ∀ base length type w, Ends (parts.cache.setAttributes base length type) w
      fun r _ => Returns r) (hcore : CoreReadable parts.reader volumes) :
    (∀ table index, SmramTable.ofHobs hobs = .ok table →
      table.opened.selectRange = .ok (some index) →
      ∃ range, table.opened.ranges[index]? = some range ∧ range.Eligible) ∧
    (∀ table why, SmramTable.ofHobs hobs = .ok table → (table.opened.selectRange = .error why ↔
      why = .overflow ∧ ∃ r ∈ table.ranges, r.Considered ∧ r.Wraps)) ∧
    (∀ table w, SmramTable.ofHobs hobs = .ok table →
      parts.access.openWindow machine.world = .ok () w →
      (∃ r ∈ table.ranges, r.Considered ∧ r.Wraps) →
      (∃ t, loadCore parts volumes (hobs, machine) = .error (.halt .overflow) t ∧ t.2.world = w) ∧
        loadCalls parts volumes hobs machine = [.reveal machine.world]) ∧
    ((∀ table, SmramTable.ofHobs hobs = .ok table → ∀ r ∈ table.ranges, r.Contained) →
      Ends (loadCore parts volumes) (hobs, machine) fun r _ => Returns r) := by
  refine ⟨fun _ _ _ => SmramTable.eligible_of_selected, fun _ _ _ => selectRange_opened_eq_error,
    ?_, fun hcontained => ?_⟩
  · rintro table w hreported hopened ⟨r, hr, hconsidered, hwraps⟩
    exact loadCore_stops hreported hr hconsidered hwraps hopened
  · have hpublished := SmramTable.ofHobs_publishCore hobs machine.free
    cases hreported : SmramTable.ofHobs hobs with
    | error e =>
      exact Ends.of_eq_error (loadCore_of_error (hpublished.trans hreported)) trivial
    | ok table =>
      have hends := loadInto_returns hcache hcore (hobs.publishCore machine.free) machine.free
        (s := ⟨table, machine.newCore.1⟩) (hcontained table hreported)
      rw [Ends, loadCore_of_ok (hpublished.trans hreported)]
      cases hinto : loadInto parts (hobs.publishCore machine.free) volumes machine.free
          ⟨table, machine.newCore.1⟩ with
      | ok _ s => trivial
      | error e s => exact Returns.of_error (hends.of_error hinto)

theorem loadCore_reports_recorded :
    (∃ range, (SmramTable.opened ⟨oneRange⟩).ranges[0]? = some range ∧ range.Eligible) ∧
      Ends (loadCore (fixing 255) [⟨0xFFC00000, recordingVolume 0xFE000⟩])
        (oneRangeHobs, .new 0x1000 ()) fun r _ => Returns r := by
  have hcore : CoreReadable (fixing 255).reader [⟨0xFFC00000, recordingVolume 0xFE000⟩] := by
    have hwalks : (Volume.read (recordingVolume 0xFE000)).toOption.all (·.files.toList.toBool) := by
      decide +kernel
    have hfound : MappedVolume.findCore [⟨0xFFC00000, recordingVolume 0xFE000⟩] =
        .ok (0xFFC00000, recordingImage 0xFE000) := by decide +kernel
    have hparse : (fixing 255).reader.parse (recordingImage 0xFE000) = .ok (recordedHeaders 0xFE000) := by
      decide +kernel
    constructor
    · intro v hv volume hread
      rw [List.mem_singleton.mp hv] at hread
      rw [hread] at hwalks
      change volume.files.toList.toBool = true at hwalks
      cases htoList : volume.files.toList with
      | ok files => exact ⟨files, rfl⟩
      | error why =>
        rw [htoList] at hwalks
        cases hwalks
    · intro volume image p loaded base hcore himage hload directory data blocks hdirectory
      cases hfound.symm.trans hcore
      cases hparse.symm.trans himage
      cases hdirectory
  have hcontained : ∀ r ∈ oneRange, r.Contained := by
    intro r hr
    rw [List.mem_singleton.mp hr]
    constructor <;> decide
  obtain ⟨heligible, -, -, hreturns⟩ := loadCore_reports (fixing 255)
    [⟨0xFFC00000, recordingVolume 0xFE000⟩] oneRangeHobs (.new 0x1000 ()) (fun _ _ _ _ => trivial) hcore
  refine ⟨heligible ⟨oneRange⟩ 0 oneRange_chosen.reported oneRange_chosen.selected,
    hreturns fun table htable => ?_⟩
  cases oneRange_chosen.reported.symm.trans htable
  exact hcontained

/-- A range near the end of the address space that runs past it. -/
def wrapping : List SmramRange := [⟨0x7F000000, 0xFFFFFFFFFFFFF000, 0x40000, RegionState.closed⟩]

/-- A block with such a range is well-formed, and stops the load in the open window. -/
theorem wrapping_range_stops :
    DescriptorBlock.decode (DescriptorBlock.encode wrapping) = .ok wrapping ∧
    (∃ t, loadCore obliging []
        ([.guidExtension Guid.smramMemory (DescriptorBlock.encode wrapping)], .new 0x1000 ()) =
      .error (.halt .overflow) t) ∧
    loadCalls obliging [] [.guidExtension Guid.smramMemory (DescriptorBlock.encode wrapping)]
      (.new 0x1000 ()) = [.reveal ()] := by
  have hreported : SmramTable.ofHobs
      [.guidExtension Guid.smramMemory (DescriptorBlock.encode wrapping)] = .ok ⟨wrapping⟩ := by
    decide +kernel
  have hwraps : ∃ r ∈ wrapping, r.Considered ∧ r.Wraps := by decide
  obtain ⟨r, hr, hconsidered, hwraps⟩ := hwraps
  have hopened : obliging.access.openWindow (Machine.new 0x1000 ()).world = .ok () () := rfl
  obtain ⟨⟨t, hend, -⟩, hcalls⟩ := loadCore_stops hreported hr hconsidered hwraps hopened
  exact ⟨by decide +kernel, ⟨t, hend⟩, hcalls⟩

end Ipl
end PlatformInit
