import PlatformInit.Proofs.Smram.Soundness

/-!
Claims on SMRAM that come and go move bytes between the entries of the table and lose none.

`Outstanding` lays out the table of which some claims have not been given back: it depends on these
claims only, and not on the claims that came and went in between.
-/
set_option autoImplicit false
namespace PlatformInit

/-- A table and the claims on it that have not been given back, newest first. -/
structure Ledger where
  table : SmramTable
  claims : List Carveout

namespace Ledger
open SmramTable

/-- A claim for an image that is not empty; the claim in whole pages fits a word. -/
def Admissible (imageSize alignment : UInt64) : Prop :=
  0 < imageSize.toNat + alignment.toNat ∧
    imageSize.toNat + alignment.toNat ≤ UInt64.size - pageSize.toNat

instance (imageSize alignment : UInt64) : Decidable (Admissible imageSize alignment) :=
  inferInstanceAs (Decidable (_ ∧ _))

theorem Admissible.room {imageSize alignment : UInt64} (h : Admissible imageSize alignment) :
    imageSize.toNat + alignment.toNat + 0xFFF < UInt64.size := by
  have hpage : pageSize.toNat = 0x1000 := rfl
  have hle := h.2
  have hword : UInt64.size = 2 ^ 64 := rfl
  omega

/-- The ledgers that claims on the ranges of a table lead to. A claim is recorded as soon as it is
carved; of the claims on one range the newest is given back first. -/
inductive Reached (initial : SmramTable) : Ledger → Prop
  | start : Reached initial ⟨initial, []⟩
  | claimed {l : Ledger} {index : Nat} {imageSize alignment : UInt64} {c : Carveout}
      {carved t : SmramTable} (before : Reached initial l) (original : index < initial.ranges.length)
      (admissible : Admissible imageSize alignment)
      (carves : carve index imageSize alignment l.table = .ok c carved)
      (commits : commit c carved = .ok () t) : Reached initial ⟨t, c :: l.claims⟩
  | refused {l : Ledger} {index : Nat} {imageSize alignment : UInt64} {e : Fault BootError}
      {t : SmramTable} (before : Reached initial l)
      (refuses : carve index imageSize alignment l.table = .error e t) : Reached initial ⟨t, l.claims⟩
  | restored {t t' : SmramTable} {newer older : List Carveout} {c : Carveout}
      (before : Reached initial ⟨t, newer ++ c :: older⟩) (newest : ∀ d ∈ newer, d.index ≠ c.index)
      (restores : restore c t = .ok () t') : Reached initial ⟨t', newer ++ older⟩

/-- What is left of the first ranges, and what has been entered behind them, once claims have been
taken from a table one after the other. -/
inductive Outstanding (initial : SmramTable) : List Carveout → List SmramRange → List SmramRange → Prop
  | none : Outstanding initial [] initial.ranges []
  | claim {older : List Carveout} {front entered : List SmramRange} {c : Carveout} {r : SmramRange}
      (before : Outstanding initial older front entered) (range_eq : front[c.index]? = some r)
      (tail : c.TailOf r) (pos : 0 < c.size.toNat) :
      Outstanding initial (c :: older) (front.set c.index (c.rest r)) (entered ++ [c.entry r])

namespace Outstanding
variable {initial : SmramTable} {claims : List Carveout} {front entered : List SmramRange}

theorem length_front (h : Outstanding initial claims front entered) :
    front.length = initial.ranges.length := by
  induction h with
  | none => rfl
  | claim _ _ _ _ ih => rw [List.length_set, ih]

theorem withClaim_eq {c : Carveout} {r : SmramRange} (hr : front[c.index]? = some r) :
    SmramTable.withClaim ⟨front ++ entered⟩ c r =
      ⟨front.set c.index (c.rest r) ++ (entered ++ [c.entry r])⟩ := by
  obtain ⟨hlt, -⟩ := List.getElem?_eq_some_iff.mp hr
  rw [withClaim, List.set_append_left _ _ hlt, List.append_assoc]

theorem getElem?_table {i : Nat} {r : SmramRange} (hr : front[i]? = some r) :
    (front ++ entered)[i]? = some r := by
  obtain ⟨hlt, -⟩ := List.getElem?_eq_some_iff.mp hr
  rw [List.getElem?_append_left hlt, hr]

theorem sound (hinitial : initial.Sound) (h : Outstanding initial claims front entered) :
    SmramTable.Sound ⟨front ++ entered⟩ := by
  induction h with
  | none => rwa [List.append_nil]
  | claim _ hr htail hpos ih =>
    rw [← withClaim_eq hr]
    exact ih.withClaim (getElem?_table hr) htail hpos

theorem covers_iff (h : Outstanding initial claims front entered) (address : Nat) :
    SmramTable.Covers ⟨front ++ entered⟩ address ↔ initial.Covers address := by
  induction h with
  | none => rw [List.append_nil]
  | claim _ hr htail _ ih => rw [← withClaim_eq hr, covers_withClaim (getElem?_table hr) htail, ih]

structure Recorded (c : Carveout) (parent entry : SmramRange) : Prop where
  records : records c entry = true
  offset : entry.physicalStart.toNat + parent.cpuStart.toNat =
    parent.physicalStart.toNat + entry.cpuStart.toNat
  below : parent.cpuStart.toNat + parent.size.toNat ≤ entry.cpuStart.toNat

theorem recorded (hinitial : initial.Sound) (h : Outstanding initial claims front entered)
    {c : Carveout} (hc : c ∈ claims) : ∃ parent entry, front[c.index]? = some parent ∧
      entry ∈ entered ∧ Recorded c parent entry := by
  induction h with
  | none => cases hc
  | @claim older front entered d r before hr htail hpos ih =>
    have hproper := (before.sound hinitial).proper r
      (List.mem_append_left _ (List.mem_of_getElem? hr))
    obtain ⟨hlt, -⟩ := List.getElem?_eq_some_iff.mp hr
    obtain rfl | hc := List.mem_cons.mp hc
    · refine ⟨_, _, List.getElem?_set_self hlt, List.mem_append_right _ (List.mem_singleton_self _),
        c.records_entry r, htail.offset_entry hproper, Nat.le_of_eq htail.rest_stop⟩
    obtain ⟨parent, entry, hparent, hentry, hrecorded⟩ := ih hc
    by_cases hsame : d.index = c.index
    · -- The newer claim shortens the range that the older one was taken from.
      have heq : parent = r := by rwa [← hsame, hr, Option.some.injEq, eq_comm] at hparent
      subst heq
      have hsize := htail.rest_size
      refine ⟨d.rest parent, entry, by rw [← hsame, List.getElem?_set_self hlt],
        List.mem_append_left _ hentry,
        hrecorded.records, hrecorded.offset, ?_⟩
      have hbelow := hrecorded.below
      change parent.cpuStart.toNat + _ ≤ _
      omega
    · exact ⟨parent, entry, by rw [List.getElem?_set_ne hsame, hparent],
        List.mem_append_left _ hentry, hrecorded⟩

theorem not_records_of_apart {c : Carveout} {parent entry x : SmramRange}
    (hrecorded : Recorded c parent entry) (hentry : entry.Proper) (hx : x.Proper)
    (hapart : x.Apart entry) : SmramTable.records c x = false := by
  have hstart : entry.cpuStart = c.destination := (of_decide_eq_true hrecorded.records).1
  exact Carveout.not_records (hstart ▸ hapart.cpuStart_ne hx.size_pos hentry.size_pos)

theorem not_records_front (hinitial : initial.Sound) (h : Outstanding initial claims front entered)
    {c : Carveout} (hc : c ∈ claims) {x : SmramRange} (hx : x ∈ front) :
    SmramTable.records c x = false := by
  obtain ⟨parent, entry, -, hentry, hrecorded⟩ := h.recorded hinitial hc
  obtain ⟨hapart, hproper⟩ := h.sound hinitial
  exact not_records_of_apart hrecorded (hproper entry (List.mem_append_right _ hentry))
    (hproper x (List.mem_append_left _ hx)) ((List.pairwise_append.mp hapart).2.2 x hx entry hentry)

theorem apart_newest {newest : SmramRange} (h : SmramTable.Sound ⟨front ++ (entered ++ [newest])⟩)
    {x : SmramRange} (hx : x ∈ entered) : x.Apart newest := by
  have hpairs := List.pairwise_append.mp (List.pairwise_append.mp h.apart).2.1
  exact hpairs.2.2 x hx newest (List.mem_singleton_self _)

theorem filter_newest {c : Carveout} {r : SmramRange}
    (h : SmramTable.Sound ⟨front ++ (entered ++ [c.entry r])⟩) :
    ((entered ++ [c.entry r]).filter fun x => !records c x) = entered := by
  have hproper : ∀ x ∈ entered ++ [c.entry r], x.Proper := fun x hx => h.proper x (List.mem_append_right _ hx)
  have hentry := hproper _ (List.mem_append_right _ (List.mem_singleton_self _))
  have hothers : (entered.filter fun x => !records c x) = entered := by
    refine List.filter_eq_self.mpr fun x hx => ?_
    have happ := apart_newest h hx
    have hx := hproper x (List.mem_append_left _ hx)
    rw [Carveout.not_records (happ.cpuStart_ne hx.size_pos hentry.size_pos)]
    rfl
  have hdropped : ([c.entry r].filter fun x => !records c x) = [] := by
    rw [List.filter_cons, Carveout.records_entry]
    rfl
  rw [List.filter_append, hothers, hdropped, List.append_nil]

theorem filter_older {newest entry parent : SmramRange} {c : Carveout}
    (h : SmramTable.Sound ⟨front ++ (entered ++ [newest])⟩) (hentry : entry ∈ entered)
    (hrecorded : Recorded c parent entry) : ((entered ++ [newest]).filter fun x => !records c x) =
      (entered.filter fun x => !records c x) ++ [newest] := by
  have hproper : ∀ x ∈ entered ++ [newest], x.Proper := fun x hx => h.proper x (List.mem_append_right _ hx)
  have hother : SmramTable.records c newest = false :=
    not_records_of_apart hrecorded (hproper entry (List.mem_append_left _ hentry))
      (hproper newest (List.mem_append_right _ (List.mem_singleton_self _))) (apart_newest h hentry).symm
  have hkept : ([newest].filter fun x => !records c x) = [newest] := by
    rw [List.filter_cons, hother]
    rfl
  rw [List.filter_append, hkept]

theorem giveBack (hinitial : initial.Sound) {newer older : List Carveout} {c : Carveout}
    (hnewest : ∀ d ∈ newer, d.index ≠ c.index)
    (h : Outstanding initial (newer ++ c :: older) front entered) :
    ∃ parent, front[c.index]? = some parent ∧ parent.size.toNat + c.size.toNat < UInt64.size ∧
      Outstanding initial (newer ++ older)
        (front.set c.index { parent with size := parent.size + c.size })
        (entered.filter fun x => !records c x) := by
  -- The newer claims are on other ranges, and taking them back and forth past the claim changes nothing.
  induction newer generalizing front entered with
  | nil =>
    have hsound := h.sound hinitial
    cases h with
    | @claim _ front entered _ r before hr htail hpos =>
      obtain ⟨hlt, hget⟩ := List.getElem?_eq_some_iff.mp hr
      have hsize := htail.rest_size
      have hword := r.size.toNat_lt_size
      refine ⟨c.rest r, List.getElem?_set_self hlt, by omega, ?_⟩
      rw [Carveout.restored, List.set_set, filter_newest hsound, ← hget, List.set_getElem_self]
      exact before
  | cons d newer ih =>
    have hsound := h.sound hinitial
    cases h with
    | @claim _ front entered _ r before hr htail hpos =>
      obtain ⟨hd, hnewest⟩ := List.forall_mem_cons.mp hnewest
      obtain ⟨parent, hparent, hfits, hback⟩ := ih hnewest before
      obtain ⟨_, entry, -, hentry, hrecorded⟩ :=
        before.recorded hinitial (List.mem_append_right newer List.mem_cons_self)
      refine ⟨parent, by rw [List.getElem?_set_ne hd, hparent], hfits, ?_⟩
      have hleft : (front.set c.index { parent with size := parent.size + c.size })[d.index]? = some r := by
        rw [List.getElem?_set_ne (Ne.symm hd), hr]
      have hclaimed := hback.claim hleft htail hpos
      rw [List.set_comm _ _ (Ne.symm hd)] at hclaimed
      rw [filter_older hsound hentry hrecorded]
      exact hclaimed

end Outstanding

/-- The table of a ledger depends on the claims that have not been given back only. -/
theorem Reached.outstanding {initial : SmramTable} (hinitial : initial.Sound) {l : Ledger}
    (h : Reached initial l) : ∃ front entered, l.table = ⟨front ++ entered⟩ ∧
      Outstanding initial l.claims front entered := by
  induction h with
  | start => exact ⟨_, [], by rw [List.append_nil], .none⟩
  | @claimed l index _ _ c _ _ _ hindex hadmissible hcarve hcommit ih =>
    obtain ⟨front, entered, htable, hout⟩ := ih
    rw [htable] at hcarve
    obtain ⟨r, hr, rfl, htail, hsize, rfl⟩ := carve_commit hadmissible.room hcarve hcommit
    have hpos := hadmissible.1
    have hfront : front[c.index]? = some r := by
      rwa [List.getElem?_append_left (hout.length_front ▸ hindex)] at hr
    exact ⟨_, _, Outstanding.withClaim_eq hfront, hout.claim hfront htail (by omega)⟩
  | refused _ hrefuse ih =>
    obtain ⟨front, entered, htable, hout⟩ := ih
    rw [htable] at hrefuse
    obtain ⟨-, rfl⟩ := carve_refused (hout.sound hinitial).proper hrefuse
    exact ⟨front, entered, rfl, hout⟩
  | restored _ hnewest hrestore ih =>
    obtain ⟨front, entered, htable, hout⟩ := ih
    obtain ⟨parent, hparent, hfits, hback⟩ := hout.giveBack hinitial hnewest
    have hfront := fun x hx => hout.not_records_front hinitial
      (List.mem_append_right _ List.mem_cons_self) (x := x) hx
    change _ = SmramTable.mk _ at htable
    subst htable
    rw [restore_eq_ok hparent hfits hfront] at hrestore
    cases hrestore
    exact ⟨_, _, rfl, hback⟩

/-- What a ledger keeps of the table that it began with. -/
structure Conserved (initial : SmramTable) (l : Ledger) : Prop where
  apart : l.table.ranges.Pairwise SmramRange.Apart
  covers_iff : ∀ address, l.table.Covers address ↔ initial.Covers address
  /-- A claim has one entry, which is allocated, keeps the distance between the two views of its
  range, and shares no byte with what is left of it. -/
  recorded : ∀ c ∈ l.claims, ∃ parent entry, l.table.ranges[c.index]? = some parent ∧
    l.table.ranges.filter (records c) = [entry] ∧
    entry.physicalStart.toNat + parent.cpuStart.toNat =
      parent.physicalStart.toNat + entry.cpuStart.toNat ∧
    ∀ address, entry.Holds address → ¬parent.Holds address
  settled : l.claims = [] → l.table = initial

/-- What the next operation on a ledger does: a refused claim changes nothing, and no operation
stops the machine. -/
structure Proceeds (initial : SmramTable) (l : Ledger) : Prop where
  refused : ∀ index imageSize alignment e t, carve index imageSize alignment l.table = .error e t →
    (∃ cause, e = .error cause) ∧ t = l.table
  committed : ∀ index imageSize alignment c carved, index < initial.ranges.length →
    Admissible imageSize alignment → carve index imageSize alignment l.table = .ok c carved →
    ∃ t, commit c carved = .ok () t
  restored : ∀ newer c older, l.claims = newer ++ c :: older → (∀ d ∈ newer, d.index ≠ c.index) →
    ∃ t, restore c l.table = .ok () t

theorem filter_records_eq {t : SmramTable} (hsound : t.Sound) {c : Carveout} {entry : SmramRange}
    (hentry : entry ∈ t.ranges) (hrecords : records c entry = true) :
    t.ranges.filter (records c) = [entry] := by
  have hapart := hsound.apart.filter (records c)
  have hmem : entry ∈ t.ranges.filter (records c) := List.mem_filter.mpr ⟨hentry, hrecords⟩
  have hall : ∀ x ∈ t.ranges.filter (records c), x.cpuStart = c.destination ∧ x.Proper := by
    intro x hx
    obtain ⟨hx, hrecord⟩ := List.mem_filter.mp hx
    exact ⟨(of_decide_eq_true hrecord).1, hsound.proper x hx⟩
  match heq : t.ranges.filter (records c) with
  | [] => rw [heq] at hmem; cases hmem
  | [x] => rw [heq] at hmem; rw [List.mem_singleton.mp hmem]
  | x :: y :: rest =>
    rw [heq] at hapart hall
    obtain ⟨hx, hxproper⟩ := hall x List.mem_cons_self
    obtain ⟨hy, hyproper⟩ := hall y (List.mem_cons_of_mem _ List.mem_cons_self)
    have happ := (List.pairwise_cons.mp hapart).1 y List.mem_cons_self
    exact absurd (hx.trans hy.symm) (happ.cpuStart_ne hxproper.size_pos hyproper.size_pos)

/-- However claims on a sound table come and go, its ranges stay apart and cover the same bytes. Each
claim that has not been given back has its one entry, and once all are given back the table is the
first one again. -/
theorem smram_conserved {initial : SmramTable} (hinitial : initial.Sound) {l : Ledger}
    (h : Reached initial l) : Conserved initial l ∧ Proceeds initial l := by
  obtain ⟨front, entered, htable, hout⟩ := h.outstanding hinitial
  have hsound := htable ▸ hout.sound hinitial
  refine ⟨⟨hsound.apart, ?covers, ?recorded, ?settled⟩, ⟨?refused, ?committed, ?restored⟩⟩
  case covers =>
    rw [htable]
    exact hout.covers_iff
  case recorded =>
    intro c hc
    obtain ⟨parent, entry, hparent, hentry, hrecorded⟩ := hout.recorded hinitial hc
    have hmem : entry ∈ l.table.ranges := htable ▸ List.mem_append_right _ hentry
    refine ⟨parent, entry, htable ▸ Outstanding.getElem?_table hparent,
      filter_records_eq hsound hmem hrecorded.records, hrecorded.offset, ?_⟩
    intro address hin hparent
    exact absurd (Nat.lt_of_lt_of_le hparent.2 hrecorded.below) (Nat.not_lt.mpr hin.1)
  case settled =>
    intro hclaims
    rw [hclaims] at hout
    cases hout
    rw [htable, List.append_nil]
  case refused => exact fun _ _ _ _ _ hcarve => carve_refused hsound.proper hcarve
  case committed =>
    exact fun _ _ _ _ _ _ hadmissible hcarve => commit_of_carve hsound hadmissible.room hcarve
  case restored =>
    intro newer c older hclaims hnewest
    rw [hclaims] at hout
    obtain ⟨parent, hparent, hfits, -⟩ := hout.giveBack hinitial hnewest
    rw [htable]
    exact ⟨_, restore_eq_ok hparent hfits fun x hx => hout.not_records_front hinitial
      (List.mem_append_right _ List.mem_cons_self) hx⟩

def twoWindows : SmramTable :=
  ⟨[⟨0x7F000000, 0x7F000000, 0x100000, RegionState.closed⟩,
    ⟨0x17E000000, 0x7E000000, 0x80000, RegionState.closed⟩]⟩

theorem smram_conserved_interleaved : twoWindows.Sound ∧ ∃ l : Ledger, Reached twoWindows l ∧
    l.claims = [⟨0, 0x2000, 0x7F0F5000⟩, ⟨0, 0x9000, 0x7F0F7000⟩] ∧ Conserved twoWindows l := by
  have hsound : twoWindows.Sound :=
    ⟨List.pairwise_pair.mpr (Or.inr (by decide)), by
      intro r hr
      obtain rfl | hr := List.mem_cons.mp hr
      · exact ⟨by decide, by decide, by decide⟩
      · rw [List.mem_singleton.mp hr]
        exact ⟨by decide, by decide, by decide⟩⟩
  have hfirst : Reached twoWindows ⟨_, [⟨0, 0x9000, 0x7F0F7000⟩]⟩ :=
    .claimed .start (show 0 < 2 by decide) (show Admissible 0x8000 0x1000 by decide) rfl rfl
  have hsecond : Reached twoWindows ⟨_, [⟨1, 0x4000, 0x7E07C000⟩, ⟨0, 0x9000, 0x7F0F7000⟩]⟩ :=
    .claimed hfirst (show 1 < 2 by decide) (show Admissible 0x2345 0x1000 by decide) rfl rfl
  have hthird : Reached twoWindows ⟨_, [⟨0, 0x2000, 0x7F0F5000⟩] ++ ⟨1, 0x4000, 0x7E07C000⟩ ::
      [⟨0, 0x9000, 0x7F0F7000⟩]⟩ :=
    .claimed hsecond (show 0 < 2 by decide) (show Admissible 0x1000 0x1000 by decide) rfl rfl
  have hback := Reached.restored hthird (by decide) rfl
  exact ⟨hsound, _, hback, rfl, (smram_conserved hsound hback).1⟩

end Ledger
end PlatformInit
