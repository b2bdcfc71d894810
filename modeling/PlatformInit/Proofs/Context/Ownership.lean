import PlatformInit.Context.Store
import PlatformInit.Proofs.Context.Record
import PlatformInit.Proofs.Step

/-!
The store of the global context owns one record.

`OwnedRecord` is that record without memory: nothing, or a place with what it holds. The store keeps
its address and its phase apart, and the record itself in memory; `Represents` says how the three make
up an owned record, and every operation on the store answers what the operation on the record answers.
-/
set_option autoImplicit false
namespace PlatformInit

inductive StoreOp (α : Type) where
  | install (address : UInt64)
  | relocate (destination : UInt64) (f : GlobalContext → GlobalContext)
  | update (f : GlobalContext → α × GlobalContext)
  | get
  | address
  | isPermanent

inductive StoreAnswer (α : Type) where
  | done
  | found (a : α)
  | record (c : GlobalContext)
  | address (a : UInt64)
  | permanent (b : Bool)
  deriving DecidableEq

namespace StoreOp
variable {σ α : Type}

/-- The answer to an operation and the state after it, which is the old one after a refusal. -/
def outcome (s : σ) : Except ContextError (StoreAnswer α × σ) → Except ContextError (StoreAnswer α) × σ
  | .ok (a, t) => (.ok a, t)
  | .error e => (.error e, s)

def run (attempt : StoreOp α → σ → Except ContextError (StoreAnswer α × σ)) :
    List (StoreOp α) → σ → List (Except ContextError (StoreAnswer α)) × σ
  | [], s => ([], s)
  | op :: ops, s =>
    let (answer, s) := outcome s (attempt op s)
    let (answers, s) := run attempt ops s
    (answer :: answers, s)

theorem run_cons (attempt : StoreOp α → σ → Except ContextError (StoreAnswer α × σ)) (op : StoreOp α)
    (ops : List (StoreOp α)) (s : σ) : run attempt (op :: ops) s =
      ((outcome s (attempt op s)).1 :: (run attempt ops (outcome s (attempt op s)).2).1,
        (run attempt ops (outcome s (attempt op s)).2).2) := rfl

theorem run_append {attempt : StoreOp α → σ → Except ContextError (StoreAnswer α × σ)}
    (before after : List (StoreOp α)) (s : σ) : run attempt (before ++ after) s =
      ((run attempt before s).1 ++ (run attempt after (run attempt before s).2).1,
        (run attempt after (run attempt before s).2).2) := by
  induction before generalizing s with
  | nil => rfl
  | cons op before ih => rw [List.cons_append, run_cons, run_cons, ih, List.cons_append]

end StoreOp

def ContextStore.attempt {α : Type} (op : StoreOp α) (s : ContextStore × Memory) :
    Except ContextError (StoreAnswer α × ContextStore × Memory) :=
  match op with
  | .install address => (s.1.install s.2 address).map fun store => (.done, store, s.2)
  | .relocate destination f => (s.1.relocate s.2 destination f).map fun moved => (.done, moved)
  | .update f => (s.1.updateWith s.2 f).map fun (a, memory) => (.found a, s.1, memory)
  | .get => (s.1.get s.2).map fun c => (.record c, s)
  | .address => .ok (.address s.1.address, s)
  | .isPermanent => .ok (.permanent s.1.isPermanent, s)

/-- The record that the store owns: its place and what it holds. -/
inductive OwnedRecord where
  | empty
  | temporary (place : UInt64) (c : GlobalContext)
  | permanent (place : UInt64) (c : GlobalContext)
  deriving DecidableEq

namespace OwnedRecord
variable {α : Type}

def phase : OwnedRecord → ContextPhase
  | empty => .empty
  | temporary .. => .temporary
  | permanent .. => .permanent

def place : OwnedRecord → UInt64
  | empty => 0
  | temporary place _ | permanent place _ => place

def content : OwnedRecord → Except ContextError GlobalContext
  | empty => .error .notInstalled
  | temporary _ c | permanent _ c => .ok c

def put (c : GlobalContext) : OwnedRecord → OwnedRecord
  | empty => empty
  | temporary place _ => temporary place c
  | permanent place _ => permanent place c

/-- The record at `address` becomes the active one; `given` are the records that there are. -/
def install (given : UInt64 → GlobalContext) (address : UInt64) :
    OwnedRecord → Except ContextError OwnedRecord
  | empty =>
    if (given address).isValid then .ok (temporary address (given address)) else .error .badSignature
  | _ => .error .alreadyInstalled

def relocate (destination : UInt64) (f : GlobalContext → GlobalContext) :
    OwnedRecord → Except ContextError OwnedRecord
  | empty => .error .notInstalled
  | temporary _ c => .ok (permanent destination (f c))
  | permanent .. => .error .alreadyInstalled

def attempt (given : UInt64 → GlobalContext) (op : StoreOp α) (r : OwnedRecord) :
    Except ContextError (StoreAnswer α × OwnedRecord) :=
  match op with
  | .install address => (r.install given address).map fun r => (.done, r)
  | .relocate destination f => (r.relocate destination f).map fun r => (.done, r)
  | .update f => r.content.map fun c => (.found (f c).1, r.put (f c).2)
  | .get => r.content.map fun c => (.record c, r)
  | .address => .ok (.address r.place, r)
  | .isPermanent => .ok (.permanent (r.phase = .permanent), r)

/-- No record is at address zero, and the active one is moved to a place apart from it. -/
def Proper (r : OwnedRecord) : StoreOp α → Prop
  | .install address => address ≠ 0
  | .relocate destination _ => destination ≠ 0 ∧
    (r.phase = .temporary → GlobalContext.Clear r.place destination.toNat GlobalContext.size)
  | _ => True

def ProperRun (given : UInt64 → GlobalContext) : List (StoreOp α) → OwnedRecord → Prop
  | [], _ => True
  | op :: ops, r => r.Proper op ∧ ProperRun given ops (StoreOp.outcome r (attempt given op r)).2

theorem properRun_append {given : UInt64 → GlobalContext} {before after : List (StoreOp α)}
    {r : OwnedRecord} : ProperRun given (before ++ after) r ↔
      ProperRun given before r ∧ ProperRun given after (StoreOp.run (attempt given) before r).2 := by
  induction before generalizing r with
  | nil => exact (iff_of_eq (true_and _)).symm
  | cons op before ih => simp only [List.cons_append, ProperRun, ih, StoreOp.run, and_assoc]

end OwnedRecord

/-- The store and memory hold the owned record; until there is one, memory is as it was given. -/
structure Represents (m₀ : Memory) (r : OwnedRecord) (s : ContextStore × Memory) : Prop where
  store : s.1 = ⟨r.place, r.phase⟩
  address : s.1.address = 0 ↔ r = .empty
  given : r = .empty → s.2 = m₀
  content : s.1.get s.2 = r.content

/-- The record and the store refuse for the same reason, or answer the same and go on together. -/
inductive Agree {α : Type} (m₀ : Memory) : Except ContextError (StoreAnswer α × OwnedRecord) →
    Except ContextError (StoreAnswer α × ContextStore × Memory) → Prop where
  | refused (e : ContextError) : Agree m₀ (.error e) (.error e)
  | answered (a : StoreAnswer α) {r : OwnedRecord} {s : ContextStore × Memory}
      (h : Represents m₀ r s) : Agree m₀ (.ok (a, r)) (.ok (a, s))

namespace ContextStore
variable {α : Type} {m₀ : Memory} {r : OwnedRecord} {s : ContextStore × Memory}

open OwnedRecord (Proper ProperRun)
open StoreOp (outcome run)

theorem represents_start (m₀ : Memory) : Represents m₀ .empty (.empty, m₀) :=
  ⟨rfl, ⟨fun _ => rfl, fun _ => rfl⟩, fun _ => rfl, rfl⟩

theorem get_store (s : ContextStore) (m : Memory) (c : GlobalContext) (h : s.address ≠ 0) :
    s.get (GlobalContext.store m s.address c) = .ok c := by
  rw [get, if_neg h, GlobalContext.load_store]

theorem get_update {s : ContextStore} {m m' : Memory} {f : GlobalContext → GlobalContext}
    (h : s.update m f = .ok m') : ∃ c, s.get m = .ok c ∧ s.get m' = .ok (f c) := by
  unfold update updateWith at h
  cases hget : s.get m with
  | error e =>
    rw [hget] at h
    cases h
  | ok c =>
    rw [hget] at h
    cases h
    refine ⟨c, rfl, get_store s m (f c) fun haddress => ?_⟩
    rw [get, if_pos haddress] at hget
    cases hget

theorem install_agrees (h : Represents m₀ r s) {address : UInt64} (haddress : address ≠ 0) :
    Agree (α := α) m₀ (r.attempt (GlobalContext.load m₀) (.install address))
      (attempt (.install address) s) := by
  obtain ⟨store, m⟩ := s
  have hstore : store = ⟨r.place, r.phase⟩ := h.store
  subst hstore
  cases r with
  | empty =>
    have hmemory : m = m₀ := h.given rfl
    subst hmemory
    change Agree m (Except.map _ (if _ then _ else _)) (Except.map _ (if _ then _ else _))
    by_cases hvalid : (GlobalContext.load m address).isValid
    · rw [if_pos hvalid, if_pos hvalid]
      refine .answered _ ⟨rfl, ⟨fun hzero => (haddress hzero).elim, nofun⟩, nofun, ?_⟩
      exact if_neg haddress
    · rw [if_neg hvalid, if_neg hvalid]
      exact .refused _
  | temporary place c => exact .refused _
  | permanent place c => exact .refused _

theorem relocate_temporary {place : UInt64} {c : GlobalContext}
    (h : Represents m₀ (.temporary place c) s) (destination : UInt64)
    (f : GlobalContext → GlobalContext) : s.1.relocate s.2 destination f =
      .ok (⟨destination, .permanent⟩, GlobalContext.store s.2 destination (f c)) := by
  have hphase : s.1.phase = .temporary := congrArg ContextStore.phase h.store
  have hcontent : s.1.get s.2 = .ok c := h.content
  rw [relocate, hphase]
  dsimp only
  rw [hcontent]

theorem relocate_agrees (h : Represents m₀ r s) {destination : UInt64} (hplace : destination ≠ 0)
    (f : GlobalContext → GlobalContext) :
    Agree (α := α) m₀ (r.attempt (GlobalContext.load m₀) (.relocate destination f))
      (attempt (.relocate destination f) s) := by
  have hphase : s.1.phase = r.phase := congrArg ContextStore.phase h.store
  unfold attempt
  dsimp only
  cases r with
  | empty =>
    rw [relocate, hphase]
    exact .refused _
  | permanent place c =>
    rw [relocate, hphase]
    exact .refused _
  | temporary place c =>
    rw [relocate_temporary h]
    refine .answered _ ⟨rfl, ⟨fun hzero => (hplace hzero).elim, nofun⟩, nofun, ?_⟩
    exact get_store ⟨destination, .permanent⟩ s.2 (f c) hplace

theorem Represents.put (h : Represents m₀ r s) (hr : r ≠ .empty) (c : GlobalContext) :
    Represents m₀ (r.put c) (s.1, GlobalContext.store s.2 s.1.address c) := by
  have haddress : s.1.address ≠ 0 := fun hzero => hr (h.address.mp hzero)
  have hget := get_store s.1 s.2 c haddress
  cases r with
  | empty => exact (hr rfl).elim
  | temporary place c => exact ⟨h.store, ⟨fun hzero => (haddress hzero).elim, nofun⟩, nofun, hget⟩
  | permanent place c => exact ⟨h.store, ⟨fun hzero => (haddress hzero).elim, nofun⟩, nofun, hget⟩

theorem update_agrees (h : Represents m₀ r s) (f : GlobalContext → α × GlobalContext) :
    Agree m₀ (r.attempt (GlobalContext.load m₀) (.update f)) (attempt (.update f) s) := by
  unfold attempt updateWith OwnedRecord.attempt
  dsimp only
  rw [h.content]
  cases hr : r.content with
  | error e => exact .refused _
  | ok c =>
    refine .answered _ (Represents.put h ?_ _)
    rintro rfl
    cases hr

theorem attempt_agrees (h : Represents m₀ r s) (op : StoreOp α) (hop : r.Proper op) :
    Agree m₀ (r.attempt (GlobalContext.load m₀) op) (attempt op s) := by
  cases op with
  | install address => exact install_agrees h hop
  | relocate destination f => exact relocate_agrees h hop.1 f
  | update f => exact update_agrees h f
  | get =>
    unfold attempt OwnedRecord.attempt
    dsimp only
    rw [h.content]
    cases r.content with
    | error e => exact .refused _
    | ok c => exact .answered _ h
  | address =>
    have hplace : r.place = s.1.address := congrArg ContextStore.address h.store.symm
    unfold attempt OwnedRecord.attempt
    dsimp only
    rw [hplace]
    exact .answered _ h
  | isPermanent =>
    have hphase : r.phase = s.1.phase := congrArg ContextStore.phase h.store.symm
    unfold attempt OwnedRecord.attempt
    dsimp only
    rw [hphase]
    exact .answered _ h

theorem Agree.outcome {x : Except ContextError (StoreAnswer α × OwnedRecord)}
    {y : Except ContextError (StoreAnswer α × ContextStore × Memory)} (hxy : Agree m₀ x y)
    (h : Represents m₀ r s) :
    (outcome r x).1 = (outcome s y).1 ∧ Represents m₀ (outcome r x).2 (outcome s y).2 := by
  cases hxy with
  | refused e => exact ⟨rfl, h⟩
  | answered a hnext => exact ⟨rfl, hnext⟩

theorem run_agrees (h : Represents m₀ r s) (ops : List (StoreOp α))
    (hops : ProperRun (GlobalContext.load m₀) ops r) :
    (run attempt ops s).1 = (run (OwnedRecord.attempt (GlobalContext.load m₀)) ops r).1 ∧
      Represents m₀ (run (OwnedRecord.attempt (GlobalContext.load m₀)) ops r).2
        (run attempt ops s).2 := by
  induction ops generalizing r s with
  | nil => exact ⟨rfl, h⟩
  | cons op ops ih =>
    obtain ⟨hanswer, hnext⟩ := Agree.outcome (attempt_agrees h op hops.1) h
    obtain ⟨hanswers, hend⟩ := ih hnext hops.2
    rw [StoreOp.run_cons, StoreOp.run_cons, ← hanswer, hanswers]
    exact ⟨rfl, hend⟩

/-! ### The record that is left behind -/

/-- A permanent store stays where it is, and changes nothing apart from its record. -/
theorem attempt_permanent (op : StoreOp α) {place : UInt64} (hphase : s.1.phase = .permanent)
    (hclear : GlobalContext.Clear place s.1.address.toNat GlobalContext.size) :
    (outcome s (attempt op s)).2.1 = s.1 ∧
      GlobalContext.load (outcome s (attempt op s)).2.2 place = GlobalContext.load s.2 place := by
  cases op with
  | install address =>
    have hrefused : s.1.install s.2 address = .error .alreadyInstalled := by
      rw [install, if_pos]
      rw [hphase]
      nofun
    unfold attempt
    dsimp only
    rw [hrefused]
    exact ⟨rfl, rfl⟩
  | relocate destination f =>
    have hrefused : s.1.relocate s.2 destination f = .error .alreadyInstalled := by
      rw [relocate, hphase]
    unfold attempt
    dsimp only
    rw [hrefused]
    exact ⟨rfl, rfl⟩
  | update f =>
    unfold attempt updateWith
    dsimp only
    cases s.1.get s.2 with
    | error e => exact ⟨rfl, rfl⟩
    | ok c => exact ⟨rfl, GlobalContext.load_store_of_clear s.2 (f c).2 hclear⟩
  | get =>
    unfold attempt
    dsimp only
    cases s.1.get s.2 with
    | error e => exact ⟨rfl, rfl⟩
    | ok c => exact ⟨rfl, rfl⟩
  | address => exact ⟨rfl, rfl⟩
  | isPermanent => exact ⟨rfl, rfl⟩

theorem run_permanent (ops : List (StoreOp α)) {place : UInt64} (hphase : s.1.phase = .permanent)
    (hclear : GlobalContext.Clear place s.1.address.toNat GlobalContext.size) :
    GlobalContext.load (run attempt ops s).2.2 place = GlobalContext.load s.2 place := by
  induction ops generalizing s with
  | nil => rfl
  | cons op ops ih =>
    obtain ⟨hstore, hload⟩ := attempt_permanent op hphase hclear
    rw [← hload]
    exact ih (hstore ▸ hphase) (hstore ▸ hclear)

theorem run_relocate {place : UInt64} {c : GlobalContext}
    (h : Represents m₀ (.temporary place c) s) {destination : UInt64}
    (f : GlobalContext → GlobalContext) (ops : List (StoreOp α))
    (hclear : GlobalContext.Clear place destination.toNat GlobalContext.size) :
    GlobalContext.load (run attempt (.relocate destination f :: ops) s).2.2 place = c := by
  have haddress : s.1.address = place := congrArg ContextStore.address h.store
  have hne : s.1.address ≠ 0 := fun hzero => nomatch h.address.mp hzero
  have hload : GlobalContext.load s.2 place = c := by
    have hcontent : s.1.get s.2 = .ok c := h.content
    rw [get, if_neg hne, haddress] at hcontent
    exact Except.ok.inj hcontent
  have hmoved : (outcome s (attempt (α := α) (.relocate destination f) s)).2 =
      (⟨destination, .permanent⟩, GlobalContext.store s.2 destination (f c)) := by
    unfold attempt
    dsimp only
    rw [relocate_temporary h]
    rfl
  rw [StoreOp.run_cons, hmoved, run_permanent ops rfl hclear,
    GlobalContext.load_store_of_clear s.2 (f c) hclear, hload]

/-- The store refines the record that it owns. On the way from an empty store, all answers are those
of the owned record, refused operations change nothing, the store and memory hold what the record
holds, and a record that was moved away from keeps what it held. -/
theorem run_refines (m₀ : Memory) (ops : List (StoreOp α))
    (hops : ProperRun (GlobalContext.load m₀) ops .empty) :
    (run attempt ops (.empty, m₀)).1 =
        (run (OwnedRecord.attempt (GlobalContext.load m₀)) ops .empty).1 ∧
    Represents m₀ (run (OwnedRecord.attempt (GlobalContext.load m₀)) ops .empty).2
        (run attempt ops (.empty, m₀)).2 ∧
    (∀ (op : StoreOp α) s e, (outcome s (attempt op s)).1 = .error e → (outcome s (attempt op s)).2 = s) ∧
    ∀ before destination f after place c, ops = before ++ .relocate destination f :: after →
      (run (OwnedRecord.attempt (GlobalContext.load m₀)) before .empty).2 = .temporary place c →
        GlobalContext.load (run attempt ops (.empty, m₀)).2.2 place = c := by
  obtain ⟨hanswers, hend⟩ := run_agrees (represents_start m₀) ops hops
  refine ⟨hanswers, hend, fun op s e h => ?_, ?_⟩
  · cases hattempt : attempt op s with
    | error e => rfl
    | ok result =>
      rw [hattempt] at h
      cases h
  · rintro before destination f after place c rfl hplace
    obtain ⟨hbefore, hrest⟩ := OwnedRecord.properRun_append.mp hops
    obtain ⟨-, hrepresents⟩ := run_agrees (represents_start m₀) before hbefore
    rw [hplace] at hrest hrepresents
    rw [StoreOp.run_append]
    exact run_relocate hrepresents f after (hrest.1.2 rfl)

def oneRecord : Memory := GlobalContext.store .blank 0x1000 .blank

def beforeMove : List (StoreOp UInt8) :=
  [.get, .install 0x2000, .install 0x1000, .update fun c => (c.bootMode, { c with bootMode := 0x11 })]

def afterMove : List (StoreOp UInt8) :=
  [.relocate 0x1000 id, .update fun c => (c.bootMode, { c with bootMode := 0 }), .get, .address,
    .isPermanent]

theorem run_refines_moved :
    ProperRun (GlobalContext.load oneRecord)
      (beforeMove ++ .relocate 0x3000 (fun c => { c with hobList := 0x7F000000 }) :: afterMove) .empty ∧
    (run attempt (beforeMove ++ .relocate 0x3000 (fun c => { c with hobList := 0x7F000000 }) ::
        afterMove) (.empty, oneRecord)).1 =
      [.error .notInstalled, .error .badSignature, .ok .done, .ok (.found 0), .ok .done,
        .error .alreadyInstalled, .ok (.found 0x11),
        .ok (.record { GlobalContext.blank with hobList := 0x7F000000 }), .ok (.address 0x3000),
        .ok (.permanent true)] ∧
    GlobalContext.load (run attempt (beforeMove ++
        .relocate 0x3000 (fun c => { c with hobList := 0x7F000000 }) :: afterMove)
        (.empty, oneRecord)).2.2 0x1000 = { GlobalContext.blank with bootMode := 0x11 } := by
  have hclear : GlobalContext.Clear 0x1000 (0x3000 : UInt64).toNat GlobalContext.size :=
    .inl (by decide)
  have hplace : (run (OwnedRecord.attempt (GlobalContext.load oneRecord)) beforeMove .empty).2 =
      .temporary 0x1000 { GlobalContext.blank with bootMode := 0x11 } := by decide +kernel
  have hproper : ProperRun (GlobalContext.load oneRecord)
      (beforeMove ++ .relocate 0x3000 (fun c => { c with hobList := 0x7F000000 }) :: afterMove)
      .empty := by
    have hblank : (0x2000 : UInt64) ≠ 0 := by decide
    have hgiven : (0x1000 : UInt64) ≠ 0 := by decide
    have hdestination : (0x3000 : UInt64) ≠ 0 := by decide
    refine OwnedRecord.properRun_append.mpr ⟨⟨trivial, hblank, hgiven, trivial, trivial⟩, ?_⟩
    rw [hplace]
    exact ⟨⟨hdestination, fun _ => hclear⟩, ⟨hgiven, nofun⟩, trivial, trivial, trivial, trivial, trivial⟩
  obtain ⟨hanswers, -, -, hleft⟩ := run_refines oneRecord _ hproper
  refine ⟨hproper, hanswers.trans ?_, hleft _ _ _ _ _ _ rfl hplace⟩
  decide +kernel

end ContextStore
end PlatformInit
