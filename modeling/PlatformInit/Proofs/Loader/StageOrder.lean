import PlatformInit.Proofs.Loader.Stable

/-!
The order in which the boot loader gives up control.

A stage of the boot loader is as far as the calls that have been made: `Made` says which ones, that all
of them succeeded, and what memory initialization reported. Every operation either stops, with at most
one more call, or reaches a later stage with the calls of that stage.
-/
set_option autoImplicit false
namespace PlatformInit

open Step (Ends Keeps)

/-- What control is given up for. -/
inductive Transfer where
  | memoryInit
  | tempRamExit
  | siliconInit
  | notify (code : UInt32)
  | payload
  deriving DecidableEq

def Transfer.order : List Transfer :=
  [memoryInit, tempRamExit, siliconInit, notify 0x20, notify 0x40, notify 0xF0, payload]

def FspCall.transfer : FspCall → Transfer
  | memoryInit _ => .memoryInit
  | tempRamExit => .tempRamExit
  | siliconInit _ => .siliconInit
  | notifyPhase phase => .notify phase.code

namespace LoaderCall

def transfer? : LoaderCall → Option Transfer
  | interface _ request _ => some request.transfer
  | loadTables .. => none
  | enterPayload .. => some .payload

/-- Only a component can refuse. -/
def Succeeds : LoaderCall → Prop
  | interface _ _ reply => reply.status = Status.success
  | _ => True

/-- Memory initialization was called and named the hand-off list. -/
def Reports (hobList : UInt64) : LoaderCall → Prop
  | interface _ (.memoryInit _) reply => reply.hobList = hobList
  | _ => False

end LoaderCall

/-- The calls of a run, oldest first: control is given up in order, nothing follows a call that
failed, and the payload is given the reported hand-off list and the configured stack. -/
structure Orderly (stackSize : UInt32) (calls : List LoaderCall) : Prop where
  order : calls.filterMap LoaderCall.transfer? <+: Transfer.order
  stops : ∀ earlier call later, calls = earlier ++ call :: later → ¬ call.Succeeds → later = []
  payload : ∀ entry hobList size, .enterPayload entry hobList size ∈ calls →
    size = stackSize ∧ ∃ call ∈ calls, call.Reports hobList

def Stage.rank : Stage → Nat
  | preMemory => 0
  | memoryInitCalled => 1
  | tempRamTornDown => 2
  | siliconInitCalled => 3
  | notifyPhase i => 4 + i
  | handoffToPayload => 7

/-- The first `n` transfers have been made and have succeeded; `calls` are newest first. -/
structure Made (stackSize : UInt32) (n : Nat) (hobList : UInt64) (calls : List LoaderCall) : Prop where
  order : (calls.filterMap LoaderCall.transfer?).reverse = Transfer.order.take n
  succeed : ∀ call ∈ calls, call.Succeeds
  reported : n ≠ 0 → ∃ call ∈ calls, call.Reports hobList
  payload : ∀ entry named size, .enterPayload entry named size ∈ calls →
    named = hobList ∧ size = stackSize

namespace Made
variable {stackSize : UInt32} {n : Nat} {hobList : UInt64} {calls : List LoaderCall}

theorem no_payload (h : Made stackSize 0 hobList calls) (entry named : UInt64) (size : UInt32) :
    .enterPayload entry named size ∉ calls := by
  intro hmem
  have htransfer : Transfer.payload ∈ (calls.filterMap LoaderCall.transfer?).reverse :=
    List.mem_reverse.mpr (List.mem_filterMap.mpr ⟨_, hmem, rfl⟩)
  rw [h.order] at htransfer
  cases htransfer

theorem order_cons (h : Made stackSize n hobList calls) (call : LoaderCall) {t : Transfer}
    (ht : Transfer.order[n]? = some t) (hcall : call.transfer? = some t) :
    ((call :: calls).filterMap LoaderCall.transfer?).reverse = Transfer.order.take (n + 1) := by
  rw [List.filterMap_cons_some hcall, List.reverse_cons, h.order, List.take_add_one, ht]
  rfl

theorem next (h : Made stackSize n hobList calls) (call : LoaderCall) {t : Transfer}
    (ht : Transfer.order[n]? = some t) (hcall : call.transfer? = some t) (hsucceeds : call.Succeeds)
    {named : UInt64} (hreports : n = 0 ∧ call.Reports named ∨ n ≠ 0 ∧ named = hobList)
    (hpayload : ∀ entry given size, call = .enterPayload entry given size →
      given = named ∧ size = stackSize) : Made stackSize (n + 1) named (call :: calls) where
  order := h.order_cons call ht hcall
  succeed := List.forall_mem_cons.mpr ⟨hsucceeds, h.succeed⟩
  reported _ := by
    rcases hreports with ⟨-, hcall⟩ | ⟨hn, rfl⟩
    · exact ⟨call, List.mem_cons_self, hcall⟩
    · obtain ⟨first, hmem, hfirst⟩ := h.reported hn
      exact ⟨first, List.mem_cons_of_mem _ hmem, hfirst⟩
  payload entry given size hmem := by
    rcases List.mem_cons.mp hmem with heq | hmem
    · exact hpayload entry given size heq.symm
    · rcases hreports with ⟨rfl, -⟩ | ⟨-, rfl⟩
      · exact (h.no_payload entry given size hmem).elim
      · exact h.payload entry given size hmem

theorem loadTables (h : Made stackSize n hobList calls) (memory : Memory) (gdt idt : TableRegister) :
    Made stackSize n hobList (.loadTables memory gdt idt :: calls) where
  order := h.order
  succeed := List.forall_mem_cons.mpr ⟨trivial, h.succeed⟩
  reported hn := by
    obtain ⟨first, hmem, hfirst⟩ := h.reported hn
    exact ⟨first, List.mem_cons_of_mem _ hmem, hfirst⟩
  payload entry given size hmem :=
    h.payload entry given size ((List.mem_cons.mp hmem).resolve_left nofun)

theorem answered (h : Made stackSize n hobList calls) {entry named : UInt64} {size : UInt32}
    (hmem : .enterPayload entry named size ∈ calls) :
    size = stackSize ∧ ∃ call ∈ calls, call.Reports named := by
  have hn : n ≠ 0 := by
    rintro rfl
    exact h.no_payload entry named size hmem
  obtain ⟨rfl, rfl⟩ := h.payload entry named size hmem
  exact ⟨rfl, h.reported hn⟩

end Made

theorem Orderly.of_newest {stackSize : UInt32} {calls : List LoaderCall}
    (horder : (calls.filterMap LoaderCall.transfer?).reverse <+: Transfer.order)
    (hsucceed : ∀ call ∈ calls.tail, call.Succeeds)
    (hpayload : ∀ entry named size, .enterPayload entry named size ∈ calls →
      size = stackSize ∧ ∃ call ∈ calls, call.Reports named) : Orderly stackSize calls.reverse where
  order := by rwa [List.filterMap_reverse]
  stops earlier call later heq hfails := by
    have hnewest : calls = later.reverse ++ call :: earlier.reverse := by
      have hreverse := congrArg List.reverse heq
      simpa using hreverse
    cases hlater : later.reverse with
    | nil => exact List.reverse_eq_nil_iff.mp hlater
    | cons newest rest =>
      rw [hnewest, hlater] at hsucceed
      have hcall : call ∈ rest ++ call :: earlier.reverse :=
        List.mem_append_right _ List.mem_cons_self
      exact (hfails (hsucceed call hcall)).elim
  payload entry named size hmem := by
    obtain ⟨hsize, call, hcall, hreports⟩ := hpayload entry named size (List.mem_reverse.mp hmem)
    exact ⟨hsize, call, List.mem_reverse.mpr hcall, hreports⟩

namespace Made
variable {stackSize : UInt32} {n : Nat} {hobList : UInt64} {calls : List LoaderCall}

theorem orderly (h : Made stackSize n hobList calls) : Orderly stackSize calls.reverse :=
  Orderly.of_newest (h.order ▸ List.take_prefix _ _)
    (fun call hcall => h.succeed call (List.mem_of_mem_tail hcall)) fun _ _ _ hmem => h.answered hmem

theorem orderly_cons (h : Made stackSize n hobList calls) {address : UInt64} {request : FspCall}
    (reply : FspReply) (ht : Transfer.order[n]? = some request.transfer) :
    Orderly stackSize (.interface address request reply :: calls).reverse := by
  have horder := h.order_cons (.interface address request reply) ht rfl
  refine Orderly.of_newest (horder ▸ List.take_prefix _ _) h.succeed ?_
  intro entry named size hmem
  obtain ⟨hsize, call, hcall, hreports⟩ := h.answered ((List.mem_cons.mp hmem).resolve_left nofun)
  exact ⟨hsize, call, List.mem_cons_of_mem _ hcall, hreports⟩

end Made

/-! ### One call of a component -/

/-- How a component that is asked for `t` ends, and the calls it leaves: it failed, with one call more
or none, or it made one call that succeeded. -/
inductive Called {α : Type} (t : Transfer) (reports : α → FspReply → Prop) (before : List LoaderCall) :
    Except (Fault EfiError) α → List LoaderCall → Prop where
  | missing (e : Fault EfiError) : Called t reports before (.error e) before
  | refused (e : Fault EfiError) (address : UInt64) (request : FspCall) (reply : FspReply)
      (hrequest : request.transfer = t) :
      Called t reports before (.error e) (.interface address request reply :: before)
  | answered (a : α) (address : UInt64) (request : FspCall) (reply : FspReply)
      (hrequest : request.transfer = t) (hstatus : reply.status = Status.success)
      (hreports : reports a reply) :
      Called t reports before (.ok a) (.interface address request reply :: before)

namespace Called
variable {α : Type} {t : Transfer} {reports : α → FspReply → Prop} {before after : List LoaderCall}
  {r : Except (Fault EfiError) α} {stackSize : UInt32} {n : Nat} {hobList : UInt64}

theorem orderly (h : Called t reports before r after) (hmade : Made stackSize n hobList before)
    (ht : Transfer.order[n]? = some t) : Orderly stackSize after.reverse := by
  cases h with
  | missing e => exact hmade.orderly
  | refused e address request reply hrequest => exact hmade.orderly_cons reply (hrequest ▸ ht)
  | answered a address request reply hrequest => exact hmade.orderly_cons reply (hrequest ▸ ht)

theorem made {a : α} (h : Called t reports before (.ok a) after) (hn : n ≠ 0)
    (hmade : Made stackSize n hobList before) (ht : Transfer.order[n]? = some t) :
    Made stackSize (n + 1) hobList after := by
  cases h with
  | answered a address request reply hrequest hstatus hreports =>
    exact hmade.next (.interface address request reply) ht (congrArg some hrequest) hstatus
      (.inr ⟨hn, rfl⟩) nofun

theorem made_first {named : UInt64}
    (h : Called .memoryInit (fun named reply => reply.hobList = named) before (.ok named) after)
    (hmade : Made stackSize 0 hobList before) : Made stackSize 1 named after := by
  cases h with
  | answered a address request reply hrequest hstatus hreports =>
    cases request with
    | memoryInit upd =>
      exact hmade.next (.interface address (.memoryInit upd) reply) rfl rfl hstatus
        (.inl ⟨rfl, hreports⟩) nofun
    | tempRamExit => cases hrequest
    | siliconInit upd => cases hrequest
    | notifyPhase phase => cases hrequest

theorem dropped {a : α} (h : Called t reports before (.ok a) after) :
    Called (α := Unit) t (fun _ _ => True) before (.ok ()) after := by
  cases h with
  | answered a address request reply hrequest hstatus hreports =>
    exact .answered () address request reply hrequest hstatus trivial

theorem failed {e : Fault EfiError} (h : Called t reports before (.error e) after) :
    Called (α := Unit) t (fun _ _ => True) before (.error e) after := by
  cases h with
  | missing e => exact .missing e
  | refused e address request reply hrequest => exact .refused e address request reply hrequest

end Called

namespace FspComponent
variable {ω : Type} (c : FspComponent) (gate : CallGate ω)

theorem call_called (address : UInt64) (request : FspCall) (w : Noted ω LoaderCall) :
    Ends (call gate.noting address request) w fun r w' =>
      Called request.transfer (fun hobList reply => reply.hobList = hobList) w.calls r w'.calls := by
  unfold Ends call CallGate.noting Status.toExcept
  dsimp only
  by_cases hstatus : (gate.call address request w.world).1.status = Status.success
  · rw [if_pos hstatus]
    exact .answered _ address request _ rfl hstatus rfl
  · rw [if_neg hstatus]
    exact .refused _ address request _ rfl

theorem callWithUpd_called (address : UInt64) (request : Bytes → FspCall) {t : Transfer}
    (ht : ∀ upd, (request upd).transfer = t) (s : Bytes × Noted ω LoaderCall) :
    Ends (callWithUpd gate.noting address request) s fun r s' =>
      Called t (fun hobList reply => reply.hobList = hobList) s.2.calls r s'.2.calls := by
  unfold Ends callWithUpd CallGate.noting Status.toExcept
  dsimp only
  by_cases hstatus : (gate.call address (request s.1) s.2.world).1.status = Status.success
  · rw [if_pos hstatus]
    exact .answered _ address _ _ (ht s.1) hstatus rfl
  · rw [if_neg hstatus]
    exact .refused _ address _ _ (ht s.1)

theorem memoryInit_called (s : Bytes × Noted ω LoaderCall) :
    Ends (c.memoryInit gate.noting) s fun r s' =>
      Called .memoryInit (fun hobList reply => reply.hobList = hobList) s.2.calls r s'.2.calls := by
  unfold memoryInit
  cases c.entry? c.header.memoryInit with
  | none => exact .missing _
  | some address => exact callWithUpd_called gate address _ (fun _ => rfl) s

theorem siliconInit_called (s : Bytes × Noted ω LoaderCall) :
    Ends (c.siliconInit gate.noting) s fun r s' =>
      Called .siliconInit (fun _ _ => True) s.2.calls r s'.2.calls := by
  unfold siliconInit
  cases c.entry? c.header.siliconInit with
  | none => exact .missing _
  | some address =>
    have hcall := callWithUpd_called gate address .siliconInit (fun _ => rfl) s
    exact hcall.bind (fun _ _ h => Ends.pure h.dropped) fun _ _ h => h.failed

theorem tempRamExit_called (w : Noted ω LoaderCall) :
    Ends (c.tempRamExit gate.noting) w fun r w' =>
      Called .tempRamExit (fun _ _ => True) w.calls r w'.calls := by
  unfold tempRamExit
  cases c.entry? c.header.tempRamExit with
  | none => exact .missing _
  | some address =>
    have hcall := call_called gate address .tempRamExit w
    exact hcall.bind (fun _ _ h => Ends.pure h.dropped) fun _ _ h => h.failed

theorem notifyPhase_called (phase : NotifyPhase) (w : Noted ω LoaderCall) :
    Ends (c.notifyPhase gate.noting phase) w fun r w' =>
      Called (.notify phase.code) (fun _ _ => True) w.calls r w'.calls := by
  unfold notifyPhase
  cases c.entry? c.header.notifyPhase with
  | none => exact .missing _
  | some address =>
    have hcall := call_called gate address (.notifyPhase phase) w
    exact hcall.bind (fun _ _ h => Ends.pure h.dropped) fun _ _ h => h.failed

end FspComponent

/-! ### Every operation keeps the order -/

namespace Loader
variable {ω α β : Type}

/-- The stage is as far as the calls that were made. -/
def Settled (p : LoaderParts ω) (l : Loader (Noted ω LoaderCall)) : Prop :=
  Made p.config.payloadStackSize l.stage.rank l.hobList l.world.calls

/-- The stage is one ahead of the calls: its own call is still to be made. -/
structure Underway (p : LoaderParts ω) (n : Nat) (l : Loader (Noted ω LoaderCall)) : Prop where
  made : Made p.config.payloadStackSize n l.hobList l.world.calls
  rank : l.stage.rank = n + 1

/-- However a step ends, the calls are in order, and the machine goes on from a settled stage only. -/
def Kept (p : LoaderParts ω) (r : Except (Fault Empty) α) (l : Loader (Noted ω LoaderCall)) : Prop :=
  Orderly p.config.payloadStackSize l.world.calls.reverse ∧ ∀ a, r = .ok a → Settled p l

def AfterCall (t : Transfer) (reports : α → FspReply → Prop) (l : Loader (Noted ω LoaderCall))
    (r : Except (Fault EfiError) α) (l' : Loader (Noted ω LoaderCall)) : Prop :=
  Called t reports l.world.calls r l'.world.calls ∧ l'.stage = l.stage ∧ l'.hobList = l.hobList

variable {p : LoaderParts ω} {l : Loader (Noted ω LoaderCall)}

theorem Settled.kept (h : Settled p l) (r : Except (Fault Empty) α) : Kept p r l :=
  ⟨h.orderly, fun _ _ => h⟩

theorem Underway.stopped {n : Nat} (h : Underway p n l) (r : Except (Fault Empty) α)
    (hr : ∀ a, r ≠ .ok a) : Kept p r l := ⟨h.made.orderly, fun a ha => (hr a ha).elim⟩

theorem Kept.bind {x : Step (Loader (Noted ω LoaderCall)) Empty α}
    {f : α → Step (Loader (Noted ω LoaderCall)) Empty β} (hx : Ends x l (Kept p))
    (hf : ∀ a l', Settled p l' → Ends (f a) l' (Kept p)) : Ends (x >>= f) l (Kept p) :=
  hx.bind (fun a l' h => hf a l' (h.2 a rfl)) fun _ _ h => ⟨h.1, nofun⟩

theorem advance_bind {current next : Stage} {f : Unit → Step (Loader (Noted ω LoaderCall)) Empty α}
    (hrank : next.rank = current.rank + 1) (h : Settled p l)
    (hf : ∀ l', Underway p current.rank l' → Ends (f ()) l' (Kept p)) :
    Ends (advance current next >>= f) l (Kept p) := by
  rcases advance_cases current next l with ⟨rfl, hmove⟩ | ⟨e, hstop⟩
  · exact Ends.bind_of_ok hmove (hf _ ⟨h, hrank⟩)
  · exact Ends.bind_of_error hstop (h.kept _)

theorem updateContext_bind {f : GlobalContext → GlobalContext} {n : Nat}
    {g : Unit → Step (Loader (Noted ω LoaderCall)) Empty α} (h : Underway p n l)
    (hg : ∀ l', Underway p n l' → Ends (g ()) l' (Kept p)) :
    Ends (updateContext f >>= g) l (Kept p) := by
  have hend : Ends (updateContext f) l fun _ l' => Underway p n l' :=
    Ends.get_bind (Ends.valueOrFatal_bind (fun memory _ => ⟨h.made, h.rank⟩) fun _ => h)
  exact hend.bind (fun _ l' h' => hg l' h') fun _ l' h' => h'.stopped _ nofun

theorem onWorld_called {t : Transfer} {reports : α → FspReply → Prop}
    {x : Step (Noted ω LoaderCall) EfiError α}
    (hx : ∀ w, Ends x w fun r w' => Called t reports w.calls r w'.calls)
    (l : Loader (Noted ω LoaderCall)) : Ends (onWorld x) l (AfterCall t reports l) :=
  Ends.focus ((hx l.world).mono fun _ _ h => ⟨h, rfl, rfl⟩)

theorem onBlock_called {t : Transfer} {reports : α → FspReply → Prop}
    {x : Step (Bytes × Noted ω LoaderCall) EfiError α}
    (hx : ∀ s, Ends x s fun r s' => Called t reports s.2.calls r s'.2.calls) (component : String)
    (block : ConfigHandle) (l : Loader (Noted ω LoaderCall)) :
    Ends (onBlock component block x) l (AfterCall t reports l) := by
  unfold Ends onBlock
  cases l.arena.get block with
  | error e => exact ⟨.missing _, rfl, rfl⟩
  | ok upd =>
    have hend := hx (upd, l.world)
    dsimp only
    cases hrun : x (upd, l.world) with
    | ok a s => exact ⟨hend.of_ok hrun, rfl, rfl⟩
    | error e s => exact ⟨hend.of_error hrun, rfl, rfl⟩

theorem AfterCall.fatally {t : Transfer} {reports : α → FspReply → Prop} {n : Nat}
    {reason : EfiError → String} {x : Step (Loader (Noted ω LoaderCall)) EfiError α}
    (hx : Ends x l (AfterCall t reports l)) (hl : Underway p n l)
    (ht : Transfer.order[n]? = some t) :
    Ends (Step.orFatal reason x : Step _ Empty α) l fun r l' =>
      Orderly p.config.payloadStackSize l'.world.calls.reverse ∧
        ∀ a, r = .ok a → AfterCall t reports l (.ok a) l' := by
  refine Ends.orFatal hx (fun a l' h => ⟨h.1.orderly hl.made ht, ?_⟩) fun e l' h e' =>
    ⟨h.1.orderly hl.made ht, nofun⟩
  intro a' ha'
  cases ha'
  exact h

theorem AfterCall.settles {t : Transfer} {n : Nat} {reason : EfiError → String}
    {x : Step (Loader (Noted ω LoaderCall)) EfiError Unit}
    (hx : Ends x l (AfterCall t (fun _ _ => True) l)) (hl : Underway p n l) (hn : n ≠ 0)
    (ht : Transfer.order[n]? = some t) : Ends (Step.orFatal reason x) l (Kept p) := by
  refine (AfterCall.fatally hx hl ht).mono fun r l' h => ⟨h.1, fun a ha => ?_⟩
  obtain ⟨hcalled, hstage, hhobs⟩ := h.2 a ha
  unfold Settled
  rw [hstage, hhobs, hl.rank]
  exact hcalled.made hn hl.made ht

theorem loadTables_kept (h : Settled p l) (tables : StageTables) :
    Ends (loadTables p.noting tables) l (Kept p) := by
  have hloaded : Settled p { l with world := tables.load p.noting.cpu l.memory l.world } :=
    h.loadTables l.memory _ _
  exact Ends.modify (hloaded.kept _)

theorem installTemporary_kept (h : Settled p l) (context : UInt64) (tables : StageTables)
    (stackTop : UInt32) : Ends (installTemporary p.noting context tables stackTop) l (Kept p) := by
  refine Ends.get_bind ?_
  split
  · exact h.kept _
  · refine Ends.ofFallible_bind (fun initial _ => ?_) fun _ _ => h.kept _
    have hwritten (memory : Memory) : Settled p { l with memory } := h
    refine Ends.bind_of_ok rfl (Kept.bind (loadTables_kept (hwritten _) tables) fun _ l' hl' => ?_)
    exact Ends.valueOrFatal_bind (fun store _ => Settled.kept hl' _) fun _ => hl'.kept _

theorem memoryInit_kept (h : Settled p l) : Ends (memoryInit p.noting) l (Kept p) := by
  refine advance_bind rfl h fun l₁ h₁ => ?_
  refine Ends.valueOrFatal_bind (fun upd _ => ?_) fun _ => h₁.stopped _ nofun
  refine Ends.bind_of_ok rfl (updateContext_bind (n := 0) ⟨h₁.made, h₁.rank⟩ fun l₂ h₂ => ?_)
  have hcall := onBlock_called (p.memoryComponent.memoryInit_called p.memoryGate)
  refine (AfterCall.fatally (hcall _ _ l₂) h₂ rfl).bind (fun named l₃ h₃ => ?_) fun _ _ h => ⟨h.1, nofun⟩
  obtain ⟨hcalled, hstage, -⟩ := h₃.2 named rfl
  have hsettled : Settled p { l₃ with hobList := named } := by
    unfold Settled
    rw [hstage, h₂.rank]
    exact hcalled.made_first h₂.made
  exact Ends.bind_of_ok rfl (hsettled.kept _)

theorem relocate_kept (h : Settled p l) (hobs : HobList) :
    Ends (relocate p.noting hobs) l (Kept p) := by
  have hmove : Ends (moveContext p.noting hobs) l (Kept p) := by
    refine Ends.get_bind ?_
    split
    · exact h.kept _
    · refine Ends.ofFallible_bind (fun layout _ => Ends.bind_of_ok rfl ?_) fun _ _ => h.kept _
      split
      · exact Settled.kept h _
      · exact Ends.valueOrFatal_bind (fun moved _ => Ends.bind_of_ok rfl (Settled.kept h _))
          fun _ => Settled.kept h _
  refine Kept.bind hmove fun layout l₁ h₁ => ?_
  exact Kept.bind (loadTables_kept h₁ _) fun _ l₂ h₂ => h₂.kept _

theorem tempRamExit_kept (h : Settled p l) : Ends (tempRamExit p.noting) l (Kept p) := by
  refine Ends.get_bind ?_
  split
  · refine advance_bind rfl h fun l₁ h₁ => AfterCall.settles ?_ h₁ (Nat.succ_ne_zero _) rfl
    exact onWorld_called (p.memoryComponent.tempRamExit_called p.memoryGate) l₁
  · exact h.kept _

theorem siliconInit_kept (h : Settled p l) : Ends (siliconInit p.noting) l (Kept p) := by
  refine advance_bind rfl h fun l₁ h₁ => ?_
  refine Ends.valueOrFatal_bind (fun _ _ => ?_) fun _ => h₁.stopped _ nofun
  refine Ends.bind_of_ok rfl (updateContext_bind (n := 2) ⟨h₁.made, h₁.rank⟩ fun l₂ h₂ => ?_)
  refine AfterCall.settles ?_ h₂ (Nat.succ_ne_zero _) rfl
  exact onBlock_called (p.siliconComponent.siliconInit_called p.siliconGate) _ _ l₂

theorem notify_kept (h : Settled p l) (index : Nat) (phase : NotifyPhase)
    (horder : Transfer.order[3 + index]? = some (.notify phase.code)) :
    Ends (notify p.noting index phase) l (Kept p) := by
  have hcurrent : (if index = 0 then Stage.siliconInitCalled else .notifyPhase (index - 1)).rank =
      3 + index := by
    split
    · rename_i hzero
      rw [hzero]
      rfl
    · change 4 + (index - 1) = 3 + index
      omega
  have hnext : (Stage.notifyPhase index).rank = 3 + index + 1 := by
    change 4 + index = 3 + index + 1
    omega
  refine advance_bind (hcurrent ▸ hnext) h fun l₁ h₁ => ?_
  rw [hcurrent] at h₁
  refine AfterCall.settles ?_ h₁ (by omega) horder
  exact onWorld_called (p.siliconComponent.notifyPhase_called p.siliconGate phase) l₁

theorem notifyPhases_kept (h : Settled p l) : Ends (notifyPhases p.noting) l (Kept p) :=
  Kept.bind (notify_kept h 0 _ rfl) fun _ _ h => Kept.bind (notify_kept h 1 _ rfl) fun _ _ h =>
    notify_kept h 2 _ rfl

theorem readWord_bind {n : Nat} {address : UInt64}
    {f : UInt32 → Step (Loader (Noted ω LoaderCall)) Empty α} (h : Underway p n l)
    (hf : ∀ value l', Underway p n l' → Ends (f value) l' (Kept p)) :
    Ends (readWord p.noting address >>= f) l (Kept p) :=
  Ends.bind_of_ok rfl (hf _ _ ⟨h.made, h.rank⟩)

theorem handOff_kept (h : Settled p l) : Ends (handOff p.noting) l (Kept p) := by
  refine advance_bind rfl h fun l₁ h₁ => ?_
  refine Ends.ofFallible_bind (fun slot _ => ?_) fun _ _ => h₁.stopped _ nofun
  refine readWord_bind h₁ fun table l₂ h₂ => readWord_bind h₂ fun entry l₃ h₃ => ?_
  split
  · exact h₃.stopped _ nofun
  · refine Ends.get_bind (Settled.kept ?_ _)
    have hmade := h₃.made.next
      (.enterPayload entry.toUInt64 l₃.hobList p.config.payloadStackSize) rfl rfl trivial
      (.inr ⟨Nat.succ_ne_zero _, rfl⟩) (by
        rintro _ _ _ heq
        cases heq
        exact ⟨rfl, rfl⟩)
    unfold Settled
    rwa [← h₃.rank] at hmade

theorem continueInMemory_kept (h : Settled p l) : Ends (continueInMemory p.noting) l (Kept p) :=
  Kept.bind (tempRamExit_kept h) fun _ _ h => Kept.bind (siliconInit_kept h) fun _ _ h =>
    Kept.bind (notifyPhases_kept h) fun _ _ h => handOff_kept h

/-- One operation, in whatever stage, leaves the calls in order. -/
theorem perform_kept (h : Settled p l) (op : LoaderOp) : Ends (perform p.noting op) l (Kept p) := by
  cases op with
  | installTemporary context tables stackTop => exact installTemporary_kept h context tables stackTop
  | memoryInit => exact Kept.bind (memoryInit_kept h) fun _ _ h => h.kept _
  | relocate hobs => exact Kept.bind (relocate_kept h hobs) fun _ _ h => h.kept _
  | tempRamExit => exact tempRamExit_kept h
  | siliconInit => exact siliconInit_kept h
  | notifyPhases => exact notifyPhases_kept h
  | handOff => exact handOff_kept h
  | continueInMemory => exact continueInMemory_kept h

theorem run_kept (h : Settled p l) (ops : List LoaderOp) : Ends (run p.noting ops) l (Kept p) := by
  induction ops generalizing l with
  | nil => exact h.kept _
  | cons op ops ih => exact Kept.bind (perform_kept h op) fun _ _ h => ih h

/-! ### Temporary memory is torn down after the context has left it -/

theorem FspCall.eq_tempRamExit {request : FspCall} (h : request.transfer = .tempRamExit) :
    request = .tempRamExit := by
  cases request with
  | tempRamExit => rfl
  | memoryInit upd => cases h
  | siliconInit upd => cases h
  | notifyPhase phase => cases h

theorem tempRamExit_of_not_permanent {l : Loader ω} (p : LoaderParts ω)
    (h : l.store.isPermanent = false) : ∃ e, tempRamExit p l = .error e l := by
  change ∃ e, (if l.store.isPermanent = true then _ else Step.fatal _ : Step _ Empty Unit) l = _
  rw [if_neg (by rw [h]; exact Bool.false_ne_true)]
  exact ⟨_, rfl⟩

theorem perform_of_not_permanent {l : Loader ω} (p : LoaderParts ω) {op : LoaderOp}
    (hop : op.Requests .tempRamExit) (h : l.store.isPermanent = false) :
    ∃ e, perform p op l = .error e l := by
  obtain ⟨e, hstop⟩ := tempRamExit_of_not_permanent p h
  cases op with
  | tempRamExit => exact ⟨e, hstop⟩
  | continueInMemory => exact ⟨e, Step.bind_of_error hstop⟩
  | installTemporary context tables stackTop => exact hop.elim
  | memoryInit => exact hop.elim
  | relocate hobs => exact hop.elim
  | siliconInit => exact hop.elim
  | notifyPhases => exact hop.elim
  | handOff => exact hop.elim

theorem requests_of_mem_trace {p : LoaderParts ω} {op : LoaderOp} {l : Loader ω} {call : LoaderCall}
    (hcall : call ∈ trace (perform p.noting op) l) (ht : call.transfer? = some .tempRamExit) :
    op.Requests .tempRamExit := by
  cases hbuilds : op.buildsContext with
  | false =>
    refine Classical.byContradiction fun hnot => ?_
    have hother : Keeps (fun l => l.world.All fun call => call.transfer? ≠ some .tempRamExit)
        (perform p.noting op) :=
      perform_keeps (stable_calls p (fun address request reply hrequest heq =>
        hnot (FspCall.eq_tempRamExit (Option.some.inj heq) ▸ hrequest)) nofun) hbuilds
    exact Ends.iff_answer.mp (hother (l.noted []) nofun) call (mem_trace.mp hcall) ht
  | true =>
    cases op with
    | installTemporary context tables stackTop =>
      obtain ⟨initial, -, rfl⟩ := installTemporary_calls hcall
      cases ht
    | relocate hobs =>
      rw [trace_perform_relocate] at hcall
      obtain ⟨layout, l₁, -, rfl⟩ := relocate_calls hcall
      cases ht
    | _ => cases hbuilds

theorem perform_tempRamExit {p : LoaderParts ω} {op : LoaderOp} {l : Loader ω} {call : LoaderCall}
    (hcall : call ∈ trace (perform p.noting op) l) (ht : call.transfer? = some .tempRamExit) :
    l.store.isPermanent ∧ (Step.after (perform p op) l).store = l.store := by
  have hop := requests_of_mem_trace hcall ht
  constructor
  · refine Classical.byContradiction fun hnot => ?_
    obtain ⟨e, hstop⟩ := perform_of_not_permanent (l := l.noted []) p.noting hop
      (Bool.eq_false_iff.mpr hnot)
    rw [mem_trace, Step.after_of_error hstop] at hcall
    cases hcall
  · have hbuilds : op.buildsContext = false := by
      cases op with
      | installTemporary context tables stackTop => exact hop.elim
      | relocate hobs => exact hop.elim
      | _ => rfl
    exact Ends.iff_answer.mp (perform_keeps (stable_store p _ l.store) hbuilds l rfl)

/-- Whatever operations are called on a boot loader that has not begun, in whatever order and however
the components and the processor behave: control is given up in the order of the stages, nothing
follows a call that failed, the payload gets the reported hand-off list and the configured stack, and
temporary memory is torn down by operations that find and leave the store permanent. -/
theorem run_orderly (p : LoaderParts ω) (l : Loader ω) (hstart : l.stage = .preMemory)
    (ops : List LoaderOp) :
    Orderly p.config.payloadStackSize (trace (run p.noting ops) l) ∧
      ∀ call ∈ trace (run p.noting ops) l, call.transfer? = some .tempRamExit →
        ∃ before op later l₁, ops = before ++ op :: later ∧ run p before l = .ok () l₁ ∧
          call ∈ trace (perform p.noting op) l₁ ∧
          l₁.store.isPermanent ∧ (Step.after (perform p op) l₁).store = l₁.store := by
  have hsettled : Settled p (l.noted []) := by
    unfold Settled
    change Made _ l.stage.rank l.hobList []
    rw [hstart]
    exact ⟨rfl, nofun, fun hn => (hn rfl).elim, nofun⟩
  refine ⟨(Ends.iff_answer.mp (run_kept hsettled ops)).1, fun call hcall ht => ?_⟩
  obtain ⟨before, op, later, l₁, hops, hbefore, hmem⟩ := exists_perform_of_mem_trace_run hcall
  exact ⟨before, op, later, l₁, hops, hbefore, hmem, perform_tempRamExit hmem ht⟩

theorem run_orderly_accepting :
    (trace (run acceptingParts.noting (bootOps ++ bootOps)) (.start .blank ())).filterMap
        LoaderCall.transfer? = Transfer.order ∧
    Orderly 0x80000 (trace (run acceptingParts.noting (bootOps ++ bootOps)) (.start .blank ())) ∧
    ∃ before op later l₁, bootOps ++ bootOps = before ++ op :: later ∧
      run acceptingParts before (.start .blank ()) = .ok () l₁ ∧ l₁.store.isPermanent := by
  have htransfers : (trace (run acceptingParts.noting (bootOps ++ bootOps))
      (.start .blank ())).filterMap LoaderCall.transfer? = Transfer.order := by decide +kernel
  obtain ⟨horderly, hexit⟩ := run_orderly acceptingParts (.start .blank ()) rfl (bootOps ++ bootOps)
  have hmem : Transfer.tempRamExit ∈ Transfer.order := by decide
  rw [← htransfers] at hmem
  obtain ⟨call, hcall, ht⟩ := List.mem_filterMap.mp hmem
  obtain ⟨before, op, later, l₁, hops, hbefore, -, hpermanent, -⟩ := hexit call hcall ht
  exact ⟨htransfers, horderly, before, op, later, l₁, hops, hbefore, hpermanent⟩

end Loader
end PlatformInit
