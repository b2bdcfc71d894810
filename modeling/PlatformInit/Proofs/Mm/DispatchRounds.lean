import PlatformInit.Proofs.Mm.Carrying
import PlatformInit.Proofs.Mm.Reports
import PlatformInit.Proofs.Mm.Window

/-!
Dispatches that the MM core asks to be repeated.

`Restarts` follows the core from one request to the next: it finds the request in the mailbox, leaves
a reply that asks for another one, and the window is closed. What the loop makes of a request depends
on the state alone, so the calls of the whole run are those of its rounds, one after another.
-/
set_option autoImplicit false
namespace PlatformInit

open Step (Ends Follows Returns)

structure DispatchRound (ω : Type) where
  found : Machine ω
  left : Machine ω

/-- The mailbox leads to a buffer that holds the request for a dispatch and nothing else. -/
structure AsksDispatch {ω : Type} (core : UInt64) (b : CommBuffer) (found : Machine ω) : Prop where
  address : (found.cores core).buffer = b.address
  size : (found.cores core).bufferSize = .ofNat (CommHeader.size + 1)
  bytes : b.bytes found.memory =
    b.requestBytes Guid.driverDispatch [Communicator.dispatchError]

/-- The core has succeeded and its reply begins with the request for another dispatch. -/
structure AsksAgain {ω : Type} (core : UInt64) (b : CommBuffer) (left : Machine ω) : Prop where
  success : (left.cores core).status = Status.success
  message : CommHeader.size < (left.cores core).bufferSize.toNat
  inside : (left.cores core).bufferSize.toNat ≤ b.length
  restart : (b.bytes left.memory)[CommHeader.size]? = some Communicator.dispatchRestart

/-- The core has succeeded and its reply is empty or begins with another byte. -/
structure Finishes {ω : Type} (core : UInt64) (b : CommBuffer) (left : Machine ω) : Prop where
  success : (left.cores core).status = Status.success
  holds : b.Holds (left.cores core).bufferSize
  other : CommHeader.size < (left.cores core).bufferSize.toNat →
    (b.bytes left.memory)[CommHeader.size]? ≠ some Communicator.dispatchRestart

namespace Communicator
variable {ω ε α : Type}

def dispatchRequest (b : CommBuffer) : CommBuffer := b.filled Guid.driverDispatch [dispatchError]

def asked (p : CommParts ω) (b : CommBuffer) (c : Communicator ω) : Machine ω :=
  (c.request b Guid.driverDispatch [dispatchError]).machine.updateCore p.core
    (·.post b.address (.ofNat (CommHeader.size + 1)))

/-- The state after the request, by the machine that the core left. -/
def answered (p : CommParts ω) (b : CommBuffer) (c : Communicator ω) (left : Machine ω) :
    Communicator ω :=
  { c.request b Guid.driverDispatch [dispatchError] with
    machine := left.updateCore p.core (·.clear) }

def closed (p : CommParts ω) (c : Communicator ω) : Communicator ω :=
  Step.after (onMachine (Machine.onWorld p.access.closeWindow)) c

def closeAttempt (p : CommParts ω) (w : ω) : List (CommCall ω) :=
  if p.access.isLocked w then [] else [.window .hide w]

/-- The core asks for another dispatch in each of the rounds that lead from `c` to `d`. -/
inductive Restarts (p : CommParts ω) (e : MmExecutor (Machine ω)) (b : CommBuffer) :
    Communicator ω → List (DispatchRound ω) → Communicator ω → Prop where
  | none {c : Communicator ω} : Restarts p e b c [] c
  | again {c d : Communicator ω} {left : Machine ω} {rounds : List (DispatchRound ω)}
      (route : usesMailbox p c.machine = true)
      (execute : e.execute (dispatchRequest b) (asked p b c) = .ok () left)
      (restart : AsksAgain p.core b left)
      (rest : Restarts p e b (closed p (answered p b c left)) rounds d) :
      Restarts p e b c (⟨asked p b c, left⟩ :: rounds) d

def roundCalls (p : CommParts ω) (b : CommBuffer) (r : DispatchRound ω) : List (CommCall ω) :=
  .execute (dispatchRequest b) r.found true :: closeAttempt p r.left.world

theorem asked_asks {p : CommParts ω} {b : CommBuffer} (hroom : CommHeader.size + 1 ≤ b.length)
    (c : Communicator ω) : AsksDispatch p.core b (asked p b c) where
  address := by
    rw [asked, Machine.cores_updateCore]
    rfl
  size := by
    rw [asked, Machine.cores_updateCore]
    rfl
  bytes := by
    have hroom' : CommHeader.size + [dispatchError].length ≤ b.length := hroom
    exact CommBuffer.bytes_filledMemory hroom' c.machine.memory Guid.driverDispatch

/-! The loop with notes, from a state and the notes so far. -/

theorem noted_eq {κ : Type} {x' : Step (Communicator (Noted ω κ)) ε α}
    {x : Step (Communicator ω) ε α} (hx : Follows bare x' x) {c : Communicator ω} {old new : List κ}
    (hnew : (Step.after x' (c.noted old)).machine.world.calls = new) :
    x' (c.noted old) = Step.mapState (noted · new) (x c) := by
  have hbare : x c = Step.mapState bare (x' (c.noted old)) := hx (c.noted old)
  rw [hbare]
  unfold Step.after at hnew
  subst hnew
  cases x' (c.noted old) <;> rfl

theorem signal_of_head {p : CommParts ω} {c : Communicator ω} {b : CommBuffer}
    (hhead : c.buffers.head? = some b) (recipient : Guid) (data : Bytes) :
    signal p recipient data c = communicate p b.id data recipient c := by
  rw [signal]
  refine (Step.bind_of_ok rfl).trans ?_
  rw [hhead]

theorem signal_noted (p : CommParts ω) {c : Communicator ω} {b : CommBuffer}
    (hhead : c.buffers.head? = some b) (recipient : Guid) (data : Bytes) (old : List (CommCall ω)) :
    signal p.noting recipient data (c.noted old) =
      Step.mapState (noted · ((requestCall? p b.id data recipient c).toList ++ old))
        (signal p recipient data c) := by
  refine noted_eq (signal_follows p.noting_mirrors recipient data) ?_
  have hnoted : (c.noted old).buffers.head? = some b := hhead
  rw [Step.after_congr (signal_of_head hnoted recipient data), communicate_notes (noting_notes p),
    List.flatMap_singleton']
  rfl

theorem close_eq (p : CommParts ω) (c : Communicator ω) :
    (Step.ignoringError (onMachine (Machine.onWorld p.access.closeWindow)) :
      Step (Communicator ω) CommError Unit) c = .ok () (closed p c) :=
  Step.ignoringError_of_returns
    (Ends.focus (Ends.focus (p.access.unlessLocked_returns p.access.hide c.machine.world)))

theorem after_closeWindow_noting (p : CommParts ω) (n : Noted ω (CommCall ω)) :
    Step.after p.noting.access.closeWindow n =
      ⟨Step.after p.access.closeWindow n.world, closeAttempt p n.world ++ n.calls⟩ :=
  SmramAccess.after_unlessLocked_call _ p.noting_mirrors.access _ n

theorem close_noted (p : CommParts ω) (c : Communicator ω) (old : List (CommCall ω)) :
    closed p.noting (c.noted old) = (closed p c).noted (closeAttempt p c.machine.world ++ old) := by
  unfold closed onMachine Machine.onWorld
  have hworld : (c.noted old).machine.world = ⟨c.machine.world, old⟩ := rfl
  rw [Step.after_focus, Step.after_focus, Step.after_focus, Step.after_focus, hworld,
    after_closeWindow_noting]
  rfl

/-! One request through the mailbox. -/

section
variable {p : CommParts ω} {e : MmExecutor (Machine ω)} {b : CommBuffer} {c : Communicator ω}

theorem head?_message (b : CommBuffer) (m : Memory) (n : Nat) :
    (b.message m n).head? = if n = 0 then none else (b.bytes m)[CommHeader.size]? := by
  rw [CommBuffer.message, List.head?_take, List.head?_drop]

theorem find?_of_head? {buffers : List CommBuffer} (h : buffers.head? = some b) :
    buffers.find? (·.id = b.id) = some b := by
  cases buffers with
  | nil => cases h
  | cons a rest =>
    cases h
    exact List.find?_cons_of_pos (decide_eq_true rfl)

theorem exists_head (hhead : c.buffers.head?.map CommBuffer.vacant = some b.vacant) :
    ∃ b', c.buffers.head? = some b' ∧ b'.length = b.length ∧
      ∀ recipient data, b'.filled recipient data = b.filled recipient data ∧
        c.request b' recipient data = c.request b recipient data := by
  obtain ⟨b', hb', hvacant⟩ := Option.map_eq_some_iff.mp hhead
  have hsame {τ : Type} (f : CommBuffer → τ) : f b'.vacant = f b.vacant := congrArg f hvacant
  exact ⟨b', hb', hsame CommBuffer.length, fun recipient data =>
    ⟨hsame (·.filled recipient data), hsame (c.request · recipient data)⟩⟩

theorem head?_answered (hhead : c.buffers.head?.map CommBuffer.vacant = some b.vacant)
    (left : Machine ω) :
    (answered p b c left).buffers.head?.map CommBuffer.vacant = some b.vacant := by
  obtain ⟨b', hb', -, hsame⟩ := exists_head hhead
  have hvacant : (b'.filled Guid.driverDispatch [dispatchError]).vacant = b'.vacant := rfl
  have hput := putBuffer_vacant (find?_of_head? hb') hvacant
  rw [(hsame Guid.driverDispatch [dispatchError]).1] at hput
  calc
    (answered p b c left).buffers.head?.map CommBuffer.vacant =
        ((putBuffer (dispatchRequest b) c.buffers).map CommBuffer.vacant).head? := List.head?_map.symm
    _ = (c.buffers.map CommBuffer.vacant).head? := congrArg List.head? hput
    _ = some b.vacant := List.head?_map.trans hhead

theorem closed_buffers (p : CommParts ω) (c : Communicator ω) : (closed p c).buffers = c.buffers := by
  rw [closed, onMachine, Step.after_focus]

theorem dispatch_route (hroute : usesMailbox p c.machine = true) :
    usesMailbox p (c.request b Guid.driverDispatch [dispatchError]).machine = true := hroute

theorem dispatchRequest_holds (hroom : CommHeader.size + 1 ≤ b.length) :
    (dispatchRequest b).Holds (.ofNat (CommHeader.size + 1)) := ⟨by decide, hroom⟩

variable (hexecutor : p.executor = some e) (hroom : CommHeader.size + 1 ≤ b.length)
  (hroute : usesMailbox p c.machine = true)
include hexecutor hroom hroute

theorem sendDispatch_eq :
    send p (dispatchRequest b) (.ofNat (CommHeader.size + 1))
        (c.request b Guid.driverDispatch [dispatchError]) =
      match e.execute (dispatchRequest b) (asked p b c) with
      | .ok () left => .ok (marked (left.cores p.core).status, (left.cores p.core).bufferSize)
          (answered p b c left)
      | .error _ left => .error (.error .swMmiFailed) (answered p b c left) := by
  have hfound : (c.request b Guid.driverDispatch [dispatchError]).machine.updateCore p.core
      (·.post (dispatchRequest b).address (.ofNat (CommHeader.size + 1))) = asked p b c := rfl
  have hmmi := sendByMmi_eq p (dispatchRequest b) (.ofNat (CommHeader.size + 1))
    (c.request b Guid.driverDispatch [dispatchError]).machine
  rw [hexecutor, hfound] at hmmi
  rw [send_eq, if_pos (dispatchRequest_holds hroom), if_pos (dispatch_route hroute)]
  dsimp only at hmmi
  cases hexecute : e.execute (dispatchRequest b) (asked p b c) with
  | ok _ left =>
    rw [hexecute] at hmmi
    exact Step.focus_of_ok hmmi
  | error _ left =>
    rw [hexecute] at hmmi
    exact Step.focus_of_error hmmi

theorem sendDispatch_call :
    sendCall? p (dispatchRequest b) (.ofNat (CommHeader.size + 1))
        (c.request b Guid.driverDispatch [dispatchError]) =
      some (.execute (dispatchRequest b) (asked p b c)
        (Step.succeeds (e.execute (dispatchRequest b)) (asked p b c))) := by
  rw [sendCall?, if_pos (dispatchRequest_holds hroom), if_pos (dispatch_route hroute), mailboxCall?,
    hexecutor]
  rfl

variable (hhead : c.buffers.head?.map CommBuffer.vacant = some b.vacant)
include hhead

theorem signal_by_executor :
    ∃ b', c.buffers.head? = some b' ∧
      requestCall? p b'.id [dispatchError] Guid.driverDispatch c =
        some (.execute (dispatchRequest b) (asked p b c)
          (Step.succeeds (e.execute (dispatchRequest b)) (asked p b c))) ∧
      signal p Guid.driverDispatch [dispatchError] c =
        match e.execute (dispatchRequest b) (asked p b c) with
        | .ok () left => returned (interpret b left.memory
            (marked (left.cores p.core).status, (left.cores p.core).bufferSize)) (answered p b c left)
        | .error _ left => .error (.error .swMmiFailed) (answered p b c left) := by
  obtain ⟨b', hb', hlength, hsame⟩ := exists_head hhead
  obtain ⟨hfilled, hrequest⟩ := hsame Guid.driverDispatch [dispatchError]
  have hable : p.able = true := by
    rw [CommParts.able, hexecutor]
    rfl
  have hroom' : CommHeader.size + [dispatchError].length ≤ b'.length := hlength ▸ hroom
  refine ⟨b', hb', ?_, ?_⟩
  · rw [requestCall?, prepare_of_find hable (List.cons_ne_nil _ _) (find?_of_head? hb') hroom']
    dsimp only
    rw [hfilled, hrequest]
    exact sendDispatch_call hexecutor hroom hroute
  · have hsend : send p (b.filled Guid.driverDispatch [dispatchError])
        (.ofNat (CommHeader.size + [dispatchError].length))
        (c.request b Guid.driverDispatch [dispatchError]) = _ := sendDispatch_eq hexecutor hroom hroute
    rw [signal_of_head hb', communicate_of_find hable (List.cons_ne_nil _ _) (find?_of_head? hb')
      hroom', hfilled, hrequest, hsend]
    cases e.execute (dispatchRequest b) (asked p b c) <;> rfl

end

/-! The loop. -/

section
variable {p : CommParts ω} {b : CommBuffer} {left : Machine ω}

theorem interpret_asksAgain (h : AsksAgain p.core b left) :
    ∃ reply, interpret b left.memory
        (marked (left.cores p.core).status, (left.cores p.core).bufferSize) = .ok reply ∧
      reply.head? = some dispatchRestart := by
  have hholds : b.Holds (left.cores p.core).bufferSize := ⟨Nat.le_of_lt h.message, h.inside⟩
  have hlength : (left.cores p.core).bufferSize.toNat - CommHeader.size ≠ 0 :=
    Nat.sub_ne_zero_of_lt h.message
  refine ⟨_, ?_, (head?_message b left.memory _).trans ((if_neg hlength).trans h.restart)⟩
  rw [interpret, if_pos (marked_eq_success_iff.mpr h.success), if_pos hholds]

theorem interpret_finishes (h : Finishes p.core b left) :
    ∃ reply, interpret b left.memory
        (marked (left.cores p.core).status, (left.cores p.core).bufferSize) = .ok reply ∧
      reply.head? ≠ some dispatchRestart := by
  refine ⟨_, by rw [interpret, if_pos (marked_eq_success_iff.mpr h.success), if_pos h.holds], ?_⟩
  rw [head?_message]
  by_cases hempty : (left.cores p.core).bufferSize.toNat - CommHeader.size = 0
  · rw [if_pos hempty]
    exact (Option.some_ne_none _).symm
  · rw [if_neg hempty]
    exact h.other (by omega)

end

section
variable {p : CommParts ω} {e : MmExecutor (Machine ω)} {b : CommBuffer} {c c' : Communicator ω}
  (hexecutor : p.executor = some e) (hroom : CommHeader.size + 1 ≤ b.length)
  (hroute : usesMailbox p c.machine = true)
  (hhead : c.buffers.head?.map CommBuffer.vacant = some b.vacant)
include hexecutor hroom hroute hhead

theorem signal_noted_dispatch (old : List (CommCall ω)) :
    signal p.noting Guid.driverDispatch [dispatchError] (c.noted old) =
      Step.mapState (noted · (.execute (dispatchRequest b) (asked p b c)
        (Step.succeeds (e.execute (dispatchRequest b)) (asked p b c)) :: old))
        (signal p Guid.driverDispatch [dispatchError] c) := by
  obtain ⟨b', hb', hcall, -⟩ := signal_by_executor hexecutor hroom hroute hhead
  rw [signal_noted p hb', hcall]
  rfl

/-- A round of the loop: one call of the executor, and one attempt to close the window. -/
theorem dispatchFrom_again {left : Machine ω}
    (hexecute : e.execute (dispatchRequest b) (asked p b c) = .ok () left)
    (hrestart : AsksAgain p.core b left) (restarts patience : Nat) (old : List (CommCall ω)) :
    dispatchFrom p.noting restarts (patience + 1) (c.noted old) =
      dispatchFrom p.noting (restarts + 1) patience ((closed p (answered p b c left)).noted
        ((roundCalls p b ⟨asked p b c, left⟩).reverse ++ old)) := by
  have hsucceeds : Step.succeeds (e.execute (dispatchRequest b)) (asked p b c) = true :=
    Step.succeeds_iff.mpr ⟨_, _, hexecute⟩
  obtain ⟨reply, hreply, hagain⟩ := interpret_asksAgain hrestart
  obtain ⟨-, -, -, hsignal⟩ := signal_by_executor hexecutor hroom hroute hhead
  have hnoted := signal_noted_dispatch hexecutor hroom hroute hhead old
  rw [hsignal, hexecute, hsucceeds] at hnoted
  dsimp only at hnoted
  rw [hreply] at hnoted
  have hcalls : (roundCalls p b ⟨asked p b c, left⟩).reverse ++ old =
      closeAttempt p left.world ++ .execute (dispatchRequest b) (asked p b c) true :: old := by
    rw [roundCalls, closeAttempt, List.reverse_cons, List.append_assoc]
    split <;> rfl
  rw [dispatchFrom]
  refine (Step.bind_of_ok hnoted).trans ?_
  rw [if_pos hagain]
  refine (Step.bind_of_ok (close_eq p.noting _)).trans ?_
  rw [close_noted, hcalls]
  rfl

theorem dispatchFrom_last {answer : Except CommError Bytes}
    (hanswer : signal p Guid.driverDispatch [dispatchError] c = returned answer c')
    (hlast : ∀ reply, answer = .ok reply → reply.head? ≠ some dispatchRestart)
    (restarts patience : Nat) (old : List (CommCall ω)) :
    dispatchFrom p.noting restarts (patience + 1) (c.noted old) =
      returned (answer.map fun _ => restarts) (c'.noted (.execute (dispatchRequest b) (asked p b c)
        (Step.succeeds (e.execute (dispatchRequest b)) (asked p b c)) :: old)) := by
  have hnoted := signal_noted_dispatch hexecutor hroom hroute hhead old
  rw [hanswer] at hnoted
  rw [dispatchFrom]
  cases answer with
  | ok reply =>
    refine (Step.bind_of_ok hnoted).trans ?_
    rw [if_neg (hlast reply rfl)]
    rfl
  | error err => exact Step.bind_of_error hnoted

end

section
variable {p : CommParts ω} {e : MmExecutor (Machine ω)} {b : CommBuffer} {c c' d : Communicator ω}
  {rounds : List (DispatchRound ω)}

theorem head?_round (hhead : c.buffers.head?.map CommBuffer.vacant = some b.vacant)
    (left : Machine ω) :
    (closed p (answered p b c left)).buffers.head?.map CommBuffer.vacant = some b.vacant := by
  rw [closed_buffers]
  exact head?_answered hhead left

theorem Restarts.head? (h : Restarts p e b c rounds d)
    (hhead : c.buffers.head?.map CommBuffer.vacant = some b.vacant) :
    d.buffers.head?.map CommBuffer.vacant = some b.vacant := by
  induction h with
  | none => exact hhead
  | again _ _ _ _ ih => exact ih (head?_round hhead _)

theorem Restarts.asks (h : Restarts p e b c rounds d) (hroom : CommHeader.size + 1 ≤ b.length) :
    ∀ r ∈ rounds, AsksDispatch p.core b r.found := by
  induction h with
  | none => exact List.forall_mem_nil _
  | again _ _ _ _ ih => exact List.forall_mem_cons.mpr ⟨asked_asks hroom _, ih⟩

theorem dispatchFrom_restarts (h : Restarts p e b c rounds d) (hexecutor : p.executor = some e)
    (hroom : CommHeader.size + 1 ≤ b.length)
    (hhead : c.buffers.head?.map CommBuffer.vacant = some b.vacant) (restarts patience : Nat)
    (old : List (CommCall ω)) :
    dispatchFrom p.noting restarts (rounds.length + patience) (c.noted old) =
      dispatchFrom p.noting (restarts + rounds.length) patience
        (d.noted ((rounds.flatMap (roundCalls p b)).reverse ++ old)) := by
  induction h generalizing restarts old with
  | none =>
    rw [List.length_nil, Nat.zero_add]
    rfl
  | @again c d left rounds route execute restart _ ih =>
    rw [List.length_cons, Nat.add_right_comm,
      dispatchFrom_again hexecutor hroom route hhead execute restart, ih (head?_round hhead left),
      List.flatMap_cons, List.reverse_append, List.append_assoc, Nat.add_assoc, Nat.add_comm 1]

theorem calls_runDispatcher {log : List (CommCall ω)} {r : Except CommError Nat}
    (h : dispatchFrom p.noting 0 p.patience (c.noted []) = returned r (c'.noted log)) :
    runDispatcher p c = returned r c' ∧ calls p .runDispatcher c = log := by
  have hfollows := dispatchFrom_follows p.noting_mirrors p.patience 0 (c.noted [])
  rw [h] at hfollows
  rw [calls_eq, perform, Step.after_bind_pure]
  have hafter : Step.after (runDispatcher p.noting) (c.noted []) = c'.noted log := by
    cases r with
    | ok a => exact Step.after_of_ok h
    | error err => exact Step.after_of_error h
  rw [hafter]
  cases r with
  | ok a => exact ⟨hfollows, rfl⟩
  | error err => exact ⟨hfollows, rfl⟩

theorem runDispatcher_last (hrestarts : Restarts p e b c rounds d) (hexecutor : p.executor = some e)
    (hroom : CommHeader.size + 1 ≤ b.length)
    (hhead : c.buffers.head?.map CommBuffer.vacant = some b.vacant)
    (hroute : usesMailbox p d.machine = true) (hpatience : rounds.length < p.patience)
    {answer : Except CommError Bytes}
    (hanswer : signal p Guid.driverDispatch [dispatchError] d = returned answer c')
    (hlast : ∀ reply, answer = .ok reply → reply.head? ≠ some dispatchRestart) :
    runDispatcher p c = returned (answer.map fun _ => rounds.length) c' ∧
      (calls p .runDispatcher c).reverse = rounds.flatMap (roundCalls p b) ++
        [.execute (dispatchRequest b) (asked p b d)
          (Step.succeeds (e.execute (dispatchRequest b)) (asked p b d))] := by
  obtain ⟨patience, hleft⟩ := Nat.exists_eq_add_of_lt hpatience
  have hrounds := dispatchFrom_restarts hrestarts hexecutor hroom hhead 0 (patience + 1) []
  rw [← Nat.add_assoc, ← hleft, Nat.zero_add, dispatchFrom_last hexecutor hroom hroute
    (hrestarts.head? hhead) hanswer hlast] at hrounds
  obtain ⟨hend, hcalls⟩ := calls_runDispatcher hrounds
  refine ⟨hend, ?_⟩
  rw [hcalls, List.append_nil, List.reverse_cons, List.reverse_reverse]

/-- While the core asks for another dispatch, each request is followed by one attempt to close the
window, which may fail, and then by the next request. The loop ends with the first request that is
answered otherwise: it counts the requests before, or reports the error. Each request is for a
dispatch and carries nothing else. -/
theorem runDispatcher_restarts (hexecutor : p.executor = some e) (hhead : c.buffers.head? = some b)
    (hroom : CommHeader.size + 1 ≤ b.length) (hrestarts : Restarts p e b c rounds d)
    (hroute : usesMailbox p d.machine = true) (hpatience : rounds.length < p.patience) :
    (∀ left, e.execute (dispatchRequest b) (asked p b d) = .ok () left → Finishes p.core b left →
      runDispatcher p c = .ok rounds.length (answered p b d left) ∧
      (calls p .runDispatcher c).reverse = rounds.flatMap (roundCalls p b) ++
        [.execute (dispatchRequest b) (asked p b d) true]) ∧
    (∀ err c', signal p Guid.driverDispatch [dispatchError] d = .error (.error err) c' →
      runDispatcher p c = .error (.error err) c' ∧
      (calls p .runDispatcher c).reverse = rounds.flatMap (roundCalls p b) ++
        [.execute (dispatchRequest b) (asked p b d)
          (Step.succeeds (e.execute (dispatchRequest b)) (asked p b d))]) ∧
    (∀ r ∈ rounds, AsksDispatch p.core b r.found) ∧ AsksDispatch p.core b (asked p b d) := by
  have hvacant : c.buffers.head?.map CommBuffer.vacant = some b.vacant := by
    rw [hhead]
    rfl
  refine ⟨fun left hexecute hfinishes => ?_, fun err c' hfails => ?_, hrestarts.asks hroom,
    asked_asks hroom d⟩
  · obtain ⟨-, -, -, hsignal⟩ :=
      signal_by_executor hexecutor hroom hroute (hrestarts.head? hvacant)
    obtain ⟨reply, hreply, hother⟩ := interpret_finishes hfinishes
    rw [hexecute] at hsignal
    dsimp only at hsignal
    rw [hreply] at hsignal
    obtain ⟨hend, hcalls⟩ := runDispatcher_last hrestarts hexecutor hroom hvacant hroute hpatience
      hsignal fun _ heq => Except.ok.inj heq ▸ hother
    rw [Step.succeeds_iff.mpr ⟨_, _, hexecute⟩] at hcalls
    exact ⟨hend, hcalls⟩
  · have hanswer : signal p Guid.driverDispatch [dispatchError] d = returned (.error err) c' := hfails
    exact runDispatcher_last hrestarts hexecutor hroom hvacant hroute hpatience hanswer
      fun _ heq => nomatch heq

end

def recur (last : Status) (b : CommBuffer) (m : Machine Nat) : Machine Nat :=
  { m.updateCore 0x100 (·.reply 25 (if m.world < 2 then Status.success else last)) with
    memory := m.memory.write (b.start + CommHeader.size)
      [if m.world < 2 then dispatchRestart else dispatchSuccess]
    world := m.world + 1 }

def recurring (last : Status) : CommParts Nat :=
  ⟨0x100, ⟨pure (), fun w => if w = 1 then .error .deviceError w else .ok () w, pure (),
    fun _ => true, fun _ => false⟩, some ⟨fun b m => .ok () (recur last b m)⟩, none, 5⟩

def recurred (last : Status) : Nat → Communicator Nat
  | 0 => .new [.new 0x1000 7 64] ((Machine.new 0 0).putCore 0x100 { CoreRecord.new with registered := true })
  | n + 1 => closed (recurring last) (answered (recurring last) (.new 0x1000 7 64) (recurred last n)
      (recur last (dispatchRequest (.new 0x1000 7 64))
        (asked (recurring last) (.new 0x1000 7 64) (recurred last n))))

theorem runDispatcher_restarts_twice :
    ((∃ c', runDispatcher (recurring Status.success) (recurred Status.success 0) = .ok 2 c') ∧
      (calls (recurring Status.success) .runDispatcher (recurred Status.success 0)).reverse.map
        CommCall.delivered = [true, false, true, false, true]) ∧
    (∃ c', runDispatcher (recurring 4) (recurred 4 0) =
        .error (.error (.mmHandlerFailed 0x8000000000000004)) c') ∧
      (calls (recurring 4) .runDispatcher (recurred 4 0)).reverse.map CommCall.delivered =
        [true, false, true, false, true] := by
  constructor
  · have hrestarts : Restarts (recurring Status.success)
        ⟨fun b m => .ok () (recur Status.success b m)⟩ (.new 0x1000 7 64)
        (recurred Status.success 0) _ (recurred Status.success 2) :=
      .again rfl rfl ⟨rfl, by decide +kernel, by decide +kernel, by decide +kernel⟩
        (.again rfl rfl ⟨rfl, by decide +kernel, by decide +kernel, by decide +kernel⟩ .none)
    obtain ⟨hfinishes, -⟩ := runDispatcher_restarts rfl rfl (by decide) hrestarts rfl (by decide)
    obtain ⟨hend, hcalls⟩ := hfinishes _ rfl ⟨rfl, by decide +kernel, by decide +kernel⟩
    refine ⟨⟨_, hend⟩, ?_⟩
    rw [hcalls]
    rfl
  · have hrestarts : Restarts (recurring 4) ⟨fun b m => .ok () (recur 4 b m)⟩ (.new 0x1000 7 64)
        (recurred 4 0) _ (recurred 4 2) :=
      .again rfl rfl ⟨rfl, by decide +kernel, by decide +kernel, by decide +kernel⟩
        (.again rfl rfl ⟨rfl, by decide +kernel, by decide +kernel, by decide +kernel⟩ .none)
    obtain ⟨-, hfails, -⟩ := runDispatcher_restarts rfl rfl (by decide) hrestarts rfl (by decide)
    obtain ⟨-, -, -, hsignal⟩ := signal_by_executor
      (show (recurring 4).executor = some ⟨fun b m => .ok () (recur 4 b m)⟩ from rfl)
      (show CommHeader.size + 1 ≤ (CommBuffer.new 0x1000 7 64).length by decide)
      (show usesMailbox (recurring 4) (recurred 4 2).machine = true from rfl) rfl
    obtain ⟨hend, hcalls⟩ := hfails (.mmHandlerFailed 0x8000000000000004) _ hsignal
    refine ⟨⟨_, hend⟩, ?_⟩
    rw [hcalls]
    rfl

end Communicator
end PlatformInit
