import PlatformInit.Proofs.Mm.ReadyToLock

/-!
What a start tells the MM core.

A start sends one message after another and passes over what becomes of each. `Conversation` says what
this makes of any list of messages: every message is sent once, in its turn, to the communicator that
the one before left, and then one dispatch is run. Nothing but a halt in the middle of a message cuts
it short.
-/
set_option autoImplicit false
namespace PlatformInit

open Step (Follows Keeps)

structure Message where
  recipient : Guid
  data : Bytes
  deriving DecidableEq

def Message.ofRecord? : Hob → Option Message
  | .nestedVolume base length _ _ => some ⟨Guid.volumeDispatch, le64 base ++ le64 length⟩
  | _ => none

/-- A message that was sent, the communicator that it found, and the answer to it. -/
structure Exchange (ω : Type) where
  message : Message
  found : Communicator ω
  answer : Except CommError Bytes

/-- The call by which the message reached the MM side: none if it could not be put before it. -/
def Exchange.call? {ω : Type} (p : CommParts ω) (x : Exchange ω) : Option (CommCall ω) :=
  Communicator.signalCall? p x.message.recipient x.message.data x.found

def Exchange.calls {ω : Type} (p : CommParts ω) (log : List (Exchange ω)) : List (CommCall ω) :=
  log.flatMap fun x => (x.call? p).toList

theorem Exchange.calls_append_reverse {ω : Type} (p : CommParts ω) (log log' : List (Exchange ω))
    (old : List (CommCall ω)) : (calls p (log ++ log')).reverse ++ old =
      (calls p log').reverse ++ ((calls p log).reverse ++ old) := by
  rw [calls, List.flatMap_append, List.reverse_append, List.append_assoc]
  rfl

/-- The call is the request of `message` in a buffer that holds nothing else. -/
def CommCall.Carries {ω : Type} (core : UInt64) (message : Message) (call : CommCall ω) : Prop :=
  ∃ b, call.Names core b message.recipient message.data ∧ call.request? core b =
    some (b.requestBytes message.recipient message.data, .ofNat (CommHeader.size + message.data.length))

namespace Communicator
variable {ω κ ε α : Type}

def dispatchMessage : Message := ⟨Guid.driverDispatch, [dispatchError]⟩

/-- Messages are sent one after another, whatever is answered to each. -/
inductive Tells (p : CommParts ω) : Communicator ω → List (Exchange ω) → Communicator ω → Prop where
  | done {c : Communicator ω} : Tells p c [] c
  | next {c c' d : Communicator ω} {m : Message} {answer : Except CommError Bytes}
      {log : List (Exchange ω)} (sent : signal p m.recipient m.data c = returned answer c')
      (rest : Tells p c' log d) : Tells p c (⟨m, c, answer⟩ :: log) d

/-- The calls of messages and of the dispatch that follows them, oldest first, and how it ends. -/
inductive Conversation (p : CommParts ω) (c : Communicator ω) (messages : List Message) :
    List (CommCall ω) → Except Halt (Communicator ω) → Prop where
  | held {d e : Communicator ω} {log : List (Exchange ω)} {answer : Except CommError Nat}
      (tells : Tells p c log d) (told : log.map Exchange.message = messages)
      (dispatch : runDispatcher p d = returned answer e) :
      Conversation p c messages (Exchange.calls p log ++ (calls p .runDispatcher d).reverse) (.ok e)
  | messageHalts {d e : Communicator ω} {log : List (Exchange ω)} {m : Message} {rest : List Message}
      {why : Halt} (tells : Tells p c log d) (told : log.map Exchange.message ++ m :: rest = messages)
      (halts : signal p m.recipient m.data d = .error (.halt why) e) :
      Conversation p c messages
        (Exchange.calls p log ++ (signalCall? p m.recipient m.data d).toList) (.error why)
  | dispatchHalts {d e : Communicator ω} {log : List (Exchange ω)} {why : Halt}
      (tells : Tells p c log d) (told : log.map Exchange.message = messages)
      (halts : runDispatcher p d = .error (.halt why) e) :
      Conversation p c messages (Exchange.calls p log ++ (calls p .runDispatcher d).reverse) (.error why)

theorem Tells.append {p : CommParts ω} {c d e : Communicator ω} {log log' : List (Exchange ω)}
    (h : Tells p c log d) (h' : Tells p d log' e) : Tells p c (log ++ log') e := by
  induction h with
  | done => exact h'
  | next sent _ ih => exact .next sent (ih h')

theorem tells_or_halts (p : CommParts ω) (messages : List Message) (c : Communicator ω) :
    (∃ log d, Tells p c log d ∧ log.map Exchange.message = messages) ∨
    ∃ log d m rest why e, Tells p c log d ∧ log.map Exchange.message ++ m :: rest = messages ∧
      signal p m.recipient m.data d = .error (.halt why) e := by
  induction messages generalizing c with
  | nil => exact .inl ⟨[], c, .done, rfl⟩
  | cons m messages ih =>
    have hnext (answer : Except CommError Bytes) {c' : Communicator ω}
        (hsent : signal p m.recipient m.data c = returned answer c') :
        (∃ log d, Tells p c log d ∧ log.map Exchange.message = m :: messages) ∨
        ∃ log d m' rest why e, Tells p c log d ∧
          log.map Exchange.message ++ m' :: rest = m :: messages ∧
          signal p m'.recipient m'.data d = .error (.halt why) e := by
      rcases ih c' with ⟨log, d, htells, rfl⟩ | ⟨log, d, m', rest, why, e, htells, rfl, hhalts⟩
      · exact .inl ⟨_, d, .next hsent htells, rfl⟩
      · exact .inr ⟨_, d, m', rest, why, e, .next hsent htells, rfl, hhalts⟩
    cases hsignal : signal p m.recipient m.data c with
    | ok reply c' => exact hnext (.ok reply) hsignal
    | error e c' =>
      cases e with
      | error e => exact hnext (.error e) hsignal
      | halt why => exact .inr ⟨[], c, m, messages, why, c', .done, rfl, hsignal⟩

/-! The notes of a dispatch do not depend on the notes before it. -/

theorem mapState_returned (answer : Except ε α) (c : Communicator ω) (calls : List κ) :
    Step.mapState (noted · calls) (returned answer c) = returned answer (c.noted calls) := by
  cases answer <;> rfl

def addNotes (old : List κ) (c : Communicator (Noted ω κ)) : Communicator (Noted ω κ) :=
  c.bare.noted (c.machine.world.calls ++ old)

theorem signal_note (p : CommParts ω) (m : Message) (c : Communicator ω) (old : List (CommCall ω)) :
    signal p.noting m.recipient m.data (c.noted old) =
      Step.mapState (noted · ((signalCall? p m.recipient m.data c).toList ++ old))
        (signal p m.recipient m.data c) :=
  noted_eq (signal_follows p.noting_mirrors m.recipient m.data) (calls_after_signal p _ _ (c.noted old))

theorem signal_addNotes (p : CommParts ω) (m : Message) (old : List (CommCall ω)) :
    Follows (addNotes old) (signal p.noting m.recipient m.data)
      (signal p.noting m.recipient m.data) := by
  intro c
  have hself : c = c.bare.noted c.machine.world.calls := rfl
  have hnoted := signal_note p m c.bare c.machine.world.calls
  rw [← hself] at hnoted
  rw [addNotes, signal_note, hnoted, ← List.append_assoc]
  cases signal p m.recipient m.data c.bare <;> rfl

theorem closeWindow_addNotes (p : CommParts ω) (old : List (CommCall ω)) :
    Follows (addNotes old)
      (onMachine (Machine.onWorld p.noting.access.closeWindow) : Step _ EfiError Unit)
      (onMachine (Machine.onWorld p.noting.access.closeWindow)) := by
  let add (n : Noted ω (CommCall ω)) : Noted ω (CommCall ω) := ⟨n.world, n.calls ++ old⟩
  have hhide : Follows add p.noting.access.hide p.noting.access.hide := by
    intro n
    change Noted.call (.window .hide) p.access.hide (add n) =
      Step.mapState add (Noted.call (.window .hide) p.access.hide n)
    unfold Noted.call
    cases p.access.hide n.world <;> rfl
  have hclose : Follows add p.noting.access.closeWindow p.noting.access.closeWindow :=
    Follows.get_bind fun _ => Follows.ite (Follows.fail _) (Follows.ofAttempt hhide)
  have hmachine : Follows (fun m : Machine (Noted ω (CommCall ω)) => { m with world := add m.world })
      (Machine.onWorld p.noting.access.closeWindow) (Machine.onWorld p.noting.access.closeWindow) :=
    Follows.focus (fun _ => rfl) (fun _ _ => rfl) hclose
  exact Follows.focus (fun _ => rfl) (fun _ _ => rfl) hmachine

theorem dispatchFrom_addNotes (p : CommParts ω) (old : List (CommCall ω)) (patience restarts : Nat) :
    Follows (addNotes old) (dispatchFrom p.noting restarts patience)
      (dispatchFrom p.noting restarts patience) := by
  induction patience generalizing restarts with
  | zero => exact fun _ => rfl
  | succ patience ih =>
    refine Follows.bind (signal_addNotes p dispatchMessage old) fun _ =>
      Follows.ite ?_ (Follows.pure _)
    exact Follows.bind (Follows.ignoringError (closeWindow_addNotes p old)) fun _ => ih _

theorem runDispatcher_note (p : CommParts ω) (c : Communicator ω) (old : List (CommCall ω)) :
    runDispatcher p.noting (c.noted old) =
      Step.mapState (noted · (calls p .runDispatcher c ++ old)) (runDispatcher p c) := by
  refine noted_eq (runDispatcher_follows p.noting_mirrors) ?_
  have hafter := (dispatchFrom_addNotes p old p.noting.patience 0).after (c.noted [])
  have hcalls : calls p .runDispatcher c =
      (Step.after (runDispatcher p.noting) (c.noted [])).machine.world.calls := by
    rw [calls_eq, perform, Step.after_bind_pure]
  rw [hcalls]
  exact congrArg (fun c => c.machine.world.calls) hafter

/-! What the calls carry. -/

theorem signalCall?_carries {p : CommParts ω} {m : Message} {c : Communicator ω} {call : CommCall ω}
    (h : signalCall? p m.recipient m.data c = some call) : call.Carries p.core m := by
  obtain ⟨b, -, hcall⟩ := Option.bind_eq_some_iff.mp h
  obtain ⟨b', -, hnames, hrequest⟩ := requestCall?_carries hcall
  exact ⟨b', hnames, hrequest⟩

/-- What a dispatch may call. -/
def DispatchCall (p : CommParts ω) (call : CommCall ω) : Prop :=
  (∃ w, call = .window .hide w) ∨ call.Carries p.core dispatchMessage

theorem dispatchFrom_calls (p : CommParts ω) (patience restarts : Nat) :
    Keeps (fun c => c.machine.world.All (DispatchCall p)) (dispatchFrom p.noting restarts patience) := by
  induction patience generalizing restarts with
  | zero => exact fun _ hc => hc
  | succ patience ih =>
    refine Keeps.bind (fun c hc => Step.Ends.iff_answer.mpr ?_) fun _ =>
      Keeps.ite (Keeps.bind (Keeps.ignoringError ?_) fun _ => ih _) (Keeps.pure _)
    · change ∀ call ∈ (Step.after _ c).machine.world.calls, DispatchCall p call
      rw [calls_after_signal]
      intro call hcall
      rcases List.mem_append.mp hcall with hnew | hold
      · exact .inr (signalCall?_carries (m := dispatchMessage) (Option.mem_toList.mp hnew))
      · exact hc call hold
    · intro c hc
      refine Step.Ends.focus (Step.Ends.focus (Step.Ends.iff_answer.mpr ?_))
      rw [after_closeWindow_noting]
      intro call hcall
      rcases List.mem_append.mp hcall with hnew | hold
      · rw [closeAttempt] at hnew
        split at hnew
        · cases hnew
        · exact .inl ⟨_, List.mem_singleton.mp hnew⟩
      · exact hc call hold

theorem calls_runDispatcher_dispatch (p : CommParts ω) (c : Communicator ω) :
    ∀ call ∈ calls p .runDispatcher c, DispatchCall p call := by
  rw [calls_eq, perform, Step.after_bind_pure]
  exact Step.Ends.iff_answer.mp
    (dispatchFrom_calls p p.noting.patience 0 (c.noted []) (List.forall_mem_nil _))

end Communicator

namespace Gateway
variable {ω κ : Type}

/-! Messages of a gateway. -/

def deliver (p : GatewayParts ω) (messages : List Message) : Step (Gateway ω) EfiError Unit :=
  messages.forM fun m => send p m.recipient m.data

def withComm (g : Gateway ω) (comm : Communicator ω) : Gateway ω := { g with comm }

section
variable {p : GatewayParts ω} {g : Gateway ω}

theorem notifyCore_of_returned {α : Type} {x : Step (Communicator ω) CommError α}
    {answer : Except CommError α} {c : Communicator ω} (h : x g.comm = Communicator.returned answer c) :
    notifyCore x g = .ok () (g.withComm c) := by
  have hignored : (Step.ignoringError (do let _ ← x) : Step (Communicator ω) EfiError Unit) g.comm =
      .ok () c := by
    cases answer with
    | ok a => exact Step.bind_of_ok (Step.attempt_of_ok (Step.bind_of_ok h))
    | error e => exact Step.bind_of_ok (Step.attempt_of_error (Step.bind_of_error h))
  unfold notifyCore onComm
  exact Step.focus_of_ok hignored

theorem notifyCore_of_halt {α : Type} {x : Step (Communicator ω) CommError α} {why : Halt}
    {c : Communicator ω} (h : x g.comm = .error (.halt why) c) :
    notifyCore x g = .error (.halt why) (g.withComm c) := by
  have hignored : (Step.ignoringError (do let _ ← x) : Step (Communicator ω) EfiError Unit) g.comm =
      .error (.halt why) c := Step.bind_of_error (Step.attempt_of_halt (Step.bind_of_error h))
  unfold notifyCore onComm
  exact Step.focus_of_error hignored

theorem send_note (m : Message) (old : List (CommCall ω))
    {answer : Except CommError Bytes} {c c' : Communicator ω}
    (h : Communicator.signal p.comm m.recipient m.data c = Communicator.returned answer c') :
    send p.noting m.recipient m.data ((g.withComm c).noted old) = .ok () ((g.withComm c').noted
      ((Communicator.signalCall? p.comm m.recipient m.data c).toList ++ old)) := by
  have hnoted := Communicator.signal_note p.comm m c old
  rw [h, Communicator.mapState_returned] at hnoted
  exact notifyCore_of_returned hnoted

theorem deliver_tells {c d : Communicator ω} {log : List (Exchange ω)}
    (h : Communicator.Tells p.comm c log d) (rest : List Message) (old : List (CommCall ω)) :
    deliver p.noting (log.map Exchange.message ++ rest) ((g.withComm c).noted old) =
      deliver p.noting rest ((g.withComm d).noted ((Exchange.calls p.comm log).reverse ++ old)) := by
  induction h generalizing old with
  | done => rfl
  | @next c c' d m answer log sent _ ih =>
    refine (Step.bind_of_ok (send_note m _ sent)).trans ((ih _).trans ?_)
    rw [Exchange.calls, Exchange.calls, List.flatMap_cons, List.reverse_append, List.append_assoc,
      Exchange.call?]
    cases Communicator.signalCall? p.comm m.recipient m.data c <;> rfl

theorem deliver_halts {c d e : Communicator ω} {log : List (Exchange ω)} {m : Message} {why : Halt}
    (htells : Communicator.Tells p.comm c log d)
    (hhalts : Communicator.signal p.comm m.recipient m.data d = .error (.halt why) e)
    (rest : List Message) (old : List (CommCall ω)) :
    deliver p.noting (log.map Exchange.message ++ m :: rest) ((g.withComm c).noted old) =
      .error (.halt why) ((g.withComm e).noted ((Exchange.calls p.comm log ++
        (Communicator.signalCall? p.comm m.recipient m.data d).toList).reverse ++ old)) := by
  have hnoted := Communicator.signal_note p.comm m d ((Exchange.calls p.comm log).reverse ++ old)
  rw [hhalts] at hnoted
  refine (deliver_tells htells _ old).trans (Step.bind_of_error ?_)
  rw [List.reverse_append, List.append_assoc]
  refine (notifyCore_of_halt hnoted).trans ?_
  cases Communicator.signalCall? p.comm m.recipient m.data d <;> rfl

end

/-! A first start, as messages. -/

/-- What an early lock tells the core. -/
def lockMessages (installed : Bool) : List Message :=
  if installed then [⟨Guid.readyToLock, [0]⟩] else []

/-- What a start tells the core of the environment. -/
def environmentMessages (hobs : HobList) (systemTable : UInt64) : List Message :=
  ⟨Guid.systemTableInfo, le64 systemTable⟩ :: hobs.filterMap Message.ofRecord?

/-- The gateway when a start comes to its messages. Its rules are in force, and the chipset was asked
to lock if the ready-to-lock protocol is installed. -/
def greeted (p : GatewayParts ω) (g : Gateway ω) : Gateway ω :=
  let opened := { g with subscribed := List.replicate EventRule.all.length true }
  if (p.isInstalled Guid.readyToLock g.world).1 then shut p (.protocol Guid.readyToLock) opened
  else opened.withWorld (p.isInstalled Guid.readyToLock g.world).2

def greetingCalls (p : GatewayParts ω) (g : Gateway ω) : List (CommCall ω) :=
  if (p.isInstalled Guid.readyToLock g.world).1 then lockAttempt p (.protocol Guid.readyToLock) g else []

def converse (p : GatewayParts ω) (installed : Bool) (messages : List Message) :
    Step (Gateway ω) EfiError Unit := do
  deliver p (lockMessages installed)
  modify fun g => { g with locked := installed }
  deliver p messages
  dispatchDrivers p

theorem introduce_eq (p : GatewayParts ω) (hobs : HobList) (systemTable : UInt64) :
    introduce p hobs systemTable = (do
      deliver p (environmentMessages hobs systemTable)
      dispatchDrivers p) := by
  have hvolumes : (hobs.nestedVolumes.forM fun volume =>
      send p Guid.volumeDispatch (le64 volume.1 ++ le64 volume.2.1)) =
        deliver p (hobs.filterMap Message.ofRecord?) := by
    induction hobs with
    | nil => rfl
    | cons hob hobs ih =>
      cases hob with
      | nestedVolume base length volumeName fileName =>
        change (send p Guid.volumeDispatch (le64 base ++ le64 length) >>= fun _ => _) =
          (send p Guid.volumeDispatch (le64 base ++ le64 length) >>= fun _ => _)
        exact congrArg _ (funext fun _ => ih)
      | _ => exact ih
  change (do
    send p Guid.systemTableInfo (le64 systemTable)
    hobs.nestedVolumes.forM fun volume =>
      send p Guid.volumeDispatch (le64 volume.1 ++ le64 volume.2.1)
    dispatchDrivers p) = _
  rw [hvolumes]
  exact (bind_assoc (send p Guid.systemTableInfo (le64 systemTable)) _ _).symm

theorem start_eq_converse (p : GatewayParts ω) {hobs : HobList} (systemTable : UInt64) {g : Gateway ω}
    (hcore : (hobs.dataOf? Guid.mmCoreData).isSome = true) (hunlocked : g.locked = false) :
    start p hobs systemTable g = converse p (p.isInstalled Guid.readyToLock g.world).1
      (environmentMessages hobs systemTable) (greeted p g) := by
  let opened : Gateway ω := { g with subscribed := List.replicate EventRule.all.length true }
  have hopened : ¬opened.locked = true := Bool.eq_false_iff.mp hunlocked
  have hready := readyToLock_eq p (.protocol Guid.readyToLock) opened
  rw [if_neg hopened] at hready
  rw [start_eq, if_pos hcore, greeted, introduce_eq]
  by_cases hinstalled : (p.isInstalled Guid.readyToLock g.world).1 = true
  · have hhappened : (probe p (.protocol Guid.readyToLock) opened.world).1 = true := hinstalled
    rw [if_pos hhappened] at hready
    rw [if_pos hinstalled, hinstalled]
    refine (Step.bind_congr hready).trans ?_
    change _ = ((send p Guid.readyToLock [0] >>= fun _ => pure PUnit.unit) >>= _) _
    rw [bind_assoc, bind_assoc]
    rfl
  · have hwaits : ¬(probe p (.protocol Guid.readyToLock) opened.world).1 = true := hinstalled
    rw [if_neg hwaits] at hready
    rw [if_neg hinstalled, Bool.eq_false_iff.mpr hinstalled]
    have hsame : { opened.withWorld (p.isInstalled Guid.readyToLock g.world).2 with locked := false } =
        opened.withWorld (p.isInstalled Guid.readyToLock g.world).2 := by
      rw [← hunlocked]
      rfl
    refine (Step.bind_of_ok hready).trans ?_
    refine Eq.trans ?_ (Step.bind_of_ok rfl).symm
    exact (congrArg (do deliver p (environmentMessages hobs systemTable); dispatchDrivers p :
      Step (Gateway ω) EfiError Unit) hsame).symm

theorem greeted_noted (p : GatewayParts ω) (g : Gateway ω) :
    greeted p.noting (g.noted []) = (greeted p g).noted (greetingCalls p g) := by
  have hprobe : p.noting.isInstalled Guid.readyToLock (g.noted ([] : List (CommCall ω))).world =
      ((p.isInstalled Guid.readyToLock g.world).1, ⟨(p.isInstalled Guid.readyToLock g.world).2, []⟩) :=
    rfl
  rw [greeted, greeted, greetingCalls, hprobe]
  dsimp only
  split
  · exact shut_noted p (.protocol Guid.readyToLock)
      { g with subscribed := List.replicate EventRule.all.length true }
  · rfl

/-- How a conversation with notes ends, by what it made of the communicator. -/
def Closes (g : Gateway ω) (installed : Bool) (old made : List (CommCall ω)) :
    Except Halt (Communicator ω) →
      EStateM.Result (Fault EfiError) (Gateway (Noted ω (CommCall ω))) Unit → Prop
  | .ok e, r => r = .ok () (({ g with locked := installed }.withComm e).noted (made.reverse ++ old))
  | .error why, r => ∃ t, r = .error (.halt why) t ∧ t.comm.machine.world.calls = made.reverse ++ old

theorem dispatchDrivers_closes (p : GatewayParts ω) (g : Gateway ω) {c d : Communicator ω}
    {messages : List Message} {log : List (Exchange ω)} (old : List (CommCall ω))
    (htells : Communicator.Tells p.comm c log d) (htold : log.map Exchange.message = messages) :
    ∃ made ending, Communicator.Conversation p.comm c messages made ending ∧
      Closes g g.locked old made ending (dispatchDrivers p.noting
        ((g.withComm d).noted ((Exchange.calls p.comm log).reverse ++ old))) := by
  have hnoted := Communicator.runDispatcher_note p.comm d ((Exchange.calls p.comm log).reverse ++ old)
  have hcalls : Communicator.calls p.comm .runDispatcher d ++
      ((Exchange.calls p.comm log).reverse ++ old) = (Exchange.calls p.comm log ++
        (Communicator.calls p.comm .runDispatcher d).reverse).reverse ++ old := by
    rw [List.reverse_append, List.reverse_reverse, List.append_assoc]
  rw [hcalls] at hnoted
  have hheld (answer : Except CommError Nat) {e : Communicator ω}
      (hend : Communicator.runDispatcher p.comm d = Communicator.returned answer e) :
      ∃ made ending, Communicator.Conversation p.comm c messages made ending ∧
        Closes g g.locked old made ending (dispatchDrivers p.noting
          ((g.withComm d).noted ((Exchange.calls p.comm log).reverse ++ old))) := by
    rw [hend, Communicator.mapState_returned] at hnoted
    exact ⟨_, .ok e, .held htells htold hend, notifyCore_of_returned hnoted⟩
  cases hend : Communicator.runDispatcher p.comm d with
  | ok restarts e => exact hheld (.ok restarts) hend
  | error why e =>
    cases why with
    | error err => exact hheld (.error err) hend
    | halt why =>
      rw [hend] at hnoted
      exact ⟨_, .error why, .dispatchHalts htells htold hend, _, notifyCore_of_halt hnoted, rfl⟩

theorem converse_closes (p : GatewayParts ω) (installed : Bool) (messages : List Message)
    (g : Gateway ω) (old : List (CommCall ω)) :
    ∃ made ending,
      Communicator.Conversation p.comm g.comm (lockMessages installed ++ messages) made ending ∧
        Closes g installed old made ending (converse p.noting installed messages (g.noted old)) := by
  rcases Communicator.tells_or_halts p.comm (lockMessages installed) g.comm with
    ⟨log, d, htells, htold⟩ | ⟨log, d, m, rest, why, e, htells, htold, hhalts⟩
  · have hlock := deliver_tells (g := g) htells [] old
    rw [List.append_nil, htold] at hlock
    let settled : Gateway ω := { g with locked := installed }
    have hsettled : converse p.noting installed messages (g.noted old) =
        (do deliver p.noting messages; dispatchDrivers p.noting : Step _ EfiError Unit)
          ((settled.withComm d).noted ((Exchange.calls p.comm log).reverse ++ old)) :=
      Step.bind_of_ok hlock
    rw [hsettled]
    rcases Communicator.tells_or_halts p.comm messages d with
      ⟨log', d', htells', htold'⟩ | ⟨log', d', m, rest, why, e, htells', htold', hhalts⟩
    · have hrest := deliver_tells (g := settled) htells' []
        ((Exchange.calls p.comm log).reverse ++ old)
      rw [List.append_nil, htold', ← Exchange.calls_append_reverse] at hrest
      rw [Step.bind_of_ok hrest]
      exact dispatchDrivers_closes p settled old (htells.append htells')
        (by rw [List.map_append, htold, htold'])
    · have hrest := deliver_halts (g := settled) htells' hhalts rest
        ((Exchange.calls p.comm log).reverse ++ old)
      rw [htold'] at hrest
      rw [Step.bind_of_error hrest]
      have hall : (log ++ log').map Exchange.message ++ m :: rest =
          lockMessages installed ++ messages := by
        rw [List.map_append, htold, List.append_assoc, htold']
      refine ⟨_, .error why, .messageHalts (htells.append htells') hall hhalts, _, rfl, ?_⟩
      simp only [Exchange.calls, List.flatMap_append, List.reverse_append, List.append_assoc]
      rfl
  · have hlock := deliver_halts (g := g) htells hhalts rest old
    rw [htold] at hlock
    have hcut : converse p.noting installed messages (g.noted old) = _ := Step.bind_of_error hlock
    rw [hcut]
    have hall : log.map Exchange.message ++ m :: (rest ++ messages) =
        lockMessages installed ++ messages := by
      rw [← htold, List.append_assoc]
      rfl
    exact ⟨_, .error why, .messageHalts htells hall hhalts, _, rfl, rfl⟩

theorem Run.new_of_unstarted {p : GatewayParts ω} {env : Communicator ω → Communicator ω → Prop}
    {comm : Communicator ω} {steps : List (GatewayStep ω)} {g : Gateway ω}
    (hrun : Run p env (.new comm) steps g) (h : ∀ s ∈ steps, s.started p = false) :
    g = .new g.comm := by
  induction hrun with
  | start => rfl
  | outside _ comm _ ih => exact congrArg (·.withComm comm) (ih h)
  | @operation steps g hrun op hreturns ih =>
    have hsteps := fun s hs => h s (List.mem_cons_of_mem _ hs)
    have hnew := ih hsteps
    have hlocked : (Step.after (perform p op) g).locked = false := by
      cases perform_settles p g op with
      | rests _ hlocked _ _ => rw [hlocked, hnew, new]
      | locks hlocks _ _ _ =>
        have hidle (i : Nat) : g.isSubscribed i = false := by
          rw [isSubscribed, hrun.unstarted hsteps, List.getD_eq_getElem?_getD, List.getElem?_replicate]
          split <;> rfl
        cases hlocks.trigger with
        | started hcore _ =>
          have hunstarted := (started_eq hreturns).symm.trans (h _ List.mem_cons_self)
          exact absurd (hunstarted.symm.trans hcore) Bool.false_ne_true
        | installed hsubscribed _ => exact absurd ((hidle 0).symm.trans hsubscribed) Bool.false_ne_true
        | readyToBoot hsubscribed => exact absurd ((hidle 3).symm.trans hsubscribed) Bool.false_ne_true
    have hsubscribed := (Run.operation hrun op hreturns).unstarted h
    generalize Step.after (perform p op) g = t at hlocked hsubscribed ⊢
    cases t with
    | mk locked subscribed comm =>
      obtain rfl : locked = false := hlocked
      obtain rfl : subscribed = List.replicate EventRule.all.length false := hsubscribed
      rfl

/-- A start of an unlocked gateway, with a list that has the record of a core, is the conversation about
an early lock and the environment, and ends as that does. -/
theorem start_tells (p : GatewayParts ω) {hobs : HobList} (systemTable : UInt64) {g : Gateway ω}
    (hcore : (hobs.dataOf? Guid.mmCoreData).isSome = true) (hunlocked : g.locked = false) :
    ∃ made ending, Communicator.Conversation p.comm (greeted p g).comm
        (lockMessages (p.isInstalled Guid.readyToLock g.world).1 ++
          environmentMessages hobs systemTable) made ending ∧
      (calls p (.start hobs systemTable) g).reverse = greetingCalls p g ++ made ∧
      (∀ e, ending = .ok e → perform p (.start hobs systemTable) g =
        .ok () ⟨(p.isInstalled Guid.readyToLock g.world).1, (greeted p g).subscribed, e⟩) ∧
      (∀ why, ending = .error why →
        ∃ t, perform p (.start hobs systemTable) g = .error (.halt why) t) := by
  obtain ⟨made, ending, hconversation, hcloses⟩ := converse_closes p
    (p.isInstalled Guid.readyToLock g.world).1 (environmentMessages hobs systemTable) (greeted p g)
    (greetingCalls p g)
  have hstart : perform p.noting (.start hobs systemTable) (g.noted []) =
      converse p.noting (p.isInstalled Guid.readyToLock g.world).1
        (environmentMessages hobs systemTable) ((greeted p g).noted (greetingCalls p g)) := by
    rw [← greeted_noted]
    exact start_eq_converse p.noting systemTable hcore hunlocked
  rw [← hstart] at hcloses
  have hbare : perform p (.start hobs systemTable) g = Step.mapState bare
      (perform p.noting (.start hobs systemTable) (g.noted [])) :=
    perform_follows p.noting_mirrors (.start hobs systemTable) (g.noted [])
  have hgreeting : (greetingCalls p g).reverse = greetingCalls p g := by
    unfold greetingCalls lockAttempt
    split
    · split <;> rfl
    · rfl
  have hreverse : (made.reverse ++ greetingCalls p g).reverse = greetingCalls p g ++ made := by
    rw [List.reverse_append, List.reverse_reverse, hgreeting]
  refine ⟨made, ending, hconversation, ?_⟩
  cases ending with
  | ok e =>
    have hend : perform p.noting (.start hobs systemTable) (g.noted []) = .ok () _ := hcloses
    rw [hend] at hbare
    refine ⟨?_, ?_, ?_⟩
    · rw [calls, Step.after_of_ok hend]
      exact hreverse
    · rintro _ ⟨⟩
      exact hbare
    · rintro _ ⟨⟩
  | error why =>
    obtain ⟨t, hend, hcalls⟩ := hcloses
    rw [hend] at hbare
    refine ⟨?_, ?_, ?_⟩
    · rw [calls, Step.after_of_error hend, world, hcalls]
      exact hreverse
    · rintro _ ⟨⟩
    · rintro _ ⟨⟩
      exact ⟨_, hbare⟩

theorem start_refused (p : GatewayParts ω) {hobs : HobList} (systemTable : UInt64) (g : Gateway ω)
    (hcore : (hobs.dataOf? Guid.mmCoreData).isSome = false) :
    perform p (.start hobs systemTable) g = .error (.error .unsupported) g ∧
      calls p (.start hobs systemTable) g = [] := by
  have hstart {κ : Type} (q : GatewayParts κ) (t : Gateway κ) :
      start q hobs systemTable t = .error (.error .unsupported) t := by
    rw [start_eq, if_neg (Bool.eq_false_iff.mp hcore)]
  have hnoted : perform p.noting (.start hobs systemTable) (g.noted []) = _ :=
    hstart p.noting (g.noted [])
  refine ⟨hstart p g, ?_⟩
  rw [calls, Step.after_of_error hnoted]
  rfl

/-- What the first start of a gateway hands to the MM core. A list with the record of a core makes it
tell, in this order and each once, of an early lock if the ready-to-lock protocol is installed, of the
system table, and of each volume, and run one dispatch, whatever is answered to each. It then succeeds;
only a message in which the machine stops keeps it from that. Every call of a message carries that
message and nothing else, and a dispatch makes no calls but its requests and the attempts to close the
window. Without the record nothing is done. -/
theorem start_hands_over {p : GatewayParts ω} {env : Communicator ω → Communicator ω → Prop}
    {comm : Communicator ω} {steps : List (GatewayStep ω)} {g : Gateway ω}
    (hrun : Run p env (.new comm) steps g) (hfirst : ∀ s ∈ steps, s.started p = false)
    (hobs : HobList) (systemTable : UInt64) :
    ((hobs.dataOf? Guid.mmCoreData).isSome = true → ∃ made ending,
      Communicator.Conversation p.comm (greeted p g).comm
        (lockMessages (p.isInstalled Guid.readyToLock g.world).1 ++
          environmentMessages hobs systemTable) made ending ∧
      (calls p (.start hobs systemTable) g).reverse = greetingCalls p g ++ made ∧
      (∀ e, ending = .ok e → perform p (.start hobs systemTable) g =
        .ok () ⟨(p.isInstalled Guid.readyToLock g.world).1, (greeted p g).subscribed, e⟩) ∧
      (∀ why, ending = .error why →
        ∃ t, perform p (.start hobs systemTable) g = .error (.halt why) t)) ∧
    ((hobs.dataOf? Guid.mmCoreData).isSome = false →
      perform p (.start hobs systemTable) g = .error (.error .unsupported) g ∧
      calls p (.start hobs systemTable) g = [] ∧
      g.subscribed = List.replicate EventRule.all.length false) ∧
    (∀ m c call, Communicator.signalCall? p.comm m.recipient m.data c = some call →
      call.Carries p.comm.core m) ∧
    (∀ c, ∀ call ∈ Communicator.calls p.comm .runDispatcher c,
      Communicator.DispatchCall p.comm call) := by
  have hunlocked : g.locked = false := by rw [hrun.new_of_unstarted hfirst, new]
  refine ⟨fun hcore => start_tells p systemTable hcore hunlocked, fun hcore => ?_,
    fun _ _ _ => Communicator.signalCall?_carries, Communicator.calls_runDispatcher_dispatch p.comm⟩
  obtain ⟨hrefused, hcalls⟩ := start_refused p systemTable g hcore
  exact ⟨hrefused, hcalls, hrun.unstarted hfirst⟩

def faltering : GatewayParts (Bool × Nat) where
  comm := ⟨0x100, ⟨pure (), pure (), pure (), fun _ => true, fun _ => false⟩,
    some ⟨fun _ m =>
      let after := { m with world := (m.world.1, m.world.2 + 1) }
      if m.world.2 = 1 then .error .swMmiFailed after else .ok () after⟩, none, 1⟩
  isInstalled guid w := (guid = Guid.readyToLock && w.1, w)

def volumesHandOff : HobList :=
  [.nestedVolume 0x800000 0x4000 Guid.endOfDxe Guid.legacyBoot, .cpu 36 16,
    .guidExtension Guid.mmCoreData (le64 0x100),
    .nestedVolume 0x900000 0x8000 Guid.endOfDxe Guid.legacyBoot]

def untold : Gateway (Bool × Nat) :=
  .new (.new [.new 0x1000 7 64]
    ((Machine.new 0 (true, 0)).putCore 0x100 { CoreRecord.new with registered := true }))

theorem start_hands_over_faltering :
    Step.succeeds (perform faltering (.start volumesHandOff 0x1234)) untold = true ∧
    (calls faltering (.start volumesHandOff 0x1234) untold).reverse.map
        (fun call => (call.recipient?, call.delivered)) =
      [(none, false), (some Guid.readyToLock, true), (some Guid.systemTableInfo, false),
        (some Guid.volumeDispatch, true), (some Guid.volumeDispatch, true),
        (some Guid.driverDispatch, true)] ∧
    (∃ made ending, Communicator.Conversation faltering.comm (greeted faltering untold).comm
      [⟨Guid.readyToLock, [0]⟩, ⟨Guid.systemTableInfo, le64 0x1234⟩,
        ⟨Guid.volumeDispatch, le64 0x800000 ++ le64 0x4000⟩,
        ⟨Guid.volumeDispatch, le64 0x900000 ++ le64 0x8000⟩] made ending ∧
      (calls faltering (.start volumesHandOff 0x1234) untold).reverse =
        .window .lock (true, 0) :: made) ∧
    perform faltering (.start [.cpu 36 16] 0x1234) untold = .error (.error .unsupported) untold := by
  have hrun : Run faltering (fun _ _ => False) untold [] untold := .start
  obtain ⟨htold, -⟩ := start_hands_over hrun (List.forall_mem_nil _) volumesHandOff 0x1234
  obtain ⟨-, huntold, -⟩ := start_hands_over hrun (List.forall_mem_nil _) [.cpu 36 16] 0x1234
  obtain ⟨made, ending, hconversation, hcalls, -⟩ := htold rfl
  exact ⟨by decide +kernel, by decide +kernel, ⟨made, ending, hconversation, hcalls⟩, (huntold rfl).1⟩

end Gateway
end PlatformInit
