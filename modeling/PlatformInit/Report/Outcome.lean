import PlatformInit.Context.Arena
import PlatformInit.Hob.Codec
import PlatformInit.Report.Value
import PlatformInit.Volume.Header
import PlatformInit.Word.Align

/-!
How outcomes are reported: a value as `ok`, an error by its name and the interface error it stands
for, and a halt by its kind and its text.
-/
set_option autoImplicit false
namespace PlatformInit

class Problem (ε : Type) where
  describe : ε → Value

export Problem (describe)

namespace Problem

def efiName : EfiError → String
  | .unknown s => "Unknown(" ++ hexText s.toNat ++ ")"
  | e => e.name

def named (name : String) (efi : EfiError) : Value :=
  .record [("error", .text name), ("efi", .text (efiName efi))]

def detailed (name : String) (efi : EfiError) (message : String) : Value :=
  .record [("error", .text name), ("efi", .text (efiName efi)), ("message", .text message)]

def bare (name : String) : Value := .record [("error", .text name)]

def explained (name message : String) : Value :=
  .record [("error", .text name), ("message", .text message)]

end Problem

instance : Problem Empty := ⟨nofun⟩
instance : Problem EfiError := ⟨fun e => Problem.bare (Problem.efiName e)⟩
instance : Problem BootError := ⟨fun e => Problem.named e.name e.toEfi⟩
instance : Problem ContextError := ⟨fun e => Problem.named e.name e.toEfi⟩
instance : Problem AlignError := ⟨fun e => Problem.explained "align" e.message⟩

instance : Problem VolumeError := ⟨fun e => Problem.named e.name e.toEfi⟩

instance : Problem HobError where
  describe e :=
    match e with
    | .truncated => Problem.named "Truncated" e.toEfi
    | .invalidLength n => Problem.detailed "InvalidLength" e.toEfi (toString n.toNat)

instance : Problem Halt where
  describe
    | .overflow => Problem.explained "panic" "arithmetic overflow"
    | .unfinished => Problem.explained "panic" "unfinished"
    | .nullDevice => Problem.explained "panic" "read from null serial device"
    | .fatal reason => Problem.explained "fatal" reason

instance {ε : Type} [Problem ε] : Problem (Fault ε) where
  describe
    | .error e => describe e
    | .halt h => describe h

def Value.success {α : Type} [ToValue α] (a : α) : Value := .record [("ok", toValue a)]

instance {ε α : Type} [Problem ε] [ToValue α] : ToValue (Except ε α) where
  toValue
    | .ok a => .success a
    | .error e => describe e

def Value.orHalt {α : Type} [ToValue α] : Except Halt α → Value
  | .ok a => toValue a
  | .error h => describe h

abbrev Answer := Except Halt Value

namespace Answer
variable {σ ε α : Type} [Problem ε] [ToValue α]

def success (a : α) : Answer := .ok (.success a)

def ofFallible : Fallible ε α → Answer
  | .ok a => success a
  | .error (.error e) => .ok (describe e)
  | .error (.halt h) => .error h

def ofExcept (x : Except ε α) : Answer := .ok (toValue x)

def ofStep (x : Step σ ε α) (s : σ) : Answer × σ :=
  match x s with
  | .ok a s => (success a, s)
  | .error (.error e) s => (.ok (describe e), s)
  | .error (.halt h) s => (.error h, s)

end Answer

namespace Session
variable {σ : Type}

/-- Runs operations in order, up to one that halts. `view` reports the state after each of them and
`settle` clears what is reported only once. -/
def run (step : Value → σ → Option (Answer × σ)) (view : σ → List (String × Value))
    (settle : σ → σ) : List Value → σ → Option (List Value × σ)
  | [], s => some ([], s)
  | op :: ops, s => do
    let (answer, s) ← step op s
    let fields := view s
    let s := settle s
    match answer with
    | .error h => return ([.record (("result", describe h) :: fields)], s)
    | .ok result =>
      let (rest, s) ← run step view settle ops s
      return (.record (("result", result) :: fields) :: rest, s)

end Session
end PlatformInit
