import PlatformInit.Guid
import PlatformInit.Word.Hexadecimal

/-!
Structured values in which requests are read and reports are written.

Words are written as hexadecimal texts and may be read from such a text or from a number. A byte
string is written in hexadecimal digits, and a long one as its length and the runs of bytes in it
that are not zero.
-/
set_option autoImplicit false
namespace PlatformInit

inductive Value where
  | null
  | flag (b : Bool)
  | count (n : Nat)
  | text (s : String)
  | list (items : List Value)
  | record (fields : List (String × Value))
  deriving Inhabited

class ToValue (α : Type) where
  toValue : α → Value

export ToValue (toValue)

class OfValue (α : Type) where
  ofValue? : Value → Option α

export OfValue (ofValue?)

namespace Hex

def digit? (c : Char) : Option Nat :=
  if '0' ≤ c ∧ c ≤ '9' then some (c.toNat - '0'.toNat)
  else if 'a' ≤ c ∧ c ≤ 'f' then some (c.toNat - 'a'.toNat + 10)
  else if 'A' ≤ c ∧ c ≤ 'F' then some (c.toNat - 'A'.toNat + 10)
  else none

def number? (digits : List Char) : Option Nat :=
  digits.foldlM (fun n c => (digit? c).map (16 * n + ·)) 0

def word? (s : String) : Option Nat :=
  match s.toList with
  | '0' :: 'x' :: digits => number? digits
  | _ => none

def bytes (bs : Bytes) : String :=
  String.ofList (bs.flatMap fun b => [Nat.digitChar (b.toNat / 16), Nat.digitChar (b.toNat % 16)])

def bytes? : List Char → Option Bytes
  | [] => some []
  | a :: b :: cs => do
    let high ← digit? a
    let low ← digit? b
    return .ofNat (16 * high + low) :: (← bytes? cs)
  | _ => none

end Hex

namespace Value

def get? (v : Value) (key : String) : Option Value :=
  match v with
  | record fields =>
    match fields.find? (·.1 == key) with
    | some (_, null) => none
    | found => found.map (·.2)
  | _ => none

def has (v : Value) (key : String) : Bool := (v.get? key).isSome

def nat? : Value → Option Nat
  | count n => some n
  | text s => Hex.word? s
  | _ => none

section
variable {α : Type} [OfValue α]

def field (v : Value) (key : String) : Option α := (v.get? key).bind ofValue?

def field? (v : Value) (key : String) : Option (Option α) :=
  match v.get? key with
  | none => some none
  | some f => (ofValue? f).map some

def fieldD (v : Value) (key : String) (default : α) : Option α :=
  (v.field? key).map (·.getD default)

def items (v : Value) (key : String) : Option (List α) :=
  match v.get? key with
  | none => some []
  | some (list vs) => vs.mapM ofValue?
  | some _ => none

end

def flagged (v : Value) (key : String) : Bool :=
  match v.get? key with
  | some (flag b) => b
  | _ => false

end Value

instance : OfValue Value := ⟨some⟩
instance : OfValue Nat := ⟨Value.nat?⟩
instance : OfValue UInt64 := ⟨fun v => v.nat?.map .ofNat⟩
instance : OfValue UInt32 := ⟨fun v => v.nat?.map .ofNat⟩
instance : OfValue UInt16 := ⟨fun v => v.nat?.map .ofNat⟩
instance : OfValue UInt8 := ⟨fun v => v.nat?.map .ofNat⟩

instance : OfValue Bool where
  ofValue?
    | .flag b => some b
    | _ => none

instance : OfValue String where
  ofValue?
    | .text s => some s
    | _ => none

instance {α : Type} [OfValue α] : OfValue (List α) where
  ofValue?
    | .list vs => vs.mapM ofValue?
    | _ => none

instance {α β : Type} [OfValue α] [OfValue β] : OfValue (α × β) where
  ofValue?
    | .list [a, b] => do return (← ofValue? a, ← ofValue? b)
    | _ => none

/-- Bytes from digits, or from a length, a byte to fill it with, and patches in order. -/
instance : OfValue Bytes where
  ofValue?
    | .text s => Hex.bytes? s.toList
    | v => do
      let length ← v.field "len"
      let patches : List (Nat × Value) ← v.items "at"
      patches.foldlM (fun (bytes : Bytes) (offset, part) =>
        match part with
        | .text s => (Hex.bytes? s.toList).map (bytes.overwrite offset ·)
        | _ => none) (List.replicate length (← v.fieldD "fill" 0))

instance : OfValue Guid := ⟨fun v => (ofValue? v).bind fun (bytes : Bytes) => Guid.read? bytes 0⟩

instance : ToValue Value := ⟨id⟩
instance : ToValue Bool := ⟨.flag⟩
instance : ToValue Nat := ⟨.count⟩
instance : ToValue String := ⟨.text⟩
instance : ToValue Unit := ⟨fun _ => .null⟩
instance : ToValue Empty := ⟨nofun⟩
instance : ToValue UInt8 := ⟨fun n => .count n.toNat⟩
instance : ToValue UInt16 := ⟨fun n => .text (hexText n.toNat)⟩
instance : ToValue UInt32 := ⟨fun n => .text (hexText n.toNat)⟩
instance : ToValue UInt64 := ⟨fun n => .text (hexText n.toNat)⟩
instance {α : Type} [ToValue α] : ToValue (List α) := ⟨fun as => .list (as.map toValue)⟩

instance {α : Type} [ToValue α] : ToValue (Option α) where
  toValue
    | none => .null
    | some a => toValue a

instance {α β : Type} [ToValue α] [ToValue β] : ToValue (α × β) :=
  ⟨fun (a, b) => .list [toValue a, toValue b]⟩

namespace Bytes

def closeRun : Option (Nat × Bytes) → List (Nat × Bytes) → List (Nat × Bytes)
  | none, done => done
  | some (start, run), done => (start, run.reverse) :: done

/-- The maximal runs of bytes other than zero and their offsets, after the runs in `done`. `offset`
bytes come before, and a run of them may go on. -/
def runsFrom (offset : Nat) (run : Option (Nat × Bytes)) (done : List (Nat × Bytes)) :
    Bytes → List (Nat × Bytes)
  | [] => (closeRun run done).reverse
  | b :: bytes =>
    if b = 0 then runsFrom (offset + 1) none (closeRun run done) bytes
    else
      match run with
      | none => runsFrom (offset + 1) (some (offset, [b])) done bytes
      | some (start, run) => runsFrom (offset + 1) (some (start, b :: run)) done bytes

def runs (bytes : Bytes) : List (Nat × Bytes) := runsFrom 0 none [] bytes

end Bytes

instance : ToValue Bytes where
  toValue bytes :=
    if bytes.length ≤ 256 then .text (Hex.bytes bytes)
    else .record [("len", .count bytes.length),
      ("at", .list (bytes.runs.map fun (start, run) => .list [.count start, .text (Hex.bytes run)]))]

instance : ToValue Guid := ⟨fun g => .text (Hex.bytes g.toBytes)⟩

end PlatformInit
