import PlatformInit.Pe.Image
import PlatformInit.Word.Checked

/-!
Base relocations: blocks of fixups, and what they do to a loaded image.
-/
set_option autoImplicit false
namespace PlatformInit

structure RelocationBlock where
  page : UInt32
  /-- Each entry has its type in the top four bits and an offset in the page in the low twelve. -/
  entries : List UInt16
  deriving DecidableEq

namespace RelocationBlock

def headerSize : Nat := 8

def absolute : UInt16 := 0

def highLow : UInt16 := 3

def dir64 : UInt16 := 10

def typeOf (entry : UInt16) : UInt16 := entry >>> 12

def offsetOf (entry : UInt16) : UInt32 := (entry &&& 0xFFF).toUInt32

def words : Bytes → List UInt16
  | low :: high :: rest => (low.toUInt16 ||| high.toUInt16 <<< 8) :: words rest
  | _ => []

/-- How many entries a block of `size` bytes has; a last entry may run over its end. -/
def entryCount (size : Nat) : Nat := (size - headerSize + 1) / 2

def read (data : Bytes) : Except PeError RelocationBlock :=
  match data.u32? 0, data.u32? 4 with
  | some page, some size =>
    if size.toNat < headerSize then .error (.bufferTooShort size.toNat .relocationBlock)
    else
      match data.slice? headerSize (2 * entryCount size.toNat) with
      | none => .error .unreadable
      | some entries => .ok ⟨page, words entries⟩
  | _, _ => .error .unreadable

/-- How far the next block is from the start of this one; blocks start at multiples of four. -/
def stride (b : RelocationBlock) : Nat := headerSize + (2 * b.entries.length + 3) / 4 * 4

def readAll (data : Bytes) : Except PeError (List RelocationBlock) :=
  match data with
  | [] => .ok []
  | byte :: rest =>
    match read (byte :: rest) with
    | .error e => .error e
    | .ok b => (readAll ((byte :: rest).drop b.stride)).map (b :: ·)
termination_by data.length
decreasing_by
  simp only [List.length_drop, List.length_cons, stride, headerSize]
  omega

/-- Adds the adjustment to the `width` bytes at `offset`, dropping a carry. -/
def adjust (width offset : Nat) (adjustment : UInt64) : Step Bytes PeError Unit := do
  let image ← get
  match image.word? width offset with
  | none => Step.fail .unreadable
  | some value => set (image.overwrite offset (leBytes width (value + adjustment.toNat)))

def applyEntry (page : UInt32) (adjustment : UInt64) (entry : UInt16) : Step Bytes PeError Unit := do
  let address ← Step.ofHalting (add32 page (offsetOf entry))
  if typeOf entry = absolute then return ()
  else if typeOf entry = highLow then adjust 4 address.toNat adjustment
  else if typeOf entry = dir64 then adjust 8 address.toNat adjustment
  else Step.fail (.unsupportedRelocation (typeOf entry))

def apply (adjustment : UInt64) (b : RelocationBlock) : Step Bytes PeError Unit :=
  b.entries.forM (applyEntry b.page adjustment)

end RelocationBlock
end PlatformInit
