import PlatformInit.Bytes.Field
import PlatformInit.Fault
import PlatformInit.Status

/-!
PE32+ images: what their headers say about placing them.
-/
set_option autoImplicit false
namespace PlatformInit

inductive PeBuffer where
  | image
  | loadedImage
  | relocationBlock
  deriving DecidableEq

inductive PeError where
  | malformedHeaders
  | bufferTooShort (length : Nat) (buffer : PeBuffer)
  | unreadable
  | badSignature (signature : UInt16)
  | noOptionalHeader
  | notPe32Plus
  | unsupportedRelocation (type : UInt16)
  deriving DecidableEq

def PeError.toEfi : PeError → EfiError
  | .bufferTooShort .. => .bufferTooSmall
  | .unsupportedRelocation _ => .unsupported
  | _ => .loadError

structure PeSection where
  name : Bytes
  virtualSize : UInt32
  virtualAddress : UInt32
  rawSize : UInt32
  rawPointer : UInt32
  relocationsPointer : UInt32
  lineNumbersPointer : UInt32
  characteristics : UInt32
  deriving DecidableEq

structure PeDirectory where
  address : UInt32
  size : UInt32
  deriving DecidableEq

/-- What the headers of an image say about placing it. -/
structure PeImage where
  imageBaseOffset : Nat
  entryPoint : UInt32
  sizeOfImage : UInt32
  sectionAlignment : UInt32
  sizeOfHeaders : UInt64
  sections : List PeSection
  relocations : Option PeDirectory
  deriving DecidableEq

structure PeOptionalHeader where
  entryPoint : UInt32
  sectionAlignment : UInt32
  sizeOfImage : UInt32
  sizeOfHeaders : UInt32
  relocations : Option PeDirectory
  deriving DecidableEq

structure PeHeaders where
  pointer : UInt32
  /-- Whether the optional header is in the wide form, PE32+. -/
  wide : Bool
  optional : Option PeOptionalHeader
  sections : List PeSection
  deriving DecidableEq

/-- A reader of portable executables, which the loader is given like its other collaborators; `none` is
its refusal of an image. -/
structure PeReader where
  headers? : Bytes → Option PeHeaders

namespace PeSection

def codeFlag : UInt32 := 0x20

def holdsCode (s : PeSection) : Bool := s.characteristics &&& codeFlag != 0

/-- The bytes that are loaded: as many as the section takes in memory, if the file has them. -/
def loadedSize (s : PeSection) : UInt32 :=
  if s.virtualSize = 0 ∨ s.rawSize < s.virtualSize then s.rawSize else s.virtualSize

end PeSection

namespace PeImage

def dosMagic : UInt16 := 0x5A4D

def signatureSize : Nat := 4

def coffHeaderSize : Nat := 20

def standardFieldsSize : Nat := 24

end PeImage

/-- Where the image base is recorded: it is the first field behind the standard ones. -/
def PeHeaders.imageBaseOffset (h : PeHeaders) : Nat :=
  h.pointer.toNat + PeImage.signatureSize + PeImage.coffHeaderSize + PeImage.standardFieldsSize

def PeHeaders.image (h : PeHeaders) : Except PeError PeImage :=
  if h.wide then
    match h.optional with
    | none => .error .noOptionalHeader
    | some o => .ok {
        imageBaseOffset := h.imageBaseOffset
        entryPoint := o.entryPoint
        sizeOfImage := o.sizeOfImage
        sectionAlignment := o.sectionAlignment
        sizeOfHeaders := o.sizeOfHeaders.toUInt64
        sections := h.sections
        relocations := o.relocations }
  else .error .notPe32Plus

/-- The image whose headers `reader` finds behind the signature `MZ`. -/
def PeReader.parse (reader : PeReader) (bytes : Bytes) : Except PeError PeImage :=
  match bytes.u16? 0 with
  | none => .error .unreadable
  | some magic =>
    if magic = PeImage.dosMagic then
      match reader.headers? bytes with
      | none => .error .malformedHeaders
      | some h => h.image
    else .error (.badSignature magic)

namespace PeImage

/-- The place from the start of SMRAM on that an image was built for. It is kept in the first section
without code, in two fields that have no other use; zero stands for no such place. -/
def fixedLoadOffset (p : PeImage) : Option UInt64 := do
  let s ← p.sections.find? (!·.holdsCode)
  let offset := s.lineNumbersPointer.toUInt64 <<< 32 ||| s.relocationsPointer.toUInt64
  if offset = 0 then none else some offset

end PeImage
end PlatformInit
