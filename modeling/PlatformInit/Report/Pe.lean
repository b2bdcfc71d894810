import PlatformInit.Pe.Loading
import PlatformInit.Report.Outcome

/-!
Reports of image headers and of errors in images.
-/
set_option autoImplicit false
namespace PlatformInit

def PeBuffer.name : PeBuffer → String
  | image => "image"
  | loadedImage => "loaded_image"
  | relocationBlock => "relocation block"

instance : Problem PeError where
  describe e :=
    match e with
    | .malformedHeaders => Problem.named "Goblin" e.toEfi
    | .bufferTooShort n buffer =>
      Problem.detailed "BufferTooShort" e.toEfi (toString n ++ " " ++ buffer.name)
    | .unreadable => Problem.named "Parse" e.toEfi
    | .badSignature s => Problem.detailed "BadSignature" e.toEfi (hexText s.toNat)
    | .noOptionalHeader => Problem.named "NoOptionalHeader" e.toEfi
    | .notPe32Plus => Problem.named "NotPe32Plus" e.toEfi
    | .unsupportedRelocation t => Problem.detailed "UnsupportedRelocation" e.toEfi (toString t.toNat)

def PeError.ofName? : String → Option PeError
  | "Goblin" => some .malformedHeaders
  | "BufferTooShort" => some (.bufferTooShort 0 .image)
  | "Parse" => some .unreadable
  | "BadSignature" => some (.badSignature 0)
  | "NoOptionalHeader" => some .noOptionalHeader
  | "NotPe32Plus" => some .notPe32Plus
  | "UnsupportedRelocation" => some (.unsupportedRelocation 0)
  | _ => none

instance : ToValue PeSection where
  toValue s := .record [("name", toValue s.name), ("virtual_size", toValue s.virtualSize),
    ("virtual_address", toValue s.virtualAddress), ("raw_size", toValue s.rawSize),
    ("raw_pointer", toValue s.rawPointer), ("relocations", toValue s.relocationsPointer),
    ("linenumbers", toValue s.lineNumbersPointer), ("characteristics", toValue s.characteristics)]

instance : ToValue PeDirectory := ⟨fun d => .list [toValue d.address, toValue d.size]⟩

instance : ToValue PeImage where
  toValue p := .record [("image_base_field", .count p.imageBaseOffset),
    ("entry_point", toValue p.entryPoint), ("size_of_image", toValue p.sizeOfImage),
    ("section_alignment", toValue p.sectionAlignment), ("size_of_headers", toValue p.sizeOfHeaders),
    ("sections", toValue p.sections), ("reloc_dir", toValue p.relocations),
    ("fixed_load_offset", toValue p.fixedLoadOffset)]

end PlatformInit
