import PlatformInit.Hob.Basic

/-!
The binary form of a hand-off list: records with an eight-byte header each, padded to multiples of
eight bytes and closed by an end record.

`HobList.toBytes` writes a list and `HobList.parse` reads the records up to the first end record.
-/
set_option autoImplicit false
namespace PlatformInit

inductive HobError where
  | truncated
  | invalidLength (length : UInt16)
  deriving DecidableEq

namespace HobError

def toEfi (_ : HobError) : EfiError := .volumeCorrupted

def name : HobError → String
  | truncated => "Truncated"
  | invalidLength n => "InvalidLength(" ++ toString n.toNat ++ ")"

end HobError

namespace Hob

def headerSize : Nat := 8

def body : Hob → Bytes
  | resource r =>
    r.owner.toBytes ++ le32 r.kind ++ le32 r.attributes ++ le64 r.start ++ le64 r.length
  | volume base length => le64 base ++ le64 length
  | nestedVolume base length volumeName fileName =>
    le64 base ++ le64 length ++ volumeName.toBytes ++ fileName.toBytes
  | cpu memoryBits ioBits => [memoryBits, ioBits, 0, 0, 0, 0, 0, 0]
  | guidExtension name data => name.toBytes ++ data
  | other _ data => data

/-- A record with its header; only the low sixteen bits of its length are kept. -/
def toBytes (hob : Hob) : Bytes :=
  let padded := hob.body.padTo 8
  le16 hob.kind ++ leBytes 2 (headerSize + padded.length) ++ le32 0 ++ padded

/-- The record of type `kind` whose header is followed by `body`; `none` when the body is too
short for the type. -/
def ofBody? (kind : UInt16) (body : Bytes) : Option Hob :=
  if kind = resourceKind then do
    return resource ⟨← Guid.read? body 0, ← body.u32? 16, ← body.u32? 20, ← body.u64? 24,
      ← body.u64? 32⟩
  else if kind = volumeKind then do
    return volume (← body.u64? 0) (← body.u64? 8)
  else if kind = nestedVolumeKind then do
    return nestedVolume (← body.u64? 0) (← body.u64? 8) (← Guid.read? body 16) (← Guid.read? body 32)
  else if kind = cpuKind then do
    return cpu (← body.u8? 0) (← body.u8? 1)
  else if kind = guidExtensionKind then do
    return guidExtension (← Guid.read? body 0) (body.drop 16)
  else some (other kind body)

end Hob

namespace HobList

def endRecord : Bytes := le16 Hob.endKind ++ le16 8 ++ le32 0

def toBytes (hobs : HobList) : Bytes := hobs.flatMap Hob.toBytes ++ endRecord

/-- Reads records up to the end record; whatever follows it is not looked at. -/
def parse (bytes : Bytes) : Except HobError HobList :=
  match bytes.u16? 0, bytes.u16? 2 with
  | some kind, some length =>
    if kind = Hob.endKind then .ok []
    else if length.toNat < Hob.headerSize ∨ length.toNat % 8 ≠ 0 then .error (.invalidLength length)
    else
      match _found : bytes.slice? Hob.headerSize (length.toNat - Hob.headerSize) with
      | none => .error .truncated
      | some body =>
        match Hob.ofBody? kind body with
        | none => .error .truncated
        | some hob => (parse (bytes.drop length.toNat)).map (hob :: ·)
  | _, _ => .error .truncated
termination_by bytes.length
decreasing_by
  have := Bytes.le_length_of_slice? _found
  simp only [List.length_drop, Hob.headerSize] at *
  omega

end HobList
end PlatformInit
