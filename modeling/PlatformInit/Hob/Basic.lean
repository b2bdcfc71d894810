import PlatformInit.Guid
import PlatformInit.Status
import PlatformInit.Word.Checked

/-!
Hand-off block (HOB) records and the questions asked of a list of them.

A list is in creation order and only ever grows at its end.
-/
set_option autoImplicit false
namespace PlatformInit

structure ResourceDescriptor where
  owner : Guid
  kind : UInt32
  attributes : UInt32
  start : UInt64
  length : UInt64
  deriving DecidableEq

namespace ResourceDescriptor

def stop (r : ResourceDescriptor) : Except Halt UInt64 := add64 r.start r.length

def systemMemory : UInt32 := 0
def memoryMappedIo : UInt32 := 1
def ioSpace : UInt32 := 2
def firmwareDevice : UInt32 := 3
def reserved : UInt32 := 5

def present : UInt32 := 0x1
def initialized : UInt32 := 0x2
def tested : UInt32 := 0x4
def uncacheable : UInt32 := 0x400
def writeCombineable : UInt32 := 0x800
def writeThroughCacheable : UInt32 := 0x1000
def writeBackCacheable : UInt32 := 0x2000

def untestedMemory : UInt32 :=
  present ||| initialized ||| uncacheable ||| writeCombineable ||| writeThroughCacheable
    ||| writeBackCacheable

def testedMemory : UInt32 := untestedMemory ||| tested

end ResourceDescriptor

inductive Hob where
  | resource (descriptor : ResourceDescriptor)
  | volume (base length : UInt64)
  | nestedVolume (base length : UInt64) (volumeName fileName : Guid)
  | cpu (memoryBits ioBits : UInt8)
  | guidExtension (name : Guid) (data : Bytes)
  | other (kind : UInt16) (data : Bytes)
  deriving DecidableEq

namespace Hob

def handoffKind : UInt16 := 1
def memoryAllocationKind : UInt16 := 2
def resourceKind : UInt16 := 3
def guidExtensionKind : UInt16 := 4
def volumeKind : UInt16 := 5
def cpuKind : UInt16 := 6
def nestedVolumeKind : UInt16 := 9
def endKind : UInt16 := 0xFFFF

def kind : Hob → UInt16
  | resource _ => resourceKind
  | volume .. => volumeKind
  | nestedVolume .. => nestedVolumeKind
  | cpu .. => cpuKind
  | guidExtension .. => guidExtensionKind
  | other k _ => k

end Hob

abbrev HobList := List Hob

namespace HobList

def resources (hobs : HobList) : List ResourceDescriptor :=
  hobs.filterMap fun
    | .resource r => some r
    | _ => none

def resourceOf? (hobs : HobList) (owner : Guid) : Option ResourceDescriptor :=
  hobs.resources.find? (·.owner = owner)

def dataOf? (hobs : HobList) (name : Guid) : Option Bytes :=
  hobs.findSome? fun
    | .guidExtension n data => if n = name then some data else none
    | _ => none

/-- Base, length, volume name and file name of every volume that was extracted from another one. -/
def nestedVolumes (hobs : HobList) : List (UInt64 × UInt64 × Guid × Guid) :=
  hobs.filterMap fun
    | .nestedVolume base length volumeName fileName => some (base, length, volumeName, fileName)
    | _ => none

end HobList
end PlatformInit
