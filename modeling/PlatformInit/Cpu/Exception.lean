/-!
What an exception leaves on the stack.
-/
set_option autoImplicit false
namespace PlatformInit

namespace Exception

def vectorCount : UInt8 := 32

/-- A bit for every vector for which the processor pushes an error code. -/
def errorCodeVectors : UInt32 := 0x27D00

def stubSize : UInt64 := 16

def hasErrorCode (vector : UInt8) : Bool :=
  vector < vectorCount && errorCodeVectors &&& (1 <<< vector.toUInt32) != 0

end Exception

structure ExceptionReport where
  vector : UInt8
  segment : UInt16
  instructionPointer : UInt64
  deriving DecidableEq

namespace ExceptionReport

/-- Reads the words on the stack: the vector, an error code if the vector has one, the instruction
pointer and the code segment. -/
def ofFrame? : List UInt64 → Option ExceptionReport
  | [] => none
  | first :: rest =>
    match if Exception.hasErrorCode first.toUInt8 then rest.drop 1 else rest with
    | pointer :: segment :: _ => some ⟨first.toUInt8, segment.toUInt16, pointer⟩
    | _ => none

end ExceptionReport
end PlatformInit
