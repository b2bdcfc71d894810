/-!
Status words of the firmware interfaces and the errors they stand for.
-/
set_option autoImplicit false
namespace PlatformInit

/-- A status word; an error has its highest bit set. -/
abbrev Status := UInt64

namespace Status

def errorBit : Status := 0x8000000000000000

def success : Status := 0

def notFound : Status := 0x800000000000000E
def invalidParameter : Status := 0x8000000000000002
def unsupported : Status := 0x8000000000000003

def asError (s : Status) : Status := s ||| errorBit

end Status

inductive EfiError where
  | loadError
  | invalidParameter
  | unsupported
  | badBufferSize
  | bufferTooSmall
  | notReady
  | deviceError
  | outOfResources
  | volumeCorrupted
  | notFound
  | accessDenied
  | alreadyStarted
  | aborted
  | securityViolation
  | unknown (status : Status)
  deriving DecidableEq

namespace EfiError

def status : EfiError → Status
  | loadError => 0x8000000000000001
  | invalidParameter => 0x8000000000000002
  | unsupported => 0x8000000000000003
  | badBufferSize => 0x8000000000000004
  | bufferTooSmall => 0x8000000000000005
  | notReady => 0x8000000000000006
  | deviceError => 0x8000000000000007
  | outOfResources => 0x8000000000000009
  | volumeCorrupted => 0x800000000000000A
  | notFound => 0x800000000000000E
  | accessDenied => 0x800000000000000F
  | alreadyStarted => 0x8000000000000014
  | aborted => 0x8000000000000015
  | securityViolation => 0x800000000000001A
  | unknown s => s

def known : List EfiError :=
  [loadError, invalidParameter, unsupported, badBufferSize, bufferTooSmall, notReady, deviceError,
    outOfResources, volumeCorrupted, notFound, accessDenied, alreadyStarted, aborted,
    securityViolation]

def ofStatus (s : Status) : EfiError :=
  (known.find? (·.status == s)).getD (.unknown s)

def name : EfiError → String
  | loadError => "LoadError"
  | invalidParameter => "InvalidParameter"
  | unsupported => "Unsupported"
  | badBufferSize => "BadBufferSize"
  | bufferTooSmall => "BufferTooSmall"
  | notReady => "NotReady"
  | deviceError => "DeviceError"
  | outOfResources => "OutOfResources"
  | volumeCorrupted => "VolumeCorrupted"
  | notFound => "NotFound"
  | accessDenied => "AccessDenied"
  | alreadyStarted => "AlreadyStarted"
  | aborted => "Aborted"
  | securityViolation => "SecurityViolation"
  | unknown s => "Unknown(Status(" ++ toString s.toNat ++ "))"

end EfiError

namespace Status

def toExcept (s : Status) : Except EfiError Unit :=
  if s = success then .ok () else .error (.ofStatus s)

end Status

inductive BootError where
  | configurationInvalid
  | resourceNotFound
  | resourceExhausted
  | unsupportedOperation
  | deviceError
  deriving DecidableEq

namespace BootError

def all : List BootError :=
  [configurationInvalid, resourceNotFound, resourceExhausted, unsupportedOperation, deviceError]

def toEfi : BootError → EfiError
  | configurationInvalid => .invalidParameter
  | resourceNotFound => .notFound
  | resourceExhausted => .outOfResources
  | unsupportedOperation => .unsupported
  | deviceError => .deviceError

def name : BootError → String
  | configurationInvalid => "ConfigurationInvalid"
  | resourceNotFound => "ResourceNotFound"
  | resourceExhausted => "ResourceExhausted"
  | unsupportedOperation => "UnsupportedOperation"
  | deviceError => "DeviceError"

end BootError
end PlatformInit
