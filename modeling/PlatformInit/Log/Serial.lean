import PlatformInit.Fault
import PlatformInit.Log.Record

/-!
The logger of the boot stages, which writes formatted records to a serial device, and the device
that discards everything.
-/
set_option autoImplicit false
namespace PlatformInit.Log

structure Device (ω : Type) where
  start : ω → ω
  write : String → ω → ω
  read : Step ω Empty UInt8
  tryRead : ω → Option UInt8 × ω

/-- A device on which nothing arrives. Waiting for a byte would never end, so it stops the
machine. -/
def Device.null : Device Unit where
  start := id
  write _ := id
  read := Step.stop .nullDevice
  tryRead s := (none, s)

/-- `filters` overrides `maxLevel` for targets that start with the given text. -/
structure Logger where
  format : Format
  filters : List (String × Filter)
  maxLevel : Filter

namespace Logger

/-- The filter of a target: the first one listed whose text begins the target. -/
def filterFor (l : Logger) (target : String) : Filter :=
  ((l.filters.find? fun f => f.1.toList.isPrefixOf target.toList).map (·.2)).getD l.maxLevel

def enabled (l : Logger) (level : Level) (target : String) : Bool :=
  (l.filterFor target).passes level

def start {ω : Type} (_ : Logger) (d : Device ω) (s : ω) : ω := d.start s

def log {ω : Type} (l : Logger) (d : Device ω) (r : Record) (s : ω) : ω :=
  if l.enabled r.level r.target then d.write (l.format.line r) s else s

end Logger
end PlatformInit.Log
