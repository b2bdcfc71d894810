/-!
Log records, the levels that let them pass, and the three line formats.
-/
set_option autoImplicit false
namespace PlatformInit.Log

inductive Level where
  | error
  | warn
  | info
  | debug
  | trace
  deriving DecidableEq

namespace Level

def name : Level → String
  | error => "ERROR"
  | warn => "WARN"
  | info => "INFO"
  | debug => "DEBUG"
  | trace => "TRACE"

def rank : Level → Nat
  | error => 1
  | warn => 2
  | info => 3
  | debug => 4
  | trace => 5

end Level

/-- The most verbose level that passes; `off` lets nothing pass. -/
inductive Filter where
  | off
  | upTo (level : Level)
  deriving DecidableEq

namespace Filter

def rank : Filter → Nat
  | off => 0
  | upTo l => l.rank

def passes (f : Filter) (l : Level) : Bool := l.rank ≤ f.rank

end Filter

def maskError : UInt32 := 0x80000000
def maskWarn : UInt32 := 0x00000002
def maskInfo : UInt32 := 0x00000040
def maskVerbose : UInt32 := 0x00400000

def Filter.ofPrintMask (mask : UInt32) : Filter :=
  if mask &&& maskVerbose != 0 then .upTo .trace
  else if mask &&& maskInfo != 0 then .upTo .info
  else if mask &&& maskWarn != 0 then .upTo .warn
  else if mask &&& maskError != 0 then .upTo .error
  else .off

structure Record where
  level : Level
  target : String
  message : String
  file : Option String
  line : Option UInt32

namespace Record

def fileText (r : Record) : String := r.file.getD "unknown"

def lineText (r : Record) : String := toString (r.line.getD 0).toNat

end Record

inductive Format where
  | standard
  | json
  | verboseJson
  deriving DecidableEq

/-- A field of a JSON line; neither text is escaped. -/
def jsonField (key value : String) : String := "\"" ++ key ++ "\": \"" ++ value ++ "\""

def jsonLine (fields : List (String × String)) : String :=
  "\x7b" ++ ", ".intercalate (fields.map fun f => jsonField f.1 f.2) ++ "\x7d\n"

/-- The line written for a record. A plain line names its place in the sources at trace level
only. -/
def Format.line (f : Format) (r : Record) : String :=
  match f with
  | .standard =>
    if r.level = .trace then
      "TRACE - " ++ r.fileText ++ ":" ++ r.lineText ++ ": " ++ r.message ++ "\n"
    else r.level.name ++ " - " ++ r.message ++ "\n"
  | .json => jsonLine [("level", r.level.name), ("message", r.message)]
  | .verboseJson =>
    jsonLine [("level", r.level.name), ("target", r.target), ("message", r.message),
      ("file", r.fileText), ("line", r.lineText)]

end PlatformInit.Log
