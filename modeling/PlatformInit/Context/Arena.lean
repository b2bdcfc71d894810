import PlatformInit.Bytes.Field
import PlatformInit.Status

/-!
The arena of configuration blocks. Moving to a new generation keeps copies of chosen blocks and
makes every handle of the old generation stale.
-/
set_option autoImplicit false
namespace PlatformInit

inductive ContextError where
  | notInstalled
  | alreadyInstalled
  | badSignature
  | staleHandle
  | blockTooSmall
  deriving DecidableEq

namespace ContextError

def all : List ContextError :=
  [notInstalled, alreadyInstalled, badSignature, staleHandle, blockTooSmall]

def toEfi : ContextError → EfiError
  | notInstalled => .notReady
  | alreadyInstalled => .alreadyStarted
  | badSignature => .volumeCorrupted
  | staleHandle => .invalidParameter
  | blockTooSmall => .badBufferSize

def name : ContextError → String
  | notInstalled => "NotInstalled"
  | alreadyInstalled => "AlreadyInstalled"
  | badSignature => "BadSignature"
  | staleHandle => "StaleHandle"
  | blockTooSmall => "BlockTooSmall"

end ContextError

/-- Names one block of one generation of an arena. -/
structure ConfigHandle where
  generation : UInt32
  index : UInt32
  deriving DecidableEq

structure ConfigArena where
  generation : UInt32
  blocks : List Bytes

namespace ConfigArena

def empty : ConfigArena := ⟨0, []⟩

def insert (a : ConfigArena) (block : Bytes) : ConfigArena × ConfigHandle :=
  ({ a with blocks := a.blocks ++ [block] }, ⟨a.generation, .ofNat a.blocks.length⟩)

def get (a : ConfigArena) (h : ConfigHandle) : Except ContextError Bytes :=
  if h.generation = a.generation then
    match a.blocks[h.index.toNat]? with
    | some block => .ok block
    | none => .error .staleHandle
  else .error .staleHandle

def modify (a : ConfigArena) (h : ConfigHandle) (f : Bytes → Bytes) : Except ContextError ConfigArena :=
  match a.get h with
  | .ok block => .ok { a with blocks := a.blocks.set h.index.toNat (f block) }
  | .error e => .error e

def keep (a : ConfigArena) (h : ConfigHandle) (length : Nat) : Except ContextError Bytes :=
  match a.get h with
  | .ok block => if block.length < length then .error .blockTooSmall else .ok (block.take length)
  | .error e => .error e

/-- Starts a new generation that holds the beginnings of the kept blocks only. -/
def migrate (a : ConfigArena) (kept : List (ConfigHandle × Nat)) :
    Except ContextError (ConfigArena × List ConfigHandle) :=
  match kept.mapM fun k => a.keep k.1 k.2 with
  | .ok blocks =>
    let generation := a.generation + 1
    .ok (⟨generation, blocks⟩, (List.range blocks.length).map fun i => ⟨generation, .ofNat i⟩)
  | .error e => .error e

end ConfigArena
end PlatformInit
