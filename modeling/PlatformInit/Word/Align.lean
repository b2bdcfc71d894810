import PlatformInit.Word.Checked

/-!
Pages, alignment and powers of two on 64-bit addresses and sizes.
-/
set_option autoImplicit false
namespace PlatformInit

def pageSize : UInt64 := 0x1000
def pageMask : UInt64 := 0xFFF
def pageShift : UInt64 := 12

def size4K : UInt64 := 0x1000
def size64K : UInt64 := 0x10000
def size128K : UInt64 := 0x20000
def size256K : UInt64 := 0x40000
def size384K : UInt64 := 0x60000
def size640K : UInt64 := 0xA0000
def size1M : UInt64 := 0x100000
def size16M : UInt64 := 0x1000000
def size256M : UInt64 := 0x10000000
def size4G : UInt64 := 0x100000000

def highestBit : UInt64 := 0x8000000000000000

def sizeToPages (size : UInt64) : UInt64 :=
  size / pageSize + if size % pageSize = 0 then 0 else 1

/-- The bytes of `pages` pages; bits beyond the word are dropped. -/
def pagesToSize (pages : UInt64) : UInt64 := pages <<< pageShift

def isPowerOfTwo (n : UInt64) : Bool := n.toNat = 1 <<< n.toNat.log2

inductive AlignError where
  | notPowerOfTwo
  | overflow
  deriving DecidableEq

def AlignError.message : AlignError → String
  | .notPowerOfTwo => "`align` must be a power of two"
  | .overflow => "attempt to add with overflow"

def alignDown (address align : UInt64) : Except AlignError UInt64 :=
  if isPowerOfTwo align then .ok (address - address % align) else .error .notPowerOfTwo

def alignUp (address align : UInt64) : Except AlignError UInt64 :=
  if isPowerOfTwo align then
    if address % align = 0 then .ok address
    else if address.toNat - address.toNat % align.toNat + align.toNat < UInt64.size then
      .ok (address - address % align + align)
    else .error .overflow
  else .error .notPowerOfTwo

def nextPowerOfTwo (n : UInt64) : Option UInt64 :=
  let power := if n.toNat ≤ 1 then 1 else 1 <<< ((n.toNat - 1).log2 + 1)
  if power < UInt64.size then some (.ofNat power) else none

end PlatformInit
