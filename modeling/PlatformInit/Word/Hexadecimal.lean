/-!
The hexadecimal text of a number.
-/
set_option autoImplicit false
namespace PlatformInit

def hexText (n : Nat) : String := "0x" ++ String.ofList (Nat.toDigits 16 n)

end PlatformInit
