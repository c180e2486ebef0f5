/-!
# Passwords

A password is a random identifier of version 4, written as 32 lower case hexadecimal digits.
-/

namespace PushOperator.Password

def digit (n : Nat) : Char := Nat.digitChar (n % 16)

/-- The password made from random bits: the thirteenth digit is the version and the seventeenth
keeps two of its bits for the variant. -/
def ofBits (bits : Nat) : String :=
  String.ofList <| (List.range 32).map fun i =>
    let random := bits >>> (4 * (31 - i))
    if i = 12 then '4'
    else if i = 16 then digit (8 + random % 4)
    else digit random

end PushOperator.Password
