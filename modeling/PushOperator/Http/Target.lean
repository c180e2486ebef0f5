import PushOperator.Text.Utf8

/-!
# What requests are aimed at

A request names a path and the parameters of a query, in one text: a question mark ends the path and
starts the query, and a number sign ends both, so what follows it is not sent. In a query parameters
are separated by ampersands, a name stands before the first equals sign, a plus stands for a space,
and a percent sign and two hexadecimal digits for a byte.
-/

namespace PushOperator.Http

/-! ## Parameters -/

namespace Query

def hexValue? (b : UInt8) : Option Nat :=
  let n := b.toNat
  if 0x30 ≤ n ∧ n ≤ 0x39 then some (n - 0x30)
  else if 0x41 ≤ n ∧ n ≤ 0x46 then some (n - 0x41 + 10)
  else if 0x61 ≤ n ∧ n ≤ 0x66 then some (n - 0x61 + 10)
  else none

def escaped? (sign high low : UInt8) : Option UInt8 := do
  if sign ≠ '%'.val.toUInt8 then none
  return ((← hexValue? high) * 16 + (← hexValue? low)).toUInt8

/-- The byte for which a byte stands that is not escaped. -/
def plain (b : UInt8) : UInt8 :=
  if b = '+'.val.toUInt8 then ' '.val.toUInt8 else b

/-- The bytes for which the bytes of a name or value stand. A percent sign without its two digits
stands for itself. -/
def decodeBytes : List UInt8 → List UInt8
  | b :: high :: low :: rest =>
    match escaped? b high low with
    | some c => c :: decodeBytes rest
    | none => plain b :: decodeBytes (high :: low :: rest)
  | b :: rest => plain b :: decodeBytes rest
  | [] => []

def decode (s : List Char) : String :=
  Text.Utf8.decode ⟨decodeBytes (Bytes.ofText (String.ofList s)).toList⟩

def hexDigit (n : Nat) : Char :=
  if n < 10 then Char.ofNat ('0'.toNat + n) else Char.ofNat ('A'.toNat + (n - 10))

/-- A byte as names and values are written: letters, digits and four marks stand for themselves. -/
def encodeByte (b : UInt8) : List Char :=
  let c := Char.ofNat b.toNat
  if c = ' ' then ['+']
  else if c.isAlphanum || c ∈ ['*', '-', '.', '_'] then [c]
  else ['%', hexDigit (b.toNat / 16), hexDigit (b.toNat % 16)]

def encode (s : String) : String :=
  String.ofList ((Bytes.ofText s).toList.flatMap encodeByte)

def parameter (s : List Char) : String × String :=
  (decode (s.takeWhile (· ≠ '=')), decode ((s.dropWhile (· ≠ '=')).drop 1))

def parameters (s : List Char) : List (String × String) :=
  ((s.splitOn '&').filter (· ≠ [])).map parameter

end Query

/-! ## Targets -/

/-- What a request is aimed at. -/
structure Target where
  path : String
  query : List (String × String)
  deriving DecidableEq

namespace Target

def isPathChar (c : Char) : Bool :=
  ' ' < c && c ∉ ['<', '>', '\x60', '\x7f']

def isQueryChar (c : Char) : Bool :=
  ' ' < c && c ∉ ['"', '<', '>', '\x7f']

def maxSize : Nat := 65534

def parse? (s : String) : Option Target :=
  let named := s.toList.takeWhile (· ≠ '#')
  let path := named.takeWhile (· ≠ '?')
  let query := (named.dropWhile (· ≠ '?')).drop 1
  if s.utf8ByteSize ≤ maxSize ∧ path.all isPathChar ∧ query.all isQueryChar then
    some { path := String.ofList path, query := Query.parameters query }
  else none

end Target

end PushOperator.Http
