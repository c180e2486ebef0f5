import PushOperator.Json.Basic
import PushOperator.Json.Double

/-!
# Reading JSON text

Text is cut into tokens by a machine that takes one character at a time, and the tokens are put
together by a machine that keeps the open arrays and objects on a stack. Both are folds, so reading
ends on every input. What is not well formed is refused; what is well formed but means nothing is
left in the document as a part that can not be read.
-/

namespace PushOperator.Json

/-! ## Tokens -/

/-- A token of JSON text. A word is a literal name or a number. -/
inductive Token where
  | beginArray
  | endArray
  | beginObject
  | endObject
  | comma
  | colon
  | text (s : Option String)
  | word (s : List Char)

/-- What the cutting machine is in the middle of. Letters read so far stand in reverse, as long as
the text can be read; `high` is the first half of a surrogate pair whose second half has to follow
for that. -/
inductive Mode where
  | between
  | word (read : List Char)
  | string (read : Option (List Char)) (high : Option Nat)
  | escape (read : Option (List Char)) (high : Option Nat)
  | code (read : Option (List Char)) (high : Option Nat) (digits value : Nat)

def hexValue? (c : Char) : Option Nat :=
  if '0' ≤ c ∧ c ≤ '9' then some (c.toNat - '0'.toNat)
  else if 'a' ≤ c ∧ c ≤ 'f' then some (c.toNat - 'a'.toNat + 10)
  else if 'A' ≤ c ∧ c ≤ 'F' then some (c.toNat - 'A'.toNat + 10)
  else none

def escaped? : Char → Option Char
  | '"' => some '"'
  | '\\' => some '\\'
  | '/' => some '/'
  | 'b' => some '\x08'
  | 'f' => some '\x0c'
  | 'n' => some '\n'
  | 'r' => some '\r'
  | 't' => some '\t'
  | _ => none

/-- The letters of a text after one more, which is lost on half a surrogate pair. -/
def letter (read : Option (List Char)) (high : Option Nat) (c : Char) : Option (List Char) :=
  if high.isSome then none else read.map (c :: ·)

def afterCode (read : Option (List Char)) (high : Option Nat) (unit : Nat) : Mode :=
  let isHigh := 0xD800 ≤ unit ∧ unit < 0xDC00
  let isLow := 0xDC00 ≤ unit ∧ unit < 0xE000
  match high with
  | some high =>
    if isLow then
      let c := Char.ofNat (0x10000 + (high - 0xD800) * 0x400 + (unit - 0xDC00))
      .string (read.map (c :: ·)) none
    else .string none none
  | none =>
    if isHigh then .string read (some unit)
    else if isLow then .string none none
    else .string (read.map (Char.ofNat unit :: ·)) none

/-- One character outside strings and words. -/
def stepBetween (tokens : List Token) (c : Char) : Mode × List Token :=
  match c with
  | ' ' | '\t' | '\n' | '\r' => (.between, tokens)
  | '[' => (.between, .beginArray :: tokens)
  | ']' => (.between, .endArray :: tokens)
  | '\x7b' => (.between, .beginObject :: tokens)
  | '\x7d' => (.between, .endObject :: tokens)
  | ',' => (.between, .comma :: tokens)
  | ':' => (.between, .colon :: tokens)
  | '"' => (.string (some []) none, tokens)
  | c => (.word [c], tokens)

def endsWord (c : Char) : Bool :=
  c ∈ [' ', '\t', '\n', '\r', '[', ']', '\x7b', '\x7d', ',', ':', '"']

/-- One character of the text; the tokens read so far stand in reverse. -/
def stepChar (state : Mode × List Token) (c : Char) : Option (Mode × List Token) :=
  match state with
  | (.between, tokens) => some (stepBetween tokens c)
  | (.word read, tokens) =>
    if endsWord c then some (stepBetween (.word read.reverse :: tokens) c)
    else some (.word (c :: read), tokens)
  | (.string read high, tokens) =>
    if c = '\\' then some (.escape read high, tokens)
    else if c.toNat < 0x20 then none
    else if c = '"' then
      let read := if high.isSome then none else read
      some (.between, .text (read.map fun read => String.ofList read.reverse) :: tokens)
    else some (.string (letter read high c) none, tokens)
  | (.escape read high, tokens) =>
    if c = 'u' then some (.code read high 0 0, tokens)
    else (escaped? c).map fun e => (.string (letter read high e) none, tokens)
  | (.code read high digits value, tokens) => do
    let value := value * 16 + (← hexValue? c)
    if digits < 3 then return (.code read high (digits + 1) value, tokens)
    else return (afterCode read high value, tokens)

def tokens? (s : List Char) : Option (List Token) := do
  match ← s.foldlM stepChar (.between, []) with
  | (.between, tokens) => return tokens.reverse
  | (.word read, tokens) => return (.word read.reverse :: tokens).reverse
  | _ => none

/-! ## Numbers -/

def decimal (digits : List Char) : Nat :=
  digits.foldl (fun n c => n * 10 + (c.toNat - '0'.toNat)) 0

/-- Whether digits have no needless zero in front. -/
def isWhole (digits : List Char) : Bool :=
  digits.length = 1 ∨ (digits ≠ [] ∧ digits.head? ≠ some '0')

/-- The exponent of a number, from the letter in front of it on. -/
def exponent? (s : List Char) : Option Int :=
  match s with
  | [] => some 0
  | c :: rest =>
    let (negative, digits) := match rest with
      | '+' :: digits => (false, digits)
      | '-' :: digits => (true, digits)
      | digits => (false, digits)
    if (c = 'e' ∨ c = 'E') ∧ digits ≠ [] ∧ digits.all Char.isDigit then
      some (if negative then -decimal digits else decimal digits)
    else none

/-- What follows the whole part of a number: the digits of a fraction and an exponent. -/
def tail? (s : List Char) : Option (List Char × Int) :=
  match s with
  | '.' :: rest => do
    let fraction := rest.takeWhile Char.isDigit
    if fraction.isEmpty then none
    return (fraction, ← exponent? (rest.dropWhile Char.isDigit))
  | s => do return ([], ← exponent? s)

/-- A number. Whole numbers beyond 64 bits, and minus zero, are no counters. -/
def number? (s : List Char) : Option Json := do
  let (negative, unsigned) := match s with
    | '-' :: rest => (true, rest)
    | s => (false, s)
  let digits := unsigned.takeWhile Char.isDigit
  let rest := unsigned.dropWhile Char.isDigit
  let (fraction, exponent) ← tail? rest
  if !isWhole digits then none
  let n := decimal digits
  let counter := if negative then 0 < n ∧ n ≤ Int64.minValue.toInt.natAbs else n < UInt64.size
  if rest.isEmpty ∧ counter then return .int (if negative then -n else n)
  match Double.ofDigits? digits fraction exponent with
  | some x => return .real (if negative then "-" ++ x.text else x.text)
  | none => return .unreadable

def word? (s : List Char) : Option Json :=
  if s = "null".toList then some .null
  else if s = "true".toList then some (.bool true)
  else if s = "false".toList then some (.bool false)
  else number? s

/-! ## Values -/

/-- An open array, or an open object with the name of the field being read. Items and fields read
so far stand in reverse; the fields are lost on a name that can not be read. -/
inductive Frame where
  | array (items : List Json)
  | object (fields : Option Fields) (name : String)

inductive Expected where
  | value
  | valueOrEnd
  | name
  | nameOrEnd
  | colon
  | commaOrEnd
  | nothing (result : Json)

abbrev Assembly := Expected × List Frame

/-- How many arrays and objects may be open at a time for the innermost one to be readable. -/
def maxDepth : Nat := 127

def completed (value : Json) : List Frame → Assembly
  | [] => (.nothing value, [])
  | .array items :: stack => (.commaOrEnd, .array (value :: items) :: stack)
  | .object fields name :: stack =>
    (.commaOrEnd, .object (fields.map ((name, value) :: ·)) name :: stack)

/-- An array or object is complete; the others that are still open stand on the stack. -/
def closed (value : Json) (stack : List Frame) : Assembly :=
  completed (if (stack.drop (maxDepth - 1)).isEmpty then value else .unreadable) stack

def closedObject (fields : Option Fields) (stack : List Frame) : Assembly :=
  closed (match fields with
    | some fields => .object fields.reverse
    | none => .unreadable) stack

def completedText (s : Option String) (stack : List Frame) : Assembly :=
  completed (match s with
    | some s => .string s
    | none => .unreadable) stack

def named (fields : Option Fields) (name : Option String) (stack : List Frame) : Assembly :=
  match name with
  | some name => (.colon, .object fields name :: stack)
  | none => (.colon, .object none "" :: stack)

def stepToken : Assembly → Token → Option Assembly
  | (.valueOrEnd, .array items :: stack), .endArray
  | (.commaOrEnd, .array items :: stack), .endArray =>
    some (closed (.array items.reverse) stack)
  | (.nameOrEnd, .object fields _ :: stack), .endObject
  | (.commaOrEnd, .object fields _ :: stack), .endObject =>
    some (closedObject fields stack)
  | (.commaOrEnd, .array items :: stack), .comma => some (.value, .array items :: stack)
  | (.commaOrEnd, .object fields name :: stack), .comma =>
    some (.name, .object fields name :: stack)
  | (.name, .object fields _ :: stack), .text name
  | (.nameOrEnd, .object fields _ :: stack), .text name => some (named fields name stack)
  | (.colon, stack), .colon => some (.value, stack)
  | (.value, stack), .beginArray | (.valueOrEnd, stack), .beginArray =>
    some (.valueOrEnd, .array [] :: stack)
  | (.value, stack), .beginObject | (.valueOrEnd, stack), .beginObject =>
    some (.nameOrEnd, .object (some []) "" :: stack)
  | (.value, stack), .text s | (.valueOrEnd, stack), .text s => some (completedText s stack)
  | (.value, stack), .word s | (.valueOrEnd, stack), .word s =>
    (word? s).map (completed · stack)
  | _, _ => none

def document? (s : String) : Option Json := do
  let tokens ← tokens? s.toList
  match ← tokens.foldlM stepToken (.value, []) with
  | (.nothing result, []) => return result
  | _ => none

def parse? (s : String) : Option Json := (document? s).bind value?

end PushOperator.Json
