import PushOperator.Text.Base64

/-!
# Bytes as text

Bytes are read as UTF-8 by a machine that takes one byte at a time. Where they are not UTF-8, every
longest part that could have begun a character gives way to a replacement character, and so does
every byte that could not.
-/

namespace PushOperator.Text.Utf8

/-- A character that has begun: the bits read so far, and the ranges in which the bytes that are
still to come have to lie. -/
structure Begun where
  bits : Nat
  due : List (Nat × Nat)

def begin? (b : Nat) : Option Begun :=
  let tail := (0x80, 0xbf)
  if b < 0x80 then some ⟨b, []⟩
  else if 0xc2 ≤ b ∧ b ≤ 0xdf then some ⟨b - 0xc0, [tail]⟩
  else if b = 0xe0 then some ⟨0, [(0xa0, 0xbf), tail]⟩
  else if b = 0xed then some ⟨b - 0xe0, [(0x80, 0x9f), tail]⟩
  else if 0xe1 ≤ b ∧ b ≤ 0xef then some ⟨b - 0xe0, [tail, tail]⟩
  else if b = 0xf0 then some ⟨0, [(0x90, 0xbf), tail, tail]⟩
  else if 0xf1 ≤ b ∧ b ≤ 0xf3 then some ⟨b - 0xf0, [tail, tail, tail]⟩
  else if b = 0xf4 then some ⟨4, [(0x80, 0x8f), tail, tail]⟩
  else none

def replacement : Char := '\ufffd'

/-- A first byte: the characters it completes, and the character it begins. -/
def stepFirst (b : Nat) : List Char × Option Begun :=
  match begin? b with
  | some ⟨bits, []⟩ => ([Char.ofNat bits], none)
  | some begun => ([], some begun)
  | none => ([replacement], none)

/-- One byte: the characters it completes, and the character that it leaves begun. -/
def step (begun : Option Begun) (b : Nat) : List Char × Option Begun :=
  match begun with
  | some ⟨bits, (low, high) :: due⟩ =>
    if low ≤ b ∧ b ≤ high then
      let bits := bits * 64 + b % 64
      if due.isEmpty then ([Char.ofNat bits], none) else ([], some ⟨bits, due⟩)
    else
      let (completed, begun) := stepFirst b
      (replacement :: completed, begun)
  | _ => stepFirst b

/-- The characters of bytes, after a character that has begun. -/
def decodeFrom : Option Begun → List UInt8 → List Char
  | none, [] => []
  | some _, [] => [replacement]
  | begun, b :: rest =>
    let (completed, begun) := step begun b.toNat
    completed ++ decodeFrom begun rest

def decode (bytes : Bytes) : String := String.ofList (decodeFrom none bytes.toList)

end PushOperator.Text.Utf8
