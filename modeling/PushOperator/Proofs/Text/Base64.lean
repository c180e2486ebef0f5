import Mathlib.Tactic.Common
import PushOperator.Json.Wire

/-!
# Bytes that are read back

What was written as bytes is read back as it was: text by way of UTF-8, and bytes by way of base64.
-/

namespace PushOperator

/-- The bytes of a text stand for that text. -/
theorem Bytes.text?_ofText (s : String) : (ofText s).text? = some s :=
  dif_pos s.isValidUTF8

namespace Base64

/-- A letter stands for the six bits that it was written for. -/
theorem value?_letter {n : Nat} (h : n < 64) : value? (letter n) = some n :=
  (by decide : ∀ n : Fin 64, value? (letter n) = some n.val) ⟨n, h⟩

theorem letter_ne_padding {n : Nat} (h : n < 64) : letter n ≠ '=' :=
  (by decide : ∀ n : Fin 64, letter n.val ≠ '=') ⟨n, h⟩

/-- A full group of letters. -/
theorem decode?_group {a b c d : Nat} (ha : a < 64) (hb : b < 64) (hc : c < 64) (hd : d < 64)
    (rest : List Char) :
    decode? (letter a :: letter b :: letter c :: letter d :: rest) = (decode? rest).map fun bytes =>
      let n := ((a * 64 + b) * 64 + c) * 64 + d
      (n / 65536).toUInt8 :: (n / 256 % 256).toUInt8 :: (n % 256).toUInt8 :: bytes := by
  have hpad := letter_ne_padding hd
  rw [decode?]
  · simp only [value?_letter, ha, hb, hc, hd]
    cases decode? rest <;> rfl
  · simp [hpad]
  · simp [hpad]

/-- What was written is read back. -/
theorem decode?_encode (bytes : List UInt8) : decode? (encode bytes) = some bytes := by
  induction bytes using encode.induct with
  | case1 a b c rest ih =>
    have ha := a.toNat_lt
    have hb := b.toNat_lt
    have hc := c.toNat_lt
    -- The three bytes are the digits of the four letters taken as one number.
    have hjoin (n : Nat) (hn : n < 16777216) :
        ((n / 262144 * 64 + n / 4096 % 64) * 64 + n / 64 % 64) * 64 + n % 64 = n := by omega
    rw [encode, decode?_group (by omega) (by omega) (by omega) (by omega), ih, Option.map_some]
    dsimp only
    rw [hjoin _ (by omega)]
    have h₁ : (a.toNat * 65536 + b.toNat * 256 + c.toNat) / 65536 = a.toNat := by omega
    have h₂ : (a.toNat * 65536 + b.toNat * 256 + c.toNat) / 256 % 256 = b.toNat := by omega
    have h₃ : (a.toNat * 65536 + b.toNat * 256 + c.toNat) % 256 = c.toNat := by omega
    rw [h₁, h₂, h₃]
    simp
  | case2 a b =>
    have ha := a.toNat_lt
    have hb := b.toNat_lt
    have hlast : letter ((a.toNat * 256 + b.toNat) % 16 * 4) ≠ '=' := letter_ne_padding (by omega)
    have hjoin :
        ((a.toNat * 256 + b.toNat) / 1024 * 64 + (a.toNat * 256 + b.toNat) / 16 % 64) * 64 +
          (a.toNat * 256 + b.toNat) % 16 * 4 = (a.toNat * 256 + b.toNat) * 4 := by omega
    rw [encode, decode?]
    · rw [value?_letter (by omega), value?_letter (by omega), value?_letter (by omega)]
      simp only [Option.bind_eq_bind, Option.bind_some, hjoin]
      have h₀ : (a.toNat * 256 + b.toNat) * 4 % 4 = 0 := by omega
      have h₁ : (a.toNat * 256 + b.toNat) * 4 / 1024 = a.toNat := by omega
      have h₂ : (a.toNat * 256 + b.toNat) * 4 / 4 % 256 = b.toNat := by omega
      rw [if_pos h₀, h₁, h₂]
      simp
    · simpa using hlast
  | case3 a =>
    have ha := a.toNat_lt
    have hjoin : a.toNat / 4 * 64 + a.toNat % 4 * 16 = a.toNat * 16 := by omega
    rw [encode, decode?]
    rw [value?_letter (by omega), value?_letter (by omega)]
    simp only [Option.bind_eq_bind, Option.bind_some, hjoin]
    have h₀ : a.toNat * 16 % 16 = 0 := by omega
    have h₁ : a.toNat * 16 / 16 = a.toNat := by omega
    rw [if_pos h₀, h₁]
    simp
  | case4 => rfl

end Base64

/-- Bytes that are written to the wire are read from it as they were. -/
theorem Bytes.ofJson?_toJson (bytes : Bytes) :
    Wire.ofJson? (Wire.toJson bytes) = some bytes := by
  have hletters : Wire.ofJson? (Wire.toJson bytes) =
      (Base64.decode? (String.ofList (Base64.encode bytes.toList)).toList).map Bytes.mk := by
    show ((Base64.decode? _).bind fun read => some (Bytes.mk read)) = _
    rw [Option.map_eq_bind]
    rfl
  rw [hletters, String.toList_ofList, Base64.decode?_encode]
  rfl

end PushOperator
