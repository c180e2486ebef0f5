import Mathlib.Tactic.Common
import PushOperator.Json.Reader
import PushOperator.Json.Text

/-!
# Quoted texts are read back

A text that was written between quotes is one token again when it is read, whatever stands in it.
-/

namespace PushOperator.Json

/-- The digits of a code below 32 are those of a control character. -/
theorem hexValue?_digits : ∀ n < 32, hexValue? (Nat.digitChar (n / 16)) = some (n / 16) ∧
    hexValue? (Nat.digitChar (n % 16)) = some (n % 16) := by
  decide

/-- The code of a control character stands for it. -/
theorem afterCode_of_control {read : List Char} {c : Char} (h : c.toNat < 0x20) :
    afterCode (some read) none c.toNat = .string (some (c :: read)) none := by
  have hhigh : ¬(0xD800 ≤ c.toNat ∧ c.toNat < 0xDC00) := by omega
  have hlow : ¬(0xDC00 ≤ c.toNat ∧ c.toNat < 0xE000) := by omega
  unfold afterCode
  simp only [hhigh, hlow, if_false, Option.map_some, Char.ofNat_toNat]

/-- What a character is written as between quotes is read as that character. -/
theorem foldlM_escapeChar (c : Char) (read : List Char) (tokens : List Token) :
    (escapeChar c).foldlM stepChar (.string (some read) none, tokens) =
      some (.string (some (c :: read)) none, tokens) := by
  unfold escapeChar
  split
  iterate 7 rfl
  next hquote hbackslash _ _ _ _ _ =>
  have hquote : c ≠ '"' := hquote
  have hbackslash : c ≠ '\\' := hbackslash
  split
  · next hcontrol =>
    obtain ⟨hdiv, hmod⟩ := hexValue?_digits c.toNat hcontrol
    have hzero : hexValue? '0' = some 0 := by decide
    have hcode : c.toNat / 16 * 16 + c.toNat % 16 = c.toNat := by omega
    simp [stepChar, hzero, hdiv, hmod, hcode, afterCode_of_control hcontrol]
  · next hplain => simp [stepChar, letter, hquote, hbackslash, hplain]

theorem foldlM_letters (letters read : List Char) (tokens : List Token) :
    (letters.flatMap escapeChar).foldlM stepChar (.string (some read) none, tokens) =
      some (.string (some (letters.reverse ++ read)) none, tokens) := by
  induction letters generalizing read with
  | nil => rfl
  | cons c letters ih =>
    rw [List.flatMap_cons, List.foldlM_append, foldlM_escapeChar]
    simp [ih]

/-! ## Texts and their tokens -/

/-- A text is cut into some tokens, whatever comes before and after it. -/
def Reads (text : String) (tokens : List Token) : Prop :=
  ∀ before, text.toList.foldlM stepChar (.between, before) =
    some (.between, tokens.reverse ++ before)

theorem Reads.append {a b : String} {as bs : List Token} (ha : Reads a as) (hb : Reads b bs) :
    Reads (a ++ b) (as ++ bs) := by
  intro before
  rw [String.toList_append, List.foldlM_append, ha before]
  exact (hb _).trans (by simp)

theorem Reads.tokens?_eq {text : String} {tokens : List Token} (h : Reads text tokens) :
    tokens? text.toList = some tokens := by
  unfold tokens?
  rw [h []]
  simp

/-- A quoted text is the token of that text. -/
theorem reads_quote (s : String) : Reads (quote s) [.text (some s)] := by
  intro before
  have hopen : stepChar (.between, before) '"' = some (.string (some []) none, before) := rfl
  have hclose (read : List Char) : stepChar (.string (some read) none, before) '"' =
      some (.between, .text (some (String.ofList read.reverse)) :: before) := rfl
  simp [quote, hopen, foldlM_letters, hclose]

/-! ## Objects of texts -/

/-- The tokens of the fields of an object, each given by its name and the tokens of its value. -/
def fieldTokens : List (String × List Token) → List Token
  | [] => []
  | [(name, tokens)] => .text (some name) :: .colon :: tokens
  | (name, tokens) :: rest => .text (some name) :: .colon :: tokens ++ [.comma] ++ fieldTokens rest

/-- Fields whose values are cut into the tokens that stand with their names. -/
inductive ReadFields : List (String × Json) → List (String × List Token) → Prop
  | nil : ReadFields [] []
  | cons {name : String} {value : Json} {tokens : List Token} {fields : List (String × Json)}
    {rest : List (String × List Token)} (h : Reads value.compact tokens)
    (hrest : ReadFields fields rest) : ReadFields ((name, value) :: fields) ((name, tokens) :: rest)

theorem reads_fields {fields : List (String × Json)} {rest : List (String × List Token)}
    (h : ReadFields fields rest) : Reads (compactFields fields) (fieldTokens rest) := by
  have hcolon : Reads ":" [.colon] := fun _ => rfl
  have hcomma : Reads "," [.comma] := fun _ => rfl
  induction h with
  | nil => exact fun _ => rfl
  | @cons name value tokens fields rest h hrest ih =>
    have hfield := ((reads_quote name).append hcolon).append h
    cases hrest with
    | nil => exact hfield
    | cons => exact (hfield.append hcomma).append ih

theorem ReadFields.object {fields : List (String × Json)} {rest : List (String × List Token)}
    (h : ReadFields fields rest) :
    Reads (compact (.object fields)) (.beginObject :: fieldTokens rest ++ [.endObject]) := by
  have hbegin : Reads "\x7b" [.beginObject] := fun _ => rfl
  have hend : Reads "\x7d" [.endObject] := fun _ => rfl
  exact (hbegin.append (reads_fields h)).append hend

end PushOperator.Json
