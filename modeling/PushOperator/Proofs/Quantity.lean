import Mathlib.Tactic.Common
import PushOperator.Quantity

/-!
# The grammar of quantities

A quantity is an optional sign, a number and a suffix (`Quantity.Written`). What is read takes the
longest run of digits and dots for the number. No suffix begins with one of these and no number
with a sign, so the parts of every quantity are found, and nothing but quantities is accepted
(`parse_iff_written`).
-/

namespace PushOperator.Quantity

/-! ## The grammar -/

/-- Any number of ASCII digits. -/
def Digits (s : List Char) : Prop := ∀ c ∈ s, '0' ≤ c ∧ c ≤ '9'

/-- One sign or none. -/
inductive Sign : List Char → Prop
  | none : Sign []
  | plus : Sign ['+']
  | minus : Sign ['-']

/-- At least one digit, with at most one dot among, before or after the digits. -/
inductive Number : List Char → Prop
  | whole {digits : List Char} : Digits digits → digits ≠ [] → Number digits
  | dotted {before after : List Char} : Digits before → Digits after → before ++ after ≠ [] →
    Number (before ++ '.' :: after)

/-- Nothing, a power of two, a power of ten, or an exponent. -/
inductive Suffix : List Char → Prop
  | none : Suffix []
  | binary {c : Char} : c ∈ ['K', 'M', 'G', 'T', 'P', 'E'] → Suffix [c, 'i']
  | decimal {c : Char} : c ∈ ['n', 'u', 'm', 'k', 'M', 'G', 'T', 'P', 'E'] → Suffix [c]
  | exponent {mark : Char} {sign digits : List Char} : mark ∈ ['e', 'E'] → Sign sign →
    Digits digits → digits ≠ [] → Suffix (mark :: (sign ++ digits))

/-- A text is written as a quantity. -/
def Written (text : String) : Prop :=
  ∃ sign number suffix, Sign sign ∧ Number number ∧ Suffix suffix ∧
    text.toList = sign ++ number ++ suffix

variable {s number suffix sign : List Char}

/-! ## Signs -/

theorem isDigit_iff {c : Char} : c.isDigit = true ↔ '0' ≤ c ∧ c ≤ '9' := by
  unfold Char.isDigit
  rw [Bool.and_eq_true, decide_eq_true_iff, decide_eq_true_iff]
  exact Iff.rfl

theorem digits_iff : Digits s ↔ s.all Char.isDigit = true := by
  simp only [List.all_eq_true, isDigit_iff]
  exact Iff.rfl

/-- Every text is a sign and what is left without it. -/
theorem exists_sign (s : List Char) : ∃ sign, Sign sign ∧ s = sign ++ unsigned s := by
  unfold unsigned
  split
  · exact ⟨['+'], .plus, rfl⟩
  · exact ⟨['-'], .minus, rfl⟩
  · exact ⟨[], .none, rfl⟩

/-- A sign is taken off what does not begin with another one. -/
theorem unsigned_append (hsign : Sign sign) (hs : s.head? ≠ some '+' ∧ s.head? ≠ some '-') :
    unsigned (sign ++ s) = s := by
  cases hsign with
  | plus => rfl
  | minus => rfl
  | none =>
    rw [List.nil_append]
    unfold unsigned
    split
    · exact absurd rfl hs.1
    · exact absurd rfl hs.2
    · rfl

/-! ## Numbers -/

/-- What may stand in a number. -/
def inNumber (c : Char) : Bool := c.isDigit || c == '.'

theorem inNumber_of_digits (h : Digits s) : ∀ c ∈ s, inNumber c = true := by
  intro c hc
  rw [inNumber, isDigit_iff.2 (h c hc), Bool.true_or]

theorem Number.inNumber (h : Number s) : ∀ c ∈ s, Quantity.inNumber c = true := by
  cases h with
  | whole hdigits _ => exact inNumber_of_digits hdigits
  | dotted hbefore hafter _ =>
    refine List.forall_mem_append.2 ⟨inNumber_of_digits hbefore, ?_⟩
    exact List.forall_mem_cons.2 ⟨rfl, inNumber_of_digits hafter⟩

theorem Number.ne_nil (h : Number s) : s ≠ [] := by
  cases h with
  | whole _ hne => exact hne
  | dotted _ _ _ => simp

/-- What may stand in a number is no sign, so a number has a sign only in front of it. -/
theorem unsigned_sign_append (hsign : Sign sign) (hne : number ≠ [])
    (h : ∀ c ∈ number, inNumber c = true) :
    unsigned (sign ++ (number ++ suffix)) = number ++ suffix := by
  obtain ⟨c, rest, rfl⟩ := List.exists_cons_of_ne_nil hne
  have hc : inNumber c = true := h c List.mem_cons_self
  refine unsigned_append hsign ⟨?_, ?_⟩
  · rintro ⟨⟩
    exact absurd hc (by decide)
  · rintro ⟨⟩
    exact absurd hc (by decide)

theorem count_dot_of_digits (h : Digits s) : s.count '.' = 0 := by
  rw [List.count_eq_zero]
  exact fun hdot => absurd (h '.' hdot) (by decide)

theorem any_of_digits (h : Digits s) (hne : s ≠ []) : s.any Char.isDigit = true := by
  obtain ⟨c, rest, rfl⟩ := List.exists_cons_of_ne_nil hne
  exact List.any_eq_true.2 ⟨c, List.mem_cons_self, isDigit_iff.2 (h c List.mem_cons_self)⟩

theorem isNumber_of_number (h : Number s) : isNumber s = true := by
  have hall : s.all (fun c => c.isDigit || c == '.') = true := List.all_eq_true.2 h.inNumber
  unfold isNumber
  rw [hall, Bool.and_true, Bool.and_eq_true, decide_eq_true_iff]
  cases h with
  | whole hdigits hne =>
    rw [count_dot_of_digits hdigits]
    exact ⟨any_of_digits hdigits hne, Nat.zero_le 1⟩
  | dotted hbefore hafter hne =>
    rw [List.count_append, List.count_cons_self, count_dot_of_digits hbefore,
      count_dot_of_digits hafter]
    refine ⟨?_, Nat.le_refl 1⟩
    have hany := any_of_digits (List.forall_mem_append.2 ⟨hbefore, hafter⟩) hne
    rw [List.any_append, Bool.or_eq_true] at hany
    rw [List.any_append, List.any_cons, Bool.or_eq_true, Bool.or_eq_true]
    exact hany.imp_right .inr

/-- Without a dot there are only digits. -/
theorem digits_of_no_dot (hall : ∀ c ∈ s, inNumber c = true) (hdot : '.' ∉ s) : Digits s := by
  intro c hc
  have hc' := hall c hc
  unfold inNumber at hc'
  rw [Bool.or_eq_true, beq_iff_eq] at hc'
  rcases hc' with hdigit | rfl
  · exact isDigit_iff.1 hdigit
  · exact absurd hc hdot

theorem number_of_isNumber (h : isNumber s = true) : Number s := by
  unfold isNumber at h
  rw [Bool.and_eq_true, Bool.and_eq_true, decide_eq_true_iff] at h
  obtain ⟨⟨hany, hall⟩, hcount⟩ := h
  have hin : ∀ c ∈ s, inNumber c = true := List.all_eq_true.1 hall
  by_cases hdot : '.' ∈ s
  · obtain ⟨before, after, rfl⟩ := List.append_of_mem hdot
    obtain ⟨hbefore, hafter⟩ := List.forall_mem_append.1 hin
    have hafter' := (List.forall_mem_cons.1 hafter).2
    -- The one dot is where the text was split.
    rw [List.count_append, List.count_cons_self] at hcount
    have hnone : before.count '.' = 0 ∧ after.count '.' = 0 := by omega
    refine .dotted (digits_of_no_dot hbefore (List.count_eq_zero.1 hnone.1))
      (digits_of_no_dot hafter' (List.count_eq_zero.1 hnone.2)) ?_
    intro hempty
    obtain ⟨rfl, rfl⟩ := List.append_eq_nil_iff.1 hempty
    exact absurd hany (by decide)
  · refine .whole (digits_of_no_dot hin hdot) ?_
    rintro rfl
    exact absurd hany (by decide)

theorem isNumber_iff : isNumber s = true ↔ Number s :=
  ⟨number_of_isNumber, isNumber_of_number⟩

/-! ## Suffixes -/

theorem isExponent_iff : isExponent s = true ↔ ∃ mark sign digits, mark ∈ ['e', 'E'] ∧ Sign sign ∧
    Digits digits ∧ digits ≠ [] ∧ s = mark :: (sign ++ digits) := by
  have hrest (rest : List Char) :
      (!(unsigned rest).isEmpty && (unsigned rest).all Char.isDigit) = true ↔
        ∃ sign digits, Sign sign ∧ Digits digits ∧ digits ≠ [] ∧ rest = sign ++ digits := by
    rw [Bool.and_eq_true, Bool.not_eq_true', List.isEmpty_eq_false_iff, ← digits_iff]
    constructor
    · rintro ⟨hne, hdigits⟩
      obtain ⟨sign, hsign, heq⟩ := exists_sign rest
      exact ⟨sign, unsigned rest, hsign, hdigits, hne, heq⟩
    · rintro ⟨sign, digits, hsign, hdigits, hne, rfl⟩
      have hunsigned : unsigned (sign ++ (digits ++ [])) = digits ++ [] :=
        unsigned_sign_append hsign hne (inNumber_of_digits hdigits)
      rw [List.append_nil] at hunsigned
      rw [hunsigned]
      exact ⟨hne, hdigits⟩
  unfold isExponent
  split
  · next rest => simp [hrest]
  · next rest => simp [hrest]
  · next hsmall hlarge =>
    refine ⟨nofun, ?_⟩
    rintro ⟨mark, sign, digits, hmark, -, -, -, rfl⟩
    simp only [List.mem_cons, List.not_mem_nil, or_false] at hmark
    rcases hmark with rfl | rfl
    · exact absurd rfl (hsmall _)
    · exact absurd rfl (hlarge _)

theorem mem_suffixes_iff : String.ofList s ∈ suffixes ↔
    (∃ c ∈ ['K', 'M', 'G', 'T', 'P', 'E'], s = [c, 'i']) ∨
      ∃ c ∈ ['n', 'u', 'm', 'k', 'M', 'G', 'T', 'P', 'E'], s = [c] := by
  have hofList (text : String) : String.ofList s = text ↔ s = text.toList := by
    rw [← String.toList_inj, String.toList_ofList]
  simp only [suffixes, List.mem_cons, List.not_mem_nil, or_false, hofList, String.toList,
    exists_eq_or_imp, exists_eq_left, or_assoc]
  exact Iff.rfl

theorem isSuffix_iff : isSuffix s = true ↔ Suffix s := by
  unfold isSuffix
  rw [Bool.or_eq_true, Bool.or_eq_true, List.isEmpty_iff, List.contains_iff_mem, mem_suffixes_iff,
    isExponent_iff]
  constructor
  · rintro ((rfl | ⟨c, hc, rfl⟩ | ⟨c, hc, rfl⟩) |
      ⟨mark, sign, digits, hmark, hsign, hdigits, hne, rfl⟩)
    · exact .none
    · exact .binary hc
    · exact .decimal hc
    · exact .exponent hmark hsign hdigits hne
  · rintro (_ | hc | hc | ⟨hmark, hsign, hdigits, hne⟩)
    · exact .inl (.inl rfl)
    · exact .inl (.inr (.inl ⟨_, hc, rfl⟩))
    · exact .inl (.inr (.inr ⟨_, hc, rfl⟩))
    · exact .inr ⟨_, _, _, hmark, hsign, hdigits, hne, rfl⟩

/-- No suffix begins with what may stand in a number. -/
theorem Suffix.head (h : Suffix suffix) {c : Char} {rest : List Char} (heq : suffix = c :: rest) :
    Quantity.inNumber c = false := by
  have hbinary : ∀ c ∈ ['K', 'M', 'G', 'T', 'P', 'E'], Quantity.inNumber c = false := by
    simp [Quantity.inNumber]
  have hdecimal : ∀ c ∈ ['n', 'u', 'm', 'k', 'M', 'G', 'T', 'P', 'E'],
      Quantity.inNumber c = false := by
    simp [Quantity.inNumber]
  have hmark : ∀ c ∈ ['e', 'E'], Quantity.inNumber c = false := by
    simp [Quantity.inNumber]
  cases h with
  | none => cases heq
  | binary hc =>
    cases heq
    exact hbinary c hc
  | decimal hc =>
    cases heq
    exact hdecimal c hc
  | exponent hc _ _ _ =>
    cases heq
    exact hmark c hc

/-! ## Quantities -/

/-- The longest run of digits and dots is the number. -/
theorem split_of_number (hnumber : Number number) (hsuffix : Suffix suffix) :
    (number ++ suffix).takeWhile inNumber = number ∧
      (number ++ suffix).dropWhile inNumber = suffix := by
  rw [List.takeWhile_append_of_pos hnumber.inNumber, List.dropWhile_append_of_pos hnumber.inNumber]
  cases suffix with
  | nil => simp
  | cons c rest => simp [hsuffix.head rfl]

theorem isValid_iff {text : String} : isValid text = true ↔ Written text := by
  have hvalid : isValid text =
      (isNumber ((unsigned text.toList).takeWhile inNumber) &&
        isSuffix ((unsigned text.toList).dropWhile inNumber)) := rfl
  rw [hvalid, Bool.and_eq_true, isNumber_iff, isSuffix_iff]
  constructor
  · rintro ⟨hnumber, hsuffix⟩
    obtain ⟨sign, hsign, heq⟩ := exists_sign text.toList
    refine ⟨sign, _, _, hsign, hnumber, hsuffix, ?_⟩
    rw [List.append_assoc, List.takeWhile_append_dropWhile, ← heq]
  · rintro ⟨sign, number, suffix, hsign, hnumber, hsuffix, heq⟩
    obtain ⟨htake, hdrop⟩ := split_of_number hnumber hsuffix
    rw [heq, List.append_assoc, unsigned_sign_append hsign hnumber.ne_nil hnumber.inNumber, htake,
      hdrop]
    exact ⟨hnumber, hsuffix⟩

/-- A text is read, as itself, exactly when it is written as a quantity. Any other text is refused
as a value that can not be used, and is quoted in the refusal. -/
theorem parse_iff_written (text : String) :
    (parse text = .ok text ↔ Written text) ∧
      (parse text = .error (.configuration ("quantity " ++ Text.quoted text ++ " is not valid")) ↔
        ¬Written text) := by
  rw [← isValid_iff]
  unfold parse
  split
  · next hvalid => simp [hvalid]
  · next hinvalid => simp [hinvalid]

/-- An `E` is a suffix of its own, and a mark only with digits after it. -/
example : ["1E", "1E3", "1E-3", "1Ei", "1E-", ".E"].map isValid =
    [true, true, true, true, false, false] := by decide

end PushOperator.Quantity
