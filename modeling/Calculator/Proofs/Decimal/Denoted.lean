import Calculator.Proofs.Decimal.Plain
import Calculator.Proofs.Decimal.Value
import Calculator.Proofs.Token.Scan

/-!
# The number that a text denotes

`denoted?` is the exact value of a text: digits with at most one point, after a minus sign or
without one, and perhaps with a power of ten after an `e`. No floating-point number and no precision
enters it. `Written` says how a number is shown, as a plain decimal or as one with a power of ten
behind it, and such a text denotes just this number (`Written.denoted?`).
-/

namespace Calculator

namespace Decimal

/-- The decimal of a text without a sign, with the power of ten after an `e` if there is one. -/
def ofUnsigned? (text : List Char) : Option Decimal :=
  match text.dropWhile (· != 'e') with
  | [] => ofPlain? text
  | _ :: exponent => do
    let d ← ofPlain? (text.takeWhile (· != 'e'))
    let e ← Binary64.exponentOf? exponent
    return ⟨d.coefficient, d.exponent + e⟩

end Decimal

/-- The number that a text denotes, exactly. -/
def denoted? : List Char → Option ℚ
  | '-' :: text => (Decimal.ofUnsigned? text).map fun d => -d.value
  | text => (Decimal.ofUnsigned? text).map Decimal.value

/-! ## The parts of a text that denotes a number -/

namespace Decimal

variable {run text : List Char} {d : Decimal}

/-- Only digits and points are read as a plain decimal, and at least one of them. -/
theorem isNumeralChar_of_ofPlain? (h : ofPlain? run = some d) :
    run ≠ [] ∧ ∀ c ∈ run, isNumeralChar c = true := by
  have hsplit : run.takeWhile Char.isDigit ++ run.dropWhile Char.isDigit = run :=
    List.takeWhile_append_dropWhile
  have hwhole : ∀ c ∈ run.takeWhile Char.isDigit, isNumeralChar c = true :=
    fun c hc => isNumeralChar_of_isDigit (List.mem_takeWhile_imp hc)
  unfold ofPlain? at h
  generalize run.takeWhile Char.isDigit = whole at hsplit hwhole h
  generalize run.dropWhile Char.isDigit = behind at hsplit h
  subst hsplit
  cases behind with
  | nil =>
    rw [List.append_nil]
    refine ⟨?_, hwhole⟩
    rintro rfl
    cases h
  | cons point fraction =>
    dsimp only at h
    split at h
    · rename_i hpoint
      simp only [Bool.and_eq_true, beq_iff_eq, List.all_eq_true] at hpoint
      obtain ⟨⟨rfl, hfraction⟩, -⟩ := hpoint
      refine ⟨List.append_ne_nil_of_right_ne_nil _ (List.cons_ne_nil _ _), ?_⟩
      refine List.forall_mem_append.2 ⟨hwhole, List.forall_mem_cons.2 ⟨rfl, fun c hc => ?_⟩⟩
      exact isNumeralChar_of_isDigit (hfraction c hc)
    · cases h

/-- A text without a sign is a plain decimal, or one before an `e` and an exponent. -/
theorem ofUnsigned?_cases (h : ofUnsigned? text = some d) :
    ofPlain? text = some d ∨ ∃ run exponent m e, text = run ++ 'e' :: exponent ∧
      ofPlain? run = some m ∧ Binary64.exponentOf? exponent = some e ∧
        d = ⟨m.coefficient, m.exponent + e⟩ := by
  have hsplit : text.takeWhile (· != 'e') ++ text.dropWhile (· != 'e') = text :=
    List.takeWhile_append_dropWhile
  have hhead := List.head?_dropWhile_not (· != 'e') text
  unfold ofUnsigned? at h
  generalize text.takeWhile (· != 'e') = run at hsplit h
  generalize text.dropWhile (· != 'e') = behind at hsplit hhead h
  cases behind with
  | nil => exact .inl h
  | cons mark exponent =>
    obtain rfl : mark = 'e' := by simpa using hhead
    simp only [Option.bind_eq_bind, Option.bind_eq_some_iff] at h
    obtain ⟨m, hm, e, he, heq⟩ := h
    exact .inr ⟨run, exponent, m, e, hsplit.symm, hm, he, (Option.some.inj heq).symm⟩

/-- A text without a sign begins with a digit or a point. -/
theorem exists_cons_of_ofUnsigned? (h : ofUnsigned? text = some d) :
    ∃ c rest, text = c :: rest ∧ isNumeralChar c = true := by
  have hbegin {run rest : List Char} {m : Decimal} (hm : ofPlain? run = some m) :
      ∃ c others, run ++ rest = c :: others ∧ isNumeralChar c = true := by
    obtain ⟨hne, hrun⟩ := isNumeralChar_of_ofPlain? hm
    obtain ⟨c, cs, rfl⟩ := List.exists_cons_of_ne_nil hne
    exact ⟨c, cs ++ rest, rfl, hrun c (List.mem_cons_self ..)⟩
  rcases ofUnsigned?_cases h with hplain | ⟨run, exponent, m, e, rfl, hm, -⟩
  · rw [← List.append_nil text]
    exact hbegin hplain
  · exact hbegin hm

/-- A text that begins with a digit or a point has no minus sign. -/
theorem beginsWithMinus_of_isNumeralChar {c : Char} (hc : isNumeralChar c = true)
    (rest : List Char) : ((c :: rest).head? == some '-') = false := by
  rw [beq_eq_false_iff_ne]
  rintro heq
  cases heq
  cases hc

end Decimal

/-! ## Plain decimals -/

namespace PlainDecimal

variable (d : PlainDecimal)

/-- A plain decimal is made of digits and points. -/
theorem isNumeralChar_of_mem_chars : ∀ c ∈ d.chars, isNumeralChar c = true := by
  have hwhole : ∀ c ∈ numeral d.whole, isNumeralChar c = true :=
    fun c hc => Decimal.isNumeralChar_of_isDigit (isDigit_of_mem_numeral c hc)
  unfold chars
  split_ifs
  · exact hwhole
  · refine List.forall_mem_append.2 ⟨hwhole, List.forall_mem_cons.2 ⟨rfl, fun c hc => ?_⟩⟩
    exact Decimal.isNumeralChar_of_isDigit (d.isDigit_of_mem c hc)

/-- A plain decimal has a digit. -/
theorem chars_ne_nil : d.chars ≠ [] := by
  unfold chars
  split_ifs
  · exact numeral_ne_nil _
  · exact List.append_ne_nil_of_left_ne_nil (numeral_ne_nil _) _

/-- There is no `e` in a plain decimal. -/
theorem e_notMem_chars : 'e' ∉ d.chars :=
  fun h => absurd (d.isNumeralChar_of_mem_chars 'e' h) (by decide)

/-- A plain decimal denotes no negative number. -/
theorem value_nonneg : 0 ≤ d.value := by
  unfold value
  positivity

/-- A plain decimal is read as a decimal of the same value. -/
theorem ofPlain?_chars : ∃ r, Decimal.ofPlain? d.chars = some r ∧ r.value = d.value := by
  unfold chars
  split_ifs with hfraction
  · refine ⟨_, Decimal.ofPlain?_digits isDigit_of_mem_numeral (numeral_ne_nil _), ?_⟩
    have hnone : ofNumeral [] = 0 := rfl
    rw [Decimal.value, value, hfraction, ofNumeral_numeral, hnone]
    simp
  · refine ⟨_, Decimal.ofPlain?_point isDigit_of_mem_numeral (numeral_ne_nil _) d.isDigit_of_mem, ?_⟩
    have hpos : (10 : ℚ) ^ d.fraction.length ≠ 0 := by positivity
    rw [Decimal.value, value, ofNumeral_append, ofNumeral_numeral, zpow_neg, zpow_natCast]
    push_cast
    field_simp

end PlainDecimal

/-! ## Exponents -/

/-- An exponent without a sign. -/
theorem Binary64.exponentOf?_digits {digits : List Char} (hdigits : ∀ c ∈ digits, c.isDigit = true)
    (hne : digits ≠ []) : Binary64.exponentOf? digits = some (ofNumeral digits : ℤ) := by
  obtain ⟨c, cs, rfl⟩ := List.exists_cons_of_ne_nil hne
  have hc : c.isDigit = true := hdigits c (List.mem_cons_self ..)
  have hall : (c :: cs).all Char.isDigit = true := List.all_eq_true.2 hdigits
  unfold exponentOf?
  split
  rename_i negative digits heq
  split at heq
  · rename_i h
    cases h
    cases hc
  · rename_i h
    cases h
    cases hc
  · cases heq
    rw [hall]
    rfl

/-- An exponent after a minus sign. -/
theorem Binary64.exponentOf?_minus {digits : List Char} (hdigits : ∀ c ∈ digits, c.isDigit = true)
    (hne : digits ≠ []) :
    Binary64.exponentOf? ('-' :: digits) = some (-(ofNumeral digits : ℤ)) := by
  have hall : digits.all Char.isDigit = true := List.all_eq_true.2 hdigits
  have hempty : digits.isEmpty = false := by simpa using hne
  simp only [exponentOf?, hall, hempty]
  rfl

/-- An exponent is read back. -/
theorem Binary64.exponentOf?_signedNumeral (e : ℤ) :
    Binary64.exponentOf? (signedNumeral e) = some e := by
  have hdigits : ∀ c ∈ numeral e.natAbs, c.isDigit = true := isDigit_of_mem_numeral
  unfold signedNumeral
  split_ifs with hneg
  · rw [exponentOf?_minus hdigits (numeral_ne_nil _), ofNumeral_numeral]
    congr 1
    omega
  · rw [exponentOf?_digits hdigits (numeral_ne_nil _), ofNumeral_numeral]
    congr 1
    omega

/-- There is no `e` in an exponent. -/
theorem e_notMem_signedNumeral (e : ℤ) : 'e' ∉ signedNumeral e := by
  have hnumeral : 'e' ∉ numeral e.natAbs :=
    fun h => absurd (isDigit_of_mem_numeral 'e' h) (by decide)
  unfold signedNumeral
  split_ifs
  · rw [List.mem_cons, not_or]
    exact ⟨by decide, hnumeral⟩
  · exact hnumeral

/-! ## Numbers as they are shown -/

/-- A text behind a minus sign, or by itself. -/
def signedText (negative : Prop) [Decidable negative] (text : List Char) : List Char :=
  if negative then '-' :: text else text

/-- A text without a sign that shows a number: a plain decimal, or one with a power of ten after an
`e`. -/
inductive Written : ℚ → List Char → Prop where
  /-- All digits stand in their places. -/
  | plain (d : PlainDecimal) : Written d.value d.chars
  /-- A power of ten follows. -/
  | scientific (d : PlainDecimal) (e : ℤ) :
      Written (d.value * 10 ^ e) (d.chars ++ 'e' :: signedNumeral e)

namespace Written

variable {r : ℚ} {text : List Char}

/-- What is written is read as a decimal of the same value. -/
theorem ofUnsigned? (h : Written r text) :
    ∃ d, Decimal.ofUnsigned? text = some d ∧ d.value = r := by
  have hmantissa (d : PlainDecimal) : ∀ c ∈ d.chars, (c != 'e') = true := fun c hc =>
    bne_iff_ne.2 fun he => d.e_notMem_chars (he ▸ hc)
  cases h with
  | plain d =>
    obtain ⟨m, hm, hvalue⟩ := d.ofPlain?_chars
    have hend : ∀ c ∈ ([] : List Char).head?, (c != 'e') = false := nofun
    have hdrop : d.chars.dropWhile (· != 'e') = [] := by
      rw [← Lexeme.dropWhile_run (hmantissa d) hend, List.append_nil]
    refine ⟨m, ?_, hvalue⟩
    simp only [Decimal.ofUnsigned?, hdrop, hm]
  | scientific d e =>
    obtain ⟨m, hm, hvalue⟩ := d.ofPlain?_chars
    have hmark : ∀ c ∈ ('e' :: signedNumeral e).head?, (c != 'e') = false := by
      rintro c ⟨⟩
      rfl
    refine ⟨⟨m.coefficient, m.exponent + e⟩, ?_, ?_⟩
    · simp only [Decimal.ofUnsigned?, Lexeme.dropWhile_run (hmantissa d) hmark,
        Lexeme.takeWhile_run (hmantissa d) hmark, hm, Binary64.exponentOf?_signedNumeral]
      rfl
    · rw [← hvalue, Decimal.value, Decimal.value, zpow_add₀ (by norm_num), mul_assoc]

/-- What is written has no sign of its own. -/
theorem beginsWithMinus (h : Written r text) (negative : Prop) [Decidable negative] :
    ((signedText negative text).head? == some '-') = decide negative := by
  obtain ⟨d, hd, -⟩ := h.ofUnsigned?
  obtain ⟨c, rest, rfl, hc⟩ := Decimal.exists_cons_of_ofUnsigned? hd
  unfold signedText
  split_ifs with hnegative
  · rw [decide_eq_true hnegative]
    rfl
  · rw [decide_eq_false hnegative, Decimal.beginsWithMinus_of_isNumeralChar hc]

/-- What is written denotes the number that it shows, and its opposite after a minus sign. -/
theorem denoted? (h : Written r text) (negative : Prop) [Decidable negative] :
    Calculator.denoted? (signedText negative text) = some (if negative then -r else r) := by
  obtain ⟨d, hd, rfl⟩ := h.ofUnsigned?
  obtain ⟨c, rest, rfl, hc⟩ := Decimal.exists_cons_of_ofUnsigned? hd
  unfold signedText
  split_ifs
  · rw [Calculator.denoted?, hd, Option.map_some]
  · unfold Calculator.denoted?
    split
    · rename_i heq
      cases heq
      cases hc
    · rw [hd, Option.map_some]

example : Calculator.denoted? ['-', '1', '.', '5', 'e', '-', '2'] = some (-15 / 1000) := by
  decide +kernel

end Written

end Calculator
