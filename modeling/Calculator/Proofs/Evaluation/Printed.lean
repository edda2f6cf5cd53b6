import Calculator.Engine
import Calculator.Proofs.Binary64.Rounded
import Calculator.Proofs.Parser.Viable
import Calculator.Proofs.Token.Concatenation

/-!
# Results typed back

The text of a number without an exponent is an expression: a number, or one after a minus sign. Its
value is the finite number nearest to what the text denotes, because a magnitude and its opposite are
rounded alike. An `e` after the digits is the beginning of a name for the scan, and no name can
follow a number. The parser stops there, at the name (`ofLexemes_stopped`).
-/

namespace Calculator

open Binary64 Lexeme Text

variable {negative : Prop} [Decidable negative] {x : Binary64} {r : ℚ}

/-! ## Numbers with a sign -/

/-- The tokens of a number that may have a minus sign. -/
def signedTokens (negative : Prop) [Decidable negative] (x : Binary64) : List Token :=
  if negative then [.minus, .number x] else [.number x]

/-- The tree of these tokens. -/
def signedTree (negative : Prop) [Decidable negative] (x : Binary64) : Expr :=
  if negative then .negate (.literal x) else .literal x

/-- A number is a sum, with a minus sign or without one. -/
theorem derives_signed (negative : Prop) [Decidable negative] (x : Binary64) :
    Expr.Derives 0 (.chain .sum (signedTree negative x)) (signedTokens negative x) := by
  have hnumber (d : Nat) : Expr.Derives d (.signed (.literal x)) [.number x] :=
    .unsigned (.base (.number x))
  have hsigned : Expr.Derives 0 (.signed (signedTree negative x)) (signedTokens negative x) := by
    unfold signedTree signedTokens
    split_ifs
    · exact .minus (by decide) (hnumber 1)
    · exact hnumber 0
  exact .chain (.first (.chain (.first hsigned)))

/-- The value of a number with a sign. -/
theorem value_signedTree (unit : AngleUnit) (negative : Prop) [Decidable negative] (x : Binary64) :
    (signedTree negative x).value unit = .ok (if negative then -x else x) := by
  unfold signedTree
  split_ifs
  · rw [Expr.value, Expr.value]
    rfl
  · rw [Expr.value]

/-- A minus sign goes before all that follows. -/
theorem signedText_append (negative : Prop) [Decidable negative] (front back : List Char) :
    signedText negative (front ++ back) = signedText negative front ++ back := by
  unfold signedText
  split_ifs <;> rfl

/-- There is no `e` in a plain decimal, with a minus sign or without one. -/
theorem e_notMem_signedText (negative : Prop) [Decidable negative] (d : PlainDecimal) :
    'e' ∉ signedText negative d.chars := by
  unfold signedText
  split_ifs
  · rw [List.mem_cons, not_or]
    exact ⟨by decide, d.e_notMem_chars⟩
  · exact d.e_notMem_chars

/-! ## The lexemes of a text -/

/-- A plain decimal, with a minus sign or without one, is scanned as a number with this sign. -/
theorem scan_signed {d : PlainDecimal} (hx : Binary64.ofPlain? d.chars = some x) (negative : Prop)
    [Decidable negative] : ∃ lexemes offset, lexemes.map Lexeme.token = signedTokens negative x ∧
      scan 0 (signedText negative d.chars) =
        .ok (lexemes ++ [⟨.endOfInput, offset⟩]) := by
  have hnumber (offset : Nat) : scan offset d.chars =
      .ok [⟨.number x, offset⟩, ⟨.endOfInput, offset + d.chars.length⟩] := by
    have hend : ∀ c ∈ ([] : List Char).head?, isNumeralChar c = false := nofun
    have hscan := scan_number d.isNumeralChar_of_mem_chars hend hx d.chars_ne_nil offset
    rwa [List.append_nil, scan_nil, ok_bind] at hscan
  unfold signedTokens signedText
  split_ifs
  · refine ⟨[⟨.minus, 0⟩, ⟨.number x, 1⟩], 1 + d.chars.length, rfl, ?_⟩
    rw [scan_symbol rfl, hnumber, ok_bind]
    rfl
  · exact ⟨[⟨.number x, 0⟩], _, rfl, hnumber 0⟩

/-- An exponent is scanned as a name that begins with its `e`, and perhaps a sign and a number after
it. -/
theorem scan_exponent (e : ℤ) (offset : Nat) : ∃ others,
    scan offset ('e' :: signedNumeral e) =
      .ok (⟨.name (String.ofList ('e' :: (signedNumeral e).takeWhile Token.isNameChar)), offset⟩ ::
        others) := by
  have hstart : Token.isNameStart 'e' = true := by decide
  have hdigit : ∀ c ∈ numeral e.natAbs, c.isDigit = true := isDigit_of_mem_numeral
  unfold signedNumeral
  split_ifs
  · -- The name ends before the minus sign, and a number follows.
    have hname : ∀ c ∈ ([] : List Char), Token.isNameChar c = true := nofun
    have hminus : ∀ c ∈ ('-' :: numeral e.natAbs).head?, Token.isNameChar c = false := by
      rintro c ⟨⟩
      rfl
    have hrun : ∀ c ∈ numeral e.natAbs, isNumeralChar c = true :=
      fun c hc => Decimal.isNumeralChar_of_isDigit (hdigit c hc)
    have hend : ∀ c ∈ ([] : List Char).head?, isNumeralChar c = false := nofun
    have hread := congrArg (Option.map (ofDecimal false))
      (Decimal.ofPlain?_digits hdigit (numeral_ne_nil e.natAbs))
    have hnumber := scan_number hrun hend hread (numeral_ne_nil _) (offset + 1 + 1)
    have hscan := scan_name hstart hname hminus offset
    rw [List.append_nil, scan_nil, ok_bind] at hnumber
    rw [scan_symbol rfl, List.length_singleton, hnumber, ok_bind, ok_bind] at hscan
    rw [List.takeWhile_cons_of_neg (by decide)]
    exact ⟨_, hscan⟩
  · -- All digits belong to the name.
    have hname : ∀ c ∈ numeral e.natAbs, Token.isNameChar c = true := fun c hc => by
      rw [Token.isNameChar, Char.isAlphanum, hdigit c hc, Bool.or_true, Bool.true_or]
    have hend : ∀ c ∈ ([] : List Char).head?, Token.isNameChar c = false := nofun
    have hscan := scan_name hstart hname hend offset
    rw [scan_nil, ok_bind, List.append_nil] at hscan
    rw [List.takeWhile_eq_self_iff.2 hname]
    exact ⟨_, hscan⟩

/-- The `e` of an exponent does not go on with the number before it. -/
theorem boundary_exponent (d : PlainDecimal) (negative : Prop) [Decidable negative] (e : ℤ) :
    Boundary (signedText negative d.chars) ('e' :: signedNumeral e) := by
  have hminus : ¬ EndsInName ['-'] := by
    rw [← List.nil_append ['-'], endsInName_append_singleton]
    rintro (h | ⟨h, -⟩) <;> cases h
  have houtside : ¬ EndsInName (signedText negative d.chars) := by
    unfold signedText
    split_ifs
    · exact not_endsInName_append hminus d.isNumeralChar_of_mem_chars
    · exact not_endsInName_append not_endsInName_nil d.isNumeralChar_of_mem_chars
  refine ⟨fun _ _ _ => houtside, ?_⟩
  rintro c ⟨⟩ hnumeral
  cases hnumeral

/-! ## The parser -/

/-- The lexemes of a number with a sign have the tree of this number. -/
theorem ofLexemes_signed {v : List Lexeme} (hv : v.map Lexeme.token = signedTokens negative x)
    (offset : Nat) :
    Expr.ofLexemes (v ++ [⟨.endOfInput, offset⟩]) = .ok (signedTree negative x) := by
  have hderives := derives_signed negative x
  have hend : ∀ l ∈ v, l.token ≠ .endOfInput := fun l hl heq =>
    hderives.endOfInput_notMem (hv ▸ heq ▸ List.mem_map_of_mem hl)
  rw [Expr.ofLexemes_eq_ok, Expr.beforeEnd_append hend]
  change Expr.Derives 0 _ ((v ++ []).map Lexeme.token)
  rwa [List.append_nil, hv]

/-- No name follows a sum, and the parser stops at it. -/
theorem ofLexemes_stopped {t : Expr} {v : List Lexeme}
    (h : Expr.Derives 0 (.chain .sum t) (v.map Lexeme.token)) (s : String) (offset : Nat)
    (rest : List Lexeme) :
    Expr.ofLexemes (v ++ ⟨.name s, offset⟩ :: rest) = .error (.unexpectedToken s offset) := by
  have hend : ∀ l ∈ v, l.token ≠ .endOfInput := fun l hl heq =>
    h.endOfInput_notMem (heq ▸ List.mem_map_of_mem hl)
  have hname : Expr.beforeEnd (⟨.name s, offset⟩ :: rest) =
      ⟨.name s, offset⟩ :: Expr.beforeEnd rest := List.takeWhile_cons_of_pos (by simp)
  have hstops : Expr.Stops 3 (⟨.name s, offset⟩ :: Expr.beforeEnd rest) :=
    Expr.stops_cons (by simp [Expr.looseness]) _
  have hsum : (Expr.sum 0 (v ++ ⟨.name s, offset⟩ :: Expr.beforeEnd rest)).bare =
      .ok (t, ⟨.name s, offset⟩ :: Expr.beforeEnd rest) := h.accepted v rfl _ hstops
  rw [Expr.ofLexemes_eq, Expr.beforeEnd_append hend, hname, hsum, ok_bind,
    if_neg (List.cons_ne_nil _ _)]
  rfl

/-! ## The texts of results -/

/-- A plain decimal, with a minus sign or without one, has the value of the number that it is read
as, with this sign. -/
theorem evaluateText_signed {d : PlainDecimal} (hx : Binary64.ofPlain? d.chars = some x)
    (negative : Prop) [Decidable negative] (unit : AngleUnit) :
    evaluateText (String.ofList (signedText negative d.chars)) unit =
      Expr.requireFinite (if negative then -x else x) := by
  obtain ⟨v, offset, hv, hscan⟩ := scan_signed hx negative
  rw [evaluateText, Expr.ofText, Lexeme.ofText, String.toList_ofList, hscan, ok_bind,
    ofLexemes_signed hv, ok_bind, Expr.evaluate, value_signedTree, ok_bind]

/-- With an exponent behind it, the name that begins with the `e` is refused. -/
theorem evaluateText_exponent {d : PlainDecimal} (hx : Binary64.ofPlain? d.chars = some x)
    (negative : Prop) [Decidable negative] (e : ℤ) (unit : AngleUnit) :
    evaluateText (String.ofList (signedText negative d.chars ++ 'e' :: signedNumeral e)) unit =
      .error (.unexpectedToken (String.ofList ('e' :: (signedNumeral e).takeWhile Token.isNameChar))
        (byteLength (signedText negative d.chars))) := by
  obtain ⟨v, offset, hv, hscan⟩ := scan_signed hx negative
  obtain ⟨others, hothers⟩ := scan_exponent e (byteLength (signedText negative d.chars))
  have hderives := derives_signed negative x
  rw [← hv] at hderives
  have hboundary := boundary_exponent d negative e
  have hall := scan_append ('e' :: signedNumeral e) 0 (signedText negative d.chars) []
    (boundary_nil _) hboundary
  rw [Nat.zero_add, hscan, hothers, ok_bind, ok_bind, List.dropLast_concat] at hall
  rw [evaluateText, Expr.ofText, Lexeme.ofText, String.toList_ofList, hall, ok_bind,
    ofLexemes_stopped hderives]
  rfl

/-- A number below `2 ^ 63` has a finite rank nearest to it. -/
theorem lt_magnitudes_of_isNearest {s : Nat} (hr : r < 2 ^ 63) (h : IsNearest (r * unitsPerOne) s) :
    s < magnitudes := by
  have hunits : units (1086 * 2 ^ 52) = 2 ^ 63 * unitsPerOne := by
    rw [show 1086 * 2 ^ 52 = 2 ^ 52 + 1085 * 2 ^ 52 by decide,
      units_significand (by decide) (.inr (Nat.le_refl _))]
    decide +kernel
  have hbelow : r * unitsPerOne ≤ units (1086 * 2 ^ 52) := by
    rw [hunits, Nat.cast_mul, Nat.cast_pow, Nat.cast_ofNat]
    exact mul_le_mul_of_nonneg_right hr.le unitsPerOne_cast_pos.le
  calc s ≤ 1086 * 2 ^ 52 := h.mono (isNearest_units _) hbelow
    _ < magnitudes := by decide

/-- The number of a rank has its opposite in the same rank. -/
theorem neg_ofRank (s : Nat) : -ofRank false s = ofRank true s := by
  unfold ofRank
  split_ifs <;> rfl

/-- The value of a plain decimal below `2 ^ 63` is the nearest finite number, with the sign before
the decimal. -/
theorem evaluateText_plain {d : PlainDecimal} (hlt : d.value < 2 ^ 63) (negative : Prop)
    [Decidable negative] (unit : AngleUnit) :
    ∃ rank : Fin magnitudes, IsNearest (d.value * unitsPerOne) rank ∧
      evaluateText (String.ofList (signedText negative d.chars)) unit =
        .ok (finite (decide negative) rank) := by
  obtain ⟨m, hm, hvalue⟩ := d.ofPlain?_chars
  obtain ⟨s, hs⟩ := exists_isNearest (mul_nonneg m.value_nonneg unitsPerOne_cast_pos.le)
  have hx : Binary64.ofPlain? d.chars = some (ofRank false s) := by
    rw [Binary64.ofPlain?, hm, Option.map_some, ofDecimal_eq_ofRank hs]
  rw [hvalue] at hs
  have hbound := lt_magnitudes_of_isNearest hlt hs
  refine ⟨⟨s, hbound⟩, hs, ?_⟩
  rw [evaluateText_signed hx, neg_ofRank, ofRank, ofRank, dif_pos hbound, dif_pos hbound]
  split_ifs with hnegative
  · rw [decide_eq_true hnegative]
    rfl
  · rw [decide_eq_false hnegative]
    rfl

/-- What is written without an exponent has the value of the nearest finite number, and what is
written with one is refused at its `e`. -/
theorem evaluateText_written {shown : List Char} (h : Written r shown)
    (hbelow : 'e' ∉ shown → r < 2 ^ 63) (negative : Prop) [Decidable negative] (unit : AngleUnit) :
    ('e' ∉ signedText negative shown →
      ∃ y, evaluateText (String.ofList (signedText negative shown)) unit = .ok y ∧
        RoundsTo (if negative then -r else r) y ∧ y.isNegative = decide negative) ∧
    ∀ front back, signedText negative shown = front ++ 'e' :: back →
      evaluateText (String.ofList (signedText negative shown)) unit =
        .error (.unexpectedToken (String.ofList ('e' :: back.takeWhile Token.isNameChar))
          (byteLength front)) := by
  cases h with
  | plain d =>
    refine ⟨fun _ => ?_, fun front back hsplit => ?_⟩
    · obtain ⟨rank, hnear, hvalue⟩ := evaluateText_plain (hbelow d.e_notMem_chars) negative unit
      have hrounds := roundsTo_finite d.value_nonneg hnear (decide negative)
      simp only [decide_eq_true_eq] at hrounds
      exact ⟨_, hvalue, hrounds, rfl⟩
    · have he := e_notMem_signedText negative d
      rw [hsplit] at he
      exact absurd (by simp) he
  | scientific d e =>
    rw [signedText_append]
    refine ⟨fun he => absurd (by simp) he, fun front back hsplit => ?_⟩
    -- There is only one `e`.
    obtain ⟨rfl, -, rfl⟩ := (List.append_cons_inj_of_notMem (e_notMem_signedText negative d)
      (e_notMem_signedNumeral e)).1 hsplit
    obtain ⟨m, hm, -⟩ := d.ofPlain?_chars
    have hx : Binary64.ofPlain? d.chars = some (ofDecimal false m) := by
      rw [Binary64.ofPlain?, hm, Option.map_some]
    exact evaluateText_exponent hx negative e unit

/-- **Results can be typed back unless they have an exponent.** The text of a finite number without an
`e` has a value in every unit: the finite number nearest to what the text denotes, with the sign of
the text. A text with an `e` is refused, at the name that begins there. -/
theorem evaluateText_format (negative : Bool) (rank : Fin magnitudes) (precision : Nat)
    (unit : AngleUnit) :
    let text := (finite negative rank).format precision
    ('e' ∉ text.toList → ∃ v y, denoted? text.toList = some v ∧ evaluateText text unit = .ok y ∧
      RoundsTo v y ∧ y.isNegative = (text.toList.head? == some '-')) ∧
    ∀ front back, text.toList = front ++ 'e' :: back →
      evaluateText text unit =
        .error (.unexpectedToken (String.ofList ('e' :: back.takeWhile Token.isNameChar))
          (byteLength front)) := by
  intro text
  obtain ⟨r, shown, hwritten, hbelow, htext, -⟩ := formatChars_written negative rank precision
  have htext' : text =
      String.ofList (signedText ((finite negative rank).value < 0) shown) := by
    rw [← htext]
    rfl
  obtain ⟨hvalue, hrefused⟩ := evaluateText_written hwritten hbelow
    ((finite negative rank).value < 0) unit
  rw [htext', String.toList_ofList]
  refine ⟨fun he => ?_, hrefused⟩
  obtain ⟨y, hy, hrounds, hsign⟩ := hvalue he
  refine ⟨_, y, hwritten.denoted? _, hy, hrounds, ?_⟩
  rw [hsign, hwritten.beginsWithMinus]

end Calculator
