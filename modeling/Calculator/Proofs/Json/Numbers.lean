import Calculator.Json.Reader
import Calculator.Proofs.Json.Grammar
import Calculator.Proofs.Token.Scan

/-!
# Numbers are read as the grammar has them

A number has no end of its own. The reader takes the longest spelling of each part, so it reads what
the grammar has if no number goes on behind it (`EndsNumber`). In the other direction, whatever it
takes is a number.
-/

namespace Calculator.Json

open Parsed (outcome)

/-- No number goes on here. -/
def EndsNumber (rest : List Char) : Prop :=
  ∀ c ∈ rest.head?, c.isDigit = false ∧ c ≠ '.' ∧ c ≠ 'e' ∧ c ≠ 'E'

variable {chars digits rest : List Char}

/-! ## Digits -/

theorem EndsNumber.isDigit_eq_false (h : EndsNumber rest) : ∀ c ∈ rest.head?, c.isDigit = false :=
  fun c hc => (h c hc).1

theorem Digits.isEmpty_eq_false (h : Digits digits) : digits.isEmpty = false :=
  List.isEmpty_eq_false_iff.2 h.1

/-- Digits are taken up to the first character that is none. -/
theorem spanDigits_append (h : Digits digits) (hrest : ∀ c ∈ rest.head?, c.isDigit = false) :
    spanDigits (digits ++ rest) = (digits, rest) := by
  rw [spanDigits, Lexeme.takeWhile_run h.2 hrest, Lexeme.dropWhile_run h.2 hrest]

/-- What is taken is digits, and it stands in front of what is left. -/
theorem spanDigits_spec {input : List Char} (h : spanDigits input = (digits, rest)) :
    (∀ c ∈ digits, c.isDigit = true) ∧ digits ++ rest = input := by
  cases h
  exact ⟨List.all_eq_true.1 List.all_takeWhile, List.takeWhile_append_dropWhile⟩

/-! ## The fractional part -/

theorem spanFraction?_append {fraction : List Char} (h : IsFraction fraction)
    (hrest : ∀ c ∈ rest.head?, c.isDigit = false ∧ c ≠ '.') :
    spanFraction? (fraction ++ rest) = some (fraction, rest) := by
  cases h with
  | absent =>
    rw [List.nil_append, spanFraction?]
    rintro rest' rfl
    exact (hrest '.' rfl).2 rfl
  | @present digits hdigits =>
    rw [List.cons_append, spanFraction?, spanDigits_append hdigits fun c hc => (hrest c hc).1]
    simp only [hdigits.isEmpty_eq_false, Bool.false_eq_true, if_false]

theorem spanFraction?_spec {input fraction : List Char}
    (h : spanFraction? input = some (fraction, rest)) :
    IsFraction fraction ∧ fraction ++ rest = input := by
  revert h
  fun_cases spanFraction? input
  case case1 => nofun
  case case2 input digits rest' hspan hne =>
    rintro ⟨⟩
    obtain ⟨hdigits, hinput⟩ := spanDigits_spec hspan
    exact ⟨.present ⟨by simpa using hne, hdigits⟩, by rw [List.cons_append, hinput]⟩
  case case3 =>
    rintro ⟨⟩
    exact ⟨.absent, rfl⟩

/-! ## The exponent -/

/-- The sign of an exponent, if there is one, and what follows. -/
def exponentSign : List Char → List Char × List Char
  | '+' :: rest => (['+'], rest)
  | '-' :: rest => (['-'], rest)
  | rest => ([], rest)

/-- An exponent behind its mark. -/
theorem spanExponent?_mark {mark : Char} (hmark : mark = 'e' ∨ mark = 'E')
    {input sign tail : List Char} (hsign : exponentSign input = (sign, tail)) :
    spanExponent? (mark :: input) =
      if (spanDigits tail).1.isEmpty then none
      else some (mark :: (sign ++ (spanDigits tail).1), (spanDigits tail).2) := by
  rw [spanExponent?.eq_def]
  change (if mark == 'e' || mark == 'E' then
    if (spanDigits (exponentSign input).2).1.isEmpty then none
    else some (mark :: ((exponentSign input).1 ++ (spanDigits (exponentSign input).2).1),
      (spanDigits (exponentSign input).2).2) else _) = _
  rw [if_pos (by simpa using hmark), hsign]

theorem exponentSign_append {sign : List Char} (h : sign = [] ∨ sign = ['+'] ∨ sign = ['-'])
    (hdigits : Digits digits) :
    exponentSign (sign ++ (digits ++ rest)) = (sign, digits ++ rest) := by
  obtain ⟨c, others, rfl⟩ := List.exists_cons_of_ne_nil hdigits.1
  have hc := hdigits.2 c List.mem_cons_self
  obtain rfl | rfl | rfl := h
  · rw [List.nil_append, List.cons_append, exponentSign]
    · rintro _ ⟨⟩
      exact nomatch hc
    · rintro _ ⟨⟩
      exact nomatch hc
  · rfl
  · rfl

theorem exponentSign_spec {input sign : List Char} (h : exponentSign input = (sign, rest)) :
    (sign = [] ∨ sign = ['+'] ∨ sign = ['-']) ∧ sign ++ rest = input := by
  revert h
  fun_cases exponentSign input <;> rintro ⟨⟩ <;> simp

theorem spanExponent?_append {exponent : List Char} (h : IsExponent exponent)
    (hrest : EndsNumber rest) : spanExponent? (exponent ++ rest) = some (exponent, rest) := by
  cases h with
  | absent =>
    cases rest with
    | nil => rfl
    | cons c rest =>
      have hc := hrest c rfl
      rw [List.nil_append, spanExponent?.eq_def]
      exact if_neg (by simp [hc.2.2])
  | @present mark sign digits hmark hsign hdigits =>
    rw [List.cons_append, List.append_assoc,
      spanExponent?_mark hmark (exponentSign_append hsign hdigits),
      spanDigits_append hdigits hrest.isDigit_eq_false]
    simp only [hdigits.isEmpty_eq_false, Bool.false_eq_true, if_false]

theorem spanExponent?_spec {input exponent : List Char}
    (h : spanExponent? input = some (exponent, rest)) :
    IsExponent exponent ∧ exponent ++ rest = input := by
  revert h
  fun_cases spanExponent? input
  case case1 => nofun
  case case2 mark input hmark sign tail hsign digits rest' hspan hne =>
    rintro ⟨⟩
    obtain ⟨hsign, htail⟩ := exponentSign_spec hsign
    obtain ⟨hdigits, hinput⟩ := spanDigits_spec hspan
    exact ⟨.present (by simpa using hmark) hsign ⟨by simpa using hne, hdigits⟩,
      by rw [List.cons_append, List.append_assoc, hinput, htail]⟩
  case case3 =>
    rintro ⟨⟩
    exact ⟨.absent, rfl⟩
  case case4 =>
    rintro ⟨⟩
    exact ⟨.absent, rfl⟩

/-! ## Numbers -/

/-- The spelling of the number at the front of a list, behind its sign. -/
def spellingFrom? (sign input : List Char) : Option (List Char) := do
  let (whole, rest) := spanDigits input
  if whole.isEmpty || (whole.length > 1 && whole.head? == some '0') then none
  else
    let (fraction, rest) ← spanFraction? rest
    let (exponent, _) ← spanExponent? rest
    return sign ++ whole ++ fraction ++ exponent

theorem numberSpelling?_minus (input : List Char) :
    numberSpelling? ('-' :: input) = spellingFrom? ['-'] input := by
  rw [numberSpelling?]
  rfl

theorem numberSpelling?_of_ne {input : List Char} (h : input.head? ≠ some '-') :
    numberSpelling? input = spellingFrom? [] input := by
  rw [numberSpelling?]
  · rfl
  · rintro _ rfl
    exact h rfl

/-- The test for whole numbers accepts those of the grammar. -/
theorem isWhole_iff (hdigits : ∀ c ∈ digits, c.isDigit = true) :
    ¬ (digits.isEmpty || (digits.length > 1 && digits.head? == some '0')) = true ↔
      IsWhole digits := by
  match digits with
  | [] => simp [IsWhole, Digits]
  | [c] => simpa [IsWhole, Digits] using hdigits
  | c :: d :: others => simpa [IsWhole, Digits] using fun _ => hdigits

/-- Neither a digit nor a point stands where an exponent may begin. -/
theorem IsExponent.head {exponent : List Char} (h : IsExponent exponent) (hrest : EndsNumber rest) :
    ∀ c ∈ (exponent ++ rest).head?, c.isDigit = false ∧ c ≠ '.' := by
  cases h with
  | absent => exact fun c hc => ⟨(hrest c hc).1, (hrest c hc).2.1⟩
  | present hmark _ _ =>
    rintro _ ⟨⟩
    obtain rfl | rfl := hmark <;> decide

/-- No digit stands where a fractional part may begin. -/
theorem IsFraction.head {fraction : List Char} (h : IsFraction fraction)
    (hrest : ∀ c ∈ rest.head?, c.isDigit = false ∧ c ≠ '.') :
    ∀ c ∈ (fraction ++ rest).head?, c.isDigit = false := by
  cases h with
  | absent => exact fun c hc => (hrest c hc).1
  | present _ =>
    rintro _ ⟨⟩
    rfl

theorem spellingFrom?_append (sign : List Char) (h : IsMagnitude chars) (hrest : EndsNumber rest) :
    spellingFrom? sign (chars ++ rest) = some (sign ++ chars) := by
  obtain @⟨whole, fraction, exponent, hwhole, hfraction, hexponent⟩ := h
  have hahead := hexponent.head hrest
  rw [spellingFrom?, List.append_assoc, List.append_assoc,
    spanDigits_append hwhole.1 (hfraction.head hahead)]
  simp only [if_neg ((isWhole_iff hwhole.1.2).2 hwhole), spanFraction?_append hfraction hahead,
    spanExponent?_append hexponent hrest, Option.bind_eq_bind, Option.bind_some, Option.pure_def,
    List.append_assoc]

theorem spellingFrom?_spec {sign input : List Char} (h : spellingFrom? sign input = some chars) :
    ∃ magnitude rest, chars = sign ++ magnitude ∧ IsMagnitude magnitude ∧
      input = magnitude ++ rest := by
  rw [spellingFrom?] at h
  generalize hspan : spanDigits input = span at h
  obtain ⟨whole, tail⟩ := span
  obtain ⟨hdigits, rfl⟩ := spanDigits_spec hspan
  simp only at h
  split at h
  · exact nomatch h
  next htest =>
  obtain ⟨⟨fraction, tail'⟩, hfraction, h⟩ := Option.bind_eq_some_iff.1 h
  obtain ⟨⟨exponent, rest⟩, hexponent, ⟨⟩⟩ := Option.bind_eq_some_iff.1 h
  obtain ⟨hisFraction, rfl⟩ := spanFraction?_spec hfraction
  obtain ⟨hisExponent, rfl⟩ := spanExponent?_spec hexponent
  refine ⟨whole ++ (fraction ++ exponent), rest, ?_, .parts ?_ hisFraction hisExponent, ?_⟩
  · simp only [List.append_assoc]
  · exact (isWhole_iff hdigits).1 htest
  · simp only [List.append_assoc]

theorem IsMagnitude.head (h : IsMagnitude chars) : ∃ c ∈ chars.head?, c.isDigit = true := by
  obtain @⟨whole, fraction, exponent, ⟨⟨hne, hdigits⟩, -⟩, -, -⟩ := h
  obtain ⟨c, others, rfl⟩ := List.exists_cons_of_ne_nil hne
  exact ⟨c, rfl, hdigits c List.mem_cons_self⟩

/-- A number begins with a digit or a minus sign. -/
theorem IsNumber.head (h : IsNumber chars) :
    ∃ c ∈ chars.head?, c.isDigit = true ∨ c = '-' := by
  cases h with
  | positive h =>
    obtain ⟨c, hc, hdigit⟩ := h.head
    exact ⟨c, hc, .inl hdigit⟩
  | negative _ => exact ⟨'-', rfl, .inr rfl⟩

theorem numberSpelling?_append (h : IsNumber chars) (hrest : EndsNumber rest) :
    numberSpelling? (chars ++ rest) = some chars := by
  cases h with
  | negative h => rw [List.cons_append, numberSpelling?_minus, spellingFrom?_append _ h hrest]; rfl
  | positive h =>
    obtain ⟨c, hc, hdigit⟩ := h.head
    rw [numberSpelling?_of_ne, spellingFrom?_append _ h hrest]
    · rfl
    · rw [List.head?_append, hc]
      rintro ⟨⟩
      exact nomatch hdigit

theorem numberSpelling?_spec {input : List Char} (h : numberSpelling? input = some chars) :
    IsNumber chars ∧ ∃ rest, input = chars ++ rest := by
  by_cases hminus : input.head? = some '-'
  · obtain ⟨tail, rfl⟩ := List.head?_eq_some_iff.1 hminus
    rw [numberSpelling?_minus] at h
    obtain ⟨magnitude, rest, rfl, hmagnitude, rfl⟩ := spellingFrom?_spec h
    exact ⟨.negative hmagnitude, rest, rfl⟩
  · rw [numberSpelling?_of_ne hminus] at h
    obtain ⟨magnitude, rest, rfl, hmagnitude, rfl⟩ := spellingFrom?_spec h
    exact ⟨.positive hmagnitude, rest, rfl⟩

/-- A number is read where it ends. -/
theorem outcome_numberOf?_append (h : IsNumber chars) (hrest : EndsNumber rest) :
    outcome (numberOf? (chars ++ rest)) = some (.number chars, rest) := by
  have hne : 0 < chars.length := by
    obtain ⟨c, hc, -⟩ := h.head
    cases chars with
    | nil => exact nomatch hc
    | cons _ _ => exact Nat.succ_pos _
  rw [numberOf?, numberSpelling?_append h hrest, Option.bind_eq_bind, Option.bind_some,
    dif_pos ⟨hne, by rw [List.length_append]; omega⟩]
  simp [outcome]

/-- What is read as a number is one. -/
theorem number_of_outcome {input : List Char} {value : Json}
    (h : outcome (numberOf? input) = some (value, rest)) :
    ∃ chars, value = .number chars ∧ IsNumber chars ∧ input = chars ++ rest := by
  obtain ⟨parsed, hparsed, rfl, rfl⟩ := Parsed.outcome_eq_some.1 h
  rw [numberOf?] at hparsed
  obtain ⟨chars, hspelling, hparsed⟩ := Option.bind_eq_some_iff.1 hparsed
  obtain ⟨hnumber, rest, rfl⟩ := numberSpelling?_spec hspelling
  split at hparsed
  · cases hparsed
    exact ⟨chars, rfl, hnumber, (congrArg (chars ++ ·) List.drop_left).symm⟩
  · exact nomatch hparsed

end Calculator.Json
