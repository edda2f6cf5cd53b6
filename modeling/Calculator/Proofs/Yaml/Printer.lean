import Calculator.Proofs.Decimal.Numeral
import Calculator.Proofs.Yaml.Scalar

/-!
# Texts and numbers are read back

The printer writes a text plain only where it is a plain line that stands for the text itself, and
between single quotes only where no character needs an escape (`lineStyle_cases`). So a text without
line breaks is read back in whatever style it is written (`isWritten_scalarChars`). Numerals are
words, which are plain lines, and stand for their numbers (`isWritten_numeral`).
-/

namespace Calculator.Yaml

variable {c before : Char} {text : List Char} {n : Nat}

/-! ## Texts -/

/-- What is taken for the end of a text is taken for a space after a mark. -/
theorem isBlankOrEnd_of_beginsWithSpace (h : beginsWithSpace text = true) :
    isBlankOrEnd text.head? = true := by
  cases text with
  | nil => rfl
  | cons c rest =>
    have hspace : isSpace c = true := h
    simp [isBlankOrEnd, hspace]

/-- A text without a mark that ends a scalar has no separator, and no comment begins in it. -/
theorem noSeparator_of_hasSeparator (h : hasSeparator before text = false) :
    noSeparator text = true ∧ beforeComment (before :: text) = before :: text := by
  induction text generalizing before with
  | nil => simp [noSeparator, beforeComment]
  | cons c rest ih =>
    simp only [hasSeparator, Bool.or_eq_false_iff, Bool.and_eq_false_imp] at h
    obtain ⟨⟨hcolon, hcomment⟩, hrest⟩ := h
    obtain ⟨hseparator, hwhole⟩ := ih hrest
    constructor
    · rw [noSeparator, hseparator, Bool.and_true, Bool.not_eq_true', Bool.and_eq_false_imp]
      intro hc
      rw [Bool.eq_false_iff]
      intro hspace
      rw [isBlankOrEnd_of_beginsWithSpace hspace] at hcolon
      exact Bool.noConfusion (hcolon hc)
    · rw [beforeComment, if_neg, hwhole]
      simp only [List.head?_cons, Bool.and_eq_true, beq_iff_eq, Option.some_inj]
      rintro ⟨hspace, rfl⟩
      simp [isBlankOrEnd, hspace] at hcomment

/-- A text without marks is plain as a whole, and no comment begins in it. -/
theorem isPlain_of_hasIndicator (h : hasIndicator text = false) :
    isPlain text = true ∧ beforeComment text = text := by
  cases text with
  | nil => exact ⟨rfl, rfl⟩
  | cons c rest =>
    simp only [hasIndicator, Bool.or_eq_false_iff] at h
    obtain ⟨⟨⟨-, hindicator⟩, hblank⟩, hrest⟩ := h
    obtain ⟨hseparator, hwhole⟩ := noSeparator_of_hasSeparator hrest
    refine ⟨?_, hwhole⟩
    have hspace : c = '?' ∨ c = ':' ∨ c = '-' → beginsWithSpace rest = false := by
      intro hc
      rw [Bool.eq_false_iff]
      intro hspace
      rw [isBlankOrEnd_of_beginsWithSpace hspace] at hblank
      rcases hc with rfl | rfl | rfl <;> simp at hblank
    simp only [isPlain, beginsPlain, noSeparator, hindicator, hseparator, Bool.not_false,
      Bool.true_and, Bool.and_true, Bool.and_eq_true, Bool.not_eq_true', Bool.and_eq_false_imp,
      Bool.or_eq_true, beq_iff_eq]
    exact ⟨fun hc => hspace (hc.symm.imp_right .inr), fun hc => hspace (.inr (.inl hc))⟩

/-- A printable character that is no space is no tab either. -/
theorem isSpace_of_isPrintable (h : isPrintable c = true) (hspace : c ≠ ' ') :
    isSpace c = false := by
  have htab : c ≠ '\t' := by
    rintro rfl
    exact absurd h (by decide)
  simp [isSpace, hspace, htab]

/-- A line is written plain only if nothing in it could be taken for something else, and between
single quotes only if it needs no escapes. -/
theorem lineStyle_cases (text : List Char) :
    lineStyle text = .plain ∧ IsPlainLine text ∧ (∀ c ∈ text, isPrintable c = true) ∧
        ofPlain text = .text (String.ofList text) ∨
      lineStyle text = .singleQuoted ∧ (∀ c ∈ text, isPrintable c = true) ∨
      lineStyle text = .doubleQuoted := by
  simp only [lineStyle]
  split
  · rename_i hplain
    simp only [Bool.not_eq_true', Bool.or_eq_false_iff, bne_eq_false_iff_eq, needsEscapes] at hplain
    obtain ⟨⟨⟨⟨⟨⟨hself, -⟩, hhead, hlast⟩, -, hprintable⟩, hindicator⟩, -⟩, hbreak⟩ := hplain
    have hprintable : ∀ c ∈ text, isPrintable c = true := by simpa using hprintable
    obtain ⟨hwhole, hcomment⟩ := isPlain_of_hasIndicator hindicator
    have hends : ∀ c ∈ text, (c == ' ' || isBreak c) = false → isSpace c = false := by
      intro c hc hend
      rw [Bool.or_eq_false_iff, beq_eq_false_iff_ne] at hend
      exact isSpace_of_isPrintable (hprintable c hc) hend.1
    refine .inl ⟨rfl, ⟨?_, hwhole, hcomment, ?_, ?_, by simpa using hbreak⟩, hprintable, hself⟩
    · rintro rfl
      exact absurd hself (by decide)
    · cases hc : text.head? with
      | none => rfl
      | some c => exact hends c (List.mem_of_head? hc) (by simpa [hc] using hhead)
    · cases hc : text.getLast? with
      | none => rfl
      | some c => exact hends c (List.mem_of_getLast? hc) (by simpa [hc] using hlast)
  · split
    · exact .inr (.inr rfl)
    · rename_i hescapes
      simp only [needsEscapes, Bool.not_eq_true, Bool.or_eq_false_iff] at hescapes
      exact .inr (.inl ⟨rfl, by simpa using hescapes.1.2⟩)

/-- A text without line breaks is read back in the style in which it is written. -/
theorem isWritten_scalarChars (h : ∀ c ∈ text, isBreak c = false) :
    IsWritten (scalarChars text) (.text (String.ofList text)) := by
  have hline : text.contains '\n' = false := by
    rw [List.contains_eq_mem, decide_eq_false_iff_not]
    intro hmem
    exact Bool.noConfusion (h '\n' hmem)
  rw [scalarChars, styleOf, hline, if_neg Bool.false_ne_true]
  rcases lineStyle_cases text with
    ⟨hstyle, hplain, hprintable, hself⟩ | ⟨hstyle, hprintable⟩ | hstyle
  · rw [hstyle, ← hself]
    exact hplain.isWritten hprintable
  · rw [hstyle]
    exact isWritten_singleQuote hprintable h
  · rw [hstyle]
    exact isWritten_doubleQuote h

/-! ## Words and numerals -/

/-- Whether a character is a letter, a digit or an underscore, which can stand anywhere in a key or
in a plain line. -/
def isWordChar (c : Char) : Bool := c.isAlphanum || c == '_'

/-- The marks that end a key or begin an item, a marker or a file. -/
def lineMarks : List Char := [':', '-', '?', '.', byteOrderMark]

/-- A character that is taken for itself wherever it stands on a line. -/
structure IsInert (c : Char) : Prop where
  /-- It can be written as itself. -/
  printable : isPrintable c = true
  /-- It ends no line. -/
  line : isBreak c = false
  /-- It is no space. -/
  space : isSpace c = false
  /-- It begins nothing but a plain scalar. -/
  indicator : isIndicator c = false
  /-- It is no other mark. -/
  notMem : c ∉ lineMarks

/-- A character that is taken for itself is no mark. -/
theorem IsInert.ne {mark : Char} (h : IsInert c) (hmark : mark ∈ lineMarks) : c ≠ mark :=
  fun hc => h.notMem (hc ▸ hmark)

/-- The characters of words are taken for themselves. -/
theorem isInert_of_isWordChar (h : isWordChar c = true) : IsInert c := by
  have hbound : c.toNat < 128 := by
    have hkind : (c.isUpper || c.isLower || c.isDigit || c == '_') = true := h
    rw [Bool.or_eq_true, Bool.or_eq_true, Bool.or_eq_true, beq_iff_eq] at hkind
    rcases hkind with ((h | h) | h) | rfl
    · have hle : c.val ≤ 'Z'.val := (of_decide_eq_true h).2
      exact Nat.lt_of_le_of_lt (UInt32.le_iff_toNat_le.1 hle) (by decide)
    · have hle : c.val ≤ 'z'.val := of_decide_eq_true (Bool.and_eq_true_iff.1 h).2
      exact Nat.lt_of_le_of_lt (UInt32.le_iff_toNat_le.1 hle) (by decide)
    · exact Nat.lt_of_le_of_lt (Char.isDigit_iff_toNat.1 h).2 (by decide)
    · decide
  have hall : ∀ n < 128, isWordChar (Char.ofNat n) = true →
      isPrintable (Char.ofNat n) = true ∧ isBreak (Char.ofNat n) = false ∧
        isSpace (Char.ofNat n) = false ∧ isIndicator (Char.ofNat n) = false ∧
          Char.ofNat n ∉ lineMarks := by
    decide +kernel
  have hc := hall _ hbound
  rw [Char.ofNat_toNat] at hc
  obtain ⟨hprintable, hline, hspace, hindicator, hmark⟩ := hc h
  exact ⟨hprintable, hline, hspace, hindicator, hmark⟩

/-- A line without spaces holds no comment. -/
theorem beforeComment_eq_self (h : ∀ c ∈ text, isSpace c = false) : beforeComment text = text := by
  induction text with
  | nil => rfl
  | cons c rest ih =>
    rw [List.forall_mem_cons] at h
    rw [beforeComment, h.1, Bool.false_and, if_neg Bool.false_ne_true, ih h.2]

/-- A line without colons holds no separator. -/
theorem noSeparator_of_notMem (h : ':' ∉ text) : noSeparator text = true := by
  induction text with
  | nil => rfl
  | cons c rest ih =>
    rw [List.mem_cons, not_or] at h
    have hc : (c == ':') = false := by simpa using Ne.symm h.1
    rw [noSeparator, ih h.2, hc]
    rfl

/-- A word can begin a plain scalar. -/
theorem beginsPlain_of_isWordChar (rest : List Char) (h : isWordChar c = true) :
    beginsPlain (c :: rest) = true := by
  have hinert := isInert_of_isWordChar h
  have hhyphen : c ≠ '-' := hinert.ne (by decide)
  have hquestion : c ≠ '?' := hinert.ne (by decide)
  simp [beginsPlain, hinert.indicator, hhyphen, hquestion]

/-- A word is a plain line. -/
theorem isPlainLine_of_isWordChar (hne : text ≠ []) (h : ∀ c ∈ text, isWordChar c = true) :
    IsPlainLine text := by
  have hinert : ∀ c ∈ text, IsInert c := fun c hc => isInert_of_isWordChar (h c hc)
  have hspace : ∀ c ∈ text, isSpace c = false := fun c hc => (hinert c hc).space
  have hcolon : ':' ∉ text := fun hmem => (hinert _ hmem).ne (by decide) rfl
  refine ⟨hne, ?_, beforeComment_eq_self hspace, ?_, ?_, fun c hc => (hinert c hc).line⟩
  · obtain ⟨c, rest, rfl⟩ := List.exists_cons_of_ne_nil hne
    rw [isPlain, noSeparator_of_notMem hcolon, Bool.and_true]
    exact beginsPlain_of_isWordChar rest (h c List.mem_cons_self)
  · cases hc : text.head? with
    | none => rfl
    | some c => exact hspace c (List.mem_of_head? hc)
  · cases hc : text.getLast? with
    | none => rfl
    | some c => exact hspace c (List.mem_of_getLast? hc)

/-- Digits to base 10 denote the number of their numeral. -/
theorem digitsToBase?_ten (hne : text ≠ []) (h : ∀ c ∈ text, c.isDigit = true) :
    digitsToBase? 10 text = some (ofNumeral text) := by
  have hfold : ∀ digits : List Char, (∀ c ∈ digits, c.isDigit = true) → ∀ n : Nat,
      (digits.foldlM (fun n c => do
        let d ← Text.hexValue? c
        if d < 10 then some (n * 10 + d) else none) n : Option Nat) =
      some (digits.foldl (fun n c => 10 * n + (c.toNat - '0'.toNat)) n) := by
    intro digits hdigits
    induction digits with
    | nil => exact fun n => rfl
    | cons c digits ih =>
      rw [List.forall_mem_cons] at hdigits
      intro n
      obtain ⟨hlow, hhigh⟩ := Char.isDigit_iff_toNat.1 hdigits.1
      have hvalue : Text.hexValue? c = some (c.toNat - '0'.toNat) := by
        rw [Text.hexValue?, if_pos hdigits.1]
      have hten : c.toNat - '0'.toNat < 10 := by
        have : '9'.toNat = '0'.toNat + 9 := rfl
        omega
      simp only [List.foldlM_cons, hvalue, Option.bind_eq_bind, Option.bind_some, if_pos hten,
        List.foldl_cons, Nat.mul_comm n 10]
      exact ih hdigits.2 _
  rw [digitsToBase?, if_neg (by simpa using hne), hfold text h, ofNumeral]

/-- A numeral has no mark for another base, and no zeros that say nothing. -/
theorem magnitude?_numeral (n : Nat) : magnitude? (numeral n) = some n := by
  have hletter : ∀ letter rest, numeral n = '0' :: letter :: rest → letter.isDigit = true :=
    fun letter rest heq => isDigit_of_mem_numeral (n := n) letter (by simp [heq])
  have hpadded : isZeroPadded (numeral n) = false := by
    obtain ⟨c, rest, hnumeral⟩ := List.exists_cons_of_ne_nil (numeral_ne_nil n)
    have hdigit : c.isDigit = true := isDigit_of_mem_numeral (n := n) c (by simp [hnumeral])
    have hsigns : c ≠ '-' ∧ c ≠ '+' := by
      constructor <;> rintro rfl <;> exact absurd hdigit (by decide)
    by_cases hzero : c = '0'
    · subst hzero
      rw [hnumeral, eq_nil_of_numeral_eq_cons_zero hnumeral]
      rfl
    · rw [hnumeral]
      simp [isZeroPadded, hsigns, hzero]
  rw [magnitude?]
  · rw [hpadded, if_neg Bool.false_ne_true, digitsToBase?_ten (numeral_ne_nil n)
      isDigit_of_mem_numeral, ofNumeral_numeral]
  · exact fun digits heq => absurd (hletter _ _ heq) (by decide)
  · exact fun digits heq => absurd (hletter _ _ heq) (by decide)
  · exact fun digits heq => absurd (hletter _ _ heq) (by decide)

/-- A numeral of at most 128 bits stands for its number. -/
theorem ofPlain_numeral (h : n < 2 ^ 128) : ofPlain (numeral n) = .integer n := by
  obtain ⟨c, rest, hnumeral⟩ := List.exists_cons_of_ne_nil (numeral_ne_nil n)
  have hdigit : c.isDigit = true := isDigit_of_mem_numeral (n := n) c (by simp [hnumeral])
  have hword : ∀ words : List String, (words.all fun word => !word.toList.head?.any Char.isDigit) →
      String.ofList (numeral n) ∉ words := by
    intro words hwords hmem
    have hhead := List.all_eq_true.1 hwords _ hmem
    rw [String.toList_ofList, hnumeral, List.head?_cons, Option.any_some, hdigit] at hhead
    exact Bool.noConfusion hhead
  have hinteger : integer? (numeral n) = some (n : Int) := by
    rw [integer?]
    · simp only [magnitude?_numeral, Option.bind_eq_bind, Option.bind_some, if_pos h]
    · rintro digits heq
      obtain ⟨rfl, -⟩ := List.cons.inj (hnumeral.symm.trans heq)
      exact absurd hdigit (by decide)
    · rintro digits heq
      obtain ⟨rfl, -⟩ := List.cons.inj (hnumeral.symm.trans heq)
      exact absurd hdigit (by decide)
  simp only [ofPlain, if_neg (hword ["", "null", "Null", "NULL", "~"] (by decide)),
    if_neg (hword ["true", "True", "TRUE"] (by decide)),
    if_neg (hword ["false", "False", "FALSE"] (by decide)), hinteger]

/-- A number is read back. -/
theorem isWritten_numeral (h : n < 2 ^ 128) : IsWritten (numeral n) (.integer n) := by
  have hword : ∀ c ∈ numeral n, isWordChar c = true := by
    intro c hc
    simp [isWordChar, Char.isAlphanum, isDigit_of_mem_numeral c hc]
  have hwritten := (isPlainLine_of_isWordChar (numeral_ne_nil n) hword).isWritten
    fun c hc => (isInert_of_isWordChar (hword c hc)).printable
  rwa [ofPlain_numeral h] at hwritten

end Calculator.Yaml
