import Calculator.Proofs.Token.Scan
import Calculator.Text.Bytes

/-!
# The lexical grammar

What the lexemes of a text are, as a relation that does not mention the scan. `Division` divides what
stands behind a place of a text into white space and lexemes; `Spells` says which characters spell a
token at a place. Runs are maximal. Digits that stand in a name belong to no number, so a run of
digits and points is looked for outside names only: `EndsInName` says of a place whether the
character before it stands in a name.

`Offends` names the faults that a text can have at a place: a run of digits and points that is no
number, and a character that belongs to no token and is no white space.
-/

namespace Calculator.Lexeme

open Text

/-! ## Names and numbers at a place of a text -/

/-- White space, the characters of tokens, and no others. -/
def IsLexical (c : Char) : Prop :=
  c ∈ [' ', '\t', '\n', '\x0c', '\r'] ∨ c ∈ ['+', '-', '*', '/', '^', '(', ')', ','] ∨
    c.isDigit = true ∨ c = '.' ∨ c.isAlpha = true ∨ c = '_'

/-- The last character of a text stands in a name: it begins one, or only letters, digits and
underscores stand between it and a character that does. -/
def EndsInName (before : List Char) : Prop :=
  ∃ front start others, before = front ++ start :: others ∧ Token.isNameStart start = true ∧
    ∀ c ∈ others, Token.isNameChar c = true

/-- A run of digits and points behind `before`, outside names, that goes on to neither side. -/
structure NumberRun (before run rest : List Char) : Prop where
  /-- There is something in it. -/
  nonempty : run ≠ []
  /-- It is made of digits and points. -/
  numeral : ∀ c ∈ run, isNumeralChar c = true
  /-- None of its characters stands in a name. -/
  outside : ∀ front c back, run = front ++ c :: back → ¬ EndsInName (before ++ (front ++ [c]))
  /-- A digit right before it stands in a name, and no point does. -/
  closedLeft : ∀ c ∈ before.getLast?, isNumeralChar c = true → EndsInName before
  /-- Neither a digit nor a point follows. -/
  closedRight : ∀ c ∈ rest.head?, isNumeralChar c = false

/-- A name behind `before` that goes on to neither side. -/
structure NameRun (before run rest : List Char) : Prop where
  /-- It begins as a name does. -/
  start : ∃ c others, run = c :: others ∧ Token.isNameStart c = true
  /-- It is made of letters, digits and underscores. -/
  chars : ∀ c ∈ run, Token.isNameChar c = true
  /-- No name reaches up to it. -/
  closedLeft : ¬ EndsInName before
  /-- Neither a letter nor a digit nor an underscore follows. -/
  closedRight : ∀ c ∈ rest.head?, Token.isNameChar c = false

/-- A run of digits and points that is a number: not more than one point, and something else. -/
def IsNumber (run : List Char) : Prop := run.count '.' ≤ 1 ∧ run ≠ ['.']

/-- The characters `piece`, between `before` and `rest`, spell a token. -/
inductive Spells (before : List Char) : List Char → List Char → Token → Prop where
  /-- An operator, a parenthesis or a comma. -/
  | symbol {c rest token} : Token.ofSymbol? c = some token → Spells before [c] rest token
  /-- A number, with the value that reading its text gives. -/
  | number {run rest x} : NumberRun before run rest → IsNumber run →
      Binary64.ofText? (String.ofList run) = some x → Spells before run rest (.number x)
  /-- A name. -/
  | name {run rest} : NameRun before run rest →
      Spells before run rest (.name (String.ofList run))

/-- What stands behind `before` is white space and these lexemes. -/
inductive Division : List Char → List Char → List Lexeme → Prop where
  /-- The lexeme of the end stands behind everything. -/
  | finish {before} : Division before [] [⟨.endOfInput, byteLength before⟩]
  /-- White space between lexemes. -/
  | gap {before c rest lexemes} : c ∈ [' ', '\t', '\n', '\x0c', '\r'] →
      Division (before ++ [c]) rest lexemes → Division before (c :: rest) lexemes
  /-- A lexeme, at the place where its characters begin. -/
  | lexeme {before piece rest token lexemes} : Spells before piece rest token →
      Division (before ++ piece) rest lexemes →
      Division before (piece ++ rest) (⟨token, byteLength before⟩ :: lexemes)

/-- What is wrong with the text at the place between `before` and `rest`. -/
inductive Offends (before : List Char) : List Char → Failure → Prop where
  /-- A run of digits and points that is no number. -/
  | malformed {run rest} : NumberRun before run rest → ¬ IsNumber run →
      Offends before (run ++ rest) (.invalid (.malformedNumber (String.ofList run)))
  /-- A character that has no place in an expression. -/
  | unrecognized {c rest} : ¬ IsLexical c →
      Offends before (c :: rest) (.invalid (.unrecognizedCharacter c (byteLength before)))

/-! ## The classes of characters -/

variable {c : Char} {before run rest : List Char}

/-- White space as the scan knows it. -/
theorem isGap_iff : Token.isGap c = true ↔ c ∈ [' ', '\t', '\n', '\x0c', '\r'] := by
  simp [Token.isGap, or_assoc]

/-- The characters that are a token by themselves. -/
theorem ofSymbol?_isSome_iff :
    (Token.ofSymbol? c).isSome = true ↔ c ∈ ['+', '-', '*', '/', '^', '(', ')', ','] := by
  unfold Token.ofSymbol?
  split
  all_goals simp_all

/-- Every character that may stand in an expression has one of the four classes of the scan. -/
theorem isLexical_iff : IsLexical c ↔ Token.isGap c = true ∨ (Token.ofSymbol? c).isSome = true ∨
    isNumeralChar c = true ∨ Token.isNameStart c = true := by
  simp only [IsLexical, isGap_iff, ofSymbol?_isSome_iff, isNumeralChar, Token.isNameStart,
    Bool.or_eq_true, beq_iff_eq, or_assoc]

/-- White space and tokens of one character stand in no name and in no number. -/
theorem isNameChar_of_single (h : Token.isGap c = true ∨ (Token.ofSymbol? c).isSome = true) :
    Token.isNameChar c = false ∧ isNumeralChar c = false := by
  rw [isGap_iff, ofSymbol?_isSome_iff] at h
  simp only [List.mem_cons, List.not_mem_nil, or_false] at h
  rcases h with (rfl | rfl | rfl | rfl | rfl) | (rfl | rfl | rfl | rfl | rfl | rfl | rfl | rfl) <;>
    exact ⟨rfl, rfl⟩

/-- What begins a name can stand in one. -/
theorem isNameChar_of_isNameStart (h : Token.isNameStart c = true) : Token.isNameChar c = true := by
  rw [Token.isNameStart, Bool.or_eq_true] at h
  rw [Token.isNameChar, Char.isAlphanum, Bool.or_eq_true, Bool.or_eq_true]
  exact h.imp_left .inl

/-- The characters of a name may stand in an expression. -/
theorem isLexical_of_isNameChar (h : Token.isNameChar c = true) : IsLexical c := by
  rw [Token.isNameChar, Char.isAlphanum, Bool.or_eq_true, Bool.or_eq_true, beq_iff_eq] at h
  rcases h with (h | h) | h
  · exact .inr (.inr (.inr (.inr (.inl h))))
  · exact .inr (.inr (.inl h))
  · exact .inr (.inr (.inr (.inr (.inr h))))

/-- The characters of a number may stand in an expression. -/
theorem isLexical_of_isNumeralChar (h : isNumeralChar c = true) : IsLexical c :=
  isLexical_iff.2 (.inr (.inr (.inl h)))

/-- Every character that may stand in an expression is one byte long. -/
theorem IsLexical.utf8Size_eq (h : IsLexical c) : c.utf8Size = 1 := by
  rw [Char.utf8Size_eq_one_iff, UInt32.le_iff_toNat_le]
  change c.toNat ≤ 127
  rcases h with h | h | h | h | h | h
  · simp only [List.mem_cons, List.not_mem_nil, or_false] at h
    rcases h with rfl | rfl | rfl | rfl | rfl <;> decide
  · simp only [List.mem_cons, List.not_mem_nil, or_false] at h
    rcases h with rfl | rfl | rfl | rfl | rfl | rfl | rfl | rfl <;> decide
  · exact Nat.le_trans (Char.isDigit_iff_toNat.1 h).2 (by decide)
  · subst h
    decide
  · rcases Bool.or_eq_true_iff.1 (show (c.isUpper || c.isLower) = true from h) with h | h
    · have hle : c.val ≤ 'Z'.val := (of_decide_eq_true h).2
      exact Nat.le_trans (UInt32.le_iff_toNat_le.1 hle) (by decide)
    · have hle : c.val ≤ 'z'.val := of_decide_eq_true (Bool.and_eq_true_iff.1 h).2
      exact Nat.le_trans (UInt32.le_iff_toNat_le.1 hle) (by decide)
  · subst h
    decide

/-! ## Sizes in bytes -/

/-- A piece of an expression has as many bytes as characters. -/
theorem byteLength_of_isLexical {piece : List Char} (h : ∀ c ∈ piece, IsLexical c) :
    byteLength piece = piece.length :=
  byteLength_eq_length fun c hc => (h c hc).utf8Size_eq

/-- A piece of an expression adds as many bytes as it has characters. -/
theorem byteLength_append_of_isLexical {piece : List Char} (h : ∀ c ∈ piece, IsLexical c)
    (before : List Char) : byteLength (before ++ piece) = byteLength before + piece.length := by
  rw [byteLength_append, byteLength_of_isLexical h]

/-- The size of a text is that of its characters. -/
theorem byteLength_toList (text : String) : byteLength text.toList = text.utf8ByteSize := by
  rw [← String.ofList_toList (s := text), String.toList_ofList]
  induction text.toList with
  | nil => rfl
  | cons c rest ih =>
    rw [String.ofList_cons, String.utf8ByteSize_append, String.utf8ByteSize_singleton, ← ih]
    rfl

/-! ## Places in names -/

/-- At the beginning of a text there is no name. -/
theorem not_endsInName_nil : ¬ EndsInName [] := by
  rintro ⟨front, start, others, h, -⟩
  exact absurd h (by simp)

/-- A character stands in a name if it begins one, or if it goes on with the one before it. -/
theorem endsInName_append_singleton : EndsInName (before ++ [c]) ↔
    Token.isNameStart c = true ∨ Token.isNameChar c = true ∧ EndsInName before := by
  constructor
  · rintro ⟨front, start, others, h, hstart, hothers⟩
    rcases List.eq_nil_or_concat others with rfl | ⟨others, d, rfl⟩
    · obtain ⟨rfl, rfl⟩ := List.append_singleton_inj.1 h
      exact .inl hstart
    · rw [List.concat_eq_append] at h hothers
      rw [← List.cons_append, ← List.append_assoc] at h
      obtain ⟨rfl, rfl⟩ := List.append_singleton_inj.1 h
      exact .inr ⟨hothers c (by simp), front, start, others, rfl, hstart,
        fun d hd => hothers d (List.mem_append_left _ hd)⟩
  · rintro (h | ⟨hc, front, start, others, rfl, hstart, hothers⟩)
    · exact ⟨before, c, [], rfl, h, by simp⟩
    · refine ⟨front, start, others ++ [c], by simp, hstart, fun d hd => ?_⟩
      rcases List.mem_append.1 hd with hd | hd
      · exact hothers d hd
      · rwa [List.mem_singleton.1 hd]

/-- No name begins with digits and points. -/
theorem not_endsInName_append (h : ¬ EndsInName before)
    (hrun : ∀ c ∈ run, isNumeralChar c = true) : ¬ EndsInName (before ++ run) := by
  induction run generalizing before with
  | nil => rwa [List.append_nil]
  | cons c run ih =>
    rw [← List.singleton_append, ← List.append_assoc]
    refine ih ?_ fun c hc => hrun c (List.mem_cons_of_mem _ hc)
    rw [endsInName_append_singleton]
    rintro (hc | ⟨-, hc⟩)
    · rw [isNameStart_of_isNumeralChar (hrun c (List.mem_cons_self ..))] at hc
      cases hc
    · exact h hc

end Calculator.Lexeme
