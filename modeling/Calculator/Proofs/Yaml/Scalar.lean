import Mathlib.Data.Nat.Init
import Calculator.Proofs.Yaml.Quoted

/-!
# Values are read up to the end of the line

What follows a key is either quoted or not (`valueOf?_single`, `valueOf?_double`, `valueOf?_bare`),
and takes the rest of its line (`IsWritten`). So it is with texts without line breaks between
quotes, and with plain lines: they begin with no mark and hold neither a separator nor a comment
(`IsPlainLine.isWritten`).
-/

namespace Calculator.Yaml

open Parsed (outcome)

variable {c : Char} {text rest more : List Char} {value : Scalar}

/-! ## Reading a value -/

/-- The value of a quoted scalar after which the line holds nothing but a comment. -/
def quotedValue? (scalar rest : List Char) : Option (EntryValue × List Char) :=
  if isCommentOrEnd (firstLine rest) then
    some (⟨.text (String.ofList scalar), false⟩, afterLine rest)
  else none

/-- The value that a line without quotes holds. -/
def bareValue? (text : List Char) : Option (EntryValue × List Char) :=
  (if isCommentOrEnd (firstLine text) then some ⟨.null, false⟩ else ofLine? (firstLine text)).map
    fun value => (value, afterLine text)

theorem outcome_ofQuoted? {n m : Nat} (h : n ≤ m) (scalar : Option (Parsed Char (List Char) n)) :
    outcome (do return (← ofQuoted? (← scalar)).weaken h) =
      (outcome scalar).bind fun r => quotedValue? r.1 r.2 := by
  cases scalar with
  | none => rfl
  | some scalar =>
    simp only [outcome, Option.map_some, Option.bind_some, Option.bind_eq_bind, ofQuoted?,
      quotedValue?]
    split <;> rfl

/-- A value that begins with a single quote. -/
theorem valueOf?_single {input : List Char} (hinput : input.dropWhile isSpace = '\'' :: rest) :
    outcome (valueOf? input) =
      (outcome (singleQuoted? rest)).bind fun r => quotedValue? r.1 r.2 := by
  rw [valueOf?]
  split
  · rename_i rest' _ _ h' _
    rw [hinput] at h'
    obtain ⟨-, rfl⟩ := List.cons.inj h'
    exact outcome_ofQuoted? _ _
  · rename_i rest' _ _ h' _
    rw [hinput] at h'
    cases h'
  · rename_i hsingle _
    exact (hsingle rest (hinput ▸ h) hinput (proof_irrel_heq _ _)).elim

/-- A value that begins with a double quote. -/
theorem valueOf?_double {input : List Char} (hinput : input.dropWhile isSpace = '"' :: rest) :
    outcome (valueOf? input) =
      (outcome (doubleQuoted? rest)).bind fun r => quotedValue? r.1 r.2 := by
  rw [valueOf?]
  split
  · rename_i rest' _ _ h' _
    rw [hinput] at h'
    cases h'
  · rename_i rest' _ _ h' _
    rw [hinput] at h'
    obtain ⟨-, rfl⟩ := List.cons.inj h'
    exact outcome_ofQuoted? _ _
  · rename_i hdouble
    exact (hdouble rest (hinput ▸ h) hinput (proof_irrel_heq _ _)).elim

/-- A value that begins with no quote. -/
theorem valueOf?_bare {input : List Char} (hinput : input.dropWhile isSpace = text)
    (hsingle : text.head? ≠ some '\'') (hdouble : text.head? ≠ some '"') :
    outcome (valueOf? input) = bareValue? text := by
  rw [valueOf?]
  split
  · rename_i rest' _ _ h' _
    rw [← hinput, h'] at hsingle
    exact absurd rfl hsingle
  · rename_i rest' _ _ h' _
    rw [← hinput, h'] at hdouble
    exact absurd rfl hdouble
  · subst hinput
    simp only [outcome, bareValue?]
    split
    · rfl
    · cases ofLine? (firstLine (input.dropWhile isSpace)) <;> rfl

/-! ## Lines -/

/-- The first line of a text is the part before its first line break. -/
theorem firstLine_append (h : ∀ c ∈ text, isBreak c = false) :
    firstLine (text ++ '\n' :: more) = text := by
  rw [firstLine, List.takeWhile_append_of_pos fun c hc => by rw [h c hc]; rfl]
  exact List.append_nil text

/-- What follows the first line of a text is the part after its first line break. -/
theorem afterLine_append (h : ∀ c ∈ text, isBreak c = false) :
    afterLine (text ++ '\n' :: more) = more := by
  rw [afterLine, firstLine_append h, List.drop_length_add_append]
  rfl

/-- A value is written so that it is read back, and nothing that follows on the next lines is read
with it. -/
structure IsWritten (text : List Char) (value : Scalar) : Prop where
  /-- It stands on one line. -/
  line : ∀ c ∈ text, isBreak c = false
  /-- It is made of printable characters. -/
  printable : ∀ c ∈ text, isPrintable c = true
  /-- It is read up to the end of the line. -/
  reads : ∃ plainToEnd, ∀ more, outcome (valueOf? (' ' :: (text ++ '\n' :: more))) =
    some (⟨value, plainToEnd⟩, more)

/-- The rest of the line after a quoted scalar is empty. -/
theorem quotedValue?_line (scalar more : List Char) :
    quotedValue? scalar ('\n' :: more) = some (⟨.text (String.ofList scalar), false⟩, more) := rfl

/-- A text in single quotes is read back. -/
theorem isWritten_singleQuote (hprintable : ∀ c ∈ text, isPrintable c = true)
    (h : ∀ c ∈ text, isBreak c = false) :
    IsWritten (singleQuote text) (.text (String.ofList text)) := by
  rw [singleQuote_eq h]
  refine ⟨forall_mem_between rfl (forall_mem_doubled rfl h),
    forall_mem_between (by decide) (forall_mem_doubled (by decide) hprintable),
    false, fun more => ?_⟩
  have hspace : (' ' :: ('\'' :: (doubled text ++ ['\'']) ++ '\n' :: more)).dropWhile isSpace =
      '\'' :: (doubled text ++ '\'' :: '\n' :: more) := by simp [isSpace]
  rw [valueOf?_single hspace, singleQuoted?_doubled h (by simp)]
  exact quotedValue?_line text more

/-- A text in double quotes is read back. -/
theorem isWritten_doubleQuote (h : ∀ c ∈ text, isBreak c = false) :
    IsWritten (doubleQuote text) (.text (String.ofList text)) := by
  have hmem : ∀ c ∈ text.flatMap escapeChar, isPrintable c = true ∧ isBreak c = false := by
    intro c hc
    obtain ⟨b, hb, hc⟩ := List.mem_flatMap.1 hc
    exact isPrintable_of_mem_escapeChar (h b hb) c hc
  rw [doubleQuote]
  refine ⟨forall_mem_between rfl fun c hc => (hmem c hc).2,
    forall_mem_between (by decide) fun c hc => (hmem c hc).1, false, fun more => ?_⟩
  have hspace : (' ' :: ('"' :: (text.flatMap escapeChar ++ ['"']) ++ '\n' :: more)).dropWhile
      isSpace = '"' :: (text.flatMap escapeChar ++ '"' :: '\n' :: more) := by simp [isSpace]
  rw [valueOf?_double hspace, doubleQuoted?_escaped h]
  exact quotedValue?_line text more

/-! ## Plain lines -/

/-- A line that is read as one plain scalar. -/
structure IsPlainLine (text : List Char) : Prop where
  /-- It holds something. -/
  ne_nil : text ≠ []
  /-- It begins with no mark and holds no separator. -/
  plain : isPlain text = true
  /-- No comment begins on it. -/
  comment : beforeComment text = text
  /-- No space stands at its beginning. -/
  head : text.head?.any isSpace = false
  /-- No space stands at its end. -/
  last : text.getLast?.any isSpace = false
  /-- It is a line. -/
  line : ∀ c ∈ text, isBreak c = false

/-- A line that does not end with a space has no spaces to drop there. -/
theorem dropTrailingSpaces_eq_self (h : text.getLast?.any isSpace = false) :
    dropTrailingSpaces text = text := by
  rw [dropTrailingSpaces]
  rw [← List.head?_reverse] at h
  cases hreverse : text.reverse with
  | nil => simpa using hreverse.symm
  | cons c front =>
    rw [hreverse] at h
    rw [List.dropWhile_cons_of_neg (by simpa using h), ← hreverse, List.reverse_reverse]

/-- A character that is no mark is none of them. -/
theorem ne_of_isIndicator {mark : Char} (h : isIndicator c = false)
    (hmark : isIndicator mark = true) : c ≠ mark := by
  rintro rfl
  rw [hmark] at h
  exact Bool.noConfusion h

/-- A plain line is read as what it stands for. -/
theorem IsPlainLine.isWritten (h : IsPlainLine text)
    (hprintable : ∀ c ∈ text, isPrintable c = true) : IsWritten text (ofPlain text) := by
  refine ⟨h.line, hprintable, true, fun more => ?_⟩
  obtain ⟨c, rest, rfl⟩ := List.exists_cons_of_ne_nil h.ne_nil
  have hspace : isSpace c = false := h.head
  have hindicator : isIndicator c = false := by
    have hbegins := (Bool.and_eq_true_iff.1 h.plain).1
    rw [beginsPlain, Bool.and_eq_true, Bool.not_eq_true'] at hbegins
    exact hbegins.1
  -- What begins a plain line is none of the marks.
  have hmark : ∀ mark, isIndicator mark = true → c ≠ mark := fun _ => ne_of_isIndicator hindicator
  have hdrop : (' ' :: (c :: rest ++ '\n' :: more)).dropWhile isSpace =
      c :: rest ++ '\n' :: more := by
    rw [List.dropWhile_cons_of_pos rfl, List.cons_append,
      List.dropWhile_cons_of_neg (by simp [hspace])]
  have hcomment : isCommentOrEnd (c :: rest) = false := by
    rw [isCommentOrEnd, List.dropWhile_cons_of_neg (by simp [hspace])]
    simpa using hmark '#' rfl
  rw [valueOf?_bare hdrop (by simpa using hmark '\'' rfl) (by simpa using hmark '"' rfl),
    bareValue?, firstLine_append h.line, afterLine_append h.line, hcomment,
    if_neg Bool.false_ne_true]
  have hvalue : ofLine? (c :: rest) = some ⟨ofPlain (c :: rest), true⟩ := by
    rw [ofLine?]
    simp only [h.comment, dropTrailingSpaces_eq_self h.last, List.head?_cons]
    split
    · exact absurd (Option.some.inj ‹_›) (hmark '[' rfl)
    · exact absurd (Option.some.inj ‹_›) (hmark '\x7b' rfl)
    · rw [if_pos h.plain, beq_self_eq_true]
  rw [hvalue]
  rfl

end Calculator.Yaml
