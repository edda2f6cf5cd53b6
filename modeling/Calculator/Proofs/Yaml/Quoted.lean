import Calculator.Yaml.Printer

/-!
# Quoted scalars are read back

A text without line breaks is written between quotes character by character, so it is enough to know
what one written character is read as. Between single quotes that is a doubled quote or the
character itself (`singleQuoted?_doubled`), between double quotes an escape or the character itself
(`doubleQuoted?_escaped`). Which characters need an escape is a finite matter, and each escape of
them is checked (`isEscapeOf_escapeChar`).

The gaps in which line breaks are folded do no harm, because the spaces of a gap end at the closing
quote (`gapOf_any_isBreak`).
-/

namespace Calculator.Yaml

open Parsed (outcome)

variable {c : Char} {text rest : List Char}

/-- The spaces before a character that is none hold no line break if the text before it has none. -/
theorem gapOf_any_isBreak (before : List Char) (hbefore : ∀ c ∈ before, isBreak c = false)
    (hspace : isSpace c = false) (hbreak : isBreak c = false) :
    (gapOf (before ++ c :: rest)).any isBreak = false := by
  rw [gapOf, List.any_eq_false]
  intro b hb
  induction before with
  | nil => simp [hspace, hbreak] at hb
  | cons a before ih =>
    rw [List.forall_mem_cons] at hbefore
    rw [List.cons_append, List.takeWhile_cons] at hb
    split at hb
    · rcases List.mem_cons.1 hb with rfl | hb
      · simp [hbefore.1]
      · exact ih hbefore.2 hb
    · exact absurd hb List.not_mem_nil

/-! ## Single quotes -/

/-- A text with its single quotes doubled. -/
def doubled (text : List Char) : List Char :=
  text.flatMap fun c => if c = '\'' then ['\'', '\''] else [c]

theorem doubled_cons (c : Char) (text : List Char) :
    doubled (c :: text) = (if c = '\'' then ['\'', '\''] else [c]) ++ doubled text := rfl

/-- What holds of quotes and of the characters of a text holds of them with the quotes doubled. -/
theorem forall_mem_doubled {p : Char → Prop} (hquote : p '\'') (h : ∀ c ∈ text, p c) :
    ∀ c ∈ doubled text, p c := by
  intro c hc
  obtain ⟨b, hb, hc⟩ := List.mem_flatMap.1 hc
  split at hc
  · have hmark : c = '\'' := by simpa using hc
    exact hmark ▸ hquote
  · rw [List.mem_singleton.1 hc]
    exact h b hb

/-- What holds of a mark and of the characters of a text holds of them between two such marks. -/
theorem forall_mem_between {p : Char → Prop} {mark : Char} (hmark : p mark)
    (h : ∀ c ∈ text, p c) : ∀ c ∈ mark :: (text ++ [mark]), p c := by
  rw [List.forall_mem_cons, List.forall_mem_append, List.forall_mem_singleton]
  exact ⟨hmark, h, hmark⟩

/-- A line of a text without breaks is not indented. -/
theorem indentLines_eq_self (h : ∀ c ∈ text, isBreak c = false) :
    indentLines false text = text := by
  induction text with
  | nil => rfl
  | cons c text ih =>
    rw [List.forall_mem_cons] at h
    rw [indentLines, if_neg (by simp [h.1]), ih h.2]
    rfl

/-- A text without line breaks between single quotes. -/
theorem singleQuote_eq (h : ∀ c ∈ text, isBreak c = false) :
    singleQuote text = '\'' :: (doubled text ++ ['\'']) := by
  have hlast : text.getLast?.any isBreak = false := by
    cases hend : text.getLast? with
    | none => rfl
    | some c => exact h c (List.mem_of_getLast? hend)
  simp only [singleQuote, hlast, Bool.false_eq_true, if_false, List.append_nil]
  rw [← doubled, indentLines_eq_self (forall_mem_doubled rfl h)]

/-- The closing quote ends the reading. -/
theorem singleQuoted?_end (h : rest.head? ≠ some '\'') :
    outcome (singleQuoted? ('\'' :: rest)) = some ([], rest) := by
  rw [singleQuoted?]
  · rfl
  · rintro rest' rfl
    exact h rfl

/-- A quote that is written twice is read as one. -/
theorem singleQuoted?_quote (input : List Char) :
    outcome (singleQuoted? ('\'' :: '\'' :: input)) =
      (outcome (singleQuoted? input)).map fun r => ('\'' :: r.1, r.2) := by
  rw [singleQuoted?]
  cases singleQuoted? input <;> rfl

/-- A character that is no quote and begins no gap with a line break is read as itself. -/
theorem singleQuoted?_cons {input : List Char} (hc : c ≠ '\'')
    (hgap : (gapOf (c :: input)).any isBreak = false) :
    outcome (singleQuoted? (c :: input)) =
      (outcome (singleQuoted? input)).map fun r => (c :: r.1, r.2) := by
  rw [singleQuoted?]
  · simp only [hgap]
    cases singleQuoted? input <;> rfl
  · exact fun rest' heq _ => hc heq
  · exact fun heq => hc heq

/-- A text without line breaks is read back from between single quotes. -/
theorem singleQuoted?_doubled (h : ∀ c ∈ text, isBreak c = false) (hrest : rest.head? ≠ some '\'') :
    outcome (singleQuoted? (doubled text ++ '\'' :: rest)) = some (text, rest) := by
  induction text with
  | nil => exact singleQuoted?_end hrest
  | cons c text ih =>
    rw [List.forall_mem_cons] at h
    rw [doubled_cons]
    by_cases hc : c = '\''
    · rw [if_pos hc, List.append_assoc, List.cons_append, List.cons_append, List.nil_append,
        singleQuoted?_quote, ih h.2, hc]
      rfl
    · have hgap : (gapOf (c :: (doubled text ++ '\'' :: rest))).any isBreak = false :=
        gapOf_any_isBreak (c :: doubled text)
          (List.forall_mem_cons.2 ⟨h.1, forall_mem_doubled rfl h.2⟩) rfl rfl
      rw [if_neg hc, List.append_assoc, List.singleton_append, singleQuoted?_cons hc hgap, ih h.2]
      rfl

/-! ## Double quotes -/

/-- A way to write a character between double quotes after a backslash: a letter that stands for it,
or a letter and as many digits as it asks for. -/
def isEscapeOf (c : Char) : List Char → Bool
  | '\\' :: letter :: digits =>
    match escapeDigits? letter with
    | none => digits.isEmpty && !isBreak letter && escape? letter == some c
    | some count => digits.length == count && Text.charOfHex? digits == some c
  | _ => false

/-- The numbers of the characters that may need an escape. -/
def escapedNumbers : List Nat := List.range 160 ++ [0xFEFF, 0xFFFE, 0xFFFF]

/-- All other characters but line breaks are printable, and are written as themselves. -/
theorem escapeChar_of_notMem (hmem : c.toNat ∉ escapedNumbers) (h : isBreak c = false) :
    isPrintable c = true ∧ escapeChar c = [c] ∧ c ≠ '"' ∧ c ≠ '\\' := by
  have hquote : c ≠ '"' := by
    rintro rfl
    exact hmem (by decide)
  have hslash : c ≠ '\\' := by
    rintro rfl
    exact hmem (by decide)
  have hprintable : isPrintable c = true := by
    simp only [escapedNumbers, List.mem_append, List.mem_range, List.mem_cons, List.not_mem_nil,
      or_false, not_or] at hmem
    simp only [isPrintable, Bool.or_eq_true, Bool.and_eq_true, decide_eq_true_eq, beq_iff_eq,
      bne_iff_ne]
    omega
  refine ⟨hprintable, ?_, hquote, hslash⟩
  rw [escapeChar]
  simp [hquote, hslash, hprintable, h]

/-- A character between double quotes is written as itself or as an escape that stands for it. -/
theorem isEscapeOf_escapeChar (h : isBreak c = false) :
    escapeChar c = [c] ∧ c ≠ '"' ∧ c ≠ '\\' ∨ isEscapeOf c (escapeChar c) = true := by
  by_cases hmem : c.toNat ∈ escapedNumbers
  · have hall : ∀ n ∈ escapedNumbers, isBreak (Char.ofNat n) = false →
        escapeChar (Char.ofNat n) = [Char.ofNat n] ∧ Char.ofNat n ≠ '"' ∧ Char.ofNat n ≠ '\\' ∨
          isEscapeOf (Char.ofNat n) (escapeChar (Char.ofNat n)) = true := by
      decide +kernel
    have hc := hall _ hmem
    rw [Char.ofNat_toNat] at hc
    exact hc h
  · exact .inl (escapeChar_of_notMem hmem h).2

/-- A character between double quotes is written in printable characters on the same line. -/
theorem isPrintable_of_mem_escapeChar (h : isBreak c = false) :
    ∀ b ∈ escapeChar c, isPrintable b = true ∧ isBreak b = false := by
  by_cases hmem : c.toNat ∈ escapedNumbers
  · have hall : ∀ n ∈ escapedNumbers, isBreak (Char.ofNat n) = false →
        (escapeChar (Char.ofNat n)).all (fun b => isPrintable b && !isBreak b) = true := by
      decide +kernel
    have hc := hall _ hmem
    rw [Char.ofNat_toNat] at hc
    intro b hb
    simpa using List.all_eq_true.1 (hc h) b hb
  · obtain ⟨hprintable, hself, -⟩ := escapeChar_of_notMem hmem h
    rw [hself]
    exact fun b hb => List.mem_singleton.1 hb ▸ ⟨hprintable, h⟩

/-- An escape is read as the character that it stands for. -/
theorem doubleQuoted?_escape {escaped input : List Char} (h : isEscapeOf c escaped = true) :
    outcome (doubleQuoted? (escaped ++ input)) =
      (outcome (doubleQuoted? input)).map fun r => (c :: r.1, r.2) := by
  unfold isEscapeOf at h
  split at h
  · rename_i letter digits
    rw [List.cons_append, List.cons_append, doubleQuoted?]
    cases hcount : escapeDigits? letter with
    | none =>
      simp only [hcount, Bool.and_eq_true, List.isEmpty_iff, Bool.not_eq_true', beq_iff_eq] at h
      obtain ⟨⟨rfl, hbreak⟩, hescape⟩ := h
      simp only [hbreak, hescape, List.nil_append]
      cases doubleQuoted? input <;> rfl
    | some count =>
      simp only [hcount, Bool.and_eq_true, beq_iff_eq] at h
      obtain ⟨rfl, hnamed⟩ := h
      have hlength : ¬ (digits ++ input).length < digits.length := by simp
      have htake : (digits ++ input).take digits.length = digits := List.take_left
      have hdrop : outcome (doubleQuoted? ((digits ++ input).drop digits.length)) =
          outcome (doubleQuoted? input) := by rw [List.drop_left]
      simp only [if_neg hlength, htake, hnamed]
      rw [← hdrop]
      cases doubleQuoted? ((digits ++ input).drop digits.length) <;> rfl
  · exact absurd h Bool.false_ne_true

/-- A character that is no mark and begins no gap with a line break is read as itself. -/
theorem doubleQuoted?_cons {input : List Char} (hquote : c ≠ '"') (hslash : c ≠ '\\')
    (hgap : (gapOf (c :: input)).any isBreak = false) :
    outcome (doubleQuoted? (c :: input)) =
      (outcome (doubleQuoted? input)).map fun r => (c :: r.1, r.2) := by
  rw [doubleQuoted?]
  · have hslash' : (c == '\\') = false := by simpa using hslash
    simp only [hgap, hslash']
    cases doubleQuoted? input <;> rfl
  · exact fun heq => hquote heq
  · exact fun _ _ heq _ => hslash heq

/-- A text without line breaks is read back from between double quotes. -/
theorem doubleQuoted?_escaped (h : ∀ c ∈ text, isBreak c = false) :
    outcome (doubleQuoted? (text.flatMap escapeChar ++ '"' :: rest)) = some (text, rest) := by
  induction text with
  | nil =>
    rw [List.flatMap_nil, List.nil_append, doubleQuoted?]
    rfl
  | cons c text ih =>
    rw [List.forall_mem_cons] at h
    rw [List.flatMap_cons, List.append_assoc]
    rcases isEscapeOf_escapeChar h.1 with ⟨hself, hquote, hslash⟩ | hescape
    · have hclean : ∀ b ∈ c :: text.flatMap escapeChar, isBreak b = false := by
        rw [List.forall_mem_cons]
        refine ⟨h.1, fun b hb => ?_⟩
        obtain ⟨a, ha, hb⟩ := List.mem_flatMap.1 hb
        exact (isPrintable_of_mem_escapeChar (h.2 a ha) b hb).2
      have hgap : (gapOf (c :: (text.flatMap escapeChar ++ '"' :: rest))).any isBreak = false :=
        gapOf_any_isBreak (c :: text.flatMap escapeChar) hclean rfl rfl
      rw [hself, List.singleton_append, doubleQuoted?_cons hquote hslash hgap, ih h.2]
      rfl
    · rw [doubleQuoted?_escape hescape, ih h.2]
      rfl

end Calculator.Yaml
