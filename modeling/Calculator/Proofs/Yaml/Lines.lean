import Calculator.Proofs.Yaml.Printer

/-!
# Mappings are read back

An entry takes a line of its own: a key, which is a word, and a value that is read up to the end of
the line (`Line`). So the lines are read back one by one (`Line.entriesOf?_chars`), and a file that
consists of them is read back as a whole (`mapping?_lines`).
-/

namespace Calculator.Yaml

open Parsed (outcome outcome_eq_some outcome_map_weaken)

variable {c : Char} {text more : List Char}

/-! ## Keys -/

/-- The key of a line is what stands before the colon. -/
theorem splitKey?_word {word : List Char} (rest : List Char)
    (h : ∀ c ∈ word, isWordChar c = true) :
    splitKey? (word ++ ':' :: ' ' :: rest) = some (word, ':' :: ' ' :: rest) := by
  induction word with
  | nil => rfl
  | cons c word ih =>
    rw [List.forall_mem_cons] at h
    have hinert := isInert_of_isWordChar h.1
    have hcolon : (c == ':') = false := beq_eq_false_iff_ne.2 (hinert.ne (by decide))
    rw [List.cons_append, splitKey?, hcolon, hinert.space, ih h.2]
    rfl

/-- A key that is a word is read as it stands. -/
theorem lineKey?_word {word : List Char} (rest : List Char) (hne : word ≠ [])
    (h : ∀ c ∈ word, isWordChar c = true) :
    lineKey? (word ++ ':' :: ' ' :: rest) = some (word, ':' :: ' ' :: rest) := by
  have hlast := (isPlainLine_of_isWordChar hne h).last
  have hsplit := splitKey?_word rest h
  obtain ⟨c, front, rfl⟩ := List.exists_cons_of_ne_nil hne
  have hc := h c List.mem_cons_self
  have hquote : ∀ mark, isIndicator mark = true → c ≠ mark := fun _ =>
    ne_of_isIndicator (isInert_of_isWordChar hc).indicator
  have hbegins : beginsPlain (c :: front ++ ':' :: ' ' :: rest) = true :=
    beginsPlain_of_isWordChar _ hc
  rw [lineKey?]
  · simp only [hsplit, Option.bind_eq_bind, Option.bind_some, hbegins, List.isEmpty_cons,
      Bool.not_true, Bool.or_self, if_neg Bool.false_ne_true, dropTrailingSpaces_eq_self hlast]
    rfl
  · exact fun rest heq => hquote '\'' rfl (List.cons.inj heq).1
  · exact fun rest heq => hquote '"' rfl (List.cons.inj heq).1

/-! ## Lines -/

/-- A key that is a word, and not too long. -/
structure IsKey (key : String) : Prop where
  /-- It holds something. -/
  ne_nil : key.toList ≠ []
  /-- It consists of letters, digits and underscores. -/
  word : ∀ c ∈ key.toList, isWordChar c = true
  /-- It is short enough for the colon after it to be looked for. -/
  short : key.toList.length ≤ keyLimit

/-- A line of a mapping: its key, its value as it is written, and what it is read back as. -/
structure Line where
  /-- The key. -/
  key : String
  /-- The value as it is written. -/
  text : List Char
  /-- What it stands for. -/
  value : Scalar
  /-- The key is read back. -/
  isKey : IsKey key
  /-- The value is read back. -/
  isWritten : IsWritten text value

namespace Line

/-- The line as it is written, with the line break after it. -/
def chars (line : Line) : List Char := entryLine line.key line.text

/-- A value that stands on one line has a line break after it. -/
theorem chars_eq (line : Line) :
    line.chars = line.key.toList ++ ':' :: ' ' :: (line.text ++ ['\n']) := by
  have hlast : line.text.getLast?.any isBreak = false := by
    cases hc : line.text.getLast? with
    | none => rfl
    | some c => exact line.isWritten.line c (List.mem_of_getLast? hc)
  rw [chars, entryLine, hlast, if_neg Bool.false_ne_true]

/-- A line has no break before its end. -/
theorem firstLine_chars (line : Line) (more : List Char) :
    firstLine (line.chars ++ more) = line.key.toList ++ ':' :: ' ' :: line.text := by
  have hbreak : ∀ c ∈ line.key.toList ++ ':' :: ' ' :: line.text, isBreak c = false := by
    intro c hc
    simp only [List.mem_append, List.mem_cons] at hc
    rcases hc with hc | rfl | rfl | hc
    · exact (isInert_of_isWordChar (line.isKey.word c hc)).line
    · rfl
    · rfl
    · exact line.isWritten.line c hc
  have hfirst : firstLine ((line.key.toList ++ ':' :: ' ' :: line.text) ++ '\n' :: more) = _ :=
    firstLine_append hbreak
  rw [chars_eq]
  simpa using hfirst

/-- A line begins with a character of its key. -/
theorem chars_append_eq_cons (line : Line) (more : List Char) : ∃ c rest others,
    line.chars ++ more = c :: others ∧ firstLine (line.chars ++ more) = c :: rest ∧
      isWordChar c = true := by
  obtain ⟨c, front, hkey⟩ := List.exists_cons_of_ne_nil line.isKey.ne_nil
  refine ⟨c, front ++ ':' :: ' ' :: line.text, front ++ ':' :: ' ' :: (line.text ++ ['\n'] ++ more),
    ?_, ?_, line.isKey.word c (by simp [hkey])⟩
  · rw [chars_eq, hkey]
    simp
  · rw [firstLine_chars, hkey, List.cons_append]

/-- A line is made of characters that are printable. -/
theorem isPrintable_of_mem_chars (line : Line) : ∀ c ∈ line.chars, isPrintable c = true := by
  intro c hc
  simp only [chars_eq, List.mem_append, List.mem_cons, List.not_mem_nil, or_false] at hc
  rcases hc with hc | rfl | rfl | hc | rfl
  · exact (isInert_of_isWordChar (line.isKey.word c hc)).printable
  · decide
  · decide
  · exact line.isWritten.printable c hc
  · decide

/-- The entry on a line is its key with the value that is written there. -/
theorem entryOf?_chars (line : Line) : ∃ plainToEnd, ∀ more,
    outcome (entryOf? (line.chars ++ more)) =
      some (⟨⟨line.value, plainToEnd⟩, line.key⟩, more) := by
  obtain ⟨plainToEnd, hreads⟩ := line.isWritten.reads
  refine ⟨plainToEnd, fun more => ?_⟩
  have hlength : (firstLine (line.chars ++ more)).length - (':' :: ' ' :: line.text).length =
      line.key.toList.length := by simp [firstLine_chars]
  have hdrop : (line.chars ++ more).drop ((firstLine (line.chars ++ more)).length -
      (':' :: ' ' :: line.text).length + 1) = ' ' :: (line.text ++ '\n' :: more) := by
    rw [hlength, chars_eq]
    simp
  have hkey : lineKey? (firstLine (line.chars ++ more)) =
      some (line.key.toList, ':' :: ' ' :: line.text) := by
    rw [firstLine_chars, lineKey?_word line.text line.isKey.ne_nil line.isKey.word]
  have hcond : 0 < (line.chars ++ more).length ∧ ((':' :: ' ' :: line.text).head? == some ':' &&
      beginsWithSpace ((':' :: ' ' :: line.text).drop 1)) = true ∧
      (firstLine (line.chars ++ more)).length - (':' :: ' ' :: line.text).length ≤ keyLimit := by
    obtain ⟨c, rest, others, hchars, -⟩ := line.chars_append_eq_cons more
    exact ⟨by rw [hchars]; exact Nat.succ_pos _, rfl, hlength ▸ line.isKey.short⟩
  rw [entryOf?]
  simp only [hkey, Option.bind_eq_bind, Option.bind_some, dif_pos hcond]
  rw [outcome_map_weaken, hdrop, hreads, String.ofList_toList]
  rfl

/-- A line with an entry is read as that entry, and the column of the entries is the first one. -/
theorem entriesOf?_chars (line : Line) : ∃ plainToEnd, ∀ place more, place.column.all (· = 0) →
    entriesOf? place (line.chars ++ more) =
      (entriesOf? ⟨true, some 0, plainToEnd⟩ more).map ((line.key, line.value) :: ·) := by
  obtain ⟨plainToEnd, hentry⟩ := line.entryOf?_chars
  refine ⟨plainToEnd, fun place more hcolumn => ?_⟩
  obtain ⟨c, rest, others, hchars, hfirst, hword⟩ := line.chars_append_eq_cons more
  have hinert := isInert_of_isWordChar hword
  have hindent : indentation (c :: rest) = 0 := by
    have hbom : c ≠ byteOrderMark := hinert.ne (by decide)
    have hblank : c ≠ ' ' := by
      rintro rfl
      exact Bool.noConfusion hinert.space
    simp [indentation, hbom, hblank]
  have hmarker : ∀ marker : String, marker.toList.head? ≠ some c →
      isMarker marker (c :: rest) = false := by
    intro marker hhead
    have hne : (List.take 3 (c :: rest) == marker.toList) = false := by
      rw [beq_eq_false_iff_ne]
      intro heq
      exact hhead (by rw [← heq]; rfl)
    rw [isMarker, hne]
    rfl
  have hbegins : isMarker "---" (c :: rest) = false :=
    hmarker "---" fun hhead => hinert.ne (by decide) (Option.some.inj hhead).symm
  have hends : isMarker "..." (c :: rest) = false :=
    hmarker "..." fun hhead => hinert.ne (by decide) (Option.some.inj hhead).symm
  have hentry := hentry more
  rw [hchars] at hentry hfirst ⊢
  -- The entry is read from behind its indentation, which its type mentions.
  have hdrop : (c :: others).drop (indentation (firstLine (c :: others))) = c :: others := by
    rw [hfirst, hindent, List.drop_zero]
  rw [← hdrop] at hentry
  obtain ⟨entry, hread, hvalue, hrest⟩ := outcome_eq_some.1 hentry
  rw [entriesOf?.eq_def place (c :: others)]
  simp only [hfirst, hindent, hbegins, hends, Bool.false_and, List.drop_zero,
    if_neg Bool.false_ne_true]
  split
  · rename_i heq
    cases heq
  · rename_i heq
    obtain ⟨rfl, -⟩ := List.cons.inj heq
    exact Bool.noConfusion hinert.indicator
  · rename_i heq
    obtain ⟨rfl, -⟩ := List.cons.inj heq
    exact Bool.noConfusion hinert.space
  · simp only [if_pos hcolumn, hread, hvalue, hrest, Option.bind_eq_bind, Option.bind_some]
    cases entriesOf? ⟨true, some 0, plainToEnd⟩ more <;> rfl

/-- Lines with entries are read one by one. -/
theorem entriesOf?_flatMap_chars (lines : List Line) (place : Place)
    (hcolumn : place.column.all (· = 0)) :
    entriesOf? place (lines.flatMap chars) =
      some (lines.map fun line => (line.key, line.value)) := by
  induction lines generalizing place with
  | nil =>
    rw [List.flatMap_nil, entriesOf?.eq_def]
    rfl
  | cons line lines ih =>
    obtain ⟨plainToEnd, hread⟩ := line.entriesOf?_chars
    rw [List.flatMap_cons, hread place _ hcolumn, ih _ rfl]
    rfl

end Line

/-! ## Files -/

/-- A printable character is allowed in a file, and is no line break that is written in another
way. -/
theorem isAllowed_of_isPrintable (h : isPrintable c = true) :
    isAllowed c = true ∧ ¬ (c = '\r' ∨ c.toNat = 0x85) := by
  simp only [isPrintable, Bool.or_eq_true, Bool.and_eq_true, decide_eq_true_eq, beq_iff_eq,
    bne_iff_ne] at h
  constructor
  · rw [isAllowed]
    simp only [Bool.or_eq_true, Bool.and_eq_true, decide_eq_true_eq]
    rcases h with (h | h) | h
    · have hc : c = '\n' := Char.toNat_inj.1 h
      exact .inl (.inl (.inr (by rw [hc]; rfl)))
    · exact .inl (.inr h)
    · exact .inr ⟨⟨h.1.1.1, h.1.2⟩, h.2⟩
  · rintro (rfl | hc)
    · exact absurd h (by decide)
    · omega

/-- Line feeds stay as they are. -/
theorem unifyBreaks_eq_self (h : ∀ c ∈ text, ¬ (c = '\r' ∨ c.toNat = 0x85)) :
    unifyBreaks text = text := by
  induction text with
  | nil => rfl
  | cons c rest ih =>
    rw [List.forall_mem_cons] at h
    rw [unifyBreaks, if_neg h.1, ih h.2]
    rintro rest' rfl -
    exact h.1 (.inl rfl)

/-- **A mapping that is written line by line is read back.** -/
theorem mapping?_lines (lines : List Line) :
    mapping? (String.ofList (lines.flatMap Line.chars)) =
      some (lines.map fun line => (line.key, line.value)) := by
  have hprintable : ∀ c ∈ lines.flatMap Line.chars, isPrintable c = true := by
    intro c hc
    obtain ⟨line, -, hc⟩ := List.mem_flatMap.1 hc
    exact line.isPrintable_of_mem_chars c hc
  have hallowed : (lines.flatMap Line.chars).all isAllowed = true :=
    List.all_eq_true.2 fun c hc => (isAllowed_of_isPrintable (hprintable c hc)).1
  have hbreaks := unifyBreaks_eq_self fun c hc =>
    (isAllowed_of_isPrintable (hprintable c hc)).2
  rw [mapping?, String.toList_ofList, if_pos hallowed, hbreaks]
  exact Line.entriesOf?_flatMap_chars lines {} rfl

end Calculator.Yaml
