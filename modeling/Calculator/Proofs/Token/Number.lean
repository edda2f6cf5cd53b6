import Calculator.Proofs.Token.Grammar

/-!
# Runs of digits and points as numbers

A run of digits and points is read as a decimal exactly if it has at most one point and something
else (`ofPlain?_isSome_iff`). A number with a sign, an exponent or a word has characters that no run
has, so the reader that allows them reads a run in the same way (`ofText?_of_isNumeralChar`).
-/

namespace Calculator.Lexeme

variable {c : Char} {run : List Char}

/-- There is no point among digits. -/
theorem count_point_of_isDigit (h : ∀ c ∈ run, c.isDigit = true) : run.count '.' = 0 := by
  rw [List.count_eq_zero]
  intro hmem
  have hdigit := h _ hmem
  cases hdigit

/-- A run without a point is made of digits. -/
theorem isDigit_of_count_point (hrun : ∀ c ∈ run, isNumeralChar c = true)
    (h : run.count '.' = 0) : ∀ c ∈ run, c.isDigit = true := by
  intro c hc
  have hnumeral := hrun c hc
  rw [isNumeralChar, Bool.or_eq_true, beq_iff_eq] at hnumeral
  rcases hnumeral with hdigit | rfl
  · exact hdigit
  · exact absurd hc (List.count_eq_zero.1 h)

/-- A run is a number exactly if it is read as a decimal. -/
theorem ofPlain?_isSome_iff (hrun : ∀ c ∈ run, isNumeralChar c = true) (hne : run ≠ []) :
    (Decimal.ofPlain? run).isSome = true ↔ IsNumber run := by
  have hsplit : run.takeWhile Char.isDigit ++ run.dropWhile Char.isDigit = run :=
    List.takeWhile_append_dropWhile
  have hwhole : ∀ c ∈ run.takeWhile Char.isDigit, c.isDigit = true := fun c hc =>
    List.mem_takeWhile_imp hc
  have hhead := List.head?_dropWhile_not Char.isDigit run
  unfold Decimal.ofPlain? IsNumber
  generalize run.takeWhile Char.isDigit = whole at hsplit hwhole ⊢
  generalize run.dropWhile Char.isDigit = behind at hsplit hhead ⊢
  cases behind with
  | nil =>
    rw [List.append_nil] at hsplit
    subst hsplit
    have hpoint : whole ≠ ['.'] := by
      rintro rfl
      exact absurd (hwhole '.' (List.mem_singleton_self _)) (by decide)
    simp [hne, hpoint, count_point_of_isDigit hwhole]
  | cons point fraction =>
    have hnumeral : ∀ c ∈ point :: fraction, isNumeralChar c = true := fun c hc =>
      hrun c (hsplit ▸ List.mem_append_right _ hc)
    have hpoint : point = '.' := by
      have hc := hnumeral point (List.mem_cons_self ..)
      rw [isNumeralChar, Bool.or_eq_true, beq_iff_eq] at hc
      rcases hc with hc | hc
      · simp [hc] at hhead
      · exact hc
    subst hpoint
    subst hsplit
    -- One point is there, and all that follows it has to be digits.
    have hall : fraction.all Char.isDigit = true ↔ fraction.count '.' = 0 := by
      rw [List.all_eq_true]
      exact ⟨count_point_of_isDigit,
        isDigit_of_count_point fun c hc => hnumeral c (List.mem_cons_of_mem _ hc)⟩
    have hcount : (whole ++ '.' :: fraction).count '.' = fraction.count '.' + 1 := by
      rw [List.count_append, count_point_of_isDigit hwhole, List.count_cons_self, Nat.zero_add]
    have halone : whole ++ '.' :: fraction = ['.'] ↔ whole = [] ∧ fraction = [] := by
      cases whole with
      | nil => simp
      | cons d whole => simp
    have hempty : (whole.isEmpty && fraction.isEmpty) = true ↔ whole = [] ∧ fraction = [] := by
      rw [Bool.and_eq_true, List.isEmpty_iff, List.isEmpty_iff]
    rw [hcount, ne_eq, halone, ← hempty]
    dsimp only
    rw [beq_self_eq_true, Bool.true_and]
    by_cases hfraction : fraction.count '.' = 0
    · rw [hall.2 hfraction, hfraction, Bool.true_and]
      cases whole.isEmpty && fraction.isEmpty <;> simp
    · have hnot : fraction.all Char.isDigit = false := by
        rw [Bool.eq_false_iff]
        exact fun h => hfraction (hall.1 h)
      rw [hnot, Bool.false_and]
      simp only [Bool.false_eq_true, if_false, Option.isSome_none, false_iff]
      omega

/-- No digit and no point is a letter of the words for infinity and for no number, or a mark of an
exponent. -/
theorem ne_letter_of_isNumeralChar (h : isNumeralChar c = true) :
    c.toLower ≠ 'i' ∧ c.toLower ≠ 'n' ∧ (c == 'e' || c == 'E') = false := by
  rw [isNumeralChar, Bool.or_eq_true, beq_iff_eq] at h
  rcases h with h | rfl
  · have hdigits : ∀ n < 58, 48 ≤ n → (Char.ofNat n).toLower ≠ 'i' ∧ (Char.ofNat n).toLower ≠ 'n' ∧
        (Char.ofNat n == 'e' || Char.ofNat n == 'E') = false := by decide
    obtain ⟨hlow, hhigh⟩ := Char.isDigit_iff_toNat.1 h
    rw [← Char.ofNat_toNat c]
    exact hdigits c.toNat (Nat.lt_succ_of_le hhigh) hlow
  · decide

/-- A run that is not empty, before the end of the text or the mark of an exponent, is no word: it is
read as a decimal, with the exponent if there is one. -/
theorem ofUnsigned?_run {rest : List Char} (hrun : ∀ c ∈ run, isNumeralChar c = true)
    (hne : run ≠ []) (negative : Bool) : (∀ c ∈ rest.head?, (c == 'e' || c == 'E') = true) →
    Binary64.ofUnsigned? negative (run ++ rest) =
      match rest with
      | [] => (Decimal.ofPlain? run).map (Binary64.ofDecimal negative)
      | _ :: exponent => do
        let d ← Decimal.ofPlain? run
        let e ← Binary64.exponentOf? exponent
        return Binary64.ofDecimal negative ⟨d.coefficient, d.exponent + e⟩ := by
  intro hrest
  obtain ⟨c, cs, rfl⟩ := List.exists_cons_of_ne_nil hne
  have hword : ∀ d ds, c.toLower ≠ d →
      (String.ofList ((c :: cs ++ rest).map Char.toLower) == String.ofList (d :: ds)) = false := by
    intro d ds hd
    rw [beq_eq_false_iff_ne, ne_eq, String.ofList_inj]
    exact fun h => hd (List.cons.inj h).1
  obtain ⟨hi, hn, -⟩ := ne_letter_of_isNumeralChar (hrun c (List.mem_cons_self ..))
  have hinf := hword 'i' ['n', 'f'] hi
  have hinfinity := hword 'i' ['n', 'f', 'i', 'n', 'i', 't', 'y'] hi
  have hnan := hword 'n' ['a', 'n'] hn
  have hplain : ∀ d ∈ c :: cs, (!(d == 'e' || d == 'E')) = true := by
    intro d hd
    rw [(ne_letter_of_isNumeralChar (hrun d hd)).2.2]
    rfl
  have hmark : ∀ d ∈ rest.head?, (!(d == 'e' || d == 'E')) = false := by
    intro d hd
    rw [hrest d hd]
    rfl
  unfold Binary64.ofUnsigned?
  simp only [takeWhile_run hplain hmark, dropWhile_run hplain hmark]
  have hinfinite := Bool.eq_false_iff.1 (Bool.or_eq_false_iff.2 ⟨hinf, hinfinity⟩)
  exact (if_neg hinfinite).trans (if_neg (Bool.eq_false_iff.1 hnan))

/-- A text that begins with a digit or a point has no sign. -/
theorem ofChars?_cons (hc : isNumeralChar c = true) (rest : List Char) :
    Binary64.ofChars? (c :: rest) = Binary64.ofUnsigned? false (c :: rest) := by
  unfold Binary64.ofChars?
  split
  · rename_i heq
    cases heq
    cases hc
  · rename_i heq
    cases heq
    cases hc
  · rfl

/-- A run that is not empty is read as a number in the same way where signs, exponents and words are
allowed as well. -/
theorem ofText?_of_isNumeralChar (hrun : ∀ c ∈ run, isNumeralChar c = true) (hne : run ≠ []) :
    Binary64.ofText? (String.ofList run) = Binary64.ofPlain? run := by
  have hend : ∀ c ∈ ([] : List Char).head?, (c == 'e' || c == 'E') = true := nofun
  have hunsigned : Binary64.ofUnsigned? false run = Binary64.ofPlain? run := by
    rw [← List.append_nil run, ofUnsigned?_run hrun hne false hend, List.append_nil]
    rfl
  obtain ⟨c, cs, rfl⟩ := List.exists_cons_of_ne_nil hne
  rw [Binary64.ofText?, String.toList_ofList, ofChars?_cons (hrun c (List.mem_cons_self ..))]
  exact hunsigned

end Calculator.Lexeme
