import Calculator.Proofs.Token.Concatenation

/-!
# White space between texts

White space goes on with no run, so it stands at a boundary, and the scan skips it. Where the scan
begins matters for its offsets only: further on it finds the same lexemes further on, or fails over
the same offence (`scan_add`). So of two texts with white space between them the lexemes are those of
the first, without its end, and those of the second, moved by what stands before it (`ofText_spaced`).
-/

namespace Calculator

/-- A failure of the scan of a text that stands `count` bytes further on: the position of a character
that has no place in an expression is further on. -/
def Failure.movedBy (count : Nat) : Failure → Failure
  | invalid (.unrecognizedCharacter c position) =>
    invalid (.unrecognizedCharacter c (count + position))
  | failure => failure

namespace Lexeme

open Text

variable {count offset : Nat} {gap first second : List Char} {text : String} {lexemes : List Lexeme}

/-- A lexeme of a text that stands `count` bytes further on. -/
def movedBy (count : Nat) (l : Lexeme) : Lexeme := ⟨l.token, count + l.offset⟩

/-- What the scan answers for a text that stands `count` bytes further on. -/
def answerMovedBy (count : Nat) :
    Except Failure (List Lexeme) → Except Failure (List Lexeme)
  | .ok lexemes => .ok (lexemes.map (movedBy count))
  | .error f => .error (f.movedBy count)

/-- What is scanned behind a lexeme that is moved is moved as well. -/
theorem answerMovedBy_bind_cons (l : Lexeme) (r : Except Failure (List Lexeme)) :
    answerMovedBy count (r >>= fun others => .ok (l :: others)) =
      answerMovedBy count r >>= fun others => .ok (l.movedBy count :: others) := by
  cases r <;> rfl

/-- The scan of a text that stands further on. -/
theorem scan_add (count offset : Nat) (text : List Char) :
    scan (count + offset) text = answerMovedBy count (scan offset text) := by
  -- The recursion of the scan, with one case for each kind of piece.
  induction offset, text using scan.induct with
  | case1 offset =>
    rw [scan_nil, scan_nil]
    rfl
  | case2 offset c rest hgap ih =>
    rw [scan_gap hgap, scan_gap hgap, Nat.add_assoc, ih]
  | case3 offset c rest hgap token htoken ih =>
    rw [scan_symbol htoken, scan_symbol htoken, Nat.add_assoc, ih, answerMovedBy_bind_cons, movedBy]
  | case4 offset c rest hgap hsymbol hc run hx =>
    obtain ⟨hrun, hsplit, hrest⟩ := run_cases hc rest
    have hne : run ≠ [] := List.cons_ne_nil _ _
    rw [hsplit, scan_malformed hrun hrest hx hne, scan_malformed hrun hrest hx hne]
    rfl
  | case5 offset c rest hgap hsymbol hc run x hx ih =>
    obtain ⟨hrun, hsplit, hrest⟩ := run_cases hc rest
    have hne : run ≠ [] := List.cons_ne_nil _ _
    rw [hsplit, scan_number hrun hrest hx hne, scan_number hrun hrest hx hne, Nat.add_assoc, ih,
      answerMovedBy_bind_cons, movedBy]
  | case6 offset c rest hgap hsymbol hnumeral hc run ih =>
    obtain ⟨hrun, hsplit, hrest⟩ := run_cases (isNameChar_of_isNameStart hc) rest
    have htail : ∀ d ∈ rest.takeWhile Token.isNameChar, Token.isNameChar d = true := fun d hd =>
      hrun d (List.mem_cons_of_mem _ hd)
    rw [hsplit, scan_name hc htail hrest, scan_name hc htail hrest, Nat.add_assoc, ih,
      answerMovedBy_bind_cons, movedBy]
  | case7 offset c rest hgap hsymbol hnumeral hname =>
    rw [scan_unrecognized hgap hsymbol hnumeral hname,
      scan_unrecognized hgap hsymbol hnumeral hname]
    rfl

/-! ## White space -/

/-- White space is skipped. -/
theorem scan_gaps (h : ∀ c ∈ gap, Token.isGap c = true) (offset : Nat) (rest : List Char) :
    scan offset (gap ++ rest) = scan (offset + byteLength gap) rest := by
  induction gap generalizing offset with
  | nil => rfl
  | cons c gap ih =>
    obtain ⟨hc, hgap⟩ := List.forall_mem_cons.1 h
    have hsize : byteLength (c :: gap) = 1 + byteLength gap :=
      congrArg (· + byteLength gap) (isLexical_iff.2 (.inl hc)).utf8Size_eq
    rw [List.cons_append, scan_gap hc, ih hgap, hsize, Nat.add_assoc]

/-- There is a boundary before white space. -/
theorem boundary_gap (hne : gap ≠ []) (h : ∀ c ∈ gap, Token.isGap c = true) (before rest : List Char) :
    Boundary before (gap ++ rest) := by
  obtain ⟨c, others, rfl⟩ := List.exists_cons_of_ne_nil hne
  obtain ⟨hname, hnumeral⟩ := isNameChar_of_single (.inl (h c List.mem_cons_self))
  refine ⟨?_, ?_⟩
  · rintro _ ⟨⟩ hc
    rw [hname] at hc
    cases hc
  · rintro _ ⟨⟩ hc
    rw [hnumeral] at hc
    cases hc

/-- The scan of two texts with white space between them is that of the first, and then that of the
second where it stands. -/
theorem ofText_append_gap {first gap second : String} (hne : gap ≠ "")
    (h : ∀ c ∈ gap.toList, Token.isGap c = true) :
    ofText (first ++ gap ++ second) = ofText first >>= fun lexemes =>
      answerMovedBy (first ++ gap).utf8ByteSize (ofText second) >>= fun others =>
        .ok (lexemes.dropLast ++ others) := by
  have hboundary : Boundary first.toList (gap ++ second).toList := by
    rw [String.toList_append]
    exact boundary_gap (fun hnil => hne (String.toList_eq_nil_iff.1 hnil)) h _ _
  have hscan : scan first.utf8ByteSize (gap ++ second).toList =
      answerMovedBy (first ++ gap).utf8ByteSize (ofText second) := by
    rw [String.toList_append, scan_gaps h, byteLength_toList, ← String.utf8ByteSize_append, ofText,
      ← scan_add, Nat.add_zero]
  rw [String.append_assoc, ofText_append hboundary, hscan]

/-! ## Answers -/

/-- The lexeme of the end is the last one, and no other one is of the end. -/
theorem exists_init_of_ofText (h : ofText text = .ok lexemes) :
    ∃ init, lexemes = init ++ [⟨.endOfInput, text.utf8ByteSize⟩] ∧
      ∀ l ∈ init, l.token ≠ .endOfInput := by
  have hjudged := judged_ofText text
  rw [h] at hjudged
  obtain ⟨init, hinit, htokens⟩ := hjudged.1.slices
  rw [List.nil_append, byteLength_toList] at hinit
  exact ⟨init, hinit, fun l hl => (htokens l hl).1⟩

/-- The scan fails over a malformed number or over a character without a place. -/
theorem ofText_error_cases {f : Failure} (h : ofText text = .error f) :
    (∃ run, f = .invalid (.malformedNumber run)) ∨
      ∃ c position, f = .invalid (.unrecognizedCharacter c position) := by
  have hjudged := judged_ofText text
  rw [h] at hjudged
  obtain ⟨front, back, -, hoffends, -⟩ := hjudged
  cases hoffends with
  | malformed => exact .inl ⟨_, rfl⟩
  | unrecognized => exact .inr ⟨_, _, rfl⟩

/-- **White space between two texts.** If both have lexemes, both together have those of the first
without its end and then those of the second, each as many bytes further on as stand before the
second. If the first fails, so do both, in the same way. If only the second fails, so do both: over
the same malformed number, or over the same character, as many bytes further on. -/
theorem ofText_spaced (first gap second : String) (hne : gap ≠ "")
    (hgap : ∀ c ∈ gap.toList, c ∈ [' ', '\t', '\n', '\x0c', '\r']) :
    (∀ lexemes others, ofText first = .ok lexemes → ofText second = .ok others →
      ∃ init, lexemes = init ++ [⟨.endOfInput, first.utf8ByteSize⟩] ∧
        (∀ l ∈ init, l.token ≠ .endOfInput) ∧
        ofText (first ++ gap ++ second) = .ok (init ++ others.map fun l =>
          ⟨l.token, (first ++ gap).utf8ByteSize + l.offset⟩)) ∧
    (∀ f, ofText first = .error f → ofText (first ++ gap ++ second) = .error f) ∧
    (∀ lexemes f, ofText first = .ok lexemes → ofText second = .error f →
      (∃ run, f = .invalid (.malformedNumber run) ∧
        ofText (first ++ gap ++ second) = .error f) ∨
      ∃ c position, f = .invalid (.unrecognizedCharacter c position) ∧
        ofText (first ++ gap ++ second) = .error (.invalid
          (.unrecognizedCharacter c ((first ++ gap).utf8ByteSize + position)))) := by
  have hwhole : ofText (first ++ gap ++ second) = ofText first >>= fun lexemes =>
      answerMovedBy (first ++ gap).utf8ByteSize (ofText second) >>= fun others =>
        .ok (lexemes.dropLast ++ others) :=
    ofText_append_gap hne fun c hc => isGap_iff.2 (hgap c hc)
  rw [hwhole]
  refine ⟨fun lexemes others hfirst hsecond => ?_, fun f hfirst => ?_,
    fun lexemes f hfirst hsecond => ?_⟩
  · obtain ⟨init, rfl, htokens⟩ := exists_init_of_ofText hfirst
    refine ⟨init, rfl, htokens, ?_⟩
    rw [hfirst, hsecond, ok_bind, List.dropLast_concat]
    rfl
  · rw [hfirst]
    rfl
  · rw [hfirst, hsecond]
    rcases ofText_error_cases hsecond with ⟨run, rfl⟩ | ⟨c, position, rfl⟩
    · exact .inl ⟨run, rfl, rfl⟩
    · exact .inr ⟨c, position, rfl, rfl⟩

/-- A form feed and a line feed stand between a number that ends with a point and a character of two
bytes. -/
theorem ofText_spaced_twoBytes :
    "\x0c\n" ≠ "" ∧ (∀ c ∈ "\x0c\n".toList, c ∈ [' ', '\t', '\n', '\x0c', '\r']) ∧
      ofText "é" = .error (.invalid (.unrecognizedCharacter 'é' 0)) ∧
      ofText ("2." ++ "\x0c\n" ++ "é") = .error (.invalid (.unrecognizedCharacter 'é' 4)) := by
  have hne : "\x0c\n" ≠ "" := by decide
  have hgap : ∀ c ∈ "\x0c\n".toList, c ∈ [' ', '\t', '\n', '\x0c', '\r'] := by simp
  have hfirst : ofText "2." = .ok [⟨.number 2, 0⟩, ⟨.endOfInput, 2⟩] := by decide +kernel
  have hsecond : ofText "é" = .error (.invalid (.unrecognizedCharacter 'é' 0)) := by
    decide +kernel
  obtain ⟨-, -, honly⟩ := ofText_spaced "2." "\x0c\n" "é" hne hgap
  refine ⟨hne, hgap, hsecond, ?_⟩
  rcases honly _ _ hfirst hsecond with ⟨run, hrun, -⟩ | ⟨c, position, hc, hresult⟩
  · cases hrun
  · cases hc
    exact hresult

end Lexeme

end Calculator
