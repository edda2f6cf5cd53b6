import Calculator.Proofs.Binary64.Shortest
import Calculator.Proofs.LetterCase.Characters
import Calculator.Proofs.Token.Exactness

/-!
# Tokens of a text in lower case

The scan asks of a character only which classes it belongs to, and none of them tells capitals from
small letters. A text in lower case is therefore cut at the same places, into the same tokens but
for the letters of names, or fails over the same offence (`scan_map_toLower`): what offends is no
letter.

The text of a token in lower case is the text of the token with its name in lower case
(`Token.text_lowered`). A NaN would be an exception, but no number that is read is one
(`noNaN_of_ofText`).
-/

namespace Calculator

open Text

/-- A token with its name in lower case. -/
def Token.lowered : Token → Token
  | name s => name (asciiLower s)
  | token => token

namespace Lexeme

/-- A lexeme with its name in lower case, at the same place. -/
def lowered (l : Lexeme) : Lexeme := ⟨l.token.lowered, l.offset⟩

/-- No lexeme is a NaN, the only number whose text has capitals. -/
def NoNaN (lexemes : List Lexeme) : Prop :=
  ∀ l ∈ lexemes, ∀ negative, l.token ≠ .number (.nan negative)

variable {c : Char} {s : String} {token : Token} {lexemes : List Lexeme}

/-! ## The classes of a character and of its lower-case form -/

/-- White space has no case. -/
theorem isGap_toLower (c : Char) : Token.isGap c.toLower = Token.isGap c :=
  apply_toLower (by decide) c

/-- Operators, parentheses and commas have no case. -/
theorem ofSymbol?_toLower (c : Char) : Token.ofSymbol? c.toLower = Token.ofSymbol? c :=
  apply_toLower (by decide) c

/-- Digits and points have no case. -/
theorem isNumeralChar_toLower (c : Char) : isNumeralChar c.toLower = isNumeralChar c :=
  apply_toLower (by decide) c

/-- Names begin with capitals and with small letters. -/
theorem isNameStart_toLower (c : Char) : Token.isNameStart c.toLower = Token.isNameStart c :=
  apply_toLower (by decide) c

/-- Names have capitals and small letters in them. -/
theorem isNameChar_toLower (c : Char) : Token.isNameChar c.toLower = Token.isNameChar c :=
  apply_toLower (by decide) c

/-- What begins no name has no case. -/
theorem toLower_of_not_isNameStart (h : Token.isNameStart c = false) : c.toLower = c := by
  rcases toLower_eq_or_capital c with hc | ⟨n, hlow, hhigh, rfl⟩
  · exact hc
  · have hall : ∀ n ≤ 90, 65 ≤ n → Token.isNameStart (Char.ofNat n) = true := by decide
    rw [hall n hhigh hlow] at h
    cases h

/-- A run of digits and points has no case. -/
theorem map_toLower_of_isNumeralChar {run : List Char} (h : ∀ c ∈ run, isNumeralChar c = true) :
    run.map Char.toLower = run := by
  have hall : ∀ c ∈ run, c.toLower = c := fun c hc =>
    toLower_of_not_isNameStart (isNameStart_of_isNumeralChar (h c hc))
  rw [List.map_congr_left hall, List.map_id']

/-- A class that has no case ends a run in the same place. -/
theorem head?_map_toLower {p : Char → Bool} (hp : ∀ c, p c.toLower = p c) {rest : List Char}
    (h : ∀ c ∈ rest.head?, p c = false) : ∀ c ∈ (rest.map Char.toLower).head?, p c = false := by
  cases rest with
  | nil => exact fun c hc => absurd hc (by simp)
  | cons d rest =>
    rintro _ ⟨⟩
    rw [hp]
    exact h d rfl

/-! ## The scan -/

/-- What is scanned behind a lexeme is in lower case if the rest is. -/
theorem map_bind_cons (l : Lexeme) (r : Except Failure (List Lexeme)) :
    (r.map (List.map lowered) >>= fun others => .ok (l.lowered :: others)) =
      (r >>= fun others => .ok (l :: others)).map (List.map lowered) := by
  cases r <;> rfl

/-- A text in lower case is cut into the same tokens in lower case, or fails in the same way. -/
theorem scan_map_toLower (offset : Nat) (text : List Char) :
    scan offset (text.map Char.toLower) = (scan offset text).map (List.map lowered) := by
  -- The recursion of the scan, with one case for each kind of piece.
  induction offset, text using scan.induct with
  | case1 offset =>
    rw [List.map_nil, scan_nil]
    rfl
  | case2 offset c rest hgap ih =>
    rw [List.map_cons, scan_gap (by rwa [isGap_toLower]), scan_gap hgap, ih]
  | case3 offset c rest hgap token htoken ih =>
    have hsame : token.lowered = token := by
      cases token with
      | name s =>
        unfold Token.ofSymbol? at htoken
        split at htoken <;> cases htoken
      | _ => rfl
    rw [List.map_cons, scan_symbol (by rwa [ofSymbol?_toLower]), scan_symbol htoken, ih,
      ← map_bind_cons, lowered, hsame]
  | case4 offset c rest hgap hsymbol hc run hx =>
    obtain ⟨hrun, hsplit, hrest⟩ := run_cases hc rest
    have hne : run ≠ [] := List.cons_ne_nil _ _
    rw [hsplit, List.map_append, map_toLower_of_isNumeralChar hrun,
      scan_malformed hrun hrest hx hne,
      scan_malformed hrun (head?_map_toLower isNumeralChar_toLower hrest) hx hne]
    rfl
  | case5 offset c rest hgap hsymbol hc run x hx ih =>
    obtain ⟨hrun, hsplit, hrest⟩ := run_cases hc rest
    have hne : run ≠ [] := List.cons_ne_nil _ _
    rw [hsplit, List.map_append, map_toLower_of_isNumeralChar hrun, scan_number hrun hrest hx hne,
      scan_number hrun (head?_map_toLower isNumeralChar_toLower hrest) hx hne, ih, ← map_bind_cons]
    rfl
  | case6 offset c rest hgap hsymbol hnumeral hc run ih =>
    obtain ⟨hrun, hsplit, hrest⟩ := run_cases (isNameChar_of_isNameStart hc) rest
    have htail : ∀ d ∈ rest.takeWhile Token.isNameChar, Token.isNameChar d = true := fun d hd =>
      hrun d (List.mem_cons_of_mem _ hd)
    have hlower : ∀ d ∈ (rest.takeWhile Token.isNameChar).map Char.toLower,
        Token.isNameChar d = true := by
      rw [List.forall_mem_map]
      exact fun d hd => (isNameChar_toLower d).trans (htail d hd)
    rw [hsplit, List.map_append, List.map_cons, scan_name hc htail hrest,
      scan_name (by rwa [isNameStart_toLower]) hlower (head?_map_toLower isNameChar_toLower hrest),
      ← List.map_cons, List.length_map, ih, ← map_bind_cons, lowered, Token.lowered,
      asciiLower_ofList]
  | case7 offset c rest hgap hsymbol hnumeral hname =>
    have hc : c.toLower = c := toLower_of_not_isNameStart (Bool.eq_false_iff.2 hname)
    rw [List.map_cons, hc, scan_unrecognized hgap hsymbol hnumeral hname,
      scan_unrecognized hgap hsymbol hnumeral hname]
    rfl

/-- A text in lower case has the lexemes of the text, in lower case. -/
theorem ofText_asciiLower (s : String) :
    ofText (asciiLower s) = (ofText s).map (List.map lowered) := by
  rw [ofText, asciiLower, String.toList_ofList, scan_map_toLower]
  rfl

/-! ## The texts of tokens -/

/-- A number that is no NaN has no capitals in its text. -/
theorem asciiLower_text {x : Binary64} (h : x.isNaN = false) : asciiLower x.text = x.text := by
  have hmagnitude : ∀ rank, ∀ c ∈ Binary64.magnitudeText rank, c.toLower = c := fun rank c hc =>
    toLower_of_not_isNameStart
      (isNameStart_of_isNumeralChar (Binary64.isNumeralChar_of_mem_magnitudeText rank c hc))
  cases x with
  | nan negative => cases h
  | infinite negative => cases negative <;> rfl
  | finite negative rank =>
    refine asciiLower_eq_self ?_
    rw [Binary64.text, String.toList_ofList]
    cases negative with
    | false => exact hmagnitude rank
    | true => exact List.forall_mem_cons.2 ⟨rfl, hmagnitude rank⟩

/-- The text of a token in lower case is that of the token with its name in lower case. -/
theorem text_lowered (h : ∀ negative, token ≠ .number (.nan negative)) :
    token.lowered.text = asciiLower token.text := by
  cases token with
  | number x =>
    refine (asciiLower_text ?_).symm
    cases x with
    | nan negative => exact absurd rfl (h negative)
    | _ => rfl
  | name s => rfl
  | _ => rfl

/-- A decimal is never read as a NaN. -/
theorem isNaN_ofDecimal (negative : Bool) (d : Decimal) :
    (Binary64.ofDecimal negative d).isNaN = false := by
  have hrank : ∀ rank, (Binary64.ofRank negative rank).isNaN = false := by
    intro rank
    unfold Binary64.ofRank
    split <;> rfl
  unfold Binary64.ofDecimal
  dsimp only
  split_ifs
  · exact hrank 0
  · rfl
  · exact hrank _
  · exact hrank _

/-- No lexeme of a text is a NaN. -/
theorem noNaN_of_ofText (h : ofText s = .ok lexemes) : NoNaN lexemes := by
  have hjudged := judged_ofText s
  rw [h] at hjudged
  obtain ⟨init, rfl, hinit⟩ := hjudged.1.slices
  intro l hl negative htoken
  rcases List.mem_append.1 hl with hl | hl
  · obtain ⟨-, front, piece, back, -, -, hpiece⟩ := hinit l hl
    rw [htoken] at hpiece
    cases hpiece with
    | symbol hc =>
      unfold Token.ofSymbol? at hc
      split at hc <;> cases hc
    | number hrun _ hx =>
      rw [ofText?_of_isNumeralChar hrun.numeral hrun.nonempty, Binary64.ofPlain?,
        Option.map_eq_some_iff] at hx
      obtain ⟨d, -, hd⟩ := hx
      have hnan := isNaN_ofDecimal false d
      rw [hd] at hnan
      cases hnan
  · rw [List.mem_singleton.1 hl] at htoken
    cases htoken

end Lexeme

end Calculator
