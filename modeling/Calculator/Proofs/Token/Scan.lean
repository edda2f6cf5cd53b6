import Mathlib.Data.List.TakeWhile
import Calculator.Proofs.Except
import Calculator.Token

/-!
# How a text is cut into lexemes

`Lexeme.scan` has one equation for each kind of token that it takes from the front of a text. A run
of digits and points, or of the characters of a name, ends where another character follows.
`Scanned` says that a piece of a text becomes certain tokens wherever it stands, before a text that
does not go on with its last run. Pieces one after the other are scanned one after the other
(`Scanned.append`).
-/

namespace Calculator.Lexeme

variable {offset : Nat} {c : Char} {run rest : List Char} {token : Token}

/-! ## The classes of characters -/

/-- A character that is a token by itself is no white space. -/
theorem isGap_of_ofSymbol? (h : Token.ofSymbol? c = some token) : Token.isGap c = false := by
  unfold Token.ofSymbol? at h
  split at h
  all_goals first | rfl | cases h

/-- What begins a number or a name is no white space. -/
theorem isGap_of_run (h : isNumeralChar c = true ∨ Token.isNameStart c = true) :
    Token.isGap c = false := by
  unfold Token.isGap
  simp only [Bool.or_eq_false_iff, beq_eq_false_iff_ne]
  refine ⟨⟨⟨⟨?_, ?_⟩, ?_⟩, ?_⟩, ?_⟩ <;> rintro rfl <;> rcases h with h | h <;> cases h

/-- What begins a number or a name is no token by itself. -/
theorem ofSymbol?_of_run (h : isNumeralChar c = true ∨ Token.isNameStart c = true) :
    Token.ofSymbol? c = none := by
  unfold Token.ofSymbol?
  split
  all_goals first | rfl | rcases h with h | h <;> cases h

/-- No digit and no point begins a name. -/
theorem isNameStart_of_isNumeralChar (h : isNumeralChar c = true) :
    Token.isNameStart c = false := by
  rw [isNumeralChar, Bool.or_eq_true, beq_iff_eq] at h
  rcases h with h | rfl
  -- The ten digits one by one, by their codes.
  · have hdigits : ∀ n < 58, 48 ≤ n → Token.isNameStart (Char.ofNat n) = false := by decide
    obtain ⟨hlow, hhigh⟩ := Char.isDigit_iff_toNat.1 h
    rw [← Char.ofNat_toNat c]
    exact hdigits c.toNat (Nat.lt_succ_of_le hhigh) hlow
  · rfl

/-- What begins a name is neither a digit nor a point. -/
theorem isNumeralChar_of_isNameStart (h : Token.isNameStart c = true) :
    isNumeralChar c = false := by
  cases hc : isNumeralChar c with
  | false => rfl
  | true => exact absurd h (by simp [isNameStart_of_isNumeralChar hc])

/-! ## The equations of the scan -/

/-- A run ends where a character of another class follows. -/
theorem takeWhile_run {p : Char → Bool} (hrun : ∀ c ∈ run, p c = true)
    (hrest : ∀ c ∈ rest.head?, p c = false) : (run ++ rest).takeWhile p = run := by
  rw [List.takeWhile_append_of_pos hrun]
  cases rest with
  | nil => simp
  | cons c rest =>
    rw [List.takeWhile_cons_of_neg (by simp [hrest c rfl]), List.append_nil]

/-- What follows a run is left over. -/
theorem dropWhile_run {p : Char → Bool} (hrun : ∀ c ∈ run, p c = true)
    (hrest : ∀ c ∈ rest.head?, p c = false) : (run ++ rest).dropWhile p = rest := by
  rw [List.dropWhile_append_of_pos hrun]
  cases rest with
  | nil => rfl
  | cons c rest => rw [List.dropWhile_cons_of_neg (by simp [hrest c rfl])]

/-- The lexeme of the end is the last one. -/
theorem scan_nil (offset : Nat) : scan offset [] = .ok [⟨.endOfInput, offset⟩] := by
  rw [scan]

/-- White space is skipped. -/
theorem scan_gap (h : Token.isGap c = true) (offset : Nat) (rest : List Char) :
    scan offset (c :: rest) = scan (offset + 1) rest := by
  rw [scan, if_pos h]

/-- A character that is a token by itself. -/
theorem scan_symbol (h : Token.ofSymbol? c = some token) (offset : Nat) (rest : List Char) :
    scan offset (c :: rest) =
      scan (offset + 1) rest >>= fun others => .ok (⟨token, offset⟩ :: others) := by
  rw [scan, if_neg (by simp [isGap_of_ofSymbol? h])]
  simp only [h]
  rfl

/-- A run of digits and points, which is read as a number or refused. -/
theorem scan_run (hrun : ∀ c ∈ run, isNumeralChar c = true)
    (hrest : ∀ c ∈ rest.head?, isNumeralChar c = false) (hne : run ≠ []) (offset : Nat) :
    scan offset (run ++ rest) =
      match Binary64.ofPlain? run with
      | none => .error (.invalid (.malformedNumber (String.ofList run)))
      | some x => scan (offset + run.length) rest >>= fun others =>
        .ok (⟨.number x, offset⟩ :: others) := by
  obtain ⟨c, cs, rfl⟩ := List.exists_cons_of_ne_nil hne
  have hc : isNumeralChar c = true := hrun c (List.mem_cons_self ..)
  have hcs : ∀ c ∈ cs, isNumeralChar c = true := fun c h => hrun c (List.mem_cons_of_mem _ h)
  rw [List.cons_append, scan, if_neg (by simp [isGap_of_run (.inl hc)])]
  simp only [ofSymbol?_of_run (.inl hc), takeWhile_run hcs hrest, dropWhile_run hcs hrest]
  rw [if_pos hc]
  rfl

/-- A run of digits and points that is read as a number. -/
theorem scan_number (hrun : ∀ c ∈ run, isNumeralChar c = true)
    (hrest : ∀ c ∈ rest.head?, isNumeralChar c = false) {x : Binary64}
    (hx : Binary64.ofPlain? run = some x) (hne : run ≠ []) (offset : Nat) :
    scan offset (run ++ rest) =
      scan (offset + run.length) rest >>= fun others => .ok (⟨.number x, offset⟩ :: others) := by
  rw [scan_run hrun hrest hne, hx]

/-- A run of digits and points that is no number. -/
theorem scan_malformed (hrun : ∀ c ∈ run, isNumeralChar c = true)
    (hrest : ∀ c ∈ rest.head?, isNumeralChar c = false)
    (hx : Binary64.ofPlain? run = none) (hne : run ≠ []) (offset : Nat) :
    scan offset (run ++ rest) = .error (.invalid (.malformedNumber (String.ofList run))) := by
  rw [scan_run hrun hrest hne, hx]

/-- A run of the characters of a name. -/
theorem scan_name (hc : Token.isNameStart c = true) (hrun : ∀ c ∈ run, Token.isNameChar c = true)
    (hrest : ∀ c ∈ rest.head?, Token.isNameChar c = false) (offset : Nat) :
    scan offset (c :: run ++ rest) =
      scan (offset + (c :: run).length) rest >>= fun others =>
        .ok (⟨.name (String.ofList (c :: run)), offset⟩ :: others) := by
  rw [List.cons_append, scan, if_neg (by simp [isGap_of_run (.inr hc)])]
  simp only [ofSymbol?_of_run (.inr hc), isNumeralChar_of_isNameStart hc, hc,
    takeWhile_run hrun hrest, dropWhile_run hrun hrest]
  rfl

/-- A character that belongs to no token and is no white space. -/
theorem scan_unrecognized (hgap : ¬ Token.isGap c = true) (hsymbol : Token.ofSymbol? c = none)
    (hnumeral : ¬ isNumeralChar c = true) (hname : ¬ Token.isNameStart c = true) (offset : Nat)
    (rest : List Char) :
    scan offset (c :: rest) = .error (.invalid (.unrecognizedCharacter c offset)) := by
  rw [scan, if_neg hgap]
  simp only [hsymbol]
  rw [if_neg hnumeral, if_neg hname]

/-! ## Pieces of a text -/

/-- Before `rest`, wherever it stands, a piece of a text becomes these tokens. -/
def Scanned (piece : List Char) (tokens : List Token) (rest : List Char) : Prop :=
  ∀ offset, ∃ lexemes offset', lexemes.map Lexeme.token = tokens ∧
    scan offset (piece ++ rest) = scan offset' rest >>= fun others => .ok (lexemes ++ others)

/-- Pieces one after the other become tokens one after the other. -/
theorem Scanned.append {piece piece' : List Char} {tokens tokens' : List Token}
    (h : Scanned piece tokens (piece' ++ rest)) (h' : Scanned piece' tokens' rest) :
    Scanned (piece ++ piece') (tokens ++ tokens') rest := by
  intro offset
  obtain ⟨u, offset', rfl, hu⟩ := h offset
  obtain ⟨v, offset'', rfl, hv⟩ := h' offset'
  refine ⟨u ++ v, offset'', List.map_append, ?_⟩
  rw [List.append_assoc, hu, hv]
  cases scan offset'' rest with
  | error f => rfl
  | ok others => simp only [ok_bind, List.append_assoc]

/-- Nothing becomes no token. -/
theorem scanned_nil (rest : List Char) : Scanned [] [] rest := by
  intro offset
  refine ⟨[], offset, rfl, ?_⟩
  cases h : scan offset rest with
  | error f => exact h
  | ok others => exact h

/-- White space becomes no token. -/
theorem scanned_gap (h : Token.isGap c = true) (rest : List Char) : Scanned [c] [] rest := by
  intro offset
  refine ⟨[], offset + 1, rfl, ?_⟩
  rw [List.singleton_append, scan_gap h]
  cases scan (offset + 1) rest <;> rfl

/-- A character that is a token by itself becomes this token. -/
theorem scanned_symbol (h : Token.ofSymbol? c = some token) (rest : List Char) :
    Scanned [c] [token] rest :=
  fun offset => ⟨[⟨token, offset⟩], offset + 1, rfl, scan_symbol h offset rest⟩

/-- The text of a number becomes this number. -/
theorem scanned_number (hrun : ∀ c ∈ run, isNumeralChar c = true)
    (hrest : ∀ c ∈ rest.head?, isNumeralChar c = false) {x : Binary64}
    (hx : Binary64.ofPlain? run = some x) (hne : run ≠ []) : Scanned run [.number x] rest :=
  fun offset => ⟨[⟨.number x, offset⟩], _, rfl, scan_number hrun hrest hx hne offset⟩

/-- A name becomes this name. -/
theorem scanned_name (hc : Token.isNameStart c = true)
    (hrun : ∀ c ∈ run, Token.isNameChar c = true)
    (hrest : ∀ c ∈ rest.head?, Token.isNameChar c = false) :
    Scanned (c :: run) [.name (String.ofList (c :: run))] rest :=
  fun offset => ⟨[⟨.name _, offset⟩], _, rfl, scan_name hc hrun hrest offset⟩

end Calculator.Lexeme
