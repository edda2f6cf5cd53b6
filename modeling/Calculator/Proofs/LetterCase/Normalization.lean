import Calculator.Proofs.LetterCase.Evaluation
import Calculator.Proofs.Parser.Exactness

/-!
# Normalizing keeps what a text means

What a user types is trimmed and put into lower case by the tables of the character standard before
it is read. Inside ASCII this is ASCII lower case, which changes no value and no verdict
(`LetterCase/Evaluation.lean`), and a text that is read at all is ASCII. So all depends on texts
which are not ASCII, and of which normalizing makes a text that is read. By the tables such a text
has a Kelvin sign, of which normalizing makes a `k` (`ascii_of_lower`). The `k` stands in a name of
the text, that name stands in the tree (`Derives.names_eq`), and the check looks up every name of a
tree (`isKnown_of_check`). But no function and no constant has a `k` in its name.
-/

namespace Calculator

open Text

/-! ## The names of a tree -/

/-- The name that a token stands for. -/
def Token.name? : Token → Option String
  | name s => some s
  | _ => none

namespace Expr

mutual

/-- The names of constants and functions in a tree, in the order in which they were written. -/
def names : Expr → List String
  | literal _ => []
  | name text => [text]
  | negate operand => names operand
  | binary _ left right => names left ++ names right
  | call function arguments => function :: allNames arguments

/-- The names in some trees. -/
def allNames : List Expr → List String
  | [] => []
  | first :: others => names first ++ allNames others

end

/-- The names in the tree of a phrase, or in its trees. -/
def Phrase.names : Phrase → List String
  | chain _ t | links _ _ t | signed t | power t | primary t => t.names
  | arguments ts | list ts => allNames ts

/-- The names of a tree are the names among its tokens. -/
theorem Derives.names_eq {d : Nat} {p : Phrase} {w : List Token} (h : Derives d p w) :
    w.filterMap Token.name? = p.names := by
  induction h with
  | chain _ ih => exact ih
  | @first d tier t w _ ih =>
    rw [ih]
    cases tier <;> rfl
  | @link d tier m l r o op v w _ hj _ _ ih ih' =>
    have hr : (Phrase.operand tier r).names = r.names := by cases tier <;> rfl
    have hop : op.name? = Option.none := by cases hj <;> rfl
    rw [List.filterMap_append, List.filterMap_cons_none hop, ih, ih', hr]
    simp [Phrase.names, names]
  | minus _ _ ih => simp [ih, List.filterMap_cons, Token.name?, Phrase.names, names]
  | unsigned _ ih => exact ih
  | base _ ih => exact ih
  | raised _ _ _ ih ih' => simp [ih, ih', List.filterMap_cons, Token.name?, Phrase.names, names]
  | number x => simp [Token.name?, Phrase.names, names]
  | name s => simp [Token.name?, Phrase.names, names]
  | call s _ _ ih => simp [ih, List.filterMap_cons, Token.name?, Phrase.names, names]
  | parens _ _ ih => simp [ih, List.filterMap_cons, Token.name?, Phrase.names]
  | none => simp [Phrase.names, allNames]
  | some _ ih => exact ih
  | last _ ih => simp [ih, Phrase.names, allNames]
  | more _ _ ih ih' => simp [ih, ih', List.filterMap_cons, Token.name?, Phrase.names, allNames]

/-! ## Names that are known -/

/-- A name of a function or of a constant. -/
def IsKnown (s : String) : Prop :=
  (∃ f, Builtin.ofName? s = some f) ∨ ∃ c, Constant.ofName? s = some c

mutual

/-- A tree in which the check finds nothing has known names only. -/
theorem isKnown_of_check : ∀ e : Expr, check e = .ok () → ∀ s ∈ names e, IsKnown s
  | literal _, _ => by
    rw [names]
    simp
  | name text, h => by
    rw [names, List.forall_mem_singleton]
    rw [check, resolveConstant] at h
    cases hc : Constant.ofName? text with
    | none =>
      rw [hc] at h
      cases h
    | some c => exact .inr ⟨c, hc⟩
  | negate operand, h => by
    rw [names]
    rw [check] at h
    exact isKnown_of_check operand h
  | binary _ left right, h => by
    rw [names, List.forall_mem_append]
    rw [check, bind_eq_ok] at h
    obtain ⟨_, hl, hr⟩ := h
    exact ⟨isKnown_of_check left hl, isKnown_of_check right hr⟩
  | call function arguments, h => by
    rw [names, List.forall_mem_cons]
    rw [check] at h
    cases hf : Builtin.ofName? function with
    | none =>
      rw [resolveFunction, hf] at h
      cases h
    | some f =>
      refine ⟨.inl ⟨f, hf⟩, isKnown_of_checkAll arguments ?_⟩
      obtain ⟨_, -, ha⟩ := bind_eq_ok.1 h
      exact ha

/-- Trees in which the check finds nothing have known names only. -/
theorem isKnown_of_checkAll : ∀ es : List Expr, checkAll es = .ok () → ∀ s ∈ allNames es, IsKnown s
  | [], _ => by
    rw [allNames]
    simp
  | first :: others, h => by
    rw [allNames, List.forall_mem_append]
    rw [checkAll, bind_eq_ok] at h
    obtain ⟨_, hf, ho⟩ := h
    exact ⟨isKnown_of_check first hf, isKnown_of_checkAll others ho⟩

end

/-- No known name has a `k` in it. -/
theorem IsKnown.notMem {s : String} (h : IsKnown s) : 'k' ∉ s.toList := by
  intro hk
  have hlower : 'k' ∈ (asciiLower s).toList := by
    rw [asciiLower, String.toList_ofList]
    exact List.mem_map.2 ⟨'k', hk, rfl⟩
  rcases h with ⟨f, hf⟩ | ⟨c, hc⟩
  · have hname : f.name = asciiLower s := by simpa using List.find?_some hf
    rw [← hname] at hlower
    revert hlower
    cases f <;> decide
  · have hname : c.name = asciiLower s := by simpa using List.find?_some hc
    rw [← hname] at hlower
    revert hlower
    cases c <;> decide

end Expr

/-! ## The characters of a text that is read -/

/-- A letter of a text stands in one of its names. -/
theorem Lexeme.Division.exists_name {before rest : List Char} {lexemes : List Lexeme}
    (h : Division before rest lexemes) {c : Char} (hc : c ∈ rest)
    (hstart : Token.isNameStart c = true) :
    ∃ s, Token.name s ∈ lexemes.map Lexeme.token ∧ c ∈ s.toList := by
  induction h with
  | finish => cases hc
  | gap hgap _ ih =>
    rcases List.mem_cons.1 hc with rfl | hc
    · have hnot := isGap_of_run (.inr hstart)
      rw [isGap_iff.2 hgap] at hnot
      cases hnot
    · exact ih hc
  | @lexeme before piece rest token lexemes hpiece _ ih =>
    rcases List.mem_append.1 hc with hc | hc
    · cases hpiece with
      | symbol hsymbol =>
        obtain rfl := List.mem_singleton.1 hc
        rw [ofSymbol?_of_run (.inr hstart)] at hsymbol
        cases hsymbol
      | number hrun _ _ =>
        have hnot := isNameStart_of_isNumeralChar (hrun.numeral c hc)
        rw [hstart] at hnot
        cases hnot
      | name hrun => exact ⟨_, List.mem_cons_self .., by rwa [String.toList_ofList]⟩
    · obtain ⟨s, hs, hmem⟩ := ih hc
      exact ⟨s, List.mem_cons_of_mem _ hs, hmem⟩

/-- What may stand in an expression is ASCII. -/
theorem Lexeme.IsLexical.toNat_lt {c : Char} (h : IsLexical c) : c.toNat < 128 :=
  Nat.lt_succ_of_le (UInt32.le_iff_toNat_le.1 (Char.utf8Size_eq_one_iff.1 h.utf8Size_eq))

/-- A text in which the check finds nothing is ASCII and has no `k` in it. -/
theorem ascii_of_validateText {s : String} (h : validateText s = .ok ()) :
    ∀ c ∈ s.toList, c.toNat < 128 ∧ c ≠ 'k' := by
  obtain ⟨e, he, hcheck⟩ := bind_eq_ok.1 h
  obtain ⟨lexemes, hlexemes, htree⟩ := bind_eq_ok.1 he
  have hjudged := Lexeme.judged_ofText s
  rw [hlexemes] at hjudged
  obtain ⟨hdivision, hclean⟩ := hjudged
  refine fun c hc => ⟨((Lexeme.clean_nil_iff.1 hclean).1 c hc).toNat_lt, ?_⟩
  -- A `k` would stand in a name, the name in the tree, and the check would have found it.
  rintro rfl
  obtain ⟨name, hname, hk⟩ := hdivision.exists_name hc rfl
  obtain ⟨init, rfl, hinit⟩ := hdivision.slices
  have hbefore :
      Expr.beforeEnd (init ++ [⟨.endOfInput, Text.byteLength ([] ++ s.toList)⟩]) = init := by
    rw [Expr.beforeEnd, List.takeWhile_append_of_pos fun l hl => by simpa using (hinit l hl).1]
    simp
  have hderives := Expr.ofLexemes_eq_ok.1 htree
  rw [hbefore] at hderives
  have hmem : Token.name name ∈ init.map Lexeme.token := by simpa using hname
  refine (Expr.isKnown_of_check e hcheck name ?_).notMem hk
  have hnames : e.names = (init.map Lexeme.token).filterMap Token.name? := hderives.names_eq.symm
  rw [hnames]
  exact List.mem_filterMap.2 ⟨_, hmem, rfl⟩

/-- In a text that has a value the check finds nothing. -/
theorem validateText_of_evaluateText {s : String} {unit : AngleUnit} {x : Binary64}
    (h : evaluateText s unit = .ok x) : validateText s = .ok () := by
  obtain ⟨e, he, hx⟩ := bind_eq_ok.1 h
  rw [validateText, he, ok_bind]
  cases hc : e.check with
  | ok _ => rfl
  | error f =>
    obtain ⟨-, g, hg, -⟩ := Expr.value_eq_error_of_check hc unit
    rw [Expr.evaluate_eq_error_of_value hg] at hx
    cases hx

/-! ## Normalizing -/

variable {s : String}

/-- Normalizing an ASCII text is trimming it and putting it into ASCII lower case. -/
theorem normalize_of_ascii (h : ∀ c ∈ trimChars s.toList, c.toNat < 128) :
    normalize s = asciiLower (trim s) := by
  rw [Text.normalize, lower_of_ascii h, trim, asciiLower_ofList]

/-- A text of which normalizing makes one that the check accepts. -/
theorem normalize_of_validateText (h : validateText (normalize s) = .ok ()) :
    normalize s = asciiLower (trim s) := by
  refine normalize_of_ascii (ascii_of_lower fun c hc => ascii_of_validateText h c ?_)
  rwa [Text.normalize, String.toList_ofList]

/-- A text that the check accepts without its being in lower case. -/
theorem normalize_of_validateText_trim (h : validateText (trim s) = .ok ()) :
    normalize s = asciiLower (trim s) := by
  refine normalize_of_ascii fun c hc => (ascii_of_validateText h c ?_).1
  rwa [trim, String.toList_ofList]

/-- ASCII lower case takes as many bytes. -/
theorem utf8ByteSize_asciiLower (s : String) : (asciiLower s).utf8ByteSize = s.utf8ByteSize := by
  rw [← Lexeme.byteLength_toList, ← Lexeme.byteLength_toList, asciiLower, String.toList_ofList,
    byteLength_map_toLower]

/-- The check accepts a text exactly if it accepts what normalizing makes of it. -/
theorem validateText_normalize :
    validateText (normalize s) = .ok () ↔ validateText (trim s) = .ok () := by
  constructor
  · intro h
    rw [normalize_of_validateText h, validateText_asciiLower] at h
    exact mapError_eq_ok.1 h
  · intro h
    rw [normalize_of_validateText_trim h, validateText_asciiLower]
    exact mapError_eq_ok.2 h

/-- A text has a value exactly if what normalizing makes of it has the same. -/
theorem evaluateText_normalize {unit : AngleUnit} {x : Binary64} :
    evaluateText (normalize s) unit = .ok x ↔ evaluateText (trim s) unit = .ok x := by
  constructor
  · intro h
    rw [normalize_of_validateText (validateText_of_evaluateText h), evaluateText_asciiLower] at h
    exact mapError_eq_ok.1 h
  · intro h
    rw [normalize_of_validateText_trim (validateText_of_evaluateText h), evaluateText_asciiLower]
    exact mapError_eq_ok.2 h

/-- **Normalizing keeps what a text means.** Of every text, of any characters: what normalizing
makes of it has a value, in any unit, exactly if the trimmed text has the same, and is accepted by
the check exactly if the trimmed text is. Where there is a value or the check accepts, both have the
same length in bytes. -/
theorem normalize_keeps_meaning (s : String) :
    (∀ unit x, evaluateText (normalize s) unit = .ok x ↔ evaluateText (trim s) unit = .ok x) ∧
    (validateText (normalize s) = .ok () ↔ validateText (trim s) = .ok ()) ∧
    (∀ unit x, evaluateText (trim s) unit = .ok x →
      (normalize s).utf8ByteSize = (trim s).utf8ByteSize) ∧
    (validateText (trim s) = .ok () → (normalize s).utf8ByteSize = (trim s).utf8ByteSize) := by
  have hsize : validateText (trim s) = .ok () →
      (normalize s).utf8ByteSize = (trim s).utf8ByteSize := fun h => by
    rw [normalize_of_validateText_trim h, utf8ByteSize_asciiLower]
  exact ⟨fun unit x => evaluateText_normalize, validateText_normalize,
    fun unit x h => hsize (validateText_of_evaluateText h), hsize⟩

end Calculator
