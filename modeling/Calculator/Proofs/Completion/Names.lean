import Calculator.Proofs.Completion.Word
import Calculator.Proofs.Printer.Tokens
import Calculator.Proofs.Token.Concatenation

/-!
# The names that a word is completed to

A word is completed to the functions and the constants whose names it begins, in any case of its
letters (`exists_names`). Where the text before the word has lexemes, putting such a name in the
place of the word adds its lexeme to them and, for a function, the one of the parenthesis
(`LastWord.adds_function`, `LastWord.adds_constant`): the last word begins at a boundary of the
lexical grammar, as no name and no number goes on into a letter there.
-/

namespace Calculator.Completion

open Text Lexeme

variable {before word front : List Char} {lexemes : List Lexeme} {s : String}

/-- The candidate for a function. -/
def ofFunction (f : Builtin) : Candidate := ⟨f.name ++ "()", f.name ++ "("⟩

/-- The candidate for a constant. -/
def ofConstant (k : Constant) : Candidate := ⟨k.name, k.name⟩

/-- The functions and the constants whose names a word begins, in the order in which they are
offered. -/
structure BegunBy (word : List Char) (functions : List Builtin) (constants : List Constant) :
    Prop where
  /-- Functions come in the order of their names. -/
  sorted : functions.Pairwise fun f g => f.name < g.name
  /-- They are the ones whose names begin with the word. -/
  functions_iff (f : Builtin) : f ∈ functions ↔ word <+: f.name.toList
  /-- Constants come in the order of their table. -/
  sublist : constants.Sublist Constant.all
  /-- They are the ones whose names begin with the word. -/
  constants_iff (k : Constant) : k ∈ constants ↔ word <+: k.name.toList

/-- Behind `before` a replacement adds these lexemes: where `before` has lexemes, these come after
them in the place of their end. -/
def Adds (before : List Char) (replacement : String) (added : List Lexeme) : Prop :=
  ∀ lexemes, ofText (String.ofList before) = .ok lexemes →
    ofText (String.ofList before ++ replacement) = .ok (lexemes.dropLast ++ added)

/-! ## The tables of names -/

/-- The functions stand in the order of their names. -/
theorem pairwise_sorted : Builtin.sorted.Pairwise fun f g => f.name < g.name := by
  have hle : Builtin.sorted.Pairwise fun f g => decide (f.name ≤ g.name) = true := by
    refine List.pairwise_mergeSort (fun f g h hfg hgh => ?_) (fun f g => ?_) Builtin.all
    · exact decide_eq_true (String.le_trans (of_decide_eq_true hfg) (of_decide_eq_true hgh))
    · rw [Bool.or_eq_true, decide_eq_true_iff, decide_eq_true_iff]
      exact String.le_total f.name g.name
  -- No two functions have the same name.
  have hne : Builtin.sorted.Pairwise fun f g => f.name ≠ g.name := by
    have hnodup : (Builtin.all.map Builtin.name).Nodup := by decide
    rw [← List.pairwise_map (f := Builtin.name)]
    exact hnodup.perm ((List.mergeSort_perm _ _).symm.map _)
  refine (hle.and hne).imp fun {f g} h => String.not_le.1 fun hge => ?_
  exact h.2 (String.le_antisymm (of_decide_eq_true h.1) hge)

/-- Every function is among them. -/
theorem mem_sorted (f : Builtin) : f ∈ Builtin.sorted := by
  rw [Builtin.sorted, List.mem_mergeSort]
  cases f <;> decide

/-- Every constant is in the table. -/
theorem mem_constants (k : Constant) : k ∈ Constant.all := by
  cases k <;> decide

/-- The name of a function is a name, and it names this function. -/
theorem isName_function (f : Builtin) :
    IsName f.name ∧ Builtin.ofName? f.name = some f := by
  refine ⟨?_, ?_⟩
  · cases f <;> exact ⟨_, _, rfl, rfl, List.all_eq_true.1 rfl⟩
  · cases f <;> decide +kernel

/-- The name of a constant is a name, and it names this constant. -/
theorem isName_constant (k : Constant) :
    IsName k.name ∧ Constant.ofName? k.name = some k := by
  refine ⟨?_, ?_⟩
  · cases k <;> exact ⟨_, _, rfl, rfl, List.all_eq_true.1 rfl⟩
  · cases k <;> decide +kernel

/-- No two candidates are the same. -/
theorem nodup_candidates :
    (Builtin.sorted.map ofFunction ++ Constant.all.map ofConstant).Nodup := by
  have hnodup : (Builtin.all.map ofFunction ++ Constant.all.map ofConstant).Nodup := by
    decide +kernel
  exact hnodup.perm (((List.mergeSort_perm _ _).symm.map _).append_right _)

/-- A word is completed to the functions and the constants whose names it begins, each once. -/
theorem exists_names (word : List Char) : (names word).Nodup ∧ ∃ functions constants,
    BegunBy word functions constants ∧
      names word = functions.map ofFunction ++ constants.map ofConstant := by
  have hnames : names word =
      (Builtin.sorted.filter fun f => word.isPrefixOf f.name.toList).map ofFunction ++
        (Constant.all.filter fun k => word.isPrefixOf k.name.toList).map ofConstant := by
    rw [names, List.filter_map, List.filter_map, List.map_map, List.map_map]
    rfl
  refine ⟨?_, _, _, ⟨pairwise_sorted.filter _, fun f => ?_, List.filter_sublist, fun k => ?_⟩,
    hnames⟩
  · rw [hnames]
    exact nodup_candidates.sublist
      ((List.filter_sublist.map ofFunction).append (List.filter_sublist.map ofConstant))
  · rw [List.mem_filter, List.isPrefixOf_iff_prefix]
    exact and_iff_right (mem_sorted f)
  · rw [List.mem_filter, List.isPrefixOf_iff_prefix]
    exact and_iff_right (mem_constants k)

/-! ## Names behind a text -/

/-- No name reaches up to the last word of a text. -/
theorem LastWord.not_endsInName (h : LastWord front before word) : ¬ EndsInName before := by
  obtain ⟨-, -, hlast⟩ := lastWord_iff.1 h
  rcases List.eq_nil_or_concat before with rfl | ⟨init, c, rfl⟩
  · exact not_endsInName_nil
  · rw [List.concat_eq_append] at hlast ⊢
    have hc : Token.isNameChar c = false := hlast c (by simp)
    rw [endsInName_append_singleton]
    rintro (hstart | ⟨hname, -⟩)
    · rw [isNameChar_of_isNameStart hstart] at hc
      cases hc
    · rw [hname] at hc
      cases hc

/-- Behind the text before a last word a name begins at a boundary. -/
theorem LastWord.boundary (h : LastWord front before word) (hs : IsName s) (rest : List Char) :
    Boundary before (s.toList ++ rest) := by
  obtain ⟨c, cs, hcs, hc, -⟩ := hs
  rw [hcs, List.cons_append]
  refine ⟨fun _ _ _ => h.not_endsInName, ?_⟩
  rintro _ ⟨⟩ hnumeral
  rw [isNumeralChar_of_isNameStart hc] at hnumeral
  cases hnumeral

/-- A name is one lexeme where it is not followed by more of it. -/
theorem scan_isName (hs : IsName s) {rest : List Char}
    (hrest : ∀ c ∈ rest.head?, Token.isNameChar c = false) (offset : Nat) :
    scan offset (s.toList ++ rest) = scan (offset + s.utf8ByteSize) rest >>= fun others =>
      .ok (⟨.name s, offset⟩ :: others) := by
  obtain ⟨c, cs, hcs, hc, hchars⟩ := hs
  have hsize : s.utf8ByteSize = (c :: cs).length := by
    rw [← byteLength_toList, hcs]
    refine byteLength_of_isLexical (List.forall_mem_cons.2 ⟨?_, fun d hd => ?_⟩)
    · exact isLexical_of_isNameChar (isNameChar_of_isNameStart hc)
    · exact isLexical_of_isNameChar (hchars d hd)
  rw [hsize, hcs, scan_name hc hchars hrest, ← hcs, String.ofList_toList]

/-- What stands behind the text before a last word, if it begins with a name, is added to it. -/
theorem LastWord.adds (h : LastWord front before word) (hs : IsName s) {replacement : String}
    {rest : List Char} (hreplacement : replacement.toList = s.toList ++ rest) {added : List Lexeme}
    (hscan : scan (byteLength before) (s.toList ++ rest) = .ok added) :
    Adds before replacement added := by
  intro lexemes hlexemes
  have hboundary : Boundary (String.ofList before).toList replacement.toList := by
    rw [String.toList_ofList, hreplacement]
    exact h.boundary hs rest
  rw [ofText_append hboundary, hlexemes, ← byteLength_toList, String.toList_ofList, hreplacement,
    hscan]
  rfl

/-- A function adds its name and a parenthesis. -/
theorem LastWord.adds_function (h : LastWord front before word) (f : Builtin) :
    Adds before (ofFunction f).replacement
      [⟨.name f.name, byteLength before⟩,
        ⟨.leftParen, byteLength before + f.name.utf8ByteSize⟩,
        ⟨.endOfInput, byteLength before + f.name.utf8ByteSize + 1⟩] := by
  obtain ⟨hs, -⟩ := isName_function f
  have hreplacement : (ofFunction f).replacement.toList = f.name.toList ++ ['('] :=
    String.toList_append
  refine h.adds hs hreplacement ?_
  rw [scan_isName hs (by simp [Token.isNameChar]), scan_symbol rfl, scan_nil]
  rfl

/-- A constant adds its name. -/
theorem LastWord.adds_constant (h : LastWord front before word) (k : Constant) :
    Adds before (ofConstant k).replacement
      [⟨.name k.name, byteLength before⟩,
        ⟨.endOfInput, byteLength before + k.name.utf8ByteSize⟩] := by
  obtain ⟨hs, -⟩ := isName_constant k
  have hreplacement : (ofConstant k).replacement.toList = k.name.toList ++ [] :=
    (List.append_nil _).symm
  refine h.adds hs hreplacement ?_
  rw [scan_isName hs (by simp), scan_nil]
  rfl

/-- **What a word is completed to.** If the text before the place begins with a colon, the whole of
it is completed, to the commands that begin with it. If not, its last word is completed: an empty word
to nothing, and any other to the functions and the constants whose names it begins in lower case, each
once and in order. Each of them is found under its name, and putting the candidate in the place of the
word adds this name to the lexemes of the text before it, and a parenthesis after a function. -/
theorem atCursor?_candidates (front back : List Char) (completion : Completion)
    (h : atCursor? (String.ofList (front ++ back)) (byteLength front) = some completion) :
    (front.head? = some ':' → completion.start = 0 ∧ ∃ offered : List String,
      completion.candidates = offered.map (fun command => ⟨command, command⟩) ∧
        offered.Sublist commands ∧
        ∀ command, command ∈ offered ↔ command ∈ commands ∧ front <+: command.toList) ∧
    (front.head? ≠ some ':' → ∃ before word, front = before ++ word ∧
      byteLength before = completion.start ∧
      (word = [] → completion.candidates = []) ∧
      (word ≠ [] → completion.candidates.Nodup ∧ ∃ functions constants,
        BegunBy (word.map Char.toLower) functions constants ∧
        completion.candidates = functions.map ofFunction ++ constants.map ofConstant ∧
        (∀ f ∈ functions, Builtin.ofName? f.name = some f ∧
          Adds before (ofFunction f).replacement
            [⟨.name f.name, completion.start⟩,
              ⟨.leftParen, completion.start + f.name.utf8ByteSize⟩,
              ⟨.endOfInput, completion.start + f.name.utf8ByteSize + 1⟩]) ∧
        ∀ k ∈ constants, Constant.ofName? k.name = some k ∧
          Adds before (ofConstant k).replacement
            [⟨.name k.name, completion.start⟩,
              ⟨.endOfInput, completion.start + k.name.utf8ByteSize⟩])) := by
  rw [atCursor?_eq] at h
  constructor
  · intro hcolon
    obtain ⟨rest, rfl⟩ := List.head?_eq_some_iff.1 hcolon
    cases h
    refine ⟨rfl, _, rfl, List.filter_sublist, fun command => ?_⟩
    rw [List.mem_filter, List.isPrefixOf_iff_prefix]
  · intro hcolon
    have hword := lastWord_takeWhile front
    generalize (front.reverse.takeWhile Token.isNameChar).reverse = word at hword
    generalize front.take (front.length - word.length) = before at hword
    obtain ⟨-, rfl⟩ := (ofLine?_eq_some_iff hword hcolon).1 h
    refine ⟨before, word, hword.split, rfl, ?_, ?_⟩
    · rintro rfl
      rfl
    · intro hne
      have hcandidates : (ofLine?.completeWord (byteLength before) word).candidates =
          names (word.map Char.toLower) := if_neg (by simpa using hne)
      obtain ⟨hnodup, functions, constants, hbegun, hnames⟩ := exists_names (word.map Char.toLower)
      rw [hcandidates]
      exact ⟨hnodup, functions, constants, hbegun, hnames,
        fun f _ => ⟨(isName_function f).2, hword.adds_function f⟩,
        fun k _ => ⟨(isName_constant k).2, hword.adds_constant k⟩⟩

/-- A capital behind a number that ends with a point, and before a parenthesis, is completed. -/
theorem atCursor?_candidates_capital :
    let completion := ofLine?.completeWord 2 ['S']
    atCursor? (String.ofList (['3', '.', 'S'] ++ [')'])) (byteLength ['3', '.', 'S']) =
        some completion ∧
      ∃ before word, ['3', '.', 'S'] = before ++ word ∧ byteLength before = completion.start ∧
        (word ≠ [] → completion.candidates.Nodup ∧ ∃ functions constants,
          BegunBy (word.map Char.toLower) functions constants ∧
          completion.candidates = functions.map ofFunction ++ constants.map ofConstant ∧
          ∀ f ∈ functions, Adds before (ofFunction f).replacement
            [⟨.name f.name, 2⟩, ⟨.leftParen, 2 + f.name.utf8ByteSize⟩,
              ⟨.endOfInput, 2 + f.name.utf8ByteSize + 1⟩]) := by
  intro completion
  have h : atCursor? (String.ofList (['3', '.', 'S'] ++ [')'])) (byteLength ['3', '.', 'S']) =
      some completion := by
    rw [atCursor?_eq]
    rfl
  obtain ⟨before, word, hsplit, hstart, -, hcandidates⟩ :=
    (atCursor?_candidates _ _ completion h).2 (by decide)
  refine ⟨h, before, word, hsplit, hstart, fun hne => ?_⟩
  obtain ⟨hnodup, functions, constants, hbegun, heq, hfunctions, -⟩ := hcandidates hne
  exact ⟨hnodup, functions, constants, hbegun, heq, fun f hf => (hfunctions f hf).2⟩

end Calculator.Completion
