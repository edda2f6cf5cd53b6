import Calculator.Proofs.Token.Number

/-!
# The scan follows the lexical grammar

`Lexeme.ofText` succeeds exactly on the texts without an offence, divides them into white space and
lexemes, and otherwise fails over the leftmost offence (`ofText_exact`).

The scan stands at a place of the text and has the rest of it before it. `Boundary` is what it keeps
up there: neither a name nor a number goes on across the place. `Judged` is what its answer has to
say of the rest. Each piece that it consumes holds no offence (`clean_single`, `clean_number`,
`clean_name`) and leaves a boundary behind, so that the answer for what follows carries over to the
whole (`Judged.consume`).
-/

namespace Calculator.Lexeme

open Text

variable {c : Char} {before run rest : List Char}

/-! ## Between the pieces of a text -/

/-- Neither a name nor a number goes on across the place between `before` and `rest`. -/
structure Boundary (before rest : List Char) : Prop where
  /-- What can stand in a name does not follow a name. -/
  name : ∀ c ∈ rest.head?, Token.isNameChar c = true → ¬ EndsInName before
  /-- Digits and points follow each other only where a name ends. -/
  number : ∀ c ∈ rest.head?, isNumeralChar c = true →
    ∀ b ∈ before.getLast?, isNumeralChar b = true → EndsInName before

/-- A text begins at a boundary. -/
theorem boundary_nil (rest : List Char) : Boundary [] rest :=
  ⟨fun _ _ _ => not_endsInName_nil, fun _ _ _ _ hb => absurd hb (by simp)⟩

/-- What stands in no name and in no number ends at a boundary. -/
theorem boundary_single (hname : Token.isNameChar c = false) (hnumeral : isNumeralChar c = false)
    (before rest : List Char) : Boundary (before ++ [c]) rest := by
  refine ⟨fun _ _ _ => ?_, fun _ _ _ b hb hb' => ?_⟩
  · rw [endsInName_append_singleton]
    rintro (h | ⟨h, -⟩)
    · rw [isNameChar_of_isNameStart h] at hname
      cases hname
    · rw [h] at hname
      cases hname
  · rw [List.getLast?_concat, Option.mem_some_iff] at hb
    subst hb
    rw [hb'] at hnumeral
    cases hnumeral

/-- No name reaches to the end of a number. -/
theorem NumberRun.not_endsInName (h : NumberRun before run rest) : ¬ EndsInName (before ++ run) := by
  rcases List.eq_nil_or_concat run with rfl | ⟨front, c, rfl⟩
  · exact absurd rfl h.nonempty
  · rw [List.concat_eq_append]
    exact h.outside front c [] (List.concat_eq_append ..)

/-- A number ends at a boundary. -/
theorem NumberRun.boundary (h : NumberRun before run rest) : Boundary (before ++ run) rest := by
  refine ⟨fun _ _ _ => h.not_endsInName, fun c hc hc' => ?_⟩
  rw [h.closedRight c hc] at hc'
  cases hc'

/-- A name reaches from its beginning to its end. -/
theorem NameRun.endsInName (h : NameRun before run rest) {front back : List Char}
    (hrun : run = front ++ c :: back) : EndsInName (before ++ (front ++ [c])) := by
  obtain ⟨start, others, hstart, hs⟩ := h.start
  have hchars : ∀ d ∈ front ++ [c], Token.isNameChar d = true := fun d hd =>
    h.chars d (by rw [hrun, List.append_cons]; exact List.mem_append_left _ hd)
  rw [hstart] at hrun
  cases front with
  | nil =>
    obtain ⟨rfl, -⟩ := List.cons.inj hrun
    exact ⟨before, start, [], rfl, hs, by simp⟩
  | cons d front =>
    obtain ⟨rfl, -⟩ := List.cons.inj hrun
    exact ⟨before, start, front ++ [c], rfl, hs, fun d hd => hchars d (List.mem_cons_of_mem _ hd)⟩

/-- A name ends at a boundary. -/
theorem NameRun.boundary (h : NameRun before run rest) : Boundary (before ++ run) rest := by
  refine ⟨fun c hc hc' => ?_, fun _ _ _ _ _ _ => ?_⟩
  · rw [h.closedRight c hc] at hc'
    cases hc'
  · obtain ⟨start, others, hstart, -⟩ := h.start
    rcases List.eq_nil_or_concat run with rfl | ⟨front, c, rfl⟩
    · cases hstart
    · rw [List.concat_eq_append]
      exact h.endsInName (List.concat_eq_append ..)

/-- At a boundary the digits and points that follow are a run. -/
theorem Boundary.numberRun (h : Boundary before (run ++ rest))
    (hrun : ∀ c ∈ run, isNumeralChar c = true) (hne : run ≠ [])
    (hrest : ∀ c ∈ rest.head?, isNumeralChar c = false) : NumberRun before run rest := by
  obtain ⟨c, cs, rfl⟩ := List.exists_cons_of_ne_nil hne
  have hc : isNumeralChar c = true := hrun c (List.mem_cons_self ..)
  -- The first character stands in no name, and no name begins behind it.
  have hfirst : ¬ EndsInName (before ++ [c]) := by
    rw [endsInName_append_singleton]
    rintro (hstart | ⟨hname, hends⟩)
    · rw [isNameStart_of_isNumeralChar hc] at hstart
      cases hstart
    · exact h.name c rfl hname hends
  refine ⟨hne, hrun, fun front d back heq => ?_, fun b hb hb' => h.number c rfl hc b hb hb', hrest⟩
  have hsub : ∀ e ∈ front ++ [d], isNumeralChar e = true := fun e he =>
    hrun e (by rw [heq, List.append_cons]; exact List.mem_append_left _ he)
  cases front with
  | nil =>
    obtain ⟨rfl, -⟩ := List.cons.inj heq
    exact hfirst
  | cons e front =>
    obtain ⟨rfl, -⟩ := List.cons.inj heq
    rw [List.cons_append, List.append_cons before]
    exact not_endsInName_append hfirst fun e he => hsub e (List.mem_cons_of_mem _ he)

/-- At a boundary the name that follows is a run. -/
theorem Boundary.nameRun (h : Boundary before (c :: run ++ rest))
    (hc : Token.isNameStart c = true) (hrun : ∀ c ∈ run, Token.isNameChar c = true)
    (hrest : ∀ c ∈ rest.head?, Token.isNameChar c = false) : NameRun before (c :: run) rest :=
  ⟨⟨c, run, rfl, hc⟩, List.forall_mem_cons.2 ⟨isNameChar_of_isNameStart hc, hrun⟩,
    h.name c rfl (isNameChar_of_isNameStart hc), hrest⟩

/-! ## Pieces without an offence -/

/-- Nothing is wrong with a text at any place in `piece`, which stands between `before` and
`rest`. -/
def Clean (before piece rest : List Char) : Prop :=
  ∀ front c back f, piece = front ++ c :: back → ¬ Offends (before ++ front) (c :: (back ++ rest)) f

/-- There is always something that offends. -/
theorem Offends.ne_nil {f : Failure} (h : Offends before rest f) : rest ≠ [] := by
  cases h with
  | malformed hrun _ => exact List.append_ne_nil_of_left_ne_nil hrun.nonempty _
  | unrecognized _ => exact List.cons_ne_nil _ _

/-- What offends is a character of no class, or begins a run that is no number. -/
theorem offends_cons {f : Failure} (h : Offends before (c :: rest) f) :
    ¬ IsLexical c ∨ ∃ run others, c :: rest = run ++ others ∧ isNumeralChar c = true ∧
      NumberRun before run others ∧ ¬ IsNumber run := by
  generalize hs : c :: rest = s at h
  cases h with
  | @malformed run others hrun hn =>
    refine .inr ⟨run, others, rfl, hrun.numeral c ?_, hrun, hn⟩
    obtain ⟨d, ds, rfl⟩ := List.exists_cons_of_ne_nil hrun.nonempty
    obtain ⟨rfl, -⟩ := List.cons.inj hs
    exact List.mem_cons_self ..
  | unrecognized hc =>
    obtain ⟨rfl, -⟩ := List.cons.inj hs
    exact .inl hc

/-- A character of an expression that is in no number. -/
theorem clean_single (hc : IsLexical c) (hnumeral : isNumeralChar c = false)
    (before rest : List Char) : Clean before [c] rest := by
  intro front d back f heq hoff
  obtain ⟨rfl, rfl, rfl⟩ : front = [] ∧ d = c ∧ back = [] := by
    cases front with
    | nil =>
      obtain ⟨rfl, rfl⟩ := List.cons.inj heq
      exact ⟨rfl, rfl, rfl⟩
    | cons e front => simp at heq
  rcases offends_cons hoff with h | ⟨run, others, -, h, -⟩
  · exact h hc
  · rw [h] at hnumeral
    cases hnumeral

/-- A run of digits and points that is a number. -/
theorem clean_number (h : NumberRun before run rest) (hn : IsNumber run) :
    Clean before run rest := by
  intro front c back f heq hoff
  rcases offends_cons hoff with hc | ⟨run', others, hsplit, -, hrun', hn'⟩
  · exact hc (isLexical_of_isNumeralChar (h.numeral c (by simp [heq])))
  rcases List.eq_nil_or_concat front with rfl | ⟨front, d, rfl⟩
  -- Two runs that begin at the same place are the same.
  · have hsame : (run ++ rest).takeWhile isNumeralChar = run' := by
      rw [heq, List.nil_append, List.cons_append, hsplit]
      exact takeWhile_run hrun'.numeral hrun'.closedRight
    rw [takeWhile_run h.numeral h.closedRight] at hsame
    exact hn' (hsame ▸ hn)
  -- A run does not begin inside another one.
  · rw [List.concat_eq_append] at heq hrun'
    have hd : isNumeralChar d = true := h.numeral d (by simp [heq])
    refine h.outside front d (c :: back) (by rw [heq, List.append_cons]; simp) ?_
    exact hrun'.closedLeft d (by simp) hd

/-- A name. -/
theorem clean_name (h : NameRun before run rest) : Clean before run rest := by
  intro front c back f heq hoff
  rcases offends_cons hoff with hc | ⟨run', others, hsplit, -, hrun', -⟩
  · exact hc (isLexical_of_isNameChar (h.chars c (by simp [heq])))
  -- A run does not begin inside a name.
  · obtain ⟨d, ds, rfl⟩ := List.exists_cons_of_ne_nil hrun'.nonempty
    obtain ⟨rfl, -⟩ := List.cons.inj hsplit
    refine hrun'.outside [] c ds rfl ?_
    rw [List.nil_append, List.append_assoc]
    exact h.endsInName heq

/-! ## The answer of the scan -/

/-- What an answer has to say of the text behind `before`: how it is divided if nothing is wrong with
it, and otherwise the offence that comes first. -/
def Judged (before rest : List Char) : Except Failure (List Lexeme) → Prop
  | .ok lexemes => Division before rest lexemes ∧ Clean before rest []
  | .error f => ∃ front back, rest = front ++ back ∧ Offends (before ++ front) back f ∧
    ∀ front' back' g, rest = front' ++ back' → Offends (before ++ front') back' g →
      front.length ≤ front'.length

/-- An offence at the place itself comes first. -/
theorem judged_error {f : Failure} (h : Offends before rest f) : Judged before rest (.error f) :=
  ⟨[], rest, rfl, by rwa [List.append_nil], fun _ _ _ _ _ => Nat.zero_le _⟩

/-- A place in two pieces is a place in the first or in the second. -/
theorem append_eq_append_cons {piece front back : List Char} (h : piece ++ rest = front ++ c :: back) :
    (∃ behind, front = piece ++ behind ∧ rest = behind ++ c :: back) ∨
      ∃ behind, piece = front ++ c :: behind ∧ back = behind ++ rest := by
  rcases List.append_eq_append_iff.1 h with ⟨behind, hfront, hrest⟩ | ⟨behind, hpiece, hrest⟩
  · exact .inl ⟨behind, hfront, hrest⟩
  · cases behind with
    | nil => exact .inl ⟨[], by simp [hpiece], hrest.symm⟩
    | cons d behind =>
      obtain ⟨rfl, rfl⟩ := List.cons.inj hrest
      exact .inr ⟨behind, hpiece, rfl⟩

/-- The answer for what follows a piece without an offence carries over. -/
theorem Judged.consume {piece : List Char} {r : Except Failure (List Lexeme)}
    {k : List Lexeme → List Lexeme} (hclean : Clean before piece rest)
    (hdivision : ∀ lexemes, Division (before ++ piece) rest lexemes →
      Division before (piece ++ rest) (k lexemes))
    (h : Judged (before ++ piece) rest r) :
    Judged before (piece ++ rest) (r >>= fun lexemes => .ok (k lexemes)) := by
  cases r with
  | ok lexemes =>
    obtain ⟨hdiv, hrest⟩ := h
    refine ⟨hdivision _ hdiv, fun front c back f heq hoff => ?_⟩
    rcases append_eq_append_cons heq with ⟨behind, rfl, hsplit⟩ | ⟨behind, hsplit, rfl⟩
    · exact hrest behind c back f hsplit (by rwa [List.append_assoc])
    · exact hclean front c behind f hsplit (by rwa [List.append_nil] at hoff)
  | error f =>
    obtain ⟨front, back, rfl, hoff, hfirst⟩ := h
    refine ⟨piece ++ front, back, by rw [List.append_assoc], by rwa [← List.append_assoc], ?_⟩
    intro front' back' g heq hoff'
    obtain ⟨c, back', rfl⟩ := List.exists_cons_of_ne_nil hoff'.ne_nil
    rcases append_eq_append_cons heq with ⟨behind, rfl, hsplit⟩ | ⟨behind, hsplit, rfl⟩
    · rw [List.length_append, List.length_append]
      have hle := hfirst behind _ g hsplit (by rwa [List.append_assoc])
      omega
    · exact absurd hoff' (hclean front' c behind g hsplit)

/-- A class of characters has ended where the ones that belong to it are dropped. -/
theorem head?_dropWhile (p : Char → Bool) (s : List Char) :
    ∀ c ∈ (s.dropWhile p).head?, p c = false := by
  intro c hc
  have hhead := List.head?_dropWhile_not p s
  rwa [Option.mem_def.1 hc] at hhead

/-- A run begins with its first character and ends before a character of another class. -/
theorem run_cases {p : Char → Bool} (hc : p c = true) (rest : List Char) :
    (∀ d ∈ c :: rest.takeWhile p, p d = true) ∧
      c :: rest = (c :: rest.takeWhile p) ++ rest.dropWhile p ∧
      ∀ d ∈ (rest.dropWhile p).head?, p d = false :=
  ⟨List.forall_mem_cons.2 ⟨hc, fun _ h => List.mem_takeWhile_imp h⟩,
    by rw [List.cons_append, List.takeWhile_append_dropWhile], head?_dropWhile p rest⟩

/-- What the scan answers at a boundary is right. -/
theorem judged_scan (offset : Nat) (rest : List Char) : ∀ before, byteLength before = offset →
    Boundary before rest → Judged before rest (scan offset rest) := by
  -- The recursion of the scan, with one case for each kind of piece.
  induction offset, rest using scan.induct with
  | case1 offset =>
    rintro before rfl -
    rw [scan_nil]
    exact ⟨.finish, fun front c back f h => by simp at h⟩
  | case2 offset c rest hgap ih =>
    rintro before rfl -
    obtain ⟨hname, hnumeral⟩ := isNameChar_of_single (.inl hgap)
    have hc : IsLexical c := isLexical_iff.2 (.inl hgap)
    have hbytes : byteLength (before ++ [c]) = byteLength before + 1 :=
      byteLength_append_of_isLexical (List.forall_mem_singleton.2 hc) before
    have hrest := ih _ hbytes (boundary_single hname hnumeral before rest)
    have hwhole := hrest.consume (k := id) (clean_single hc hnumeral before rest)
      fun _ h => .gap (isGap_iff.1 hgap) h
    rw [scan_gap hgap]
    cases hscan : scan (byteLength before + 1) rest <;> simpa [hscan] using hwhole
  | case3 offset c rest hgap token htoken ih =>
    rintro before rfl -
    have hsymbol : (Token.ofSymbol? c).isSome = true := by rw [htoken]; rfl
    obtain ⟨hname, hnumeral⟩ := isNameChar_of_single (.inr hsymbol)
    have hc : IsLexical c := isLexical_iff.2 (.inr (.inl hsymbol))
    have hbytes : byteLength (before ++ [c]) = byteLength before + 1 :=
      byteLength_append_of_isLexical (List.forall_mem_singleton.2 hc) before
    have hrest := ih _ hbytes (boundary_single hname hnumeral before rest)
    rw [scan_symbol htoken]
    exact hrest.consume (clean_single hc hnumeral before rest) fun _ h => .lexeme (.symbol htoken) h
  | case4 offset c rest hgap hsymbol hc run hx =>
    rintro before rfl hboundary
    obtain ⟨hrun, hsplit, hrest⟩ := run_cases hc rest
    have hne : run ≠ [] := List.cons_ne_nil _ _
    rw [hsplit] at hboundary ⊢
    rw [scan_malformed hrun hrest hx hne]
    refine judged_error (.malformed (hboundary.numberRun hrun hne hrest) ?_)
    rw [← ofPlain?_isSome_iff hrun hne]
    rw [Binary64.ofPlain?, Option.map_eq_none_iff] at hx
    rw [hx]
    exact Bool.false_ne_true
  | case5 offset c rest hgap hsymbol hc run x hx ih =>
    rintro before rfl hboundary
    obtain ⟨hrun, hsplit, hrest⟩ := run_cases hc rest
    have hne : run ≠ [] := List.cons_ne_nil _ _
    have hlexical : ∀ d ∈ run, IsLexical d := fun d hd => isLexical_of_isNumeralChar (hrun d hd)
    rw [hsplit] at hboundary ⊢
    have hnumberRun := hboundary.numberRun hrun hne hrest
    have hnumber : IsNumber run := by
      rw [← ofPlain?_isSome_iff hrun hne]
      rw [Binary64.ofPlain?, Option.map_eq_some_iff] at hx
      obtain ⟨d, hd, -⟩ := hx
      rw [hd]
      rfl
    have htext : Binary64.ofText? (String.ofList run) = some x := by
      rw [ofText?_of_isNumeralChar hrun hne, hx]
    have hbehind := ih _ (byteLength_append_of_isLexical hlexical before) hnumberRun.boundary
    rw [scan_number hrun hrest hx hne]
    exact hbehind.consume (clean_number hnumberRun hnumber) fun _ h =>
      .lexeme (.number hnumberRun hnumber htext) h
  | case6 offset c rest hgap hsymbol hnumeral hc run ih =>
    rintro before rfl hboundary
    obtain ⟨hrun, hsplit, hrest⟩ := run_cases (isNameChar_of_isNameStart hc) rest
    have hlexical : ∀ d ∈ run, IsLexical d := fun d hd => isLexical_of_isNameChar (hrun d hd)
    have htail : ∀ d ∈ rest.takeWhile Token.isNameChar, Token.isNameChar d = true := fun d hd =>
      hrun d (List.mem_cons_of_mem _ hd)
    rw [hsplit] at hboundary ⊢
    have hnameRun := hboundary.nameRun hc htail hrest
    have hbehind := ih _ (byteLength_append_of_isLexical hlexical before) hnameRun.boundary
    rw [scan_name hc htail hrest]
    exact hbehind.consume (clean_name hnameRun) fun _ h => .lexeme (.name hnameRun) h
  | case7 offset c rest hgap hsymbol hnumeral hname =>
    rintro before rfl -
    rw [scan_unrecognized hgap hsymbol hnumeral hname]
    refine judged_error (.unrecognized ?_)
    rw [isLexical_iff, hsymbol]
    rintro (h | h | h | h)
    · exact hgap h
    · cases h
    · exact hnumeral h
    · exact hname h

/-! ## Divisions -/

variable {lexemes : List Lexeme}

/-- A token has characters. -/
theorem Spells.ne_nil {piece : List Char} {token : Token} (h : Spells before piece rest token) :
    piece ≠ [] := by
  cases h with
  | symbol _ => exact List.cons_ne_nil _ _
  | number hrun _ _ => exact hrun.nonempty
  | name hrun =>
    obtain ⟨c, others, rfl, -⟩ := hrun.start
    exact List.cons_ne_nil _ _

/-- No characters spell the end. -/
theorem Spells.ne_endOfInput {piece : List Char} {token : Token} (h : Spells before piece rest token) :
    token ≠ .endOfInput := by
  rintro rfl
  cases h with
  | symbol h =>
    unfold Token.ofSymbol? at h
    split at h <;> cases h

/-- All lexemes stand behind the place where the division begins. -/
theorem Division.byteLength_le (h : Division before rest lexemes) :
    ∀ l ∈ lexemes, byteLength before ≤ l.offset := by
  induction h with
  | finish => exact List.forall_mem_singleton.2 (Nat.le_refl _)
  | gap _ _ ih =>
    intro l hl
    exact Nat.le_trans (by rw [byteLength_append]; exact Nat.le_add_right _ _) (ih l hl)
  | lexeme _ _ ih =>
    refine List.forall_mem_cons.2 ⟨Nat.le_refl _, fun l hl => ?_⟩
    exact Nat.le_trans (by rw [byteLength_append]; exact Nat.le_add_right _ _) (ih l hl)

/-- Lexemes stand one behind the other. -/
theorem Division.pairwise (h : Division before rest lexemes) :
    lexemes.Pairwise fun l m => l.offset < m.offset := by
  induction h with
  | finish => exact List.pairwise_singleton _ _
  | gap _ _ ih => exact ih
  | @lexeme before piece rest token lexemes hpiece hrest ih =>
    refine List.pairwise_cons.2 ⟨fun l hl => ?_, ih⟩
    calc byteLength before
        < byteLength before + byteLength piece := Nat.lt_add_of_pos_right (byteLength_pos hpiece.ne_nil)
      _ = byteLength (before ++ piece) := (byteLength_append ..).symm
      _ ≤ l.offset := hrest.byteLength_le l hl

/-- The end comes last and once, and every other lexeme is spelled where it stands. -/
theorem Division.slices (h : Division before rest lexemes) :
    ∃ init, lexemes = init ++ [⟨.endOfInput, byteLength (before ++ rest)⟩] ∧
      ∀ l ∈ init, l.token ≠ .endOfInput ∧ ∃ front piece back,
        before ++ rest = front ++ (piece ++ back) ∧ l.offset = byteLength front ∧
          Spells front piece back l.token := by
  induction h with
  | finish => exact ⟨[], by rw [List.append_nil]; rfl, by simp⟩
  | @gap before c rest lexemes _ _ ih =>
    rw [List.append_assoc, List.singleton_append] at ih
    exact ih
  | @lexeme before piece rest token lexemes hpiece _ ih =>
    obtain ⟨init, rfl, hinit⟩ := ih
    rw [List.append_assoc] at hinit ⊢
    exact ⟨⟨token, byteLength before⟩ :: init, rfl, List.forall_mem_cons.2
      ⟨⟨hpiece.ne_endOfInput, before, piece, rest, rfl, rfl, hpiece⟩, hinit⟩⟩

/-! ## Whole texts -/

/-- There is one offence at most at a place. -/
theorem Offends.unique {f g : Failure} (hf : Offends before rest f) (hg : Offends before rest g) :
    f = g := by
  cases hf with
  | @malformed run others hrun hn =>
    generalize hs : run ++ others = s at hg
    cases hg with
    | @malformed run' others' hrun' hn' =>
      have hsame := takeWhile_run hrun.numeral hrun.closedRight
      rw [hs, takeWhile_run hrun'.numeral hrun'.closedRight] at hsame
      rw [hsame]
    | @unrecognized c others' hc =>
      obtain ⟨d, ds, rfl⟩ := List.exists_cons_of_ne_nil hrun.nonempty
      obtain ⟨rfl, -⟩ := List.cons.inj hs
      exact absurd (isLexical_of_isNumeralChar (hrun.numeral d (List.mem_cons_self ..))) hc
  | @unrecognized c others hc =>
    generalize hs : c :: others = s at hg
    cases hg with
    | @malformed run' others' hrun' hn' =>
      obtain ⟨d, ds, rfl⟩ := List.exists_cons_of_ne_nil hrun'.nonempty
      obtain ⟨rfl, -⟩ := List.cons.inj hs
      exact absurd (isLexical_of_isNumeralChar (hrun'.numeral c (List.mem_cons_self ..))) hc
    | unrecognized _ =>
      obtain ⟨rfl, -⟩ := List.cons.inj hs
      rfl

/-- Nothing is wrong with a text if all its characters have a place in an expression and all its runs
of digits and points are numbers. -/
theorem clean_nil_iff {text : List Char} : Clean [] text [] ↔ (∀ c ∈ text, IsLexical c) ∧
    ∀ before run rest, text = before ++ (run ++ rest) → NumberRun before run rest →
      IsNumber run := by
  constructor
  · intro h
    refine ⟨fun c hc => ?_, fun before run rest htext hrun => ?_⟩
    · obtain ⟨front, back, rfl⟩ := List.append_of_mem hc
      by_contra hn
      exact h front c back _ rfl (.unrecognized hn)
    · obtain ⟨c, cs, rfl⟩ := List.exists_cons_of_ne_nil hrun.nonempty
      by_contra hn
      have hoff : Offends before (c :: (cs ++ rest)) _ := .malformed hrun hn
      exact h before c (cs ++ rest) _ htext (by rwa [List.append_nil])
  · rintro ⟨hchars, hruns⟩ front c back f rfl hoff
    rw [List.append_nil] at hoff
    rcases offends_cons hoff with hc | ⟨run, others, hsplit, -, hrun, hn⟩
    · exact hc (hchars c (by simp))
    · exact hn (hruns front run others (by rw [hsplit]) hrun)

/-- The scan of a whole text. -/
theorem judged_ofText (text : String) : Judged [] text.toList (ofText text) :=
  judged_scan 0 text.toList [] rfl (boundary_nil _)

/-- **A text is cut by the lexical grammar, and nothing of it is lost.** Of every text: it has
lexemes if and only if all its characters have a place in an expression and every run of digits and
points outside names is a number; the lexemes then divide the text, in order, each at the byte offset
where the characters begin that spell it, up to the one of the end at the length of the text; and
otherwise the failure is the offence that comes first. -/
theorem ofText_exact (text : String) :
    ((∃ lexemes, ofText text = .ok lexemes) ↔ (∀ c ∈ text.toList, IsLexical c) ∧
      ∀ before run rest, text.toList = before ++ (run ++ rest) → NumberRun before run rest →
        IsNumber run) ∧
    (∀ lexemes, ofText text = .ok lexemes → Division [] text.toList lexemes ∧
      (lexemes.Pairwise fun l m => l.offset < m.offset) ∧
      ∃ init, lexemes = init ++ [⟨.endOfInput, text.utf8ByteSize⟩] ∧
        ∀ l ∈ init, l.token ≠ .endOfInput ∧ ∃ before piece rest,
          text.toList = before ++ (piece ++ rest) ∧ l.offset = byteLength before ∧
            Spells before piece rest l.token) ∧
    (∀ f, ofText text = .error f ↔ ∃ before rest, text.toList = before ++ rest ∧
      Offends before rest f ∧ ∀ before' rest' g, text.toList = before' ++ rest' →
        Offends before' rest' g → before.length ≤ before'.length) := by
  have hjudged := judged_ofText text
  rw [← clean_nil_iff]
  cases hscan : ofText text with
  | ok lexemes =>
    rw [hscan] at hjudged
    obtain ⟨hdivision, hclean⟩ := hjudged
    refine ⟨⟨fun _ => hclean, fun _ => ⟨lexemes, rfl⟩⟩, ?_, fun f => ⟨nofun, ?_⟩⟩
    · rintro _ ⟨⟩
      have hslices := hdivision.slices
      rw [List.nil_append, byteLength_toList] at hslices
      exact ⟨hdivision, hdivision.pairwise, hslices⟩
    -- A division leaves no place for an offence.
    · rintro ⟨before, rest, htext, hoff, -⟩
      obtain ⟨c, cs, rfl⟩ := List.exists_cons_of_ne_nil hoff.ne_nil
      exact absurd (by rwa [List.append_nil]) (hclean before c cs f htext)
  | error g =>
    rw [hscan] at hjudged
    obtain ⟨front, back, htext, hoff, hfirst⟩ := hjudged
    rw [List.nil_append] at hoff
    refine ⟨⟨nofun, fun hclean => ?_⟩, nofun, fun f => ⟨?_, ?_⟩⟩
    · obtain ⟨c, cs, rfl⟩ := List.exists_cons_of_ne_nil hoff.ne_nil
      exact absurd (by rwa [List.append_nil]) (hclean front c cs g htext)
    · rintro ⟨⟩
      exact ⟨front, back, htext, hoff, hfirst⟩
    -- Two offences that come first are at the same place.
    · rintro ⟨before, rest, htext', hoff', hfirst'⟩
      have hle := hfirst before rest f htext' hoff'
      have hge := hfirst' front back g htext hoff
      obtain ⟨rfl, rfl⟩ := List.append_inj (htext.symm.trans htext') (Nat.le_antisymm hle hge)
      rw [hoff.unique hoff']

end Calculator.Lexeme
