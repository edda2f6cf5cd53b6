import Calculator.Proofs.Token.Exactness

/-!
# Texts one behind the other

At a boundary between two texts, where neither a name nor a number goes on from one into the other,
the scan treats each by itself: the lexemes of both together are those of the first without its end,
and then those of the second, counted from where it begins (`ofText_append`). If the first text
fails, so do both, and in the same way.

The induction follows the scan of the first text. Its last run could only go on into the second one,
and that is where the boundary is needed.
-/

namespace Calculator.Lexeme

open Text

variable {before first second run rest : List Char} {lexemes : List Lexeme}

/-- There is always the lexeme of the end. -/
theorem ne_nil_of_scan {offset : Nat} {text : List Char} (h : scan offset text = .ok lexemes) :
    lexemes ≠ [] := by
  induction offset, text using scan.induct with
  | case1 offset =>
    rw [scan_nil] at h
    cases h
    exact List.cons_ne_nil _ _
  | case2 offset c rest hgap ih =>
    rw [scan_gap hgap] at h
    exact ih h
  | case3 offset c rest hgap token htoken _ =>
    rw [scan_symbol htoken, bind_eq_ok] at h
    obtain ⟨others, -, ⟨⟩⟩ := h
    exact List.cons_ne_nil _ _
  | case4 offset c rest hgap hsymbol hc run hx =>
    obtain ⟨hrun, hsplit, hrest⟩ := run_cases hc rest
    rw [hsplit, scan_malformed hrun hrest hx (List.cons_ne_nil _ _)] at h
    cases h
  | case5 offset c rest hgap hsymbol hc run x hx _ =>
    obtain ⟨hrun, hsplit, hrest⟩ := run_cases hc rest
    rw [hsplit, scan_number hrun hrest hx (List.cons_ne_nil _ _), bind_eq_ok] at h
    obtain ⟨others, -, ⟨⟩⟩ := h
    exact List.cons_ne_nil _ _
  | case6 offset c rest hgap hsymbol hnumeral hc run _ =>
    obtain ⟨hrun, hsplit, hrest⟩ := run_cases (isNameChar_of_isNameStart hc) rest
    rw [hsplit, scan_name hc (fun d hd => hrun d (List.mem_cons_of_mem _ hd)) hrest,
      bind_eq_ok] at h
    obtain ⟨others, -, ⟨⟩⟩ := h
    exact List.cons_ne_nil _ _
  | case7 offset c rest hgap hsymbol hnumeral hname =>
    rw [scan_unrecognized hgap hsymbol hnumeral hname] at h
    cases h

/-- A class of characters has ended behind a run if it has in the rest of the first text, or at the
second one where nothing of the first is left. -/
theorem head?_append_of_head? {p : Char → Bool} (hrest : ∀ c ∈ rest.head?, p c = false)
    (hsecond : rest = [] → ∀ c ∈ second.head?, p c = false) :
    ∀ c ∈ (rest ++ second).head?, p c = false := by
  cases rest with
  | nil => exact hsecond rfl
  | cons d rest => exact hrest

/-- A number that ends where the second text may begin does not go on into it. -/
theorem NumberRun.closedRight_append (h : NumberRun before run rest)
    (hsecond : Boundary (before ++ (run ++ rest)) second) :
    ∀ c ∈ (rest ++ second).head?, isNumeralChar c = false := by
  refine head?_append_of_head? h.closedRight ?_
  rintro rfl c hc
  rw [List.append_nil] at hsecond
  rw [Bool.eq_false_iff]
  intro hnumeral
  -- Only a name could end before a digit or a point.
  obtain ⟨front, d, rfl⟩ := List.eq_nil_or_concat run |>.resolve_left h.nonempty
  rw [List.concat_eq_append] at h hsecond
  have hd : isNumeralChar d = true := h.numeral d (by simp)
  exact h.not_endsInName (hsecond.number c hc hnumeral d (by simp) hd)

/-- A name that ends where the second text may begin does not go on into it. -/
theorem NameRun.closedRight_append (h : NameRun before run rest)
    (hsecond : Boundary (before ++ (run ++ rest)) second) :
    ∀ c ∈ (rest ++ second).head?, Token.isNameChar c = false := by
  refine head?_append_of_head? h.closedRight ?_
  rintro rfl c hc
  rw [List.append_nil] at hsecond
  rw [Bool.eq_false_iff]
  intro hname
  obtain ⟨start, others, hstart, hs⟩ := h.start
  have hends : EndsInName (before ++ run) := by
    refine ⟨before, start, others, by rw [hstart], hs, fun d hd => h.chars d ?_⟩
    rw [hstart]
    exact List.mem_cons_of_mem _ hd
  exact hsecond.name c hc hname hends

/-- What is known of the texts behind a lexeme holds with the lexeme before them. -/
theorem cons_append_scans {l : Lexeme} {both single others : Except Failure (List Lexeme)}
    (hne : ∀ lexemes, single = .ok lexemes → lexemes ≠ [])
    (h : both = single >>= fun lexemes => others >>= fun more =>
      .ok (lexemes.dropLast ++ more)) :
    (both >>= fun more => .ok (l :: more)) =
      (single >>= fun more => .ok (l :: more)) >>= fun lexemes => others >>= fun more =>
        .ok (lexemes.dropLast ++ more) := by
  subst h
  cases single with
  | error f => rfl
  | ok lexemes =>
    cases others with
    | error f => rfl
    | ok more => simp only [ok_bind, List.dropLast_cons_of_ne_nil (hne _ rfl), List.cons_append]

/-- At a boundary the scan treats two texts by themselves. -/
theorem scan_append (second : List Char) (offset : Nat) (first : List Char) : ∀ before,
    Boundary before first → Boundary (before ++ first) second →
    scan offset (first ++ second) = scan offset first >>= fun lexemes =>
      scan (offset + byteLength first) second >>= fun others =>
        .ok (lexemes.dropLast ++ others) := by
  -- The recursion of the scan, with one case for each kind of piece.
  induction offset, first using scan.induct with
  | case1 offset =>
    intro before _ _
    rw [scan_nil, List.nil_append]
    change scan offset second = scan offset second >>= fun others => .ok others
    cases scan offset second <;> rfl
  | case2 offset c rest hgap ih =>
    intro before _ hsecond
    obtain ⟨hname, hnumeral⟩ := isNameChar_of_single (.inl hgap)
    have hsize : byteLength (c :: rest) = 1 + byteLength rest :=
      congrArg (· + byteLength rest) (isLexical_iff.2 (.inl hgap)).utf8Size_eq
    rw [List.append_cons] at hsecond
    rw [List.cons_append, scan_gap hgap, scan_gap hgap, hsize, ← Nat.add_assoc]
    exact ih _ (boundary_single hname hnumeral before rest) hsecond
  | case3 offset c rest hgap token htoken ih =>
    intro before _ hsecond
    have hsymbol : (Token.ofSymbol? c).isSome = true := by rw [htoken]; rfl
    obtain ⟨hname, hnumeral⟩ := isNameChar_of_single (.inr hsymbol)
    have hsize : byteLength (c :: rest) = 1 + byteLength rest :=
      congrArg (· + byteLength rest) (isLexical_iff.2 (.inr (.inl hsymbol))).utf8Size_eq
    rw [List.append_cons] at hsecond
    rw [List.cons_append, scan_symbol htoken, scan_symbol htoken, hsize, ← Nat.add_assoc]
    exact cons_append_scans (fun _ => ne_nil_of_scan)
      (ih _ (boundary_single hname hnumeral before rest) hsecond)
  | case4 offset c rest hgap hsymbol hc run hx =>
    intro before hfirst hsecond
    obtain ⟨hrun, hsplit, hrest⟩ := run_cases hc rest
    have hne : run ≠ [] := List.cons_ne_nil _ _
    rw [hsplit] at hfirst hsecond ⊢
    have hnumberRun := hfirst.numberRun hrun hne hrest
    have hrest' := hnumberRun.closedRight_append hsecond
    rw [List.append_assoc, scan_malformed hrun hrest' hx hne, scan_malformed hrun hrest hx hne]
    rfl
  | case5 offset c rest hgap hsymbol hc run x hx ih =>
    intro before hfirst hsecond
    obtain ⟨hrun, hsplit, hrest⟩ := run_cases hc rest
    have hne : run ≠ [] := List.cons_ne_nil _ _
    have hlexical : ∀ d ∈ run, IsLexical d := fun d hd => isLexical_of_isNumeralChar (hrun d hd)
    rw [hsplit] at hfirst hsecond ⊢
    have hnumberRun := hfirst.numberRun hrun hne hrest
    have hrest' := hnumberRun.closedRight_append hsecond
    rw [← List.append_assoc] at hsecond
    rw [List.append_assoc, scan_number hrun hrest' hx hne, scan_number hrun hrest hx hne,
      byteLength_append, byteLength_of_isLexical hlexical, ← Nat.add_assoc]
    exact cons_append_scans (fun _ => ne_nil_of_scan) (ih _ hnumberRun.boundary hsecond)
  | case6 offset c rest hgap hsymbol hnumeral hc run ih =>
    intro before hfirst hsecond
    obtain ⟨hrun, hsplit, hrest⟩ := run_cases (isNameChar_of_isNameStart hc) rest
    have hlexical : ∀ d ∈ run, IsLexical d := fun d hd => isLexical_of_isNameChar (hrun d hd)
    have htail : ∀ d ∈ rest.takeWhile Token.isNameChar, Token.isNameChar d = true := fun d hd =>
      hrun d (List.mem_cons_of_mem _ hd)
    rw [hsplit] at hfirst hsecond ⊢
    have hnameRun := hfirst.nameRun hc htail hrest
    have hrest' := hnameRun.closedRight_append hsecond
    rw [← List.append_assoc] at hsecond
    rw [List.append_assoc, scan_name hc htail hrest', scan_name hc htail hrest,
      byteLength_append, byteLength_of_isLexical hlexical, ← Nat.add_assoc]
    exact cons_append_scans (fun _ => ne_nil_of_scan) (ih _ hnameRun.boundary hsecond)
  | case7 offset c rest hgap hsymbol hnumeral hname =>
    intro before _ _
    rw [List.cons_append, scan_unrecognized hgap hsymbol hnumeral hname,
      scan_unrecognized hgap hsymbol hnumeral hname]
    rfl

/-- At a boundary the lexemes of two texts are those of the first, without its end, and those of the
second where it stands behind the first. -/
theorem ofText_append {first second : String} (h : Boundary first.toList second.toList) :
    ofText (first ++ second) = ofText first >>= fun lexemes =>
      scan first.utf8ByteSize second.toList >>= fun others => .ok (lexemes.dropLast ++ others) := by
  have hscan := scan_append second.toList 0 first.toList [] (boundary_nil _) h
  rw [Nat.zero_add, byteLength_toList] at hscan
  rw [ofText, String.toList_append]
  exact hscan

end Calculator.Lexeme
