import Mathlib.Logic.Function.Iterate
import Calculator.Proofs.Parser.Exactness
import Calculator.Proofs.Printer.Tokens

/-!
# Parsing the text of a tree

The text of a tree has parentheses around every negation and every operation, and each of them takes
a level, with one more for the minus sign or for the right operand. `levels` counts these. Wherever
the tokens of a tree stand, the parser gives the tree back if so many levels are left, and finds the
expression nested too deeply if they are not (`within`). This is shown of the tree as a primary
expression, by induction on the tree (`primary_within`): a primary expression before lexemes that
cannot go on with it is read in the same way as a power, as a signed power and as a chain.
-/

namespace Calculator.Expr

variable {α β : Type} {d m n : Nat} {w rest : List Lexeme} {t l r : Expr}

mutual

/-- The number of levels that the parser uses for the text of a tree. -/
def levels : Expr → Nat
  | literal _ | name _ => 0
  | negate operand => levels operand + 2
  | binary _ left right => max (levels left) (levels right + 1) + 1
  | call _ arguments => levelsAll arguments + 1

/-- The largest number of levels for one of some trees. -/
def levelsAll : List Expr → Nat
  | [] => 0
  | first :: others => max (levels first) (levelsAll others)

end

/-! ## What fits below a level -/

/-- The result `x` if there are `n` levels below the depth `d`. -/
def within (d n : Nat) (x : α) : Except Failure α :=
  if d + n ≤ maxDepth then .ok x else .error (.invalid .nestedTooDeeply)

/-- Nothing more is needed where the depth itself is not too deep. -/
theorem within_zero (hd : d ≤ maxDepth) (x : α) : within d 0 x = .ok x := by
  rw [within, if_pos (by omega)]

/-- A level more is needed for what stands one level deeper. -/
theorem descend_bind_within {f : Nat → Except Failure α} {x : α}
    (h : d + 1 ≤ maxDepth → f (d + 1) = within (d + 1) n x) :
    (descend d >>= f) = within d (n + 1) x := by
  by_cases hd : d + 1 ≤ maxDepth
  · rw [descend_of_lt hd, ok_bind, h hd, within, within, Nat.add_right_comm, Nat.add_assoc]
  · rw [descend_of_ge (by omega), error_bind, within, if_neg (by omega)]

/-- Two steps need as many levels as the one that needs more. -/
theorem within_bind {x : α} {y : β} {f : α → Except Failure β}
    (h : d + m ≤ maxDepth → f x = within d n y) : (within d m x >>= f) = within d (max m n) y := by
  by_cases hd : d + m ≤ maxDepth
  · rw [within, if_pos hd, ok_bind, h hd, within, within]
    congr 1
    apply propext
    omega
  · rw [within, if_neg hd, error_bind, within, if_neg (by omega)]

/-- A step that needs no levels. -/
theorem within_bind_ok {x : α} {y : β} {f : α → Except Failure β} (h : f x = .ok y) :
    (within d m x >>= f) = within d m y := by
  by_cases hd : d + m ≤ maxDepth
  · rw [within, if_pos hd, ok_bind, h, within, if_pos hd]
  · rw [within, if_neg hd, error_bind, within, if_neg hd]

/-! ## From a primary expression to a chain -/

/-- Where no exponent follows, a power is read as its base is. -/
theorem power_within (h : (primary d w).bare = within d n (t, rest)) (hrest : Stops 1 rest) :
    (power d w).bare = within d n (t, rest) := by
  -- Only a caret would go on with the base, and a caret does not stop a power.
  rw [power_eq, h, within_bind_ok]
  apply raised_of_not_caret
  rintro offset others rfl
  exact Nat.lt_irrefl 1 (hrest _ _ rfl)

/-- Lexemes that begin a primary expression do not begin with a minus sign. -/
theorem signed_eq_power {next : Lexeme} (hnext : BeginsPrimary next.token) (d : Nat) :
    (signed d (next :: w)).bare = (power d (next :: w)).bare := by
  apply signed_of_not_minus
  rintro offset others ⟨rfl, rfl⟩
  exact hnext

/-- Where no operation of the tier follows, a chain is read as its first operand is. -/
theorem whole_within (tier : Tier) (h : tier.operand d w = within d n (t, rest))
    (hrest : Stops tier.looseness rest) : tier.whole d w = within d n (t, rest) := by
  rw [tier.whole_eq, h, within_bind_ok]
  exact tier.chain_of_stops hrest d t

/-- Where neither an operation nor an exponent follows, a chain of sums is read as a signed power
is. -/
theorem sum_within_of_signed (h : (signed d w).bare = within d n (t, rest))
    (hrest : Stops 3 rest) : (sum d w).bare = within d n (t, rest) := by
  have hproduct : Tier.product.whole d w = within d n (t, rest) :=
    whole_within .product h (hrest.mono (by decide))
  exact whole_within .sum hproduct hrest

/-- A primary expression is read as an operand of each tier. -/
theorem operand_within (tier : Tier) {next : Lexeme} (hnext : BeginsPrimary next.token)
    (h : (primary d (next :: w)).bare = within d n (t, rest))
    (hrest : Stops (tier.looseness - 1) rest) :
    tier.operand d (next :: w) = within d n (t, rest) := by
  have hsigned : (signed d (next :: w)).bare = within d n (t, rest) := by
    rw [signed_eq_power hnext]
    exact power_within h (hrest.mono (by cases tier <;> decide))
  cases tier with
  | product => exact hsigned
  | sum => exact whole_within .product hsigned hrest

/-! ## Operations -/

/-- Two operands with an operation of the tier between them. -/
theorem whole_binary_within {tier : Tier} {next : Lexeme} {o : Operation}
    (hj : tier.Joins next.token o) (hl : tier.operand d w = within d m (l, next :: rest))
    {others : List Lexeme}
    (hr : d + 1 ≤ maxDepth → tier.operand (d + 1) rest = within (d + 1) n (r, others))
    (hothers : Stops tier.looseness others) :
    tier.whole d w = within d (max m (n + 1)) (.binary o l r, others) := by
  rw [tier.whole_eq, hl]
  refine within_bind fun _ => ?_
  rw [tier.chain_of_some (Tier.operation?_eq_some.2 hj)]
  refine descend_bind_within fun hd => ?_
  rw [hr hd, within_bind_ok]
  exact tier.chain_of_stops hothers _ _

/-- A base and an exponent. -/
theorem power_binary_within {offset : Nat} {others : List Lexeme}
    (hl : (primary d w).bare = within d m (l, ⟨.caret, offset⟩ :: rest))
    (hr : d + 1 ≤ maxDepth → (signed (d + 1) rest).bare = within (d + 1) n (r, others)) :
    (power d w).bare = within d (max m (n + 1)) (.binary .pow l r, others) := by
  rw [power_eq, hl]
  refine within_bind fun _ => ?_
  rw [raised_caret]
  refine descend_bind_within fun hd => ?_
  rw [hr hd]
  exact within_bind_ok rfl

/-- Two primary expressions with the sign of an operation between them are read as a chain of
sums. -/
theorem sum_binary_within {o : Operation} {first next second : Lexeme} {others : List Lexeme}
    (ho : next.token = o.token) (hfirst : BeginsPrimary first.token)
    (hsecond : BeginsPrimary second.token)
    (hl : (primary d (first :: w)).bare = within d m (l, next :: second :: rest))
    (hr : d + 1 ≤ maxDepth →
      (primary (d + 1) (second :: rest)).bare = within (d + 1) n (r, others))
    (hothers : Stops 3 others) :
    (sum d (first :: w)).bare = within d (max m (n + 1)) (.binary o l r, others) := by
  -- An operation of a tier joins its operands in a chain of this tier.
  have chain : ∀ {tier : Tier}, tier.Joins next.token o →
      tier.whole d (first :: w) = within d (max m (n + 1)) (.binary o l r, others) := by
    intro tier hj
    have hnext : Stops (tier.looseness - 1) (next :: second :: rest) := by
      apply stops_cons
      rw [hj.looseness_eq]
      cases tier <;> decide
    refine whole_binary_within hj (operand_within tier hfirst hl hnext) (fun hd => ?_) ?_
    · exact operand_within tier hsecond (hr hd) (hothers.mono (by cases tier <;> decide))
    · exact hothers.mono (by cases tier <;> decide)
  -- A chain of products is also the only operand of a chain of sums.
  have sum_of_product : Tier.product.whole d (first :: w) =
      within d (max m (n + 1)) (.binary o l r, others) →
        (sum d (first :: w)).bare = within d (max m (n + 1)) (.binary o l r, others) :=
    fun h => whole_within .sum h hothers
  -- Each operation joins the operands of one tier, apart from the power, which is an operand.
  obtain ⟨token, offset⟩ := next
  obtain rfl : token = o.token := ho
  cases o with
  | add => exact chain .plus
  | sub => exact chain .minus
  | mul => exact sum_of_product (chain .star)
  | div => exact sum_of_product (chain .slash)
  | pow =>
    refine sum_within_of_signed ?_ hothers
    rw [signed_eq_power hfirst]
    refine power_binary_within hl fun hd => ?_
    rw [signed_eq_power hsecond]
    exact power_within (hr hd) (hothers.mono (by decide))

/-! ## The lexemes of a tree -/

/-- The tokens of a tree begin a primary expression. -/
theorem tokens_head (t : Expr) : ∃ next others, tokens t = next :: others ∧ BeginsPrimary next := by
  cases t with
  | literal x =>
    rw [tokens]
    exact ⟨_, _, rfl, trivial⟩
  | name s =>
    rw [tokens]
    exact ⟨_, _, rfl, trivial⟩
  | negate operand =>
    rw [tokens]
    exact ⟨_, _, rfl, trivial⟩
  | binary o left right =>
    rw [tokens]
    exact ⟨_, _, rfl, trivial⟩
  | call s arguments =>
    rw [tokens]
    exact ⟨_, _, rfl, trivial⟩

/-- Lexemes with the tokens of a tree begin a primary expression. -/
theorem lexemes_head {v : List Lexeme} (hv : v.map Lexeme.token = tokens t) :
    ∃ next u, v = next :: u ∧ BeginsPrimary next.token := by
  obtain ⟨token, others, htokens, hbegin⟩ := tokens_head t
  rw [htokens] at hv
  obtain ⟨offset, u, rfl, -⟩ := map_token_eq_cons hv
  exact ⟨_, u, rfl, hbegin⟩

/-- Lexemes with the tokens of one argument or more begin a primary expression. -/
theorem lexemes_head_arguments {ts : List Expr} {v : List Lexeme}
    (hv : v.map Lexeme.token = argumentTokens (t :: ts)) :
    ∃ next u, v = next :: u ∧ BeginsPrimary next.token := by
  cases ts with
  | nil =>
    rw [argumentTokens] at hv
    exact lexemes_head hv
  | cons second others =>
    rw [argumentTokens_cons_cons] at hv
    obtain ⟨u, u', rfl, hu, -⟩ := List.map_eq_append_iff.1 hv
    obtain ⟨next, u, rfl, hbegin⟩ := lexemes_head hu
    exact ⟨next, _, rfl, hbegin⟩

/-- The parser reads a tree from lexemes with its tokens, wherever they stand. -/
def ReadsBack (t : Expr) : Prop :=
  ∀ d, d ≤ maxDepth → ∀ v : List Lexeme, v.map Lexeme.token = tokens t → ∀ rest, Stops 0 rest →
    (primary d (v ++ rest)).bare = within d t.levels (t, rest)

/-- A parenthesis that closes ends everything. -/
theorem stops_rightParen (n offset : Nat) (hn : n < 4) (rest : List Lexeme) :
    Stops n (⟨.rightParen, offset⟩ :: rest) :=
  stops_cons hn rest

/-- A tree that is read as a primary expression is read as a chain of sums. -/
theorem ReadsBack.sum (h : ReadsBack t) (hd : d ≤ maxDepth) {v : List Lexeme}
    (hv : v.map Lexeme.token = tokens t) (hrest : Stops 3 rest) :
    (Expr.sum d (v ++ rest)).bare = within d t.levels (t, rest) := by
  have hprimary := h d hd v hv rest (hrest.mono (by decide))
  obtain ⟨next, u, rfl, hnext⟩ := lexemes_head hv
  exact whole_within .sum (operand_within .sum hnext hprimary (hrest.mono (by decide))) hrest

/-- A negation is read between its parentheses. -/
theorem readsBack_negate (h : ReadsBack t) : ReadsBack (.negate t) := by
  intro d hd v hv rest _
  rw [tokens] at hv
  obtain ⟨offset, _, rfl, hnext⟩ := map_token_eq_cons hv
  obtain ⟨offset', _, rfl, hbody⟩ := map_token_eq_cons hnext
  obtain ⟨u, _, rfl, hu, hclose⟩ := List.map_eq_append_iff.1 hbody
  obtain ⟨offset'', rfl⟩ := map_token_eq_singleton hclose
  have hparen : Stops 3 (⟨.rightParen, offset''⟩ :: rest) := stops_rightParen _ _ (by decide) rest
  rw [List.cons_append, List.cons_append, List.append_assoc, List.singleton_append,
    primary_leftParen, levels]
  refine descend_bind_within fun hd => ?_
  -- One level for the parenthesis, and one more for the minus sign.
  have hsigned :
      (signed (d + 1) (⟨.minus, offset'⟩ :: (u ++ ⟨.rightParen, offset''⟩ :: rest))).bare =
        within (d + 1) (t.levels + 1) (.negate t, ⟨.rightParen, offset''⟩ :: rest) := by
    rw [signed_minus]
    refine descend_bind_within fun hd => ?_
    have hprimary := h (d + 1 + 1) hd u hu _ (hparen.mono (by decide))
    obtain ⟨next, u, rfl, hbegin⟩ := lexemes_head hu
    rw [List.cons_append, signed_eq_power hbegin, ← List.cons_append,
      power_within hprimary (hparen.mono (by decide))]
    exact within_bind_ok rfl
  rw [sum_within_of_signed hsigned hparen, within_bind_ok (closed_rightParen ..)]

/-- An operation is read between its parentheses. -/
theorem readsBack_binary (o : Operation) (hl : ReadsBack l) (hr : ReadsBack r) :
    ReadsBack (.binary o l r) := by
  intro d hd v hv rest _
  rw [tokens] at hv
  obtain ⟨offset, _, rfl, hbody⟩ := map_token_eq_cons hv
  obtain ⟨u, _, rfl, hu, hnext⟩ := List.map_eq_append_iff.1 hbody
  obtain ⟨offset', _, rfl, htail⟩ := map_token_eq_cons hnext
  obtain ⟨v, _, rfl, hv', hclose⟩ := List.map_eq_append_iff.1 htail
  obtain ⟨offset'', rfl⟩ := map_token_eq_singleton hclose
  have hparen : Stops 3 (⟨.rightParen, offset''⟩ :: rest) := stops_rightParen _ _ (by decide) rest
  have hsign : Stops 0 (⟨o.token, offset'⟩ :: (v ++ ⟨.rightParen, offset''⟩ :: rest)) :=
    stops_cons (show 0 < looseness o.token by cases o <;> decide) _
  rw [List.cons_append, List.append_assoc, List.cons_append, List.append_assoc,
    List.singleton_append, primary_leftParen, levels]
  refine descend_bind_within fun hd => ?_
  -- The operands stand at the level of the parenthesis and one level below it.
  have hleft := hl (d + 1) hd u hu _ hsign
  have hright := fun hd : d + 1 + 1 ≤ maxDepth =>
    hr (d + 1 + 1) hd v hv' _ (hparen.mono (by decide))
  obtain ⟨first, u, rfl, hfirst⟩ := lexemes_head hu
  obtain ⟨second, v, rfl, hsecond⟩ := lexemes_head hv'
  simp only [List.cons_append] at hleft hright ⊢
  rw [sum_binary_within rfl hfirst hsecond hleft hright hparen,
    within_bind_ok (closed_rightParen ..)]

/-- One argument or more are read, with the commas between them. -/
theorem argumentList_within {ts : List Expr} (hts : ts ≠ []) (h : ∀ t ∈ ts, ReadsBack t)
    (hd : d ≤ maxDepth) {v : List Lexeme} (hv : v.map Lexeme.token = argumentTokens ts)
    (offset : Nat) (rest : List Lexeme) :
    (argumentList d (v ++ ⟨.rightParen, offset⟩ :: rest)).bare =
      within d (levelsAll ts) (ts, rest) := by
  induction ts generalizing v with
  | nil => exact absurd rfl hts
  | cons first others ih =>
    have hfirst : ReadsBack first := h first (List.mem_cons_self ..)
    cases others with
    | nil =>
      rw [argumentTokens] at hv
      have hparen : Stops 3 (⟨.rightParen, offset⟩ :: rest) := stops_rightParen _ _ (by decide) rest
      rw [argumentList_eq, hfirst.sum hd hv hparen, within_bind_ok (listed_rightParen ..),
        levelsAll, levelsAll, Nat.max_zero]
    | cons second others =>
      rw [argumentTokens_cons_cons] at hv
      obtain ⟨u, _, rfl, hu, htail⟩ := List.map_eq_append_iff.1 hv
      obtain ⟨offset', v, rfl, hv'⟩ := map_token_eq_cons htail
      have hcomma : Stops 3 (⟨.comma, offset'⟩ :: (v ++ ⟨.rightParen, offset⟩ :: rest)) :=
        stops_cons (show 3 < looseness .comma by decide) _
      -- What comes after a comma is a list of arguments again.
      have hothers := ih (List.cons_ne_nil _ _) (fun t ht => h t (List.mem_cons_of_mem _ ht)) hv'
      rw [List.append_assoc, List.cons_append, argumentList_eq, hfirst.sum hd hu hcomma, levelsAll]
      refine within_bind fun _ => ?_
      rw [listed_comma, hothers]
      exact within_bind_ok rfl

/-- The arguments of a call are read, if there are any. -/
theorem arguments_within {ts : List Expr} (h : ∀ t ∈ ts, ReadsBack t) (hd : d ≤ maxDepth)
    {v : List Lexeme} (hv : v.map Lexeme.token = argumentTokens ts) (offset : Nat)
    (rest : List Lexeme) :
    (arguments d (v ++ ⟨.rightParen, offset⟩ :: rest)).bare =
      within d (levelsAll ts) (ts, rest) := by
  cases ts with
  | nil =>
    -- The parenthesis that closes follows at once.
    rw [argumentTokens, List.map_eq_nil_iff] at hv
    subst hv
    rw [List.nil_append, arguments_rightParen, levelsAll, within_zero hd]
  | cons first others =>
    rw [arguments_of_not_rightParen]
    · exact argumentList_within (List.cons_ne_nil _ _) h hd hv offset rest
    · obtain ⟨next, u, rfl, hbegin⟩ := lexemes_head_arguments hv
      rintro offset' others' ⟨rfl, rfl⟩
      exact hbegin

/-- A call is read if its arguments are. -/
theorem readsBack_call {s : String} {ts : List Expr} (h : ∀ t ∈ ts, ReadsBack t) :
    ReadsBack (.call s ts) := by
  intro d hd v hv rest _
  rw [tokens] at hv
  obtain ⟨offset, _, rfl, hnext⟩ := map_token_eq_cons hv
  obtain ⟨offset', _, rfl, hbody⟩ := map_token_eq_cons hnext
  obtain ⟨u, _, rfl, hu, hclose⟩ := List.map_eq_append_iff.1 hbody
  obtain ⟨offset'', rfl⟩ := map_token_eq_singleton hclose
  rw [List.cons_append, List.cons_append, List.append_assoc, List.singleton_append, primary_call,
    levels]
  refine descend_bind_within fun hd => ?_
  rw [arguments_within h hd hu]
  exact within_bind_ok rfl

mutual

/-- The parser reads every tree from its tokens. -/
theorem readsBack : ∀ t : Expr, ReadsBack t
  | literal x => by
    intro d hd v hv rest _
    rw [tokens] at hv
    obtain ⟨offset, rfl⟩ := map_token_eq_singleton hv
    rw [levels, within_zero hd]
    exact primary_number ..
  | name s => by
    intro d hd v hv rest hrest
    rw [tokens] at hv
    obtain ⟨offset, rfl⟩ := map_token_eq_singleton hv
    rw [levels, within_zero hd]
    apply primary_name
    rintro offset others rfl
    exact absurd (hrest _ _ rfl) (Nat.lt_irrefl 0)
  | negate operand => readsBack_negate (readsBack operand)
  | binary o left right => readsBack_binary o (readsBack left) (readsBack right)
  | call _ arguments => readsBack_call (readsBack_of_mem arguments)

/-- The parser reads each of some trees from its tokens. -/
theorem readsBack_of_mem : ∀ ts : List Expr, ∀ t ∈ ts, ReadsBack t
  | [] => nofun
  | first :: others => List.forall_mem_cons.2 ⟨readsBack first, readsBack_of_mem others⟩

end

/-! ## The text of a tree -/

/-- The lexemes of a tree are all before the end. -/
theorem beforeEnd_append_endOfInput {v : List Lexeme} (hv : Token.endOfInput ∉ v.map Lexeme.token)
    (offset : Nat) : beforeEnd (v ++ [⟨.endOfInput, offset⟩]) = v := by
  have hself := beforeEnd_eq_self hv
  rw [beforeEnd] at hself ⊢
  rw [List.takeWhile_append_of_pos (List.takeWhile_eq_self_iff.1 hself),
    List.takeWhile_cons_of_neg (by simp), List.append_nil]

/-- A tree is read from lexemes with its tokens and the end of the text after them. -/
theorem ofLexemes_within {v : List Lexeme} (hv : v.map Lexeme.token = tokens t) (offset : Nat) :
    ofLexemes (v ++ [⟨.endOfInput, offset⟩]) = within 0 t.levels t := by
  have hsum := (readsBack t).sum (Nat.zero_le maxDepth) hv (stops_nil 3)
  rw [List.append_nil] at hsum
  rw [ofLexemes_eq, beforeEnd_append_endOfInput (hv ▸ endOfInput_notMem_tokens t), hsum]
  exact within_bind_ok rfl

/-- The lexemes of the text of a tree are those of its tokens. -/
theorem lexemes_ofText_text (h : t.Printable) :
    ∃ v offset, v.map Lexeme.token = tokens t ∧
      Lexeme.ofText t.text = .ok (v ++ [⟨.endOfInput, offset⟩]) := by
  obtain ⟨v, offset, hv, hscan⟩ := scanned_chars t h [] nofun 0
  refine ⟨v, offset, hv, ?_⟩
  rw [Lexeme.ofText, text, String.toList_ofList, ← List.append_nil (chars t), hscan,
    Lexeme.scan_nil, ok_bind]

/-- **Parsing the text of a tree.** A tree whose literals are finite without a sign and whose names
are names is read back from its text if the text needs no more levels than there are, and otherwise
the text is nested too deeply. -/
theorem ofText_text (h : t.Printable) :
    (t.levels ≤ maxDepth → ofText t.text = .ok t) ∧
      (maxDepth < t.levels → ofText t.text = .error (.invalid .nestedTooDeeply)) ∧
        Invalid.nestedTooDeeply.message = "expression nested too deeply" := by
  obtain ⟨v, offset, hv, hlexemes⟩ := lexemes_ofText_text h
  have htree : ofText t.text = within 0 t.levels t := by
    rw [ofText, hlexemes, ok_bind, ofLexemes_within hv]
  refine ⟨fun hle => ?_, fun hlt => ?_, rfl⟩
  · rw [htree, within, if_pos (by omega)]
  · rw [htree, within, if_neg (by omega)]

/-- Every minus sign needs two levels. -/
theorem levels_negations (t : Expr) (n : Nat) : (negate^[n] t).levels = t.levels + 2 * n := by
  induction n with
  | zero => rfl
  | succ n ih =>
    rw [Function.iterate_succ_apply', levels, ih]
    omega

/-- Minus signs do not matter for whether a tree has a text of its own. -/
theorem printable_negations (h : t.Printable) (n : Nat) : (negate^[n] t).Printable := by
  induction n with
  | zero => exact h
  | succ n ih =>
    rw [Function.iterate_succ_apply', Printable]
    exact ih

/-- With 128 minus signs a name is read back, and with one more it is nested too deeply. -/
theorem ofText_text_negations :
    Printable (.name "x") ∧
      ofText (negate^[128] (.name "x")).text = .ok (negate^[128] (.name "x")) ∧
      ofText (negate^[129] (.name "x")).text = .error (.invalid .nestedTooDeeply) := by
  have hname : Printable (.name "x") := by
    rw [Printable]
    exact ⟨'x', [], rfl, rfl, nofun⟩
  refine ⟨hname, (ofText_text (printable_negations hname 128)).1 ?_,
    (ofText_text (printable_negations hname 129)).2.1 ?_⟩
  · rw [levels_negations, levels]
    decide
  · rw [levels_negations, levels]
    decide

end Calculator.Expr
