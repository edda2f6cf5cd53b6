import Calculator.Proofs.LetterCase.Tokens
import Calculator.Proofs.Parser.Outcome

/-!
# Trees of a text in lower case

The parser never looks into a name. From lexemes in lower case it builds the tree with all names in
lower case, or it fails in the same place, with the same failure but for the letters of the token
that it shows (`ofLexemes_map_lowered`, `ofText_asciiLower`).

`Lowers` relates what a reading function does on lexemes to what it does on the same lexemes in
lower case. It is kept by steps one after the other (`Lowers.bind`), and the recursion of the parser
proves it of every function (`lowers_all`). What is left over after a success holds no NaN either,
so that the next step may show any token of it.
-/

namespace Calculator

open Text Lexeme

/-- A failure with the name or the token that it shows in lower case. -/
def Failure.lowered : Failure → Failure
  | unknownFunction name => unknownFunction (asciiLower name)
  | unknownIdentifier name => unknownIdentifier (asciiLower name)
  | unexpectedToken found position => unexpectedToken (asciiLower found) position
  | failure => failure

namespace Expr

mutual

/-- A tree with all names in lower case. -/
def lowered : Expr → Expr
  | literal x => literal x
  | name text => name (asciiLower text)
  | negate operand => negate (lowered operand)
  | binary operation left right => binary operation (lowered left) (lowered right)
  | call function arguments => call (asciiLower function) (allLowered arguments)

/-- Some trees with all names in lower case. -/
def allLowered : List Expr → List Expr
  | [] => []
  | first :: others => lowered first :: allLowered others

end

variable {α β : Type} {d : Nat} {w rest : List Lexeme} {token : Token}
variable {g : α → α} {g' : β → β}

/-- What a function reads of lexemes in lower case (`r'`), where of the lexemes themselves it reads
`r`: the same in lower case. -/
def Lowers (g : α → α) : Except Failure (α × List Lexeme) → Except Failure (α × List Lexeme) → Prop
  | .ok (a, rest), r' => NoNaN rest ∧ r' = .ok (g a, rest.map Lexeme.lowered)
  | .error f, r' => r' = .error f.lowered

/-! ## Steps -/

/-- Steps one after the other. -/
theorem Lowers.bind {r r' : Except Failure (α × List Lexeme)}
    {k k' : α × List Lexeme → Except Failure (β × List Lexeme)} (h : Lowers g r r')
    (hk : ∀ a rest, r = .ok (a, rest) → NoNaN rest →
      Lowers g' (k (a, rest)) (k' (g a, rest.map Lexeme.lowered))) :
    Lowers g' (r >>= k) (r' >>= k') := by
  cases r with
  | error f =>
    obtain rfl : r' = .error f.lowered := h
    rfl
  | ok p =>
    obtain ⟨a, rest⟩ := p
    obtain ⟨hrest, rfl⟩ := h
    exact hk a rest rfl hrest

/-- A step that only gives its answer another form. -/
theorem Lowers.map {r r' : Except Failure (α × List Lexeme)} {b b' : α → β} (h : Lowers g r r')
    (hb : ∀ a, b' (g a) = g' (b a)) :
    Lowers g' (r >>= fun p => .ok (b p.1, p.2)) (r' >>= fun p => .ok (b' p.1, p.2)) :=
  h.bind fun a rest _ hrest => ⟨hrest, by rw [hb]⟩

/-- Going one level deeper. -/
theorem lowers_descend {k k' : Nat → Except Failure (α × List Lexeme)}
    (h : ∀ n, Lowers g (k n) (k' n)) : Lowers g (descend d >>= k) (descend d >>= k') := by
  by_cases hd : d + 1 ≤ maxDepth
  · rw [descend_of_lt hd, ok_bind, ok_bind]
    exact h _
  · rw [descend_of_ge (by omega)]
    rfl

/-- A lexeme that cannot stand where it does is shown in lower case. -/
theorem unexpected_map_lowered (hw : NoNaN w) :
    unexpected (w.map Lexeme.lowered) = (unexpected w).lowered := by
  cases w with
  | nil => rfl
  | cons next rest =>
    change Failure.unexpectedToken next.token.lowered.text next.offset = _
    rw [text_lowered (hw next (List.mem_cons_self ..))]
    rfl

/-- A lexeme that cannot stand where it does ends both readings. -/
theorem lowers_unexpected (hw : NoNaN w) :
    Lowers g (.error (unexpected w)) (.error (unexpected (w.map Lexeme.lowered))) :=
  congrArg Except.error (unexpected_map_lowered hw)

/-- Behind a lexeme there is no NaN if there is none with it. -/
theorem noNaN_of_cons {next : Lexeme} (h : NoNaN (next :: w)) : NoNaN w :=
  fun l hl => h l (List.mem_cons_of_mem _ hl)

/-! ## Tokens in lower case -/

/-- A token that is no name is that of the same token in lower case. -/
theorem eq_of_lowered_eq {token' : Token} (h : token'.lowered = token)
    (htoken : ∀ s, token ≠ .name s) : token' = token := by
  cases token' with
  | name s => exact absurd h.symm (htoken _)
  | _ => exact h

/-- Lexemes in lower case begin with a token that is no name only if the lexemes do. -/
theorem map_lowered_ne (h : ∀ offset rest, w ≠ ⟨token, offset⟩ :: rest)
    (htoken : ∀ s, token ≠ .name s) :
    ∀ offset rest, w.map Lexeme.lowered ≠ ⟨token, offset⟩ :: rest := by
  intro offset rest heq
  cases w with
  | nil => cases heq
  | cons next w =>
    obtain ⟨hnext, -⟩ := List.cons.inj heq
    obtain ⟨token', offset'⟩ := next
    rw [Lexeme.lowered, Lexeme.mk.injEq] at hnext
    obtain rfl := eq_of_lowered_eq hnext.1 htoken
    exact h offset' w rfl

/-- Operations have no case. -/
theorem Tier.operation?_lowered (tier : Tier) (token : Token) :
    tier.operation? token.lowered = tier.operation? token := by
  cases tier <;> cases token <;> rfl

/-! ## The functions of the parser -/

/-- What the rest of a chain after `left` does with lexemes in lower case. -/
def Tier.ChainLowers (tier : Tier) (d : Nat) (left : Expr) (w : List Lexeme) : Prop :=
  NoNaN w →
    Lowers lowered (tier.chain d left w) (tier.chain d left.lowered (w.map Lexeme.lowered))

/-- What a reading function does with lexemes in lower case. -/
def ReadsLower (g : α → α) (F : List Lexeme → Except Failure (α × List Lexeme))
    (w : List Lexeme) : Prop :=
  NoNaN w → Lowers g (F w) (F (w.map Lexeme.lowered))

/-- A chain lowers if its first operand and the loop do. -/
theorem Tier.whole_lowers (tier : Tier) (operand : ReadsLower lowered (tier.operand d) w)
    (loop : ∀ t rest, tier.operand d w = .ok (t, rest) → tier.ChainLowers d t rest) :
    ReadsLower lowered (tier.whole d) w := by
  intro hw
  rw [tier.whole_eq, tier.whole_eq]
  exact (operand hw).bind loop

/-- The loop ends where no operation follows. -/
theorem Tier.chainLowers_of_eq (tier : Tier) (left : Expr)
    (h : ∀ next ∈ w.head?, tier.operation? next.token = none) : tier.ChainLowers d left w := by
  intro hw
  cases w with
  | nil =>
    rw [List.map_nil, tier.chain_nil, tier.chain_nil]
    exact ⟨hw, rfl⟩
  | cons next w =>
    rw [List.map_cons, tier.chain_of_none (h next rfl), tier.chain_of_none]
    · exact ⟨hw, rfl⟩
    · exact (tier.operation?_lowered _).trans (h next rfl)

/-- The loop goes on after an operation and an operand. -/
theorem Tier.chainLowers_of_some (tier : Tier) {left : Expr} {next : Lexeme} {o : Operation}
    (ho : tier.operation? next.token = some o)
    (operand : ∀ k, ReadsLower lowered (tier.operand k) w)
    (loop : ∀ k r rest, tier.operand k w = .ok (r, rest) →
      tier.ChainLowers k (.binary o left r) rest) :
    tier.ChainLowers d left (next :: w) := by
  intro hw
  have ho' : tier.operation? next.lowered.token = some o := (tier.operation?_lowered _).trans ho
  rw [List.map_cons, tier.chain_of_some ho, tier.chain_of_some ho']
  refine lowers_descend fun k => (operand k (noNaN_of_cons hw)).bind fun r rest hr hrest => ?_
  have hloop := loop k r rest hr hrest
  rwa [lowered] at hloop

/-- A base may have an exponent. -/
theorem raised_lowers (b : Expr) (exponent : ∀ offset rest, w = ⟨.caret, offset⟩ :: rest →
      ∀ k, ReadsLower lowered (fun s => (signed k s).bare) rest) (hw : NoNaN w) :
    Lowers lowered (raised d (b, w)) (raised d (b.lowered, w.map Lexeme.lowered)) := by
  by_cases hcaret : ∃ offset rest, w = ⟨.caret, offset⟩ :: rest
  · obtain ⟨offset, rest, rfl⟩ := hcaret
    exact lowers_descend fun k => (exponent offset rest rfl k (noNaN_of_cons hw)).map fun t => by
      rw [lowered]
  · have hne : ∀ offset rest, w ≠ ⟨.caret, offset⟩ :: rest := fun offset rest h =>
      hcaret ⟨offset, rest, h⟩
    rw [raised_of_not_caret hne, raised_of_not_caret (map_lowered_ne hne (by simp))]
    exact ⟨hw, rfl⟩

/-- An expression in parentheses has to be closed. -/
theorem closed_lowers (t : Expr) (hw : NoNaN w) :
    Lowers lowered (closed (t, w)) (closed (t.lowered, w.map Lexeme.lowered)) := by
  by_cases hparen : ∃ offset rest, w = ⟨.rightParen, offset⟩ :: rest
  · obtain ⟨offset, rest, rfl⟩ := hparen
    exact ⟨noNaN_of_cons hw, rfl⟩
  · have hne : ∀ offset rest, w ≠ ⟨.rightParen, offset⟩ :: rest := fun offset rest h =>
      hparen ⟨offset, rest, h⟩
    rw [closed_of_not_rightParen hne, closed_of_not_rightParen (map_lowered_ne hne (by simp))]
    exact lowers_unexpected hw

/-- After an argument there is a comma and another one, or the end of the call. -/
theorem listed_lowers (t : Expr) (others : ∀ offset rest, w = ⟨.comma, offset⟩ :: rest →
      ReadsLower allLowered (fun s => (argumentList d s).bare) rest) (hw : NoNaN w) :
    Lowers allLowered (listed d (t, w)) (listed d (t.lowered, w.map Lexeme.lowered)) := by
  by_cases hcomma : ∃ offset rest, w = ⟨.comma, offset⟩ :: rest
  · obtain ⟨offset, rest, rfl⟩ := hcomma
    exact (others offset rest rfl (noNaN_of_cons hw)).map fun ts => by rw [allLowered]
  by_cases hparen : ∃ offset rest, w = ⟨.rightParen, offset⟩ :: rest
  · obtain ⟨offset, rest, rfl⟩ := hparen
    exact ⟨noNaN_of_cons hw, rfl⟩
  · have hcomma' : ∀ offset rest, w ≠ ⟨.comma, offset⟩ :: rest := fun offset rest h =>
      hcomma ⟨offset, rest, h⟩
    have hparen' : ∀ offset rest, w ≠ ⟨.rightParen, offset⟩ :: rest := fun offset rest h =>
      hparen ⟨offset, rest, h⟩
    rw [listed_of_not_comma hcomma' hparen', listed_of_not_comma (map_lowered_ne hcomma' (by simp))
      (map_lowered_ne hparen' (by simp))]
    exact lowers_unexpected hw

/-- Every function of the parser does the same on lexemes in lower case, but for the letters of
names. -/
theorem lowers_all :
    (∀ d w, ReadsLower lowered (fun s => (sum d s).bare) w) ∧
      (∀ d left w, Tier.sum.ChainLowers d left w) ∧
      (∀ d w, ReadsLower lowered (fun s => (product d s).bare) w) ∧
      (∀ d left w, Tier.product.ChainLowers d left w) ∧
      (∀ d w, ReadsLower lowered (fun s => (signed d s).bare) w) ∧
      (∀ d w, ReadsLower lowered (fun s => (power d s).bare) w) ∧
      (∀ d w, ReadsLower lowered (fun s => (primary d s).bare) w) ∧
      (∀ d w, ReadsLower allLowered (fun s => (arguments d s).bare) w) ∧
      (∀ d w, ReadsLower allLowered (fun s => (argumentList d s).bare) w) := by
  -- The recursion of the parser; the cases stand in the order of its definitions.
  apply sum.mutual_induct
  -- Chains of sums, and the loop over them: at the end, before another token, at an operation.
  · intro d w operand loop
    exact Tier.sum.whole_lowers operand fun t rest h => by
      obtain ⟨q, rfl, rfl⟩ := Reading.bare_eq_ok h
      exact loop q
  · intro d left
    exact Tier.sum.chainLowers_of_eq left (by simp)
  · intro d left next w h
    exact Tier.sum.chainLowers_of_eq left (by rintro _ ⟨⟩; exact h)
  · intro d left next w o ho operand loop
    exact Tier.sum.chainLowers_of_some ho operand fun k r rest h => by
      obtain ⟨q, rfl, rfl⟩ := Reading.bare_eq_ok h
      exact loop k q
  -- Chains of products in the same way.
  · intro d w operand loop
    exact Tier.product.whole_lowers operand fun t rest h => by
      obtain ⟨q, rfl, rfl⟩ := Reading.bare_eq_ok h
      exact loop q
  · intro d left
    exact Tier.product.chainLowers_of_eq left (by simp)
  · intro d left next w h
    exact Tier.product.chainLowers_of_eq left (by rintro _ ⟨⟩; exact h)
  · intro d left next w o ho operand loop
    exact Tier.product.chainLowers_of_some ho operand fun k r rest h => by
      obtain ⟨q, rfl, rfl⟩ := Reading.bare_eq_ok h
      exact loop k q
  -- Signed powers, with a minus sign and without one.
  · intro d offset w operand hw
    have hminus : (signed d ((⟨.minus, offset⟩ :: w).map Lexeme.lowered)).bare = _ :=
      signed_minus d offset (w.map Lexeme.lowered)
    beta_reduce
    rw [signed_minus, hminus]
    exact lowers_descend fun k => (operand k (noNaN_of_cons hw)).map fun t => by rw [lowered]
  · intro d w h unsigned hw
    beta_reduce
    rw [signed_of_not_minus h, signed_of_not_minus (map_lowered_ne h (by simp))]
    exact unsigned hw
  -- Powers.
  · intro d w base exponent hw
    beta_reduce
    rw [power_eq, power_eq]
    refine (base hw).bind fun b rest hb hrest => raised_lowers b (fun offset others heq => ?_) hrest
    obtain ⟨q, -, hq⟩ := Reading.bare_eq_ok hb
    exact exponent q offset others (hq.trans heq)
  -- Primary expressions: a number, a call, a name, parentheses, and what begins none of them.
  · intro d x offset w hw
    have hnumber : (primary d ((⟨.number x, offset⟩ :: w).map Lexeme.lowered)).bare = _ :=
      primary_number d offset x (w.map Lexeme.lowered)
    beta_reduce
    rw [primary_number, hnumber]
    exact ⟨noNaN_of_cons hw, by rw [lowered]⟩
  · intro d s offset offset' w list hw
    have hcall : (primary d ((⟨.name s, offset⟩ :: ⟨.leftParen, offset'⟩ :: w).map
        Lexeme.lowered)).bare = _ :=
      primary_call d offset offset' (asciiLower s) (w.map Lexeme.lowered)
    beta_reduce
    rw [primary_call, hcall]
    exact lowers_descend fun k =>
      (list k (noNaN_of_cons (noNaN_of_cons hw))).map fun ts => by rw [lowered]
  · intro d s offset w hne hw
    have hname : (primary d ((⟨.name s, offset⟩ :: w).map Lexeme.lowered)).bare = _ :=
      primary_name (map_lowered_ne hne (by simp)) d offset (asciiLower s)
    beta_reduce
    rw [primary_name hne, hname]
    exact ⟨noNaN_of_cons hw, by rw [lowered]⟩
  · intro d offset w inner hw
    have hparen : (primary d ((⟨.leftParen, offset⟩ :: w).map Lexeme.lowered)).bare = _ :=
      primary_leftParen d offset (w.map Lexeme.lowered)
    beta_reduce
    rw [primary_leftParen, hparen]
    exact lowers_descend fun k => (inner k (noNaN_of_cons hw)).bind fun t rest _ hrest =>
      closed_lowers t hrest
  · intro d w hnumber hcall hname hparen hw
    have hbegins : ∀ next rest, w = next :: rest → ¬ BeginsPrimary next.token := by
      rintro ⟨token, offset⟩ rest rfl hb
      cases token with
      | number x => exact hnumber x offset rest rfl
      | name s => exact hname s offset rest rfl
      | leftParen => exact hparen offset rest rfl
      | _ => exact hb
    have hbegins' : ∀ next rest, w.map Lexeme.lowered = next :: rest →
        ¬ BeginsPrimary next.token := by
      intro next rest heq hb
      cases w with
      | nil => cases heq
      | cons first w =>
        obtain ⟨rfl, -⟩ := List.cons.inj heq
        obtain ⟨token, offset⟩ := first
        exact hbegins _ _ rfl (by cases token <;> exact hb)
    beta_reduce
    rw [primary_of_not_begins hbegins, primary_of_not_begins hbegins']
    exact lowers_unexpected hw
  -- Arguments: none, some, and the list of these.
  · intro d offset w hw
    have hparen : (arguments d ((⟨.rightParen, offset⟩ :: w).map Lexeme.lowered)).bare = _ :=
      arguments_rightParen d offset (w.map Lexeme.lowered)
    beta_reduce
    rw [arguments_rightParen, hparen]
    exact ⟨noNaN_of_cons hw, by rw [allLowered]⟩
  · intro d w h list hw
    beta_reduce
    rw [arguments_of_not_rightParen h, arguments_of_not_rightParen (map_lowered_ne h (by simp))]
    exact list hw
  · intro d w first others hw
    beta_reduce
    rw [argumentList_eq, argumentList_eq]
    refine (first hw).bind fun t rest ht hrest => listed_lowers t (fun offset more heq => ?_) hrest
    obtain ⟨q, -, hq⟩ := Reading.bare_eq_ok ht
    exact others q offset more (hq.trans heq)

/-! ## Whole expressions -/

/-- What stands before the end in lower case. -/
theorem beforeEnd_map_lowered (s : List Lexeme) :
    beforeEnd (s.map Lexeme.lowered) = (beforeEnd s).map Lexeme.lowered := by
  have hend : ∀ l : Lexeme, l.lowered.token ≠ .endOfInput ↔ l.token ≠ .endOfInput := by
    rintro ⟨token, offset⟩
    cases token <;> simp [Lexeme.lowered, Token.lowered]
  unfold beforeEnd
  rw [List.takeWhile_map]
  simp only [Function.comp_def, hend]

/-- The tree of lexemes in lower case is the tree of the lexemes in lower case. -/
theorem ofLexemes_map_lowered {s : List Lexeme} (h : NoNaN s) :
    ofLexemes (s.map Lexeme.lowered) = ((ofLexemes s).map lowered).mapError Failure.lowered := by
  have hread : NoNaN (beforeEnd s) := fun l hl => h l ((List.takeWhile_sublist _).subset hl)
  have hsum := lowers_all.1 0 (beforeEnd s) hread
  rw [ofLexemes_eq, ofLexemes_eq, beforeEnd_map_lowered]
  cases hr : (sum 0 (beforeEnd s)).bare with
  | error f =>
    simp only [hr] at hsum
    rw [show (sum 0 ((beforeEnd s).map Lexeme.lowered)).bare = .error f.lowered from hsum]
    rfl
  | ok p =>
    obtain ⟨t, rest⟩ := p
    simp only [hr] at hsum
    obtain ⟨hrest, hr'⟩ := hsum
    rw [hr', ok_bind, ok_bind]
    by_cases hnil : rest = []
    · subst hnil
      rfl
    · dsimp only
      rw [if_neg hnil, if_neg (by simpa using hnil), unexpected_map_lowered hrest]
      rfl

/-- Where a text is cut wrongly, the failure shows no name. -/
theorem lowered_of_ofText {s : String} {f : Failure} (h : Lexeme.ofText s = .error f) :
    f.lowered = f := by
  have hjudged := judged_ofText s
  rw [h] at hjudged
  obtain ⟨front, back, -, hoff, -⟩ := hjudged
  cases hoff <;> rfl

/-- A text in lower case has the tree of the text with its names in lower case, or fails in the same
way. -/
theorem ofText_asciiLower (s : String) :
    ofText (asciiLower s) = ((ofText s).map lowered).mapError Failure.lowered := by
  unfold ofText
  rw [Lexeme.ofText_asciiLower]
  cases h : Lexeme.ofText s with
  | error f =>
    change Except.error f = .error f.lowered
    rw [lowered_of_ofText h]
  | ok lexemes => exact ofLexemes_map_lowered (noNaN_of_ofText h)

end Expr

end Calculator
