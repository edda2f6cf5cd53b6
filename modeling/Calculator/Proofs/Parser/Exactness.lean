import Mathlib.Data.List.TakeWhile
import Calculator.Proofs.Parser.Outcome

/-!
# The parser reads exactly the grammar

`ofLexemes` succeeds with a tree if and only if the grammar derives the tokens before the end of the
text from a chain of sums with this tree (`ofLexemes_eq_ok_iff_derives`), so that no word of tokens
has two trees.

Both directions go through the functions of the parser. What a function returns stands for the front
of its input that it has taken up (`reads_derives`), by the recursion of the parser. And on a word
that is derived, before lexemes that cannot go on with it, the function for its phrase takes up just
this word (`Derives.accepted`), by induction on the derivation. For the chain that a loop has read
so far, this says that the parser then stands where the loop goes on.
-/

namespace Calculator.Expr

variable {α β : Type} {d : Nat} {w rest : List Lexeme} {t : Expr}

/-! ## What is read is derived -/

/-- Whatever `r` returns, it has taken up a front of `w` whose tokens `P` relates to the value. -/
def Reads (r : Except Failure (α × List Lexeme)) (w : List Lexeme) (P : α → List Token → Prop) :
    Prop :=
  ∀ a rest, r = .ok (a, rest) → ∃ v, w = v ++ rest ∧ P a (v.map Lexeme.token)

/-- The loop over a chain finishes any chain that has been read up to its state. -/
def Tier.Finishes (tier : Tier) (d : Nat) (left : Expr) (w : List Lexeme) : Prop :=
  ∀ start m u, start + m = d → Derives start (.links tier m left) u →
    Reads (tier.chain d left w) w fun t v => Derives start (.chain tier t) (u ++ v)

/-- A chain is read if its first operand is and the loop finishes it. -/
theorem Tier.whole_reads (tier : Tier)
    (operand : Reads (tier.operand d w) w fun t => Derives d (.operand tier t))
    (loop : ∀ t rest, tier.operand d w = .ok (t, rest) → tier.Finishes d t rest) :
    Reads (tier.whole d w) w fun t => Derives d (.chain tier t) := by
  -- The first operand is a chain with no operation, which is what the loop starts from.
  intro t rest h
  rw [tier.whole_eq, bind_eq_ok] at h
  obtain ⟨⟨l, rest'⟩, hl, h⟩ := h
  obtain ⟨v, rfl, hv⟩ := operand l rest' hl
  obtain ⟨v', rfl, hv'⟩ := loop l rest' hl d 0 _ (Nat.add_zero d) (.first hv) t rest h
  exact ⟨v ++ v', (List.append_assoc ..).symm, by rw [List.map_append]; exact hv'⟩

/-- The loop ends the chain where no operation follows. -/
theorem Tier.finishes_of_eq (tier : Tier) {left : Expr}
    (h : tier.chain d left w = .ok (left, w)) : tier.Finishes d left w := by
  intro start m u _ hu t rest ht
  rw [h] at ht
  cases ht
  exact ⟨[], rfl, by simpa using .chain hu⟩

/-- The loop goes on after an operation and an operand. -/
theorem Tier.finishes_of_some (tier : Tier) {left : Expr} {next : Lexeme} {o : Operation}
    (ho : tier.operation? next.token = some o)
    (operand : ∀ k, Reads (tier.operand k w) w fun t => Derives k (.operand tier t))
    (loop : ∀ k r rest, tier.operand k w = .ok (r, rest) →
      tier.Finishes k (.binary o left r) rest) :
    tier.Finishes d left (next :: w) := by
  intro start m u hd hu t rest h
  rw [tier.chain_of_some ho, descend_bind_eq_ok, bind_eq_ok] at h
  obtain ⟨hle, ⟨r, rest'⟩, hr, h⟩ := h
  obtain ⟨v, rfl, hv⟩ := operand _ r rest' hr
  subst hd
  -- The chain up to here with one operation more, for the rest of the loop to finish.
  have hlink := Derives.link hu (Tier.operation?_eq_some.1 ho) hle hv
  obtain ⟨v', rfl, hv'⟩ := loop _ r rest' hr start (m + 1) _ rfl hlink t rest h
  refine ⟨next :: (v ++ v'), by simp, ?_⟩
  simpa using hv'

/-- A minus sign is read with the signed power that follows. -/
theorem signed_minus_reads {offset : Nat}
    (operand : ∀ k, Reads (signed k w).bare w fun t => Derives k (.signed t)) :
    Reads (signed d (⟨.minus, offset⟩ :: w)).bare (⟨.minus, offset⟩ :: w)
      fun t => Derives d (.signed t) := by
  intro t rest h
  rw [signed_minus, descend_bind_eq_ok, bind_eq_ok] at h
  obtain ⟨hle, ⟨u, rest'⟩, hu, h⟩ := h
  cases h
  obtain ⟨v, rfl, hv⟩ := operand _ _ _ hu
  exact ⟨_ :: v, rfl, .minus hle hv⟩

/-- A power is read with the exponent that follows its base. -/
theorem power_reads (base : Reads (primary d w).bare w fun t => Derives d (.primary t))
    (exponent : ∀ t offset rest, (primary d w).bare = .ok (t, ⟨.caret, offset⟩ :: rest) →
      ∀ k, Reads (signed k rest).bare rest fun t => Derives k (.signed t)) :
    Reads (power d w).bare w fun t => Derives d (.power t) := by
  intro t rest h
  rw [power_eq, bind_eq_ok] at h
  obtain ⟨⟨b, rest'⟩, hb, h⟩ := h
  obtain ⟨v, rfl, hv⟩ := base b rest' hb
  unfold raised at h
  split at h
  -- A caret follows the base.
  · rename_i offset others heq
    obtain rfl : rest' = _ := heq
    rw [descend_bind_eq_ok, bind_eq_ok] at h
    obtain ⟨hle, ⟨u, rest''⟩, hu, h⟩ := h
    cases h
    obtain ⟨v', rfl, hv'⟩ := exponent b offset others hb _ _ _ hu
    refine ⟨v ++ ⟨.caret, offset⟩ :: v', by simp, ?_⟩
    simpa using .raised hv hle hv'
  · cases h
    exact ⟨v, rfl, .base hv⟩

/-- A call is read with its arguments. -/
theorem primary_call_reads {s : String} {offset offset' : Nat}
    (list : ∀ k, Reads (arguments k w).bare w fun ts v =>
      ∃ u, v = u ++ [Token.rightParen] ∧ Derives k (.arguments ts) u) :
    Reads (primary d (⟨.name s, offset⟩ :: ⟨.leftParen, offset'⟩ :: w)).bare
      (⟨.name s, offset⟩ :: ⟨.leftParen, offset'⟩ :: w) fun t => Derives d (.primary t) := by
  intro t rest h
  rw [primary_call, descend_bind_eq_ok, bind_eq_ok] at h
  obtain ⟨hle, ⟨ts, rest'⟩, hts, h⟩ := h
  cases h
  obtain ⟨v, rfl, u, hv, hu⟩ := list _ _ _ hts
  refine ⟨_ :: _ :: v, rfl, ?_⟩
  rw [List.map_cons, List.map_cons, hv]
  exact .call s hle hu

/-- An expression in parentheses is read with the parenthesis that closes it. -/
theorem primary_leftParen_reads {offset : Nat}
    (inner : ∀ k, Reads (sum k w).bare w fun t => Derives k (.chain .sum t)) :
    Reads (primary d (⟨.leftParen, offset⟩ :: w)).bare (⟨.leftParen, offset⟩ :: w)
      fun t => Derives d (.primary t) := by
  intro t rest h
  rw [primary_leftParen, descend_bind_eq_ok, bind_eq_ok] at h
  obtain ⟨hle, ⟨u, rest'⟩, hu, h⟩ := h
  obtain ⟨v, rfl, hv⟩ := inner _ _ _ hu
  unfold closed at h
  split at h
  · rename_i offset' others heq
    obtain rfl : rest' = _ := heq
    cases h
    refine ⟨⟨.leftParen, offset⟩ :: (v ++ [⟨.rightParen, offset'⟩]), by simp, ?_⟩
    simpa using .parens hle hv
  · cases h

/-- A list of arguments is read up to the parenthesis that closes it. -/
theorem argumentList_reads (first : Reads (sum d w).bare w fun t => Derives d (.chain .sum t))
    (others : ∀ t offset rest, (sum d w).bare = .ok (t, ⟨.comma, offset⟩ :: rest) →
      Reads (argumentList d rest).bare rest fun ts v =>
        ∃ u, v = u ++ [Token.rightParen] ∧ Derives d (.list ts) u) :
    Reads (argumentList d w).bare w fun ts v =>
      ∃ u, v = u ++ [Token.rightParen] ∧ Derives d (.list ts) u := by
  intro ts rest h
  rw [argumentList_eq, bind_eq_ok] at h
  obtain ⟨⟨t, rest'⟩, ht, h⟩ := h
  obtain ⟨v, rfl, hv⟩ := first t rest' ht
  unfold listed at h
  split at h
  -- After a comma comes a list again, and it ends with the parenthesis of the whole.
  · rename_i offset more heq
    obtain rfl : rest' = _ := heq
    rw [bind_eq_ok] at h
    obtain ⟨⟨us, rest''⟩, hus, h⟩ := h
    cases h
    obtain ⟨v', rfl, u, hv', hu⟩ := others t offset more ht _ _ hus
    refine ⟨v ++ ⟨.comma, offset⟩ :: v', by simp, _, ?_, .more hv hu⟩
    simp [hv']
  · rename_i offset more heq
    obtain rfl : rest' = _ := heq
    cases h
    exact ⟨v ++ [⟨.rightParen, offset⟩], by simp, _, by simp, .last hv⟩
  · cases h

/-- What every function of the parser returns is derived from the tokens that it has taken up. -/
theorem reads_derives :
    (∀ d w, Reads (sum d w).bare w fun t => Derives d (.chain .sum t)) ∧
      (∀ d left w, Tier.sum.Finishes d left w) ∧
      (∀ d w, Reads (product d w).bare w fun t => Derives d (.chain .product t)) ∧
      (∀ d left w, Tier.product.Finishes d left w) ∧
      (∀ d w, Reads (signed d w).bare w fun t => Derives d (.signed t)) ∧
      (∀ d w, Reads (power d w).bare w fun t => Derives d (.power t)) ∧
      (∀ d w, Reads (primary d w).bare w fun t => Derives d (.primary t)) ∧
      (∀ d w, Reads (arguments d w).bare w fun ts v =>
        ∃ u, v = u ++ [Token.rightParen] ∧ Derives d (.arguments ts) u) ∧
      (∀ d w, Reads (argumentList d w).bare w fun ts v =>
        ∃ u, v = u ++ [Token.rightParen] ∧ Derives d (.list ts) u) := by
  -- The recursion of the parser; the cases stand in the order of its definitions.
  apply sum.mutual_induct
  -- Chains of sums, and the loop over them: at the end, before another token, at an operation.
  · intro d w operand loop
    exact Tier.sum.whole_reads operand fun t rest h => by
      obtain ⟨q, rfl, rfl⟩ := Reading.bare_eq_ok h
      exact loop q
  · intro d left
    exact Tier.sum.finishes_of_eq (Tier.sum.chain_nil ..)
  · intro d left next w h
    exact Tier.sum.finishes_of_eq (Tier.sum.chain_of_none h ..)
  · intro d left next w o ho operand loop
    exact Tier.sum.finishes_of_some ho operand fun k r rest h => by
      obtain ⟨q, rfl, rfl⟩ := Reading.bare_eq_ok h
      exact loop k q
  -- Chains of products in the same way.
  · intro d w operand loop
    exact Tier.product.whole_reads operand fun t rest h => by
      obtain ⟨q, rfl, rfl⟩ := Reading.bare_eq_ok h
      exact loop q
  · intro d left
    exact Tier.product.finishes_of_eq (Tier.product.chain_nil ..)
  · intro d left next w h
    exact Tier.product.finishes_of_eq (Tier.product.chain_of_none h ..)
  · intro d left next w o ho operand loop
    exact Tier.product.finishes_of_some ho operand fun k r rest h => by
      obtain ⟨q, rfl, rfl⟩ := Reading.bare_eq_ok h
      exact loop k q
  -- Signed powers, with a minus sign and without one.
  · intro d offset w operand
    exact signed_minus_reads operand
  · intro d w h unsigned t rest ht
    rw [signed_of_not_minus h] at ht
    obtain ⟨v, rfl, hv⟩ := unsigned t rest ht
    exact ⟨v, rfl, .unsigned hv⟩
  -- Powers.
  · intro d w base exponent
    refine power_reads base fun t offset rest h => ?_
    obtain ⟨q, -, hq⟩ := Reading.bare_eq_ok h
    exact exponent q offset rest hq
  -- Primary expressions: a number, a call, a name, parentheses, and what begins none of them.
  · intro d x offset w t rest h
    rw [primary_number] at h
    cases h
    exact ⟨[_], rfl, .number x⟩
  · intro d s offset offset' w list
    exact primary_call_reads list
  · intro d s offset w hw t rest h
    rw [primary_name hw] at h
    cases h
    exact ⟨[_], rfl, .name s⟩
  · intro d offset w inner
    exact primary_leftParen_reads inner
  · intro d w hnumber hcall hname hparen t rest h
    rw [primary_of_not_begins] at h
    · cases h
    · rintro ⟨token, offset⟩ others rfl hb
      cases token with
      | number x => exact hnumber x offset others rfl
      | name s => exact hname s offset others rfl
      | leftParen => exact hparen offset others rfl
      | _ => exact hb
  -- Arguments: none, some, and the list of these.
  · intro d offset w ts rest h
    rw [arguments_rightParen] at h
    cases h
    exact ⟨[_], rfl, [], rfl, .none⟩
  · intro d w h list ts rest hts
    rw [arguments_of_not_rightParen h] at hts
    obtain ⟨v, rfl, u, hv, hu⟩ := list ts rest hts
    exact ⟨v, rfl, u, hv, .some hu⟩
  · intro d w first others
    refine argumentList_reads first fun t offset rest h => ?_
    obtain ⟨q, -, hq⟩ := Reading.bare_eq_ok h
    exact others q offset rest hq

/-! ## What is derived is read -/

/-- How loosely a token joins what stands before it with what follows; 4 if it does not. -/
def looseness : Token → Nat
  | .leftParen => 0
  | .caret => 1
  | .star | .slash => 2
  | .plus | .minus => 3
  | _ => 4

/-- No lexeme follows, or one that joins more loosely than `n`. -/
def Stops (n : Nat) (rest : List Lexeme) : Prop :=
  ∀ next others, rest = next :: others → n < looseness next.token

/-- Where the lexemes end nothing goes on. -/
theorem stops_nil (n : Nat) : Stops n [] := nofun

/-- What a lexeme is decides whether it goes on. -/
theorem stops_cons {n : Nat} {next : Lexeme} (h : n < looseness next.token) (rest : List Lexeme) :
    Stops n (next :: rest) := by
  rintro _ _ ⟨rfl, rfl⟩
  exact h

/-- What stops loose joins stops tight ones. -/
theorem Stops.mono {m n : Nat} (h : Stops n rest) (hmn : m ≤ n) : Stops m rest :=
  fun next others hrest => Nat.lt_of_le_of_lt hmn (h next others hrest)

/-- How loosely the operations of a tier join. -/
def Tier.looseness : Tier → Nat
  | .sum => 3
  | .product => 2

/-- The tokens of a tier join as loosely as the tier says. -/
theorem Tier.Joins.looseness_eq {tier : Tier} {token : Token} {o : Operation}
    (h : tier.Joins token o) : Expr.looseness token = tier.looseness := by
  cases h <;> rfl

/-- A chain ends before what joins more loosely. -/
theorem Tier.chain_of_stops (tier : Tier) (h : Stops tier.looseness rest) (d : Nat) (t : Expr) :
    tier.chain d t rest = .ok (t, rest) := by
  cases rest with
  | nil => exact tier.chain_nil d t
  | cons next others =>
    apply tier.chain_of_none
    cases ho : tier.operation? next.token with
    | none => rfl
    | some o =>
      -- An operation of the tier would have to be looser than itself.
      have hlt := h next others rfl
      rw [(Tier.operation?_eq_some.1 ho).looseness_eq] at hlt
      exact absurd hlt (Nat.lt_irrefl _)

/-- The function for a phrase takes up just the lexemes `v` of those that it is given, where what
follows cannot go on with the phrase. After the links of a chain it stands where the loop over the
chain goes on. -/
def Phrase.Accepted : Phrase → Nat → List Lexeme → Prop
  | .chain tier t, d, v => ∀ rest, Stops tier.looseness rest →
    tier.whole d (v ++ rest) = .ok (t, rest)
  | .links tier m t, d, v => ∀ rest, Stops (tier.looseness - 1) rest →
    tier.whole d (v ++ rest) = tier.chain (d + m) t rest
  | .signed t, d, v => ∀ rest, Stops 1 rest → (Expr.signed d (v ++ rest)).bare = .ok (t, rest)
  | .power t, d, v => ∀ rest, Stops 1 rest → (Expr.power d (v ++ rest)).bare = .ok (t, rest)
  | .primary t, d, v => ∀ rest, Stops 0 rest → (Expr.primary d (v ++ rest)).bare = .ok (t, rest)
  | .arguments ts, d, v => ∀ offset rest,
    (Expr.arguments d (v ++ ⟨.rightParen, offset⟩ :: rest)).bare = .ok (ts, rest)
  | .list ts, d, v => ∀ offset rest,
    (argumentList d (v ++ ⟨.rightParen, offset⟩ :: rest)).bare = .ok (ts, rest)

/-- An accepted operand of a tier is what the tier reads as an operand. -/
theorem Phrase.Accepted.operand {tier : Tier} {v : List Lexeme}
    (h : (Phrase.operand tier t).Accepted d v) (hrest : Stops (tier.looseness - 1) rest) :
    tier.operand d (v ++ rest) = .ok (t, rest) := by
  cases tier with
  | sum => exact h rest hrest
  | product => exact h rest hrest

/-- After an operation of its tier the loop over a chain takes up the operand and goes on. -/
theorem Tier.chain_link (tier : Tier) {next : Lexeme} {o : Operation} {v : List Lexeme} {r : Expr}
    (hj : tier.Joins next.token o) (hle : d + 1 ≤ maxDepth)
    (hr : (Phrase.operand tier r).Accepted (d + 1) v) (hrest : Stops (tier.looseness - 1) rest) :
    tier.chain d t (next :: v ++ rest) = tier.chain (d + 1) (.binary o t r) rest := by
  rw [List.cons_append, tier.chain_of_some (Tier.operation?_eq_some.2 hj), descend_of_lt hle,
    ok_bind, hr.operand hrest, ok_bind]

/-- An operation goes over an accepted chain and an accepted operand. -/
theorem accepted_link {tier : Tier} {m : Nat} {l r : Expr} {next : Lexeme} {o : Operation}
    {u v : List Lexeme} (hl : (Phrase.links tier m l).Accepted d u) (hj : tier.Joins next.token o)
    (hle : d + m + 1 ≤ maxDepth) (hr : (Phrase.operand tier r).Accepted (d + m + 1) v) :
    (Phrase.links tier (m + 1) (.binary o l r)).Accepted d (u ++ next :: v) := by
  intro rest hrest
  -- The operation itself ends everything tighter before it.
  have hnext : Stops (tier.looseness - 1) (next :: (v ++ rest)) := by
    apply stops_cons
    rw [hj.looseness_eq]
    cases tier <;> decide
  rw [List.append_assoc, List.cons_append, hl _ hnext, ← List.cons_append,
    tier.chain_link hj hle hr hrest]
  rfl

/-- A minus sign goes before an accepted signed power. -/
theorem accepted_minus {offset : Nat} {v : List Lexeme} (hle : d + 1 ≤ maxDepth)
    (h : (Phrase.signed t).Accepted (d + 1) v) :
    (Phrase.signed (.negate t)).Accepted d (⟨.minus, offset⟩ :: v) := by
  intro rest hrest
  rw [List.cons_append, signed_minus, descend_of_lt hle, ok_bind, h rest hrest, ok_bind]

/-- A base that is accepted is accepted as a power. -/
theorem accepted_base {v : List Lexeme} (h : (Phrase.primary t).Accepted d v) :
    (Phrase.power t).Accepted d v := by
  intro rest hrest
  rw [power_eq, h rest (hrest.mono (by decide)), ok_bind, raised_of_not_caret]
  rintro offset others rfl
  have hlt := hrest _ _ rfl
  contradiction

/-- An exponent goes with an accepted base. -/
theorem accepted_raised {b : Expr} {offset : Nat} {u v : List Lexeme}
    (hb : (Phrase.primary b).Accepted d u) (hle : d + 1 ≤ maxDepth)
    (ht : (Phrase.signed t).Accepted (d + 1) v) :
    (Phrase.power (.binary .pow b t)).Accepted d (u ++ ⟨.caret, offset⟩ :: v) := by
  intro rest hrest
  -- A caret goes on with a power, but not with its base.
  have hcaret : Stops 0 (⟨.caret, offset⟩ :: (v ++ rest)) := stops_cons Nat.one_pos _
  rw [List.append_assoc, List.cons_append, power_eq, hb _ hcaret, ok_bind, raised_caret,
    descend_of_lt hle, ok_bind, ht rest hrest, ok_bind]

/-- Arguments go between the parentheses of a call. -/
theorem accepted_call {s : String} {offset offset' offset'' : Nat} {ts : List Expr}
    {v : List Lexeme} (hle : d + 1 ≤ maxDepth) (h : (Phrase.arguments ts).Accepted (d + 1) v) :
    (Phrase.primary (.call s ts)).Accepted d
      (⟨.name s, offset⟩ :: ⟨.leftParen, offset'⟩ :: (v ++ [⟨.rightParen, offset''⟩])) := by
  intro rest _
  rw [List.cons_append, List.cons_append, List.append_assoc, List.singleton_append, primary_call,
    descend_of_lt hle, ok_bind, h, ok_bind]

/-- A chain of sums goes between parentheses. -/
theorem accepted_parens {offset offset' : Nat} {v : List Lexeme} (hle : d + 1 ≤ maxDepth)
    (h : (Phrase.chain .sum t).Accepted (d + 1) v) :
    (Phrase.primary t).Accepted d (⟨.leftParen, offset⟩ :: (v ++ [⟨.rightParen, offset'⟩])) := by
  intro rest _
  -- What stands inside ends at the parenthesis, whatever follows that.
  have hparen : Stops 3 (⟨.rightParen, offset'⟩ :: rest) := stops_cons (by simp [looseness]) rest
  have hsum : (sum (d + 1) (v ++ ⟨.rightParen, offset'⟩ :: rest)).bare = _ := h _ hparen
  rw [List.cons_append, List.append_assoc, List.singleton_append, primary_leftParen,
    descend_of_lt hle, ok_bind, hsum, ok_bind, closed_rightParen]

/-- A lexeme with the first token comes first. -/
theorem map_token_eq_cons {v : List Lexeme} {token : Token} {w : List Token}
    (h : v.map Lexeme.token = token :: w) :
    ∃ offset u, v = ⟨token, offset⟩ :: u ∧ u.map Lexeme.token = w := by
  obtain ⟨⟨_, offset⟩, u, rfl, rfl, hu⟩ := List.map_eq_cons_iff.1 h
  exact ⟨offset, u, rfl, hu⟩

/-- A single token is that of a single lexeme. -/
theorem map_token_eq_singleton {v : List Lexeme} {token : Token}
    (h : v.map Lexeme.token = [token]) : ∃ offset, v = [⟨token, offset⟩] := by
  obtain ⟨offset, u, rfl, hu⟩ := map_token_eq_cons h
  obtain rfl := List.map_eq_nil_iff.1 hu
  exact ⟨offset, rfl⟩

/-- What is derived from a phrase is accepted by the function for the phrase. -/
theorem Derives.accepted {p : Phrase} {w : List Token} (h : Derives d p w) :
    ∀ v : List Lexeme, v.map Lexeme.token = w → p.Accepted d v := by
  induction h with
  | @chain d tier m t w _ ih =>
    intro v hv rest hrest
    rw [ih v hv rest (hrest.mono (Nat.sub_le ..)), tier.chain_of_stops hrest]
  | @first d tier t w _ ih =>
    intro v hv rest hrest
    rw [tier.whole_eq, (ih v hv).operand hrest, ok_bind]
    rfl
  | link _ hj hle _ ihl ihr =>
    intro v hv
    obtain ⟨u, _, rfl, hu, htail⟩ := List.map_eq_append_iff.1 hv
    obtain ⟨offset, v, rfl, hr⟩ := map_token_eq_cons htail
    exact accepted_link (ihl u hu) hj hle (ihr v hr)
  | minus hle _ ih =>
    intro v hv
    obtain ⟨offset, u, rfl, hu⟩ := map_token_eq_cons hv
    exact accepted_minus hle (ih u hu)
  | unsigned hp ih =>
    intro v hv rest hrest
    -- A power does not begin with a minus sign, so that the parser does not look for one.
    obtain ⟨token, tokens, rfl, hbegin⟩ := hp.power_head
    rw [signed_of_not_minus, ih v hv rest hrest]
    obtain ⟨offset, v, rfl, -⟩ := map_token_eq_cons hv
    rintro offset others heq
    obtain rfl : token = .minus := congrArg Lexeme.token (List.cons.inj heq).1
    exact hbegin
  | base _ ih =>
    intro v hv
    exact accepted_base (ih v hv)
  | raised _ hle _ ihb iht =>
    intro v hv
    obtain ⟨u, _, rfl, hu, htail⟩ := List.map_eq_append_iff.1 hv
    obtain ⟨offset, v, rfl, ht⟩ := map_token_eq_cons htail
    exact accepted_raised (ihb u hu) hle (iht v ht)
  | number x =>
    intro v hv rest _
    obtain ⟨offset, rfl⟩ := map_token_eq_singleton hv
    exact primary_number ..
  | name s =>
    intro v hv rest hrest
    obtain ⟨offset, rfl⟩ := map_token_eq_singleton hv
    -- A parenthesis after the name would make it a call, but the name stops before what follows.
    apply primary_name
    rintro offset others rfl
    exact absurd (hrest _ _ rfl) (Nat.lt_irrefl 0)
  | call s hle _ ih =>
    intro v hv
    obtain ⟨offset, _, rfl, hparen⟩ := map_token_eq_cons hv
    obtain ⟨offset', _, rfl, htail⟩ := map_token_eq_cons hparen
    obtain ⟨u, _, rfl, hu, hclose⟩ := List.map_eq_append_iff.1 htail
    obtain ⟨offset'', rfl⟩ := map_token_eq_singleton hclose
    exact accepted_call hle (ih u hu)
  | parens hle _ ih =>
    intro v hv
    obtain ⟨offset, _, rfl, htail⟩ := map_token_eq_cons hv
    obtain ⟨u, _, rfl, hu, hclose⟩ := List.map_eq_append_iff.1 htail
    obtain ⟨offset', rfl⟩ := map_token_eq_singleton hclose
    exact accepted_parens hle (ih u hu)
  | none =>
    intro v hv offset rest
    obtain rfl := List.map_eq_nil_iff.1 hv
    exact arguments_rightParen ..
  | some hlist ih =>
    intro v hv offset rest
    -- A list does not begin with the parenthesis that closes the call.
    obtain ⟨token, tokens, rfl, hbegin⟩ := hlist.head (by simp)
    rw [arguments_of_not_rightParen, ih v hv]
    obtain ⟨offset', v, rfl, -⟩ := map_token_eq_cons hv
    rintro offset others heq
    obtain rfl : token = .rightParen := congrArg Lexeme.token (List.cons.inj heq).1
    rcases hbegin with hbegin | hbegin
    · cases hbegin
    · exact hbegin
  | last _ ih =>
    intro v hv offset rest
    have hparen : Stops 3 (⟨.rightParen, offset⟩ :: rest) := stops_cons (by simp [looseness]) rest
    have hsum : (sum _ (v ++ ⟨.rightParen, offset⟩ :: rest)).bare = _ := ih v hv _ hparen
    rw [argumentList_eq, hsum, ok_bind, listed_rightParen]
  | more _ _ iht ihts =>
    intro v hv offset rest
    obtain ⟨u, _, rfl, hu, htail⟩ := List.map_eq_append_iff.1 hv
    obtain ⟨offset', v, rfl, hmore⟩ := map_token_eq_cons htail
    -- The first argument ends at the comma.
    have hcomma : Stops 3 (⟨.comma, offset'⟩ :: (v ++ ⟨.rightParen, offset⟩ :: rest)) :=
      stops_cons (by simp [looseness]) _
    have hsum : (sum _ (u ++ ⟨.comma, offset'⟩ :: (v ++ ⟨.rightParen, offset⟩ :: rest))).bare = _ :=
      iht u hu _ hcomma
    rw [List.append_assoc, List.cons_append, argumentList_eq, hsum, ok_bind, listed_comma,
      ihts v hmore, ok_bind]

/-! ## Whole expressions -/

/-- A chain of sums takes up all lexemes exactly if it is derived from their tokens. -/
theorem sum_eq_ok_nil_iff (d : Nat) (v : List Lexeme) (t : Expr) :
    (sum d v).bare = .ok (t, []) ↔ Derives d (.chain .sum t) (v.map Lexeme.token) := by
  constructor
  · intro h
    -- Nothing is left over, so that all of `v` has been taken up.
    obtain ⟨u, hu, ht⟩ := reads_derives.1 d v t [] h
    rw [hu, List.append_nil]
    exact ht
  · intro h
    have hsum : (sum d (v ++ [])).bare = _ := h.accepted v rfl [] (stops_nil _)
    rwa [List.append_nil] at hsum

/-- The tree of a list of lexemes is the one that the tokens before the end are derived from. -/
theorem ofLexemes_eq_ok {s : List Lexeme} {t : Expr} :
    ofLexemes s = .ok t ↔ Derives 0 (.chain .sum t) ((beforeEnd s).map Lexeme.token) := by
  rw [← sum_eq_ok_nil_iff, ofLexemes_eq, bind_eq_ok]
  constructor
  · rintro ⟨⟨u, rest⟩, hsum, h⟩
    split at h
    · rename_i hrest
      obtain rfl : rest = [] := hrest
      cases h
      exact hsum
    · cases h
  · intro h
    exact ⟨_, h, rfl⟩

/-- Lexemes without an end are all before it. -/
theorem beforeEnd_eq_self {s : List Lexeme} (h : Token.endOfInput ∉ s.map Lexeme.token) :
    beforeEnd s = s := by
  rw [beforeEnd, List.takeWhile_eq_self_iff]
  intro next hnext
  simp only [decide_eq_true_eq, ne_eq]
  rintro hend
  exact h (hend ▸ List.mem_map_of_mem hnext)

/-- A word that is derived is parsed, wherever its tokens stand in a text. -/
theorem Derives.ofLexemes {t : Expr} {w : List Token} (h : Derives 0 (.chain .sum t) w) :
    ofLexemes (w.map (Lexeme.mk · 0)) = .ok t := by
  rw [ofLexemes_eq_ok, beforeEnd_eq_self]
  · simpa [Function.comp_def] using h
  · simpa [Function.comp_def] using h.endOfInput_notMem

/-- No word of tokens has two trees. -/
theorem Derives.unique {t u : Expr} {w : List Token} (ht : Derives 0 (.chain .sum t) w)
    (hu : Derives 0 (.chain .sum u) w) : t = u :=
  Except.ok.inj (ht.ofLexemes.symm.trans hu.ofLexemes)

/-- A list of lexemes has a tree if and only if the grammar derives the tokens before the first end
from a sum with this tree, and the grammar has at most one tree for any word. -/
theorem ofLexemes_eq_ok_iff_derives (s : List Lexeme) (t : Expr) :
    (ofLexemes s = .ok t ↔
        Derives 0 (.chain .sum t) ((s.map Lexeme.token).takeWhile (· ≠ .endOfInput))) ∧
      ∀ w t₁ t₂, Derives 0 (.chain .sum t₁) w → Derives 0 (.chain .sum t₂) w → t₁ = t₂ := by
  refine ⟨?_, fun w t₁ t₂ h₁ h₂ => h₁.unique h₂⟩
  rw [ofLexemes_eq_ok, beforeEnd, List.takeWhile_map]
  rfl

end Calculator.Expr
