import Calculator.Proofs.Except
import Calculator.Proofs.Parser.Grammar

/-!
# What the parsing functions return

Every function of `Expr/Parser.lean` returns what it has read and the lexemes that follow, with a
bound on their number on which its recursion rests. `Reading.bare` leaves the bound out. Each
function then has one equation, in the bare results of the functions that it calls, and the proofs
about the parser rest on these equations and never unfold the functions.

Chains are read by the same rule on both tiers: `Tier.whole` reads an operand and then `Tier.chain`,
which goes on as long as an operation of the tier follows.
-/

namespace Calculator.Expr

/-- A reading without the bound on the number of lexemes that follow. -/
def Reading.bare {α : Type} {n : Nat} (r : Reading α n) : Except Failure (α × List Lexeme) :=
  r.map fun p => (p.value, p.rest)

variable {α β : Type} {n : Nat} {d : Nat} {w rest : List Lexeme} {t : Expr}

/-- A successful bare result comes from a reading with the same value and the same rest. -/
theorem Reading.bare_eq_ok {r : Reading α n} {p : α × List Lexeme} (h : r.bare = .ok p) :
    ∃ q : Parsed Lexeme α n, q.value = p.1 ∧ q.rest = p.2 := by
  cases r with
  | error e => cases h
  | ok q =>
    cases h
    exact ⟨q, rfl, rfl⟩

/-- A level that is not the last one has a deeper one. -/
theorem descend_of_lt (h : d + 1 ≤ maxDepth) : descend d = .ok (d + 1) := by
  unfold descend
  rw [if_pos (by omega)]

/-- The last level has no deeper one. -/
theorem descend_of_ge (h : maxDepth ≤ d) :
    descend d = .error (.invalid .nestedTooDeeply) := by
  unfold descend
  rw [if_neg (by omega)]

/-- A computation succeeds one level deeper if there is such a level and it succeeds there. -/
theorem descend_bind_eq_ok {f : Nat → Except Failure β} {b : β} :
    (descend d >>= f) = .ok b ↔ d + 1 ≤ maxDepth ∧ f (d + 1) = .ok b := by
  by_cases h : d + 1 ≤ maxDepth
  · rw [descend_of_lt h, ok_bind]
    exact ⟨fun hf => ⟨h, hf⟩, fun hf => hf.2⟩
  · rw [descend_of_ge (by omega), error_bind]
    exact ⟨nofun, fun hf => absurd hf.1 h⟩

/-! ## Chains -/

namespace Tier

/-- The operation of the tier that a token stands for. -/
def operation? : Tier → Token → Option Operation
  | sum => sumOperation?
  | product => productOperation?

/-- An operation is looked up where its token joins the operands of the tier. -/
theorem operation?_eq_some {tier : Tier} {token : Token} {o : Operation} :
    tier.operation? token = some o ↔ tier.Joins token o := by
  constructor
  · intro h
    cases tier <;> cases token <;> cases h <;> constructor
  · rintro (_ | _ | _ | _) <;> rfl

/-- Reads an operand of the tier. -/
def operand : Tier → Nat → List Lexeme → Except Failure (Expr × List Lexeme)
  | sum, d, w => (Expr.product d w).bare
  | product, d, w => (signed d w).bare

/-- Reads the rest of a chain of the tier. -/
def chain : Tier → Nat → Expr → List Lexeme → Except Failure (Expr × List Lexeme)
  | sum, d, t, w => (sumChain d t w).bare
  | product, d, t, w => (productChain d t w).bare

/-- Reads a chain of the tier. -/
def whole : Tier → Nat → List Lexeme → Except Failure (Expr × List Lexeme)
  | sum, d, w => (Expr.sum d w).bare
  | product, d, w => (Expr.product d w).bare

/-- A chain begins with an operand. -/
theorem whole_eq (tier : Tier) (d : Nat) (w : List Lexeme) :
    tier.whole d w = tier.operand d w >>= fun p => tier.chain d p.1 p.2 := by
  cases tier with
  | sum =>
    simp only [whole, operand, chain]
    rw [Expr.sum]
    cases Expr.product d w with
    | error e => rfl
    | ok p =>
      change Reading.bare (sumChain d p.value p.rest >>= _) = (sumChain d p.value p.rest).bare
      cases sumChain d p.value p.rest <;> rfl
  | product =>
    simp only [whole, operand, chain]
    rw [Expr.product]
    cases signed d w with
    | error e => rfl
    | ok p =>
      change Reading.bare (productChain d p.value p.rest >>= _) =
        (productChain d p.value p.rest).bare
      cases productChain d p.value p.rest <;> rfl

/-- A chain ends with the lexemes. -/
@[simp] theorem chain_nil (tier : Tier) (d : Nat) (t : Expr) : tier.chain d t [] = .ok (t, []) := by
  cases tier with
  | sum => simp only [chain]; rw [sumChain]; rfl
  | product => simp only [chain]; rw [productChain]; rfl

/-- A chain ends before a lexeme that is no operation of its tier. -/
theorem chain_of_none (tier : Tier) {next : Lexeme} (h : tier.operation? next.token = none)
    (d : Nat) (t : Expr) (w : List Lexeme) :
    tier.chain d t (next :: w) = .ok (t, next :: w) := by
  cases tier with
  | sum =>
    simp only [chain, operation?] at h ⊢
    rw [sumChain]
    simp only [h]
    rfl
  | product =>
    simp only [chain, operation?] at h ⊢
    rw [productChain]
    simp only [h]
    rfl

/-- A chain goes on, one level deeper, after an operation of its tier and an operand. -/
theorem chain_of_some (tier : Tier) {next : Lexeme} {o : Operation}
    (h : tier.operation? next.token = some o) (d : Nat) (t : Expr) (w : List Lexeme) :
    tier.chain d t (next :: w) = descend d >>= fun k => tier.operand k w >>= fun p =>
      tier.chain k (.binary o t p.1) p.2 := by
  cases tier with
  | sum =>
    simp only [chain, operand, operation?] at h ⊢
    rw [sumChain]
    simp only [h]
    cases descend d with
    | error e => rfl
    | ok k =>
      simp only [ok_bind]
      cases Expr.product k w with
      | error e => rfl
      | ok p =>
        change Reading.bare (sumChain k (.binary o t p.value) p.rest >>= _) =
          (sumChain k (.binary o t p.value) p.rest).bare
        cases sumChain k (.binary o t p.value) p.rest <;> rfl
  | product =>
    simp only [chain, operand, operation?] at h ⊢
    rw [productChain]
    simp only [h]
    cases descend d with
    | error e => rfl
    | ok k =>
      simp only [ok_bind]
      cases signed k w with
      | error e => rfl
      | ok p =>
        change Reading.bare (productChain k (.binary o t p.value) p.rest >>= _) =
          (productChain k (.binary o t p.value) p.rest).bare
        cases productChain k (.binary o t p.value) p.rest <;> rfl

end Tier

/-! ## Signed powers -/

/-- A minus sign takes one level and negates what follows. -/
theorem signed_minus (d offset : Nat) (w : List Lexeme) :
    (signed d (⟨.minus, offset⟩ :: w)).bare = descend d >>= fun k => (signed k w).bare >>= fun p =>
      .ok (.negate p.1, p.2) := by
  rw [signed]
  cases descend d with
  | error e => rfl
  | ok k =>
    simp only [ok_bind]
    cases signed k w <;> rfl

/-- Without a minus sign a signed power is a power. -/
theorem signed_of_not_minus (h : ∀ offset rest, w ≠ ⟨.minus, offset⟩ :: rest) (d : Nat) :
    (signed d w).bare = (power d w).bare := by
  rw [signed]
  · exact h

/-- What a power does after its base: a caret takes one level and an exponent follows. -/
def raised (d : Nat) (base : Expr × List Lexeme) : Except Failure (Expr × List Lexeme) :=
  match base.2 with
  | ⟨.caret, _⟩ :: rest => descend d >>= fun k => (signed k rest).bare >>= fun p =>
    .ok (.binary .pow base.1 p.1, p.2)
  | _ => .ok base

/-- After a caret the exponent is read. -/
theorem raised_caret (d offset : Nat) (b : Expr) (w : List Lexeme) :
    raised d (b, ⟨.caret, offset⟩ :: w) = descend d >>= fun k => (signed k w).bare >>= fun p =>
      .ok (.binary .pow b p.1, p.2) := rfl

/-- Without a caret the base is the power. -/
theorem raised_of_not_caret (h : ∀ offset rest, w ≠ ⟨.caret, offset⟩ :: rest) (d : Nat) (b : Expr) :
    raised d (b, w) = .ok (b, w) := by
  unfold raised
  split
  · rename_i offset rest heq
    exact absurd heq (h offset rest)
  · rfl

/-- A power begins with a primary expression. -/
theorem power_eq (d : Nat) (w : List Lexeme) :
    (power d w).bare = (primary d w).bare >>= raised d := by
  rw [power]
  cases primary d w with
  | error e => rfl
  | ok p =>
    obtain ⟨t, rest, hlt⟩ := p
    cases rest with
    | nil => rfl
    | cons next rest =>
      obtain ⟨token, offset⟩ := next
      cases token with
      -- Both sides now differ in the bounds that `Reading` carries, and in nothing else.
      | caret =>
        change Reading.bare (descend d >>= _) = (descend d >>= _)
        cases descend d with
        | error e => rfl
        | ok k =>
          change Reading.bare (signed k rest >>= _) = ((signed k rest).bare >>= _)
          cases signed k rest <;> rfl
      | _ => rfl

/-! ## Primary expressions -/

/-- A number is a primary expression. -/
theorem primary_number (d offset : Nat) (x : Binary64) (w : List Lexeme) :
    (primary d (⟨.number x, offset⟩ :: w)).bare = .ok (.literal x, w) := by
  rw [primary]
  rfl

/-- A name is a primary expression where no parenthesis follows. -/
theorem primary_name (h : ∀ offset rest, w ≠ ⟨.leftParen, offset⟩ :: rest) (d offset : Nat)
    (s : String) : (primary d (⟨.name s, offset⟩ :: w)).bare = .ok (.name s, w) := by
  rw [primary]
  · rfl
  · exact h

/-- A name before a parenthesis is called, which takes one level. -/
theorem primary_call (d offset offset' : Nat) (s : String) (w : List Lexeme) :
    (primary d (⟨.name s, offset⟩ :: ⟨.leftParen, offset'⟩ :: w)).bare =
      descend d >>= fun k => (arguments k w).bare >>= fun p => .ok (.call s p.1, p.2) := by
  rw [primary]
  cases descend d with
  | error e => rfl
  | ok k =>
    simp only [ok_bind]
    cases arguments k w <;> rfl

/-- What follows an expression in parentheses: the one that closes. -/
def closed (inner : Expr × List Lexeme) : Except Failure (Expr × List Lexeme) :=
  match inner.2 with
  | ⟨.rightParen, _⟩ :: rest => .ok (inner.1, rest)
  | others => .error (unexpected others)

/-- The parenthesis that closes is taken up. -/
theorem closed_rightParen (offset : Nat) (t : Expr) (w : List Lexeme) :
    closed (t, ⟨.rightParen, offset⟩ :: w) = .ok (t, w) := rfl

/-- Nothing else is. -/
theorem closed_of_not_rightParen (h : ∀ offset rest, w ≠ ⟨.rightParen, offset⟩ :: rest)
    (t : Expr) : closed (t, w) = .error (unexpected w) := by
  unfold closed
  split
  · rename_i offset rest heq
    exact absurd heq (h offset rest)
  · rfl

/-- A parenthesis takes one level, and the one that closes it has to follow. -/
theorem primary_leftParen (d offset : Nat) (w : List Lexeme) :
    (primary d (⟨.leftParen, offset⟩ :: w)).bare =
      descend d >>= fun k => (sum k w).bare >>= closed := by
  rw [primary]
  cases descend d with
  | error e => rfl
  | ok k =>
    simp only [ok_bind]
    cases sum k w with
    | error e => rfl
    | ok p =>
      obtain ⟨t, rest, hlt⟩ := p
      cases rest with
      | nil => rfl
      | cons next rest =>
        obtain ⟨token, offset⟩ := next
        cases token <;> rfl

/-- Nothing else begins a primary expression. -/
theorem primary_of_not_begins (h : ∀ next rest, w = next :: rest → ¬ BeginsPrimary next.token)
    (d : Nat) : (primary d w).bare = .error (unexpected w) := by
  rw [primary]
  · rfl
  · rintro x offset rest rfl
    exact h _ _ rfl trivial
  · rintro s offset offset' rest rfl
    exact h _ _ rfl trivial
  · rintro s offset rest rfl
    exact h _ _ rfl trivial
  · rintro offset rest rfl
    exact h _ _ rfl trivial

/-! ## Arguments -/

/-- A parenthesis that closes at once leaves no arguments. -/
theorem arguments_rightParen (d offset : Nat) (w : List Lexeme) :
    (arguments d (⟨.rightParen, offset⟩ :: w)).bare = .ok ([], w) := by
  rw [arguments]
  rfl

/-- Without one there is a list of arguments. -/
theorem arguments_of_not_rightParen (h : ∀ offset rest, w ≠ ⟨.rightParen, offset⟩ :: rest)
    (d : Nat) : (arguments d w).bare = (argumentList d w).bare := by
  rw [arguments]
  exact h

/-- What follows an argument: a comma and more of them, or the parenthesis that closes. -/
def listed (d : Nat) (first : Expr × List Lexeme) : Except Failure (List Expr × List Lexeme) :=
  match first.2 with
  | ⟨.comma, _⟩ :: rest => (argumentList d rest).bare >>= fun p => .ok (first.1 :: p.1, p.2)
  | ⟨.rightParen, _⟩ :: rest => .ok ([first.1], rest)
  | others => .error (unexpected others)

/-- After a comma more arguments are read. -/
theorem listed_comma (d offset : Nat) (t : Expr) (w : List Lexeme) :
    listed d (t, ⟨.comma, offset⟩ :: w) = (argumentList d w).bare >>= fun p =>
      .ok (t :: p.1, p.2) := rfl

/-- The parenthesis that closes ends the arguments. -/
theorem listed_rightParen (d offset : Nat) (t : Expr) (w : List Lexeme) :
    listed d (t, ⟨.rightParen, offset⟩ :: w) = .ok ([t], w) := rfl

/-- Nothing else follows an argument. -/
theorem listed_of_not_comma (hcomma : ∀ offset rest, w ≠ ⟨.comma, offset⟩ :: rest)
    (hparen : ∀ offset rest, w ≠ ⟨.rightParen, offset⟩ :: rest) (d : Nat) (t : Expr) :
    listed d (t, w) = .error (unexpected w) := by
  unfold listed
  split
  · rename_i offset rest heq
    exact absurd heq (hcomma offset rest)
  · rename_i offset rest heq
    exact absurd heq (hparen offset rest)
  · rfl

/-- A list of arguments begins with an expression. -/
theorem argumentList_eq (d : Nat) (w : List Lexeme) :
    (argumentList d w).bare = (sum d w).bare >>= listed d := by
  rw [argumentList]
  cases sum d w with
  | error e => rfl
  | ok p =>
    obtain ⟨t, rest, hlt⟩ := p
    cases rest with
    | nil => rfl
    | cons next rest =>
      obtain ⟨token, offset⟩ := next
      cases token with
      | comma =>
        change Reading.bare (argumentList d rest >>= _) = ((argumentList d rest).bare >>= _)
        cases argumentList d rest <;> rfl
      | _ => rfl

/-! ## Whole expressions -/

/-- An expression takes up all lexemes before the end of the text. -/
theorem ofLexemes_eq (s : List Lexeme) :
    ofLexemes s = (sum 0 (beforeEnd s)).bare >>= fun p =>
      if p.2 = [] then .ok p.1 else .error (unexpected p.2) := by
  unfold ofLexemes
  cases sum 0 (beforeEnd s) with
  | error e => rfl
  | ok p =>
    obtain ⟨t, rest, hlt⟩ := p
    cases rest <;> rfl

end Calculator.Expr
