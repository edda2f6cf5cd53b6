import Calculator.Expr.Parser

/-!
# The grammar of expressions

The grammar that `Expr/Parser.lean` reads, as a relation between phrases and words of tokens that
does not mention the parser. A derivation carries the depth at which its phrase stands. The operand
after the `i`-th operation of a chain stands `i` levels below the chain, and a minus sign, an
exponent, a call and a parenthesis put what they contain one level deeper. No phrase stands deeper
than `maxDepth`.
-/

namespace Calculator.Expr

/-- The tiers of operations that group to the left. -/
inductive Tier where
  /-- Addition and subtraction, whose operands are products. -/
  | sum
  /-- Multiplication and division, whose operands are signed powers. -/
  | product

/-- The tokens that join the operands of a tier, and the operations that they stand for. -/
inductive Tier.Joins : Tier → Token → Operation → Prop where
  | plus : Joins .sum .plus .add
  | minus : Joins .sum .minus .sub
  | star : Joins .product .star .mul
  | slash : Joins .product .slash .div

/-- What a word of tokens may be derived from, with the tree that it stands for. -/
inductive Phrase where
  /-- A chain of operands of a tier. -/
  | chain (tier : Tier) (tree : Expr)
  /-- A chain with so many operations. -/
  | links (tier : Tier) (count : Nat) (tree : Expr)
  /-- A power after any number of minus signs. -/
  | signed (tree : Expr)
  /-- A primary expression, perhaps with an exponent. -/
  | power (tree : Expr)
  /-- A number, a name, a call or an expression in parentheses. -/
  | primary (tree : Expr)
  /-- What stands between the parentheses of a call. -/
  | arguments (trees : List Expr)
  /-- One expression or more, with commas between them. -/
  | list (trees : List Expr)

/-- An operand of a tier. -/
def Phrase.operand : Tier → Expr → Phrase
  | .sum, t => .chain .product t
  | .product, t => .signed t

/-- The words of tokens that a phrase has at a depth. -/
inductive Derives : Nat → Phrase → List Token → Prop where
  /-- A chain has any number of operations. -/
  | chain {d tier m t w} : Derives d (.links tier m t) w → Derives d (.chain tier t) w
  /-- The first operand of a chain stands at the depth of the chain. -/
  | first {d tier t w} : Derives d (.operand tier t) w → Derives d (.links tier 0 t) w
  /-- One more operation goes over all that stands before it, one level deeper than the last. -/
  | link {d tier m l r o op v w} : Derives d (.links tier m l) v → tier.Joins op o →
      d + m + 1 ≤ maxDepth → Derives (d + m + 1) (.operand tier r) w →
      Derives d (.links tier (m + 1) (.binary o l r)) (v ++ op :: w)
  /-- A minus sign is looser than a power. -/
  | minus {d t w} : d + 1 ≤ maxDepth → Derives (d + 1) (.signed t) w →
      Derives d (.signed (.negate t)) (.minus :: w)
  /-- A power needs no sign. -/
  | unsigned {d t w} : Derives d (.power t) w → Derives d (.signed t) w
  /-- A base needs no exponent. -/
  | base {d t w} : Derives d (.primary t) w → Derives d (.power t) w
  /-- An exponent may have signs and an exponent of its own. -/
  | raised {d b t v w} : Derives d (.primary b) v → d + 1 ≤ maxDepth →
      Derives (d + 1) (.signed t) w → Derives d (.power (.binary .pow b t)) (v ++ .caret :: w)
  /-- A number. -/
  | number {d} (x : Binary64) : Derives d (.primary (.literal x)) [.number x]
  /-- A name by itself. -/
  | name {d} (s : String) : Derives d (.primary (.name s)) [.name s]
  /-- A call takes a level, also without arguments. -/
  | call {d ts w} (s : String) : d + 1 ≤ maxDepth → Derives (d + 1) (.arguments ts) w →
      Derives d (.primary (.call s ts)) (.name s :: .leftParen :: (w ++ [.rightParen]))
  /-- Parentheses take a level and leave no trace in the tree. -/
  | parens {d t w} : d + 1 ≤ maxDepth → Derives (d + 1) (.chain .sum t) w →
      Derives d (.primary t) (.leftParen :: (w ++ [.rightParen]))
  /-- A call may have no arguments. -/
  | none {d} : Derives d (.arguments []) []
  /-- It may have some. -/
  | some {d ts w} : Derives d (.list ts) w → Derives d (.arguments ts) w
  /-- The last argument. -/
  | last {d t w} : Derives d (.chain .sum t) w → Derives d (.list [t]) w
  /-- An argument before others. -/
  | more {d t ts v w} : Derives d (.chain .sum t) v → Derives d (.list ts) w →
      Derives d (.list (t :: ts)) (v ++ .comma :: w)

/-- The tokens with which a primary expression begins. -/
def BeginsPrimary : Token → Prop
  | .number _ | .name _ | .leftParen => True
  | _ => False

/-- A power begins as a primary expression does. -/
theorem Derives.power_head {d : Nat} {t : Expr} {w : List Token} (h : Derives d (.power t) w) :
    ∃ next rest, w = next :: rest ∧ BeginsPrimary next := by
  have primary : ∀ {t w}, Derives d (.primary t) w →
      ∃ next rest, w = next :: rest ∧ BeginsPrimary next := by
    intro t w h
    cases h with
    | number x => exact ⟨_, _, rfl, trivial⟩
    | name s => exact ⟨_, _, rfl, trivial⟩
    | call s _ _ => exact ⟨_, _, rfl, trivial⟩
    | parens _ _ => exact ⟨_, _, rfl, trivial⟩
  cases h with
  | base h => exact primary h
  | raised h _ _ =>
    obtain ⟨next, rest, rfl, hn⟩ := primary h
    exact ⟨next, _, rfl, hn⟩

/-- Apart from the arguments of a call, no phrase is empty, and it begins with a minus sign or as a
primary expression does. -/
theorem Derives.head {d : Nat} {p : Phrase} {w : List Token} (h : Derives d p w)
    (hp : ∀ ts, p ≠ .arguments ts) :
    ∃ next rest, w = next :: rest ∧ (next = .minus ∨ BeginsPrimary next) := by
  induction h with
  | chain _ ih => exact ih (by simp)
  | @first d tier t w _ ih => exact ih (by cases tier <;> simp [Phrase.operand])
  | link _ _ _ _ ih _ =>
    obtain ⟨next, rest, rfl, hn⟩ := ih (by simp)
    exact ⟨next, _, rfl, hn⟩
  | minus _ _ _ => exact ⟨_, _, rfl, .inl rfl⟩
  | unsigned _ ih => exact ih (by simp)
  | base _ ih => exact ih (by simp)
  | raised _ _ _ ih _ =>
    obtain ⟨next, rest, rfl, hn⟩ := ih (by simp)
    exact ⟨next, _, rfl, hn⟩
  | number x => exact ⟨_, _, rfl, .inr trivial⟩
  | name s => exact ⟨_, _, rfl, .inr trivial⟩
  | call s _ _ _ => exact ⟨_, _, rfl, .inr trivial⟩
  | parens _ _ _ => exact ⟨_, _, rfl, .inr trivial⟩
  | none => exact absurd rfl (hp [])
  | @some d ts w _ _ => exact absurd rfl (hp ts)
  | last _ ih => exact ih (by simp)
  | more _ _ ih _ =>
    obtain ⟨next, rest, rfl, hn⟩ := ih (by simp)
    exact ⟨next, _, rfl, hn⟩

/-- No phrase holds the token of the end. -/
theorem Derives.endOfInput_notMem {d : Nat} {p : Phrase} {w : List Token} (h : Derives d p w) :
    Token.endOfInput ∉ w := by
  induction h with
  | link _ hj _ _ ih ih' => cases hj <;> simp [ih, ih']
  | _ => simp_all

end Calculator.Expr
