import Mathlib.Logic.Function.Iterate
import Calculator.Proofs.Parser.Exactness

/-!
# How high the trees of the parser are

The depth that the parser counts pays for every step into an operand of a minus sign, a right
operand or an argument, so that no tree has more than `maxDepth` of these on a path
(`Derives.paid_le`). It does not pay for the steps into left operands: an operation of a chain goes
over all that stands before it, and the levels which that has used up are free again. The height of
a tree, in which these steps count too, is therefore not bounded by `maxDepth`. With `n` levels left
a signed power is at most `tall n` high, and each of the two chains around it adds at most `n` more
(`Derives.heightLe`). A call with an exponent, as the first operand of a chain of products, as the
first operand of a chain of sums, makes use of all of it, and so every height up to `maxDepth *
(maxDepth + 3)` occurs. The trees that are not higher than `maxDepth` are those whose tokens can be
derived when an operation is charged to both its operands (`DerivesCharged`).
-/

namespace Calculator.Expr

variable {d n : Nat} {t : Expr} {w : List Token}

mutual

/-- The number of steps on the longest path from the root of a tree, where every negation, every
operation and every call counts. -/
def height : Expr → Nat
  | literal _ | name _ => 0
  | negate operand => height operand + 1
  | binary _ left right => max (height left) (height right) + 1
  | call _ arguments => heightAll arguments + 1

/-- The height of the highest of some trees. -/
def heightAll : List Expr → Nat
  | [] => 0
  | first :: others => max (height first) (heightAll others)

end

mutual

/-- The number of steps on a path from the root of a tree, where steps into left operands do not
count. -/
def paid : Expr → Nat
  | literal _ | name _ => 0
  | negate operand => paid operand + 1
  | binary _ left right => max (paid left) (paid right + 1)
  | call _ arguments => paidAll arguments + 1

/-- The largest number of such steps in some trees. -/
def paidAll : List Expr → Nat
  | [] => 0
  | first :: others => max (paid first) (paidAll others)

end

/-! ## What the depth pays for -/

/-- The trees of a phrase take no more than `n` paid steps. -/
def Phrase.PaidLe : Phrase → Nat → Prop
  | .chain _ t, n | .links _ _ t, n | .signed t, n | .power t, n | .primary t, n => t.paid ≤ n
  | .arguments ts, n | .list ts, n => paidAll ts ≤ n

/-- A phrase takes no more paid steps than there are levels below it. -/
theorem Derives.paid_le {p : Phrase} (h : Derives d p w) : p.PaidLe (maxDepth - d) := by
  induction h with
  | chain _ ih => exact ih
  | @first d tier t w _ ih => cases tier <;> exact ih
  | @link d tier m l r o op v w _ _ hle _ ihl ihr =>
    -- The right operand stands `m + 1` levels below the chain, which pays for the step to it.
    have hr : r.paid ≤ maxDepth - (d + m + 1) := by cases tier <;> exact ihr
    simp only [Phrase.PaidLe, paid] at ihl ⊢
    omega
  | minus hle _ ih =>
    simp only [Phrase.PaidLe, paid] at ih ⊢
    omega
  | unsigned _ ih => exact ih
  | base _ ih => exact ih
  | raised _ hle _ ihb iht =>
    simp only [Phrase.PaidLe, paid] at ihb iht ⊢
    omega
  | number x => exact Nat.zero_le _
  | name s => exact Nat.zero_le _
  | call s hle _ ih =>
    simp only [Phrase.PaidLe, paid] at ih ⊢
    omega
  | parens hle _ ih =>
    simp only [Phrase.PaidLe] at ih ⊢
    omega
  | none => exact Nat.zero_le _
  | some _ ih => exact ih
  | last _ ih =>
    simp only [Phrase.PaidLe, paidAll] at ih ⊢
    omega
  | more _ _ iht ihts =>
    simp only [Phrase.PaidLe, paidAll] at iht ihts ⊢
    omega

/-! ## The height -/

/-- The greatest height of a signed power with `n` levels below it. -/
def tall : Nat → Nat
  | 0 => 0
  | n + 1 => tall n + 2 * n + 2

/-- The closed form of `tall`. -/
theorem tall_eq (n : Nat) : tall n = n * (n + 1) := by
  induction n with
  | zero => rfl
  | succ n ih =>
    rw [tall, ih]
    simp only [Nat.mul_add, Nat.add_mul]
    omega

/-- More levels allow higher trees. -/
theorem tall_mono {m n : Nat} (h : m ≤ n) : tall m ≤ tall n := by
  induction h with
  | refl => exact Nat.le_refl _
  | step _ ih =>
    rw [tall]
    omega

/-- How many chains stand around a signed power in a chain of the tier. -/
def Tier.chains : Tier → Nat
  | .product => 1
  | .sum => 2

/-- The greatest height of an operand of a tier with `n` levels below it. -/
def Tier.operandHeight (tier : Tier) (n : Nat) : Nat :=
  tall n + (tier.chains - 1) * n

/-- The trees of a phrase are as high as `n` levels below it allow. Each link of a chain, of which
there are at most `n`, adds one to the height of the operands. -/
def Phrase.HeightLe : Phrase → Nat → Prop
  | .chain tier t, n => t.height ≤ tier.operandHeight n + n
  | .links tier m t, n => m ≤ n ∧ t.height ≤ tier.operandHeight n + m
  | .signed t, n | .power t, n => t.height ≤ tall n
  | .primary t, n => t.height ≤ tall n - 1
  | .arguments ts, n | .list ts, n => heightAll ts ≤ Tier.sum.operandHeight n + n

/-- An operand is as high as the levels above its own allow. -/
theorem Phrase.HeightLe.operand {tier : Tier} {m n : Nat}
    (h : (Phrase.operand tier t).HeightLe m) (hmn : m ≤ n) : t.height ≤ tier.operandHeight n := by
  have hmono := tall_mono hmn
  cases tier with
  | sum =>
    simp only [Phrase.operand, Phrase.HeightLe, Tier.operandHeight, Tier.chains] at h ⊢
    omega
  | product =>
    simp only [Phrase.operand, Phrase.HeightLe, Tier.operandHeight, Tier.chains] at h ⊢
    omega

/-- Below a level there is one less than below the one above it. -/
theorem levels_succ (h : d + 1 ≤ maxDepth) :
    ∃ n, maxDepth - (d + 1) = n ∧ maxDepth - d = n + 1 :=
  ⟨maxDepth - (d + 1), rfl, by omega⟩

/-- The trees of a phrase are as high as the levels below it allow. -/
theorem Derives.heightLe {p : Phrase} (h : Derives d p w) : p.HeightLe (maxDepth - d) := by
  induction h with
  | chain _ ih =>
    simp only [Phrase.HeightLe] at ih ⊢
    omega
  | first _ ih => exact ⟨Nat.zero_le _, ih.operand (Nat.le_refl _)⟩
  | @link d tier m l r o op v w _ _ hle _ ihl ihr =>
    -- The operand has fewer levels than the chain, and may not be higher than the first one.
    have hr := ihr.operand (show maxDepth - (d + m + 1) ≤ maxDepth - d by omega)
    simp only [Phrase.HeightLe, height] at ihl ⊢
    omega
  | minus hle _ ih =>
    obtain ⟨n, hn, hn'⟩ := levels_succ hle
    rw [hn] at ih
    rw [hn']
    simp only [Phrase.HeightLe, height, tall] at ih ⊢
    omega
  | unsigned _ ih => exact ih
  | base _ ih =>
    simp only [Phrase.HeightLe] at ih ⊢
    omega
  | raised _ hle _ ihb iht =>
    obtain ⟨n, hn, hn'⟩ := levels_succ hle
    rw [hn] at iht
    rw [hn'] at ihb ⊢
    simp only [Phrase.HeightLe, height, tall] at ihb iht ⊢
    omega
  | number x => exact Nat.zero_le _
  | name s => exact Nat.zero_le _
  | call s hle _ ih =>
    obtain ⟨n, hn, hn'⟩ := levels_succ hle
    rw [hn] at ih
    rw [hn']
    simp only [Phrase.HeightLe, height, tall, Tier.operandHeight, Tier.chains] at ih ⊢
    omega
  | parens hle _ ih =>
    obtain ⟨n, hn, hn'⟩ := levels_succ hle
    rw [hn] at ih
    rw [hn']
    simp only [Phrase.HeightLe, tall, Tier.operandHeight, Tier.chains] at ih ⊢
    omega
  | none => exact Nat.zero_le _
  | some _ ih => exact ih
  | last _ ih =>
    simp only [Phrase.HeightLe, heightAll] at ih ⊢
    omega
  | more _ _ iht ihts =>
    simp only [Phrase.HeightLe, heightAll] at iht ihts ⊢
    omega

/-- The height of a tree that is parsed. -/
theorem height_le_of_ofLexemes {s : List Lexeme} (h : ofLexemes s = .ok t) :
    t.height ≤ maxDepth * (maxDepth + 3) := by
  have hbound : maxDepth * (maxDepth + 3) = tall maxDepth + 2 * maxDepth := by
    rw [tall_eq]
    rfl
  have hle := (ofLexemes_eq_ok.1 h).heightLe
  simp only [Phrase.HeightLe, Tier.operandHeight, Tier.chains, Nat.sub_zero] at hle
  omega

/-! ## All heights occur -/

/-- A number is an operand of every tier. -/
theorem derives_number (d : Nat) (tier : Tier) (x : Binary64) :
    Derives d (.operand tier (.literal x)) [.number x] := by
  have signed : Derives d (.signed (.literal x)) [.number x] := .unsigned (.base (.number x))
  cases tier with
  | sum => exact .chain (.first signed)
  | product => exact signed

/-- Every tier has an operation. -/
theorem Tier.exists_joins (tier : Tier) : ∃ op o, tier.Joins op o := by
  cases tier with
  | sum => exact ⟨_, _, .plus⟩
  | product => exact ⟨_, _, .star⟩

/-- Each link of a chain makes the tree higher by one. -/
theorem exists_links {tier : Tier} (h : Derives d (.operand tier t) w) (m : Nat)
    (hm : d + m ≤ maxDepth) :
    ∃ u v, Derives d (.links tier m u) v ∧ u.height = t.height + m := by
  induction m with
  | zero => exact ⟨t, w, .first h, rfl⟩
  | succ m ih =>
    obtain ⟨u, v, hu, hheight⟩ := ih (by omega)
    obtain ⟨op, o, hj⟩ := tier.exists_joins
    refine ⟨_, _, .link hu hj hm (derives_number _ tier 1), ?_⟩
    simp only [height, Nat.max_zero]
    omega

/-- Two chains around a signed power reach `2 * n` above it. -/
theorem exists_sum_height (hd : d + n = maxDepth)
    (signed : ∀ h ≤ tall n, ∃ t w, Derives d (.signed t) w ∧ t.height = h) :
    ∀ h ≤ tall n + 2 * n, ∃ t w, Derives d (.chain .sum t) w ∧ t.height = h := by
  intro h hle
  -- What the signed power does not reach is left to the products, and then to the sums.
  obtain ⟨t, w, ht, hheight⟩ := signed (min h (tall n)) (Nat.min_le_right ..)
  have hproduct := exists_links (show Derives d (.operand .product t) w from ht)
    (min (h - tall n) n) (by omega)
  obtain ⟨t', w', ht', hheight'⟩ := hproduct
  have hsum := exists_links (show Derives d (.operand .sum t') w' from .chain ht')
    (h - tall n - n) (by omega)
  obtain ⟨t'', w'', ht'', hheight''⟩ := hsum
  exact ⟨t'', w'', .chain ht'', by omega⟩

/-- With `n` levels below it a signed power can have any height up to `tall n`: a call whose
argument is as high as the next level allows, with an exponent. -/
theorem exists_signed_height (n : Nat) : ∀ d, d + n = maxDepth → ∀ h ≤ tall n,
    ∃ t w, Derives d (.signed t) w ∧ t.height = h := by
  induction n with
  | zero =>
    intro d _ h hle
    obtain rfl := Nat.le_zero.1 hle
    exact ⟨.literal 1, _, derives_number d .product 1, rfl⟩
  | succ n ih =>
    intro d hd h hle
    match h with
    | 0 => exact ⟨.literal 1, _, derives_number d .product 1, rfl⟩
    | 1 => exact ⟨.negate (.literal 1), _, .minus (by omega) (derives_number _ .product 1), rfl⟩
    -- The call makes its argument higher by one, and the exponent makes the call so.
    | h + 2 =>
      have hle' : h ≤ tall n + 2 * n := by rw [tall] at hle; omega
      obtain ⟨t, w, ht, rfl⟩ := exists_sum_height (by omega) (ih (d + 1) (by omega)) h hle'
      have hcall := Derives.call "f" (show d + 1 ≤ maxDepth by omega) (.some (.last ht))
      refine ⟨_, _, .unsigned (.raised hcall (by omega) (derives_number _ .product 1)), ?_⟩
      simp only [height, heightAll, Nat.max_zero]

/-- Minus signs may use up all levels. -/
theorem derives_negations (x : Binary64) (n : Nat) : ∀ d, d + n ≤ maxDepth →
    Derives d (.signed (negate^[n] (.literal x))) (List.replicate n .minus ++ [.number x]) := by
  induction n with
  | zero => exact fun d _ => derives_number d .product x
  | succ n ih =>
    intro d hd
    rw [Function.iterate_succ_apply', List.replicate_succ, List.cons_append]
    exact .minus (by omega) (ih (d + 1) (by omega))

/-- Every minus sign counts. -/
theorem height_negations (t : Expr) (n : Nat) : (negate^[n] t).height = t.height + n := by
  induction n with
  | zero => rfl
  | succ n ih =>
    rw [Function.iterate_succ_apply', height, ih]
    rfl

/-- The tokens of a sum of two numbers with `n` minus signs before it. -/
def negatedSum (n : Nat) : List Token :=
  List.replicate n .minus ++ [.number 1, .plus, .number 1]

/-- The minus signs stand before the left operand alone, and the sum over them uses up one level. -/
theorem derives_negatedSum (hn : n ≤ maxDepth) :
    Derives 0 (.chain .sum (.binary .add (negate^[n] (.literal 1)) (.literal 1)))
      (negatedSum n) := by
  -- The levels of the minus signs are free again where the sum begins.
  have hleft := derives_negations 1 n 0 (by omega)
  have hsum := Derives.link (.first (.chain (.first hleft))) .plus (by decide)
    (derives_number 1 .sum 1)
  rw [List.append_assoc] at hsum
  exact .chain hsum

/-- The sum goes over the minus signs. -/
theorem height_negatedSum (n : Nat) :
    (binary .add (negate^[n] (.literal 1)) (.literal 1)).height = n + 1 := by
  rw [height, height_negations]
  simp only [height, Nat.zero_add, Nat.max_zero]

/-- The heights of the trees that are parsed are the numbers up to `maxDepth * (maxDepth + 3)`. -/
theorem exists_height_iff (h : Nat) :
    (∃ s t, ofLexemes s = .ok t ∧ t.height = h) ↔ h ≤ maxDepth * (maxDepth + 3) := by
  constructor
  · rintro ⟨s, t, hs, rfl⟩
    exact height_le_of_ofLexemes hs
  · intro hle
    have hbound : maxDepth * (maxDepth + 3) = tall maxDepth + 2 * maxDepth := by
      rw [tall_eq]
      rfl
    -- At depth 0 all levels are left.
    obtain ⟨t, w, ht, hheight⟩ := exists_sum_height (Nat.zero_add _)
      (exists_signed_height maxDepth 0 (Nat.zero_add _)) h (by omega)
    exact ⟨_, t, ht.ofLexemes, hheight⟩

/-! ## Charging every operation to both operands -/

/-- The words of a phrase whose tree stands so many steps below the root of a larger one. It is the
grammar of `Derives` with another account: every step of the tree is one level, also the step from
an operation to its left operand, and parentheses, which leave no trace in the tree, are free. -/
inductive DerivesCharged : Nat → Phrase → List Token → Prop where
  | chain {d m : Nat} {tier : Tier} {t : Expr} {w : List Token} :
      DerivesCharged d (.links tier m t) w → DerivesCharged d (.chain tier t) w
  | first {d : Nat} {tier : Tier} {t : Expr} {w : List Token} :
      DerivesCharged d (.operand tier t) w → DerivesCharged d (.links tier 0 t) w
  | link {d m : Nat} {tier : Tier} {l r : Expr} {o : Operation} {op : Token} {v w : List Token} :
      d + 1 ≤ maxDepth → DerivesCharged (d + 1) (.links tier m l) v → tier.Joins op o →
      DerivesCharged (d + 1) (.operand tier r) w →
      DerivesCharged d (.links tier (m + 1) (.binary o l r)) (v ++ op :: w)
  | minus {d : Nat} {t : Expr} {w : List Token} :
      d + 1 ≤ maxDepth → DerivesCharged (d + 1) (.signed t) w →
      DerivesCharged d (.signed (.negate t)) (.minus :: w)
  | unsigned {d : Nat} {t : Expr} {w : List Token} :
      DerivesCharged d (.power t) w → DerivesCharged d (.signed t) w
  | base {d : Nat} {t : Expr} {w : List Token} :
      DerivesCharged d (.primary t) w → DerivesCharged d (.power t) w
  | raised {d : Nat} {b t : Expr} {v w : List Token} :
      d + 1 ≤ maxDepth → DerivesCharged (d + 1) (.primary b) v →
      DerivesCharged (d + 1) (.signed t) w →
      DerivesCharged d (.power (.binary .pow b t)) (v ++ .caret :: w)
  | number {d : Nat} (x : Binary64) : DerivesCharged d (.primary (.literal x)) [.number x]
  | name {d : Nat} (s : String) : DerivesCharged d (.primary (.name s)) [.name s]
  | call {d : Nat} {ts : List Expr} {w : List Token} (s : String) :
      d + 1 ≤ maxDepth → DerivesCharged (d + 1) (.arguments ts) w →
      DerivesCharged d (.primary (.call s ts)) (.name s :: .leftParen :: (w ++ [.rightParen]))
  | parens {d : Nat} {t : Expr} {w : List Token} :
      DerivesCharged d (.chain .sum t) w →
      DerivesCharged d (.primary t) (.leftParen :: (w ++ [.rightParen]))
  | none {d : Nat} : DerivesCharged d (.arguments []) []
  | some {d : Nat} {ts : List Expr} {w : List Token} :
      DerivesCharged d (.list ts) w → DerivesCharged d (.arguments ts) w
  | last {d : Nat} {t : Expr} {w : List Token} :
      DerivesCharged d (.chain .sum t) w → DerivesCharged d (.list [t]) w
  | more {d : Nat} {t : Expr} {ts : List Expr} {v w : List Token} :
      DerivesCharged d (.chain .sum t) v → DerivesCharged d (.list ts) w →
      DerivesCharged d (.list (t :: ts)) (v ++ .comma :: w)

/-- The height of the trees of a phrase. -/
def Phrase.height : Phrase → Nat
  | .chain _ t | .links _ _ t | .signed t | .power t | .primary t => t.height
  | .arguments ts | .list ts => heightAll ts

/-- An operand is as high as its tree. -/
@[simp] theorem Phrase.height_operand (tier : Tier) (t : Expr) :
    (Phrase.operand tier t).height = t.height := by
  cases tier <;> rfl

/-- A phrase that is charged in full is no higher than there are levels below it. -/
theorem DerivesCharged.height_le {p : Phrase} (h : DerivesCharged d p w) (hd : d ≤ maxDepth) :
    d + p.height ≤ maxDepth := by
  induction h with
  | chain _ ih => exact ih hd
  | first _ ih =>
    have ht := ih hd
    rw [Phrase.height_operand] at ht
    exact ht
  | link hle _ _ _ ihl ihr =>
    have hl := ihl hle
    have hr := ihr hle
    simp only [Phrase.height_operand] at hr
    simp only [Phrase.height, height] at hl ⊢
    omega
  | minus hle _ ih =>
    have ht := ih hle
    simp only [Phrase.height, height] at ht ⊢
    omega
  | unsigned _ ih => exact ih hd
  | base _ ih => exact ih hd
  | raised hle _ _ ihb iht =>
    have hb := ihb hle
    have ht := iht hle
    simp only [Phrase.height, height] at hb ht ⊢
    omega
  | number x => exact hd
  | name s => exact hd
  | call s hle _ ih =>
    have hts := ih hle
    simp only [Phrase.height, height] at hts ⊢
    omega
  | parens _ ih => exact ih hd
  | none => exact hd
  | some _ ih => exact ih hd
  | last _ ih =>
    have ht := ih hd
    simp only [Phrase.height, heightAll] at ht ⊢
    omega
  | more _ _ iht ihts =>
    have ht := iht hd
    have hts := ihts hd
    simp only [Phrase.height, heightAll] at ht hts ⊢
    omega

/-- A phrase that is no higher than there are levels can be charged in full. -/
theorem Derives.charged {p : Phrase} (h : Derives d p w) {n : Nat}
    (hn : n + p.height ≤ maxDepth) : DerivesCharged n p w := by
  induction h generalizing n with
  | chain _ ih => exact .chain (ih hn)
  | first _ ih =>
    refine .first (ih ?_)
    rw [Phrase.height_operand]
    exact hn
  | link _ hj _ _ ihl ihr =>
    simp only [Phrase.height, height] at hn
    refine .link (by omega) (ihl ?_) hj (ihr ?_)
    · simp only [Phrase.height]
      omega
    · simp only [Phrase.height_operand]
      omega
  | minus _ _ ih =>
    simp only [Phrase.height, height] at hn
    refine .minus (by omega) (ih ?_)
    simp only [Phrase.height]
    omega
  | unsigned _ ih => exact .unsigned (ih hn)
  | base _ ih => exact .base (ih hn)
  | raised _ _ _ ihb iht =>
    simp only [Phrase.height, height] at hn
    refine .raised (by omega) (ihb ?_) (iht ?_)
    · simp only [Phrase.height]
      omega
    · simp only [Phrase.height]
      omega
  | number x => exact .number x
  | name s => exact .name s
  | call s _ _ ih =>
    simp only [Phrase.height, height] at hn
    refine .call s (by omega) (ih ?_)
    simp only [Phrase.height]
    omega
  | parens _ _ ih => exact .parens (ih hn)
  | none => exact .none
  | some _ ih => exact .some (ih hn)
  | last _ ih =>
    simp only [Phrase.height, heightAll] at hn
    refine .last (ih ?_)
    simp only [Phrase.height]
    omega
  | more _ _ iht ihts =>
    simp only [Phrase.height, heightAll] at hn
    refine .more (iht ?_) (ihts ?_)
    · simp only [Phrase.height]
      omega
    · simp only [Phrase.height]
      omega

/-- Of every tree that is parsed, at most `maxDepth` steps on a path are not into left operands, and
its height is at most `maxDepth * (maxDepth + 3)`. Its height is at most `maxDepth` exactly if the
tokens before the end are derived when every operation is charged to its left operand too. -/
theorem height_le_maxDepth_iff {s : List Lexeme} {t : Expr} (h : ofLexemes s = .ok t) :
    t.paid ≤ maxDepth ∧ t.height ≤ maxDepth * (maxDepth + 3) ∧
      (t.height ≤ maxDepth ↔
        DerivesCharged 0 (.chain .sum t) ((beforeEnd s).map Lexeme.token)) := by
  have hderives : Derives 0 (.chain .sum t) ((beforeEnd s).map Lexeme.token) := ofLexemes_eq_ok.1 h
  refine ⟨hderives.paid_le, height_le_of_ofLexemes h, fun hle => ?_, fun hcharged => ?_⟩
  · exact hderives.charged (by rwa [Nat.zero_add])
  · have hle := hcharged.height_le (Nat.zero_le _)
    rwa [Nat.zero_add] at hle

/-- A sum whose left operand has one minus sign less than there are levels is charged in full. -/
theorem height_sum_of_negations_le :
    ofLexemes ((negatedSum (maxDepth - 1)).map (Lexeme.mk · 0)) =
        .ok (.binary .add (negate^[maxDepth - 1] (.literal 1)) (.literal 1)) ∧
      (binary .add (negate^[maxDepth - 1] (.literal 1)) (.literal 1)).height ≤ maxDepth := by
  have hsum := derives_negatedSum (Nat.sub_le maxDepth 1)
  refine ⟨hsum.ofLexemes, (height_le_maxDepth_iff hsum.ofLexemes).2.2.2 ?_⟩
  rw [beforeEnd_eq_self, List.map_map, Function.comp_def, List.map_id']
  · refine hsum.charged ?_
    simp only [Phrase.height, height_negatedSum]
    decide
  · simpa [Function.comp_def] using hsum.endOfInput_notMem

/-- A sum whose left operand has as many minus signs as there are levels is parsed too, and is
higher than there are levels. -/
theorem height_sum_of_negations :
    ∃ t, ofLexemes ((negatedSum maxDepth).map (Lexeme.mk · 0)) = .ok t ∧
      t.height = maxDepth + 1 :=
  ⟨_, (derives_negatedSum (Nat.le_refl maxDepth)).ofLexemes, height_negatedSum maxDepth⟩

end Calculator.Expr
