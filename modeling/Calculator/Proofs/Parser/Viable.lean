import Calculator.Proofs.Parser.Exactness

/-!
# Syntax errors are reported where they arise

A word of tokens is viable for a phrase if something can follow it with which it is derived
(`Opens`). The parser fails at the first lexeme that no viable word goes on with: what it has read up
to there is viable, and nothing behind that lexeme is looked at (`ofLexemes_error_viable`).

`Located` says this of a reading function and one input. If the function succeeds, only the next
lexeme behind what it has taken up may change its answer; if it fails, nothing behind the lexeme that
is to blame does. Both halves are needed for steps one after the other (`Located.bind`), because the
second step may fail, or stop, right where the first one has ended.
-/

namespace Calculator.Expr

variable {α β : Type} {d : Nat} {v w : List Lexeme} {f : Failure} {V V' : List Token → Prop}

/-! ## What a failure is to be blamed on -/

/-- What the failure of a reading function on `w` is to be blamed on. `V` holds of the words of
tokens that could still become what the function reads. -/
inductive Blamed (F : List Lexeme → Except Failure (α × List Lexeme)) (V : List Token → Prop)
    (w : List Lexeme) : Failure → Prop where
  /-- The lexemes end too early. -/
  | atEnd : V (w.map Lexeme.token) → Blamed F V w .unexpectedEnd
  /-- A lexeme does not go on with what stands before it, whatever follows. -/
  | atLexeme (front : List Lexeme) (next : Lexeme) (rest : List Lexeme) :
      w = front ++ next :: rest → V (front.map Lexeme.token) →
      (∀ rest', F (front ++ next :: rest') =
        .error (.unexpectedToken next.token.text next.offset)) →
      Blamed F V w (.unexpectedToken next.token.text next.offset)
  /-- A lexeme needs a level that there is not, whatever follows. -/
  | tooDeep (front : List Lexeme) (next : Lexeme) (rest : List Lexeme) :
      w = front ++ next :: rest →
      (∀ rest', F (front ++ next :: rest') = .error (.invalid .nestedTooDeeply)) →
      Blamed F V w (.invalid .nestedTooDeeply)

/-- What a reading function does on `w` does not depend on more than it has to: on one lexeme behind
what it takes up, or on none behind the one that its failure is to be blamed on. -/
def Located (F : List Lexeme → Except Failure (α × List Lexeme)) (V : List Token → Prop)
    (w : List Lexeme) : Prop :=
  match F w with
  | .ok (a, rest) => ∃ v, w = v ++ rest ∧
    ∀ rest', rest'.head? = rest.head? → F (v ++ rest') = .ok (a, rest')
  | .error f => Blamed F V w f

variable {F : List Lexeme → Except Failure (α × List Lexeme)}
variable {G : List Lexeme → Except Failure (β × List Lexeme)}

/-- A success and what it depends on. -/
theorem located_of_ok {a : α} {rest : List Lexeme}
    (h : ∀ rest', rest'.head? = rest.head? → F (v ++ rest') = .ok (a, rest')) :
    Located F V (v ++ rest) := by
  rw [Located, h rest rfl]
  exact ⟨v, rfl, h⟩

/-- A lexeme that does not go on with a viable word, or an end where something has to follow. -/
theorem located_of_unexpected (h : ∀ s, s.head? = w.head? → F s = .error (unexpected s)) (hV : V []) :
    Located F V w := by
  rw [Located, h w rfl]
  cases w with
  | nil => exact .atEnd hV
  | cons next rest => exact .atLexeme [] next rest rfl hV fun rest' => h _ rfl

/-- What follows changes nothing about how lexemes begin. -/
theorem head?_append_cons (front : List Lexeme) (next : Lexeme) (rest rest' : List Lexeme) :
    (front ++ next :: rest).head? = (front ++ next :: rest').head? := by
  cases front <;> rfl

/-- Lexemes begin in the same way if what follows them does. -/
theorem head?_append_congr {rest rest' : List Lexeme} (h : rest'.head? = rest.head?)
    (v : List Lexeme) : (v ++ rest').head? = (v ++ rest).head? := by
  cases v with
  | nil => exact h
  | cons next v => rfl

/-- A failure is to be blamed on the same when it passes to a function that has taken up `v` before
and fails as well. -/
theorem Blamed.transfer (h : Blamed F V w f) (hV : ∀ u, V u → V' (v.map Lexeme.token ++ u))
    (hFG : ∀ s e, s.head? = w.head? → F s = .error e → G (v ++ s) = .error e) :
    Blamed G V' (v ++ w) f := by
  cases h with
  | atEnd hu => exact .atEnd (by rw [List.map_append]; exact hV _ hu)
  | atLexeme front next rest hw hu herror =>
    refine .atLexeme (v ++ front) next rest (by rw [hw, List.append_assoc]) ?_ fun rest' => ?_
    · rw [List.map_append]
      exact hV _ hu
    · rw [List.append_assoc]
      exact hFG _ _ (by rw [hw]; exact head?_append_cons ..) (herror rest')
  | tooDeep front next rest hw herror =>
    refine .tooDeep (v ++ front) next rest (by rw [hw, List.append_assoc]) fun rest' => ?_
    rw [List.append_assoc]
    exact hFG _ _ (by rw [hw]; exact head?_append_cons ..) (herror rest')

/-- A function that has taken up `v` before, and then does the same on all that begins as `w`, is
located there as well. -/
theorem Located.transfer {F' : List Lexeme → Except Failure (α × List Lexeme)} (h : Located F V w)
    (hV : ∀ u, V u → V' (v.map Lexeme.token ++ u))
    (hF : ∀ s, s.head? = w.head? → F' (v ++ s) = F s) : Located F' V' (v ++ w) := by
  unfold Located at h ⊢
  rw [hF w rfl]
  cases hw : F w with
  | error f =>
    rw [hw] at h
    exact h.transfer hV fun s e hs he => by rw [hF s hs, he]
  | ok p =>
    obtain ⟨a, rest⟩ := p
    rw [hw] at h
    obtain ⟨u, rfl, hu⟩ := h
    refine ⟨v ++ u, (List.append_assoc ..).symm, fun rest' hrest => ?_⟩
    rw [List.append_assoc, hF _ (head?_append_congr hrest u), hu rest' hrest]

/-- Two steps one after the other. Where the first one fails, the words that are viable for it have
to be so for both; and the second one begins where the first one has ended. -/
theorem Located.bind {k : α × List Lexeme → Except Failure (β × List Lexeme)}
    (h : Located F V w) (hV : ∀ u, V u → V' u)
    (hk : ∀ a v rest, F w = .ok (a, rest) → w = v ++ rest →
      Located (fun s => k (a, s)) (fun u => V' (v.map Lexeme.token ++ u)) rest) :
    Located (fun s => F s >>= k) V' w := by
  unfold Located at h
  cases hw : F w with
  | error f =>
    rw [hw] at h
    rw [Located, hw]
    exact h.transfer (v := []) hV fun s e _ he => by rw [List.nil_append, he, error_bind]
  | ok p =>
    obtain ⟨a, rest⟩ := p
    rw [hw] at h
    obtain ⟨v, rfl, hv⟩ := h
    -- The first step answers the same before all that begins like the rest.
    exact (hk a v rest hw rfl).transfer (fun u hu => hu) fun s hs => by rw [hv s hs, ok_bind]

/-- The same words may go by another description. -/
theorem Located.mono (h : Located F V w) (hV : ∀ u, V u → V' u) : Located F V' w :=
  h.transfer (v := []) hV fun _ _ => rfl

/-- A lexeme takes a level, which has to be there, and the rest goes on one level deeper. -/
theorem located_descend {next : Lexeme} {k : Nat → List Lexeme → Except Failure (α × List Lexeme)}
    (hF : ∀ s, F (v ++ next :: s) = descend d >>= fun n => k n s)
    (hk : d + 1 ≤ maxDepth →
      Located (k (d + 1)) (fun u => V (v.map Lexeme.token ++ next.token :: u)) w) :
    Located F V (v ++ next :: w) := by
  by_cases hd : d + 1 ≤ maxDepth
  · rw [List.append_cons]
    refine (hk hd).transfer (fun u hu => ?_) fun s _ => ?_
    · rw [List.map_append, List.append_assoc]
      exact hu
    · rw [← List.append_cons, hF, descend_of_lt hd, ok_bind]
  · have herror : ∀ s, F (v ++ next :: s) = .error (.invalid .nestedTooDeeply) := by
      intro s
      rw [hF, descend_of_ge (by omega), error_bind]
    rw [Located, herror]
    exact .tooDeep v next w rfl herror

/-- What only gives its answer another form is located where it is. -/
theorem Located.map {b : α → β} (h : Located F V w) (hV : ∀ u, V u → V' u) :
    Located (fun s => F s >>= fun p => .ok (b p.1, p.2)) V' w :=
  h.bind hV fun a _ _ _ _ => located_of_ok (v := []) (a := b a) fun _ _ => rfl

/-- Lexemes that begin in the same way begin with the same token. -/
theorem ne_cons_of_head? {token : Token} {s : List Lexeme}
    (h : ∀ offset rest, w ≠ ⟨token, offset⟩ :: rest) (hs : s.head? = w.head?) :
    ∀ offset rest, s ≠ ⟨token, offset⟩ :: rest := by
  rintro offset rest rfl
  cases w with
  | nil => cases hs
  | cons next others =>
    cases hs
    exact h offset others rfl

/-- What is read of a front of the input is derived from it. -/
theorem Reads.of_append {P : α → List Token → Prop} {a : α} {rest : List Lexeme}
    (h : Reads (F w) w P) (hok : F w = .ok (a, rest)) (hw : w = v ++ rest) :
    P a (v.map Lexeme.token) := by
  obtain ⟨u, hu, hP⟩ := h a rest hok
  obtain rfl : v = u := List.append_cancel_right (hw.symm.trans hu)
  exact hP

/-! ## Viable words -/

/-- Something can follow a word of tokens with which it is derived from the phrase of a tree, or of
several trees. -/
def Opens (d : Nat) (phrase : α → Phrase) (u : List Token) : Prop :=
  ∃ a v, Derives d (phrase a) (u ++ v)

variable {tier : Tier} {u : List Token}

/-- Everything may still follow where nothing stands. -/
theorem opens_primary_nil (d : Nat) : Opens d .primary [] :=
  ⟨.literal 0, [.number 0], .number 0⟩

/-- A word that is viable for an operand is so for a chain. -/
theorem Opens.chain (h : Opens d (.operand tier) u) : Opens d (.chain tier) u := by
  obtain ⟨t, v, h⟩ := h
  exact ⟨t, v, .chain (.first h)⟩

/-- A chain goes on with an operand after an operation. -/
theorem Opens.link {start m : Nat} {l : Expr} {op : Token} {o : Operation} {x : List Token}
    (hl : Derives start (.links tier m l) x) (hj : tier.Joins op o) (hle : start + m + 1 ≤ maxDepth)
    (h : Opens (start + m + 1) (.operand tier) u) : Opens start (.chain tier) (x ++ op :: u) := by
  obtain ⟨r, v, h⟩ := h
  refine ⟨.binary o l r, v, ?_⟩
  rw [List.append_assoc, List.cons_append]
  exact .chain (.link hl hj hle h)

/-- A signed power goes on after a minus sign. -/
theorem Opens.minus (hle : d + 1 ≤ maxDepth) (h : Opens (d + 1) .signed u) :
    Opens d .signed (.minus :: u) := by
  obtain ⟨t, v, h⟩ := h
  exact ⟨.negate t, v, .minus hle h⟩

/-- A word that is viable for a power is so for a signed one. -/
theorem Opens.unsigned (h : Opens d .power u) : Opens d .signed u := by
  obtain ⟨t, v, h⟩ := h
  exact ⟨t, v, .unsigned h⟩

/-- A word that is viable for a primary expression is so for a power. -/
theorem Opens.base (h : Opens d .primary u) : Opens d .power u := by
  obtain ⟨t, v, h⟩ := h
  exact ⟨t, v, .base h⟩

/-- An exponent goes on after a caret. -/
theorem Opens.raised {b : Expr} {x : List Token} (hb : Derives d (.primary b) x)
    (hle : d + 1 ≤ maxDepth) (h : Opens (d + 1) .signed u) :
    Opens d .power (x ++ .caret :: u) := by
  obtain ⟨t, v, h⟩ := h
  refine ⟨.binary .pow b t, v, ?_⟩
  rw [List.append_assoc, List.cons_append]
  exact .raised hb hle h

/-- The arguments of a call may go on. -/
theorem Opens.call (s : String) (hle : d + 1 ≤ maxDepth) (h : Opens (d + 1) .arguments u) :
    Opens d .primary (.name s :: .leftParen :: u) := by
  obtain ⟨ts, v, h⟩ := h
  refine ⟨.call s ts, v ++ [.rightParen], ?_⟩
  rw [List.cons_append, List.cons_append, ← List.append_assoc]
  exact .call s hle h

/-- What stands in parentheses may go on. -/
theorem Opens.parens (hle : d + 1 ≤ maxDepth) (h : Opens (d + 1) (.chain .sum) u) :
    Opens d .primary (.leftParen :: u) := by
  obtain ⟨t, v, h⟩ := h
  refine ⟨t, v ++ [.rightParen], ?_⟩
  rw [List.cons_append, ← List.append_assoc]
  exact .parens hle h

/-- A word that is viable for a list of arguments is so for the arguments of a call. -/
theorem Opens.some (h : Opens d .list u) : Opens d .arguments u := by
  obtain ⟨ts, v, h⟩ := h
  exact ⟨ts, v, .some h⟩

/-- The first argument of a list may go on. -/
theorem Opens.last (h : Opens d (.chain .sum) u) : Opens d .list u := by
  obtain ⟨t, v, h⟩ := h
  exact ⟨[t], v, .last h⟩

/-- So may the others after a comma. -/
theorem Opens.more {t : Expr} {x : List Token} (ht : Derives d (.chain .sum t) x)
    (h : Opens d .list u) : Opens d .list (x ++ .comma :: u) := by
  obtain ⟨ts, v, h⟩ := h
  refine ⟨t :: ts, v, ?_⟩
  rw [List.append_assoc, List.cons_append]
  exact .more ht h

/-! ## The functions of the parser -/

/-- The loop over a chain is located wherever it stands in one. -/
def Tier.Continues (tier : Tier) (d : Nat) (left : Expr) (w : List Lexeme) : Prop :=
  ∀ start m u, start + m = d → Derives start (.links tier m left) u →
    Located (tier.chain d left) (fun v => Opens start (.chain tier) (u ++ v)) w

/-- What a tier reads as an operand is derived. -/
theorem Tier.operand_reads (tier : Tier) (d : Nat) (w : List Lexeme) :
    Reads (tier.operand d w) w fun t => Derives d (.operand tier t) := by
  obtain ⟨-, -, hproduct, -, hsigned, -⟩ := reads_derives
  cases tier with
  | sum => exact hproduct d w
  | product => exact hsigned d w

/-- A chain is located if its first operand is and the loop goes on with it. -/
theorem Tier.located_whole (tier : Tier)
    (operand : Located (tier.operand d) (Opens d (.operand tier)) w)
    (loop : ∀ t rest, tier.operand d w = .ok (t, rest) → tier.Continues d t rest) :
    Located (tier.whole d) (Opens d (.chain tier)) w := by
  have hwhole : tier.whole d = fun s => tier.operand d s >>= fun p => tier.chain d p.1 p.2 :=
    funext (tier.whole_eq d)
  rw [hwhole]
  refine operand.bind (fun u => Opens.chain) fun t v rest hok hw => ?_
  exact loop t rest hok d 0 _ (Nat.add_zero d) (.first ((tier.operand_reads d w).of_append hok hw))

/-- The loop ends where no operation follows. -/
theorem Tier.continues_of_none (tier : Tier) {left : Expr}
    (h : ∀ next ∈ w.head?, tier.operation? next.token = none) : tier.Continues d left w := by
  intro start m u _ _
  refine located_of_ok (v := []) (a := left) fun rest hrest => ?_
  rw [List.nil_append]
  cases rest with
  | nil => exact tier.chain_nil d left
  | cons next rest => exact tier.chain_of_none (h next hrest.symm) d left rest

/-- The loop goes on after an operation and an operand. -/
theorem Tier.continues_of_some (tier : Tier) {left : Expr} {next : Lexeme} {o : Operation}
    (ho : tier.operation? next.token = some o)
    (operand : ∀ k, Located (tier.operand k) (Opens k (.operand tier)) w)
    (loop : ∀ k r rest, tier.operand k w = .ok (r, rest) →
      tier.Continues k (.binary o left r) rest) :
    tier.Continues d left (next :: w) := by
  rintro start m u rfl hu
  refine located_descend (v := []) (fun s => tier.chain_of_some ho _ left s) fun hle => ?_
  have hj := Tier.operation?_eq_some.1 ho
  refine (operand _).bind (fun x hx => .link hu hj hle hx) fun r v rest hok hw => ?_
  have hr := (tier.operand_reads _ w).of_append hok hw
  -- The chain up to here has one operation more.
  refine (loop _ r rest hok start (m + 1) _ rfl (.link hu hj hle hr)).mono fun x hx => ?_
  rwa [List.append_assoc] at hx

/-- After a base there may be an exponent. -/
theorem located_raised {b : Expr} {x : List Token} (hb : Derives d (.primary b) x)
    (exponent : ∀ offset rest, w = ⟨.caret, offset⟩ :: rest →
      ∀ k, Located (fun s => (signed k s).bare) (Opens k .signed) rest) :
    Located (fun s => raised d (b, s)) (fun u => Opens d .power (x ++ u)) w := by
  by_cases hw : ∃ offset rest, w = ⟨.caret, offset⟩ :: rest
  · obtain ⟨offset, rest, rfl⟩ := hw
    refine located_descend (v := []) (fun s => raised_caret d offset b s) fun hle => ?_
    exact (exponent offset rest rfl _).map fun u hu => .raised hb hle hu
  · have hw' : ∀ offset rest, w ≠ ⟨.caret, offset⟩ :: rest := fun offset rest h =>
      hw ⟨offset, rest, h⟩
    exact located_of_ok (v := []) fun s hs => raised_of_not_caret (ne_cons_of_head? hw' hs) d b

/-- What stands in parentheses has to be closed. -/
theorem located_closed {t : Expr} {x : List Token} (hle : d + 1 ≤ maxDepth)
    (ht : Derives (d + 1) (.chain .sum t) x) :
    Located (fun s => closed (t, s)) (fun u => Opens d .primary (.leftParen :: (x ++ u))) w := by
  by_cases hw : ∃ offset rest, w = ⟨.rightParen, offset⟩ :: rest
  · obtain ⟨offset, rest, rfl⟩ := hw
    exact located_of_ok (v := [⟨.rightParen, offset⟩]) fun s _ => closed_rightParen offset t s
  · have hw' : ∀ offset rest, w ≠ ⟨.rightParen, offset⟩ :: rest := fun offset rest h =>
      hw ⟨offset, rest, h⟩
    refine located_of_unexpected (fun s hs => ?_) (.parens hle ⟨t, [], by simpa using ht⟩)
    exact closed_of_not_rightParen (ne_cons_of_head? hw' hs) t

/-- After an argument there has to be a comma and another one, or the end of the call. -/
theorem located_listed {t : Expr} {x : List Token} (ht : Derives d (.chain .sum t) x)
    (others : ∀ offset rest, w = ⟨.comma, offset⟩ :: rest →
      Located (fun s => (argumentList d s).bare) (Opens d .list) rest) :
    Located (fun s => listed d (t, s)) (fun u => Opens d .list (x ++ u)) w := by
  by_cases hcomma : ∃ offset rest, w = ⟨.comma, offset⟩ :: rest
  · obtain ⟨offset, rest, rfl⟩ := hcomma
    have hothers := (others offset rest rfl).map (b := (t :: ·)) fun u hu => Opens.more ht hu
    exact hothers.transfer (v := [⟨.comma, offset⟩]) (fun u hu => hu)
      fun s _ => listed_comma d offset t s
  by_cases hparen : ∃ offset rest, w = ⟨.rightParen, offset⟩ :: rest
  · obtain ⟨offset, rest, rfl⟩ := hparen
    exact located_of_ok (v := [⟨.rightParen, offset⟩]) fun s _ => listed_rightParen d offset t s
  · have hcomma' : ∀ offset rest, w ≠ ⟨.comma, offset⟩ :: rest := fun offset rest h =>
      hcomma ⟨offset, rest, h⟩
    have hparen' : ∀ offset rest, w ≠ ⟨.rightParen, offset⟩ :: rest := fun offset rest h =>
      hparen ⟨offset, rest, h⟩
    refine located_of_unexpected (fun s hs => ?_) (.last ⟨t, [], by simpa using ht⟩)
    exact listed_of_not_comma (ne_cons_of_head? hcomma' hs) (ne_cons_of_head? hparen' hs) d t

/-- What every function of the parser does is located on every input. -/
theorem located_all :
    (∀ d w, Located (fun s => (sum d s).bare) (Opens d (.chain .sum)) w) ∧
      (∀ d left w, Tier.sum.Continues d left w) ∧
      (∀ d w, Located (fun s => (product d s).bare) (Opens d (.chain .product)) w) ∧
      (∀ d left w, Tier.product.Continues d left w) ∧
      (∀ d w, Located (fun s => (signed d s).bare) (Opens d .signed) w) ∧
      (∀ d w, Located (fun s => (power d s).bare) (Opens d .power) w) ∧
      (∀ d w, Located (fun s => (primary d s).bare) (Opens d .primary) w) ∧
      (∀ d w, Located (fun s => (arguments d s).bare) (Opens d .arguments) w) ∧
      (∀ d w, Located (fun s => (argumentList d s).bare) (Opens d .list) w) := by
  obtain ⟨hsum, -, -, -, -, -, hprimary, -, -⟩ := reads_derives
  -- The recursion of the parser; the cases stand in the order of its definitions.
  apply sum.mutual_induct
  -- Chains of sums, and the loop over them: at the end, before another token, at an operation.
  · intro d w operand loop
    exact Tier.sum.located_whole operand fun t rest h => by
      obtain ⟨q, rfl, rfl⟩ := Reading.bare_eq_ok h
      exact loop q
  · intro d left
    exact Tier.sum.continues_of_none (by simp)
  · intro d left next w h
    exact Tier.sum.continues_of_none (by rintro _ ⟨⟩; exact h)
  · intro d left next w o ho operand loop
    exact Tier.sum.continues_of_some ho operand fun k r rest h => by
      obtain ⟨q, rfl, rfl⟩ := Reading.bare_eq_ok h
      exact loop k q
  -- Chains of products in the same way.
  · intro d w operand loop
    exact Tier.product.located_whole operand fun t rest h => by
      obtain ⟨q, rfl, rfl⟩ := Reading.bare_eq_ok h
      exact loop q
  · intro d left
    exact Tier.product.continues_of_none (by simp)
  · intro d left next w h
    exact Tier.product.continues_of_none (by rintro _ ⟨⟩; exact h)
  · intro d left next w o ho operand loop
    exact Tier.product.continues_of_some ho operand fun k r rest h => by
      obtain ⟨q, rfl, rfl⟩ := Reading.bare_eq_ok h
      exact loop k q
  -- Signed powers, with a minus sign and without one.
  · intro d offset w operand
    exact located_descend (v := []) (fun s => signed_minus d offset s) fun hle =>
      (operand _).map fun u hu => .minus hle hu
  · intro d w h unsigned
    exact unsigned.transfer (v := []) (fun u => Opens.unsigned) fun s hs =>
      signed_of_not_minus (ne_cons_of_head? h hs) d
  -- Powers.
  · intro d w base exponent
    have hpower : (fun s => (power d s).bare) = fun s => (primary d s).bare >>= raised d :=
      funext (power_eq d)
    rw [hpower]
    refine base.bind (fun u => Opens.base) fun b v rest hok hw => ?_
    have hb := Reads.of_append (F := fun s => (primary d s).bare) (hprimary d w) hok hw
    refine located_raised hb fun offset others hrest => ?_
    obtain ⟨q, -, hq⟩ := Reading.bare_eq_ok hok
    exact exponent q offset others (hq.trans hrest)
  -- Primary expressions: a number, a call, a name, parentheses, and what begins none of them.
  · intro d x offset w
    exact located_of_ok (v := [⟨.number x, offset⟩]) fun s _ => primary_number d offset x s
  · intro d s offset offset' w list
    refine located_descend (v := [⟨.name s, offset⟩])
      (fun rest => primary_call d offset offset' s rest) fun hle => ?_
    exact (list _).map fun u hu => .call s hle hu
  · intro d s offset w hw
    exact located_of_ok (v := [⟨.name s, offset⟩]) fun rest hrest =>
      primary_name (ne_cons_of_head? hw hrest) d offset s
  · intro d offset w inner
    refine located_descend (v := []) (fun s => primary_leftParen d offset s) fun hle => ?_
    refine (inner _).bind (fun u hu => .parens hle hu) fun t v rest hok hw => ?_
    exact located_closed hle (Reads.of_append (F := fun s => (sum _ s).bare) (hsum _ w) hok hw)
  · intro d w hnumber hcall hname hparen
    refine located_of_unexpected (fun s hs => primary_of_not_begins ?_ d) (opens_primary_nil d)
    rintro ⟨token, offset⟩ others rfl hb
    cases w with
    | nil => cases hs
    | cons next w =>
      cases hs
      cases token with
      | number x => exact hnumber x offset w rfl
      | name s => exact hname s offset w rfl
      | leftParen => exact hparen offset w rfl
      | _ => exact hb
  -- Arguments: none, some, and the list of these.
  · intro d offset w
    exact located_of_ok (v := [⟨.rightParen, offset⟩]) fun s _ => arguments_rightParen d offset s
  · intro d w h list
    exact list.transfer (v := []) (fun u => Opens.some) fun s hs =>
      arguments_of_not_rightParen (ne_cons_of_head? h hs) d
  · intro d w first others
    have hlist : (fun s => (argumentList d s).bare) = fun s => (sum d s).bare >>= listed d :=
      funext (argumentList_eq d)
    rw [hlist]
    refine first.bind (fun u => Opens.last) fun t v rest hok hw => ?_
    have ht := Reads.of_append (F := fun s => (sum d s).bare) (hsum d w) hok hw
    refine located_listed ht fun offset more hrest => ?_
    obtain ⟨q, -, hq⟩ := Reading.bare_eq_ok hok
    exact others q offset more (hq.trans hrest)

/-! ## Whole expressions -/

/-- What follows a whole expression: nothing. -/
def complete (p : Expr × List Lexeme) : Except Failure (Expr × List Lexeme) :=
  if p.2 = [] then .ok p else .error (unexpected p.2)

/-- A whole expression is located on every input. -/
theorem located_whole (w : List Lexeme) :
    Located (fun s => (sum 0 s).bare >>= complete) (Opens 0 (.chain .sum)) w := by
  refine (located_all.1 0 w).bind (fun u hu => hu) fun t v rest hok hw => ?_
  have ht := Reads.of_append (F := fun s => (sum 0 s).bare) (reads_derives.1 0 w) hok hw
  cases rest with
  | nil =>
    refine located_of_ok (v := []) (a := t) fun s hs => ?_
    obtain rfl := List.head?_eq_none_iff.1 hs
    rfl
  | cons next rest =>
    refine located_of_unexpected (fun s hs => ?_) ⟨t, [], by simpa using ht⟩
    cases s with
    | nil => cases hs
    | cons _ _ => rfl

/-- An expression is read from the lexemes before the end. -/
theorem ofLexemes_eq_complete (s : List Lexeme) :
    ofLexemes s = (sum 0 (beforeEnd s)).bare >>= complete >>= fun p => .ok p.1 := by
  rw [ofLexemes_eq]
  cases (sum 0 (beforeEnd s)).bare with
  | error f => rfl
  | ok p =>
    rw [ok_bind, ok_bind, complete]
    split
    · rfl
    · rfl

/-- A failure of a whole expression comes from the lexemes before the end. -/
theorem ofLexemes_eq_error {s : List Lexeme} :
    ofLexemes s = .error f ↔ (sum 0 (beforeEnd s)).bare >>= complete = .error f := by
  rw [ofLexemes_eq_complete]
  cases (sum 0 (beforeEnd s)).bare >>= complete with
  | error g => simp
  | ok p => exact ⟨nofun, nofun⟩

/-- What stands before the end ends nowhere, whatever it is continued with. -/
theorem beforeEnd_append (h : ∀ next ∈ v, next.token ≠ .endOfInput) (rest : List Lexeme) :
    beforeEnd (v ++ rest) = v ++ beforeEnd rest :=
  List.takeWhile_append_of_pos fun next hnext => by simpa using h next hnext

/-- No lexeme before the end is the end. -/
theorem ne_endOfInput_of_mem_beforeEnd {s : List Lexeme} {next : Lexeme} (h : next ∈ beforeEnd s) :
    next.token ≠ .endOfInput := by
  simpa using List.mem_takeWhile_imp h

/-- A viable word of tokens can be continued to lexemes that have a tree. -/
theorem exists_ofLexemes_of_opens (h : Opens 0 (.chain .sum) (v.map Lexeme.token)) :
    ∃ more t, ofLexemes (v ++ more) = .ok t := by
  obtain ⟨t, x, hx⟩ := h
  have htokens : (v ++ x.map (Lexeme.mk · 0)).map Lexeme.token = v.map Lexeme.token ++ x := by
    simp [Function.comp_def]
  refine ⟨x.map (Lexeme.mk · 0), t, ?_⟩
  rw [ofLexemes_eq_ok, beforeEnd_eq_self (by rw [htokens]; exact hx.endOfInput_notMem), htokens]
  exact hx

/-- A failure that the front of the lexemes before the end decides is that of all lexemes which
begin with this front. -/
theorem ofLexemes_eq_error_of_front {s front rest : List Lexeme} {next : Lexeme}
    (hs : beforeEnd s = front ++ next :: rest)
    (h : ∀ rest', (sum 0 (front ++ next :: rest')).bare >>= complete = .error f)
    (rest' : List Lexeme) : ofLexemes ((front ++ [next]) ++ rest') = .error f := by
  have hfront : ∀ x ∈ front ++ [next], x.token ≠ .endOfInput := fun x hx =>
    ne_endOfInput_of_mem_beforeEnd (s := s) (by
      rw [hs, List.append_cons]
      exact List.mem_append_left _ hx)
  rw [ofLexemes_eq_error, beforeEnd_append hfront, ← List.append_cons]
  exact h _

/-- **Syntax errors are reported where they arise.** Of every list of lexemes, with those before the
end taken as what there is to read. An unexpected token is a lexeme of these, named by its text and
its offset; what stands before it can be continued to something that has a tree, and all lists that
begin with both fail in the same way. An unexpected end comes behind what has no tree, but can be
continued to something that has one. Where there are too few levels, some lexeme is the last one that
counts. There are no other failures. -/
theorem ofLexemes_error_viable (s : List Lexeme) :
    (∀ found position, ofLexemes s = .error (.unexpectedToken found position) →
      ∃ k, ∃ h : k < (beforeEnd s).length,
        found = (beforeEnd s)[k].token.text ∧ position = (beforeEnd s)[k].offset ∧
        (∃ more t, ofLexemes ((beforeEnd s).take k ++ more) = .ok t) ∧
        ∀ rest, ofLexemes ((beforeEnd s).take (k + 1) ++ rest) =
          .error (.unexpectedToken found position)) ∧
    (ofLexemes s = .error .unexpectedEnd →
      (∀ t, ofLexemes (beforeEnd s) ≠ .ok t) ∧
        ∃ more t, ofLexemes (beforeEnd s ++ more) = .ok t) ∧
    (ofLexemes s = .error (.invalid .nestedTooDeeply) →
      ∃ k < (beforeEnd s).length, ∀ rest, ofLexemes ((beforeEnd s).take (k + 1) ++ rest) =
        .error (.invalid .nestedTooDeeply)) ∧
    ∀ f, ofLexemes s = .error f → (∃ found position, f = .unexpectedToken found position) ∨
      f = .unexpectedEnd ∨ f = .invalid .nestedTooDeeply := by
  have hblamed : ∀ f, ofLexemes s = .error f →
      Blamed (fun s => (sum 0 s).bare >>= complete) (Opens 0 (.chain .sum)) (beforeEnd s) f := by
    intro f hf
    have hlocated := located_whole (beforeEnd s)
    rwa [Located, ofLexemes_eq_error.1 hf] at hlocated
  refine ⟨fun found position hf => ?_, fun hf => ?_, fun hf => ?_, fun f hf => ?_⟩
  · cases hblamed _ hf with
    | atLexeme front next rest hs hV herror =>
      have htake : (beforeEnd s).take (front.length + 1) = front ++ [next] := by
        rw [hs, List.append_cons, List.take_left' (by simp)]
      refine ⟨front.length, by simp [hs], by simp [hs], by simp [hs], ?_, fun rest' => ?_⟩
      · rw [hs, List.take_left]
        exact exists_ofLexemes_of_opens hV
      · rw [htake]
        exact ofLexemes_eq_error_of_front hs herror rest'
  · cases hblamed _ hf with
    | atEnd hV =>
      refine ⟨fun t ht => ?_, exists_ofLexemes_of_opens hV⟩
      -- There is no other end in what stands before the end.
      have hself : beforeEnd (beforeEnd s) = beforeEnd s := List.takeWhile_idem ..
      rw [ofLexemes_eq_ok, hself, ← ofLexemes_eq_ok, hf] at ht
      cases ht
  · cases hblamed _ hf with
    | tooDeep front next rest hs herror =>
      have htake : (beforeEnd s).take (front.length + 1) = front ++ [next] := by
        rw [hs, List.append_cons, List.take_left' (by simp)]
      refine ⟨front.length, by simp [hs], fun rest' => ?_⟩
      rw [htake]
      exact ofLexemes_eq_error_of_front hs herror rest'
  · cases hblamed f hf with
    | atEnd _ => exact .inr (.inl rfl)
    | atLexeme _ next _ _ _ _ => exact .inl ⟨_, _, rfl⟩
    | tooDeep _ _ _ _ _ => exact .inr (.inr rfl)

end Calculator.Expr
