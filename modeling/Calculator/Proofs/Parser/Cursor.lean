import Calculator.Proofs.Parser.Levels

/-!
# The parser with a cursor gives its levels back

The functions of `Expr/Cursor.lean` do what the functions on lists do, from every place and with
every room (`allFollow`). The induction is on the room, because calls are nested within it; each
function has a lemma of its own, which takes the functions that it calls for granted. A chain of
either tier is one function here, with one lemma (`follows_chain`).

`levels_are_accounted_for` draws the account: what succeeds has given all its levels back, a run
over all lexemes never has more levels in use than lexemes behind it, and so it takes more than
`maxDepth` lexemes to nest too deeply.
-/

namespace Calculator.Expr.Cursor

variable {α : Type} {lexemes : List Lexeme} {c : Nat} {s s₀ : State} {lacks : Prop}
variable {back : State → Prop} {expected : Except Failure (α × List Lexeme)}
variable {r : Except Halt α × State}

/-! ## The functions of the grammar -/

/-- An action does from everywhere what a function on lists does with the lexemes that are ahead. It
has room enough for it if `room` is not below `7 * n + k`, where `n` is the number of these
lexemes. -/
def Follows (lexemes : List Lexeme) (c room k : Nat) (action : Action α)
    (F : Nat → List Lexeme → Except Failure (α × List Lexeme)) : Prop :=
  ∀ s : State, s.place.depth.toNat ≤ c →
    Keeps lexemes c (room < 7 * (ahead lexemes s.place.cursor).length + k) s (Steady s)
      (F s.place.depth.toNat (ahead lexemes s.place.cursor)) (action s)

variable {room k : Nat}

/-- One call more needs more room. -/
theorem Follows.keeps {k' : Nat} {action : Action α}
    {F : Nat → List Lexeme → Except Failure (α × List Lexeme)}
    (h : Follows lexemes c room k action F) (hs : s.place.depth.toNat ≤ c) (hk : k < k') :
    Keeps lexemes c (room + 1 < 7 * (ahead lexemes s.place.cursor).length + k') s (Steady s)
      (F s.place.depth.toNat (ahead lexemes s.place.cursor)) (action s) :=
  (h s hs).mono (fun hlacks => by omega) fun _ _ hb => hb

/-- A call behind a lexeme that costs a level. -/
theorem Follows.onLevel {action : Action α}
    {F : Nat → List Lexeme → Except Failure (α × List Lexeme)} {next : Lexeme} {w : List Lexeme}
    (h : Follows lexemes c room k action F) (k' : Nat)
    (hc : maxDepth ≤ c) (hs : s.place.depth.toNat ≤ c)
    (hahead : ahead lexemes s.place.cursor = next :: w) (hk : k < k' + 7) :
    Keeps lexemes c (room + 1 < 7 * (ahead lexemes s.place.cursor).length + k') s (Steady s)
      (descend s.place.depth.toNat >>= fun d => F d w) (Cursor.onLevel lexemes action s) := by
  refine keeps_onLevel hc hs hahead fun s' _ hs' hw => ?_
  have hkeeps := h s' hs'
  rw [hw] at hkeeps
  refine hkeeps.mono (fun hlacks => ?_) fun _ _ hb => hb
  rw [hahead, List.length_cons]
  omega

/-- The rest of a chain. Its levels are in use when it ends, and there may be as many rounds as
there are lexemes ahead. -/
theorem keeps_chainFrom (hc : maxDepth ≤ c) (tier : Tier) {operand : Action Expr}
    (hoperand : Follows lexemes c room k operand tier.operand) (rounds : Nat) :
    ∀ (left : Expr) (s : State), s.place.depth.toNat ≤ c →
      Keeps lexemes c (room < 7 * (ahead lexemes s.place.cursor).length + k ∨
          rounds ≤ (ahead lexemes s.place.cursor).length) s
        (fun s' => s.place.cursor ≤ s'.place.cursor)
        (tier.chain s.place.depth.toNat left (ahead lexemes s.place.cursor))
        (chainFrom lexemes operand tier.operation? rounds left s) := by
  induction rounds with
  | zero => exact fun left s hs => .outOfRoom (.refl hs) (.inr (Nat.zero_le _))
  | succ rounds ih =>
    intro left s hs
    rw [chainFrom, peek_bind]
    obtain ⟨hnil, hend⟩ | ⟨next, hahead, -, hnext⟩ := ahead_cases lexemes s.place.cursor
    · have hnone : tier.operation? .endOfInput = none := by cases tier <;> rfl
      rw [hend, hnone, hnil, Tier.chain_nil, ← hnil]
      exact .ok (.refl hs) (Nat.le_refl _)
    · have htoken : tokenAt lexemes s.place.cursor = next.token := by rw [tokenAt, hnext]; rfl
      rw [htoken]
      cases hoperation : tier.operation? next.token with
      | none =>
        rw [hahead, Tier.chain_of_none tier hoperation, ← hahead]
        exact .ok (.refl hs) (Nat.le_refl _)
      | some operation =>
        rw [hahead, Tier.chain_of_some tier hoperation, List.length_cons]
        refine keeps_enterLevel hc hs hahead (G := fun d w => tier.operand d w >>= fun p =>
          tier.chain d (.binary operation left p.1) p.2) fun s₁ hv₁ hcursor hdepth hle => ?_
        have hahead₁ : ahead lexemes s₁.place.cursor = ahead lexemes (s.place.cursor + 1) := by
          rw [hcursor]
        have hlength := congrArg List.length hahead₁
        rw [← hdepth, ← hahead₁]
        refine Keeps.bind (((hoperand s₁ hle).after hv₁).mono (fun hlacks => .inl (by omega))
          fun _ _ hb => hb) fun right s₂ hv₂ hb => ?_
        obtain ⟨hsame, hlt⟩ := hb
        have htaken := hv₂.here.taken
        rw [hahead, List.length_cons] at htaken
        rw [← hsame]
        exact ((ih (.binary operation left right) s₂ (hsame ▸ hle)).after hv₂).mono
          (fun hlacks => by omega) fun _ _ hle => by omega

/-- A chain puts the count back, which gives the levels of all its rounds back at once. -/
theorem follows_chain (hc : maxDepth ≤ c) (tier : Tier) {operand : Action Expr}
    (hoperand : Follows lexemes c room k operand tier.operand) (hk : 0 < k) :
    Follows lexemes c (room + 1) (k + 1) (chain lexemes room operand tier.operation?)
      tier.whole := by
  intro s hs
  refine Keeps.restoring hs ?_
  rw [tier.whole_eq]
  refine (hoperand.keeps hs (Nat.lt_succ_self k)).bind fun first s' hv hb => ?_
  obtain ⟨hsame, hlt⟩ := hb
  have htaken := hv.here.taken
  rw [← hsame]
  exact ((keeps_chainFrom hc tier hoperand room first s' (hsame ▸ hs)).after hv).mono
    (fun hlacks => by omega) fun _ _ hle => Nat.lt_of_lt_of_le hlt hle

/-- The arguments of a call that are still to be read. Every round needs an argument, and so no more
of them are needed than there are lexemes ahead. -/
theorem keeps_argumentsFrom {argument : Action Expr}
    (hargument : Follows lexemes c room k argument fun d w => (Expr.sum d w).bare) (rounds : Nat) :
    ∀ (before : List Expr) (s : State), s.place.depth.toNat ≤ c →
      Keeps lexemes c (room < 7 * (ahead lexemes s.place.cursor).length + k ∨
          rounds ≤ (ahead lexemes s.place.cursor).length) s (Steady s)
        ((argumentList s.place.depth.toNat (ahead lexemes s.place.cursor)).bare >>= fun p =>
          .ok (before ++ p.1, p.2))
        (argumentsFrom lexemes argument rounds before s) := by
  induction rounds with
  | zero => exact fun before s hs => .outOfRoom (.refl hs) (.inr (Nat.zero_le _))
  | succ rounds ih =>
    intro before s hs
    rw [argumentsFrom, argumentList_eq, bind_assoc]
    refine Keeps.bind ((hargument s hs).mono .inl fun _ _ hb => hb) fun first s₁ hv₁ hb => ?_
    obtain ⟨hsame, hlt⟩ := hb
    have htaken := hv₁.here.taken
    have hs₁ : s₁.place.depth.toNat ≤ c := hsame ▸ hs
    rw [peek_bind]
    cases htoken : tokenAt lexemes s₁.place.cursor with
    | comma =>
      obtain ⟨offset, hahead⟩ := ahead_of_tokenAt htoken nofun
      have hv₂ := Visits.advance hs₁ hahead
      have htaken₂ := hv₂.here.taken
      have hmore := (ih (before ++ [first]) s₁.pastNext hs₁).after (hv₁.trans hv₂)
      simp only [State.pastNext_cursor, State.pastNext_depth, List.append_assoc,
        List.singleton_append, hsame] at hmore htaken₂
      rw [hahead, listed_comma, bind_assoc]
      change Keeps _ _ _ _ _ _ ((advance lexemes >>= fun _ => _) s₁)
      rw [advance_bind _ hahead]
      exact hmore.mono (fun hlacks => by omega) fun s' _ hb =>
        hb.after hsame (by rw [State.pastNext_cursor]; omega)
    | rightParen =>
      obtain ⟨offset, hahead⟩ := ahead_of_tokenAt htoken nofun
      rw [hahead, listed_rightParen]
      change Keeps _ _ _ _ _ _ ((advance lexemes >>= fun _ => _) s₁)
      rw [advance_bind _ hahead]
      exact .ok (hv₁.trans (Visits.advance hs₁ hahead)) ⟨hsame, Nat.lt_succ_of_lt hlt⟩
    | _ =>
      rw [listed_of_not_comma (ahead_ne_of_tokenAt (by rw [htoken]; nofun))
        (ahead_ne_of_tokenAt (by rw [htoken]; nofun))]
      exact keeps_refuse hv₁

/-- A lexeme that is gone past. -/
theorem keeps_advance {next : Lexeme} {w : List Lexeme} (v : α) (hs : s.place.depth.toNat ≤ c)
    (h : ahead lexemes s.place.cursor = next :: w) :
    Keeps lexemes c lacks s (Steady s) (.ok (v, w)) ((do advance lexemes; return v) s) := by
  rw [advance_bind _ h, ← (lt_of_ahead h).2]
  exact .ok (Visits.advance hs h) ⟨rfl, Nat.lt_succ_self _⟩

/-- A minus sign takes a level, and without one a signed power is a power. -/
theorem follows_signed (hc : maxDepth ≤ c)
    (hsigned : Follows lexemes c room 3 (signed lexemes room) fun d w => (Expr.signed d w).bare)
    (hpower : Follows lexemes c room 2 (power lexemes room) fun d w => (Expr.power d w).bare) :
    Follows lexemes c (room + 1) 3 (signed lexemes (room + 1))
      fun d w => (Expr.signed d w).bare := by
  intro s hs
  rw [Cursor.signed, peek_bind]
  cases htoken : tokenAt lexemes s.place.cursor with
  | minus =>
    obtain ⟨offset, hahead⟩ := ahead_of_tokenAt htoken nofun
    have hlevel := hsigned.onLevel 3 hc hs hahead (by decide)
    dsimp only
    rw [hahead, signed_minus, ← bind_assoc, ← hahead]
    exact hlevel.map Expr.negate
  | _ =>
    dsimp only
    rw [signed_of_not_minus (ahead_ne_of_tokenAt (by rw [htoken]; nofun))]
    exact hpower.keeps hs (by decide)

/-- An exponent takes a level after the base has given back its own. -/
theorem follows_power (hc : maxDepth ≤ c)
    (hsigned : Follows lexemes c room 3 (signed lexemes room) fun d w => (Expr.signed d w).bare)
    (hprimary : Follows lexemes c room 1 (primary lexemes room)
      fun d w => (Expr.primary d w).bare) :
    Follows lexemes c (room + 1) 2 (power lexemes (room + 1))
      fun d w => (Expr.power d w).bare := by
  intro s hs
  dsimp only
  rw [Cursor.power, power_eq]
  refine (hprimary.keeps hs (by decide)).bind fun base s₁ hv₁ hb => ?_
  obtain ⟨hsame, hlt⟩ := hb
  have hs₁ : s₁.place.depth.toNat ≤ c := hsame ▸ hs
  have htaken := hv₁.here.taken
  rw [peek_bind]
  cases htoken : tokenAt lexemes s₁.place.cursor with
  | caret =>
    obtain ⟨offset, hahead⟩ := ahead_of_tokenAt htoken nofun
    have hlevel := ((hsigned.onLevel 2 hc hs₁ hahead (by decide)).map
      (Expr.binary .pow base)).after hv₁
    rw [hsame, bind_assoc] at hlevel
    rw [hahead, raised_caret]
    exact hlevel.mono (fun hlacks => by omega) fun s' _ hb => hb.after hsame (Nat.le_of_lt hlt)
  | _ =>
    rw [raised_of_not_caret (ahead_ne_of_tokenAt (by rw [htoken]; nofun))]
    exact .ok hv₁ ⟨hsame, hlt⟩

/-- The parenthesis that closes is expected. -/
theorem keeps_closed {inner : Expr} (hv : Visits lexemes c s₀ s) (hsteady : Steady s₀ s)
    (hs : s.place.depth.toNat ≤ c) :
    Keeps lexemes c lacks s₀ (Steady s₀) (closed (inner, ahead lexemes s.place.cursor))
      ((do expect lexemes .rightParen; return inner) s) := by
  rw [expect, bind_assoc, peek_bind]
  by_cases htoken : tokenAt lexemes s.place.cursor = .rightParen
  · obtain ⟨offset, hahead⟩ := ahead_of_tokenAt htoken nofun
    rw [if_pos htoken, hahead, closed_rightParen]
    exact ((keeps_advance inner hs hahead).after hv).mono id fun s' _ hb =>
      hb.after hsteady.1 (Nat.le_of_lt hsteady.2)
  · rw [if_neg htoken, closed_of_not_rightParen (ahead_ne_of_tokenAt htoken)]
    exact (keeps_refuse hv).map fun _ => inner

/-- A call and a parenthesis take a level. -/
theorem follows_primary (hc : maxDepth ≤ c)
    (hsum : Follows lexemes c room 5 (sum lexemes room) fun d w => (Expr.sum d w).bare)
    (harguments : Follows lexemes c room 6 (arguments lexemes room)
      fun d w => (Expr.arguments d w).bare) :
    Follows lexemes c (room + 1) 1 (primary lexemes (room + 1))
      fun d w => (Expr.primary d w).bare := by
  intro s hs
  dsimp only
  rw [Cursor.primary, peek_bind]
  cases htoken : tokenAt lexemes s.place.cursor with
  | number x =>
    obtain ⟨offset, hahead⟩ := ahead_of_tokenAt htoken nofun
    rw [hahead, primary_number]
    exact keeps_advance (Expr.literal x) hs hahead
  | name text =>
    obtain ⟨offset, hahead⟩ := ahead_of_tokenAt htoken nofun
    have hv₁ := Visits.advance hs hahead
    change Keeps _ _ _ _ _ _ ((advance lexemes >>= fun _ => _) s)
    rw [advance_bind _ hahead, peek_bind]
    cases htoken₁ : tokenAt lexemes s.pastNext.place.cursor with
    | leftParen =>
      obtain ⟨offset₁, hahead₁⟩ := ahead_of_tokenAt htoken₁ nofun
      have hlevel := ((harguments.onLevel 1 hc (s := s.pastNext) hs hahead₁
        (by decide)).map (Expr.call text)).after hv₁
      rw [bind_assoc] at hlevel
      rw [State.pastNext_cursor] at hahead₁
      have hcall : (Expr.primary s.place.depth.toNat (ahead lexemes s.place.cursor)).bare =
          descend s.place.depth.toNat >>= fun d =>
            (Expr.arguments d (ahead lexemes (s.place.cursor + 1 + 1))).bare >>= fun p =>
              .ok (.call text p.1, p.2) := by
        rw [hahead, hahead₁, primary_call]
      rw [hcall]
      have htaken := hv₁.here.taken
      rw [State.pastNext_cursor] at htaken
      exact hlevel.mono (fun hlacks => by rw [State.pastNext_cursor] at hlacks; omega)
        fun s' _ hb => hb.after rfl (Nat.le_succ _)
    | _ =>
      rw [State.pastNext_cursor] at htoken₁
      rw [hahead, primary_name (ahead_ne_of_tokenAt (by rw [htoken₁]; nofun))]
      exact .ok hv₁ ⟨rfl, Nat.lt_succ_self _⟩
  | leftParen =>
    obtain ⟨offset, hahead⟩ := ahead_of_tokenAt htoken nofun
    rw [hahead, primary_leftParen, ← hahead]
    refine keeps_onLevel hc hs hahead (G := fun d w => (Expr.sum d w).bare >>= closed)
      fun s₁ _ hs₁ hw => ?_
    have hinner := hsum s₁ hs₁
    rw [hw] at hinner
    refine (hinner.mono (fun hlacks => ?_) fun _ _ hb => hb).bind fun inner s₂ hv hb =>
      keeps_closed hv hb (hb.1 ▸ hs₁)
    rw [hahead, List.length_cons]
    omega
  | _ =>
    rw [primary_of_not_begins]
    · exact keeps_refuse (.refl hs)
    · intro next rest hahead
      rw [← tokenAt_of_ahead hahead, htoken]
      exact id

/-- The arguments of a call take no level beside that of the call. -/
theorem follows_arguments
    (hsum : Follows lexemes c room 5 (sum lexemes room) fun d w => (Expr.sum d w).bare) :
    Follows lexemes c (room + 1) 6 (arguments lexemes (room + 1))
      fun d w => (Expr.arguments d w).bare := by
  intro s hs
  dsimp only
  rw [Cursor.arguments, peek_bind]
  cases htoken : tokenAt lexemes s.place.cursor with
  | rightParen =>
    obtain ⟨offset, hahead⟩ := ahead_of_tokenAt htoken nofun
    rw [hahead, arguments_rightParen]
    exact keeps_advance [] hs hahead
  | _ =>
    have hlist := keeps_argumentsFrom hsum room [] s hs
    simp only [List.nil_append] at hlist
    rw [arguments_of_not_rightParen (ahead_ne_of_tokenAt (by rw [htoken]; nofun)),
      ← bind_pure (argumentList _ _).bare]
    exact hlist.mono (fun hlacks => by omega) fun _ _ hb => hb

/-- What the functions of the grammar do with the given room. -/
structure AllFollow (lexemes : List Lexeme) (c room : Nat) : Prop where
  primary : Follows lexemes c room 1 (primary lexemes room) fun d w => (Expr.primary d w).bare
  power : Follows lexemes c room 2 (power lexemes room) fun d w => (Expr.power d w).bare
  signed : Follows lexemes c room 3 (signed lexemes room) fun d w => (Expr.signed d w).bare
  product : Follows lexemes c room 4 (product lexemes room) fun d w => (Expr.product d w).bare
  sum : Follows lexemes c room 5 (sum lexemes room) fun d w => (Expr.sum d w).bare
  arguments : Follows lexemes c room 6 (arguments lexemes room)
    fun d w => (Expr.arguments d w).bare

/-- Whatever room there is, the functions of the grammar do what the functions on lists do. -/
theorem allFollow (hc : maxDepth ≤ c) (room : Nat) : AllFollow lexemes c room := by
  induction room with
  | zero => constructor <;> exact fun s hs => .outOfRoom (.refl hs) (by omega)
  | succ room ih =>
    exact {
      primary := follows_primary hc ih.sum ih.arguments
      power := follows_power hc ih.signed ih.primary
      signed := follows_signed hc ih.signed ih.power
      product := follows_chain hc .product ih.signed (by decide)
      sum := follows_chain hc .sum ih.product (by decide)
      arguments := follows_arguments ih.sum }

/-! ## What the account says -/

/-- A function of the grammar gives all levels back that it takes and goes past a lexeme, whenever
it succeeds, however much room there is. With room enough for the lexemes, it ends as the function
`F` on lists does with the lexemes that are ahead. -/
structure Restores (lexemes : List Lexeme) (action : Nat → Action α)
    (F : Nat → List Lexeme → Except Failure (α × List Lexeme)) : Prop where
  steady : ∀ room s v s', s.place.cursor ≤ lexemes.length → action room s = (.ok v, s') →
    s'.place.depth = s.place.depth ∧ s.place.cursor < s'.place.cursor ∧
      s'.place.cursor ≤ lexemes.length
  answers : ∀ s, s.place.depth.toNat + 1 < 2 ^ 64 →
    (action (roomFor lexemes.length) s).1 =
      ((F s.place.depth.toNat (ahead lexemes s.place.cursor)).map Prod.fst).mapError .failure

/-- An action ends as expected if levels can be counted and there is room enough. -/
theorem Keeps.fst_eq (h : Keeps lexemes c lacks s back expected r) (hc : c + 1 < 2 ^ 64)
    (hlacks : ¬ lacks) : r.1 = (expected.map Prod.fst).mapError .failure := by
  cases h with
  | ok _ _ => rfl
  | failure _ _ => rfl
  | uncountable _ hc' => exact absurd hc' (Nat.not_le.2 hc)
  | outOfRoom _ hl => exact absurd hl hlacks

/-- What follows the functions on lists everywhere gives back the levels. -/
theorem restores_of_follows {action : Nat → Action α}
    {F : Nat → List Lexeme → Except Failure (α × List Lexeme)}
    (h : ∀ c room, maxDepth ≤ c → Follows lexemes c room k (action room) F) (hk : k ≤ 6) :
    Restores lexemes action F where
  steady room s v s' hs hrun := by
    have hkeeps := h (max s.place.depth.toNat maxDepth) room (Nat.le_max_right ..) s
      (Nat.le_max_left ..)
    rw [hrun] at hkeeps
    generalize F s.place.depth.toNat (ahead lexemes s.place.cursor) = expected at hkeeps
    cases hkeeps with
    | ok hv hb =>
      obtain ⟨hdepth, hlt⟩ := hb
      have htaken := hv.here.taken
      have hlength := length_ahead_le lexemes s.place.cursor
      exact ⟨hdepth, hlt, by omega⟩
  answers s hs := by
    refine (h (max s.place.depth.toNat maxDepth) _ (Nat.le_max_right ..) s
      (Nat.le_max_left ..)).fst_eq ?_ ?_
    · rw [← Nat.add_max_add_right]
      exact Nat.max_lt.2 ⟨hs, show maxDepth + 1 < 2 ^ 64 by decide⟩
    · have hlength := length_ahead_le lexemes s.place.cursor
      rw [roomFor]
      omega

/-- A run over all lexemes. -/
theorem keeps_parse (lexemes : List Lexeme) :
    Keeps lexemes maxDepth False .start (fun _ => True)
      ((ofLexemes lexemes).map fun tree => (tree, [])) (parse lexemes) := by
  have hfollow : AllFollow lexemes maxDepth (roomFor lexemes.length) := allFollow (Nat.le_refl _) _
  have hsum := hfollow.sum .start (Nat.zero_le _)
  have hlength := length_ahead_le lexemes 0
  have hexpected : (ofLexemes lexemes).map (fun tree => (tree, ([] : List Lexeme))) =
      (Expr.sum 0 (ahead lexemes 0)).bare >>= fun p =>
        if p.2 = [] then .ok (p.1, []) else .error (unexpected p.2) := by
    rw [ofLexemes_eq, ahead, List.drop_zero]
    cases (Expr.sum 0 (beforeEnd lexemes)).bare with
    | error f => rfl
    | ok p =>
      simp only [ok_bind]
      split <;> rfl
  rw [hexpected, parse, whole]
  refine (hsum.mono (fun hlacks => ?_) fun _ _ hb => hb).bind fun tree s hv _ => ?_
  · simp only [State.start, roomFor] at hlacks
    omega
  · rw [peek_bind]
    obtain ⟨hnil, hend⟩ | ⟨next, hahead, hne, hnext⟩ := ahead_cases lexemes s.place.cursor
    · rw [hend, hnil, if_pos rfl, ← hnil]
      exact .ok hv trivial
    · have htoken := tokenAt_of_ahead hahead
      rw [if_neg (hahead ▸ List.cons_ne_nil _ _)]
      cases htoken' : tokenAt lexemes s.place.cursor with
      | endOfInput => exact absurd (htoken.symm.trans htoken') hne
      | _ => exact keeps_refuse hv

/-- **The account of the levels.** A function of the grammar that succeeds leaves as many levels in
use as it has found, and the cursor further on, but not behind the lexemes; this holds in all
states. A run over all lexemes ends as the parser on lists does. In particular it never gives back a
level where none is in use, which would end it otherwise. At all places of the run, also at those it
comes to after a failure, no more levels are in use than lexemes have been gone past, and no more
than one beyond `maxDepth`. Lexemes that are not more than `maxDepth` before the end are not too
deep. -/
theorem levels_are_accounted_for (lexemes : List Lexeme) :
    Restores lexemes (sum lexemes) (fun d w => (Expr.sum d w).bare) ∧
    Restores lexemes (product lexemes) (fun d w => (Expr.product d w).bare) ∧
    Restores lexemes (signed lexemes) (fun d w => (Expr.signed d w).bare) ∧
    Restores lexemes (power lexemes) (fun d w => (Expr.power d w).bare) ∧
    Restores lexemes (primary lexemes) (fun d w => (Expr.primary d w).bare) ∧
    Restores lexemes (arguments lexemes) (fun d w => (Expr.arguments d w).bare) ∧
    (parse lexemes).1 = (ofLexemes lexemes).mapError .failure ∧
    (∀ p ∈ (parse lexemes).2.places, p.depth.toNat ≤ p.cursor ∧ p.depth.toNat ≤ maxDepth + 1 ∧
      p.cursor ≤ (beforeEnd lexemes).length) ∧
    ((beforeEnd lexemes).length ≤ maxDepth →
      ofLexemes lexemes ≠ .error (.invalid .nestedTooDeeply)) := by
  have hparse := keeps_parse lexemes
  refine ⟨restores_of_follows (fun c room hc => (allFollow hc room).sum) (by decide),
    restores_of_follows (fun c room hc => (allFollow hc room).product) (by decide),
    restores_of_follows (fun c room hc => (allFollow hc room).signed) (by decide),
    restores_of_follows (fun c room hc => (allFollow hc room).power) (by decide),
    restores_of_follows (fun c room hc => (allFollow hc room).primary) (by decide),
    restores_of_follows (fun c room hc => (allFollow hc room).arguments) (by decide), ?_, ?_, ?_⟩
  · rw [hparse.fst_eq (by decide) id]
    cases ofLexemes lexemes <;> rfl
  · intro p hp
    have hstart : Reaches lexemes maxDepth State.start.place State.start.place :=
      .refl (Nat.zero_le _)
    have hreaches : Reaches lexemes maxDepth State.start.place p := by
      obtain hp | hp := hparse.visits.places p hp
      · rwa [List.mem_singleton.1 hp]
      · exact hp
    obtain ⟨htaken, -, -, hpaid, hbounded⟩ := hreaches
    simp only [State.start, ahead, List.drop_zero] at htaken hpaid
    exact ⟨by simpa using hpaid, hbounded, by omega⟩
  · intro hlength hdeep
    rw [hdeep] at hparse
    generalize parse lexemes = r at hparse
    generalize he : Except.map _ _ = expected at hparse
    cases hparse with
    | failure hv hdeep =>
      cases he
      have hdeep : maxDepth < 0 + (ahead lexemes 0).length := hdeep rfl
      rw [ahead, List.drop_zero] at hdeep
      omega
    | ok _ _ => cases he
    | uncountable _ hc => exact absurd hc (by decide)
    | outOfRoom _ hl => exact hl

/-- One minus sign less than there are levels, before a number. -/
theorem levels_are_accounted_for_negations :
    let lexemes : List Lexeme := List.replicate (maxDepth - 1) ⟨.minus, 0⟩ ++ [⟨.number 1, 0⟩]
    (beforeEnd lexemes).length ≤ maxDepth ∧
      ofLexemes lexemes ≠ .error (.invalid .nestedTooDeeply) := by
  intro lexemes
  have hlength : (beforeEnd lexemes).length ≤ maxDepth := by
    refine Nat.le_trans (List.takeWhile_sublist _).length_le ?_
    rw [List.length_append, List.length_replicate]
    decide
  exact ⟨hlength, (levels_are_accounted_for lexemes).2.2.2.2.2.2.2.2 hlength⟩

end Calculator.Expr.Cursor
