import Calculator.Expr.Cursor
import Calculator.Proofs.Parser.Outcome

/-!
# The levels that a run of the parser takes

Levels are taken in `Expr/Cursor.lean` by counting them up, and given back by counting them down or
by putting the count back. `Reaches` says to which places a run may come from the one where it
begins: the count is never below what it was there, it has risen no more than the cursor, and it
exceeds the bound at most by one. This is what allows every function to give its levels back, also after a
failure, whose levels are only partly given back.

`Keeps` adds what the run ends with, beside what the parsing functions on lists return for the
lexemes that are ahead. It goes through a sequence of actions step by step (`Keeps.bind`), through
the actions that are carried out after a failure (`Keeps.withExit`), and through the levels
themselves (`keeps_enterLevel`, `keeps_onLevel`, `Keeps.restoring`).
-/

namespace Calculator.Expr.Cursor

variable {α β : Type} {lexemes : List Lexeme} {c : Nat} {s s' s₀ : State} {a p q : Place}

/-! ## What is ahead of the cursor -/

/-- The lexemes from the cursor up to the end. -/
def ahead (lexemes : List Lexeme) (cursor : Nat) : List Lexeme := beforeEnd (lexemes.drop cursor)

/-- At the end the token of the end is next, or there is none. Before it the next lexeme is at the
cursor. -/
theorem ahead_cases (lexemes : List Lexeme) (cursor : Nat) :
    (ahead lexemes cursor = [] ∧ tokenAt lexemes cursor = .endOfInput) ∨
      ∃ next, ahead lexemes cursor = next :: ahead lexemes (cursor + 1) ∧
        next.token ≠ .endOfInput ∧ lexemes[cursor]? = some next := by
  cases hnext : lexemes[cursor]? with
  | none =>
    have hdrop := List.drop_eq_nil_of_le (List.getElem?_eq_none_iff.1 hnext)
    exact .inl ⟨by rw [ahead, hdrop]; rfl, by rw [tokenAt, hnext]; rfl⟩
  | some next =>
    obtain ⟨hlt, rfl⟩ := List.getElem?_eq_some_iff.1 hnext
    by_cases hend : lexemes[cursor].token = .endOfInput
    · refine .inl ⟨?_, by rw [tokenAt, hnext]; exact hend⟩
      rw [ahead, List.drop_eq_getElem_cons hlt, beforeEnd, List.takeWhile_cons_of_neg]
      simpa using hend
    · refine .inr ⟨_, ?_, hend, rfl⟩
      rw [ahead, List.drop_eq_getElem_cons hlt, beforeEnd, List.takeWhile_cons_of_pos]
      · rfl
      · simpa using hend

/-- A token before the end is that of the next lexeme. -/
theorem ahead_of_tokenAt {cursor : Nat} {token : Token} (h : tokenAt lexemes cursor = token)
    (hne : token ≠ .endOfInput) :
    ∃ offset, ahead lexemes cursor = ⟨token, offset⟩ :: ahead lexemes (cursor + 1) := by
  obtain ⟨-, hend⟩ | ⟨next, hahead, -, hnext⟩ := ahead_cases lexemes cursor
  · exact absurd (h.symm.trans hend) hne
  · obtain rfl : next.token = token := by rw [← h, tokenAt, hnext]; rfl
    exact ⟨next.offset, hahead⟩

/-- A lexeme with another token than the next one is not next. -/
theorem ahead_ne_of_tokenAt {cursor : Nat} {token : Token} (h : tokenAt lexemes cursor ≠ token) :
    ∀ offset rest, ahead lexemes cursor ≠ ⟨token, offset⟩ :: rest := by
  intro offset rest heq
  obtain ⟨hnil, -⟩ | ⟨next, hahead, -, hnext⟩ := ahead_cases lexemes cursor
  · rw [hnil] at heq
    cases heq
  · rw [hahead] at heq
    cases heq
    exact h (by rw [tokenAt, hnext]; rfl)

/-- The cursor stands on a lexeme if one is ahead. -/
theorem lt_of_ahead {cursor : Nat} {next : Lexeme} {w : List Lexeme}
    (h : ahead lexemes cursor = next :: w) :
    cursor < lexemes.length ∧ ahead lexemes (cursor + 1) = w := by
  obtain ⟨hnil, -⟩ | ⟨next', hahead, -, hnext⟩ := ahead_cases lexemes cursor
  · rw [hnil] at h
    cases h
  · rw [hahead] at h
    cases h
    exact ⟨(List.getElem?_eq_some_iff.1 hnext).1, rfl⟩

/-- The token at the cursor is that of the lexeme that is next. -/
theorem tokenAt_of_ahead {cursor : Nat} {next : Lexeme} {w : List Lexeme}
    (h : ahead lexemes cursor = next :: w) : tokenAt lexemes cursor = next.token :=
  Decidable.byContradiction fun hne => ahead_ne_of_tokenAt hne next.offset w h

/-- No more lexemes are ahead than there are behind the cursor. -/
theorem length_ahead_le (lexemes : List Lexeme) (cursor : Nat) :
    (ahead lexemes cursor).length ≤ lexemes.length - cursor := by
  rw [← List.length_drop]
  exact (List.takeWhile_sublist _).length_le

/-! ## Running actions -/

/-- After a success the next action goes on from the state that is left; nothing goes on after
anything else. -/
theorem bind_apply (x : Action α) (f : α → Action β) (s : State) :
    (x >>= f) s = match x s with
      | (.ok v, s') => f v s'
      | (.error halt, s') => (.error halt, s') := by
  change (match x s with | (r, s') => ExceptT.bindCont f r s') = _
  generalize x s = r
  obtain ⟨r, s'⟩ := r
  cases r <;> rfl

/-- Looking at the next token changes nothing. -/
@[simp] theorem peek_bind (f : Token → Action β) (s : State) :
    (peek lexemes >>= f) s = f (tokenAt lexemes s.place.cursor) s := rfl

/-- A lexeme that is ahead can be gone past. -/
theorem advance_bind {next : Lexeme} {w : List Lexeme} (f : Unit → Action β)
    (h : ahead lexemes s.place.cursor = next :: w) :
    (advance lexemes >>= f) s = f () s.pastNext := by
  rw [bind_apply, advance, if_pos (lt_of_ahead h).1]

/-! ## Places that a run may come to -/

/-- A function of the parser that begins at the place `a` may come to the place `p`. The cursor has
gone past lexemes only, the count of levels is not below that of `a` and has risen no more than the
cursor, and it exceeds the bound `c` at most by one. -/
structure Reaches (lexemes : List Lexeme) (c : Nat) (a p : Place) : Prop where
  taken : p.cursor + (ahead lexemes p.cursor).length = a.cursor + (ahead lexemes a.cursor).length
  forward : a.cursor ≤ p.cursor
  above : a.depth.toNat ≤ p.depth.toNat
  paid : p.depth.toNat + a.cursor ≤ a.depth.toNat + p.cursor
  bounded : p.depth.toNat ≤ c + 1

theorem Reaches.refl (h : a.depth.toNat ≤ c) : Reaches lexemes c a a :=
  ⟨rfl, Nat.le_refl _, Nat.le_refl _, Nat.le_refl _, Nat.le_succ_of_le h⟩

theorem Reaches.trans (h : Reaches lexemes c a p) (h' : Reaches lexemes c p q) :
    Reaches lexemes c a q := by
  obtain ⟨htaken, hforward, habove, hpaid, -⟩ := h
  obtain ⟨htaken', hforward', habove', hpaid', hbounded⟩ := h'
  exact ⟨by omega, by omega, by omega, by omega, hbounded⟩

/-- A run from the state `s` to the state `s'` comes only to places that it may come to. -/
structure Visits (lexemes : List Lexeme) (c : Nat) (s s' : State) : Prop where
  here : Reaches lexemes c s.place s'.place
  passed : ∀ p ∈ s'.passed, p ∈ s.places ∨ Reaches lexemes c s.place p

theorem Visits.refl (h : s.place.depth.toNat ≤ c) : Visits lexemes c s s :=
  ⟨.refl h, fun _ hp => .inl (List.mem_cons_of_mem _ hp)⟩

theorem Visits.places (h : Visits lexemes c s s') :
    ∀ p ∈ s'.places, p ∈ s.places ∨ Reaches lexemes c s.place p := by
  intro p hp
  obtain rfl | hp := List.mem_cons.1 hp
  · exact .inr h.here
  · exact h.passed p hp

theorem Visits.trans (h : Visits lexemes c s₀ s) (h' : Visits lexemes c s s') :
    Visits lexemes c s₀ s' := by
  refine ⟨h.here.trans h'.here, fun p hp => ?_⟩
  obtain hp | hp := h'.passed p hp
  · exact h.places p hp
  · exact .inr (h.here.trans hp)

theorem Visits.moveTo (h : Visits lexemes c s₀ s) (hp : Reaches lexemes c s₀.place p) :
    Visits lexemes c s₀ (s.moveTo p) :=
  ⟨hp, h.places⟩

/-- Going past a lexeme. -/
theorem Visits.advance {next : Lexeme} {w : List Lexeme} (hs : s.place.depth.toNat ≤ c)
    (h : ahead lexemes s.place.cursor = next :: w) :
    Visits lexemes c s s.pastNext := by
  refine (Visits.refl hs).moveTo ⟨?_, Nat.le_succ _, Nat.le_refl _, by simp only; omega,
    by simp only; omega⟩
  simp only [(lt_of_ahead h).2, h, List.length_cons]
  omega

/-! ## Actions that keep the account -/

/-- What a run of the parser that began in the state `s` has done when it ends with `r`, where the
function on lists gives `expected`. `back` is known of the state after a success, and `lacks` holds
if there was not enough room. -/
inductive Keeps (lexemes : List Lexeme) (c : Nat) (lacks : Prop) (s : State) (back : State → Prop) :
    Except Failure (α × List Lexeme) → Except Halt α × State → Prop where
  | ok {v : α} {s' : State} : Visits lexemes c s s' → back s' →
      Keeps lexemes c lacks s back (.ok (v, ahead lexemes s'.place.cursor)) (.ok v, s')
  /-- A level that is one too many is paid for by lexemes. -/
  | failure {f : Failure} {s' : State} : Visits lexemes c s s' →
      (f = .invalid .nestedTooDeeply →
        maxDepth < s.place.depth.toNat + (ahead lexemes s.place.cursor).length) →
      Keeps lexemes c lacks s back (.error f) (.error (.failure f), s')
  /-- Levels that are counted can be counted up to the bound, and given back. -/
  | uncountable {expected : Except Failure (α × List Lexeme)} {s' : State} :
      Visits lexemes c s s' → 2 ^ 64 ≤ c + 1 →
      Keeps lexemes c lacks s back expected (.error .uncountable, s')
  | outOfRoom {expected : Except Failure (α × List Lexeme)} {s' : State} :
      Visits lexemes c s s' → lacks →
      Keeps lexemes c lacks s back expected (.error .outOfRoom, s')

variable {lacks lacks' : Prop} {back back' : State → Prop}
variable {expected : Except Failure (α × List Lexeme)} {r : Except Halt α × State}

/-- One action after another. -/
theorem Keeps.bind {x : Action α} {f : α → Action β}
    {k : α × List Lexeme → Except Failure (β × List Lexeme)}
    (hx : Keeps lexemes c lacks s back expected (x s₀))
    (hf : ∀ v s', Visits lexemes c s s' → back s' →
      Keeps lexemes c lacks s back' (k (v, ahead lexemes s'.place.cursor)) (f v s')) :
    Keeps lexemes c lacks s back' (expected >>= k) ((x >>= f) s₀) := by
  rw [bind_apply]
  generalize x s₀ = r at hx
  cases hx with
  | ok hv hb => exact hf _ _ hv hb
  | failure hv hdeep => exact .failure hv hdeep
  | uncountable hv hc => exact .uncountable hv hc
  | outOfRoom hv hl => exact .outOfRoom hv hl

/-- What is made of a value changes nothing else. -/
theorem Keeps.map {x : Action α} (g : α → β) (hx : Keeps lexemes c lacks s back expected (x s₀)) :
    Keeps lexemes c lacks s back (expected >>= fun p => .ok (g p.1, p.2))
      ((x >>= fun v => pure (g v)) s₀) :=
  hx.bind fun _ _ hv hb => .ok hv hb

/-- However it ends, a run comes only to places that it may come to. -/
theorem Keeps.visits (h : Keeps lexemes c lacks s back expected r) : Visits lexemes c s r.2 := by
  cases h with
  | ok hv _ => exact hv
  | failure hv _ => exact hv
  | uncountable hv _ => exact hv
  | outOfRoom hv _ => exact hv

/-- Less may be known of a run. -/
theorem Keeps.mono (h : Keeps lexemes c lacks s back expected r) (hlacks : lacks → lacks')
    (hback : ∀ s', Visits lexemes c s s' → back s' → back' s') :
    Keeps lexemes c lacks' s back' expected r := by
  cases h with
  | ok hv hb => exact .ok hv (hback _ hv hb)
  | failure hv hdeep => exact .failure hv hdeep
  | uncountable hv hc => exact .uncountable hv hc
  | outOfRoom hv hl => exact .outOfRoom hv (hlacks hl)

/-- A run goes on from a state that another one has come to. -/
theorem Keeps.after (h : Keeps lexemes c lacks s back expected r)
    (hs : Visits lexemes c s₀ s) : Keeps lexemes c lacks s₀ back expected r := by
  cases h with
  | ok hv hb => exact .ok (hs.trans hv) hb
  | failure hv hdeep =>
    refine .failure (hs.trans hv) fun hf => ?_
    have hdeep := hdeep hf
    obtain ⟨htaken, -, -, hpaid, -⟩ := hs.here
    omega
  | uncountable hv hc => exact .uncountable (hs.trans hv) hc
  | outOfRoom hv hl => exact .outOfRoom (hs.trans hv) hl

/-- The next token is refused with its offset. -/
theorem keeps_refuse (hs : Visits lexemes c s₀ s) :
    Keeps (α := α) lexemes c lacks s₀ back (.error (unexpected (ahead lexemes s.place.cursor)))
      (refuse lexemes s) := by
  obtain ⟨hnil, hend⟩ | ⟨next, hahead, hne, hnext⟩ := ahead_cases lexemes s.place.cursor
  · rw [hnil, refuse, hend]
    exact .failure hs nofun
  · have htoken : tokenAt lexemes s.place.cursor = next.token := by rw [tokenAt, hnext]; rfl
    have hoffset : offsetAt lexemes s.place.cursor = next.offset := by rw [offsetAt, hnext]; rfl
    rw [hahead, refuse, htoken, hoffset]
    split
    · rename_i heq
      exact absurd heq hne
    · exact .failure hs nofun

/-! ## Levels -/

/-- The state after a success has as many levels in use as before, and the cursor is further on. -/
def Steady (s s' : State) : Prop :=
  s'.place.depth = s.place.depth ∧ s.place.cursor < s'.place.cursor

/-- A level that the count has place for is counted, and it is refused if it is one too many. -/
theorem enterLevel_of_lt (h : s.place.depth.toNat + 1 < 2 ^ 64) :
    ∃ deeper : BitVec 64, deeper.toNat = s.place.depth.toNat + 1 ∧ enterLevel s =
      if maxDepth < s.place.depth.toNat + 1 then
        (.error (.failure (.invalid .nestedTooDeeply)), s.onDepth deeper)
      else (.ok (), s.onDepth deeper) := by
  obtain ⟨deeper, hdeeper, hvalue⟩ := Word.exists_add? (a := s.place.depth) (b := 1) h
  have hvalue : deeper.toNat = s.place.depth.toNat + 1 := hvalue
  refine ⟨deeper, hvalue, ?_⟩
  simp only [enterLevel, hdeeper, hvalue]

/-- A level that the count has no place for is not. -/
theorem enterLevel_of_ge (h : 2 ^ 64 ≤ s.place.depth.toNat + 1) :
    enterLevel s = (.error .uncountable, s) := by
  have hdeeper : Word.add? s.place.depth 1 = none := Word.add?_eq_none h
  simp only [enterLevel, hdeeper]

/-- A level that is in use can be given back. -/
theorem leaveLevel_of_pos (h : 0 < s.place.depth.toNat) :
    ∃ higher : BitVec 64, higher.toNat + 1 = s.place.depth.toNat ∧
      leaveLevel s = (.ok (), s.onDepth higher) := by
  obtain ⟨higher, hhigher, hvalue⟩ := Word.exists_sub? (a := s.place.depth) (b := 1) h
  have hvalue : higher.toNat = s.place.depth.toNat - 1 := hvalue
  refine ⟨higher, by omega, ?_⟩
  simp only [leaveLevel, hhigher]

/-- What is so of a later state is so of an earlier one on the same level. -/
theorem Steady.after (h : Steady s s') (hdepth : s.place.depth = s₀.place.depth)
    (hcursor : s₀.place.cursor ≤ s.place.cursor) : Steady s₀ s' :=
  ⟨h.1.trans hdepth, Nat.lt_of_le_of_lt hcursor h.2⟩

/-- Going past a lexeme that costs a level. -/
theorem keeps_enterLevel {f : Action α} {G : Nat → List Lexeme → Except Failure (α × List Lexeme)}
    {next : Lexeme} {w : List Lexeme} (hc : maxDepth ≤ c) (hs : s.place.depth.toNat ≤ c)
    (h : ahead lexemes s.place.cursor = next :: w)
    (hf : ∀ s', Visits lexemes c s s' → s'.place.cursor = s.place.cursor + 1 →
      s'.place.depth.toNat = s.place.depth.toNat + 1 → s'.place.depth.toNat ≤ c →
      Keeps lexemes c lacks s back (G (s.place.depth.toNat + 1) w) (f s')) :
    Keeps lexemes c lacks s back (descend s.place.depth.toNat >>= fun d => G d w)
      ((do advance lexemes; enterLevel; f) s) := by
  have hadvance := Visits.advance hs h
  rw [advance_bind _ h, bind_apply]
  generalize hs₁ : s.pastNext = s₁ at hadvance ⊢
  have hcursor : s₁.place.cursor = s.place.cursor + 1 := by rw [← hs₁]; rfl
  have hdepth : s₁.place.depth = s.place.depth := by rw [← hs₁]; rfl
  by_cases hlt : s.place.depth.toNat + 1 < 2 ^ 64
  · obtain ⟨deeper, hvalue, hrun⟩ := enterLevel_of_lt (s := s₁) (by rwa [hdepth])
    rw [hdepth] at hvalue hrun
    have hvisits : Visits lexemes c s (s₁.onDepth deeper) := by
      obtain ⟨htaken, hforward, -, -, -⟩ := hadvance.here
      exact hadvance.moveTo ⟨htaken, hforward, by simp only; omega, by simp only; omega,
        by simp only; omega⟩
    rw [hrun]
    by_cases hdeep : maxDepth < s.place.depth.toNat + 1
    · rw [if_pos hdeep, descend_of_ge (by omega), error_bind]
      refine .failure hvisits fun _ => ?_
      rw [h, List.length_cons]
      omega
    · rw [if_neg hdeep, descend_of_lt (by omega), ok_bind]
      exact hf _ hvisits hcursor hvalue (by simp only [State.onDepth_depth]; omega)
  · rw [enterLevel_of_ge (by rw [hdepth]; omega)]
    exact .uncountable hadvance (by omega)

/-- What is carried out after an action does not change how the action ends, as long as it succeeds
in the states that the action leaves behind it. -/
theorem Keeps.withExit {action : Action α} {exit : Action Unit}
    (h : Keeps lexemes c lacks s back expected (action s))
    (hexit : ∀ s', Visits lexemes c s s' → ∃ depth, exit s' = (.ok (), s'.onDepth depth) ∧
      Visits lexemes c s₀ (s'.onDepth depth) ∧ (back s' → back' (s'.onDepth depth)))
    (hs : Visits lexemes c s₀ s) :
    Keeps lexemes c lacks s₀ back' expected (Cursor.withExit action exit s) := by
  rw [Cursor.withExit]
  generalize action s = r at h
  cases h with
  | @ok v s' hv hb =>
    obtain ⟨depth, hrun, hv', hb'⟩ := hexit s' hv
    change Keeps _ _ _ _ _ _ ((exit >>= fun _ => pure v) s')
    rw [bind_apply, hrun]
    exact .ok hv' (hb' hb)
  | @failure f s' hv hdeep =>
    obtain ⟨depth, hrun, hv', -⟩ := hexit s' hv
    change Keeps _ _ _ _ _ _ ((exit >>= fun _ => throw (.failure f)) s')
    rw [bind_apply, hrun]
    refine .failure hv' fun hf => ?_
    have hdeep := hdeep hf
    obtain ⟨htaken, -, -, hpaid, -⟩ := hs.here
    omega
  | uncountable hv hc => exact .uncountable (hs.trans hv) hc
  | outOfRoom hv hl => exact .outOfRoom (hs.trans hv) hl

/-- The count of levels is put back. -/
theorem Keeps.restoring {action : Action α} (hs : s.place.depth.toNat ≤ c)
    (h : Keeps lexemes c lacks s (fun s' => s.place.cursor < s'.place.cursor) expected (action s)) :
    Keeps lexemes c lacks s (Steady s) expected (Cursor.restoring action s) := by
  refine h.withExit (fun s' hv => ⟨s.place.depth, rfl, ?_, ?_⟩)
    (.refl hs)
  · obtain ⟨htaken, hforward, -, -, -⟩ := hv.here
    exact hv.moveTo ⟨htaken, hforward, Nat.le_refl _, by simp only; omega, by simp only; omega⟩
  · exact fun hcursor => ⟨rfl, hcursor⟩

/-- A level that an action has needed is given back. -/
theorem keeps_onLevel {action : Action α}
    {G : Nat → List Lexeme → Except Failure (α × List Lexeme)} {next : Lexeme} {w : List Lexeme}
    (hc : maxDepth ≤ c) (hs : s.place.depth.toNat ≤ c)
    (h : ahead lexemes s.place.cursor = next :: w)
    (haction : ∀ s', s'.place.depth.toNat = s.place.depth.toNat + 1 → s'.place.depth.toNat ≤ c →
      ahead lexemes s'.place.cursor = w →
      Keeps lexemes c lacks s' (Steady s') (G s'.place.depth.toNat w) (action s')) :
    Keeps lexemes c lacks s (Steady s) (descend s.place.depth.toNat >>= fun d => G d w)
      (onLevel lexemes action s) := by
  refine keeps_enterLevel hc hs h fun s₁ hv₁ hcursor hdepth hle => ?_
  have hkeeps := haction s₁ hdepth hle (hcursor ▸ (lt_of_ahead h).2)
  rw [hdepth] at hkeeps
  refine hkeeps.withExit (fun s₂ hv₂ => ?_) hv₁
  -- The action has not given back the level that it runs on, also if it has failed.
  obtain ⟨-, hforward₁, -, hpaid₁, -⟩ := hv₁.here
  obtain ⟨htaken, hforward, habove, hpaid, hbounded⟩ := hv₂.here
  obtain ⟨higher, hvalue, hrun⟩ := leaveLevel_of_pos (s := s₂) (by omega)
  refine ⟨higher, hrun, ?_, fun hb => ⟨?_, ?_⟩⟩
  · exact (hv₁.trans hv₂).moveTo ⟨htaken.trans hv₁.here.taken, by simp only; omega,
      by simp only; omega, by simp only; omega, by simp only; omega⟩
  · refine BitVec.eq_of_toNat_eq ?_
    have hsame := congrArg BitVec.toNat hb.1
    rw [State.onDepth_depth]
    omega
  · have hlt := hb.2
    rw [State.onDepth_cursor]
    omega

end Calculator.Expr.Cursor
