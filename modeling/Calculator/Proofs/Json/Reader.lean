import Calculator.Proofs.Json.Numbers
import Calculator.Proofs.Json.Strings

/-!
# The reader reads JSON

The reader accepts the texts of the grammar and gives them the values that they spell
(`ofText?_eq_some_iff`).

It is a family of functions that call each other, so both directions speak of all of them at once.
What spells a phrase is read wherever it stands, by induction on the derivation (`Spells.isRead`);
the white space behind a value is then left to the function that looks for a comma or an end. What
is read spells a phrase, by induction on the length of the list that it is read from (`isSound`).
-/

namespace Calculator.Json

open Parsed (outcome)

variable {chars input rest before : List Char}

/-! ## White space -/

theorem isSpace_iff {c : Char} :
    (c == ' ' || c == '\t' || c == '\n' || c == '\r') = true ↔ IsSpace c := by
  simp [IsSpace, or_assoc]

/-- White space is skipped up to the first character that is none. -/
theorem skipBlanks_of_head (hbefore : Blank before)
    (h : ∀ c ∈ chars.head?, ¬ IsSpace c) : skipBlanks (before ++ chars) = chars := by
  rw [skipBlanks, List.dropWhile_append_of_pos fun c hc => isSpace_iff.2 (hbefore c hc)]
  cases chars with
  | nil => rfl
  | cons c chars => exact List.dropWhile_cons_of_neg (mt isSpace_iff.1 (h c rfl))

theorem skipBlanks_cons (hbefore : Blank before) {c : Char} (hc : ¬ IsSpace c)
    (tail : List Char) : skipBlanks (before ++ c :: tail) = c :: tail :=
  skipBlanks_of_head hbefore (by rintro _ ⟨⟩; exact hc)

/-- What is skipped is white space. -/
theorem exists_skipBlanks (chars : List Char) :
    ∃ blank, Blank blank ∧ blank ++ skipBlanks chars = chars :=
  ⟨_, fun c hc => isSpace_iff.1 ((List.all_eq_true.1 List.all_takeWhile) c hc),
    List.takeWhile_append_dropWhile⟩

/-! ## The equations of the reader -/

theorem outcome_valueOf? (input : List Char) :
    outcome (valueOf? input) =
      match skipBlanks input with
      | 'n' :: 'u' :: 'l' :: 'l' :: rest => some (.null, rest)
      | 't' :: 'r' :: 'u' :: 'e' :: rest => some (.bool true, rest)
      | 'f' :: 'a' :: 'l' :: 's' :: 'e' :: rest => some (.bool false, rest)
      | '"' :: rest => (outcome (stringOf? rest)).map fun read => (.string read.1, read.2)
      | '[' :: rest => (outcome (itemsOf? rest)).map fun read => (.array read.1, read.2)
      | '\x7b' :: rest => (outcome (membersOf? rest)).map fun read => (.object read.1, read.2)
      | rest => outcome (numberOf? rest) := by
  rw [valueOf?]
  split
  case h_1 heq | h_2 heq | h_3 heq =>
    simp only [heq]
    rfl
  case h_4 heq | h_5 heq | h_6 heq =>
    simp only [heq]
    exact Parsed.outcome_map_weaken _ _ _
  case h_7 =>
    simp only
    cases numberOf? (skipBlanks input) <;> rfl

theorem outcome_itemsOf? (input : List Char) :
    outcome (itemsOf? input) =
      match skipBlanks input with
      | ']' :: rest => some ([], rest)
      | _ => outcome (moreItemsOf? input) := by
  rw [itemsOf?]
  split
  · rename_i heq
    simp only [heq]
    rfl
  · simp only

theorem outcome_moreItemsOf? (input : List Char) :
    outcome (moreItemsOf? input) =
      (outcome (valueOf? input)).bind fun first =>
        match skipBlanks first.2 with
        | ',' :: rest =>
          (outcome (moreItemsOf? rest)).map fun others => (first.1 :: others.1, others.2)
        | ']' :: rest => some ([first.1], rest)
        | _ => none := by
  rw [moreItemsOf?]
  cases valueOf? input with
  | none => rfl
  | some first =>
    simp only [Option.bind_eq_bind, Option.bind_some, outcome, Option.map_some]
    split
    · rename_i heq
      simp only [heq]
      exact Parsed.outcome_map_weaken _ _ _
    · rename_i heq
      simp only [heq]
      rfl
    · simp only
      rfl

theorem outcome_membersOf? (input : List Char) :
    outcome (membersOf? input) =
      match skipBlanks input with
      | '\x7d' :: rest => some ([], rest)
      | _ => outcome (moreMembersOf? input) := by
  rw [membersOf?]
  split
  · rename_i heq
    simp only [heq]
    rfl
  · simp only

/-- The member at the front of a list, and what follows. -/
def memberOf? (input : List Char) : Option ((Option String × Json) × List Char) :=
  match skipBlanks input with
  | '"' :: rest =>
    (outcome (stringOf? rest)).bind fun key =>
      match skipBlanks key.2 with
      | ':' :: rest => (outcome (valueOf? rest)).map fun value => ((key.1, value.1), value.2)
      | _ => none
  | _ => none

theorem outcome_moreMembersOf? (input : List Char) :
    outcome (moreMembersOf? input) =
      (memberOf? input).bind fun first =>
        match skipBlanks first.2 with
        | ',' :: rest =>
          (outcome (moreMembersOf? rest)).map fun others => (first.1 :: others.1, others.2)
        | '\x7d' :: rest => some ([first.1], rest)
        | _ => none := by
  rw [moreMembersOf?, memberOf?]
  split
  case h_2 =>
    simp only
    rfl
  case h_1 rest heq =>
    simp only [heq]
    cases stringOf? rest with
    | none => rfl
    | some key =>
      simp only [Option.bind_eq_bind, Option.bind_some, outcome, Option.map_some]
      split
      case h_2 =>
        simp only
        rfl
      case h_1 rest heq =>
        simp only [heq]
        cases valueOf? rest with
        | none => rfl
        | some value =>
          simp only [Option.bind_some, Option.map_some]
          split
          case h_1 heq =>
            simp only [heq]
            exact Parsed.outcome_map_weaken _ _ _
          case h_2 heq =>
            simp only [heq]
            rfl
          case h_3 =>
            simp only
            rfl

/-! ## What the grammar has is read -/

/-- What may follow a value and the white space behind it. -/
def Closes (rest : List Char) : Prop := ∀ c ∈ rest.head?, c = ',' ∨ c = ']' ∨ c = '\x7d'

theorem closes_comma (rest : List Char) : Closes (',' :: rest) := by
  rintro _ ⟨⟩
  exact .inl rfl

theorem closes_bracket (rest : List Char) : Closes (']' :: rest) := by
  rintro _ ⟨⟩
  exact .inr (.inl rfl)

theorem closes_brace (rest : List Char) : Closes ('\x7d' :: rest) := by
  rintro _ ⟨⟩
  exact .inr (.inr rfl)

theorem Closes.endsNumber (h : Closes rest) {after : List Char} (hafter : Blank after) :
    EndsNumber (after ++ rest) := by
  cases after with
  | nil =>
    intro c hc
    obtain rfl | rfl | rfl := h c hc <;> decide
  | cons d after =>
    rintro c ⟨⟩
    obtain rfl | rfl | rfl | rfl := hafter d List.mem_cons_self <;> decide

/-- An array is read behind its bracket. -/
theorem outcome_valueOf?_bracket (hbefore : Blank before) (tail : List Char) :
    outcome (valueOf? (before ++ '[' :: tail)) =
      (outcome (itemsOf? tail)).map fun read => (.array read.1, read.2) := by
  rw [outcome_valueOf?, skipBlanks_cons hbefore (by decide)]
  rfl

/-- An object is read behind its brace. -/
theorem outcome_valueOf?_brace (hbefore : Blank before) (tail : List Char) :
    outcome (valueOf? (before ++ '\x7b' :: tail)) =
      (outcome (membersOf? tail)).map fun read => (.object read.1, read.2) := by
  rw [outcome_valueOf?, skipBlanks_cons hbefore (by decide)]
  rfl

/-- No item begins with a bracket that ends an array. -/
theorem outcome_itemsOf?_of_some {items : List Json}
    (h : outcome (moreItemsOf? input) = some (items, rest)) :
    outcome (itemsOf? input) = some (items, rest) := by
  rw [outcome_itemsOf?]
  split
  case h_2 => exact h
  case h_1 tail hskip =>
    -- An item would have to be a number here, and no number begins with a bracket.
    rw [outcome_moreItemsOf?] at h
    obtain ⟨⟨value, behind⟩, hvalue, -⟩ := Option.bind_eq_some_iff.1 h
    rw [outcome_valueOf?, hskip] at hvalue
    obtain ⟨chars, -, hnumber, happend⟩ := number_of_outcome hvalue
    obtain ⟨c, hc, hbegins⟩ := hnumber.head
    have hhead := congrArg List.head? happend
    rw [List.head?_append, hc] at hhead
    cases hhead
    exact absurd hbegins (by decide)

/-- No member begins with a brace. -/
theorem outcome_membersOf?_of_some {members : List (Option String × Json)}
    (h : outcome (moreMembersOf? input) = some (members, rest)) :
    outcome (membersOf? input) = some (members, rest) := by
  rw [outcome_membersOf?]
  split
  case h_2 => exact h
  case h_1 tail hskip =>
    rw [outcome_moreMembersOf?, memberOf?, hskip] at h
    cases h

/-- The reader reads a text as a phrase, wherever the text stands. -/
def Phrase.IsRead : Phrase → List Char → Prop
  | .value v, chars => ∀ before rest, Blank before → EndsNumber rest →
      outcome (valueOf? (before ++ (chars ++ rest))) = some (v, rest)
  | .element v, chars => ∀ rest, Closes rest →
      ∃ after, Blank after ∧ outcome (valueOf? (chars ++ rest)) = some (v, after ++ rest)
  | .items vs, chars => ∀ rest, outcome (moreItemsOf? (chars ++ ']' :: rest)) = some (vs, rest)
  | .member key v, chars => ∀ rest, Closes rest →
      ∃ after, Blank after ∧ memberOf? (chars ++ rest) = some ((key, v), after ++ rest)
  | .members ms, chars =>
    ∀ rest, outcome (moreMembersOf? (chars ++ '\x7d' :: rest)) = some (ms, rest)

theorem isRead_number (h : IsNumber chars) : Phrase.IsRead (.value (.number chars)) chars := by
  intro before rest hbefore hrest
  obtain ⟨c, hc, hbegins⟩ := h.head
  obtain ⟨others, rfl⟩ := List.head?_eq_some_iff.1 hc
  -- Neither white space nor what any other value begins with.
  have hspace : ¬ IsSpace c := by
    rintro (rfl | rfl | rfl | rfl) <;> exact absurd hbegins (by decide)
  rw [outcome_valueOf?, List.cons_append, skipBlanks_cons hbefore hspace]
  split
  case h_7 => exact outcome_numberOf?_append h hrest
  all_goals
    rename_i heq
    obtain ⟨rfl, -⟩ := List.cons.inj heq
    exact absurd hbegins (by decide)

/-- What spells a phrase is read as it. -/
theorem Spells.isRead {phrase : Phrase} (h : Spells phrase chars) : phrase.IsRead chars := by
  induction h with
  | null | true | false =>
    intro before rest hbefore _
    rw [outcome_valueOf?, List.cons_append, skipBlanks_cons hbefore (by decide)]
    rfl
  | number hnumber => exact isRead_number hnumber
  | string hname =>
    intro before rest hbefore _
    obtain ⟨tail, hquote, hread⟩ := hname.isRead rest
    rw [outcome_valueOf?, hquote, skipBlanks_cons hbefore (by decide)]
    simp only [hread, Option.map_some]
  | emptyArray hblank =>
    intro before rest hbefore _
    rw [List.cons_append, outcome_valueOf?_bracket hbefore, List.append_assoc, outcome_itemsOf?,
      List.singleton_append, skipBlanks_cons hblank (by decide)]
    rfl
  | array _ ih =>
    intro before rest hbefore _
    rw [List.cons_append, outcome_valueOf?_bracket hbefore, List.append_assoc,
      List.singleton_append, outcome_itemsOf?_of_some (ih rest)]
    rfl
  | emptyObject hblank =>
    intro before rest hbefore _
    rw [List.cons_append, outcome_valueOf?_brace hbefore, List.append_assoc, outcome_membersOf?,
      List.singleton_append, skipBlanks_cons hblank (by decide)]
    rfl
  | object _ ih =>
    intro before rest hbefore _
    rw [List.cons_append, outcome_valueOf?_brace hbefore, List.append_assoc,
      List.singleton_append, outcome_membersOf?_of_some (ih rest)]
    rfl
  | element hbefore _ hafter ih =>
    -- The white space behind the value ends it, or else the character that closes does.
    intro rest hrest
    refine ⟨_, hafter, ?_⟩
    rw [List.append_assoc, List.append_assoc]
    exact ih _ _ hbefore (hrest.endsNumber hafter)
  | lastItem _ ih =>
    intro rest
    obtain ⟨after, hafter, hread⟩ := ih _ (closes_bracket rest)
    rw [outcome_moreItemsOf?, hread, Option.bind_some]
    simp only [skipBlanks_cons hafter (c := ']') (by decide)]
  | item _ _ ih ihothers =>
    intro rest
    obtain ⟨after, hafter, hread⟩ := ih _ (closes_comma _)
    rw [List.append_assoc, List.cons_append, outcome_moreItemsOf?, hread, Option.bind_some]
    simp only [skipBlanks_cons hafter (c := ',') (by decide), ihothers rest, Option.map_some]
  | member hbefore hname hafter _ ih =>
    intro rest hrest
    obtain ⟨behind, hbehind, hread⟩ := ih rest hrest
    refine ⟨behind, hbehind, ?_⟩
    simp only [List.append_assoc, List.cons_append]
    obtain ⟨tail, hquote, hkey⟩ := hname.isRead _
    rw [hquote, memberOf?, skipBlanks_cons hbefore (by decide)]
    simp only [hkey, Option.bind_some, skipBlanks_cons hafter (c := ':') (by decide), hread,
      Option.map_some]
  | lastMember _ ih =>
    intro rest
    obtain ⟨after, hafter, hread⟩ := ih _ (closes_brace rest)
    rw [outcome_moreMembersOf?, hread, Option.bind_some]
    simp only [skipBlanks_cons hafter (c := '\x7d') (by decide)]
  | members _ _ ih ihothers =>
    intro rest
    obtain ⟨after, hafter, hread⟩ := ih _ (closes_comma _)
    rw [List.append_assoc, List.cons_append, outcome_moreMembersOf?, hread, Option.bind_some]
    simp only [skipBlanks_cons hafter (c := ',') (by decide), ihothers rest, Option.map_some]

/-! ## What is read is in the grammar -/

/-- What the reader takes off a list is in the grammar. -/
structure IsSound (input : List Char) : Prop where
  /-- A value, with white space before it. -/
  value : ∀ {v rest}, outcome (valueOf? input) = some (v, rest) →
    ∃ before chars, Blank before ∧ Spells (.value v) chars ∧ input = before ++ (chars ++ rest)
  /-- Items, up to the bracket behind them. -/
  items : ∀ {vs rest}, outcome (moreItemsOf? input) = some (vs, rest) →
    ∃ chars, Spells (.items vs) chars ∧ input = chars ++ ']' :: rest
  /-- Members, up to the brace behind them. -/
  members : ∀ {ms rest}, outcome (moreMembersOf? input) = some (ms, rest) →
    ∃ chars, Spells (.members ms) chars ∧ input = chars ++ '\x7d' :: rest

/-- An array is sound if its items are. -/
theorem IsSound.array {tail : List Char} (h : IsSound tail) {items : List Json}
    (hread : outcome (itemsOf? tail) = some (items, rest)) :
    ∃ chars, Spells (.value (.array items)) chars ∧ '[' :: tail = chars ++ rest := by
  rw [outcome_itemsOf?] at hread
  split at hread
  case h_1 hskip =>
    cases hread
    obtain ⟨blank, hblank, htail⟩ := exists_skipBlanks tail
    rw [hskip] at htail
    exact ⟨_, .emptyArray hblank, by simp [← htail]⟩
  case h_2 =>
    obtain ⟨chars, hspells, htail⟩ := h.items hread
    exact ⟨_, .array hspells, by simp [htail]⟩

/-- An object is sound if its members are. -/
theorem IsSound.object {tail : List Char} (h : IsSound tail)
    {members : List (Option String × Json)}
    (hread : outcome (membersOf? tail) = some (members, rest)) :
    ∃ chars, Spells (.value (.object members)) chars ∧ '\x7b' :: tail = chars ++ rest := by
  rw [outcome_membersOf?] at hread
  split at hread
  case h_1 hskip =>
    cases hread
    obtain ⟨blank, hblank, htail⟩ := exists_skipBlanks tail
    rw [hskip] at htail
    exact ⟨_, .emptyObject hblank, by simp [← htail]⟩
  case h_2 =>
    obtain ⟨chars, hspells, htail⟩ := h.members hread
    exact ⟨_, .object hspells, by simp [htail]⟩

/-! In the following the reader is sound on all lists that are shorter. -/

section

variable (ih : ∀ tail : List Char, tail.length < input.length → IsSound tail)
include ih

theorem exists_spells_value {v : Json} (h : outcome (valueOf? input) = some (v, rest)) :
    ∃ before chars, Blank before ∧ Spells (.value v) chars ∧ input = before ++ (chars ++ rest) := by
  obtain ⟨before, hbefore, hinput⟩ := exists_skipBlanks input
  suffices hchars : ∃ chars, Spells (.value v) chars ∧ skipBlanks input = chars ++ rest by
    obtain ⟨chars, hspells, hskip⟩ := hchars
    exact ⟨before, chars, hbefore, hspells, by rw [← hskip, hinput]⟩
  have hshorter : ∀ {c tail}, skipBlanks input = c :: tail → tail.length < input.length := by
    intro c tail hskip
    rw [← hinput, hskip, List.length_append, List.length_cons]
    omega
  rw [outcome_valueOf?] at h
  split at h
  case h_1 hskip =>
    cases h
    exact ⟨_, .null, hskip⟩
  case h_2 hskip =>
    cases h
    exact ⟨_, .true, hskip⟩
  case h_3 hskip =>
    cases h
    exact ⟨_, .false, hskip⟩
  case h_4 tail hskip =>
    obtain ⟨⟨text, _⟩, hread, ⟨⟩⟩ := Option.map_eq_some_iff.1 h
    obtain ⟨name, hname, hspells⟩ := outcome_stringOf?_eq_some_iff.1 hread
    exact ⟨name, .string hspells, hskip.trans hname⟩
  case h_5 tail hskip =>
    obtain ⟨⟨items, _⟩, hread, ⟨⟩⟩ := Option.map_eq_some_iff.1 h
    rw [hskip]
    exact (ih tail (hshorter hskip)).array hread
  case h_6 tail hskip =>
    obtain ⟨⟨members, _⟩, hread, ⟨⟩⟩ := Option.map_eq_some_iff.1 h
    rw [hskip]
    exact (ih tail (hshorter hskip)).object hread
  case h_7 =>
    obtain ⟨chars, rfl, hnumber, hskip⟩ := number_of_outcome h
    exact ⟨chars, .number hnumber, hskip⟩

/-- A value with the white space around it, in front of a character that is none. -/
theorem exists_spells_element {v : Json} {behind tail : List Char} {c : Char}
    (h : outcome (valueOf? input) = some (v, behind)) (hskip : skipBlanks behind = c :: tail) :
    ∃ chars, Spells (.element v) chars ∧ input = chars ++ c :: tail := by
  obtain ⟨before, chars, hbefore, hspells, hinput⟩ := exists_spells_value ih h
  obtain ⟨after, hafter, hbehind⟩ := exists_skipBlanks behind
  rw [hskip] at hbehind
  exact ⟨_, .element hbefore hspells hafter, by simp [hinput, ← hbehind]⟩

/-- A member, in front of a character that is no white space. -/
theorem exists_spells_member {m : Option String × Json} {behind tail : List Char} {c : Char}
    (h : memberOf? input = some (m, behind)) (hskip : skipBlanks behind = c :: tail) :
    ∃ chars, Spells (.member m.1 m.2) chars ∧ input = chars ++ c :: tail := by
  rw [memberOf?] at h
  split at h
  case h_2 => exact nomatch h
  case h_1 rest hquote =>
  obtain ⟨⟨key, afterKey⟩, hkey, h⟩ := Option.bind_eq_some_iff.1 h
  simp only at h
  split at h
  case h_2 => exact nomatch h
  case h_1 rest' hcolon =>
  obtain ⟨⟨value, _⟩, hvalue, ⟨⟩⟩ := Option.map_eq_some_iff.1 h
  obtain ⟨before, hbefore, hinput⟩ := exists_skipBlanks input
  obtain ⟨name, hname, hspells⟩ := outcome_stringOf?_eq_some_iff.1 hkey
  obtain ⟨after, hafter, hafterKey⟩ := exists_skipBlanks afterKey
  rw [hcolon] at hafterKey
  rw [hquote, hname, ← hafterKey] at hinput
  -- Behind the colon the list is shorter, so the value there is sound with all that it contains.
  have hshorter : rest'.length < input.length := by
    rw [← hinput]
    simp only [List.length_append, List.length_cons]
    omega
  have ih' : ∀ tail : List Char, tail.length < rest'.length → IsSound tail :=
    fun tail htail => ih tail (Nat.lt_trans htail hshorter)
  obtain ⟨chars, helement, hrest⟩ := exists_spells_element ih' hvalue hskip
  exact ⟨_, .member hbefore hspells hafter helement, by simp [← hinput, hrest]⟩

theorem exists_spells_items {items : List Json}
    (h : outcome (moreItemsOf? input) = some (items, rest)) :
    ∃ chars, Spells (.items items) chars ∧ input = chars ++ ']' :: rest := by
  rw [outcome_moreItemsOf?] at h
  obtain ⟨⟨value, behind⟩, hvalue, h⟩ := Option.bind_eq_some_iff.1 h
  simp only at h
  split at h
  case h_1 tail hskip =>
    obtain ⟨⟨others, _⟩, hothers, ⟨⟩⟩ := Option.map_eq_some_iff.1 h
    obtain ⟨chars, hspells, rfl⟩ := exists_spells_element ih hvalue hskip
    obtain ⟨chars', hspells', rfl⟩ := (ih tail (by simp; omega)).items hothers
    exact ⟨_, .item hspells hspells', by simp⟩
  case h_2 tail hskip =>
    cases h
    obtain ⟨chars, hspells, hinput⟩ := exists_spells_element ih hvalue hskip
    exact ⟨chars, .lastItem hspells, hinput⟩
  case h_3 => exact nomatch h

theorem exists_spells_members {members : List (Option String × Json)}
    (h : outcome (moreMembersOf? input) = some (members, rest)) :
    ∃ chars, Spells (.members members) chars ∧ input = chars ++ '\x7d' :: rest := by
  rw [outcome_moreMembersOf?] at h
  obtain ⟨⟨member, behind⟩, hmember, h⟩ := Option.bind_eq_some_iff.1 h
  simp only at h
  split at h
  case h_1 tail hskip =>
    obtain ⟨⟨others, _⟩, hothers, ⟨⟩⟩ := Option.map_eq_some_iff.1 h
    obtain ⟨chars, hspells, rfl⟩ := exists_spells_member ih hmember hskip
    obtain ⟨chars', hspells', rfl⟩ := (ih tail (by simp; omega)).members hothers
    exact ⟨_, .members hspells hspells', by simp⟩
  case h_2 tail hskip =>
    cases h
    obtain ⟨chars, hspells, hinput⟩ := exists_spells_member ih hmember hskip
    exact ⟨chars, .lastMember hspells, hinput⟩
  case h_3 => exact nomatch h

end

/-- Whatever the reader takes off a list is in the grammar. -/
theorem isSound (input : List Char) : IsSound input := by
  induction hlength : input.length using Nat.strongRecOn generalizing input with
  | ind n ih =>
  have hshorter : ∀ tail : List Char, tail.length < input.length → IsSound tail :=
    fun tail htail => ih _ (hlength ▸ htail) tail rfl
  exact ⟨exists_spells_value hshorter, exists_spells_items hshorter, exists_spells_members hshorter⟩

/-! ## Texts -/

/-- **The reader reads JSON.** A text is read as a value if it spells it, with nothing but white
space around it, and no other text is read. -/
theorem ofText?_eq_some_iff {text : String} {value : Json} :
    ofText? text = some value ↔ Spells (.element value) text.toList := by
  have hread : ofText? text = (outcome (valueOf? text.toList)).bind fun read =>
      if skipBlanks read.2 = [] then some read.1 else none := by
    rw [ofText?]
    cases valueOf? text.toList <;> rfl
  rw [hread, Option.bind_eq_some_iff]
  constructor
  · rintro ⟨⟨_, rest⟩, hvalue, h⟩
    obtain ⟨hskip, ⟨⟩⟩ := Option.ite_none_right_eq_some.1 h
    obtain ⟨before, chars, hbefore, hspells, htext⟩ := (isSound text.toList).value hvalue
    obtain ⟨after, hafter, hrest⟩ := exists_skipBlanks rest
    rw [hskip, List.append_nil] at hrest
    rw [htext, ← hrest, ← List.append_assoc]
    exact .element hbefore hspells hafter
  · intro hspells
    obtain ⟨after, hafter, hvalue⟩ := hspells.isRead [] nofun
    rw [List.append_nil text.toList] at hvalue
    exact ⟨_, hvalue, if_pos (@skipBlanks_of_head [] after hafter nofun)⟩

end Calculator.Json
