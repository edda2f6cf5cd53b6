import Calculator.Proofs.Json.Reader

/-!
# What is written is JSON

The compact text of a value spells it, if its numbers are numbers and its strings and names have a
text (`Printable`). It is then read back as the value.
-/

namespace Calculator.Json

/-! ## Strings -/

theorem hexValue?_hexDigit : ∀ n < 16, Text.hexValue? (Text.hexDigit n) = some n := by decide

/-- A character is written in a way that spells its code units. -/
theorem spellsUnits_escapeChar (c : Char) {chars : List Char} {units : List Nat}
    (h : SpellsUnits chars units) :
    SpellsUnits (escapeChar c ++ chars) (codeUnits c.toNat ++ units) := by
  have escape : ∀ {mark d}, Escape mark d → c = d →
      SpellsUnits ('\\' :: mark :: chars) (codeUnits c.toNat ++ units) := by
    rintro mark _ hescape rfl
    have hlt := hescape.lt
    rw [codeUnits_of_lt (by omega)]
    exact .escape hescape h
  fun_cases escapeChar c
  case case1 hc => exact escape .quote hc
  case case2 hc => exact escape .backslash hc
  case case3 hc => exact escape .backspace hc
  case case4 hc => exact escape .formFeed hc
  case case5 hc => exact escape .newLine hc
  case case6 hc => exact escape .carriageReturn hc
  case case7 hc => exact escape .tab hc
  case case8 hcontrol =>
    have hzero : Text.hexValue? '0' = some 0 := rfl
    have hhigh := hexValue?_hexDigit (c.toNat / 16) (by omega)
    have hlow := hexValue?_hexDigit (c.toNat % 16) (by omega)
    have hunit := SpellsUnits.unit hzero hzero hhigh hlow h
    have hvalue : 0 * 0x1000 + 0 * 0x100 + c.toNat / 16 * 0x10 + c.toNat % 16 = c.toNat := by omega
    rw [hvalue] at hunit
    rw [codeUnits_of_lt (by omega)]
    exact hunit
  case case9 hquote hslash _ _ _ _ _ hcontrol =>
    exact .char hquote hslash (Nat.le_of_not_lt hcontrol) h

theorem spellsString_quote (text : String) : SpellsString (quote text.toList) (some text) := by
  have hunits : ∀ chars : List Char, SpellsUnits (chars.flatMap escapeChar) (utf16 chars) := by
    intro chars
    induction chars with
    | nil => exact .nil
    | cons c chars ih => exact spellsUnits_escapeChar c ih
  exact .quoted (hunits _) rfl

/-! ## Values -/

/-- A value that can be written: its numbers are spelled as numbers, and its strings and the names
of its members have a text. -/
inductive Printable : Json → Prop where
  | null : Printable .null
  | bool (value : Bool) : Printable (.bool value)
  | number {spelling} : IsNumber spelling → Printable (.number spelling)
  | string (text : String) : Printable (.ofString text)
  | array {items} : (∀ item ∈ items, Printable item) → Printable (.array items)
  | object {members} : (∀ m ∈ members, m.1 ≠ none) → (∀ m ∈ members, Printable m.2) →
      Printable (.object members)

/-- A value without white space. -/
theorem Spells.bare {value : Json} {chars : List Char} (h : Spells (.value value) chars) :
    Spells (.element value) chars := by
  have helement := @Spells.element [] value chars [] nofun h nofun
  rwa [List.nil_append, List.append_nil] at helement

theorem spells_compactItems {first : Json} {others : List Json}
    (h : ∀ item ∈ first :: others, Spells (.value item) item.compact) :
    Spells (.items (first :: others)) (compactItems (first :: others)) := by
  induction others generalizing first with
  | nil => exact .lastItem (h _ List.mem_cons_self).bare
  | cons second others ih =>
    rw [List.forall_mem_cons] at h
    exact .item h.1.bare (ih h.2)

/-- A member without white space. -/
theorem spells_compactMember {m : Option String × Json} (hkey : m.1 ≠ none)
    (hvalue : Spells (.value m.2) m.2.compact) :
    Spells (.member m.1 m.2) (stringChars m.1 ++ ':' :: m.2.compact) := by
  obtain ⟨key, value⟩ := m
  obtain ⟨text, rfl⟩ := Option.ne_none_iff_exists'.1 hkey
  have hmember := @Spells.member [] _ _ [] _ _ nofun (spellsString_quote text) nofun hvalue.bare
  rwa [List.nil_append, List.append_nil] at hmember

theorem spells_compactMembers {first : Option String × Json} {others : List (Option String × Json)}
    (hkeys : ∀ m ∈ first :: others, m.1 ≠ none)
    (hvalues : ∀ m ∈ first :: others, Spells (.value m.2) m.2.compact) :
    Spells (.members (first :: others)) (compactMembers (first :: others)) := by
  induction others generalizing first with
  | nil => exact .lastMember (spells_compactMember (hkeys _ List.mem_cons_self)
      (hvalues _ List.mem_cons_self))
  | cons second others ih =>
    rw [List.forall_mem_cons] at hkeys hvalues
    have hmembers := Spells.members (spells_compactMember hkeys.1 hvalues.1)
      (ih hkeys.2 hvalues.2)
    rwa [List.append_assoc] at hmembers

/-- The compact text of a value spells it. -/
theorem Printable.spells {value : Json} (h : Printable value) :
    Spells (.value value) value.compact := by
  induction h with
  | null => exact .null
  | bool value =>
    cases value
    · exact .false
    · exact .true
  | number h => exact .number h
  | string text => exact .string (spellsString_quote text)
  | @array items _ ih =>
    cases items with
    | nil => exact @Spells.emptyArray [] nofun
    | cons first others => exact .array (spells_compactItems ih)
  | @object members hkeys _ ih =>
    cases members with
    | nil => exact @Spells.emptyObject [] nofun
    | cons first others => exact .object (spells_compactMembers hkeys ih)

/-- What is written is read back. -/
theorem ofText?_text {value : Json} (h : Printable value) : ofText? value.text = some value := by
  rw [ofText?_eq_some_iff, text, String.toList_ofList]
  exact h.spells.bare

end Calculator.Json
