import Calculator.Json.Reader
import Calculator.Proofs.Json.Grammar

/-!
# Strings are read as the grammar has them

The reader keeps a character that stands for itself as one number and an escape as another, and
joins the halves of surrogate pairs afterwards. The numbers have the code units of the grammar
(`SpellsUnits.unitsOf?`, `spellsUnits_of_unitsOf?`), and what they are joined to is the text with
these units (`charsOfUnits?_eq_some_iff`). That there is only one such text is the unambiguity of
UTF-16: no character's units begin another's (`utf16_eq_append_iff`).
-/

namespace Calculator.Json

open Parsed (outcome)

/-! ## The units of a text -/

/-- The code points that are characters are those of no surrogate. -/
theorem toNat_cases (c : Char) :
    c.toNat < 0xD800 ∨ (0xDFFF < c.toNat ∧ c.toNat < 0x110000) := c.valid

theorem toNat_ofNat {n : Nat} (h : n < 0xD800 ∨ (0xDFFF < n ∧ n < 0x110000)) :
    (Char.ofNat n).toNat = n := by
  have hvalid : n.isValidChar := h
  rw [Char.ofNat, dif_pos hvalid]
  rfl

theorem isHighSurrogate_iff {n : Nat} : isHighSurrogate n = true ↔ 0xD800 ≤ n ∧ n < 0xDC00 := by
  simp [isHighSurrogate]

theorem isLowSurrogate_iff {n : Nat} : isLowSurrogate n = true ↔ 0xDC00 ≤ n ∧ n < 0xE000 := by
  simp [isLowSurrogate]

@[simp] theorem utf16_cons (c : Char) (text : List Char) :
    utf16 (c :: text) = codeUnits c.toNat ++ utf16 text := List.flatMap_cons

theorem codeUnits_of_lt {n : Nat} (h : n < 0x10000) : codeUnits n = [n] := if_pos h

theorem codeUnits_of_ge {n : Nat} (h : 0x10000 ≤ n) :
    codeUnits n = [0xD800 + (n - 0x10000) / 0x400, 0xDC00 + (n - 0x10000) % 0x400] :=
  if_neg (by omega)

theorem codeUnits_ne_nil (n : Nat) : codeUnits n ≠ [] := by
  rw [codeUnits]
  split <;> nofun

/-- No character's units begin another's, so a text is read off its units character by character. -/
theorem utf16_eq_append_iff {text : List Char} {c : Char} {units : List Nat} :
    utf16 text = codeUnits c.toNat ++ units ↔
      ∃ others, text = c :: others ∧ utf16 others = units := by
  refine ⟨fun h => ?_, fun ⟨others, htext, hunits⟩ => by rw [htext, utf16_cons, hunits]⟩
  cases text with
  | nil => exact absurd (List.append_eq_nil_iff.1 h.symm).1 (codeUnits_ne_nil _)
  | cons d others =>
    rw [utf16_cons] at h
    have hc := toNat_cases c
    have hd := toNat_cases d
    have heq : c.toNat = d.toNat ∧ utf16 others = units := by
      -- A character with one unit and one with two differ in the first, which is a surrogate or not.
      by_cases hsmall : c.toNat < 0x10000 <;> by_cases hsmall' : d.toNat < 0x10000
      · simp only [codeUnits_of_lt, hsmall, hsmall', List.cons_append, List.nil_append,
          List.cons.injEq] at h
        exact ⟨h.1.symm, h.2⟩
      · simp only [codeUnits_of_lt, hsmall, codeUnits_of_ge (Nat.le_of_not_lt hsmall'),
          List.cons_append, List.nil_append, List.cons.injEq] at h
        omega
      · simp only [codeUnits_of_lt, hsmall', codeUnits_of_ge (Nat.le_of_not_lt hsmall),
          List.cons_append, List.nil_append, List.cons.injEq] at h
        omega
      · simp only [codeUnits_of_ge (Nat.le_of_not_lt hsmall'),
          codeUnits_of_ge (Nat.le_of_not_lt hsmall), List.cons_append, List.nil_append,
          List.cons.injEq] at h
        exact ⟨by omega, h.2.2⟩
    exact ⟨others, by rw [Char.toNat_inj.1 heq.1], heq.2⟩

/-- The second half of a surrogate pair does not come first. -/
theorem utf16_ne_low {n : Nat} (h : isLowSurrogate n = true) (text : List Char) (units : List Nat) :
    utf16 text ≠ n :: units := by
  rw [isLowSurrogate_iff] at h
  cases text with
  | nil => nofun
  | cons c others =>
    have hc := toNat_cases c
    intro heq
    rw [utf16_cons, codeUnits] at heq
    split at heq <;>
      simp only [List.cons_append, List.nil_append, List.cons.injEq] at heq <;> omega

/-- The first half of a surrogate pair comes before a second one. -/
theorem isLowSurrogate_of_utf16 {n : Nat} {text : List Char} {units : List Nat}
    (h : isHighSurrogate n = true) (heq : utf16 text = n :: units) :
    ∃ m others, units = m :: others ∧ isLowSurrogate m = true := by
  rw [isHighSurrogate_iff] at h
  cases text with
  | nil => exact nomatch heq
  | cons c others =>
    have hc := toNat_cases c
    rw [utf16_cons, codeUnits] at heq
    split at heq <;> simp only [List.cons_append, List.nil_append, List.cons.injEq] at heq
    · omega
    · exact ⟨_, _, heq.2.symm, isLowSurrogate_iff.2 (by omega)⟩

/-! ## The text of units -/

theorem utf16_eq_nil_iff {text : List Char} : utf16 text = [] ↔ text = [] := by
  cases text with
  | nil => exact ⟨fun _ => rfl, fun _ => rfl⟩
  | cons c others => simp [codeUnits_ne_nil]

/-- A number that is no surrogate is read as the character with this number. -/
theorem map_ofNat_eq_some_iff {n : Nat} (hn : n < 0xD800 ∨ (0xDFFF < n ∧ n < 0x110000))
    {read : Option (List Char)} {units : List Nat}
    (ih : ∀ others, read = some others ↔ utf16 others = units) (text : List Char) :
    read.map (Char.ofNat n :: ·) = some text ↔ utf16 text = codeUnits n ++ units := by
  have hstep : utf16 text = codeUnits n ++ units ↔
      ∃ others, text = Char.ofNat n :: others ∧ utf16 others = units := by
    rw [← utf16_eq_append_iff, toNat_ofNat hn]
  rw [hstep, Option.map_eq_some_iff]
  simp only [ih, and_comm, eq_comm]

/-- The character that a surrogate pair names has the pair as its units. -/
theorem codeUnits_pair {n m : Nat} (hn : isHighSurrogate n = true) (hm : isLowSurrogate m = true) :
    codeUnits (0x10000 + (n - 0xD800) * 0x400 + (m - 0xDC00)) = [n, m] := by
  rw [isHighSurrogate_iff] at hn
  rw [isLowSurrogate_iff] at hm
  rw [codeUnits_of_ge (by omega), List.cons.injEq, List.cons.injEq]
  exact ⟨by omega, by omega, rfl⟩

/-- The reader joins the halves of surrogate pairs to the text that has all the units. -/
theorem charsOfUnits?_eq_some_iff {points : List Nat} (h : ∀ n ∈ points, n < 0x110000)
    (text : List Char) :
    charsOfUnits? points = some text ↔ utf16 text = points.flatMap codeUnits := by
  fun_induction charsOfUnits? points generalizing text with
  | case1 => rw [List.flatMap_nil, utf16_eq_nil_iff, Option.some_inj, eq_comm]
  | case2 n hsurrogate =>
    rw [Bool.or_eq_true] at hsurrogate
    rw [List.flatMap_cons, List.flatMap_nil]
    refine ⟨nofun, fun heq => ?_⟩
    obtain hhigh | hlow := hsurrogate
    · rw [codeUnits_of_lt (by rw [isHighSurrogate_iff] at hhigh; omega)] at heq
      obtain ⟨_, _, hnil, _⟩ := isLowSurrogate_of_utf16 hhigh heq
      exact nomatch hnil
    · rw [codeUnits_of_lt (by rw [isLowSurrogate_iff] at hlow; omega)] at heq
      exact absurd heq (utf16_ne_low hlow _ _)
  | case3 n hplain =>
    rw [Bool.or_eq_true, isHighSurrogate_iff, isLowSurrogate_iff] at hplain
    have hn := h n List.mem_cons_self
    rw [List.flatMap_cons, List.flatMap_nil]
    have hnil : ∀ others, some [] = some others ↔ utf16 others = [] := fun others => by
      rw [utf16_eq_nil_iff, Option.some_inj, eq_comm]
    exact map_ofNat_eq_some_iff (by omega) hnil text
  | case4 n m rest hhigh hlow ih =>
    -- The two halves are the units of one character, which is no surrogate.
    rw [List.forall_mem_cons, List.forall_mem_cons] at h
    have hpair := codeUnits_pair hhigh hlow
    rw [isHighSurrogate_iff] at hhigh
    rw [isLowSurrogate_iff] at hlow
    rw [List.flatMap_cons, List.flatMap_cons, codeUnits_of_lt (n := n) (by omega),
      codeUnits_of_lt (n := m) (by omega), ← List.append_assoc, List.singleton_append, ← hpair]
    exact map_ofNat_eq_some_iff (by omega) (ih h.2.2) text
  | case5 n m rest hhigh hlow =>
    -- The first half lacks its second: a character that needs a pair begins with a first half too.
    have hm := h m (List.mem_cons_of_mem _ List.mem_cons_self)
    refine ⟨nofun, fun heq => ?_⟩
    rw [List.flatMap_cons, List.flatMap_cons,
      codeUnits_of_lt (n := n) (by rw [isHighSurrogate_iff] at hhigh; omega),
      List.singleton_append] at heq
    obtain ⟨m', others, hrest, hlow'⟩ := isLowSurrogate_of_utf16 hhigh heq
    rw [codeUnits] at hrest
    split at hrest <;> simp only [List.cons_append, List.nil_append, List.cons.injEq] at hrest
    · exact absurd (hrest.1 ▸ hlow') hlow
    · rw [isLowSurrogate_iff] at hlow'
      omega
  | case6 n m rest hhigh hlow =>
    refine ⟨nofun, fun heq => ?_⟩
    rw [List.flatMap_cons, codeUnits_of_lt (by rw [isLowSurrogate_iff] at hlow; omega)] at heq
    exact absurd heq (utf16_ne_low hlow _ _)
  | case7 n m rest hhigh hlow ih =>
    rw [List.forall_mem_cons] at h
    rw [isHighSurrogate_iff] at hhigh
    rw [isLowSurrogate_iff] at hlow
    rw [List.flatMap_cons]
    exact map_ofNat_eq_some_iff (by omega) (ih h.2) text

/-! ## The units that are read -/

theorem simpleEscape?_eq_some_iff {mark c : Char} :
    simpleEscape? mark = some c ↔ Escape mark c := by
  fun_cases simpleEscape? mark
  case case9 => exact ⟨nofun, fun h => by cases h <;> contradiction⟩
  all_goals exact ⟨fun h => by cases h; constructor, fun h => by cases h; rfl⟩

theorem Escape.lt {mark c : Char} (h : Escape mark c) : c.toNat < 0x80 := by
  cases h <;> decide

theorem hexValue?_lt (c : Char) : ∀ n ∈ Text.hexValue? c, n < 16 := by
  have between : ∀ {a b : Char}, a ≤ c ∧ c ≤ b → a.toNat ≤ c.toNat ∧ c.toNat ≤ b.toNat :=
    fun h => ⟨UInt32.le_iff_toNat_le.1 h.1, UInt32.le_iff_toNat_le.1 h.2⟩
  fun_cases Text.hexValue? c
  case case4 => nofun
  all_goals rintro _ ⟨⟩
  case case1 hc =>
    have hc := @between '0' '9' (by simpa [Char.isDigit, Char.le_def] using hc)
    simp only [Char.reduceToNat] at hc ⊢
    omega
  case case2 hc | case3 hc =>
    have hc := between hc
    simp only [Char.reduceToNat] at hc ⊢
    omega

/-- Four digits to base 16 name 16 bits. -/
theorem codeUnit_lt {a b c d : Char} {i j k l : Nat} (ha : Text.hexValue? a = some i)
    (hb : Text.hexValue? b = some j) (hc : Text.hexValue? c = some k)
    (hd : Text.hexValue? d = some l) : i * 0x1000 + j * 0x100 + k * 0x10 + l < 0x10000 := by
  have hi := hexValue?_lt a i ha
  have hj := hexValue?_lt b j hb
  have hk := hexValue?_lt c k hc
  have hl := hexValue?_lt d l hd
  omega

theorem codeUnit?_eq_some_iff {a b c d : Char} {n : Nat} :
    codeUnit? a b c d = some n ↔ ∃ i j k l, Text.hexValue? a = some i ∧ Text.hexValue? b = some j ∧
      Text.hexValue? c = some k ∧ Text.hexValue? d = some l ∧
      i * 0x1000 + j * 0x100 + k * 0x10 + l = n := by
  simp only [codeUnit?, Option.bind_eq_bind, Option.bind_eq_some_iff, Option.pure_def,
    Option.some_inj]
  constructor
  · rintro ⟨i, hi, j, hj, k, hk, l, hl, rfl⟩
    exact ⟨i, j, k, l, hi, hj, hk, hl, by omega⟩
  · rintro ⟨i, j, k, l, hi, hj, hk, hl, rfl⟩
    exact ⟨i, hi, j, hj, k, hk, l, hl, by omega⟩

theorem unitsOf?_quote (rest : List Char) : outcome (unitsOf? ('"' :: rest)) = some ([], rest) := by
  rw [unitsOf?]
  rfl

theorem unitsOf?_unit (a b c d : Char) (input : List Char) :
    outcome (unitsOf? ('\\' :: 'u' :: a :: b :: c :: d :: input)) =
      (codeUnit? a b c d).bind fun unit =>
        (outcome (unitsOf? input)).map fun read => (unit :: read.1, read.2) := by
  rw [unitsOf?]
  cases codeUnit? a b c d with
  | none => rfl
  | some unit => exact Parsed.outcome_map_weaken _ _ _

theorem unitsOf?_escape {mark c : Char} (h : Escape mark c) (input : List Char) :
    outcome (unitsOf? ('\\' :: mark :: input)) =
      (outcome (unitsOf? input)).map fun read => (c.toNat :: read.1, read.2) := by
  rw [unitsOf?, simpleEscape?_eq_some_iff.2 h]
  · exact Parsed.outcome_map_weaken _ _ _
  · rintro _ _ _ _ _ rfl
    cases h

theorem unitsOf?_char {c : Char} (hquote : c ≠ '"') (hslash : c ≠ '\\') (hc : 0x20 ≤ c.toNat)
    (input : List Char) :
    outcome (unitsOf? (c :: input)) =
      (outcome (unitsOf? input)).map fun read => (c.toNat :: read.1, read.2) := by
  rw [unitsOf?]
  · rw [if_neg (by simp [hslash]; omega)]
    exact Parsed.outcome_map_weaken _ _ _
  · exact hquote
  · exact fun _ _ _ _ _ h => absurd h hslash
  · exact fun _ _ h => absurd h hslash

/-- The reader reads what spells code units up to the closing quote. -/
theorem SpellsUnits.unitsOf? {chars : List Char} {units : List Nat} (h : SpellsUnits chars units)
    (rest : List Char) :
    ∃ points, outcome (Json.unitsOf? (chars ++ '"' :: rest)) = some (points, rest) ∧
      points.flatMap codeUnits = units ∧ ∀ n ∈ points, n < 0x110000 := by
  induction h with
  | nil => exact ⟨[], unitsOf?_quote rest, rfl, nofun⟩
  | @char c chars units hquote hslash hc _ ih =>
    obtain ⟨points, hread, hunits, hbound⟩ := ih
    have hlt := toNat_cases c
    refine ⟨c.toNat :: points, ?_, by rw [List.flatMap_cons, hunits],
      List.forall_mem_cons.2 ⟨by omega, hbound⟩⟩
    rw [List.cons_append, unitsOf?_char hquote hslash hc, hread]
    rfl
  | @escape mark c chars units hescape _ ih =>
    obtain ⟨points, hread, hunits, hbound⟩ := ih
    have hlt := hescape.lt
    refine ⟨c.toNat :: points, ?_, ?_, List.forall_mem_cons.2 ⟨by omega, hbound⟩⟩
    · rw [List.cons_append, List.cons_append, unitsOf?_escape hescape, hread]
      rfl
    · rw [List.flatMap_cons, hunits, codeUnits_of_lt (by omega)]
      rfl
  | @unit a b c d i j k l chars units ha hb hc hd _ ih =>
    obtain ⟨points, hread, hunits, hbound⟩ := ih
    have hlt := codeUnit_lt ha hb hc hd
    refine ⟨(i * 0x1000 + j * 0x100 + k * 0x10 + l) :: points, ?_, ?_,
      List.forall_mem_cons.2 ⟨by omega, hbound⟩⟩
    · simp only [List.cons_append]
      rw [unitsOf?_unit, codeUnit?_eq_some_iff.2 ⟨i, j, k, l, ha, hb, hc, hd, rfl⟩, hread]
      rfl
    · rw [List.flatMap_cons, hunits, codeUnits_of_lt hlt]
      rfl

/-- What the reader reads up to the closing quote spells code units. -/
theorem spellsUnits_of_unitsOf? {input rest : List Char} {points : List Nat}
    (h : outcome (unitsOf? input) = some (points, rest)) :
    ∃ chars, input = chars ++ '"' :: rest ∧ SpellsUnits chars (points.flatMap codeUnits) ∧
      ∀ n ∈ points, n < 0x110000 := by
  fun_induction unitsOf? input generalizing points with
  | case1 => exact nomatch h
  | case2 input =>
    cases h
    exact ⟨[], rfl, .nil, nofun⟩
  | case3 a b c d input ih =>
    cases hunit : codeUnit? a b c d with
    | none =>
      rw [hunit] at h
      exact nomatch h
    | some unit =>
      rw [hunit] at h
      obtain ⟨others, hread, rfl⟩ := Parsed.of_outcome_map_weaken h
      obtain ⟨chars, rfl, hchars, hbound⟩ := ih hread
      obtain ⟨i, j, k, l, ha, hb, hc, hd, rfl⟩ := codeUnit?_eq_some_iff.1 hunit
      have hlt := codeUnit_lt ha hb hc hd
      refine ⟨'\\' :: 'u' :: a :: b :: c :: d :: chars, rfl, ?_,
        List.forall_mem_cons.2 ⟨by omega, hbound⟩⟩
      rw [List.flatMap_cons, codeUnits_of_lt hlt]
      exact .unit ha hb hc hd hchars
  | case4 mark input hu ih =>
    cases hescaped : simpleEscape? mark with
    | none =>
      rw [hescaped] at h
      exact nomatch h
    | some c =>
      rw [hescaped] at h
      obtain ⟨others, hread, rfl⟩ := Parsed.of_outcome_map_weaken h
      obtain ⟨chars, rfl, hchars, hbound⟩ := ih hread
      have hescape := simpleEscape?_eq_some_iff.1 hescaped
      have hlt := hescape.lt
      refine ⟨'\\' :: mark :: chars, rfl, ?_, List.forall_mem_cons.2 ⟨by omega, hbound⟩⟩
      rw [List.flatMap_cons, codeUnits_of_lt (by omega)]
      exact .escape hescape hchars
  | case5 c input hquote _ _ hc => exact nomatch h
  | case6 c input hquote _ _ hc ih =>
    obtain ⟨others, hread, rfl⟩ := Parsed.of_outcome_map_weaken h
    obtain ⟨chars, rfl, hchars, hbound⟩ := ih hread
    simp only [Bool.or_eq_true, beq_iff_eq, decide_eq_true_eq, not_or, Nat.not_lt] at hc
    have hlt := toNat_cases c
    exact ⟨c :: chars, rfl, .char hquote hc.1 hc.2 hchars,
      List.forall_mem_cons.2 ⟨by omega, hbound⟩⟩

/-! ## Strings -/

/-- The reader finds the text that the grammar gives the units. -/
theorem names_iff {points : List Nat} (h : ∀ n ∈ points, n < 0x110000) (text : Option String) :
    Names (points.flatMap codeUnits) text ↔ (charsOfUnits? points).map String.ofList = text := by
  cases text with
  | none =>
    rw [Option.map_eq_none_iff, Option.eq_none_iff_forall_ne_some]
    exact forall_congr' fun text => not_congr (charsOfUnits?_eq_some_iff h text).symm
  | some text =>
    rw [Names, ← charsOfUnits?_eq_some_iff h, Option.map_eq_some_iff]
    constructor
    · exact fun htext => ⟨_, htext, String.ofList_toList⟩
    · rintro ⟨chars, hchars, rfl⟩
      rw [hchars, String.toList_ofList]

/-- **Strings.** Behind a quote the reader reads the rest of a string of the grammar, with its text,
and nothing else. -/
theorem outcome_stringOf?_eq_some_iff {input rest : List Char} {text : Option String} :
    outcome (stringOf? input) = some (text, rest) ↔
      ∃ name, '"' :: input = name ++ rest ∧ SpellsString name text := by
  have hmap : outcome (stringOf? input) = (outcome (unitsOf? input)).map fun read =>
      ((charsOfUnits? read.1).map String.ofList, read.2) := by
    rw [stringOf?]
    cases unitsOf? input <;> rfl
  rw [hmap, Option.map_eq_some_iff]
  constructor
  · rintro ⟨⟨points, _⟩, hread, ⟨⟩⟩
    obtain ⟨chars, rfl, hchars, hbound⟩ := spellsUnits_of_unitsOf? hread
    exact ⟨_, by simp, .quoted hchars ((names_iff hbound _).2 rfl)⟩
  · rintro ⟨_, hinput, @⟨chars, units, _, hchars, hnames⟩⟩
    simp only [List.cons_append, List.append_assoc, List.nil_append, List.cons.injEq,
      true_and] at hinput
    obtain ⟨points, hread, rfl, hbound⟩ := hchars.unitsOf? rest
    exact ⟨(points, rest), hinput ▸ hread, by rw [(names_iff hbound _).1 hnames]⟩

/-- A string begins with a quote, behind which the rest of it is read. -/
theorem SpellsString.isRead {name : List Char} {text : Option String} (h : SpellsString name text)
    (rest : List Char) :
    ∃ tail, name ++ rest = '"' :: tail ∧ outcome (stringOf? tail) = some (text, rest) := by
  obtain ⟨tail, rfl⟩ : ∃ tail, name = '"' :: tail := by
    cases h
    exact ⟨_, rfl⟩
  exact ⟨tail ++ rest, rfl, outcome_stringOf?_eq_some_iff.2 ⟨_, rfl, h⟩⟩

end Calculator.Json
