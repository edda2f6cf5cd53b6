import Mathlib.Data.String.Basic
import Calculator.Config.Variable
import Calculator.Proofs.LetterCase.Characters
import Calculator.Text.Letter

/-!
# Settings that the environment gives

The name of a variable for a setting is `TALLY_` and the key of the setting, in any case (`Names`).
Where such names consist of letters, digits and underscores (`IsPlainName`), nothing in them is
taken for a separator or for white space, and the layer of the environment holds a setting exactly
if a variable names it (`mem_environmentLayer_iff`).
-/

namespace Calculator.Config

variable {name key text : String} {value : Scalar} {environment : List (String × String)}

/-! ## Names -/

/-- A variable names a setting: it is called `TALLY_` and the key, in any case and with any white
space around it. -/
def Names (name key : String) : Prop :=
  Text.asciiLower (Text.trim name) = Text.asciiLower (variablePrefix ++ key)

/-- A variable that names some setting. -/
def IsSetting (name : String) : Prop := ∃ key, Names name key

/-- The characters of plain names: letters, digits and the underscore. -/
def IsWordChar (c : Char) : Prop := Text.isLetterOrNumber c = true ∨ c = '_'

/-- A name that consists of letters, digits and underscores. -/
def IsPlainName (name : String) : Prop := ∀ c ∈ name.toList, IsWordChar c

instance (name key : String) : Decidable (Names name key) :=
  inferInstanceAs (Decidable (_ = _))

instance (c : Char) : Decidable (IsWordChar c) := inferInstanceAs (Decidable (_ ∨ _))

instance (name : String) : Decidable (IsPlainName name) :=
  List.decidableBAll IsWordChar name.toList

/-- The numbers of the characters that are white space, in ranges. -/
def blankRanges : List (Nat × Nat) := [(9, 13), (0x20, 0x20), (0x85, 0x85), (0xA0, 0xA0),
  (0x1680, 0x1680), (0x2000, 0x200A), (0x2028, 0x2029), (0x202F, 0x202F), (0x205F, 0x205F),
  (0x3000, 0x3000)]

/-- White space has its number in one of the ranges. -/
theorem inRanges_of_isBlank {c : Char} (h : Text.isBlank c = true) :
    Text.inRanges blankRanges c = true := by
  simp only [Text.isBlank, Bool.or_eq_true, Bool.and_eq_true, decide_eq_true_eq, beq_iff_eq] at h
  simp only [Text.inRanges, blankRanges, List.any_cons, List.any_nil, Bool.or_eq_true,
    Bool.and_eq_true, decide_eq_true_eq]
  omega

/-- No white space is a letter, a digit or an underscore. -/
theorem not_isBlank_of_isWordChar {c : Char} (h : IsWordChar c) : Text.isBlank c = false := by
  rw [Bool.eq_false_iff]
  intro hblank
  rcases h with h | rfl
  · obtain ⟨letters, hletters, hletter⟩ := List.any_eq_true.1 h
    obtain ⟨blanks, hblanks, hblank⟩ := List.any_eq_true.1 (inRanges_of_isBlank hblank)
    have hall : (Text.letterOrNumberRanges.all fun letters => blankRanges.all fun blanks =>
        letters.2 < blanks.1 || blanks.2 < letters.1) = true := by decide +kernel
    have hapart := List.all_eq_true.1 (List.all_eq_true.1 hall letters hletters) blanks hblanks
    simp only [Bool.or_eq_true, Bool.and_eq_true, decide_eq_true_eq] at hletter hblank hapart
    omega
  · exact absurd hblank (by decide)

/-- A list without white space is trimmed. -/
theorem trimChars_eq_self {chars : List Char} (h : ∀ c ∈ chars, Text.isBlank c = false) :
    Text.trimChars chars = chars := by
  have hfront : ∀ l : List Char, (∀ c ∈ l, Text.isBlank c = false) →
      l.dropWhile Text.isBlank = l := by
    intro l hl
    cases l with
    | nil => rfl
    | cons c rest => rw [List.dropWhile_cons_of_neg (by simp [hl c])]
  rw [Text.trimChars, hfront chars h, hfront _ (by simpa using h), List.reverse_reverse]

/-- Lower case makes no point. -/
theorem eq_point_of_toLower {c : Char} (h : c.toLower = '.') : c = '.' := by
  rcases Text.toLower_eq_or_capital c with hc | ⟨n, hlow, hhigh, rfl⟩
  · rwa [hc] at h
  · have hall : ∀ n ≤ 90, 65 ≤ n → (Char.ofNat n).toLower ≠ '.' := by decide
    exact absurd h (hall n hhigh hlow)

section splitOn

open String

variable {mark : Char}

/-- Nothing is cut off a text from a place on behind which there is no mark. -/
theorem splitOnAux_of_notMem (before after : List Char) (h : mark ∉ after) :
    splitOnAux (ofList (before ++ after)) (ofList [mark]) 0 ⟨utf8Len before⟩ 0 [] =
      [ofList (before ++ after)] := by
  induction after generalizing before with
  | nil =>
    have hend : Pos.Raw.atEnd (ofList (before ++ [])) ⟨utf8Len before⟩ :=
      (atEnd_of_valid before []).2 rfl
    have hwhole : Pos.Raw.extract (ofList before) 0 ⟨utf8Len before⟩ = ofList before := by
      simpa using extract_of_valid [] before []
    rw [splitOnAux, if_pos hend, List.append_nil, hwhole]
    rfl
  | cons c after ih =>
    rw [List.mem_cons, not_or] at h
    have hend : ¬ Pos.Raw.atEnd (ofList (before ++ c :: after)) ⟨utf8Len before⟩ = true :=
      fun hend => nomatch (atEnd_of_valid before (c :: after)).1 hend
    have hget : Pos.Raw.get (ofList (before ++ c :: after)) ⟨utf8Len before⟩ = c :=
      get_of_valid before (c :: after)
    have hmark : Pos.Raw.get (ofList [mark]) 0 = mark := get_of_valid [] [mark]
    have hne : ¬ (c == mark) = true := by
      simpa using fun hc => h.1 hc.symm
    have hrest := ih (before ++ [c]) h.2
    rw [List.append_assoc, List.singleton_append, utf8Len_append, utf8Len_cons, utf8Len_nil,
      Nat.zero_add, ← next_of_valid before c after] at hrest
    rw [splitOnAux, if_neg hend, hget, hmark, if_neg hne]
    exact hrest

/-- A text without a mark is its only part between marks. -/
theorem splitOn_of_notMem (mark : Char) (h : mark ∉ text.toList) :
    text.splitOn (ofList [mark]) = [text] := by
  have hwhole := splitOnAux_of_notMem [] text.toList h
  have hne : ¬ (ofList [mark] == "") = true := by
    rw [beq_iff_eq, ← toList_inj, toList_ofList]
    exact nofun
  rw [List.nil_append, ofList_toList] at hwhole
  rw [splitOn, if_neg hne]
  exact hwhole

end splitOn

/-! ## Variables -/

/-- A variable names a setting if the rest of its name after the prefix is the key. -/
theorem names_iff : Names name key ↔
    (Text.trimChars name.toList).map Char.toLower =
      variablePrefix.toList.map Char.toLower ++ key.toList.map Char.toLower := by
  rw [Names, Text.asciiLower, Text.asciiLower, Text.trim, String.ofList_inj, String.toList_ofList,
    String.toList_append, List.map_append]

/-- A variable names some setting if its name begins with the prefix. -/
theorem isSetting_iff : IsSetting name ↔
    ((Text.trimChars name.toList).take variablePrefix.toList.length).map Char.toLower =
      variablePrefix.toList.map Char.toLower := by
  constructor
  · rintro ⟨key, hnames⟩
    rw [List.map_take, names_iff.1 hnames, List.take_left' (List.length_map _)]
  · intro htake
    refine ⟨String.ofList ((Text.trimChars name.toList).drop variablePrefix.toList.length),
      names_iff.2 ?_⟩
    rw [String.toList_ofList, ← htake, ← List.map_append, List.take_append_drop]

/-- Other variables give nothing. -/
theorem ofVariable?_of_not_isSetting (h : ¬ IsSetting name) (text : String) :
    ofVariable? name text = none := by
  rw [isSetting_iff] at h
  simp only [ofVariable?, if_neg h]

/-- The key in a name: what follows the prefix, in lower case. -/
def keyOf (name : String) : String :=
  Text.asciiLower (String.ofList (name.toList.drop variablePrefix.toList.length))

theorem toList_keyOf (name : String) :
    (keyOf name).toList = (name.toList.drop variablePrefix.toList.length).map Char.toLower := by
  rw [keyOf, Text.asciiLower_ofList, String.toList_ofList]

/-- The characters after the prefix of a plain name. -/
theorem IsPlainName.drop {n : Nat} (h : IsPlainName name) :
    ∀ c ∈ name.toList.drop n, IsWordChar c := fun c hc => h c (List.mem_of_mem_drop hc)

/-- The characters of a plain name are trimmed. -/
theorem IsPlainName.trimChars (h : IsPlainName name) : Text.trimChars name.toList = name.toList :=
  trimChars_eq_self fun c hc => not_isBlank_of_isWordChar (h c hc)

/-- The key in a plain name has no point. -/
theorem IsPlainName.point_notMem (h : IsPlainName name) : '.' ∉ (keyOf name).toList := by
  rw [toList_keyOf, List.mem_map]
  rintro ⟨c, hc, hlower⟩
  have hword := h.drop c hc
  rw [eq_point_of_toLower hlower] at hword
  exact absurd hword (by decide +kernel)

/-- A variable with a plain name gives the key in it, if there is one. -/
theorem ofVariable?_of_isSetting (hset : IsSetting name) (hplain : IsPlainName name)
    (text : String) : ofVariable? name text =
      if keyOf name = "" then none else some (keyOf name, variableValue text) := by
  have hfront := isSetting_iff.1 hset
  have hrest : Text.trimChars (name.toList.drop variablePrefix.toList.length) =
      name.toList.drop variablePrefix.toList.length :=
    trimChars_eq_self fun c hc => not_isBlank_of_isWordChar (hplain.drop c hc)
  rw [hplain.trimChars] at hfront
  rw [ofVariable?]
  simp only [hplain.trimChars, hrest]
  have hsplit : (keyOf name).splitOn "." = [keyOf name] := splitOn_of_notMem '.' hplain.point_notMem
  rw [if_pos hfront, ← keyOf, hsplit]

/-- A variable with a plain name names the key in it. -/
theorem names_iff_keyOf (hset : IsSetting name) (hplain : IsPlainName name)
    (hkey : Text.asciiLower key = key) : Names name key ↔ keyOf name = key := by
  have hchars : key.toList.map Char.toLower = key.toList := by
    have hlist := congrArg String.toList hkey
    rwa [Text.asciiLower, String.toList_ofList] at hlist
  have hfront := isSetting_iff.1 hset
  rw [hplain.trimChars] at hfront
  rw [names_iff, hplain.trimChars, hchars, ← hfront, ← String.toList_inj, toList_keyOf]
  nth_rewrite 1 [← List.take_append_drop variablePrefix.toList.length name.toList]
  rw [List.map_append, List.append_right_inj]

/-- A variable with a plain name gives the setting that it names. -/
theorem ofVariable?_eq_some_iff (hplain : IsSetting name → IsPlainName name)
    (hkey : Text.asciiLower key = key) (hne : key ≠ "") :
    ofVariable? name text = some (key, value) ↔ Names name key ∧ variableValue text = value := by
  by_cases hset : IsSetting name
  · rw [ofVariable?_of_isSetting hset (hplain hset), names_iff_keyOf hset (hplain hset) hkey]
    by_cases hempty : keyOf name = ""
    · rw [if_pos hempty]
      refine iff_of_false nofun fun h => hne ?_
      rw [← h.1, hempty]
    · rw [if_neg hempty, Option.some_inj, Prod.mk.injEq]
  · rw [ofVariable?_of_not_isSetting hset]
    exact iff_of_false nofun fun h => hset ⟨key, h.1⟩

/-- The settings of the environment are those that some variable names. -/
theorem mem_environmentLayer_iff
    (hplain : ∀ entry ∈ environment, IsSetting entry.1 → IsPlainName entry.1)
    (hkey : Text.asciiLower key = key) (hne : key ≠ "") :
    (key, value) ∈ environmentLayer environment ↔
      ∃ entry ∈ environment, Names entry.1 key ∧ variableValue entry.2 = value := by
  rw [environmentLayer, List.mem_filterMap]
  refine exists_congr fun entry => and_congr_right fun hentry => ?_
  exact ofVariable?_eq_some_iff (hplain entry hentry) hkey hne

end Calculator.Config
