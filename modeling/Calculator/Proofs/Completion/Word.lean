import Mathlib.Data.List.Basic
import Calculator.Completion
import Calculator.Proofs.Token.Grammar

/-!
# The word before the cursor

What is completed is the longest end of the text before the cursor that is made of letters, digits
and underscores (`LastWord`). It is looked for from behind: the word ends in front of the last
character of another kind, and there it is taken to begin one byte after that character. So there
is a completion exactly where this character, if there is one, has one byte, or where the text begins
with a colon (`atCursor?_answers`).
-/

namespace Calculator.Completion

open Text

variable {c : Char} {text before word front back : List Char}

/-- What a word is made of: ASCII letters, digits and underscores. -/
def IsWordChar (c : Char) : Prop := c.isAlphanum = true ∨ c = '_'

/-- The longest word at the end of a text, and what stands before it. -/
structure LastWord (text before word : List Char) : Prop where
  /-- The text is divided into these two. -/
  split : text = before ++ word
  /-- The word has characters of words only. -/
  chars : ∀ c ∈ word, IsWordChar c
  /-- Every other end of the text with such characters only is an end of the word. -/
  longest : ∀ rest, rest <:+ text → (∀ c ∈ rest, IsWordChar c) → rest <:+ word

/-! ## The longest word -/

/-- Words are made of what names are made of. -/
theorem isWordChar_iff : IsWordChar c ↔ Token.isNameChar c = true := by
  rw [IsWordChar, Token.isNameChar, Bool.or_eq_true, beq_iff_eq]

/-- A word is the longest one if the character before it stands in no word. -/
theorem lastWord_iff : LastWord text before word ↔ text = before ++ word ∧
    (∀ c ∈ word, Token.isNameChar c = true) ∧
      ∀ c ∈ before.getLast?, Token.isNameChar c = false := by
  constructor
  · intro h
    refine ⟨h.split, fun c hc => isWordChar_iff.1 (h.chars c hc), fun c hc => ?_⟩
    rw [Bool.eq_false_iff]
    intro hname
    -- The word with this character would be a longer one.
    obtain ⟨init, rfl⟩ := List.getLast?_eq_some_iff.1 hc
    have hlonger : c :: word <:+ word := by
      refine h.longest _ ⟨init, by rw [h.split]; simp⟩ (List.forall_mem_cons.2 ⟨?_, h.chars⟩)
      exact isWordChar_iff.2 hname
    have hlength := hlonger.length_le
    rw [List.length_cons] at hlength
    omega
  · rintro ⟨rfl, hword, hlast⟩
    refine ⟨rfl, fun c hc => isWordChar_iff.2 (hword c hc), fun rest hrest hchars => ?_⟩
    rcases List.suffix_or_suffix_of_suffix hrest (List.suffix_append before word) with h | h
    · exact h
    -- An end that goes beyond the word has the character before it.
    · obtain ⟨more, rfl⟩ := h
      rcases List.eq_nil_or_concat more with rfl | ⟨init, c, rfl⟩
      · exact List.suffix_refl word
      · rw [List.concat_eq_append] at hrest hchars
        obtain ⟨start, hstart⟩ := hrest
        rw [← List.append_assoc, ← List.append_assoc] at hstart
        obtain ⟨rfl, -⟩ := List.append_inj' hstart rfl
        have hnot := hlast c (by simp)
        rw [isWordChar_iff.1 (hchars c (by simp))] at hnot
        cases hnot

/-- There is one longest word at the end of a text. -/
theorem LastWord.unique {before' word' : List Char} (h : LastWord text before word)
    (h' : LastWord text before' word') : before = before' ∧ word = word' := by
  have hle : word <:+ word' := h'.longest word ⟨before, h.split.symm⟩ h.chars
  have hge : word' <:+ word := h.longest word' ⟨before', h'.split.symm⟩ h'.chars
  obtain rfl : word = word' := hle.eq_of_length (Nat.le_antisymm hle.length_le hge.length_le)
  exact ⟨List.append_cancel_right (h.split.symm.trans h'.split), rfl⟩

/-- The longest word is found by going back from the end of the text. -/
theorem lastWord_takeWhile (text : List Char) :
    LastWord text (text.take (text.length - (text.reverse.takeWhile Token.isNameChar).reverse.length))
      (text.reverse.takeWhile Token.isNameChar).reverse := by
  have hsplit : text = (text.reverse.dropWhile Token.isNameChar).reverse ++
      (text.reverse.takeWhile Token.isNameChar).reverse := by
    rw [← List.reverse_append, List.takeWhile_append_dropWhile, List.reverse_reverse]
  have hword : ∀ c ∈ (text.reverse.takeWhile Token.isNameChar).reverse,
      Token.isNameChar c = true := fun c hc => List.mem_takeWhile_imp (List.mem_reverse.1 hc)
  have hlast : ∀ c ∈ (text.reverse.dropWhile Token.isNameChar).reverse.getLast?,
      Token.isNameChar c = false := by
    intro c hc
    rw [List.getLast?_reverse] at hc
    have hhead := List.head?_dropWhile_not Token.isNameChar text.reverse
    rwa [Option.mem_def.1 hc] at hhead
  generalize (text.reverse.takeWhile Token.isNameChar).reverse = word at hsplit hword ⊢
  generalize (text.reverse.dropWhile Token.isNameChar).reverse = before at hsplit hlast
  subst hsplit
  have htake : (before ++ word).take ((before ++ word).length - word.length) = before := by
    rw [List.length_append, Nat.add_sub_cancel, List.take_left]
  rw [htake, lastWord_iff]
  exact ⟨rfl, hword, hlast⟩

/-! ## Completing a text -/

/-- At the cursor the text before it is completed, whatever follows. -/
theorem atCursor?_eq (front back : List Char) :
    atCursor? (String.ofList (front ++ back)) (byteLength front) = ofLine? front := by
  rw [atCursor?, String.toList_ofList, cut?_append]
  rfl

/-- The last word is completed exactly if the character before it has one byte. -/
theorem ofLine?_eq_some_iff (h : LastWord text before word) (hcolon : text.head? ≠ some ':')
    {completion : Completion} : ofLine? text = some completion ↔
      (∀ c ∈ before.getLast?, c.utf8Size = 1) ∧
        completion = ofLine?.completeWord (byteLength before) word := by
  obtain ⟨hbefore, hword⟩ := (lastWord_takeWhile text).unique h
  unfold ofLine?
  split
  · exact absurd rfl hcolon
  · dsimp only
    rw [hbefore, hword]
    cases hlast : before.getLast? with
    | none =>
      rw [List.getLast?_eq_none_iff] at hlast
      subst hlast
      simp [byteLength, eq_comm]
    | some c => simp [eq_comm]

/-- **Where a text is completed, and which part of it.** At a place of a line there is a completion
exactly if the text before it begins with a colon, or if the character before its last word has one
byte or does not exist. What can be replaced begins between two characters, not after the place, and
is the last word if the text does not begin with a colon. -/
theorem atCursor?_answers (front back : List Char) :
    let answer := atCursor? (String.ofList (front ++ back)) (byteLength front)
    ((∃ completion, answer = some completion) ↔ front.head? = some ':' ∨
      ∃ before word, LastWord front before word ∧ ∀ c ∈ before.getLast?, c.utf8Size = 1) ∧
    ∀ completion, answer = some completion → completion.start ≤ byteLength front ∧
      ∃ before word, front = before ++ word ∧ byteLength before = completion.start ∧
        (front.head? ≠ some ':' → LastWord front before word) := by
  intro answer
  have hanswer : answer = ofLine? front := atCursor?_eq front back
  rw [hanswer]
  by_cases hcolon : front.head? = some ':'
  · obtain ⟨rest, rfl⟩ := List.head?_eq_some_iff.1 hcolon
    refine ⟨⟨fun _ => .inl hcolon, fun _ => ⟨_, rfl⟩⟩, ?_⟩
    rintro _ ⟨⟩
    exact ⟨Nat.zero_le _, [], _, rfl, rfl, fun h => absurd hcolon h⟩
  · have hword := lastWord_takeWhile front
    generalize (front.reverse.takeWhile Token.isNameChar).reverse = word at hword
    generalize front.take (front.length - word.length) = before at hword
    refine ⟨⟨?_, ?_⟩, ?_⟩
    · rintro ⟨completion, h⟩
      exact .inr ⟨before, word, hword, ((ofLine?_eq_some_iff hword hcolon).1 h).1⟩
    · rintro (h | ⟨before', word', hword', hlast⟩)
      · exact absurd h hcolon
      · exact ⟨_, (ofLine?_eq_some_iff hword' hcolon).2 ⟨hlast, rfl⟩⟩
    · intro completion h
      obtain ⟨-, rfl⟩ := (ofLine?_eq_some_iff hword hcolon).1 h
      refine ⟨?_, before, word, hword.split, rfl, fun _ => hword⟩
      rw [hword.split, byteLength_append]
      exact Nat.le_add_right _ _

/-- After a multiplication sign of two bytes there is no completion. -/
theorem atCursor?_multiplicationSign :
    byteLength ['2', '×'] = 3 ∧ atCursor? (String.ofList (['2', '×'] ++ [])) 3 = none := by
  decide +kernel

end Calculator.Completion
