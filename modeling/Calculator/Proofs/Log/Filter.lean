import Mathlib.Data.List.DropRight
import Calculator.Log.Filter
import Calculator.Proofs.Except

/-!
# Which filters can be read

The marks of a directive are looked for in the text without the white space around it, and the parts
are cut out of the text as it stands, at the same offsets. Every offset is that of a place of the
trimmed text (`IsPlace`), and going on over what is read leads from one place to the next. So
nothing is cut inside a character if the text itself can be cut at the offsets of all places of the
trimmed one (`CutsBetween`). That is so if the text does not begin with white space, because the
places are then those of the text, and also if all its characters have one byte. A filter of such
directives can be read (`isSome_ofText?`), whether it is well formed or not.
-/

namespace Calculator.Log

open Text

variable {text word rest : List Char} {offset start stop : Nat}

namespace Directive

/-! ## Places -/

/-- What follows a byte offset in the trimmed text. -/
def IsPlace (text : List Char) (offset : Nat) (rest : List Char) : Prop :=
  ∃ before, trimChars text = before ++ rest ∧ byteLength before = offset

/-- A text can be cut at all offsets at which its trimmed form can be cut. -/
def CutsBetween (text : List Char) : Prop :=
  ∀ offset rest, IsPlace text offset rest → (cut? offset text).isSome

/-- The first place. -/
theorem isPlace_zero (text : List Char) : IsPlace text 0 (trimChars text) := ⟨[], rfl, rfl⟩

/-- The place behind a word. -/
theorem IsPlace.append (h : IsPlace text offset (word ++ rest)) :
    IsPlace text (offset + byteLength word) rest := by
  obtain ⟨before, htrim, rfl⟩ := h
  exact ⟨before ++ word, by rw [htrim, List.append_assoc], byteLength_append ..⟩

/-- The place behind a mark of one byte. -/
theorem IsPlace.cons {c : Char} (h : IsPlace text offset (c :: rest)) (hc : c.utf8Size = 1) :
    IsPlace text (offset + 1) rest := by
  have happend : IsPlace text (offset + byteLength [c]) rest := IsPlace.append h
  rwa [byteLength_cons, byteLength_nil, hc] at happend

/-- What is left of a text that is trimmed only at its end is the beginning of it. -/
theorem trimChars_begins (text : List Char) : trimChars text <+: text.dropWhile isBlank :=
  List.rdropWhile_prefix isBlank (text.dropWhile isBlank)

/-- In a text that does not begin with white space the places are those of its trimmed form. -/
theorem cutsBetween_of_head? (h : ∀ c ∈ text.head?, isBlank c = false) : CutsBetween text := by
  rintro offset rest ⟨before, htrim, rfl⟩
  have hfront : text.dropWhile isBlank = text := by
    cases text with
    | nil => rfl
    | cons c others => rw [List.dropWhile_cons_of_neg (by simp [h c rfl])]
  obtain ⟨back, hback⟩ := trimChars_begins text
  rw [hfront, htrim, List.append_assoc] at hback
  rw [← hback, cut?_append]
  rfl

/-- A text whose characters have one byte each can be cut everywhere. -/
theorem cutsBetween_of_utf8Size (h : ∀ c ∈ text, c.utf8Size = 1) : CutsBetween text := by
  rintro offset rest ⟨before, htrim, rfl⟩
  have hsublist : before.Sublist text :=
    ((List.sublist_append_left before rest).trans (htrim ▸ (trimChars_begins text).sublist)).trans
      (List.dropWhile_sublist _)
  have hlength : byteLength before = byteLength (text.take before.length) := by
    rw [byteLength_eq_length fun c hc => h c (hsublist.subset hc),
      byteLength_eq_length fun c hc => h c (List.mem_of_mem_take hc), List.length_take,
      Nat.min_eq_left hsublist.length_le]
  have hcut := cut?_append (text.take before.length) (text.drop before.length)
  rw [List.take_append_drop, ← hlength] at hcut
  rw [hcut]
  rfl

/-! ## Parts -/

/-- A reading that cuts nothing inside a character. -/
def Whole {α : Type} (x : Except Fault α) : Prop := x ≠ .error .split

section Whole

variable {α β : Type}

theorem whole_ok (a : α) : Whole (.ok a) := by
  intro h
  cases h

theorem whole_malformed : Whole (.error .malformed : Except Fault α) :=
  fun h => Fault.noConfusion (Except.error.inj h)

/-- What does not spell what it should is not cut for that. -/
theorem whole_need (a : Option α) : Whole (need .malformed a) := by
  cases a with
  | none => exact whole_malformed
  | some a => exact whole_ok a

/-- Nothing is cut in two readings in a row of which neither cuts anything. -/
theorem Whole.bind {x : Except Fault α} {f : α → Except Fault β} (hx : Whole x)
    (hf : ∀ a, Whole (f a)) : Whole (x >>= f) := by
  cases x with
  | error fault => exact fun h => hx (congrArg Except.error (Except.error.inj h))
  | ok a => exact hf a

end Whole

/-- A part between two places can be cut out. -/
theorem whole_part (hstart : (cut? start text).isSome) (hstop : (cut? stop text).isSome)
    (hle : start ≤ stop) : Whole (part text start stop) := by
  obtain ⟨chars, hchars⟩ := Option.isSome_iff_exists.1 (isSome_slice? hstart hstop hle)
  rw [part, hchars]
  exact whole_ok chars

/-- What follows a place up to the end of the text can be cut out. -/
theorem whole_part_end (hstart : (cut? start text).isSome) :
    Whole (part text start (byteLength text)) := by
  obtain ⟨⟨front, back⟩, hcut⟩ := Option.isSome_iff_exists.1 hstart
  obtain ⟨rfl, rfl⟩ := cut?_eq_some_iff.1 hcut
  have hend := cut?_append (front ++ back) []
  rw [List.append_nil] at hend
  -- The end of the text is a place to cut, whatever stands in it.
  refine whole_part hstart (by rw [hend]; rfl) ?_
  rw [byteLength_append]
  exact Nat.le_add_right _ _

/-- A level after an equals sign is not cut. -/
theorem whole_assignedRank (level : List Char) : Whole (assignedRank level) := by
  rw [assignedRank]
  split
  · exact whole_ok _
  · exact whole_need _

/-- The end of a directive is cut out at a place. -/
theorem whole_finalRank (h : CutsBetween text) (hplace : IsPlace text offset rest) :
    Whole (finalRank text offset rest) := by
  unfold finalRank
  split
  · exact whole_ok _
  · exact (whole_part_end (h _ _ (hplace.cons rfl))).bind whole_assignedRank
  · exact whole_malformed

/-- A text is divided where a class of characters ends. -/
theorem exists_takeWhile (p : Char → Bool) (text : List Char) : ∃ front back,
    text = front ++ back ∧ text.takeWhile p = front ∧ text.dropWhile p = back ∧
      ∀ c ∈ back.head?, p c = false := by
  refine ⟨_, _, List.takeWhile_append_dropWhile.symm, rfl, rfl, fun c hc => ?_⟩
  have hhead := List.head?_dropWhile_not p text
  rwa [Option.mem_def.1 hc] at hhead

/-- A mark that is one of two characters of one byte has one byte. -/
theorem utf8Size_of_isEither {c a b : Char} (h : (c == a || c == b) = true) (ha : a.utf8Size = 1)
    (hb : b.utf8Size = 1) : c.utf8Size = 1 := by
  rcases Bool.or_eq_true_iff.1 h with h | h
  · rw [eq_of_beq h, ha]
  · rw [eq_of_beq h, hb]

/-- What an opening bracket begins is cut out at places. -/
theorem whole_ofBrackets (h : CutsBetween text) (hplace : IsPlace text offset rest)
    (target : Option String) : Whole (ofBrackets text target offset rest) := by
  obtain ⟨name, back, happend, hname, hback, hmark⟩ :=
    exists_takeWhile (fun c => !endsSpan c) rest
  rw [ofBrackets, hname, hback]
  subst happend
  cases back with
  | nil => exact whole_malformed
  | cons mark back =>
    have hstop := hplace.append
    have hends : endsSpan mark = true := by simpa using hmark mark rfl
    have hbehind := hstop.cons (utf8Size_of_isEither hends rfl rfl)
    -- The name of the span lies between the places before and after it.
    refine (whole_part (h _ _ hplace) (h _ _ hstop) (Nat.le_add_right _ _)).bind fun span => ?_
    dsimp only
    split
    · exact (whole_finalRank h hbehind).bind fun rank => whole_ok _
    · obtain ⟨field, after, happend, hfield, hafter, hclose⟩ := exists_takeWhile (· != '\x7d') back
      rw [hfield, hafter]
      subst happend
      have hlast := hbehind.append
      cases after with
      | nil => exact whole_malformed
      | cons brace after =>
        have hbrace : brace = '\x7d' := by simpa using hclose brace rfl
        subst hbrace
        have hinside := whole_part (h _ _ hbehind) (h _ _ hlast) (Nat.le_add_right _ _)
        refine hinside.bind fun chars => ?_
        refine (whole_need _).bind fun condition => ?_
        split
        · exact (whole_finalRank h ((hlast.cons rfl).cons rfl)).bind fun rank => whole_ok _
        · exact whole_malformed

/-- **A directive is cut between characters** if its text can be cut at the places of its trimmed
form. -/
theorem whole_parse (h : CutsBetween text) : Whole (parse text) := by
  have hplace := isPlace_zero text
  unfold parse
  split
  · exact whole_malformed
  · rename_i inner htrim
    rw [htrim] at hplace
    exact whole_ofBrackets h (hplace.cons rfl) none
  · rename_i first rest _ htrim
    rw [htrim] at hplace
    split
    · exact whole_malformed
    · obtain ⟨others, back, happend, hothers, hback, hmark⟩ :=
        exists_takeWhile (fun c => !endsWord c) rest
      rw [hothers, hback]
      subst happend
      cases back with
      | nil =>
        -- A single word is not cut out: it is taken with the white space around it.
        dsimp only
        split
        · exact whole_ok _
        · exact whole_ok _
      | cons mark inner =>
        have hstop : IsPlace text (0 + byteLength (first :: others)) (mark :: inner) :=
          IsPlace.append hplace
        rw [Nat.zero_add] at hstop
        have hends : endsWord mark = true := by simpa using hmark mark rfl
        have hbehind := hstop.cons (utf8Size_of_isEither hends rfl rfl)
        refine (whole_part (h _ _ hplace) (h _ _ hstop) (Nat.zero_le _)).bind fun target => ?_
        split
        · refine (whole_part_end (h _ _ hbehind)).bind fun level => ?_
          exact (whole_assignedRank level).bind fun rank => whole_ok _
        · exact whole_ofBrackets h hbehind _

end Directive

/-! ## Filters -/

namespace Filter

/-- There is a filter for a text whose directives can all be cut at the places of their trimmed
forms. -/
theorem isSome_ofText?_of_cutsBetween {text : String}
    (h : ∀ part ∈ directiveTexts text, Directive.CutsBetween part) : (ofText? text).isSome := by
  have hdirectives : ∀ parts : List (List Char), (∀ part ∈ parts, Directive.CutsBetween part) →
      Directive.Whole (parts.mapM Directive.parse) := by
    intro parts
    induction parts with
    | nil => exact fun _ => Directive.whole_ok _
    | cons part others ih =>
      intro hparts
      obtain ⟨hpart, hothers⟩ := List.forall_mem_cons.1 hparts
      rw [List.mapM_cons]
      exact (Directive.whole_parse hpart).bind fun directive =>
        (ih hothers).bind fun directives => Directive.whole_ok _
  have hparse : Directive.Whole (parse text) := by
    refine (hdirectives _ h).bind fun directives => ?_
    split
    · exact Directive.whole_ok _
    · exact Directive.whole_ok _
  rw [ofText?]
  split
  · rfl
  · rfl
  · exact absurd ‹_› hparse

/-- **A filter can be read** if each of its directives begins without white space or has only
characters of one byte; if it is not well formed, it is the filter for levels down to information.
-/
theorem isSome_ofText? {text : String} (h : ∀ part ∈ directiveTexts text,
    (∀ c ∈ part.head?, isBlank c = false) ∨ ∀ c ∈ part, c.utf8Size = 1) :
    (ofText? text).isSome :=
  isSome_ofText?_of_cutsBetween fun part hpart => (h part hpart).elim
    Directive.cutsBetween_of_head? Directive.cutsBetween_of_utf8Size

/-- After a space the name of a target is cut inside its last character, unless that has one byte.
-/
example : ofText? " é=info" = none ∧ (ofText? "é=info").isSome ∧ (ofText? " e=info").isSome := by
  decide +kernel

end Filter

end Calculator.Log
