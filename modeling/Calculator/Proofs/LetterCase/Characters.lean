import Calculator.Text.Blank
import Calculator.Text.Bytes

/-!
# Lower case of ASCII characters and of all others

`Char.toLower` changes the 26 ASCII capitals and nothing else, so whatever does not tell capitals
from small letters does not tell a character from its lower-case form (`apply_toLower`).

Lower-casing by the tables of the character standard does the same to ASCII characters
(`lower_of_ascii`). It takes one other character into ASCII, the Kelvin sign, which becomes a `k`
(`ascii_of_lower`). The dotted capital I becomes an `i` as well, but with a combining dot behind it.
The tables are finite, and what is said of them is checked run by run.
-/

namespace Calculator.Text

variable {α : Type} {c : Char} {text : List Char}

/-! ## ASCII -/

/-- Only the 26 capitals are changed. -/
theorem toLower_eq_or_capital (c : Char) :
    c.toLower = c ∨ ∃ n, 65 ≤ n ∧ n ≤ 90 ∧ c = Char.ofNat n := by
  by_cases h : c.val ≥ 'A'.val ∧ c.val ≤ 'Z'.val
  · exact .inr ⟨c.toNat, UInt32.le_iff_toNat_le.1 h.1, UInt32.le_iff_toNat_le.1 h.2,
      (Char.ofNat_toNat c).symm⟩
  · exact .inl (dif_neg h)

/-- What does not tell the capitals from their lower-case forms does not tell any character from
its lower-case form. -/
theorem apply_toLower {f : Char → α}
    (h : ∀ n ≤ 90, 65 ≤ n → f (Char.ofNat n).toLower = f (Char.ofNat n)) (c : Char) :
    f c.toLower = f c := by
  rcases toLower_eq_or_capital c with hc | ⟨n, hlow, hhigh, rfl⟩
  · rw [hc]
  · exact h n hhigh hlow

/-- A lower-case form is its own lower-case form. -/
@[simp] theorem toLower_toLower (c : Char) : c.toLower.toLower = c.toLower :=
  apply_toLower (by decide) c

/-- Lower case takes as many bytes. -/
theorem utf8Size_toLower (c : Char) : c.toLower.utf8Size = c.utf8Size :=
  apply_toLower (by decide) c

/-- A list of characters takes as many bytes in lower case. -/
theorem byteLength_map_toLower (text : List Char) :
    byteLength (text.map Char.toLower) = byteLength text := by
  induction text with
  | nil => rfl
  | cons c rest ih =>
    rw [List.map_cons, byteLength_cons, byteLength_cons, utf8Size_toLower, ih]

/-- A text in lower case is its own lower-case form. -/
@[simp] theorem asciiLower_asciiLower (s : String) : asciiLower (asciiLower s) = asciiLower s := by
  simp [asciiLower, Function.comp_def]

/-- Lower-casing works on the characters of a text. -/
theorem asciiLower_ofList (text : List Char) :
    asciiLower (String.ofList text) = String.ofList (text.map Char.toLower) := by
  rw [asciiLower, String.toList_ofList]

/-- A text whose characters are not changed is not changed. -/
theorem asciiLower_eq_self {s : String} (h : ∀ c ∈ s.toList, c.toLower = c) : asciiLower s = s := by
  rw [asciiLower, List.map_congr_left h, List.map_id', String.ofList_toList]

/-! ## The tables -/

/-- A run of the tables maps none of its letters to ASCII, and all of them to characters. -/
def CaseRun.AvoidsAscii (run : CaseRun) : Prop :=
  128 ≤ run.first + run.offset ∧ (run.last + run.offset < 0xD800 ∨
    0xDFFF < run.first + run.offset ∧ run.last + run.offset < 0x110000)

instance (run : CaseRun) : Decidable run.AvoidsAscii :=
  inferInstanceAs (Decidable (_ ∧ _))

/-- The first run is the one of the ASCII capitals. -/
theorem lowerRuns_eq_cons : lowerRuns = ⟨0x41, 0x5A, 1, 32⟩ :: lowerRuns.tail := rfl

/-- The other runs begin behind ASCII, and all but the one of the Kelvin sign avoid it. -/
theorem avoidsAscii_of_mem_tail : ∀ run ∈ lowerRuns.tail,
    128 ≤ run.first ∧ (run.AvoidsAscii ∨ run.first = 0x212A ∧ run.last = 0x212A) := by
  decide +kernel

/-- The letters that a run maps stand between its first and its last one. -/
theorem CaseRun.le_of_covers {run : CaseRun} (h : run.covers c = true) :
    run.first ≤ c.toNat ∧ c.toNat ≤ run.last := by
  simp only [covers, Bool.and_eq_true, decide_eq_true_eq] at h
  exact h.1

/-- By the tables too, ASCII capitals have their ASCII forms, and other ASCII characters are left.
-/
theorem lowerChar_of_ascii (h : c.toNat < 128) : lowerChar c = c.toLower := by
  rw [lowerChar, lowerRuns_eq_cons, List.find?_cons]
  cases hcapital : (⟨0x41, 0x5A, 1, 32⟩ : CaseRun).covers c with
  | true =>
    have hall : ∀ n : Nat, n ≤ 90 → 65 ≤ n →
        Char.ofNat ((n : Int) + 32).toNat = (Char.ofNat n).toLower := by decide
    obtain ⟨hlow, hhigh⟩ := CaseRun.le_of_covers hcapital
    rw [← Char.ofNat_toNat c]
    simpa using hall c.toNat hhigh hlow
  | false =>
    have hnone : lowerRuns.tail.find? (·.covers c) = none := by
      rw [List.find?_eq_none]
      intro run hrun hcovers
      have hfirst := (avoidsAscii_of_mem_tail run hrun).1
      have hle := (CaseRun.le_of_covers hcovers).1
      omega
    simp only [hnone]
    rcases toLower_eq_or_capital c with hc | ⟨n, hlow, hhigh, rfl⟩
    · exact hc.symm
    · have hall : ∀ n ≤ 90, 65 ≤ n →
          (⟨0x41, 0x5A, 1, 32⟩ : CaseRun).covers (Char.ofNat n) = true := by decide
      rw [hall n hhigh hlow] at hcapital
      cases hcapital

/-- Of all other characters the Kelvin sign alone has an ASCII form. -/
theorem eq_kelvin_of_lowerChar (hc : 128 ≤ c.toNat) (h : (lowerChar c).toNat < 128) :
    c = '\u212A' := by
  unfold lowerChar at h
  cases hfind : lowerRuns.find? (·.covers c) with
  | none =>
    rw [hfind] at h
    exact absurd h (Nat.not_lt.2 hc)
  | some run =>
    simp only [hfind] at h
    have hcovers := List.find?_some hfind
    obtain ⟨hlow, hhigh⟩ : run.first ≤ c.toNat ∧ c.toNat ≤ run.last :=
      CaseRun.le_of_covers hcovers
    have hmem := List.mem_of_find?_eq_some hfind
    rw [lowerRuns_eq_cons, List.mem_cons] at hmem
    rcases hmem with rfl | htail
    · have hcapital : c.toNat ≤ 0x5A := hhigh
      omega
    rcases (avoidsAscii_of_mem_tail run htail).2 with ⟨hfirst, hvalid⟩ | ⟨hfirst, hlast⟩
    -- The image is a character behind ASCII.
    · have hexists : (c.toNat + run.offset).toNat.isValidChar := by
        unfold Nat.isValidChar
        omega
      have himage : (Char.ofNat (c.toNat + run.offset).toNat).toNat =
          (c.toNat + run.offset).toNat := by
        rw [Char.ofNat, dif_pos hexists]
        exact UInt32.toNat_ofNatLT
      omega
    · have hnat : c.toNat = 0x212A := by omega
      rw [← Char.ofNat_toNat c, hnat]

/-- Lower-casing an ASCII text changes its ASCII capitals. -/
theorem lowerFrom_of_ascii (h : ∀ c ∈ text, c.toNat < 128) (letterBefore : Bool) :
    lowerFrom letterBefore text = text.map Char.toLower := by
  induction text generalizing letterBefore with
  | nil => rfl
  | cons c rest ih =>
    obtain ⟨hc, hrest⟩ := List.forall_mem_cons.1 h
    have hdotted : c ≠ 'İ' := by rintro rfl; exact absurd hc (by decide)
    have hsigma : c ≠ 'Σ' := by rintro rfl; exact absurd hc (by decide)
    rw [lowerFrom, if_neg hdotted, if_neg hsigma, lowerChar_of_ascii hc, ih hrest]
    rfl

/-- Lower-casing an ASCII text changes its ASCII capitals. -/
theorem lower_of_ascii (h : ∀ c ∈ text, c.toNat < 128) : lower text = text.map Char.toLower :=
  lowerFrom_of_ascii h false

/-- A text whose lower-case form is ASCII without a `k` is ASCII itself. -/
theorem ascii_of_lowerFrom {letterBefore : Bool}
    (h : ∀ c ∈ lowerFrom letterBefore text, c.toNat < 128 ∧ c ≠ 'k') :
    ∀ c ∈ text, c.toNat < 128 := by
  induction text generalizing letterBefore with
  | nil => exact fun c hc => absurd hc (by simp)
  | cons c rest ih =>
    rw [lowerFrom, List.forall_mem_append] at h
    obtain ⟨himage, hrest⟩ := h
    refine List.forall_mem_cons.2 ⟨?_, ih hrest⟩
    refine Nat.lt_of_not_le fun hc => ?_
    split at himage
    -- The dot of the dotted capital is no ASCII character.
    · exact absurd (himage '\u0307' (by simp)).1 (by decide)
    · split at himage
      · obtain ⟨hsigma, -⟩ := himage _ (List.mem_singleton_self _)
        split at hsigma <;> exact absurd hsigma (by decide)
      · obtain ⟨hascii, hk⟩ := himage _ (List.mem_singleton_self _)
        obtain rfl := eq_kelvin_of_lowerChar hc hascii
        exact hk (by decide +kernel)

/-- A text whose lower-case form is ASCII without a `k` is ASCII itself. -/
theorem ascii_of_lower (h : ∀ c ∈ lower text, c.toNat < 128 ∧ c ≠ 'k') :
    ∀ c ∈ text, c.toNat < 128 :=
  ascii_of_lowerFrom h

end Calculator.Text
