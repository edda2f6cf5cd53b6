import Calculator.Proofs.Binary64.TotalOrder
import Calculator.Proofs.Statistics.Place
import Calculator.Statistics

/-!
# The median as an order statistic

The median of an odd number of numbers is the one in the middle place of the total order, and that of
an even number is half the sum of the two in the middle places (`median_of_odd`, `median_of_even`).
Which number is at a place is a matter of counting, so the order in which the numbers are given has no
influence (`median_perm`). Numbers that are given as words are taken at the places of the words, where
NaNs count as different if their words are (`median_isMiddle`).
-/

namespace Calculator.Statistics

open Binary64 (ofWord totalPlace wordPlace)

variable {xs ys : List Binary64} {k : Nat} {x a b : Binary64} {words : List (BitVec 64)}
  {word : BitVec 64}

/-! ## Numbers in order -/

/-- The sorted numbers are those at the places 0, 1, 2 and so on. -/
theorem getElem?_sorted (h : IsAtPlace totalPlace xs k x) : (sorted xs)[k]? = some x := by
  have hlength : (sorted xs).length = xs.length := List.length_mergeSort xs
  have hk : k < (sorted xs).length := by
    have habove := h.above
    omega
  have hplace : IsAtPlace totalPlace xs k (sorted xs)[k] := isAtPlace_mergeSort totalPlace hk
  rw [List.getElem?_eq_getElem hk, Binary64.totalPlace_injective (hplace.key_eq h)]

/-- The order in which numbers are given has no influence on the sorted numbers. -/
theorem sorted_perm (h : xs.Perm ys) : sorted xs = sorted ys := by
  refine List.Perm.eq_of_pairwise (fun x y _ _ hxy hyx => ?_)
    (pairwise_mergeSort_keyLe totalPlace xs) (pairwise_mergeSort_keyLe totalPlace ys) ?_
  · exact Binary64.totalPlace_injective (Int.le_antisymm hxy hyx)
  · exact (List.mergeSort_perm xs _).trans (h.trans (List.mergeSort_perm ys _).symm)

/-! ## The median -/

/-- The median of an odd number of numbers is the one in the middle. -/
theorem median_of_odd (hodd : xs.length % 2 = 1) (h : IsAtPlace totalPlace xs (xs.length / 2) x) :
    median xs = x := by
  have hne : ¬ xs.isEmpty = true := fun hnil => List.ne_nil_of_mem h.mem (List.isEmpty_iff.1 hnil)
  rw [median, if_neg hne]
  dsimp only
  rw [if_neg (by omega), getElem?_sorted h]
  rfl

/-- The median of an even number of numbers is half the sum of the two in the middle. -/
theorem median_of_even (heven : xs.length % 2 = 0)
    (ha : IsAtPlace totalPlace xs (xs.length / 2 - 1) a)
    (hb : IsAtPlace totalPlace xs (xs.length / 2) b) : median xs = (a + b) / 2 := by
  have hne : ¬ xs.isEmpty = true := fun hnil => List.ne_nil_of_mem ha.mem (List.isEmpty_iff.1 hnil)
  rw [median, if_neg hne]
  dsimp only
  rw [if_pos heven, getElem?_sorted ha, getElem?_sorted hb]
  rfl

/-- The order in which numbers are given has no influence on the median. -/
theorem median_perm (h : xs.Perm ys) : median xs = median ys := by
  have hempty : xs.isEmpty = ys.isEmpty := by
    rw [Bool.eq_iff_iff, List.isEmpty_iff, List.isEmpty_iff]
    exact ⟨fun hnil => List.nil_perm.1 (hnil ▸ h), fun hnil => List.perm_nil.1 (hnil ▸ h)⟩
  rw [median, median, hempty, sorted_perm h, h.length_eq]

/-! ## Numbers as words -/

/-- The number of a word is among the numbers where the word is among the words. -/
theorem isAtPlace_ofWord (h : IsAtPlace wordPlace words k word) :
    IsAtPlace totalPlace (words.map ofWord) k (ofWord word) :=
  h.map Binary64.totalPlace_ofWord_le

/-- The word is one of the words, at most half of the others are below it, and at most half of them
above. -/
structure IsMiddle (words : List (BitVec 64)) (word : BitVec 64) : Prop where
  /-- It is one of the words. -/
  mem : word ∈ words
  /-- At most half of the others are below it in the total order. -/
  below : countBelow wordPlace words word ≤ (words.length - 1) / 2
  /-- At most half of the others are above it. -/
  above : countAbove wordPlace words word ≤ (words.length - 1) / 2

/-- The word in the middle of an odd number of words is at the place in the middle. -/
theorem isMiddle_iff (hodd : words.length % 2 = 1) :
    IsMiddle words word ↔ IsAtPlace wordPlace words (words.length / 2) word := by
  constructor
  · rintro ⟨hmem, hbelow, habove⟩
    exact ⟨hmem, by omega, by omega⟩
  · rintro ⟨hmem, hbelow, habove⟩
    exact ⟨hmem, by omega, by omega⟩

/-- **The median is an order statistic.** In the total order there is one word at every place. The
median of an odd number of words is the number of the only word in the middle, and that of an even
number of words half the sum of the numbers of the two words in the middle. It is the same for every
order in which the words are given. -/
theorem median_isMiddle (words : List (BitVec 64)) :
    (∀ k < words.length, ∃ word, IsAtPlace wordPlace words k word ∧
      ∀ other, IsAtPlace wordPlace words k other → other = word) ∧
    (words.length % 2 = 1 → ∃ word, IsMiddle words word ∧
      (∀ other, IsMiddle words other → other = word) ∧
      median (words.map ofWord) = ofWord word) ∧
    (words.length % 2 = 0 → ∀ a b, IsAtPlace wordPlace words (words.length / 2 - 1) a →
      IsAtPlace wordPlace words (words.length / 2) b →
        median (words.map ofWord) = (ofWord a + ofWord b) / 2) ∧
    ∀ others, words.Perm others → median (others.map ofWord) = median (words.map ofWord) := by
  have hplaces (k : Nat) (hk : k < words.length) : ∃ word, IsAtPlace wordPlace words k word ∧
      ∀ other, IsAtPlace wordPlace words k other → other = word :=
    existsUnique_isAtPlace (fun _ _ => Binary64.wordPlace_injective) hk
  refine ⟨hplaces, fun hodd => ?_, fun heven a b ha hb => ?_, fun others hperm => ?_⟩
  · obtain ⟨word, hword, hunique⟩ := hplaces (words.length / 2) (by omega)
    refine ⟨word, (isMiddle_iff hodd).2 hword, fun other hother => ?_, ?_⟩
    · exact hunique other ((isMiddle_iff hodd).1 hother)
    · have hplace := isAtPlace_ofWord hword
      rw [← List.length_map ofWord] at hodd hplace
      exact median_of_odd hodd hplace
  · have hplace := isAtPlace_ofWord ha
    have hplace' := isAtPlace_ofWord hb
    rw [← List.length_map ofWord] at heven hplace hplace'
    exact median_of_even heven hplace hplace'
  · exact (median_perm (hperm.map ofWord)).symm

end Calculator.Statistics
