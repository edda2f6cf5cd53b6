import Calculator.Binary64.Arithmetic
import Calculator.Proofs.Binary64.Rounded

/-!
# The total order and the words of 64 bits

Numbers are kept as words of 64 bits: a sign, and below it the rank of the magnitude. The rank that
follows the last finite one is that of infinity, and all larger ones are NaNs (`ofWord`). The total
order also tells NaNs of the same sign apart (`wordPlace`). No two words and no two numbers are at the
same place of it (`wordPlace_injective`, `totalPlace_injective`), and the number of a word is where the
word is, but for NaNs of the same sign (`totalPlace_ofWord_le`). Finite numbers are in the order of
their values (`value_le_of_totalPlace_le`).
-/

namespace Calculator.Binary64

variable {a b : Bool} {r s : Nat} {x y : Binary64}

/-- The number that a word stands for. -/
def ofWord (word : BitVec 64) : Binary64 :=
  let rank := word.toNat % 2 ^ 63
  if bound : rank < magnitudes then finite word.msb ⟨rank, bound⟩
  else if rank = magnitudes then infinite word.msb
  else nan word.msb

example : ofWord 0x3ff0000000000000 = 1 ∧ ofWord 0xfff0000000000000 = infinite true ∧
    ofWord 0x7ff8000000000000 = nan false := by decide +kernel

/-- The place of a word in the total order: the negative words in the reverse order of their ranks, and
then the positive ones. -/
def wordPlace (word : BitVec 64) : Int :=
  totalPlace.signed word.msb (word.toNat % 2 ^ 63)

/-! ## Signs and ranks -/

/-- A sign and a rank have a place of their own. -/
theorem signed_inj (h : totalPlace.signed a r = totalPlace.signed b s) : a = b ∧ r = s := by
  unfold totalPlace.signed at h
  cases a <;> cases b <;> simp only [Bool.false_eq_true, if_true, if_false] at h
  · exact ⟨rfl, by omega⟩
  · omega
  · omega
  · exact ⟨rfl, by omega⟩

/-- Ranks that are cut off at a limit stay in order. -/
theorem signed_min_le (limit : Nat) (h : totalPlace.signed a r ≤ totalPlace.signed b s) :
    totalPlace.signed a (min r limit) ≤ totalPlace.signed b (min s limit) := by
  unfold totalPlace.signed at h ⊢
  cases a <;> cases b <;> simp only [Bool.false_eq_true, if_true, if_false] at h ⊢ <;> omega

/-- No two numbers are at the same place. -/
theorem totalPlace_injective (h : x.totalPlace = y.totalPlace) : x = y := by
  cases x with
  | nan a =>
    cases y with
    | nan b => exact congrArg nan (signed_inj h).1
    | infinite b => exact absurd (signed_inj h).2 (by omega)
    | finite b s => exact absurd (signed_inj h).2 (by omega)
  | infinite a =>
    cases y with
    | nan b => exact absurd (signed_inj h).2 (by omega)
    | infinite b => exact congrArg infinite (signed_inj h).1
    | finite b s => exact absurd (signed_inj h).2 (by omega)
  | finite a r =>
    cases y with
    | nan b => exact absurd (signed_inj h).2 (by omega)
    | infinite b => exact absurd (signed_inj h).2 (by omega)
    | finite b s =>
      obtain ⟨rfl, hrank⟩ := signed_inj h
      rw [Fin.ext hrank]

/-! ## Values -/

/-- Finite numbers that are in the total order are in the order of their values. -/
theorem value_le_of_totalPlace_le (hx : x.isFinite = true) (hy : y.isFinite = true)
    (h : x.totalPlace ≤ y.totalPlace) : x.value ≤ y.value := by
  obtain ⟨s, i, rfl⟩ := exists_finite hx
  obtain ⟨t, j, rfl⟩ := exists_finite hy
  have hunits (i j : Nat) (hij : i ≤ j) : units i ≤ units j :=
    units_strictMono.monotone hij
  rw [value, value, div_le_div_iff_of_pos_right unitsPerOne_cast_pos,
    Int.cast_le]
  unfold totalPlace totalPlace.signed at h
  cases s <;> cases t <;> simp only [Bool.false_eq_true, if_true, if_false] at h
  · exact Int.ofNat_le.2 (hunits i j (by omega))
  · omega
  · exact Int.le_trans (Int.neg_nonpos_of_nonneg (Int.natCast_nonneg _)) (Int.natCast_nonneg _)
  · exact Int.neg_le_neg (Int.ofNat_le.2 (hunits j i (by omega)))

/-! ## Words -/

/-- A word is its sign above its rank. -/
theorem toNat_eq_sign_rank (word : BitVec 64) :
    word.toNat = (if word.msb then 2 ^ 63 else 0) + word.toNat % 2 ^ 63 := by
  have hlt := word.isLt
  rw [BitVec.msb_eq_decide]
  simp only [decide_eq_true_iff]
  split <;> omega

/-- No two words are at the same place. -/
theorem wordPlace_injective {v w : BitVec 64} (h : wordPlace v = wordPlace w) : v = w := by
  obtain ⟨hsign, hrank⟩ := signed_inj h
  apply BitVec.eq_of_toNat_eq
  rw [toNat_eq_sign_rank v, toNat_eq_sign_rank w, hsign, hrank]

/-- The number of a word is at the place of the word, but for NaNs. -/
theorem totalPlace_ofWord (word : BitVec 64) :
    (ofWord word).totalPlace =
      totalPlace.signed word.msb (min (word.toNat % 2 ^ 63) (magnitudes + 1)) := by
  unfold ofWord
  dsimp only
  split
  · next hbound => rw [totalPlace, Nat.min_eq_left (by omega)]
  · split
    · next hlast => rw [totalPlace, hlast, Nat.min_eq_left (by omega)]
    · rw [totalPlace, Nat.min_eq_right (by omega)]

/-- The numbers of words are in the order of the words. -/
theorem totalPlace_ofWord_le (v w : BitVec 64) (h : wordPlace v ≤ wordPlace w) :
    (ofWord v).totalPlace ≤ (ofWord w).totalPlace := by
  rw [totalPlace_ofWord, totalPlace_ofWord]
  exact signed_min_le _ h

end Calculator.Binary64
