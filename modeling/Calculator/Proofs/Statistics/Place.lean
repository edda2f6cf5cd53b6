/-!
# Places in an order

Where a thing stands among others that are put in order can be said by counting, without an order
of the list: `IsAtPlace` says how many have a smaller key at most, and how many a larger one. In a list
that is in order the entry with the index `k` is at place `k` (`isAtPlace_getElem`). Things at later
places do not have smaller keys (`IsAtPlace.key_le`), so where different things have different keys
there is one thing at every place (`existsUnique_isAtPlace`). Places do not depend on the order of the
list (`IsAtPlace.perm`), and a function that keeps the order keeps them (`IsAtPlace.map`).
-/

namespace Calculator.Statistics

variable {α β : Type} {key : α → Int} {xs ys : List α} {k l : Nat} {x y : α}

/-- How many of the things have a smaller key than `x`. -/
def countBelow (key : α → Int) (xs : List α) (x : α) : Nat :=
  xs.countP fun y => key y < key x

/-- How many of the things have a larger key than `x`. -/
def countAbove (key : α → Int) (xs : List α) (x : α) : Nat :=
  xs.countP fun y => key x < key y

/-- In the order of the keys `x` is at place `k` among the things, counted from zero. -/
structure IsAtPlace (key : α → Int) (xs : List α) (k : Nat) (x : α) : Prop where
  /-- It is one of them. -/
  mem : x ∈ xs
  /-- There are not more below it than places before `k`. -/
  below : countBelow key xs x ≤ k
  /-- There are not more above it than places after `k`. -/
  above : k + countAbove key xs x < xs.length

/-! ## Order of the places -/

/-- Whoever is not above `y` is below `x`, if `y` is. -/
theorem length_le_of_key_lt (h : key y < key x) (xs : List α) :
    xs.length ≤ countAbove key xs y + countBelow key xs x := by
  rw [xs.length_eq_countP_add_countP fun z => decide (key y < key z)]
  refine Nat.add_le_add_left (List.countP_mono_left fun z _ hz => ?_) _
  have hle : key z ≤ key y := by simpa using hz
  exact decide_eq_true (Int.lt_of_le_of_lt hle h)

/-- What is at a later place does not have a smaller key. -/
theorem IsAtPlace.key_le (hx : IsAtPlace key xs k x) (hy : IsAtPlace key xs l y) (h : k ≤ l) :
    key x ≤ key y := by
  refine Int.not_lt.1 fun hlt => ?_
  have hlength := length_le_of_key_lt hlt xs
  have hbelow := hx.below
  have habove := hy.above
  omega

/-- What is at the same place has the same key. -/
theorem IsAtPlace.key_eq (hx : IsAtPlace key xs k x) (hy : IsAtPlace key xs k y) : key x = key y :=
  Int.le_antisymm (hx.key_le hy (Nat.le_refl k)) (hy.key_le hx (Nat.le_refl k))

/-! ## Lists -/

/-- In a list that is in order every entry is at the place of its index. -/
theorem isAtPlace_getElem (h : xs.Pairwise fun a b => key a ≤ key b) (hk : k < xs.length) :
    IsAtPlace key xs k xs[k] := by
  have hle (i j : Nat) (hi : i < xs.length) (hj : j < xs.length) (hij : i ≤ j) :
      key xs[i] ≤ key xs[j] := by
    rcases Nat.eq_or_lt_of_le hij with rfl | hlt
    · exact Int.le_refl _
    · exact List.pairwise_iff_getElem.1 h i j hi hj hlt
  refine ⟨List.getElem_mem hk, ?_, ?_⟩
  · -- Below it there can only be entries before it.
    have hdrop : (xs.drop k).countP (fun y => key y < key xs[k]) = 0 := by
      refine List.countP_eq_zero.2 fun y hy => ?_
      obtain ⟨j, hj, rfl⟩ := List.mem_drop_iff_getElem.1 hy
      simpa using hle k (k + j) hk (by omega) (Nat.le_add_right k j)
    calc countBelow key xs xs[k]
        = (xs.take k ++ xs.drop k).countP (fun y => key y < key xs[k]) := by
          rw [List.take_append_drop, countBelow]
      _ = (xs.take k).countP (fun y => key y < key xs[k]) := by
          rw [List.countP_append, hdrop, Nat.add_zero]
      _ ≤ (xs.take k).length := List.countP_le_length
      _ ≤ k := List.length_take_le k xs
  · -- Above it there can only be entries after it.
    have htake : (xs.take (k + 1)).countP (fun y => key xs[k] < key y) = 0 := by
      refine List.countP_eq_zero.2 fun y hy => ?_
      obtain ⟨j, hj, rfl⟩ := List.mem_take_iff_getElem.1 hy
      simpa using hle j k (by omega) hk (by omega)
    have hcount : countAbove key xs xs[k] ≤ xs.length - (k + 1) :=
      calc countAbove key xs xs[k]
          = (xs.take (k + 1) ++ xs.drop (k + 1)).countP (fun y => key xs[k] < key y) := by
            rw [List.take_append_drop, countAbove]
        _ = (xs.drop (k + 1)).countP (fun y => key xs[k] < key y) := by
            rw [List.countP_append, htake, Nat.zero_add]
        _ ≤ (xs.drop (k + 1)).length := List.countP_le_length
        _ = xs.length - (k + 1) := List.length_drop
    omega

/-- Places do not depend on the order of the list. -/
theorem IsAtPlace.perm (h : IsAtPlace key xs k x) (hperm : xs.Perm ys) : IsAtPlace key ys k x := by
  refine ⟨hperm.mem_iff.1 h.mem, ?_, ?_⟩
  · rw [countBelow, ← hperm.countP_eq]
    exact h.below
  · rw [countAbove, ← hperm.countP_eq, ← hperm.length_eq]
    exact h.above

/-- A function that keeps the order of the keys keeps places. -/
theorem IsAtPlace.map {key' : β → Int} {f : α → β}
    (hf : ∀ a b, key a ≤ key b → key' (f a) ≤ key' (f b)) (h : IsAtPlace key xs k x) :
    IsAtPlace key' (xs.map f) k (f x) := by
  have hlt (a b : α) (hab : key' (f a) < key' (f b)) : key a < key b :=
    Int.not_le.1 fun hle => Int.not_le.2 hab (hf b a hle)
  refine ⟨List.mem_map_of_mem h.mem, ?_, ?_⟩
  · refine Nat.le_trans ?_ h.below
    rw [countBelow, List.countP_map]
    exact List.countP_mono_left fun y _ hy => decide_eq_true (hlt y x (of_decide_eq_true hy))
  · rw [List.length_map]
    refine Nat.lt_of_le_of_lt (Nat.add_le_add_left ?_ k) h.above
    rw [countAbove, List.countP_map]
    exact List.countP_mono_left fun y _ hy => decide_eq_true (hlt x y (of_decide_eq_true hy))

/-! ## Lists put in order -/

/-- Whether the key of the first thing is not larger than that of the second. -/
def keyLe (key : α → Int) (a b : α) : Bool := key a ≤ key b

/-- Putting things in the order of their keys leaves no key before a smaller one. -/
theorem pairwise_mergeSort_keyLe (key : α → Int) (xs : List α) :
    (xs.mergeSort (keyLe key)).Pairwise fun a b => key a ≤ key b := by
  have htrans (a b c : α) (hab : keyLe key a b = true) (hbc : keyLe key b c = true) :
      keyLe key a c = true :=
    decide_eq_true (Int.le_trans (of_decide_eq_true hab) (of_decide_eq_true hbc))
  have htotal (a b : α) : (keyLe key a b || keyLe key b a) = true := by
    simpa [keyLe] using Int.le_total (key a) (key b)
  exact (List.pairwise_mergeSort htrans htotal xs).imp of_decide_eq_true

/-- The things put in order are those at the places 0, 1, 2 and so on. -/
theorem isAtPlace_mergeSort (key : α → Int) (hk : k < (xs.mergeSort (keyLe key)).length) :
    IsAtPlace key xs k (xs.mergeSort (keyLe key))[k] :=
  (isAtPlace_getElem (pairwise_mergeSort_keyLe key xs) hk).perm (List.mergeSort_perm xs _)

/-- There is one thing at every place, if different things have different keys. -/
theorem existsUnique_isAtPlace (hkey : ∀ a b, key a = key b → a = b) (hk : k < xs.length) :
    ∃ x, IsAtPlace key xs k x ∧ ∀ y, IsAtPlace key xs k y → y = x := by
  rw [← @List.length_mergeSort _ (keyLe key) xs] at hk
  have hplace := isAtPlace_mergeSort key hk
  exact ⟨_, hplace, fun y hy => hkey _ _ (hy.key_eq hplace)⟩

end Calculator.Statistics
