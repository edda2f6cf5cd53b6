/-!
# Sizes in bytes

Lengths and positions are counted in bytes of the encoded text. A text can be cut at a byte offset
only where a character begins or where the text ends. There is no cut inside a character and none
behind the text.
-/

namespace Calculator.Text

/-- The bytes of a list of characters. -/
def byteLength (chars : List Char) : Nat :=
  chars.foldr (fun c count => c.utf8Size + count) 0

/-- The parts of a text before and after a byte offset, if it can be cut there. -/
def cut? (offset : Nat) : List Char → Option (List Char × List Char)
  | [] => if offset = 0 then some ([], []) else none
  | c :: rest =>
    if offset = 0 then some ([], c :: rest)
    else if c.utf8Size ≤ offset then
      (cut? (offset - c.utf8Size) rest).map fun (front, back) => (c :: front, back)
    else none

/-- The characters from the byte offset `start` up to `stop`, if the text can be cut at both. -/
def slice? (chars : List Char) (start stop : Nat) : Option (List Char) := do
  let (_, rest) ← cut? start chars
  let (part, _) ← cut? (stop - start) rest
  return part

@[simp] theorem byteLength_nil : byteLength [] = 0 := rfl

@[simp] theorem byteLength_cons (c : Char) (chars : List Char) :
    byteLength (c :: chars) = c.utf8Size + byteLength chars := rfl

/-- Sizes add up. -/
theorem byteLength_append (front back : List Char) :
    byteLength (front ++ back) = byteLength front + byteLength back := by
  induction front with
  | nil => exact (Nat.zero_add _).symm
  | cons c front ih => rw [List.cons_append, byteLength_cons, byteLength_cons, ih, Nat.add_assoc]

/-- What is not empty has a size. -/
theorem byteLength_pos {chars : List Char} (h : chars ≠ []) : 0 < byteLength chars := by
  obtain ⟨c, rest, rfl⟩ := List.exists_cons_of_ne_nil h
  exact Nat.add_pos_left (Char.utf8Size_pos c) _

/-- Characters of one byte each are as many as their bytes. -/
theorem byteLength_eq_length {chars : List Char} (h : ∀ c ∈ chars, c.utf8Size = 1) :
    byteLength chars = chars.length := by
  induction chars with
  | nil => rfl
  | cons c rest ih =>
    rw [byteLength_cons, List.length_cons, h c List.mem_cons_self,
      ih fun c hc => h c (List.mem_cons_of_mem _ hc), Nat.add_comm]

/-- Of two beginnings of a text the one with fewer bytes is the beginning of the other. -/
theorem exists_of_append_eq {front rest front' rest' : List Char}
    (h : front ++ rest = front' ++ rest') (hle : byteLength front ≤ byteLength front') :
    ∃ part, front' = front ++ part ∧ rest = part ++ rest' := by
  rcases List.append_eq_append_iff.1 h with ⟨part, hfront, hrest⟩ | ⟨part, hfront, hrest⟩
  · exact ⟨part, hfront, hrest⟩
  · cases part with
    | nil => exact ⟨[], by rw [hfront, List.append_nil, List.append_nil], hrest.symm⟩
    | cons c part =>
      have hpos := byteLength_pos (List.cons_ne_nil c part)
      rw [hfront, byteLength_append] at hle
      omega

/-- A text can be cut behind each of its beginnings. -/
theorem cut?_append (front back : List Char) :
    cut? (byteLength front) (front ++ back) = some (front, back) := by
  induction front with
  | nil => cases back <;> rfl
  | cons c front ih =>
    have hpos := Char.utf8Size_pos c
    rw [List.cons_append, cut?, byteLength_cons, if_neg (by omega), if_pos (by omega),
      Nat.add_sub_cancel_left, ih]
    rfl

/-- A cut divides a text in two, and the first part has the bytes before the offset. -/
theorem cut?_eq_some_iff {offset : Nat} {chars front back : List Char} :
    cut? offset chars = some (front, back) ↔ chars = front ++ back ∧ byteLength front = offset := by
  refine ⟨fun h => ?_, fun ⟨happend, hoffset⟩ => happend ▸ hoffset ▸ cut?_append front back⟩
  induction chars generalizing offset front with
  | nil =>
    rw [cut?] at h
    split at h
    · cases h
      exact ⟨rfl, by simp [*]⟩
    · cases h
  | cons c rest ih =>
    rw [cut?] at h
    split at h
    · cases h
      exact ⟨rfl, by simp [*]⟩
    · split at h
      · rw [Option.map_eq_some_iff] at h
        obtain ⟨⟨inner, _⟩, hcut, hparts⟩ := h
        cases hparts
        obtain ⟨rfl, hlength⟩ := ih hcut
        exact ⟨rfl, by rw [byteLength_cons]; omega⟩
      · cases h

/-- What lies between two places at which a text can be cut can be cut out. -/
theorem isSome_slice? {chars : List Char} {start stop : Nat} (hstart : (cut? start chars).isSome)
    (hstop : (cut? stop chars).isSome) (hle : start ≤ stop) : (slice? chars start stop).isSome := by
  obtain ⟨⟨front, rest⟩, hfront⟩ := Option.isSome_iff_exists.1 hstart
  obtain ⟨⟨front', rest'⟩, hfront'⟩ := Option.isSome_iff_exists.1 hstop
  obtain ⟨rfl, rfl⟩ := cut?_eq_some_iff.1 hfront
  obtain ⟨happend, rfl⟩ := cut?_eq_some_iff.1 hfront'
  obtain ⟨part, rfl, rfl⟩ := exists_of_append_eq happend hle
  have hlength : byteLength (front ++ part) - byteLength front = byteLength part := by
    rw [byteLength_append, Nat.add_sub_cancel_left]
  simp only [slice?, hfront, hlength, cut?_append, Option.bind_eq_bind, Option.bind_some,
    Option.pure_def, Option.isSome_some]

end Calculator.Text
