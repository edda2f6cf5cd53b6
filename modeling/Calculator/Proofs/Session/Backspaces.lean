import Calculator.Session

/-!
# Reading lines with backspaces

A backspace takes back a number of bytes, and the line can only be cut between two characters. While
no cluster of a line has 256 bytes or more, these bytes are just those of the last cluster that is
still there: the line can be read, and what is read are the clusters that no backspace takes back
(`applyBackspaces?_eq`). A line without backspaces can always be read, as it stands
(`applyBackspaces?_eq_self`). An input is read to its end if each of its lines can be read
(`breaksOff_ofText`).
-/

namespace Calculator.Session

open Text

variable {cluster chars line rest : List Char} {stack others : List (List Char)}

/-! ## Clusters that are taken back -/

/-- The clusters that are there after a further one, the last one first. A backspace takes back the
last one. -/
def keep (stack : List (List Char)) (cluster : List Char) : List (List Char) :=
  if cluster = ['\x08'] then stack.tail else cluster :: stack

/-- The clusters that no backspace after them takes back, in order. -/
def keptClusters (clusters : List (List Char)) : List (List Char) :=
  (clusters.foldl keep []).reverse

/-- No cluster is as large as a byte can count. -/
def AreSmall (clusters : List (List Char)) : Prop := ∀ cluster ∈ clusters, byteLength cluster < 256

instance : DecidablePred AreSmall := fun _ => inferInstanceAs (Decidable (∀ _ ∈ _, _))

/-- What has been typed when some clusters are there. -/
def Typed.ofStack (stack : List (List Char)) : Typed :=
  ⟨(stack.map List.reverse).flatten, stack.map byteLength⟩

/-- What has been typed, in order, are the clusters that are there. -/
theorem Typed.reverse_chars_ofStack (stack : List (List Char)) :
    (ofStack stack).chars.reverse = stack.reverse.flatten := by
  induction stack with
  | nil => rfl
  | cons top others ih =>
    have hchars : (ofStack (top :: others)).chars = top.reverse ++ (ofStack others).chars := rfl
    rw [hchars, List.reverse_append, ih, List.reverse_reverse, List.reverse_cons,
      List.flatten_append, List.flatten_singleton]

/-- The bytes of a list of characters in reverse order. -/
theorem byteLength_reverse (chars : List Char) : byteLength chars.reverse = byteLength chars := by
  induction chars with
  | nil => rfl
  | cons c rest ih =>
    rw [List.reverse_cons, byteLength_append, byteLength_cons, byteLength_nil, Nat.add_zero,
      byteLength_cons, ih, Nat.add_comm]

/-- Where all clusters are small, a backspace takes back just the last one. -/
theorem enter?_ofStack (hcluster : byteLength cluster < 256) :
    (Typed.ofStack stack).enter? cluster = some (.ofStack (keep stack cluster)) := by
  rw [Typed.enter?, keep]
  split
  · cases stack with
    | nil => rfl
    | cons top others =>
      -- The characters of the last cluster stand in front, in reverse order.
      have hcut : cut? (byteLength top) (Typed.ofStack (top :: others)).chars =
          some (top.reverse, (Typed.ofStack others).chars) := by
        rw [← byteLength_reverse top]
        exact cut?_append _ _
      simp only [Typed.ofStack, List.map_cons, List.tail_cons] at hcut ⊢
      rw [hcut]
      rfl
  · rw [Nat.mod_eq_of_lt hcluster]
    rfl

/-- Small clusters can be typed one after the other. -/
theorem foldlM_enter? (stack : List (List Char)) (hothers : AreSmall others) :
    others.foldlM Typed.enter? (.ofStack stack) = some (.ofStack (others.foldl keep stack)) := by
  induction others generalizing stack with
  | nil => rfl
  | cons cluster others ih =>
    obtain ⟨hcluster, hothers⟩ := List.forall_mem_cons.1 hothers
    rw [List.foldlM_cons, enter?_ofStack hcluster]
    exact ih _ hothers

/-- **A line of small clusters can be read.** What is read are the clusters that no backspace takes
back. -/
theorem applyBackspaces?_eq (h : AreSmall (clusters chars)) :
    applyBackspaces? chars = some (keptClusters (clusters chars)).flatten := by
  have hfold : (clusters chars).foldlM Typed.enter? {} =
      some (.ofStack ((clusters chars).foldl keep [])) := foldlM_enter? [] h
  rw [applyBackspaces?, hfold]
  exact congrArg some (Typed.reverse_chars_ofStack _)

/-- A letter with 130 marks has 261 bytes, and a backspace would take back five of them. -/
example : applyBackspaces? ('e' :: List.replicate 130 '\u0301' ++ ['\x08']) = none := by
  decide +kernel

/-! ## Lines without backspaces -/

/-- A line without backspaces is read as it stands. -/
theorem applyBackspaces?_eq_self (h : '\x08' ∉ chars) : applyBackspaces? chars = some chars := by
  -- Every cluster is typed, since none of them is a backspace.
  have hfold : ∀ (clusters : List (List Char)) (typed : Typed), '\x08' ∉ clusters.flatten →
      (clusters.foldlM Typed.enter? typed).map Typed.chars =
        some (clusters.flatten.reverse ++ typed.chars) := by
    intro clusters
    induction clusters with
    | nil => intro typed _; rfl
    | cons cluster others ih =>
      intro typed hclean
      rw [List.flatten_cons, List.mem_append, not_or] at hclean
      have hne : cluster ≠ ['\x08'] := by
        rintro rfl
        exact hclean.1 (List.mem_singleton.2 rfl)
      rw [List.foldlM_cons, Typed.enter?, if_neg hne]
      simp only [Option.bind_eq_bind, Option.bind_some]
      rw [ih _ hclean.2]
      simp
  have hclusters := hfold (clusters chars) {} (by rwa [flatten_clusters])
  rw [flatten_clusters, Option.map_eq_some_iff] at hclusters
  obtain ⟨typed, htyped, hchars⟩ := hclusters
  rw [applyBackspaces?, htyped]
  simp [hchars]

/-! ## Inputs -/

/-- An input is read to its end if each of its lines can be read. -/
theorem breaksOff_ofLines {lines : List (List Char)}
    (h : ∀ line ∈ lines, (applyBackspaces? line).isSome) :
    (Input.ofLines lines).breaksOff = false := by
  induction lines with
  | nil => rfl
  | cons line others ih =>
    obtain ⟨hline, hothers⟩ := List.forall_mem_cons.1 h
    obtain ⟨chars, hchars⟩ := Option.isSome_iff_exists.1 hline
    rw [Input.ofLines, hchars]
    exact ih hothers

/-- An input of lines of small clusters is read to its end. -/
theorem breaksOff_ofText {input : String}
    (h : ∀ line ∈ linesOf input.toList, AreSmall (clusters line)) :
    (Input.ofText input).breaksOff = false := by
  refine breaksOff_ofLines fun line hline => ?_
  rw [applyBackspaces?_eq (h line hline)]
  rfl

/-- The first line of an input, and the lines after it. -/
theorem linesOf_append (h : '\n' ∉ line) :
    linesOf (line ++ '\n' :: rest) = line :: linesOf rest := by
  induction line with
  | nil => rfl
  | cons c line ih =>
    rw [List.mem_cons, not_or] at h
    rw [List.cons_append, linesOf, ih h.2]
    exact fun hc => h.1 hc.symm

/-- An input of lines without backspaces is read as these lines, in order and to its end. -/
theorem ofText_join (lines : List String)
    (h : ∀ line ∈ lines, '\n' ∉ line.toList ∧ '\x08' ∉ line.toList) :
    Input.ofText (String.join (lines.map (· ++ "\n"))) = ⟨lines, false⟩ := by
  induction lines with
  | nil => rfl
  | cons line others ih =>
    obtain ⟨hline, hothers⟩ := List.forall_mem_cons.1 h
    have hrest := ih hothers
    rw [Input.ofText] at hrest ⊢
    have hjoin : (String.join ((line :: others).map (· ++ "\n"))).toList =
        line.toList ++ '\n' :: (String.join (others.map (· ++ "\n"))).toList := by
      simp
    rw [hjoin, linesOf_append hline.1, Input.ofLines, applyBackspaces?_eq_self hline.2, hrest]
    simp only [String.ofList_toList]

end Calculator.Session
