import Calculator.Text.Case
import Calculator.Text.ClusterTable

/-!
# Character clusters

How rustyline divides a line. What a reader takes for one character can be several: a letter with
its marks, a flag made of two regional letters, pictures that a joiner combines, a conjunct of Indic
consonants, a syllable of Hangul. The rules of the character standard say between which characters a
text can be cut; the stretches between two cuts are its clusters. Put together they are the text
again.
-/

namespace Calculator.Text

/-- The part that a character plays in clusters. -/
inductive ClusterPart where
  | plain
  | carriageReturn
  | lineFeed
  /-- A character that joins no other one. -/
  | control
  /-- A mark that extends what is before it. -/
  | extending
  /-- The joiner of pictures. -/
  | joiner
  /-- A mark that has a width of its own. -/
  | spacing
  /-- A character that belongs to the one after it. -/
  | prepended
  /-- A letter of a pair that stands for a region. -/
  | regional
  /-- The beginning of a syllable of Hangul. -/
  | leading
  /-- The vowel of a syllable of Hangul. -/
  | vowel
  /-- The end of a syllable of Hangul. -/
  | trailing
  /-- A syllable of Hangul that ends with its vowel. -/
  | openSyllable
  /-- A syllable of Hangul with an end. -/
  | closedSyllable
  | pictograph
  /-- A consonant that forms conjuncts. -/
  | consonant
  deriving DecidableEq

namespace ClusterPart

/-- The part of a character. Printable characters of ASCII have none. -/
def ofChar (c : Char) : ClusterPart :=
  let n := c.toNat
  if 0x20 ≤ n ∧ n ≤ 0x7E then plain
  else if c = '\r' then carriageReturn
  else if c = '\n' then lineFeed
  else if n = 0x200D then joiner
  else if 0xAC00 ≤ n ∧ n ≤ 0xD7A3 then
    if (n - 0xAC00) % 28 = 0 then openSyllable else closedSyllable
  else if 0x1F1E6 ≤ n ∧ n ≤ 0x1F1FF then regional
  else if inRanges controlRanges c then control
  else if inRanges extendingRanges c then extending
  else if inRanges spacingRanges c then spacing
  else if inRanges prependedRanges c then prepended
  else if inRanges leadingRanges c then leading
  else if inRanges vowelRanges c then vowel
  else if inRanges trailingRanges c then trailing
  else if inRanges pictographRanges c then pictograph
  else if inRanges consonantRanges c then consonant
  else plain

end ClusterPart

/-- What the characters before a place have to say about a cut there. -/
structure ClusterContext where
  /-- The part of the last character. -/
  part : ClusterPart
  /-- Whether the last character is a regional letter that still has no partner. -/
  unpaired : Bool
  /-- Whether the last characters are a pictograph and marks that extend it. -/
  pictured : Bool
  /-- Whether a joiner follows a pictograph and its marks. -/
  joined : Bool
  /-- Whether the last characters are a consonant and marks between which conjuncts form. -/
  stemmed : Bool
  /-- Whether one of these marks links the consonant to the next one. -/
  linked : Bool

namespace ClusterContext

/-- The context at the beginning of a text, where a cut always is. -/
def start : ClusterContext := ⟨.control, false, false, false, false, false⟩

/-- Whether a mark does not part a consonant from the next one. All joiners and extending marks are
such, but for the one that keeps letters from joining. -/
def keepsConjunct (c : Char) : Bool :=
  let part := ClusterPart.ofChar c
  part == .joiner || (part == .extending && c.toNat != 0x200C)

/-- The context after a further character. -/
def after (context : ClusterContext) (c : Char) : ClusterContext :=
  let part := ClusterPart.ofChar c
  let keeps := keepsConjunct c
  { part
    unpaired := part == .regional && !context.unpaired
    pictured := part == .pictograph || (context.pictured && part == .extending)
    joined := context.pictured && part == .joiner
    stemmed := part == .consonant || (context.stemmed && keeps)
    linked := context.stemmed && (linkers.contains c.toNat || (context.linked && keeps)) }

/-- Whether a character belongs to the cluster before it. -/
def joins (context : ClusterContext) (c : Char) : Bool :=
  match context.part, ClusterPart.ofChar c with
  | .carriageReturn, .lineFeed => true
  | .carriageReturn, _ | .lineFeed, _ | .control, _ => false
  | _, .carriageReturn | _, .lineFeed | _, .control => false
  | .leading, .leading | .leading, .vowel => true
  | .leading, .openSyllable | .leading, .closedSyllable => true
  | .openSyllable, .vowel | .openSyllable, .trailing => true
  | .vowel, .vowel | .vowel, .trailing => true
  | .closedSyllable, .trailing | .trailing, .trailing => true
  | _, .extending | _, .joiner | _, .spacing => true
  | .prepended, _ => true
  | _, .consonant => context.linked
  | .joiner, .pictograph => context.joined
  | .regional, .regional => context.unpaired
  | _, _ => false

end ClusterContext

/-- The characters that still belong to the cluster before them, and the clusters that follow. -/
def clustersAfter (context : ClusterContext) : List Char → List Char × List (List Char)
  | [] => ([], [])
  | c :: rest =>
    let (more, others) := clustersAfter (context.after c) rest
    if context.joins c then (c :: more, others) else ([], (c :: more) :: others)

/-- The clusters of a text. -/
def clusters (chars : List Char) : List (List Char) :=
  (clustersAfter .start chars).2

theorem clustersAfter_flatten (context : ClusterContext) (chars : List Char) :
    (clustersAfter context chars).1 ++ (clustersAfter context chars).2.flatten = chars := by
  induction chars generalizing context with
  | nil => rfl
  | cons c rest ih =>
    simp only [clustersAfter]
    split <;> simp [ih]

/-- Nothing joins the beginning of a text. -/
theorem clustersAfter_start_fst (chars : List Char) : (clustersAfter .start chars).1 = [] := by
  cases chars with
  | nil => rfl
  | cons c rest =>
    have h : ClusterContext.start.joins c = false := by
      unfold ClusterContext.joins ClusterContext.start
      cases ClusterPart.ofChar c <;> rfl
    simp [clustersAfter, h]

/-- The clusters of a text are the text. -/
theorem flatten_clusters (chars : List Char) : (clusters chars).flatten = chars := by
  have h := clustersAfter_flatten .start chars
  rwa [clustersAfter_start_fst, List.nil_append] at h

end Calculator.Text
