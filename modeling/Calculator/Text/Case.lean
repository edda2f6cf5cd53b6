import Calculator.Text.CaseTable

/-!
# Lower case

Lower-casing maps every character by itself, with two exceptions: the capital I with a dot becomes
two characters, and a capital sigma at the end of a word becomes the final sigma. A word ends where
a letter stands before the sigma and none after it, looking past characters such as apostrophes and
combining marks.
-/

namespace Calculator.Text

/-- Whether a character lies in one of the ranges. -/
def inRanges (ranges : List (Nat × Nat)) (c : Char) : Bool :=
  ranges.any fun (first, last) => first ≤ c.toNat && c.toNat ≤ last

/-- Whether a character has a case, and is not looked past. -/
def isCased (c : Char) : Bool := inRanges casedRanges c

/-- Whether the rule for the final sigma looks past a character. -/
def isCaseIgnorable (c : Char) : Bool := inRanges ignorableRanges c

/-- Whether the run maps a character. -/
def CaseRun.covers (run : CaseRun) (c : Char) : Bool :=
  run.first ≤ c.toNat && c.toNat ≤ run.last && (c.toNat - run.first) % run.step == 0

/-- The lower-case form of a character that has one of a single character, and else itself. -/
def lowerChar (c : Char) : Char :=
  match lowerRuns.find? (·.covers c) with
  | some run => Char.ofNat (c.toNat + run.offset).toNat
  | none => c

/-- Whether a letter follows, past the characters that are looked past. -/
def letterFollows (rest : List Char) : Bool :=
  match rest.dropWhile isCaseIgnorable with
  | c :: _ => isCased c
  | [] => false

/-- The lower-case form of a text, before which a letter stands if `letterBefore` holds. -/
def lowerFrom (letterBefore : Bool) : List Char → List Char
  | [] => []
  | c :: rest =>
    let image :=
      if c = 'İ' then ['i', '\u0307']
      else if c = 'Σ' then [if letterBefore && !letterFollows rest then 'ς' else 'σ']
      else [lowerChar c]
    image ++ lowerFrom (if isCaseIgnorable c then letterBefore else isCased c) rest

/-- The lower-case form of a text. -/
def lower (text : List Char) : List Char := lowerFrom false text

end Calculator.Text
