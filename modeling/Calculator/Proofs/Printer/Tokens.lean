import Calculator.Expr
import Calculator.Proofs.Binary64.Shortest
import Calculator.Proofs.Token.Scan

/-!
# The tokens of a printed tree

The text of a tree whose literals have no sign and whose names are names is cut into the tokens that
`tokens` lists (`scanned_chars`), whatever follows that does not go on with its last run. The proof
is by induction on the tree. Inside the tree a parenthesis, a comma or a space stands after every
number and every name, and these end a run of either kind (`Ends`).
-/

namespace Calculator

open Lexeme

/-- The token of an operation. -/
def Operation.token : Operation → Token
  | add => .plus
  | sub => .minus
  | mul => .star
  | div => .slash
  | pow => .caret

/-- The sign of an operation is a token by itself. -/
theorem Operation.ofSymbol?_symbol (o : Operation) : Token.ofSymbol? o.symbol = some o.token := by
  cases o <;> rfl

/-- A name that a token can stand for: a letter or an underscore, and then letters, digits and
underscores. -/
def IsName (s : String) : Prop :=
  ∃ c cs, s.toList = c :: cs ∧ Token.isNameStart c = true ∧ ∀ c ∈ cs, Token.isNameChar c = true

/-- What can stand after a number and after a name. -/
def Ends (rest : List Char) : Prop :=
  ∀ c ∈ rest.head?, isNumeralChar c = false ∧ Token.isNameChar c = false

/-- A character that is in neither kind of run ends both. -/
theorem ends_cons {c : Char} (h : isNumeralChar c = false ∧ Token.isNameChar c = false)
    (rest : List Char) : Ends (c :: rest) := by
  rintro _ ⟨⟩
  exact h

namespace Expr

mutual

/-- The trees that have a text of their own: the literals are finite and have no sign, and the names
are names. -/
def Printable : Expr → Prop
  | literal x => ∃ rank, x = .finite false rank
  | name s => IsName s
  | negate operand => Printable operand
  | binary _ left right => Printable left ∧ Printable right
  | call s arguments => IsName s ∧ AllPrintable arguments

/-- All of some trees have a text of their own. -/
def AllPrintable : List Expr → Prop
  | [] => True
  | first :: others => Printable first ∧ AllPrintable others

end

mutual

/-- The tokens of the text of a tree. -/
def tokens : Expr → List Token
  | literal x => [.number x]
  | name s => [.name s]
  | negate operand => .leftParen :: .minus :: (tokens operand ++ [.rightParen])
  | binary o left right => .leftParen :: (tokens left ++ o.token :: (tokens right ++ [.rightParen]))
  | call s arguments => .name s :: .leftParen :: (argumentTokens arguments ++ [.rightParen])

/-- The tokens of the texts of the arguments of a call. -/
def argumentTokens : List Expr → List Token
  | [] => []
  | [last] => tokens last
  | first :: others => tokens first ++ .comma :: argumentTokens others

end

/-- Two arguments or more have a comma between them. -/
theorem argumentTokens_cons_cons (t u : Expr) (ts : List Expr) :
    argumentTokens (t :: u :: ts) = tokens t ++ .comma :: argumentTokens (u :: ts) := by
  rw [argumentTokens]
  exact List.cons_ne_nil _ _

/-- Two arguments or more have a comma and a space between them. -/
theorem argumentChars_cons_cons (t u : Expr) (ts : List Expr) :
    argumentChars (t :: u :: ts) = chars t ++ ',' :: ' ' :: argumentChars (u :: ts) := by
  rw [argumentChars]
  exact List.cons_ne_nil _ _

mutual

/-- No tree has the token of the end. -/
theorem endOfInput_notMem_tokens : ∀ t : Expr, Token.endOfInput ∉ tokens t
  | literal _ | name _ => by simp [tokens]
  | negate operand => by simp [tokens, endOfInput_notMem_tokens operand]
  | binary o left right => by
    have hl := endOfInput_notMem_tokens left
    have hr := endOfInput_notMem_tokens right
    cases o <;> simp [tokens, Operation.token, hl, hr]
  | call _ arguments => by simp [tokens, endOfInput_notMem_argumentTokens arguments]

/-- No arguments have the token of the end. -/
theorem endOfInput_notMem_argumentTokens : ∀ ts : List Expr, Token.endOfInput ∉ argumentTokens ts
  | [] => by simp [argumentTokens]
  | [last] => by
    rw [argumentTokens]
    exact endOfInput_notMem_tokens last
  | first :: second :: others => by
    have hfirst := endOfInput_notMem_tokens first
    have hothers := endOfInput_notMem_argumentTokens (second :: others)
    simp [argumentTokens_cons_cons, hfirst, hothers]

end

/-! ## The text of each kind of tree -/

/-- The text of a literal without a sign becomes a number. -/
theorem scanned_literal (rank : Fin Binary64.magnitudes) {rest : List Char} (h : Ends rest) :
    Scanned (chars (.literal (.finite false rank))) [.number (.finite false rank)] rest := by
  rw [chars, Binary64.chars]
  exact scanned_number (Binary64.isNumeralChar_of_mem_magnitudeText _) (fun c hc => (h c hc).1)
    (Binary64.ofPlain?_magnitudeText rank) (Binary64.magnitudeText_ne_nil _)

/-- A name becomes a name. -/
theorem scanned_isName {s : String} (hs : IsName s) {rest : List Char} (h : Ends rest) :
    Scanned s.toList [.name s] rest := by
  obtain ⟨c, cs, hcs, hc, hrun⟩ := hs
  have hname := scanned_name hc hrun fun c hc => (h c hc).2
  rwa [← hcs, String.ofList_toList] at hname

/-- The text of a negation. -/
theorem scanned_negate {t : Expr} {rest : List Char}
    (h : ∀ rest, Ends rest → Scanned (chars t) (tokens t) rest) :
    Scanned (chars (.negate t)) (tokens (.negate t)) rest := by
  -- Each piece is scanned before all that stands to its right.
  have hopen : Scanned ['('] [.leftParen] _ :=
    scanned_symbol rfl ('-' :: (chars t ++ [')']) ++ rest)
  have hsign : Scanned ['-'] [.minus] _ := scanned_symbol rfl ((chars t ++ [')']) ++ rest)
  have hclose : Scanned [')'] [.rightParen] rest := scanned_symbol rfl rest
  have hoperand := h ([')'] ++ rest) (ends_cons (by decide) rest)
  rw [chars, tokens]
  exact hopen.append (hsign.append (hoperand.append hclose))

/-- The text of an operation. -/
theorem scanned_binary {o : Operation} {l r : Expr} {rest : List Char}
    (hl : ∀ rest, Ends rest → Scanned (chars l) (tokens l) rest)
    (hr : ∀ rest, Ends rest → Scanned (chars r) (tokens r) rest) :
    Scanned (chars (.binary o l r)) (tokens (.binary o l r)) rest := by
  have hclose : Scanned [')'] [.rightParen] rest := scanned_symbol rfl rest
  have hright := (hr ([')'] ++ rest) (ends_cons (by decide) rest)).append hclose
  have hspace : Scanned [' '] [] ((chars r ++ [')']) ++ rest) := scanned_gap rfl _
  have hsign : Scanned [o.symbol] [o.token] (([' '] ++ (chars r ++ [')'])) ++ rest) :=
    scanned_symbol o.ofSymbol?_symbol _
  have hspace' : Scanned [' '] [] (([o.symbol] ++ ([' '] ++ (chars r ++ [')']))) ++ rest) :=
    scanned_gap rfl _
  have hleft := hl (([' '] ++ ([o.symbol] ++ ([' '] ++ (chars r ++ [')'])))) ++ rest)
    (ends_cons (by decide) _)
  have hopen : Scanned ['('] [.leftParen]
      ((chars l ++ ([' '] ++ ([o.symbol] ++ ([' '] ++ (chars r ++ [')']))))) ++ rest) :=
    scanned_symbol rfl _
  rw [chars, tokens]
  exact hopen.append (hleft.append (hspace'.append (hsign.append (hspace.append hright))))

/-- The text of a call. -/
theorem scanned_call {s : String} {ts : List Expr} {rest : List Char} (hs : IsName s)
    (h : ∀ rest, Ends rest → Scanned (argumentChars ts) (argumentTokens ts) rest) :
    Scanned (chars (.call s ts)) (tokens (.call s ts)) rest := by
  have hclose : Scanned [')'] [.rightParen] rest := scanned_symbol rfl rest
  have harguments := (h ([')'] ++ rest) (ends_cons (by decide) rest)).append hclose
  have hopen : Scanned ['('] [.leftParen] ((argumentChars ts ++ [')']) ++ rest) :=
    scanned_symbol rfl _
  have hname : Scanned s.toList [.name s] ((['('] ++ (argumentChars ts ++ [')'])) ++ rest) :=
    scanned_isName hs (ends_cons (by decide) _)
  rw [chars, tokens]
  exact hname.append (hopen.append harguments)

/-- The texts of two arguments or more. -/
theorem scanned_arguments {t u : Expr} {ts : List Expr} {rest : List Char}
    (h : ∀ rest, Ends rest → Scanned (chars t) (tokens t) rest)
    (hts : Scanned (argumentChars (u :: ts)) (argumentTokens (u :: ts)) rest) :
    Scanned (argumentChars (t :: u :: ts)) (argumentTokens (t :: u :: ts)) rest := by
  have hspace : Scanned [' '] [] (argumentChars (u :: ts) ++ rest) := scanned_gap rfl _
  have hcomma : Scanned [','] [.comma] (([' '] ++ argumentChars (u :: ts)) ++ rest) :=
    scanned_symbol rfl _
  have hfirst := h (([','] ++ ([' '] ++ argumentChars (u :: ts))) ++ rest)
    (ends_cons (by decide) _)
  rw [argumentChars_cons_cons, argumentTokens_cons_cons]
  exact hfirst.append (hcomma.append (hspace.append hts))

/-! ## The text of a tree -/

mutual

/-- The text of a tree becomes the tokens of the tree. -/
theorem scanned_chars : ∀ t : Expr, t.Printable → ∀ rest, Ends rest →
    Scanned (chars t) (tokens t) rest
  | literal x, ⟨rank, hx⟩, rest, h => by
    subst hx
    exact scanned_literal rank h
  | name s, hs, rest, h => scanned_isName hs h
  | negate operand, hp, rest, _ => scanned_negate (scanned_chars operand hp)
  | binary o left right, ⟨hl, hr⟩, rest, _ =>
    scanned_binary (scanned_chars left hl) (scanned_chars right hr)
  | call s arguments, ⟨hs, hp⟩, rest, _ =>
    scanned_call hs (scanned_argumentChars arguments hp)

/-- The texts of arguments become the tokens of the arguments. -/
theorem scanned_argumentChars : ∀ ts : List Expr, AllPrintable ts → ∀ rest, Ends rest →
    Scanned (argumentChars ts) (argumentTokens ts) rest
  | [], _, rest, _ => scanned_nil rest
  | [last], ⟨hp, _⟩, rest, h => scanned_chars last hp rest h
  | first :: second :: others, ⟨hp, hps⟩, rest, h =>
    scanned_arguments (scanned_chars first hp)
      (scanned_argumentChars (second :: others) hps rest h)

end

end Expr

end Calculator
