import Calculator.Log.Directive

/-!
# Filters

How tracing-subscriber filters events. A filter is a list of rules, each with the lowest level that
is logged for events whose target begins with its own and that have its field. The most specific
rule that applies to an event decides about it.
-/

namespace Calculator.Log

/-- A rule about which events are logged. -/
structure Rule where
  /-- What the targets begin with to which it applies; all of them if there is none. -/
  target : Option String
  /-- The field that the events have to which it applies; all of them if there is none. -/
  field : Option String
  /-- The rank of the most detailed level that is logged, or 0. -/
  rank : Nat
  deriving DecidableEq

namespace Rule

/-- The rule about events that a directive gives. One that asks for a span, or for the value of a
field, gives none, since no event lies in a span. -/
def ofDirective? (directive : Directive) : Option Rule :=
  match directive.span, directive.field with
  | none, none => some ⟨directive.target, none, directive.rank⟩
  | none, some ⟨name, false⟩ => some ⟨directive.target, name, directive.rank⟩
  | _, _ => none

/-- Whether a rule is about an event. -/
def applies (rule : Rule) (event : Event) : Bool :=
  rule.target.all (fun start => start.toList.isPrefixOf event.target.toList)
    && rule.field.all fun name => event.names.contains name

/-- How much of a target a rule gives: more than nothing even if it gives an empty one. -/
def targetSize (rule : Rule) : Nat :=
  match rule.target with
  | none => 0
  | some start => start.utf8ByteSize + 1

/-- Whether the field of a rule comes before that of another one, or is the same. No field comes
first, and then they are ordered as texts. -/
def fieldPrecedes (rule other : Rule) : Bool :=
  match rule.field, other.field with
  | none, _ => true
  | some _, none => false
  | some a, some b => a ≤ b

/-- Whether a rule is at most as specific as another one. The longer target makes the more specific
rule, and of two equally long targets the later field. -/
def yieldsTo (rule other : Rule) : Bool :=
  rule.targetSize < other.targetSize
    || (rule.targetSize == other.targetSize && rule.fieldPrecedes other)

end Rule

/-- The rules that say which events are logged. -/
structure Filter where
  /-- The rules, in order. -/
  rules : List Rule
  deriving DecidableEq

namespace Filter

/-- The filter that logs down to a level. -/
def downTo (level : Level) : Filter := ⟨[⟨none, none, level.rank⟩]⟩

/-- The texts between the commas of a filter, but for empty ones. -/
def directiveTexts (text : String) : List (List Char) :=
  (text.toList.splitOn ',').filter (· ≠ [])

/-- The filter that directives between commas spell. Without any it lets errors through. The first
text that gives no directive decides why there is no filter. -/
def parse (text : String) : Except Directive.Fault Filter := do
  let directives ← (directiveTexts text).mapM Directive.parse
  if directives.isEmpty then return downTo .error
  else return ⟨directives.filterMap Rule.ofDirective?⟩

/-- The filter that a text spells, or else the one for levels down to information. There is none if
the program stops at the text. -/
def ofText? (text : String) : Option Filter :=
  match parse text with
  | .ok filter => some filter
  | .error .malformed => some (downTo .info)
  | .error .split => none

/-- The rule that decides about an event: the most specific one that applies, and the last of
several that are equally specific. -/
def deciding? (filter : Filter) (event : Event) : Option Rule :=
  (filter.rules.filter (·.applies event)).foldl (fun best rule =>
    match best with
    | none => some rule
    | some other => if other.yieldsTo rule then some rule else best) none

/-- Whether an event is logged. -/
def allows (filter : Filter) (event : Event) : Bool :=
  match filter.deciding? event with
  | some rule => event.level.rank ≤ rule.rank
  | none => false

end Filter

end Calculator.Log
