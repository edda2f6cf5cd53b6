import Calculator.CommandLine.Run
import Calculator.Proofs.Json.Printer

/-!
# The arguments of the tool survive their text

A call of the tool carries its arguments as JSON. They are found in every text that spells them
(`IsArguments`): the order of members, white space, escapes and members with other names do not
matter. An object is refused if it names the expression not just once or the unit more than once,
and also if a name has no text, because a surrogate lacks its other half; names are compared as
texts.

By the reader's agreement with the grammar what a text is decoded to depends on the value alone that
it spells (`ofText?_of_spells`). What remains is about lists of members: the values under some names
are the same in every order, and the members are divided into expressions, units and others
(`members_perm`).
-/

namespace Calculator.ToolArguments

open Json (Spells)

/-! ## Which values are arguments -/

/-- The values that stand for a unit. -/
inductive IsUnit : Json → Option String → Prop where
  | null : IsUnit .null none
  | text (unit : String) : IsUnit (.ofString unit) (some unit)

/-- The member that gives the unit, under one of its names, or no such member. -/
inductive GivesUnit : List (Option String × Json) → Option String → Prop where
  | absent : GivesUnit [] none
  | given {key value unit} : key ∈ angleUnitKeys → IsUnit value unit →
      GivesUnit [(some key, value)] unit

/-- In some order, members are the expression, perhaps the unit, and others with other names. -/
def Gives (members : List (Option String × Json)) (arguments : ToolArguments) : Prop :=
  ∃ units others, GivesUnit units arguments.angleUnit ∧
    (∀ m ∈ others, ∀ key ∈ expressionKey :: angleUnitKeys, m.1 ≠ some key) ∧
    members.Perm ((some expressionKey, .ofString arguments.expression) :: (units ++ others))

/-- The values that stand for arguments: objects whose names all have a text, and arrays. -/
inductive IsArguments : Json → ToolArguments → Prop where
  | object {members arguments} : (∀ m ∈ members, m.1 ≠ none) → Gives members arguments →
      IsArguments (.object members) arguments
  | expression (expression : String) :
      IsArguments (.array [.ofString expression]) ⟨expression, none⟩
  | both {value unit} (expression : String) : IsUnit value unit →
      IsArguments (.array [.ofString expression, value]) ⟨expression, unit⟩

theorem unit?_eq_some_iff {value : Json} {unit : Option String} :
    unit? value = some unit ↔ IsUnit value unit := by
  fun_cases unit? value
  case case3 hnull htext =>
    refine ⟨nofun, fun h => ?_⟩
    cases h with
    | null => exact absurd rfl hnull
    | text text => exact absurd rfl (htext text)
  case case1 => exact ⟨fun h => by cases h; exact .null, fun h => by cases h; rfl⟩
  case case2 text => exact ⟨fun h => by cases h; exact .text text, fun h => by cases h; rfl⟩

theorem text?_eq_some_iff {value : Json} {text : String} :
    value.text? = some text ↔ value = .ofString text := by
  fun_cases Json.text? value
  case case1 text' =>
    rw [Json.ofString, Json.string.injEq]
  case case2 h => exact ⟨nofun, fun heq => absurd heq (h _)⟩

/-! ## The members of an object -/

/-- Whether the name of a member is among the given ones. -/
def isNamed (keys : List String) (m : Option String × Json) : Bool := m.1.any (keys.contains ·)

theorem isNamed_iff {keys : List String} {m : Option String × Json} :
    isNamed keys m = true ↔ ∃ key ∈ keys, m.1 = some key := by
  obtain ⟨_ | key, value⟩ := m <;> simp [isNamed]

/-- A unit and an expression have different names. -/
theorem ne_expressionKey : ∀ key ∈ angleUnitKeys, key ≠ expressionKey := by decide

theorem not_isNamed_expressionKey {m : Option String × Json} (h : isNamed angleUnitKeys m = true) :
    isNamed [expressionKey] m = false := by
  obtain ⟨key, hkey, hm⟩ := isNamed_iff.1 h
  rw [isNamed, hm]
  simpa using ne_expressionKey key hkey

theorem valuesOf_eq (members : List (Option String × Json)) (keys : List String) :
    valuesOf members keys = (members.filter (isNamed keys)).map Prod.snd := rfl

/-- The expressions and units that members give are those that stand for the arguments. -/
def HasValues (members : List (Option String × Json)) (arguments : ToolArguments) : Prop :=
  valuesOf members [expressionKey] = [.ofString arguments.expression] ∧
    (valuesOf members angleUnitKeys = [] ∧ arguments.angleUnit = none ∨
      ∃ value, valuesOf members angleUnitKeys = [value] ∧ IsUnit value arguments.angleUnit)

theorem ofJson?_object_eq_some_iff {members : List (Option String × Json)}
    {arguments : ToolArguments} :
    ofJson? (.object members) = some arguments ↔
      (∀ m ∈ members, m.1 ≠ none) ∧ HasValues members arguments := by
  have hnames : ¬ (members.any fun m => m.1.isNone) = true ↔ ∀ m ∈ members, m.1 ≠ none := by
    simp only [List.any_eq_true, not_exists, not_and, Option.isNone_iff_eq_none, ne_eq]
  obtain ⟨expression, unit⟩ := arguments
  rw [ofJson?, HasValues, ← hnames, Option.ite_none_left_eq_some]
  refine and_congr_right fun _ => ?_
  split
  case h_1 value hvalue hunits =>
    rw [hvalue, hunits]
    constructor
    · intro h
      obtain ⟨text, htext, ⟨⟩⟩ := Option.bind_eq_some_iff.1 h
      exact ⟨by rw [text?_eq_some_iff.1 htext], .inl ⟨rfl, rfl⟩⟩
    · rintro ⟨⟨⟩, ⟨-, rfl⟩ | ⟨_, ⟨⟩, -⟩⟩
      rfl
  case h_2 value unitValue hvalue hunits =>
    simp [hvalue, hunits, Option.bind_eq_some_iff, text?_eq_some_iff, unit?_eq_some_iff]
  case h_3 habsent hgiven =>
    refine ⟨nofun, ?_⟩
    rintro ⟨hvalue, ⟨hunits, -⟩ | ⟨value, hunits, -⟩⟩
    · exact absurd hunits (habsent _ hvalue)
    · exact absurd hunits (hgiven _ _ hvalue)

/-- Members in another order have the same values. -/
theorem valuesOf_perm {members members' : List (Option String × Json)} (h : members.Perm members')
    (keys : List String) : (valuesOf members keys).Perm (valuesOf members' keys) :=
  (h.filter _).map _

theorem valuesOf_append (members members' : List (Option String × Json)) (keys : List String) :
    valuesOf (members ++ members') keys = valuesOf members keys ++ valuesOf members' keys := by
  rw [valuesOf_eq, List.filter_append, List.map_append]
  rfl

theorem valuesOf_singleton {keys : List String} {key : String} (h : key ∈ keys) (value : Json) :
    valuesOf [(some key, value)] keys = [value] := by
  rw [valuesOf_eq, List.filter_cons_of_pos (isNamed_iff.2 ⟨key, h, rfl⟩)]
  rfl

theorem valuesOf_eq_nil {members : List (Option String × Json)} {keys : List String}
    (h : ∀ m ∈ members, ∀ key ∈ keys, m.1 ≠ some key) : valuesOf members keys = [] := by
  rw [valuesOf_eq, List.map_eq_nil_iff, List.filter_eq_nil_iff]
  intro m hm hnamed
  obtain ⟨key, hkey, heq⟩ := isNamed_iff.1 hnamed
  exact h m hm key hkey heq

/-- The member that has the only value. -/
theorem filter_of_valuesOf {members : List (Option String × Json)} {keys : List String}
    {value : Json} (h : valuesOf members keys = [value]) :
    ∃ key ∈ keys, members.filter (isNamed keys) = [(some key, value)] := by
  obtain ⟨m, hfilter, rfl⟩ := List.map_eq_singleton_iff.1 h
  have hmem : m ∈ members.filter (isNamed keys) := by
    rw [show members.filter (isNamed keys) = [m] from hfilter]
    exact List.mem_singleton_self m
  obtain ⟨key, hkey, hm⟩ := isNamed_iff.1 (List.mem_filter.1 hmem).2
  exact ⟨key, hkey, by rw [← hm]; exact hfilter⟩

/-- The units among members that give one unit or none, and no expression. -/
theorem GivesUnit.valuesOf {units : List (Option String × Json)} {unit : Option String}
    (h : GivesUnit units unit) :
    ToolArguments.valuesOf units [expressionKey] = [] ∧
      (ToolArguments.valuesOf units angleUnitKeys = [] ∧ unit = none ∨
        ∃ value, ToolArguments.valuesOf units angleUnitKeys = [value] ∧ IsUnit value unit) := by
  cases h with
  | absent => exact ⟨rfl, .inl ⟨rfl, rfl⟩⟩
  | given hkey hunit =>
    refine ⟨valuesOf_eq_nil ?_, .inr ⟨_, valuesOf_singleton hkey _, hunit⟩⟩
    simpa using ne_expressionKey _ hkey

/-- Members are divided into the expressions, the units and the others. -/
theorem members_perm (members : List (Option String × Json)) :
    members.Perm (members.filter (isNamed [expressionKey]) ++
      (members.filter (isNamed angleUnitKeys) ++
        members.filter fun m => !isNamed angleUnitKeys m && !isNamed [expressionKey] m)) := by
  have hunits : (members.filter fun m => isNamed angleUnitKeys m && !isNamed [expressionKey] m) =
      members.filter (isNamed angleUnitKeys) := by
    refine List.filter_congr fun m _ => ?_
    cases h : isNamed angleUnitKeys m with
    | false => rfl
    | true => rw [not_isNamed_expressionKey h]; rfl
  have hothers := List.filter_append_perm (isNamed angleUnitKeys)
    (members.filter fun m => !isNamed [expressionKey] m)
  rw [List.filter_filter, List.filter_filter, hunits] at hothers
  exact (List.filter_append_perm (isNamed [expressionKey]) members).symm.trans
    (hothers.symm.append_left _)

/-- The order of members does not matter, nor do those with other names. -/
theorem Gives.hasValues {members : List (Option String × Json)} {arguments : ToolArguments}
    (h : Gives members arguments) : HasValues members arguments := by
  obtain ⟨units, others, hunits, hothers, hperm⟩ := h
  obtain ⟨hnone, hunits⟩ := hunits.valuesOf
  rw [← List.singleton_append] at hperm
  -- Each kind of values comes from one part of the permuted members and from no other.
  have hother : valuesOf others [expressionKey] = [] := valuesOf_eq_nil fun m hm key hkey =>
    hothers m hm key (List.mem_cons.2 (.inl (List.mem_singleton.1 hkey)))
  have hother' : valuesOf others angleUnitKeys = [] := valuesOf_eq_nil fun m hm key hkey =>
    hothers m hm key (List.mem_cons_of_mem _ hkey)
  have hexpression : valuesOf [(some expressionKey, .ofString arguments.expression)]
      angleUnitKeys = [] := rfl
  have hexpressions := valuesOf_perm hperm [expressionKey]
  rw [valuesOf_append, valuesOf_append, valuesOf_singleton (List.mem_singleton_self _), hnone,
    hother] at hexpressions
  have hangleUnits := valuesOf_perm hperm angleUnitKeys
  rw [valuesOf_append, valuesOf_append, hother', hexpression, List.nil_append,
    List.append_nil] at hangleUnits
  refine ⟨List.perm_singleton.1 hexpressions, ?_⟩
  obtain ⟨hnone, hunit⟩ | ⟨value, hvalue, hunit⟩ := hunits
  · rw [hnone] at hangleUnits
    exact .inl ⟨List.perm_nil.1 hangleUnits, hunit⟩
  · rw [hvalue] at hangleUnits
    exact .inr ⟨value, List.perm_singleton.1 hangleUnits, hunit⟩

/-- The members in the order of their kinds give what their values are. -/
theorem HasValues.gives {members : List (Option String × Json)} {arguments : ToolArguments}
    (h : HasValues members arguments) : Gives members arguments := by
  obtain ⟨hexpressions, hunits⟩ := h
  obtain ⟨key, hkey, hexpression⟩ := filter_of_valuesOf hexpressions
  obtain rfl := List.mem_singleton.1 hkey
  have hperm := members_perm members
  rw [hexpression] at hperm
  refine ⟨members.filter (isNamed angleUnitKeys), _, ?_, ?_, hperm⟩
  · obtain ⟨hnone, hunit⟩ | ⟨value, hvalue, hunit⟩ := hunits
    · rw [valuesOf_eq, List.map_eq_nil_iff] at hnone
      rw [hnone, hunit]
      exact .absent
    · obtain ⟨key, hkey, hfilter⟩ := filter_of_valuesOf hvalue
      rw [hfilter]
      exact .given hkey hunit
  · intro m hm key hkey hname
    simp only [List.mem_filter, Bool.and_eq_true, Bool.not_eq_true'] at hm
    obtain rfl | hkey := List.mem_cons.1 hkey
    · exact Bool.false_ne_true (hm.2.2.symm.trans
        (isNamed_iff.2 ⟨_, List.mem_singleton_self _, hname⟩))
    · exact Bool.false_ne_true (hm.2.1.symm.trans (isNamed_iff.2 ⟨_, hkey, hname⟩))

theorem gives_iff {members : List (Option String × Json)} {arguments : ToolArguments} :
    Gives members arguments ↔ HasValues members arguments := ⟨Gives.hasValues, HasValues.gives⟩

/-- The values that are decoded are those that stand for arguments. -/
theorem ofJson?_eq_some_iff {value : Json} {arguments : ToolArguments} :
    ofJson? value = some arguments ↔ IsArguments value arguments := by
  match value with
  | .object members =>
    rw [ofJson?_object_eq_some_iff, ← gives_iff]
    exact ⟨fun h => .object h.1 h.2, fun | .object hnames hgives => ⟨hnames, hgives⟩⟩
  | .array [expression] =>
    simp only [ofJson?, Option.bind_eq_bind, Option.bind_eq_some_iff, text?_eq_some_iff]
    constructor
    · rintro ⟨text, rfl, ⟨⟩⟩
      exact .expression text
    · rintro (_ | _ | _)
      exact ⟨_, rfl, rfl⟩
  | .array [expression, unit] =>
    simp only [ofJson?, Option.bind_eq_bind, Option.bind_eq_some_iff, text?_eq_some_iff,
      unit?_eq_some_iff]
    constructor
    · rintro ⟨text, rfl, unit, hunit, ⟨⟩⟩
      exact .both text hunit
    · rintro (_ | _ | ⟨_, hunit⟩)
      exact ⟨_, rfl, _, hunit, rfl⟩
  | .array [] | .array (_ :: _ :: _ :: _) | .null | .bool _ | .number _ | .string _ =>
    exact ⟨nofun, nofun⟩

/-! ## Texts -/

theorem toJson_eq (arguments : ToolArguments) :
    arguments.toJson = .object ((some expressionKey, .ofString arguments.expression) ::
      arguments.angleUnit.toList.map fun unit => (some angleUnitKey, .ofString unit)) := by
  obtain ⟨expression, _ | unit⟩ := arguments <;> rfl

theorem printable_toJson (arguments : ToolArguments) : Json.Printable arguments.toJson := by
  rw [toJson_eq]
  refine .object ?_ ?_ <;> rw [List.forall_mem_cons, List.forall_mem_map]
  · exact ⟨nofun, fun _ _ => nofun⟩
  · exact ⟨.string _, fun _ _ => .string _⟩

theorem isArguments_toJson (arguments : ToolArguments) :
    IsArguments arguments.toJson arguments := by
  rw [toJson_eq]
  refine .object ?_ ⟨arguments.angleUnit.toList.map fun unit => (some angleUnitKey, .ofString unit),
    [], ?_, nofun, ?_⟩
  · rw [List.forall_mem_cons, List.forall_mem_map]
    exact ⟨nofun, fun _ _ => nofun⟩
  · obtain ⟨expression, _ | unit⟩ := arguments
    · exact .absent
    · exact .given List.mem_cons_self (.text unit)
  · rw [List.append_nil]

theorem ofText?_of_spells {text : String} {value : Json} (h : Spells (.element value) text.toList) :
    ofText? text = ofJson? value := by
  rw [ofText?, Json.ofText?_eq_some_iff.2 h, Option.bind_some]

/-- Members that name the expression not just once or the unit twice stand for no arguments. -/
theorem not_gives_of_countP {members : List (Option String × Json)} {arguments : ToolArguments}
    (h : members.countP (isNamed [expressionKey]) ≠ 1 ∨
      2 ≤ members.countP (isNamed angleUnitKeys)) : ¬ Gives members arguments := by
  have hcount : ∀ keys, members.countP (isNamed keys) = (valuesOf members keys).length := by
    intro keys
    rw [valuesOf_eq, List.length_map, List.countP_eq_length_filter]
  rw [gives_iff, hcount, hcount] at *
  rintro ⟨hexpressions, hunits⟩
  rw [hexpressions] at h
  obtain h | h := h
  · exact h rfl
  · obtain ⟨hnone, -⟩ | ⟨value, hvalue, -⟩ := hunits
    · rw [hnone] at h
      exact absurd h (by decide)
    · rw [hvalue, List.length_singleton] at h
      exact absurd h (by decide)

theorem ofText?_eq_some_iff {text : String} {arguments : ToolArguments} :
    ofText? text = some arguments ↔
      ∃ value, Spells (.element value) text.toList ∧ IsArguments value arguments := by
  rw [ofText?, Option.bind_eq_some_iff]
  simp only [Json.ofText?_eq_some_iff, ofJson?_eq_some_iff]

/-- **Arguments in JSON.** What is written is read back, as an object that has no unit where none is
asked for. A text that spells an object is decoded to the arguments that its members give in any
order, if all names have a text, and to nothing else. Too many expressions or units, or no
expression, are refused. So every text is answered as a call with its arguments, or else with the
one complaint. -/
theorem decoding_ignores_layout (config : Config) :
    (∀ a : ToolArguments, ofText? a.toJson.text = some a ∧
      Spells (.element (.object ((some expressionKey, .ofString a.expression) ::
        a.angleUnit.toList.map fun unit => (some angleUnitKey, .ofString unit))))
        a.toJson.text.toList) ∧
    (∀ (text : String) members a, Spells (.element (.object members)) text.toList →
      (ofText? text = some a ↔ (∀ m ∈ members, m.1 ≠ none) ∧ Gives members a)) ∧
    (∀ (text : String) members, Spells (.element (.object members)) text.toList →
      members.countP (isNamed [expressionKey]) ≠ 1 ∨ 2 ≤ members.countP (isNamed angleUnitKeys) →
        ofText? text = none) ∧
    ∀ text : String,
      (∃ value a, Spells (.element value) text.toList ∧ IsArguments value a ∧
        ofText? text = some a ∧ Tool.callJson? config text = some (Tool.call config a)) ∨
      ((∀ value a, Spells (.element value) text.toList → ¬ IsArguments value a) ∧
        ofText? text = none ∧ Tool.callJson? config text = none ∧
        (CommandLine.runTool config text).outcome =
          { status := 1, reports := [.plain ("Error: " ++ Tool.invalidArguments)] }) := by
  have hobject : ∀ (text : String) members a, Spells (.element (.object members)) text.toList →
      (ofText? text = some a ↔ (∀ m ∈ members, m.1 ≠ none) ∧ Gives members a) := by
    intro text members a h
    rw [ofText?_of_spells h, ofJson?_object_eq_some_iff, gives_iff]
  refine ⟨fun a => ?_, hobject, fun text members h hcount => ?_, fun text => ?_⟩
  · have hspells := Json.ofText?_eq_some_iff.1 (Json.ofText?_text (printable_toJson a))
    refine ⟨ofText?_eq_some_iff.2 ⟨_, hspells, isArguments_toJson a⟩, ?_⟩
    rw [← toJson_eq a]
    exact hspells
  · refine Option.eq_none_iff_forall_ne_some.2 fun a ha => ?_
    exact not_gives_of_countP hcount ((hobject text members a h).1 ha).2
  · cases ha : ofText? text with
    | some a =>
      obtain ⟨value, hspells, harguments⟩ := ofText?_eq_some_iff.1 ha
      exact .inl ⟨value, a, hspells, harguments, rfl, by rw [Tool.callJson?, ha]; rfl⟩
    | none =>
      refine .inr ⟨fun value a hspells harguments => ?_, rfl, by rw [Tool.callJson?, ha]; rfl, ?_⟩
      · exact nomatch ha.symm.trans (ofText?_eq_some_iff.2 ⟨value, hspells, harguments⟩)
      · rw [CommandLine.runTool, ha]

/-- Names may be escaped, and members may stand in any order with others in between, also with some
that have a string without text inside. A unit under both names is refused. -/
theorem decoding_ignores_layout_escaped :
    let text :=
      " \x7b \"n\":[1, \x7b\"\\uD800\":2\x7d], \"angleUnit\" :null,\n\"\\u0065xpression\":\"1\"\x7d"
    let members : List (Option String × Json) :=
      [(some "n", .array [.number ['1'], .object [(none, .number ['2'])]]),
        (some "angleUnit", .null), (some "expression", .ofString "1")]
    let twice := "\x7b\"angleUnit\":null,\"expression\":\"1\",\"angle_unit\":\"rad\"\x7d"
    let twiceMembers : List (Option String × Json) :=
      [(some "angleUnit", .null), (some "expression", .ofString "1"),
        (some "angle_unit", .ofString "rad")]
    (Spells (.element (.object members)) text.toList ∧ (∀ m ∈ members, m.1 ≠ none) ∧
      Gives members ⟨"1", none⟩ ∧ ofText? text = some ⟨"1", none⟩) ∧
    Spells (.element (.object twiceMembers)) twice.toList ∧
      2 ≤ twiceMembers.countP (isNamed angleUnitKeys) ∧ ofText? twice = none := by
  intro text members twice twiceMembers
  have hspells : Spells (.element (.object members)) text.toList :=
    Json.ofText?_eq_some_iff.1 (by unfold text members; with_unfolding_all rfl)
  have htwice : Spells (.element (.object twiceMembers)) twice.toList :=
    Json.ofText?_eq_some_iff.1 (by unfold twice twiceMembers; with_unfolding_all rfl)
  have hnames : ∀ m ∈ members, m.1 ≠ none := by simp [members]
  have hgives : Gives members ⟨"1", none⟩ := gives_iff.2 ⟨rfl, .inr ⟨.null, rfl, .null⟩⟩
  have hcount : 2 ≤ twiceMembers.countP (isNamed angleUnitKeys) := Nat.le_refl 2
  obtain ⟨-, hdecodes, hrefuses, -⟩ := decoding_ignores_layout .defaults
  exact ⟨⟨hspells, hnames, hgives, (hdecodes text members _ hspells).2 ⟨hnames, hgives⟩⟩,
    htwice, hcount, hrefuses twice twiceMembers htwice (.inr hcount)⟩

/-- A member whose name has no text is refused, although it is none of those that are looked for. -/
theorem nameless_member_is_refused :
    let text := "\x7b\"expression\":\"1\",\"\\ud800\":0\x7d"
    let members : List (Option String × Json) :=
      [(some "expression", .ofString "1"), (none, .number ['0'])]
    Spells (.element (.object members)) text.toList ∧ Gives members ⟨"1", none⟩ ∧
      ofText? text = none := by
  intro text members
  have hspells : Spells (.element (.object members)) text.toList :=
    Json.ofText?_eq_some_iff.1 (by unfold text members; with_unfolding_all rfl)
  refine ⟨hspells, gives_iff.2 ⟨rfl, .inl ⟨rfl, rfl⟩⟩, ?_⟩
  rw [ofText?_of_spells hspells]
  rfl

end Calculator.ToolArguments
