import PlatformBridge.Proofs.Bundle.MemberNames
import PlatformBridge.Proofs.Dart.Calls
import PlatformBridge.Proofs.Dart.Literals

/-!
# Functions Hidden by Members

In a class, a member hides the function of the shared library that has its name,
so that a call of the function is taken for one of the member. The names of
parameters are kept apart from these functions. The names of members are not.

So a function is hidden wherever two things come together. The class calls it,
which can be told from the types and answers of what the class was made from;
and one of the operations or fields is called like the function, up to letter
case and characters that no name can have. Getters and the members that every
class has never hide anything.

What a class calls is read off its code, where a name in front of a parenthesis
is a call. So every line of a class is gone through once, in the order in which
the layout writes them, and each line is said to call the functions of the type
that it is made from. The two halves of the argument, calls and members, meet in
`hides_iff_of_members` only.

## Main definitions

* `Dart.Hides`: A member hides a function that the code of its class calls.
* `Dart.Proxy.members`, `Dart.Proxy.code`: What the class of a service declares,
  and its code.
* `Dart.DataClass.members`, `Dart.DataClass.code`: The same for the class of a
  data type.
* `Operation.functions`, `Service.functions`, `Field.functions`: The functions
  that methods and classes call.

## Theorems

* `Dart.identifier_eq_iff`: When an operation or field is called like a
  function.
* `Dart.ProxyMethod.linesCall_body`, `Dart.ProxyGetter.linesCall_lines`: What
  the members of the class of a service call.
* `Dart.DataClass.linesCall_toJson`, `Dart.DataClass.linesCall_fromJson`: What
  the conversions of a data type call.
* `Dart.Proxy.calledIn_code`, `Dart.DataClass.calledIn_code`: What classes call.
* `Dart.Proxy.mem_members_iff`, `Dart.DataClass.mem_members_iff`: Which members
  can hide a function.
* `Contract.hides_iff`: When a function is hidden.
* `Contract.exists_hides`: An operation and a field that hide functions.
-/

namespace PlatformBridge

/-- The functions that the method of an operation calls. -/
def Operation.functions (o : Operation) : List String :=
  (if o.returns = .fireAndForget then [] else ["unwrapReply"])
    ++ "callEnvelope" :: o.parameters.flatMap (·.type.encoders)
    ++ o.returns.value?.toList.flatMap BridgeType.decoders

/-- The functions that the class of a service calls. -/
def Service.functions (s : Service) : List String :=
  s.operations.flatMap Operation.functions
    ++ s.events.flatMap fun e => e.payload.toList.flatMap BridgeType.decoders

/-- The functions that the class of a data type with some fields calls. -/
def Field.functions (fields : List Field) : List String :=
  fields.flatMap (·.type.encoders) ++ fields.flatMap (·.type.decoders)

namespace Dart

/-- A member hides a function that the code of its class calls. -/
def Hides (members code : List String) (function : String) : Prop :=
  function ∈ members ∧ function ∈ calledIn code

namespace Proxy

/-- What the class of a service declares. -/
def members (p : Proxy) : List String :=
  "_transport" :: (p.methods.map (·.name) ++ p.getters.map (·.name))

/-- The code of the class of a service: the statements of its methods, and its getters without the
    comments in front of them. -/
def code (p : Proxy) : List String :=
  p.methods.flatMap ProxyMethod.body ++ p.getters.flatMap fun g => g.lines.drop 2

end Proxy

namespace DataClass

/-- What the class of a data type with some named fields declares. -/
def members (named : List (String × Field)) : List String := named.map (·.1) ++ dataClassNames

/-- The code of the class of a data type: its file from the line on that declares the class. -/
def code (d : DataClass) (named : List (String × Field)) : List String :=
  (d.classLines named).drop ((d.imports named).length + 4)

end DataClass

section Names

/-- An operation, field or parameter is called like one of the functions just if its own name is the
    function's in lower camel case, unless it is told from that by an underscore. -/
theorem identifier_eq_iff (taken : List String) (htaken : ∀ f ∈ bridgeFunctions, f ∉ taken)
    (name function : String) (h : function ∈ bridgeFunctions) :
    identifier taken name = function ↔ Spelling.lowerCamelCase name = function := by
  have hunderscore : ∀ f ∈ bridgeFunctions, '_' ∉ f.toList := by decide
  -- No function ends in an underscore, so a word that got one is none of them.
  have hword : ∀ (taken : List String) (word : String),
      (if taken.contains word then word ++ "_" else word) = function → word = function := by
    intro taken word heq
    split at heq
    · refine absurd h fun hmem => hunderscore _ hmem ?_
      simp [← heq]
    · exact heq
  constructor
  -- Nor does one begin with the letter that is put in front of a name.
  · have hletter : ∀ f ∈ bridgeFunctions, f.toList.head? ≠ some 'v' := by decide
    intro heq
    have hspelled := hword _ _ (hword taken (unreserved _) heq)
    split at hspelled
    · exact absurd (by rw [← hspelled]; rfl) (hletter _ h)
    · split at hspelled
      · exact absurd (by simp [← hspelled]) (hletter _ h)
      · exact hspelled
  · have hfree : ∀ f ∈ bridgeFunctions, unreserved f = f := by decide
    intro heq
    have hcontains : taken.contains function = false :=
      Bool.eq_false_iff.mpr fun hmem => htaken _ h (List.contains_iff_mem.mp hmem)
    simp only [identifier, heq, hfree _ h, hcontains, Bool.false_eq_true, if_false]

/-- The functions that code calls are among those of the shared library. -/
theorem mem_bridgeFunctions_of_mem_calledFrom (place : Place) (code : List Char) (function : String)
    (h : function ∈ calledFrom place code) : function ∈ bridgeFunctions := by
  induction code generalizing place with
  | nil => cases h
  | cons c rest ih =>
      rw [calledFrom, List.mem_append, Option.mem_toList] at h
      rcases h with h | h
      · cases place with
        | code word =>
            rw [Place.call?] at h
            split at h
            · rename_i hcall
              rw [Bool.and_eq_true] at hcall
              exact Option.some.inj h ▸ List.contains_iff_mem.mp hcall.2
            · cases h
        | literal | escape => cases h
      · exact ih _ h

/-- The name of a getter begins with `on`, and no function does, so getters hide nothing. -/
theorem getter_ne {name function : String} (hname : IsGetterName name)
    (h : function ∈ bridgeFunctions) : name ≠ function := by
  have hletter : ∀ f ∈ bridgeFunctions, f.toList.head? ≠ some 'o' := by decide
  rintro rfl
  rcases hname with ⟨rest, hrest, _⟩
  exact hletter _ h (by rw [hrest]; rfl)

end Names

section Services

namespace ProxyMethod

variable (m : ProxyMethod)
  (h : NamesApart (IsMemberName methodLocals) m.operation.parameters m.parameters)

include h

/-- The call of a method hands its arguments over, each of them encoded. -/
theorem isExpression_call : IsExpression m.call
    ("callEnvelope" :: m.operation.parameters.flatMap (·.type.encoders)) := by
  have hid : Opens "callEnvelope(" ["callEnvelope"] := by decide
  have hlist : Separates ", <Object?>[" := separates_fixed (by decide) (by decide)
  have hclosing : Separates "])" := separates_fixed (by decide) (by decide)
  have hopening := hid.then (isExpression_literal m.operation.id) hlist
  have harguments := isExpression_intercalate
    (fun e : String × Parameter => e.2.type.dartEncode e.1 0) (fun e => e.2.type.encoders)
    m.parameters fun e he =>
      e.2.type.isExpression_dartEncode 0 (isExpression_word (h.ofKind e he).isWord)
  have hfunctions : m.operation.parameters.flatMap (·.type.encoders)
      = m.parameters.flatMap fun e => e.2.type.encoders := by
    rw [← h.items_eq, List.flatMap_map]
  rw [hfunctions]
  exact harguments.between hopening hclosing.closes

/-- A method calls the functions of its operation. -/
theorem linesCall_body : LinesCall m.body m.operation.functions := by
  have hcall := m.isExpression_call h
  have hclosing : Separates "));" := separates_fixed (by decide) (by decide)
  have hend : Separates ";" := separates_fixed (by decide) .nil
  unfold body Operation.functions
  split
  · rename_i hreturns
    have hopening : Opens "    _transport.post(" [] := by decide
    have hlast : Separates ");" := separates_fixed (by decide) (by decide)
    rw [hreturns, if_pos rfl]
    exact .cons (hcall.between hopening hlast.closes) .nil
  · rename_i hvalue hreturns
    have hopening : Opens "    unwrapReply(await _transport.invoke(" ["unwrapReply"] := by decide
    rw [if_neg hreturns, hvalue]
    exact .cons (hcall.between hopening hclosing.closes) .nil
  · rename_i value hvalue hreturns
    have hopening : Opens "    final result = unwrapReply(await _transport.invoke("
        ["unwrapReply"] := by decide
    have hreturn : Opens "    return " [] := by decide
    have hresult : IsExpression "result" [] := isExpression_word (Text.all_fixed rfl)
    have hdecode := (value.isExpression_dartDecode 0 hresult).between hreturn hend.closes
    rw [if_neg hreturns, hvalue, Option.toList_some, List.flatMap_singleton]
    exact .cons (hcall.between hopening hclosing.closes) (.singleton hdecode)

end ProxyMethod

/-- A getter calls the functions that decode what its event carries. -/
theorem ProxyGetter.linesCall_lines (g : ProxyGetter) (h : IsGetterName g.name) :
    LinesCall (g.lines.drop 2) (g.event.payload.toList.flatMap BridgeType.decoders) := by
  have hname := isExpression_word h.isWord
  have hsubscribe : Opens "_transport.events(" [] := by decide
  have hevents : IsExpression ("_transport.events(" ++ literal g.event.id ++ ")") [] :=
    (isExpression_literal g.event.id).between hsubscribe BridgeType.closes_parenthesis
  unfold lines
  dsimp only
  simp only [List.cons_append, List.nil_append, List.drop_succ_cons, List.drop_zero]
  -- With a payload the last line decodes it; without one, the only line calls nothing.
  cases hpayload : g.event.payload with
  | some type =>
      have hpayload : IsExpression "payload" [] := isExpression_word (Text.all_fixed rfl)
      have hindent : Opens "      " [] := by decide
      have hmap : Separates ".map((payload) => " :=
        separates_member "map".toList (by decide) (by decide)
      have hclosing : Separates ");" := separates_fixed (by decide) (by decide)
      have hdeclared : Text.All isQuiet
          ("  Stream<" ++ type.inDart ++ "> get " ++ g.name ++ " =>") := by
        simp only [Text.all_append]
        exact ⟨⟨⟨⟨Text.all_fixed rfl, type.isQuiet_inDart⟩, Text.all_fixed rfl⟩,
          h.isWord.imp fun _ => isQuiet_of_isWordChar⟩, Text.all_fixed rfl⟩
      have hdecode := (type.isExpression_dartDecode 0 hpayload).between
        (hindent.then hevents hmap) hclosing.closes
      rw [Option.toList_some, List.flatMap_singleton]
      exact .cons (isExpression_quiet hdeclared) (.singleton hdecode)
  | none =>
      have hdeclared : Opens "  Stream<void> get " [] := by decide
      have harrow : Separates " => " := separates_fixed (by decide) (by decide)
      have hmap : Separates ".map((_) \x7b\x7d);" :=
        separates_member "map".toList (by decide) (by decide)
      exact .cons (hevents.between (hdeclared.then hname harrow) hmap.closes) .nil

namespace Proxy

variable (s : Service) (p : Proxy) (h : ofService s = .ok p)

include h

/-- The class of a service calls the functions of its operations and events. -/
theorem calledIn_code : calledIn p.code = s.functions := by
  have hnames := p.namesMembers_of_ofService s h
  have hmethods : LinesCall (p.methods.flatMap ProxyMethod.body)
      (p.methods.flatMap (·.operation.functions)) :=
    .flatMap fun m hm => m.linesCall_body (hnames.parameters m hm)
  have hgetters : LinesCall (p.getters.flatMap fun g => g.lines.drop 2)
      (p.getters.flatMap fun g => g.event.payload.toList.flatMap BridgeType.decoders) :=
    .flatMap fun g hg => g.linesCall_lines (hnames.getters g hg)
  have hfunctions : s.functions = p.methods.flatMap (·.operation.functions)
      ++ p.getters.flatMap fun g => g.event.payload.toList.flatMap BridgeType.decoders := by
    rw [Service.functions, ← hnames.operations, ← hnames.events, List.flatMap_map, List.flatMap_map]
  rw [hfunctions]
  exact (hmethods.append hgetters).called

/-- The members that can hide a function are the methods. -/
theorem mem_members_iff (function : String) (hfunction : function ∈ bridgeFunctions) :
    function ∈ p.members ↔ ∃ o ∈ s.operations, Spelling.lowerCamelCase o.name = function := by
  have htransport : function ≠ "_transport" := by
    rintro rfl
    exact absurd hfunction (by decide)
  have hgetter : function ∉ p.getters.map (·.name) := by
    rw [List.mem_map]
    rintro ⟨g, hg, hname⟩
    exact getter_ne ((p.namesMembers_of_ofService s h).getters g hg) hfunction hname
  rcases p.of_ofService s h with ⟨_, _, hmethods, _⟩
  have hnames : p.methods.map (·.name)
      = s.operations.map fun o => identifier inheritedNames o.name :=
    Results.map_of_mapM_eq_ok _ _ _ _ (fun o m hm => (ProxyMethod.names_of_ofOperation o m hm).1)
      p.methods hmethods
  rw [members, List.mem_cons, or_iff_right htransport, List.mem_append, or_iff_left hgetter, hnames,
    List.mem_map]
  refine exists_congr fun o => and_congr_right fun _ => ?_
  exact identifier_eq_iff _ (by decide) o.name function hfunction

end Proxy

end Services

section DataTypes

namespace DataClass

variable (c : Contract) (d : DataType) (k : DataClass) (named : List (String × Field))

/-- The layout of a class gives all fields their identifiers. -/
theorem fields_of_ofDataType (h : ofDataType c d = .ok k) (hbody : k.body = .fields named) :
    k.name = typeIdentifier d.name ∧ named = (c.fieldsWithInherited d.name).map fun f =>
      (identifier (dataClassNames ++ inheritedNames) f.name, f) := by
  unfold ofDataType at h
  split at h
  · rcases Results.map_eq_ok.mp h with ⟨_, _, rfl⟩
    cases hbody
  · rcases Results.map_eq_ok.mp h with ⟨_, _, rfl⟩
    exact ⟨rfl, (DataBody.fields.inj hbody).symm⟩

/-- In front of a parenthesis the name of a class calls no function. -/
theorem opens_class (name : TypeName) {opening : String} (hopening : Opens opening [])
    {rest : List Char} (h : Runs .fresh rest [] .fresh) :
    Opens (opening ++ typeIdentifier name ++ String.ofList ('(' :: rest)) [] := by
  have hname := runs_word [] _ (isWord_typeIdentifier name)
  have hother : String.ofList ([] ++ (typeIdentifier name).toList) ∉ bridgeFunctions := by
    rw [List.nil_append, String.ofList_toList]
    exact typeIdentifier_not_mem_bridgeFunctions name
  have hcall : Runs (.code ([] ++ (typeIdentifier name).toList)) ('(' :: rest) [] .fresh :=
    (runs_parenthesis _ hother).append h
  rw [Opens, String.toList_append, String.toList_append, String.toList_ofList]
  exact (Runs.append hopening hname).append hcall

variable (hnamed : ∀ e ∈ named, Text.All isWordChar e.1)

include hnamed

/-- The function that encodes a value calls the functions that encode its fields. -/
theorem linesCall_toJson : LinesCall (["", "  /// Encodes this value into its wire form.",
    "  Map<String, Object?> toJson() => <String, Object?>\x7b"]
    ++ (named.map fun (name, f) =>
      "        " ++ literal f.name ++ ": " ++ f.type.dartEncode name 0 ++ ",")
    ++ ["      \x7d;"]) (named.flatMap fun e => e.2.type.encoders) := by
  have hfirst : LinesCall ["", "  /// Encodes this value into its wire form.",
    "  Map<String, Object?> toJson() => <String, Object?>\x7b"] [] := by decide
  have hindent : Opens "        " [] := by decide
  have hcolon : Separates ": " := separates_fixed (by decide) (by decide)
  have hcomma : Separates "," := separates_fixed (by decide) .nil
  have hlast : LinesCall ["      \x7d;"] [] := by decide
  have hentries : LinesCall (named.map fun (name, f) =>
      "        " ++ literal f.name ++ ": " ++ f.type.dartEncode name 0 ++ ",")
      (named.flatMap fun e => e.2.type.encoders) :=
    .map fun e he => ((e.2.type.isExpression_dartEncode 0 (isExpression_word
      (hnamed e he))).between (hindent.then (isExpression_literal e.2.name) hcolon) hcomma.closes)
  have hall := (hfirst.append hentries).append hlast
  rw [List.append_nil] at hall
  exact hall

variable (hname : k.name = typeIdentifier d.name)

include hname

/-- The constructor that decodes a value calls the functions that decode its fields. -/
theorem linesCall_fromJson : LinesCall (["", "  /// Decodes a wire value.",
    "  factory " ++ k.name ++ ".fromJson(Object? json) \x7b",
    "    final map = json! as Map<Object?, Object?>;", "    return " ++ k.name ++ "("]
    ++ (named.map fun (name, f) =>
      "      " ++ name ++ ": " ++ f.type.dartDecode ("map[" ++ literal f.name ++ "]") 0 ++ ",")
    ++ ["    );", "  \x7d", "\x7d"]) (named.flatMap fun e => e.2.type.decoders) := by
  have hfirst : LinesCall ["", "  /// Decodes a wire value."] [] := by decide
  have hfactory : Opens "  factory " [] := by decide
  have hmember : Separates ".fromJson(Object? json) \x7b" :=
    separates_member "fromJson".toList (by decide) (by decide)
  have hdecode := hfactory.then (isExpression_word (hname ▸ isWord_typeIdentifier d.name)) hmember
  have hcast : LinesCall ["    final map = json! as Map<Object?, Object?>;"] [] := by decide
  have hreturn : Opens "    return " [] := by decide
  have hresult : Opens ("    return " ++ k.name ++ "(") [] :=
    hname ▸ opens_class d.name hreturn .nil
  have hindent : Opens "      " [] := by decide
  have hmap : Opens "map[" [] := by decide
  have hcolon : Separates ": " := separates_fixed (by decide) (by decide)
  have hcomma : Separates "," := separates_fixed (by decide) .nil
  have hbracket : Separates "]" := separates_fixed (by decide) .nil
  have hlast : LinesCall ["    );", "  \x7d", "\x7d"] [] := by decide
  have harguments : LinesCall (named.map fun (name, f) =>
      "      " ++ name ++ ": " ++ f.type.dartDecode ("map[" ++ literal f.name ++ "]") 0 ++ ",")
      (named.flatMap fun e => e.2.type.decoders) :=
    .map fun e he => ((e.2.type.isExpression_dartDecode 0
      ((isExpression_literal e.2.name).between hmap hbracket.closes)).between
        (hindent.then (isExpression_word (hnamed e he)) hcolon) hcomma.closes)
  -- The lines in their order: the comment, the opening of the constructor, its arguments, its end.
  have hall := ((hfirst.append (.cons hdecode.isExpression (hcast.append
    (.singleton hresult.isExpression)))).append harguments).append hlast
  rw [List.append_nil] at hall
  exact hall

/-- The constructor of a class calls nothing. -/
theorem isExpression_constructor : IsExpression (if named.isEmpty then "  const " ++ k.name ++ "();"
    else "  const " ++ k.name ++ "(\x7b"
      ++ ", ".intercalate (named.map fun (name, f) => constructorParameter name f) ++ "\x7d);")
    [] := by
  have hconst : Opens "  const " [] := by decide
  have hempty : Opens ("  const " ++ typeIdentifier d.name ++ "();") [] :=
    opens_class d.name hconst (by decide)
  have hopening : Opens ("  const " ++ typeIdentifier d.name ++ "(\x7b") [] :=
    opens_class d.name hconst (by decide)
  have hclosing : Separates "\x7d);" := separates_fixed (by decide) (by decide)
  have hparameters := isExpression_intercalate
    (fun e : String × Field => constructorParameter e.1 e.2) (fun _ => []) named fun e he => by
      have hfield := (hnamed e he).imp fun _ => isQuiet_of_isWordChar
      unfold constructorParameter
      split
      · exact isExpression_quiet (Text.all_append.mpr ⟨Text.all_fixed rfl, hfield⟩)
      · exact isExpression_quiet (Text.all_append.mpr ⟨Text.all_fixed rfl, hfield⟩)
  have hnone : (named.flatMap fun _ => ([] : List String)) = [] := by simp
  rw [hnone] at hparameters
  rw [hname]
  split
  · exact hempty.isExpression
  · exact hparameters.between hopening hclosing.closes

/-- What a class declares before its conversions calls nothing. -/
theorem linesCall_declarations : LinesCall (["class " ++ k.name ++ " \x7b",
    if named.isEmpty then "  const " ++ k.name ++ "();"
    else "  const " ++ k.name ++ "(\x7b"
      ++ ", ".intercalate (named.map fun (name, f) => constructorParameter name f) ++ "\x7d);", ""]
    ++ named.map fun (name, f) => "  final " ++ f.type.inDart ++ " " ++ name ++ ";") [] := by
  have hclass : Text.All isQuiet ("class " ++ k.name ++ " \x7b") := by
    rw [hname, Text.all_append, Text.all_append]
    exact ⟨⟨Text.all_fixed rfl,
      (isWord_typeIdentifier d.name).imp fun _ => isQuiet_of_isWordChar⟩, Text.all_fixed rfl⟩
  have hempty : LinesCall [""] [] := by decide
  have hfields : LinesCall
      (named.map fun (name, f) => "  final " ++ f.type.inDart ++ " " ++ name ++ ";") [] := by
    refine .quiet (List.forall_mem_map.mpr fun e he => ?_)
    simp only [Text.all_append]
    exact ⟨⟨⟨⟨Text.all_fixed rfl, e.2.type.isQuiet_inDart⟩, Text.all_fixed rfl⟩,
      (hnamed e he).imp fun _ => isQuiet_of_isWordChar⟩, Text.all_fixed rfl⟩
  exact (LinesCall.cons (isExpression_quiet hclass) (.cons
    (isExpression_constructor d k named hnamed hname) hempty)).append hfields

/-- The class of a data type calls the functions of its fields. -/
theorem linesCall_code : LinesCall (k.code named)
    (named.flatMap (fun e => e.2.type.encoders) ++ named.flatMap fun e => e.2.type.decoders) := by
  have hall := (linesCall_declarations d k named hnamed hname).append
    ((linesCall_toJson named hnamed).append (linesCall_fromJson d k named hnamed hname))
  -- In front of these come two lines, the imports, and two more lines.
  have hlength : (k.imports named).length = ((k.imports named).map importLine).length :=
    (List.length_map _).symm
  simp only [List.append_assoc, List.cons_append, List.nil_append] at hall
  unfold code classLines
  simp only [List.append_assoc, List.cons_append, List.nil_append, List.drop_succ_cons]
  rw [hlength, List.drop_length_add_append]
  simp only [List.drop_succ_cons, List.drop_zero]
  exact hall

end DataClass

section Layout

variable (c : Contract) (d : DataType) (k : DataClass) (named : List (String × Field))
  (h : DataClass.ofDataType c d = .ok k) (hbody : k.body = .fields named)

include h hbody

/-- The class of a data type calls the functions of all its fields. -/
theorem DataClass.calledIn_code :
    calledIn (k.code named) = Field.functions (c.fieldsWithInherited d.name) := by
  rcases fields_of_ofDataType c d k named h hbody with ⟨hname, hnamed⟩
  have hfield : ∀ f : Field, Text.All isWordChar
      (identifier (dataClassNames ++ inheritedNames) f.name) := fun f =>
    (isMemberName_identifier (dataClassNames ++ inheritedNames) (by decide) f.name).isWord
  have hwords : ∀ e ∈ named, Text.All isWordChar e.1 := by
    intro e he
    rw [hnamed] at he
    rcases List.mem_map.mp he with ⟨f, _, rfl⟩
    dsimp only
    exact hfield f
  rw [Field.functions, calledIn, (linesCall_code d k named hwords hname).called, hnamed,
    List.flatMap_map, List.flatMap_map]

/-- The members that can hide a function are the fields. -/
theorem DataClass.mem_members_iff (function : String) (hfunction : function ∈ bridgeFunctions) :
    function ∈ members named
      ↔ ∃ f ∈ c.fieldsWithInherited d.name, Spelling.lowerCamelCase f.name = function := by
  have hother : function ∉ dataClassNames := fun hmem => by
    have hapart : ∀ f ∈ bridgeFunctions, f ∉ dataClassNames := by decide
    exact hapart _ hfunction hmem
  rcases fields_of_ofDataType c d k named h hbody with ⟨_, hnamed⟩
  have hidentifier : ∀ f : Field, identifier (dataClassNames ++ inheritedNames) f.name = function
      ↔ Spelling.lowerCamelCase f.name = function := fun f =>
    identifier_eq_iff (dataClassNames ++ inheritedNames) (by decide) f.name function hfunction
  have hnames : named.map (·.1) = (c.fieldsWithInherited d.name).map fun f =>
      identifier (dataClassNames ++ inheritedNames) f.name := by
    rw [hnamed, List.map_map, Function.comp_def]
  rw [members, List.mem_append, or_iff_left hother, hnames, List.mem_map]
  exact exists_congr fun f => and_congr_right fun _ => hidentifier f

end Layout

end DataTypes

/-- A function is hidden just if it is called and there is a member of its name. -/
theorem hides_iff_of_members {members code : List String} {functions : List String} {named : Prop}
    {function : String} (hcode : calledIn code = functions)
    (hmembers : function ∈ bridgeFunctions → (function ∈ members ↔ named)) :
    Hides members code function ↔ function ∈ functions ∧ named := by
  rw [Hides, hcode, and_comm]
  refine and_congr_right fun hcalled => hmembers ?_
  rw [← hcode] at hcalled
  exact mem_bridgeFunctions_of_mem_calledFrom _ _ function hcalled

end Dart

/-- In the class of a service a function is hidden just if the operations and events call for it and
    some operation has its name in lower camel case; in the class of a data type, just if the fields
    call for it and one of them has its name in lower camel case. -/
theorem Contract.hides_iff (c : Contract) (function : String) :
    (∀ s p, Dart.Proxy.ofService s = .ok p → (Dart.Hides p.members p.code function
      ↔ function ∈ s.functions
        ∧ ∃ o ∈ s.operations, Spelling.lowerCamelCase o.name = function))
    ∧ ∀ d k named, Dart.DataClass.ofDataType c d = .ok k → k.body = .fields named →
      (Dart.Hides (Dart.DataClass.members named) (k.code named) function
        ↔ function ∈ Field.functions (c.fieldsWithInherited d.name)
          ∧ ∃ f ∈ c.fieldsWithInherited d.name, Spelling.lowerCamelCase f.name = function) :=
  ⟨fun s p h => Dart.hides_iff_of_members (p.calledIn_code s h) (p.mem_members_iff s h function),
    fun d k named h hbody => Dart.hides_iff_of_members
      (Dart.DataClass.calledIn_code c d k named h hbody)
      (Dart.DataClass.mem_members_iff c d k named h hbody function)⟩

namespace Contract

/-- A service with operations that are called like functions that its class does not call. -/
def relay : Service where
  name := "Acme.Relay"
  operations := [
    ⟨"Decode-List", "Acme.Relay.Decode-List",
      [⟨"CallEnvelope", .list (.data "Acme.Note"), default⟩], .sync (.map (.primitive .i32)), false,
      "Decode-List", "Decode-List()"⟩,
    ⟨"EncodeNullable", "Acme.Relay.EncodeNullable",
      [⟨"Text", .nullable (.primitive .string), default⟩], .fireAndForget, false, "EncodeNullable",
      "EncodeNullable()"⟩]
  events := []
  dataTypes := .ofList ["Acme.Note"]

/-- A data type with fields of this kind. -/
def note : DataType :=
  ⟨"Acme.Note", .composite [⟨"DecodeMap", .list (.primitive .string)⟩,
    ⟨"UnwrapReply", .nullable (.data "Acme.Note")⟩] none⟩

/-- Nothing is hidden in their classes. -/
theorem not_hides_relay :
    (∃ p, Dart.Proxy.ofService relay = .ok p ∧ ∀ f, ¬ Dart.Hides p.members p.code f)
    ∧ ∃ k named, Dart.DataClass.ofDataType ⟨"Acme", [relay], [note]⟩ note = .ok k
      ∧ k.body = .fields named
      ∧ ∀ f, ¬ Dart.Hides (Dart.DataClass.members named) (k.code named) f := by
  have hoperations : ∀ o ∈ relay.operations, Spelling.lowerCamelCase o.name ∉ relay.functions := by
    decide
  have hfields : ∀ f ∈ fieldsWithInherited ⟨"Acme", [relay], [note]⟩ "Acme.Note",
      Spelling.lowerCamelCase f.name
        ∉ Field.functions (fieldsWithInherited ⟨"Acme", [relay], [note]⟩ "Acme.Note") := by
    decide
  rcases Results.exists_eq_ok_of_isOk (x := Dart.Proxy.ofService relay) (by decide) with ⟨p, hp⟩
  refine ⟨⟨p, hp, fun f hides => ?_⟩, ⟨"Note", "Acme.Note", .fields _⟩, _, rfl, rfl,
    fun f hides => ?_⟩
  · rcases ((hides_iff ⟨"Acme", [relay], [note]⟩ f).1 relay p hp).mp hides with ⟨hf, o, ho, rfl⟩
    exact hoperations o ho hf
  · rcases ((hides_iff ⟨"Acme", [relay], [note]⟩ f).2 note _ _ rfl rfl).mp hides with
      ⟨hf, g, hg, rfl⟩
    exact hfields g hg hf

/-- A service with an operation that is called like the function that unwraps its reply. -/
def box : Service where
  name := "Acme.Box"
  operations := [⟨"UnwrapReply", "Acme.Box.UnwrapReply", [], .sync (.primitive .i32), false,
    "UnwrapReply", "UnwrapReply()"⟩]
  events := []
  dataTypes := .ofList []

/-- A data type with a field that is called like the function that decodes it. -/
def bag : DataType := ⟨"Acme.Bag", .composite [⟨"DecodeList", .list (.primitive .i32)⟩] none⟩

/-- Both functions are hidden. -/
theorem exists_hides :
    (∃ p, Dart.Proxy.ofService box = .ok p ∧ Dart.Hides p.members p.code "unwrapReply")
    ∧ ∃ k named, Dart.DataClass.ofDataType ⟨"Acme", [box], [bag]⟩ bag = .ok k
      ∧ k.body = .fields named
      ∧ Dart.Hides (Dart.DataClass.members named) (k.code named) "decodeList" := by
  rcases Results.exists_eq_ok_of_isOk (x := Dart.Proxy.ofService box) (by decide) with ⟨p, hp⟩
  have hk : Dart.DataClass.ofDataType ⟨"Acme", [box], [bag]⟩ bag = .ok ⟨"Bag", "Acme.Bag",
      .fields [("decodeList", ⟨"DecodeList", .list (.primitive .i32)⟩)]⟩ := rfl
  refine ⟨⟨p, hp, ?_, ?_⟩, _, _, hk, rfl, by decide, ?_⟩
  · exact (p.mem_members_iff box hp "unwrapReply" (by decide)).mpr (by decide)
  · rw [p.calledIn_code box hp]
    decide
  · rw [Dart.DataClass.calledIn_code _ bag _ _ hk rfl]
    decide

end Contract

end PlatformBridge
