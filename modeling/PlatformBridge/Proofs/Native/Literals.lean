import PlatformBridge.Json.Token
import PlatformBridge.Native.DataModule
import PlatformBridge.Proofs.Native.Letters
import PlatformBridge.Proofs.Results
import PlatformBridge.Proofs.Text.Literals

/-!
# Literals of Native Code

The literals of the native side are read by the rules of the language: a
backslash starts an escape, or drops the line break and the blanks behind it;
a line break in the form of two characters is one line feed; and a carriage
return on its own is no part of a literal.

The ids and wire names of a contract are written between quotes as they are.
This is their literal just if there is nothing in them that starts an escape or
ends a literal. The other direction is the harder one, because a name with a
quote in it ends its literal early, or with an escape in front of the quote
even late. Two counts settle it. A literal is never shorter than what it
denotes, and is as long only if every character stands for itself; and every
quote inside a literal denotes a quote.

To see how the counts are used, take a name that is written between quotes and
read as itself. If the literal ended at its own quote, then it is as long as
what it denotes. If it ended elsewhere, then it is a start of the name up to a
quote in it, and has one quote less than the name; but a literal has no more
quotes than it denotes.

The second half goes through the files, in the order in which they are
written. A stub has ids behind one mark, a data type has wire names behind
another, and all other quotes in them belong to literals that are not asked
for. Every line is either passed or has one literal at its end. What the lines
are made of, apart from quoted names, is plain.

## Main definitions

* `Contract.memberNames`: The wire names of a data type.
* `Native.LiteralPlace`, `Native.stepLiteral?`, `Native.denoteFrom?`: Reading
  a literal, character by character.
* `Native.literalRules`: The literals of the language.
* `Native.StandsForItself`: A text that is its own literal.
* `Native.registerMark`, `Native.renameMark`: The code in front of the ids
  that a stub registers, and in front of the wire names of a data type.
* `Native.StubMethod.IsPlain`, `Native.DataItem.IsPlain`: Declarations whose
  names are plain.

## Theorems

* `Native.length_le_of_denoteFrom?`, `Native.count_quote_le_of_denoteFrom?`:
  The two counts.
* `Native.eq_of_length_le_of_denoteFrom?`: A literal that is as long as what
  it denotes.
* `Native.spells_self`: When a text is its own literal.
* `Native.StubMethod.isPlain_of_ofOperation`, `Native.DataItem.of_ofDataType`:
  What names are made into is plain.
* `Native.StubMethod.passesLine_declaration`, `Native.StubMethod.reads_binding`:
  The lines of a method.
* `Native.reads_stub`, `Native.DataItem.reads_lines`: The literals of stubs
  and data types.
-/

namespace PlatformBridge

open Text LiteralRules

/-- The wire names of the fields or members of a data type, inherited fields included. -/
def Contract.memberNames (c : Contract) (d : DataType) : List String :=
  match d.shape with
  | .enumeration members => members
  | .composite _ _ => (c.fieldsWithInherited d.name).map (·.name)

namespace Native

/-- Where in a literal a character is: between escapes, behind a backslash, in an escape with two
    digits, in one with braces, behind a line break that does not count, or behind a carriage
    return. -/
inductive LiteralPlace where
  | plain
  | escape
  | highDigit
  | lowDigit (high : Nat)
  | brace
  | digits (value count : Nat)
  | skip
  | carriage (isEscaped : Bool)

/-- What comes after a character between escapes, and what it denotes. -/
def stepPlain? (c : Char) : Option (LiteralPlace × Option Char) :=
  if c = '\\' then some (.escape, none)
  else if c = '\r' then some (.carriage false, none)
  else if c = '"' then none
  else some (.plain, some c)

/-- What comes after the character of an escape, and what it denotes. -/
def stepEscape? (c : Char) : Option (LiteralPlace × Option Char) :=
  if c = 'n' then some (.plain, some '\n')
  else if c = 'r' then some (.plain, some '\r')
  else if c = 't' then some (.plain, some '\t')
  else if c = '0' then some (.plain, some '\x00')
  else if c = '\\' || c = '\'' || c = '"' then some (.plain, some c)
  else if c = 'x' then some (.highDigit, none)
  else if c = 'u' then some (.brace, none)
  else if c = '\n' then some (.skip, none)
  else if c = '\r' then some (.carriage true, none)
  else none

/-- What comes after a character in the braces of an escape, and what it denotes. -/
def stepDigits? (value count : Nat) (c : Char) : Option (LiteralPlace × Option Char) :=
  if c = '}' then
    if 0 < count && value.isValidChar then some (.plain, some (Char.ofNat value)) else none
  else if c = '_' then
    if 0 < count then some (.digits value count, none) else none
  else (Json.Token.hexValue? c).bind fun digit =>
    if count < 6 then some (.digits (16 * value + digit) (count + 1), none) else none

/-- What comes after a character of a literal, and what it denotes. -/
def stepLiteral? : LiteralPlace → Char → Option (LiteralPlace × Option Char)
  | .plain, c => stepPlain? c
  | .escape, c => stepEscape? c
  | .highDigit, c => (Json.Token.hexValue? c).bind fun digit =>
    if digit < 8 then some (.lowDigit digit, none) else none
  | .lowDigit high, c => (Json.Token.hexValue? c).map fun digit =>
    (.plain, some (Char.ofNat (16 * high + digit)))
  | .brace, c => if c = '{' then some (.digits 0 0, none) else none
  | .digits value count, c => stepDigits? value count c
  | .skip, c => if c.isWhitespace then some (.skip, none) else stepPlain? c
  | .carriage isEscaped, c =>
    if c = '\n' then some (if isEscaped then (.skip, none) else (.plain, some '\n')) else none

/-- What the rest of a literal denotes. -/
def denoteFrom? : LiteralPlace → List Char → Option (List Char)
  | .plain, [] | .skip, [] => some []
  | _, [] => none
  | place, c :: rest =>
    (stepLiteral? place c).bind fun (next, denoted) =>
      (denoteFrom? next rest).map fun others => denoted.toList ++ others

/-- The literals of native code. Its comments end with a line feed. -/
def literalRules : LiteralRules where
  quote := '"'
  endsComment c := c = '\n'
  denote? := denoteFrom? .plain

/-- A text that is its own literal. -/
def StandsForItself (text : List Char) : Prop := ∀ c ∈ text, c ≠ '"' ∧ c ≠ '\\' ∧ c ≠ '\r'

instance (text : List Char) : Decidable (StandsForItself text) :=
  decidable_of_iff (text.all (fun c => decide (c ≠ '"' ∧ c ≠ '\\' ∧ c ≠ '\r')) = true)
    (by simp [StandsForItself])

section Counts

/-- A quote in a literal comes after a backslash and denotes a quote. -/
theorem eq_quote_of_step (place next : LiteralPlace) (denoted : Option Char)
    (h : stepLiteral? place '"' = some (next, denoted)) : denoted = some '"' := by
  cases place with
  | escape =>
      cases h
      rfl
  | _ => cases h

/-- What the rest of a literal denotes begins with what its first character denotes. -/
theorem denoteFrom?_cons_eq_some (place : LiteralPlace) (c : Char) (rest text : List Char)
    (h : denoteFrom? place (c :: rest) = some text) : ∃ next denoted others,
      stepLiteral? place c = some (next, denoted) ∧ denoteFrom? next rest = some others
        ∧ text = denoted.toList ++ others := by
  rw [denoteFrom?] at h
  rcases Option.bind_eq_some_iff.mp h with ⟨⟨next, denoted⟩, hstep, h⟩
  rcases Option.map_eq_some_iff.mp h with ⟨others, hothers, rfl⟩
  exact ⟨next, denoted, others, hstep, hothers, rfl⟩

/-- A literal that is at its end denotes nothing more. -/
theorem denoteFrom?_nil_eq_some (place : LiteralPlace) (text : List Char)
    (h : denoteFrom? place [] = some text) : text = [] := by
  cases place with
  | plain | skip => exact (Option.some.inj h).symm
  | _ => cases h

/-- Every quote inside a literal denotes a quote. -/
theorem count_quote_le_of_denoteFrom? (place : LiteralPlace) (written text : List Char)
    (h : denoteFrom? place written = some text) : written.count '"' ≤ text.count '"' := by
  induction written generalizing place text with
  | nil => exact Nat.zero_le _
  | cons c rest ih =>
      rcases denoteFrom?_cons_eq_some place c rest text h with
        ⟨next, denoted, others, hstep, hothers, rfl⟩
      rw [List.count_append, ← List.singleton_append, List.count_append]
      refine Nat.add_le_add ?_ (ih next others hothers)
      by_cases hc : c = '"'
      · rw [hc] at hstep ⊢
        rw [eq_quote_of_step place next denoted hstep]
        exact Nat.le_refl 1
      · rw [List.count_singleton, if_neg (by simpa using hc)]
        exact Nat.zero_le _

/-- A literal is never shorter than what it denotes. -/
theorem length_le_of_denoteFrom? (place : LiteralPlace) (written text : List Char)
    (h : denoteFrom? place written = some text) : text.length ≤ written.length := by
  induction written generalizing place text with
  | nil =>
      have hempty := denoteFrom?_nil_eq_some place text h
      exact Nat.le_of_eq (congrArg List.length hempty)
  | cons c rest ih =>
      rcases denoteFrom?_cons_eq_some place c rest text h with
        ⟨next, denoted, others, hstep, hothers, rfl⟩
      have hone : denoted.toList.length ≤ 1 := by cases denoted <;> simp
      have hrest := ih next others hothers
      rw [List.length_append, List.length_cons]
      omega

/-- A literal that is as long as what it denotes stands for itself. -/
theorem eq_of_length_le_of_denoteFrom? (written text : List Char)
    (h : denoteFrom? .plain written = some text) (hlength : written.length ≤ text.length) :
    written = text ∧ StandsForItself written := by
  induction written generalizing text with
  | nil => exact ⟨(denoteFrom?_nil_eq_some .plain text h).symm, nofun⟩
  | cons c rest ih =>
      rcases denoteFrom?_cons_eq_some .plain c rest text h with
        ⟨next, denoted, others, hstep, hothers, rfl⟩
      have hrest := length_le_of_denoteFrom? next rest others hothers
      rw [List.length_cons, List.length_append] at hlength
      change stepPlain? c = some (next, denoted) at hstep
      -- A character that denotes nothing would make the literal longer.
      have hdenoted : denoted ≠ none := by
        rintro rfl
        simp only [Option.toList_none, List.length_nil] at hlength
        omega
      unfold stepPlain? at hstep
      split at hstep
      · cases hstep
        exact absurd rfl hdenoted
      · rename_i hescape
        split at hstep
        · cases hstep
          exact absurd rfl hdenoted
        · rename_i hreturn
          split at hstep
          · cases hstep
          · rename_i hquote
            cases hstep
            simp only [Option.toList_some, List.length_singleton] at hlength
            rcases ih others hothers (by omega) with ⟨rfl, hself⟩
            exact ⟨rfl, List.forall_mem_cons.mpr ⟨⟨hquote, hescape, hreturn⟩, hself⟩⟩

end Counts

section Spelling

variable (mark : List Char)

/-- A text that stands for itself denotes itself, character by character. -/
theorem denoteFrom?_of_standsForItself (text : List Char) (h : StandsForItself text) :
    denoteFrom? .plain text = some text := by
  induction text with
  | nil => rfl
  | cons c rest ih =>
      rcases List.forall_mem_cons.mp h with ⟨⟨hquote, hescape, hreturn⟩, hrest⟩
      have hstep : stepLiteral? .plain c = some (.plain, some c) := by
        simp only [stepLiteral?, stepPlain?, hquote, hescape, hreturn, if_false]
      rw [denoteFrom?, hstep, Option.bind_some]
      dsimp only
      rw [ih hrest]
      rfl

/-- A text between quotes as it is denotes the text just if it stands for itself. -/
theorem spells_self (text : List Char) :
    literalRules.Spells mark StandsForItself text text where
  closes h := closes_of_forall fun c hc => ⟨(h c hc).1, (h c hc).2.1⟩
  denotes h := denoteFrom?_of_standsForItself text h
  allowed after rest raw others hscan hmark hdenotes := by
    rcases isPrefix_of_scan_literal hmark hscan with ⟨tail, hprefix⟩
    have hcount := count_quote_le_of_denoteFrom? .plain raw text hdenotes
    have hle := length_le_of_denoteFrom? .plain raw text hdenotes
    rcases Nat.lt_or_ge text.length raw.length with hlong | hshort
    · -- The quote behind the text is inside the literal, so the literal has one quote more.
      exfalso
      have hquote : text ++ ['"'] <+: raw := by
        have hstart : text ++ ['"'] <+: text ++ '"' :: rest := ⟨rest, by simp⟩
        refine List.prefix_of_prefix_length_le hstart ⟨tail, hprefix⟩ ?_
        rw [List.length_append]
        exact hlong
      have hmore := hquote.sublist.count_le '"'
      rw [List.count_append, List.count_singleton_self] at hmore
      omega
    · rcases eq_of_length_le_of_denoteFrom? raw text hdenotes hshort with ⟨rfl, hself⟩
      exact hself

end Spelling

instance : literalRules.IsUsual where
  quote := by decide
  quote_ne := by decide
  isCode_break := by decide
  endsComment_break := by decide
  holdsPlain c h := by simp [literalRules, ne_of_isPlain h (d := '\n') (by decide)]

section Stubs

/-- The code in front of an id that is registered, without blanks. -/
def registerMark : List Char := "table.register(".toList

/-- A method whose names are plain. -/
structure StubMethod.IsPlain (m : StubMethod) : Prop where
  name : All isPlain m.name
  parameters : ∀ e ∈ m.parameters, All isPlain e.1

/-- Whatever an operation and its parameters are called, the method that is made of it is plain. -/
theorem StubMethod.isPlain_of_ofOperation (o : Operation) (m : StubMethod)
    (h : ofOperation o = .ok m) : m.IsPlain ∧ m.operation = o := by
  rcases Results.map_eq_ok.mp h with ⟨_, _, hm⟩
  rw [← hm]
  refine ⟨⟨?_, fun e he => ?_⟩, by dsimp only⟩
  · dsimp only
    exact isPlain_identifier _ (Spelling.isPlain_snakeCase o.name)
  · dsimp only at he
    rcases List.mem_map.mp he with ⟨p, _, hp⟩
    rw [← hp]
    dsimp only
    exact isPlain_parameterIdentifier p.name

/-- The type of a method's value is plain, since types are. -/
theorem StubMethod.isPlain_valueType (m : StubMethod) : All isPlain m.valueType := by
  unfold valueType
  split
  · exact BridgeType.isPlain_inNative _
  · exact all_fixed rfl

/-- The parameters of a method in the trait are plain. -/
theorem StubMethod.exists_declaration_eq (m : StubMethod) (h : m.IsPlain) :
    ∃ parameters, All isPlain parameters
      ∧ m.declaration = ["    /// `" ++ m.operation.formalSignature ++ "`",
        if m.operation.returns.isAsync then
          "    fn " ++ m.name ++ "(&self" ++ parameters ++ ") -> "
            ++ "impl Future<Output = " ++ ("Result<" ++ m.valueType ++ ", InvocationError>")
            ++ "> + Send;"
        else "    fn " ++ m.name ++ "(&self" ++ parameters ++ ") -> "
          ++ ("Result<" ++ m.valueType ++ ", InvocationError>") ++ ";"] := by
  refine ⟨_, all_join.mpr (List.forall_mem_map.mpr fun e he => ?_), rfl⟩
  simp only [all_append, and_assoc]
  exact ⟨all_fixed rfl, h.parameters e he, all_fixed rfl, e.2.type.isPlain_inNative⟩

/-- The lines of a method in the trait: a comment that quotes its signature, and plain code. -/
theorem StubMethod.passesLine_declaration {mark : List Char} (m : StubMethod) (h : m.IsPlain)
    (hquoted : literalRules.IsQuotable m.operation.formalSignature) :
    ∀ line ∈ m.declaration, literalRules.PassesLine mark line := by
  obtain ⟨parameters, hparameters, hdeclaration⟩ := m.exists_declaration_eq h
  rw [hdeclaration]
  refine List.forall_mem_cons.mpr ⟨passesLine_doc "    " "/ `" hquoted,
    List.forall_mem_singleton.mpr (passesLine_plain ?_)⟩
  have hresult : All isPlain ("Result<" ++ m.valueType ++ ", InvocationError>") :=
    all_append.mpr ⟨all_append.mpr ⟨all_fixed rfl, m.isPlain_valueType⟩, all_fixed rfl⟩
  have hhead : All isPlain ("    fn " ++ m.name ++ "(&self" ++ parameters ++ ") -> ") := by
    simp only [all_append, and_assoc]
    exact ⟨all_fixed rfl, h.name, all_fixed rfl, hparameters, all_fixed rfl⟩
  split
  · exact all_append.mpr ⟨all_append.mpr ⟨all_append.mpr ⟨hhead, all_fixed rfl⟩, hresult⟩,
      all_fixed rfl⟩
  · exact all_append.mpr ⟨all_append.mpr ⟨hhead, hresult⟩, all_fixed rfl⟩

/-- The lines that take arguments apart have the names of parameters in them, which are plain. -/
theorem passesLine_argumentLines {mark : List Char} (start arguments : String)
    (hstart : All isPlain start) (harguments : All isPlain arguments)
    (parameters : List (String × Parameter)) (h : ∀ e ∈ parameters, All isPlain e.1)
    (index : Nat) : ∀ line ∈ StubMethod.argumentLines start arguments index parameters,
      literalRules.PassesLine mark line := by
  induction parameters generalizing index with
  | nil => exact List.forall_mem_nil _
  | cons e rest ih =>
      rw [List.forall_mem_cons] at h
      refine List.forall_mem_cons.mpr ⟨passesLine_plain ?_, ih h.2 (index + 1)⟩
      simp only [all_append, and_assoc]
      exact ⟨hstart, all_fixed rfl, h.1, all_fixed rfl, e.2.type.isPlain_inNative, all_fixed rfl,
        harguments, all_fixed rfl, isPlain_repr index, all_fixed rfl⟩

/-- The lines of a binding in front of the id that it registers. -/
def bindingStart : List String :=
  ["    \x7b", "        let service = Arc::clone(&service);", "        table.register("]

/-- The lines of a binding behind the id that it registers. -/
def StubMethod.bindingEnd (m : StubMethod) : List String := m.binding.drop 4

theorem StubMethod.binding_eq (m : StubMethod) : m.binding
    = bindingStart ++ ("            \"" ++ m.operation.id ++ "\",") :: m.bindingEnd := rfl

/-- Behind the id of a binding come no further ids: the other quotes are those of parameter names.
    -/
theorem StubMethod.passesLine_bindingEnd {mark : List Char} (m : StubMethod) (h : m.IsPlain) :
    ∀ line ∈ m.bindingEnd, literalRules.PassesLine mark line := by
  have hnames : All isPlain (", ".intercalate (m.parameters.map (·.1))) :=
    all_intercalate (all_fixed rfl) (List.forall_mem_map.mpr h.parameters)
  have harguments : ∀ opening : String, All isPlain opening →
      literalRules.PassesLine mark
        (opening ++ (if m.parameters.isEmpty then "_args" else "args") ++ "| \x7b") := by
    intro opening hopening
    refine passesLine_plain ?_
    simp only [all_append, and_assoc]
    exact ⟨hopening, by split <;> exact all_fixed rfl, all_fixed rfl⟩
  -- The call of the method is on a line of its own in either form, between different texts.
  have hcall : ∀ opening closing : String, All isPlain opening → All isPlain closing →
      literalRules.PassesLine mark (opening ++ ("&service." ++ m.name ++ "("
        ++ ", ".intercalate (m.parameters.map (·.1)) ++ ")") ++ closing) := by
    intro opening closing hopening hclosing
    refine passesLine_plain ?_
    simp only [all_append, and_assoc]
    exact ⟨hopening, all_fixed rfl, h.name, all_fixed rfl, hnames, all_fixed rfl, hclosing⟩
  have hlines : ∀ start arguments : String, All isPlain start → All isPlain arguments →
      ∀ line ∈ argumentLines start arguments 0 m.parameters, literalRules.PassesLine mark line :=
    fun start arguments hstart harguments =>
      passesLine_argumentLines start arguments hstart harguments _ h.parameters 0
  simp only [bindingEnd, binding, List.cons_append, List.nil_append, List.drop_succ_cons,
    List.drop_zero, List.forall_mem_append, List.forall_mem_cons]
  refine ⟨?_, passesLine_fixed rfl, passesLine_fixed rfl, List.forall_mem_nil _⟩
  split
  · simp only [List.forall_mem_cons, List.forall_mem_append]
    exact ⟨harguments _ (all_fixed rfl), passesLine_fixed rfl, passesLine_fixed rfl,
      hlines _ _ (all_fixed rfl) (all_fixed rfl), hcall _ _ (all_fixed rfl) (all_fixed rfl),
      passesLine_fixed rfl, passesLine_fixed rfl, List.forall_mem_nil _⟩
  · simp only [List.forall_mem_cons, List.forall_mem_append]
    exact ⟨harguments _ (all_fixed rfl), hlines _ _ (all_fixed rfl) (all_fixed rfl),
      hcall _ _ (all_fixed rfl) (all_fixed rfl), passesLine_fixed rfl, List.forall_mem_nil _⟩

/-- A binding registers the id of its operation. -/
theorem StubMethod.reads_binding (m : StubMethod) (h : m.IsPlain) (rest : List Char)
    (others : List (List Char))
    (hrest : literalRules.Reads registerMark StandsForItself rest others) :
    literalRules.Reads registerMark StandsForItself (inLines m.binding ++ rest)
      ([m.operation.id.toList] ++ others) := by
  have htext : inLines m.binding ++ rest = (inLines bindingStart ++ "            ".toList)
      ++ '"' :: (m.operation.id.toList
        ++ '"' :: (",\n".toList ++ (inLines m.bindingEnd ++ rest))) := by
    rw [binding_eq, inLines_append, inLines_cons]
    simp
  have hopen : literalRules.Opens registerMark true
      (inLines bindingStart ++ "            ".toList) :=
    opens_code (by decide) fun before => isSuffixOf_append before _ (by decide)
  rw [htext]
  exact .literal hopen (spells_self registerMark _) (.passes (passes_fixed (by decide))
    (.passes (passes_inLines (m.passesLine_bindingEnd h)) hrest))

/-- What a stub keeps of its service. The statements about stubs are about these three parts. -/
theorem Stub.of_ofService (s : Service) (t : Stub) (h : ofService s = .ok t) :
    t.traitName = typeIdentifier s.name ∧ t.service = s
      ∧ s.operations.mapM StubMethod.ofOperation = .ok t.methods := by
  simp only [ofService, Results.bind_eq_ok] at h
  rcases h with ⟨_, _, methods, hmethods, ht⟩
  rw [← Except.ok.inj ht]
  exact ⟨by dsimp only, rfl, hmethods⟩

/-- Methods with blank lines between them are passed if they are. -/
theorem passesLine_spaced {mark : List Char} (parts : List (List String))
    (h : ∀ lines ∈ parts, ∀ line ∈ lines, literalRules.PassesLine mark line) :
    ∀ line ∈ Stub.spaced parts, literalRules.PassesLine mark line := by
  induction parts with
  | nil => exact List.forall_mem_nil _
  | cons lines rest ih =>
      rw [List.forall_mem_cons] at h
      cases rest with
      | nil => exact h.1
      | cons next others =>
          change ∀ line ∈ lines ++ "" :: Stub.spaced (next :: others), _
          rw [List.forall_mem_append, List.forall_mem_cons]
          exact ⟨h.1, passesLine_fixed rfl, ih h.2⟩

/-- The methods of a stub are plain, and each is for an operation of the service. -/
theorem Stub.isPlain_of_mem_methods {t : Stub}
    (hmethods : t.service.operations.mapM StubMethod.ofOperation = .ok t.methods)
    {m : StubMethod} (hm : m ∈ t.methods) : m.IsPlain ∧ m.operation ∈ t.service.operations := by
  rcases Results.exists_of_mem_of_mapM_eq_ok _ _ t.methods hmethods m hm with ⟨o, ho, hof⟩
  rcases m.isPlain_of_ofOperation o hof with ⟨hplain, rfl⟩
  exact ⟨hplain, ho⟩

/-- The ids that a stub registers are those of its methods, one each and in order. -/
theorem Stub.operationIds_eq {t : Stub}
    (hmethods : t.service.operations.mapM StubMethod.ofOperation = .ok t.methods) :
    t.service.operations.map (fun o => o.id.toList)
      = t.methods.flatMap fun m => [m.operation.id.toList] := by
  rw [← List.map_eq_flatMap]
  refine (Results.map_of_mapM_eq_ok _ _ _ _ (fun o m hof => ?_) t.methods hmethods).symm
  rw [(m.isPlain_of_ofOperation o hof).2]

theorem passesLine_useLine {mark : List Char} (name : TypeName) :
    literalRules.PassesLine mark ("use super::data::" ++ typeIdentifier name ++ ";") := by
  refine passesLine_plain ?_
  simp only [all_append, and_assoc]
  exact ⟨all_fixed rfl, isPlain_typeIdentifier name, all_fixed rfl⟩

/-- The bound of the trait has a lifetime in it, which is no literal. -/
theorem passesLine_traitLine {mark : List Char} {name : String} (h : All isPlain name) :
    literalRules.PassesLine mark ("pub trait " ++ name ++ ": Send + Sync + 'static \x7b") := by
  refine passesLine_code (by decide) ?_
  simp only [all_append, and_assoc]
  exact ⟨all_fixed rfl, holdsPlain_isCode.all h, all_fixed rfl⟩

theorem passesLine_registerLine {mark : List Char} (service : TypeName) {name : String}
    (h : All isPlain name) :
    literalRules.PassesLine mark ("pub fn register_" ++ fileStem service ++ "<T: " ++ name
      ++ ">(table: &mut DispatchTable, service: Arc<T>) -> Result<(), RuntimeError> \x7b") := by
  refine passesLine_plain ?_
  simp only [all_append, and_assoc]
  exact ⟨all_fixed rfl, isPlain_fileStem service, all_fixed rfl, h, all_fixed rfl⟩

/-- A stub registers the ids of the operations of its service. -/
theorem reads_stub (s : Service) (t : Stub) (ht : Stub.ofService s = .ok t)
    (hname : literalRules.IsQuotable s.name)
    (hsignatures : ∀ o ∈ s.operations, literalRules.IsQuotable o.formalSignature) :
    literalRules.Reads registerMark StandsForItself (inLines t.lines)
      (s.operations.map fun o => o.id.toList) := by
  rcases t.of_ofService s ht with ⟨htrait, rfl, hmethods⟩
  have hmethod : ∀ m ∈ t.methods, m.IsPlain ∧ m.operation ∈ t.service.operations :=
    fun m hm => Stub.isPlain_of_mem_methods hmethods hm
  have htrait : All isPlain t.traitName := htrait ▸ isPlain_typeIdentifier _
  have hblank : literalRules.PassesLine registerMark "" := passesLine_fixed rfl
  rw [Stub.operationIds_eq hmethods, ← List.append_nil (List.flatMap _ _), Stub.lines]
  simp only [inLines_append, inLines_flatMap, List.append_assoc]
  -- The file is gone through block by block, and only the bindings have a literal that is looked
  -- for.
  refine .passes (passes_inLines ?_) (.passes (passes_inLines ?_) (.passes (passes_inLines ?_)
    (.passes (passes_inLines ?_) (.passes (passes_inLines ?_) (.passes (passes_inLines ?_)
    (.passes (passes_inLines ?_) (.passes (passes_inLines ?_) (.passes (passes_inLines ?_)
    (.flatMap (fun m hm => m.reads_binding (hmethod m hm).1)
      (.passes (passes_inLines ?_) (.of_passes (passes_inLines ?_))))))))))))
  · exact List.forall_mem_singleton.mpr hblank
  · split
    · exact List.forall_mem_singleton.mpr (passesLine_fixed rfl)
    · exact List.forall_mem_nil _
  · simp only [List.forall_mem_cons]
    exact ⟨passesLine_fixed rfl, hblank, passesLine_fixed rfl, passesLine_fixed rfl,
      passesLine_fixed rfl, passesLine_fixed rfl, List.forall_mem_nil _⟩
  · split
    · exact List.forall_mem_singleton.mpr (passesLine_fixed rfl)
    · exact List.forall_mem_nil _
  · split
    · exact List.forall_mem_nil _
    · exact List.forall_mem_singleton.mpr (passesLine_fixed rfl)
  · split
    · exact List.forall_mem_nil _
    · exact List.forall_mem_cons.mpr
        ⟨hblank, List.forall_mem_map.mpr fun n _ => passesLine_useLine n⟩
  · simp only [List.forall_mem_cons]
    exact ⟨hblank, passesLine_doc "" "/ Native implementation of the `" hname,
      passesLine_traitLine htrait, List.forall_mem_nil _⟩
  · refine passesLine_spaced _ (List.forall_mem_map.mpr fun m hm => ?_)
    exact m.passesLine_declaration (hmethod m hm).1 (hsignatures _ (hmethod m hm).2)
  · simp only [List.forall_mem_cons]
    exact ⟨passesLine_fixed rfl, hblank,
      passesLine_doc "" "/ Binds `service` to the operation ids of `" hname,
      passesLine_note "" "/", passesLine_note "" "/ # Errors", passesLine_note "" "/",
      passesLine_note ""
        "/ Returns [`RuntimeError::DuplicateBinding`] when an id is already bound.",
      passesLine_registerLine _ htrait, List.forall_mem_nil _⟩
  · split
    · exact List.forall_mem_singleton.mpr (passesLine_fixed rfl)
    · exact List.forall_mem_nil _
  · simp only [List.forall_mem_cons]
    exact ⟨passesLine_fixed rfl, passesLine_fixed rfl, List.forall_mem_nil _⟩

end Stubs

section DataTypes

/-- The code in front of a wire name, without blanks. -/
def renameMark : List Char := "serde(rename=".toList

/-- The wire names of a declaration. -/
def DataItem.wireNames (d : DataItem) : List String :=
  match d.body with
  | .fields named => named.map (·.2.name)
  | .variants named => named.map (·.2)

/-- A declaration whose names are plain. -/
structure DataItem.IsPlain (d : DataItem) : Prop where
  name : All isPlain d.name
  fields : ∀ named, d.body = .fields named → ∀ e ∈ named, All isPlain e.1
  variants : ∀ named, d.body = .variants named → ∀ e ∈ named, All isPlain e.1

/-- The declaration of a data type has the names of its members or fields on the wire. -/
theorem DataItem.of_ofDataType (c : Contract) (d : DataType) (i : DataItem)
    (h : ofDataType c d = .ok i) :
    i.IsPlain ∧ i.typeName = d.name ∧ i.wireNames = c.memberNames d := by
  unfold ofDataType at h
  split at h
  · rename_i members hshape
    rcases Results.map_eq_ok.mp h with ⟨_, _, hi⟩
    rw [← hi, Contract.memberNames, hshape]
    dsimp only
    refine ⟨⟨?_, fun named hnamed => (nomatch hnamed), fun named hnamed e he => ?_⟩, rfl, ?_⟩
    · dsimp only
      exact isPlain_typeIdentifier d.name
    · rw [← DataBody.variants.inj hnamed] at he
      rcases List.mem_map.mp he with ⟨m, _, hm⟩
      rw [← hm]
      dsimp only
      exact isPlain_identifier _ (Spelling.isPlain_pascalCase m)
    · simp [wireNames, Function.comp_def]
  · rename_i fields base hshape
    rcases Results.map_eq_ok.mp h with ⟨_, _, hi⟩
    rw [← hi, Contract.memberNames, hshape]
    dsimp only
    refine ⟨⟨?_, fun named hnamed e he => ?_, fun named hnamed => (nomatch hnamed)⟩, rfl, ?_⟩
    · dsimp only
      exact isPlain_typeIdentifier d.name
    · rw [← DataBody.fields.inj hnamed] at he
      rcases List.mem_map.mp he with ⟨f, _, hf⟩
      rw [← hf]
      dsimp only
      exact isPlain_identifier _ (Spelling.isPlain_snakeCase f.name)
    · simp [wireNames, Function.comp_def]

/-- A field or member has its wire name in an attribute, with plain code behind it. -/
theorem reads_renamed {opening line : String} (name closing : String)
    (hopening : opening = "    #[serde(rename = \"" ++ name ++ "\"" ++ closing)
    (hclosing : All isPlain closing) (hline : All isPlain line) (rest : List Char)
    (others : List (List Char))
    (hrest : literalRules.Reads renameMark StandsForItself rest others) :
    literalRules.Reads renameMark StandsForItself (inLines [opening, line] ++ rest)
      ([name.toList] ++ others) := by
  have htext : inLines [opening, line] ++ rest = "    #[serde(rename = ".toList
      ++ '"' :: (name.toList ++ '"' :: (inLines [closing, line] ++ rest)) := by
    rw [hopening]
    simp [inLines]
  have hopen : literalRules.Opens renameMark true "    #[serde(rename = ".toList :=
    opens_code (by decide) fun before => isSuffixOf_append before _ (by decide)
  rw [htext]
  refine .literal hopen (spells_self renameMark _) (.passes (passes_inLines ?_) hrest)
  exact List.forall_mem_cons.mpr ⟨passesLine_plain hclosing,
    List.forall_mem_singleton.mpr (passesLine_plain hline)⟩

/-- A declaration gives the wire names of its fields or members. -/
theorem DataItem.reads_lines (d : DataItem) (h : d.IsPlain)
    (hquoted : literalRules.IsQuotable d.typeName)
    (rest : List Char) (others : List (List Char))
    (hrest : literalRules.Reads renameMark StandsForItself rest others) :
    literalRules.Reads renameMark StandsForItself (inLines d.lines ++ rest)
      (d.wireNames.map (·.toList) ++ others) := by
  have hblank : literalRules.PassesLine renameMark "" := passesLine_fixed rfl
  have hopened : ∀ opening : String, All isPlain opening →
      literalRules.PassesLine renameMark (opening ++ d.name ++ " \x7b") := fun opening hopening =>
    passesLine_plain (all_append.mpr ⟨all_append.mpr ⟨hopening, h.name⟩, all_fixed rfl⟩)
  have hclosed : literalRules.Reads renameMark StandsForItself (inLines ["\x7d"] ++ rest) others :=
    .passes (passes_inLines (List.forall_mem_singleton.mpr (passesLine_fixed rfl))) hrest
  -- Every variant or field has its attribute with the wire name in front of it.
  cases hbody : d.body with
  | variants named =>
      simp only [lines, wireNames, hbody, inLines_append, inLines_flatMap, List.append_assoc,
        List.map_eq_flatMap, List.flatMap_assoc, List.flatMap_singleton]
      refine .passes (passes_inLines ?_) (.flatMap (fun e he rest others hrest => ?_) hclosed)
      · simp only [List.forall_mem_cons]
        exact ⟨hblank, passesLine_doc "" "/ Wire enumeration `" hquoted, passesLine_fixed rfl,
          hopened _ (all_fixed rfl), List.forall_mem_nil _⟩
      · refine reads_renamed e.2 ")]" (by simp [String.append_assoc]) (all_fixed rfl) ?_ rest
          others hrest
        exact all_append.mpr
          ⟨all_append.mpr ⟨all_fixed rfl, h.variants named hbody e he⟩, all_fixed rfl⟩
  | fields named =>
      simp only [lines, wireNames, hbody, inLines_append, inLines_flatMap, List.append_assoc,
        List.map_eq_flatMap, List.flatMap_assoc, List.flatMap_singleton]
      refine .passes (passes_inLines ?_) (.flatMap (fun e he rest others hrest => ?_) hclosed)
      · simp only [List.forall_mem_cons]
        exact ⟨hblank, passesLine_doc "" "/ Wire data type `" hquoted, passesLine_fixed rfl,
          passesLine_fixed rfl, hopened _ (all_fixed rfl), List.forall_mem_nil _⟩
      · have hclosing : All isPlain ((if e.2.type.isNullable then ", default" else "") ++ ")]") :=
          all_append.mpr ⟨by split <;> exact all_fixed rfl, all_fixed rfl⟩
        refine reads_renamed e.2.name _ String.append_assoc hclosing ?_ rest others hrest
        simp only [all_append, and_assoc]
        exact ⟨all_fixed rfl, h.fields named hbody e he, all_fixed rfl, e.2.type.isPlain_inNative,
          all_fixed rfl⟩

end DataTypes

end Native

end PlatformBridge
