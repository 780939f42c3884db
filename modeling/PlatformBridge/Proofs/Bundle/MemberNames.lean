import PlatformBridge.Proofs.Bundle.TypeNames
import PlatformBridge.Proofs.Dart.Names
import PlatformBridge.Proofs.Native.Names

/-!
# Names of Members in a Package

Every file of a service or data type is laid out before it is written. A layout
gives each operation, parameter, field and member a name of its side, and there
is one only if the names of each scope are distinct. Names that get an
underscore to be told from others may become those of others by that; then there
is no layout, and no file.

Two things are said of every file. Its layout is the one that is made from the
service or data type, and names everything that the contract has in it, by legal
names that are distinct in their scope. And its text declares what the layout
has, by these names: the line of a method has its parameters with their types,
that of an enumeration member the name it has on the wire. The first is about
the naming functions, the second about the lines of the files, and a file that
is right in one respect could be wrong in the other.

Both sides name things in their own way and have their own words to avoid, but
they do so by one scheme. `NamesApart` is this scheme, with the names that are
legal as a parameter, and all scopes of both sides are cases of it.

The declaring line of a method or getter is the only one of its lines that the
statements mention. What follows on it depends on how an operation answers, so
there is one lemma for each that says what the possible endings are.

## Main definitions

* `NamesApart`: Items with names of their own.
* `Dart.Proxy.NamesMembers`, `Dart.DataBody.NamesMembers`: Layouts of Dart
  files.
* `Dart.Proxy.DeclaresMembers`, `Dart.DataBody.DeclaresMembers`: Lines that
  declare what such a layout has.
* `Native.Stub.NamesMembers`, `Native.DataBody.NamesMembers`: Layouts of native
  files.
* `Native.Stub.DeclaresMembers`, `Native.DataBody.DeclaresMembers`: Lines that
  declare what such a layout has.

## Theorems

* `namesApart_of_requireDistinct`: Spelled names that are distinct are names of
  their own.
* `Dart.Proxy.namesMembers_of_ofService`,
  `Dart.DataBody.namesMembers_of_ofDataType`,
  `Native.Stub.namesMembers_of_ofService`,
  `Native.DataBody.namesMembers_of_ofDataType`: Layouts name what they lay out.
* `Dart.Proxy.declaresMembers_lines`, `Dart.DataBody.declaresMembers_lines`,
  `Native.Stub.declaresMembers_lines`,
  `Native.DataBody.declaresMembers_dataLines`: Files declare what is in their
  layouts.
* `Contract.memberNames_of_files`: Both, for every file of a service or data
  type.
-/

namespace PlatformBridge

/-- Items with names of their own, all of one kind. -/
structure NamesApart {α : Type} (kind : String → Prop) (items : List α)
    (named : List (String × α)) : Prop where
  items_eq : named.map (·.2) = items
  ofKind : ∀ i ∈ named, kind i.1
  distinct : (named.map (·.1)).Nodup

/-- Items that are spelled apart have names of their own. -/
theorem namesApart_of_requireDistinct {α : Type} (kind : String → Prop) (spell : α → String)
    (hkind : ∀ a, kind (spell a)) (items : List α) (side : Side) (scope : String) (u : Unit)
    (h : requireDistinct side scope ((items.map fun a => (spell a, a)).map (·.1)) = .ok u) :
    NamesApart kind items (items.map fun a => (spell a, a)) := by
  refine ⟨?_, fun i hi => ?_, (requireDistinct_eq_ok _ _ _ u).mp h⟩
  · rw [List.map_map]
    exact List.map_id items
  · rcases List.mem_map.mp hi with ⟨a, _, rfl⟩
    exact hkind a

namespace Dart

/-- A class that names the operations and events of a service, and the parameters of each
    operation. -/
structure Proxy.NamesMembers (s : Service) (p : Proxy) : Prop where
  operations : p.methods.map (·.operation) = s.operations
  events : p.getters.map (·.event) = s.events
  methods : ∀ m ∈ p.methods, IsMemberName inheritedNames m.name
  getters : ∀ g ∈ p.getters, IsGetterName g.name
  distinct : (p.methods.map (·.name) ++ p.getters.map (·.name)).Nodup
  parameters : ∀ m ∈ p.methods,
    NamesApart (IsMemberName methodLocals) m.operation.parameters m.parameters

/-- A class that names the fields of a data type, inherited ones included, or an enumeration that
    names its members. -/
def DataBody.NamesMembers (c : Contract) (d : DataType) : DataBody → Prop
  | .fields named => (∃ own base, d.shape = .composite own base)
      ∧ NamesApart (IsMemberName (dataClassNames ++ inheritedNames)) (c.fieldsWithInherited d.name)
        named
  | .members named => ∃ members, d.shape = .enumeration members
      ∧ NamesApart (IsMemberName (enumerationNames ++ inheritedNames)) members named

/-- What the method of an operation gives back. -/
def ProxyMethod.resultType (m : ProxyMethod) : String :=
  match m.operation.returns, m.operation.returns.value? with
  | .fireAndForget, _ => "void"
  | _, none => "Future<void>"
  | _, some value => "Future<" ++ value.inDart ++ ">"

/-- What the getter of an event gives with each occurrence. -/
def ProxyGetter.payloadType (g : ProxyGetter) : String :=
  match g.event.payload with
  | some type => type.inDart
  | none => "void"

/-- Lines that declare the members of a class by their names: each method with the types and names
    of all its parameters, and each getter. -/
structure Proxy.DeclaresMembers (p : Proxy) (lines : List String) : Prop where
  methods : ∀ m ∈ p.methods, ∃ ending ∈ [" \x7b", " async \x7b"],
    "  " ++ m.resultType ++ " " ++ m.name ++ "("
      ++ ", ".intercalate (m.parameters.map fun (name, q) => q.type.inDart ++ " " ++ name) ++ ")"
      ++ ending ∈ lines
  getters : ∀ g ∈ p.getters, ∃ rest,
    "  Stream<" ++ g.payloadType ++ "> get " ++ g.name ++ " =>" ++ rest ∈ lines

/-- Lines that declare the fields of a class, or the members of an enumeration with their wire
    names, by their names. -/
def DataBody.DeclaresMembers (lines : List String) : DataBody → Prop
  | .fields named => ∀ e ∈ named, "  final " ++ e.2.type.inDart ++ " " ++ e.1 ++ ";" ∈ lines
  | .members named => ∀ e ∈ named, ∃ ending ∈ [",", ";"],
      "  " ++ e.1 ++ "(" ++ literal e.2 ++ ")" ++ ending ∈ lines

/-- The method of an operation names its parameters. -/
theorem ProxyMethod.names_of_ofOperation (o : Operation) (m : ProxyMethod)
    (h : ofOperation o = .ok m) : m.name = identifier inheritedNames o.name ∧ m.operation = o
      ∧ NamesApart (IsMemberName methodLocals) o.parameters m.parameters := by
  rcases Results.map_eq_ok.mp h with ⟨u, hdistinct, rfl⟩
  exact ⟨by dsimp only, by dsimp only, namesApart_of_requireDistinct _
    (fun p : Parameter => identifier methodLocals p.name)
    (fun p => isMemberName_identifier _ (by decide) p.name) _ _ _ u hdistinct⟩

/-- The class of a service names its operations and events. -/
theorem Proxy.namesMembers_of_ofService (s : Service) (p : Proxy) (h : ofService s = .ok p) :
    p.NamesMembers s := by
  simp only [ofService, Results.bind_eq_ok] at h
  rcases h with ⟨u, hdistinct, methods, hmethods, hp⟩
  rcases Except.ok.inj hp with rfl
  -- The names that are required to be distinct are those that the methods get.
  have hnames : methods.map (·.name) = s.operations.map fun o => identifier inheritedNames o.name :=
    Results.map_of_mapM_eq_ok _ _ _ _ (fun o m hm => (ProxyMethod.names_of_ofOperation o m hm).1)
      methods hmethods
  refine ⟨?_, ?_, fun m hm => ?_, fun g hg => ?_, ?_, fun m hm => ?_⟩
  · exact (Results.map_of_mapM_eq_ok _ _ _ id
      (fun o m hm => (ProxyMethod.names_of_ofOperation o m hm).2.1) methods hmethods).trans
      (List.map_id _)
  · rw [List.map_map]
    exact List.map_id s.events
  · rcases Results.exists_of_mem_of_mapM_eq_ok _ _ methods hmethods m hm with ⟨o, _, hm⟩
    rw [(ProxyMethod.names_of_ofOperation o m hm).1]
    exact isMemberName_identifier _ (by decide) o.name
  · rcases List.mem_map.mp hg with ⟨e, _, rfl⟩
    exact isGetterName_pascalCase e.name
  · rw [hnames]
    exact (requireDistinct_eq_ok _ _ _ u).mp hdistinct
  · rcases Results.exists_of_mem_of_mapM_eq_ok _ _ methods hmethods m hm with ⟨o, _, hm⟩
    rcases ProxyMethod.names_of_ofOperation o m hm with ⟨_, rfl, hparameters⟩
    exact hparameters

/-- The class or enumeration of a data type names its fields or members. -/
theorem DataBody.namesMembers_of_ofDataType (c : Contract) (d : DataType) (k : DataClass)
    (h : DataClass.ofDataType c d = .ok k) : k.body.NamesMembers c d := by
  unfold DataClass.ofDataType at h
  split at h
  · rename_i members hshape
    rcases Results.map_eq_ok.mp h with ⟨u, hdistinct, rfl⟩
    exact ⟨members, hshape, namesApart_of_requireDistinct _ _
      (fun m => isMemberName_identifier _ (by decide) m) _ _ _ u hdistinct⟩
  · rename_i own base hshape
    rcases Results.map_eq_ok.mp h with ⟨u, hdistinct, rfl⟩
    exact ⟨⟨own, base, hshape⟩, namesApart_of_requireDistinct _
      (fun f : Field => identifier (dataClassNames ++ inheritedNames) f.name)
      (fun f => isMemberName_identifier _ (by decide) f.name) _ _ _ u hdistinct⟩

/-- A method is declared in one line, whatever the operation answers and however it does. -/
theorem ProxyMethod.exists_ending (m : ProxyMethod) : ∃ ending ∈ [" \x7b", " async \x7b"],
    "  " ++ m.signature ++ " \x7b" = "  " ++ m.resultType ++ " " ++ m.name ++ "("
      ++ ", ".intercalate (m.parameters.map fun (name, q) => q.type.inDart ++ " " ++ name) ++ ")"
      ++ ending := by
  rw [signature, resultType, parameterList]
  cases m.operation.returns with
  | fireAndForget => exact ⟨" \x7b", by simp, by rw [← String.toList_inj]; simp⟩
  | sync value =>
      refine ⟨" async \x7b", by simp, ?_⟩
      rw [← String.toList_inj]
      simp [ReplyMode.value?]
  | async value =>
      refine ⟨" async \x7b", by simp, ?_⟩
      cases value with
      | none =>
          rw [← String.toList_inj]
          simp [ReplyMode.value?]
      | some value =>
          rw [← String.toList_inj]
          simp [ReplyMode.value?]

/-- The getter of an event without payload is one line, any other has two. -/
theorem ProxyGetter.exists_rest (g : ProxyGetter) : ∃ rest,
    "  Stream<" ++ g.payloadType ++ "> get " ++ g.name ++ " =>" ++ rest ∈ g.lines := by
  rw [payloadType, lines]
  cases g.event.payload with
  | none =>
      refine ⟨" _transport.events(" ++ literal g.event.id ++ ").map((_) \x7b\x7d);", ?_⟩
      refine List.mem_append_right _ (List.mem_singleton.mpr ?_)
      rw [← String.toList_inj]
      simp
  | some type => exact ⟨"", by simp⟩

/-- The file of a service declares all members of its class. -/
theorem Proxy.declaresMembers_lines (p : Proxy) : p.DeclaresMembers p.lines := by
  refine ⟨fun m hm => ?_, fun g hg => ?_⟩
  · rcases m.exists_ending with ⟨ending, hending, heq⟩
    have hline : "  " ++ m.signature ++ " \x7b" ∈ m.lines := by simp [ProxyMethod.lines]
    rw [heq] at hline
    have hmethods := List.mem_flatMap.mpr ⟨m, hm, hline⟩
    exact ⟨ending, hending, by simp only [lines, List.mem_append, hmethods, true_or, or_true]⟩
  · rcases g.exists_rest with ⟨rest, hline⟩
    have hgetters := List.mem_flatMap.mpr ⟨g, hg, hline⟩
    exact ⟨rest, by simp only [lines, List.mem_append, hgetters, true_or, or_true]⟩

/-- The last member ends the list of members, the others do not. -/
theorem DataClass.exists_mem_memberLines (named : List (String × String)) :
    ∀ e ∈ named, ∃ ending ∈ [",", ";"],
      "  " ++ e.1 ++ "(" ++ literal e.2 ++ ")" ++ ending ∈ memberLines named := by
  induction named with
  | nil => exact List.forall_mem_nil _
  | cons e rest ih =>
      cases rest with
      | nil =>
          refine List.forall_mem_singleton.mpr ⟨";", by simp, ?_⟩
          simp [memberLines, String.append_assoc]
      | cons next others =>
          refine List.forall_mem_cons.mpr ⟨⟨",", by simp, ?_⟩, fun e' he' => ?_⟩
          · simp [memberLines, String.append_assoc]
          · rcases ih e' he' with ⟨ending, hending, hline⟩
            exact ⟨ending, hending, List.mem_cons_of_mem _ hline⟩

/-- The file of a data type declares all its fields or members. -/
theorem DataBody.declaresMembers_lines (k : DataClass) : k.body.DeclaresMembers k.lines := by
  rw [DataClass.lines]
  cases k.body with
  | fields named =>
      intro e he
      have hfields := List.mem_map_of_mem
        (f := fun e : String × Field => "  final " ++ e.2.type.inDart ++ " " ++ e.1 ++ ";") he
      simp only [DataClass.classLines, List.mem_append, hfields, true_or, or_true]
  | members named =>
      intro e he
      rcases DataClass.exists_mem_memberLines named e he with ⟨ending, hending, hline⟩
      exact ⟨ending, hending, by
        simp only [DataClass.enumLines, List.mem_append, hline, true_or, or_true]⟩

end Dart

namespace Native

/-- A trait that names the operations of a service, and the parameters of each operation. -/
structure Stub.NamesMembers (s : Service) (t : Stub) : Prop where
  methods : NamesApart IsIdentifier s.operations (t.methods.map fun m => (m.name, m.operation))
  parameters : ∀ m ∈ t.methods, NamesApart (fun name => IsIdentifier name ∧ name ∉ stubLocals)
    m.operation.parameters m.parameters

/-- A structure that names the fields of a data type, inherited ones included, or an enumeration
    that names its members. -/
def DataBody.NamesMembers (c : Contract) (d : DataType) : DataBody → Prop
  | .fields named => (∃ own base, d.shape = .composite own base)
      ∧ NamesApart IsIdentifier (c.fieldsWithInherited d.name) named
  | .variants named => ∃ members, d.shape = .enumeration members
      ∧ NamesApart IsIdentifier members named

/-- Lines that declare the methods of a trait by their names, each with the names and types of all
    its parameters. -/
def Stub.DeclaresMembers (t : Stub) (lines : List String) : Prop :=
  ∀ m ∈ t.methods, ∃ result,
    "    fn " ++ m.name ++ "(&self"
      ++ String.join (m.parameters.map fun (name, q) => ", " ++ name ++ ": " ++ q.type.inNative)
      ++ ") -> " ++ result ∈ lines

/-- Lines that declare the fields of a structure, or the variants of an enumeration, by their
    names. -/
def DataBody.DeclaresMembers (lines : List String) : DataBody → Prop
  | .fields named => ∀ e ∈ named, "    pub " ++ e.1 ++ ": " ++ e.2.type.inNative ++ "," ∈ lines
  | .variants named => ∀ e ∈ named, "    " ++ e.1 ++ "," ∈ lines

/-- The method of an operation names its parameters. -/
theorem StubMethod.names_of_ofOperation (o : Operation) (m : StubMethod)
    (h : ofOperation o = .ok m) : m.name = nameOf o ∧ m.operation = o
      ∧ NamesApart (fun name => IsIdentifier name ∧ name ∉ stubLocals) o.parameters
        m.parameters := by
  rcases Results.map_eq_ok.mp h with ⟨u, hdistinct, rfl⟩
  exact ⟨by dsimp only, by dsimp only, namesApart_of_requireDistinct _
    (fun p : Parameter => parameterIdentifier p.name)
    (fun p => ⟨isIdentifier_parameterIdentifier p.name,
      parameterIdentifier_not_mem_stubLocals p.name⟩) _ _ _ u hdistinct⟩

/-- The trait of a service names its operations. -/
theorem Stub.namesMembers_of_ofService (s : Service) (t : Stub) (h : ofService s = .ok t) :
    t.NamesMembers s := by
  simp only [ofService, Results.bind_eq_ok] at h
  rcases h with ⟨u, hdistinct, methods, hmethods, ht⟩
  rcases Except.ok.inj ht with rfl
  have hpairs : methods.map (fun m => (m.name, m.operation))
      = s.operations.map fun o => (StubMethod.nameOf o, o) := by
    refine Results.map_of_mapM_eq_ok _ _ _ _ (fun o m hm => ?_) methods hmethods
    rcases StubMethod.names_of_ofOperation o m hm with ⟨hname, hoperation, _⟩
    rw [hname, hoperation]
  refine ⟨?_, fun m hm => ?_⟩
  · rw [hpairs]
    have hspelled : (s.operations.map fun o => (StubMethod.nameOf o, o)).map (·.1)
        = s.operations.map StubMethod.nameOf := by
      rw [List.map_map, Function.comp_def]
    exact namesApart_of_requireDistinct _ StubMethod.nameOf
      (fun o => isIdentifier_identifier _ (Spelling.isSpelled_snakeCase o.name)) _ .native s.name u
      (hspelled ▸ hdistinct)
  · rcases Results.exists_of_mem_of_mapM_eq_ok _ _ methods hmethods m hm with ⟨o, _, hm⟩
    rcases StubMethod.names_of_ofOperation o m hm with ⟨_, rfl, hparameters⟩
    exact hparameters

/-- The structure or enumeration of a data type names its fields or members. -/
theorem DataBody.namesMembers_of_ofDataType (c : Contract) (d : DataType) (i : DataItem)
    (h : DataItem.ofDataType c d = .ok i) : i.body.NamesMembers c d := by
  unfold DataItem.ofDataType at h
  split at h
  · rename_i members hshape
    rcases Results.map_eq_ok.mp h with ⟨u, hdistinct, rfl⟩
    exact ⟨members, hshape, namesApart_of_requireDistinct _
      (fun m => identifier (Spelling.pascalCase m))
      (fun m => isIdentifier_identifier _ (Spelling.isSpelled_pascalCase m)) _ _ _ u hdistinct⟩
  · rename_i own base hshape
    rcases Results.map_eq_ok.mp h with ⟨u, hdistinct, rfl⟩
    exact ⟨⟨own, base, hshape⟩, namesApart_of_requireDistinct _
      (fun f : Field => identifier (Spelling.snakeCase f.name))
      (fun f => isIdentifier_identifier _ (Spelling.isSpelled_snakeCase f.name)) _ _ _ u hdistinct⟩

/-- Blank lines between the methods take none of their lines away. -/
theorem Stub.mem_spaced {parts : List (List String)} {lines : List String} (h : lines ∈ parts)
    {line : String} (hline : line ∈ lines) : line ∈ spaced parts := by
  induction parts with
  | nil => cases h
  | cons first rest ih =>
      cases rest with
      | nil =>
          rcases List.mem_singleton.mp h with rfl
          exact hline
      | cons next others =>
          change line ∈ first ++ "" :: spaced (next :: others)
          rcases List.mem_cons.mp h with rfl | h
          · exact List.mem_append_left _ hline
          · exact List.mem_append_right _ (List.mem_cons_of_mem _ (ih h))

/-- The declaration tells whether the answer comes later behind the parameters. -/
theorem StubMethod.exists_result (m : StubMethod) : ∃ result,
    "    fn " ++ m.name ++ "(&self"
      ++ String.join (m.parameters.map fun (name, q) => ", " ++ name ++ ": " ++ q.type.inNative)
      ++ ") -> " ++ result ∈ m.declaration := by
  rw [declaration]
  split
  · refine ⟨"impl Future<Output = Result<" ++ m.valueType ++ ", InvocationError>> + Send;", ?_⟩
    refine List.mem_cons_of_mem _ (List.mem_singleton.mpr ?_)
    rw [← String.toList_inj]
    simp
  · refine ⟨"Result<" ++ m.valueType ++ ", InvocationError>;", ?_⟩
    refine List.mem_cons_of_mem _ (List.mem_singleton.mpr ?_)
    rw [← String.toList_inj]
    simp

/-- The file of a service declares all methods of its trait. -/
theorem Stub.declaresMembers_lines (t : Stub) : t.DeclaresMembers t.lines := by
  intro m hm
  rcases m.exists_result with ⟨result, hline⟩
  have hmethods := mem_spaced (List.mem_map_of_mem (f := StubMethod.declaration) hm) hline
  exact ⟨result, by simp only [lines, List.mem_append, hmethods, true_or, or_true]⟩

/-- The module of the data types declares all fields or variants of each of them. -/
theorem DataBody.declaresMembers_dataLines (items : List DataItem) (i : DataItem) (hi : i ∈ items) :
    i.body.DeclaresMembers (dataLines items) := by
  have hmem : ∀ line ∈ i.lines, line ∈ dataLines items := fun line hline =>
    List.mem_append_right _ (List.mem_flatMap.mpr ⟨i, hi, hline⟩)
  rw [DataItem.lines] at hmem
  cases hbody : i.body with
  | fields named =>
      intro e he
      refine hmem _ ?_
      simp only [hbody, List.mem_append, List.mem_flatMap]
      exact Or.inl (Or.inr ⟨e, he, by simp⟩)
  | variants named =>
      intro e he
      refine hmem _ ?_
      simp only [hbody, List.mem_append, List.mem_flatMap]
      exact Or.inl (Or.inr ⟨e, he, by simp⟩)

end Native

namespace Contract

/-- Every file of a service or data type is written from the layout of that service or data type. It
    declares the members and parameters by the names that the layout gives them, and these are legal
    on its side and distinct in their scope, whatever the contract calls them. -/
theorem memberNames_of_files (c : Contract) (header : String) :
    (∀ s f, dartService header s = .ok f → ∃ p, Dart.Proxy.ofService s = .ok p
      ∧ f.text = fileText header p.lines ∧ p.DeclaresMembers p.lines ∧ p.NamesMembers s)
    ∧ (∀ d f, c.dartData header d = .ok f → ∃ k, Dart.DataClass.ofDataType c d = .ok k
      ∧ f.text = fileText header k.lines ∧ k.body.DeclaresMembers k.lines
      ∧ k.body.NamesMembers c d)
    ∧ (∀ s f, nativeService header s = .ok f → ∃ t, Native.Stub.ofService s = .ok t
      ∧ f.text = fileText header t.lines ∧ t.DeclaresMembers t.lines ∧ t.NamesMembers s)
    ∧ ∀ lines, Native.dataModule c = .ok lines → ∃ items,
      c.dataTypes.mapM (Native.DataItem.ofDataType c) = .ok items
      ∧ lines = Native.dataLines items ∧ (∀ i ∈ items, i.body.DeclaresMembers lines)
      ∧ List.Forall₂ (fun d i => i.body.NamesMembers c d) c.dataTypes items := by
  refine ⟨fun s f h => ?_, fun d f h => ?_, fun s f h => ?_, fun lines h => ?_⟩
  · rcases (dartService_eq_ok header s f).mp h with ⟨p, hp, rfl⟩
    exact ⟨p, hp, rfl, p.declaresMembers_lines, Dart.Proxy.namesMembers_of_ofService s p hp⟩
  · rcases (c.dartData_eq_ok header d f).mp h with ⟨k, hk, rfl⟩
    exact ⟨k, hk, rfl, Dart.DataBody.declaresMembers_lines k,
      Dart.DataBody.namesMembers_of_ofDataType c d k hk⟩
  · rcases (nativeService_eq_ok header s f).mp h with ⟨t, ht, rfl⟩
    exact ⟨t, ht, rfl, t.declaresMembers_lines, Native.Stub.namesMembers_of_ofService s t ht⟩
  · rcases (Native.dataModule_eq_ok c lines).mp h with ⟨items, hitems, rfl⟩
    exact ⟨items, hitems, rfl, Native.DataBody.declaresMembers_dataLines items,
      ((Results.mapM_eq_ok _ _ items).mp hitems).imp fun d i =>
        Native.DataBody.namesMembers_of_ofDataType c d i⟩

/-- A service most of whose names cannot stay as they are on one side or the other. -/
def kiosk : Service where
  name := "Acme.Kiosk"
  operations := [
    ⟨"ToString", "Acme.Kiosk.ToString", [⟨"Result", .primitive .string, default⟩,
      ⟨"Args", .primitive .string, default⟩], .fireAndForget, false, "ToString", "ToString()"⟩,
    ⟨"Move", "Acme.Kiosk.Move", [⟨"self", .primitive .string, default⟩], .fireAndForget, false,
      "Move", "Move()"⟩,
    ⟨"2nd class", "Acme.Kiosk.2nd class", [], .fireAndForget, false, "2nd class", "2nd class()"⟩]
  events := [⟨"Moved", "Acme.Kiosk.Moved", none⟩]
  dataTypes := .ofList []

/-- A contract with such data types too. -/
def kioskContract : Contract where
  assembly := "Acme"
  services := [kiosk]
  dataTypes := [
    ⟨"Acme.Ticket", .composite [⟨"ToJson", .primitive .string⟩, ⟨"type", .primitive .string⟩] none⟩,
    ⟨"Acme.Kind", .enumeration ["Self", "Index"]⟩]

/-- All of them have names on both sides. -/
theorem memberNames_of_kiosk : ∃ p t items,
    (∃ f, dartService "" kiosk = .ok f ∧ f.text = fileText "" (Dart.Proxy.lines p))
    ∧ Dart.Proxy.ofService kiosk = .ok p ∧ p.DeclaresMembers p.lines ∧ p.NamesMembers kiosk
    ∧ (∃ f, nativeService "" kiosk = .ok f ∧ f.text = fileText "" (Native.Stub.lines t))
    ∧ Native.Stub.ofService kiosk = .ok t ∧ t.DeclaresMembers t.lines ∧ t.NamesMembers kiosk
    ∧ (∀ d ∈ kioskContract.dataTypes, ∃ k f, kioskContract.dartData "" d = .ok f
      ∧ f.text = fileText "" (Dart.DataClass.lines k) ∧ k.body.DeclaresMembers k.lines
      ∧ k.body.NamesMembers kioskContract d)
    ∧ Native.dataModule kioskContract = .ok (Native.dataLines items)
    ∧ (∀ i ∈ items, i.body.DeclaresMembers (Native.dataLines items))
    ∧ List.Forall₂ (fun d i => i.body.NamesMembers kioskContract d) kioskContract.dataTypes
      items := by
  rcases memberNames_of_files kioskContract "" with ⟨hproxy, hclass, hstub, hmodule⟩
  rcases Results.exists_eq_ok_of_isOk (x := dartService "" kiosk) (by decide) with ⟨f, hf⟩
  rcases Results.exists_eq_ok_of_isOk (x := nativeService "" kiosk) (by decide) with ⟨g, hg⟩
  rcases Results.exists_eq_ok_of_isOk (x := Native.dataModule kioskContract) (by decide) with
    ⟨lines, hlines⟩
  -- All names of the contract can be spelled on either side.
  have hdata : ∀ d ∈ kioskContract.dataTypes, (kioskContract.dartData "" d).isOk = true := by decide
  rcases hproxy kiosk f hf with ⟨p, hp, hptext, hpnames⟩
  rcases hstub kiosk g hg with ⟨t, ht, httext, htnames⟩
  rcases hmodule lines hlines with ⟨items, _, rfl, hdeclares, hitems⟩
  refine ⟨p, t, items, ⟨f, hf, hptext⟩, hp, hpnames.1, hpnames.2, ⟨g, hg, httext⟩, ht, htnames.1,
    htnames.2, fun d hd => ?_, hlines, hdeclares, hitems⟩
  rcases Results.exists_eq_ok_of_isOk (hdata d hd) with ⟨f, hf⟩
  rcases hclass d f hf with ⟨k, _, hk, hknames⟩
  exact ⟨k, f, hf, hk, hknames⟩

end Contract

end PlatformBridge
