import PlatformBridge.Native.Stub
import PlatformBridge.Proofs.Dispatch.Admission
import PlatformBridge.Proofs.Wire.Success
import PlatformBridge.Wire.Argument

/-!
# Arguments That Are Read

A value goes through two readers on its way into native code. The first checks
it against the type of the contract, and the second reads it at the native type
that the stub spells out for it. The two know nothing of each other: the first
looks through all absences before it looks at the value, the second goes down
the native type layer by layer. They agree as far as they have to: whatever the
check lets through is read, at every type that is built without data types.

The native type of a contract type is only written down, as a text in the stub.
No two native types share a text, so the text names the type at which the
argument is read. `spelling_injective` is therefore part of the result: without
it a stub could be read in two ways, and the theorem would hold of one of them.

Data types are left out because the native type of one is generated with it,
and reading at it is the business of code that is not written here. All other
types have native types that are fixed, and how values are read at these is
known. Integers are the ones to look at, since a range may be narrower on one
side than on the other. They are the same on both.

## Main definitions

* `NativeType.spelling`: The text of a native type.
* `NativeType.Reads`: A value that can be read at a native type.

## Theorems

* `NativeType.spelling_injective`: A text names one native type.
* `NativeType.Reads.option`, `NativeType.Reads.list`, `NativeType.Reads.map`:
  Reading by parts.
* `NativeType.Reads.exists_readArgument`: Reading one of some arguments.
* `Primitive.range?_native`: The integers of a type on both sides.
* `BridgeType.exists_native?`, `BridgeType.exists_native?_present`: What the
  stub spells out for a type without data types.
* `Primitive.Denotes.reads`, `Contract.reads_of_decode`: What is let through can
  be read.
* `Native.StubMethod.mem_binding`: Where the stub reads an argument.
* `Contract.argument_reads_of_check`: The arguments of a call that is let
  through can be read.
-/

namespace PlatformBridge

open Results

namespace NativeType

/-- The text of a type with another one in it. -/
def generic (opening inner : String) : String := opening ++ inner ++ ">"

/-- The text of a native type. -/
def spelling : NativeType → String
  | bool => "bool"
  | unsigned bits => "u" ++ Nat.repr bits
  | signed bits => "i" ++ Nat.repr bits
  | single => "f32"
  | double => "f64"
  | char => "char"
  | string => "String"
  | .value => "Value"
  | unit => "()"
  | list element => generic "Vec<" element.spelling
  | option inner => generic "Option<" inner.spelling
  | .map element => generic "BTreeMap<String, " element.spelling

-- Types with the same opening differ inside, and all others within their first three letters.
theorem spelling_injective (a b : NativeType) (h : a.spelling = b.spelling) : a = b := by
  induction a generalizing b with
  | list inner ih | option inner ih | map inner ih =>
      rw [← String.toList_inj] at h
      cases b <;> simp [spelling, generic] at h ⊢
      exact ih _ (String.toList_inj.mp h)
  | unsigned bits | signed bits =>
      rw [← String.toList_inj] at h
      cases b <;> simp [spelling, generic] at h ⊢
      simpa using congrArg (fun digits => Nat.ofDigitChars 10 digits 0) h
  | _ =>
      rw [← String.toList_inj] at h
      cases b <;> simp [spelling, generic] at h ⊢

/-- A value can be read at a native type. -/
def Reads (type : NativeType) (v : Json) : Prop := ∃ w, type.read v = .ok w

theorem exists_readItems (read : Json → Except ReadError Json) (items : List Json)
    (h : ∀ v ∈ items, ∃ w, read v = .ok w) : ∃ ws, readItems read items = .ok ws := by
  induction items with
  | nil => exact ⟨[], rfl⟩
  | cons v rest ih =>
      rcases h v List.mem_cons_self with ⟨w, hw⟩
      rcases ih fun u hu => h u (List.mem_cons_of_mem v hu) with ⟨ws, hws⟩
      refine ⟨w :: ws, ?_⟩
      rw [readItems, hw, hws]
      rfl

theorem exists_readMembers (read : Json → Except ReadError Json) (members : List (String × Json))
    (h : ∀ m ∈ members, ∃ w, read m.2 = .ok w) : ∃ ws, readMembers read members = .ok ws := by
  induction members with
  | nil => exact ⟨[], rfl⟩
  | cons m rest ih =>
      rcases h m List.mem_cons_self with ⟨w, hw⟩
      rcases ih fun u hu => h u (List.mem_cons_of_mem m hu) with ⟨ws, hws⟩
      refine ⟨(m.1, w) :: ws, ?_⟩
      rw [readMembers, hw, hws]
      rfl

namespace Reads

variable {type : NativeType}

-- Whatever can be read can also be read where it may be absent.
theorem option {v : Json} (h : type.Reads v) : (option type).Reads v := by
  cases v with
  | null => exact ⟨.null, rfl⟩
  | _ => exact h

theorem list {items : List Json} (h : ∀ v ∈ items, type.Reads v) :
    (list type).Reads (.array items) := by
  rcases exists_readItems type.read items h with ⟨ws, hws⟩
  refine ⟨.array ws, ?_⟩
  rw [read, hws]
  rfl

theorem map {members : List (String × Json)} (h : ∀ m ∈ members, type.Reads m.2) :
    (map type).Reads (.object members) := by
  rcases exists_readMembers type.read members h with ⟨ws, hws⟩
  refine ⟨.object ws, ?_⟩
  rw [read, hws]
  rfl

-- An argument is read if it is there and can be read.
theorem exists_readArgument {v : Json} (h : type.Reads v) (arguments : List Json) (index : Nat)
    (hat : arguments[index]? = some v) : ∃ w, readArgument type arguments index = .ok w := by
  rcases h with ⟨w, hw⟩
  refine ⟨w, ?_⟩
  simp only [readArgument, hat, hw]
  rfl

end Reads

end NativeType

namespace Primitive

-- An integer type of the contract and its native type hold the same integers.
theorem range?_native (p : Primitive) (least greatest : Int)
    (h : p.integerRange? = some (least, greatest)) :
    p.native.range? = some (least, greatest + 1) := by
  cases p <;> cases h <;> rfl

/-- What a primitive lets through can be read at its native type. -/
theorem Denotes.reads {p : Primitive} {v : Json} {d : Data} (h : p.Denotes v d) :
    p.native.Reads v := by
  cases h with
  | bool b => exact ⟨.bool b, rfl⟩
  | string s => exact ⟨.string s, rfl⟩
  | char k => exact ⟨.string (String.ofList [k]), by simp [native, NativeType.read]⟩
  -- A number is read at either width, whichever way it is written.
  | float _ n h =>
      rcases eq_f32_or_f64_of_holdsFloat p _ h with rfl | rfl
      · cases n <;> exact ⟨_, rfl⟩
      · exact ⟨_, rfl⟩
  | integer _ i h =>
      refine ⟨.number (.integer i), ?_⟩
      unfold holdsInteger at h
      split at h
      · rename_i least greatest hrange
        simp only [Bool.and_eq_true, decide_eq_true_eq] at h
        have hnative := p.range?_native least greatest hrange
        have hfits : least ≤ i ∧ i < greatest + 1 := by omega
        cases p with
        | u8 | i8 | i16 | i32 | i64 =>
            simp only [native] at hnative
            simp [native, NativeType.read, hnative, hfits]
        | _ => cases hrange
      · cases h

end Primitive

namespace BridgeType

/-- A type without data types has a native type, and the stub spells it out. -/
theorem exists_native? (type : BridgeType) (h : type.named? = none) :
    ∃ T, type.native? = some T ∧ T.spelling = type.inNative := by
  induction type with
  | primitive p => exact ⟨p.native, rfl, by cases p <;> rfl⟩
  | nullable inner ih =>
      rcases ih h with ⟨T, hT, hspelled⟩
      refine ⟨.option T, by rw [native?, hT]; rfl, ?_⟩
      rw [NativeType.spelling, hspelled]
      rfl
  | list element ih =>
      rcases ih h with ⟨T, hT, hspelled⟩
      refine ⟨.list T, by rw [native?, hT]; rfl, ?_⟩
      rw [NativeType.spelling, hspelled]
      rfl
  | map value ih =>
      rcases ih h with ⟨T, hT, hspelled⟩
      refine ⟨.map T, by rw [native?, hT]; rfl, ?_⟩
      rw [NativeType.spelling, hspelled]
      rfl
  | data name | enum name => cases h

-- The check looks at a value behind all absences, and reading gets there through each of them.
theorem exists_native?_present (type : BridgeType) (T : NativeType) (h : type.native? = some T) :
    ∃ P, type.present.native? = some P ∧ ∀ v, P.Reads v → T.Reads v := by
  induction type generalizing T with
  | nullable inner ih =>
      rcases Option.map_eq_some_iff.mp h with ⟨U, hU, rfl⟩
      rcases ih U hU with ⟨P, hP, hreads⟩
      exact ⟨P, hP, fun v hv => (hreads v hv).option⟩
  | _ => exact ⟨T, h, fun _ hv => hv⟩

end BridgeType

namespace Contract

/-- What passes the check at a type can be read at its native type. -/
theorem reads_of_decode (c : Contract) (v : Json) (type : BridgeType) (T : NativeType)
    (hT : type.native? = some T) (place : Location) (d : Data)
    (h : c.decode v type place = .ok d) : T.Reads v := by
  -- By the parts of what was sent and not by the type, since absence takes away a layer of the type
  -- only.
  induction v using Json.byParts generalizing type T place d with
  | null =>
      rcases (c.decode_null_eq_ok_iff type place d).mp h with ⟨hnull, _⟩
      cases type with
      | nullable inner =>
          rcases Option.map_eq_some_iff.mp hT with ⟨U, _, rfl⟩
          exact ⟨.null, rfl⟩
      | _ => cases hnull
  | simple v hv =>
      rcases type.exists_native?_present T hT with ⟨P, hP, hreads⟩
      have hleaf := (c.decode_simple_eq_ok_iff v hv type place d).mp h
      generalize type.present = leaf at hP hleaf
      cases hleaf with
      | primitive p _ _ hdenotes =>
          cases hP
          exact hreads v hdenotes.reads
      | enum => cases hP
  | array items ih =>
      rcases type.exists_native?_present T hT with ⟨P, hP, hreads⟩
      rcases (c.decode_array_eq_ok_iff items type place d).mp h with
        ⟨element, hpresent, ds, hds, _⟩
      rw [hpresent] at hP
      rcases Option.map_eq_some_iff.mp hP with ⟨U, hU, rfl⟩
      rcases exists_of_convertItems_eq_ok c.decode element items
        (fun v _ => c.decode_placeFree v) place 0 ds hds with ⟨G, _, hG⟩
      exact hreads _ (.list fun v hv => ih v hv element U hU place (G v) (hG v hv place))
  | object members ih =>
      rcases type.exists_native?_present T hT with ⟨P, hP, hreads⟩
      rcases (c.decode_object_eq_ok_iff members type place d).mp h with
        ⟨value, hpresent, out, hout, _⟩ | ⟨name, hpresent, _⟩
      · rw [hpresent] at hP
        rcases Option.map_eq_some_iff.mp hP with ⟨U, hU, rfl⟩
        rcases exists_of_convertEntries_eq_ok (fun m => c.decode m.2) (fun m => m.1) value members
          (fun m _ => c.decode_placeFree m.2) place out hout with ⟨G, _, hG⟩
        exact hreads _ (.map fun m hm => ih m hm value U hU place (G m) (hG m hm place))
      · -- Records are of a data type, which has no native type.
        rw [hpresent] at hP
        cases hP

end Contract

namespace Native

namespace StubMethod

/-- There is a line for each parameter, and it reads the argument with the number of the parameter.
    -/
theorem mem_argumentLines (start arguments : String) (parameters : List (String × Parameter))
    (first index : Nat) (name : String) (p : Parameter)
    (hat : parameters[index]? = some (name, p)) :
    start ++ "let " ++ name ++ ": " ++ p.type.inNative ++ " = argument(" ++ arguments ++ ", "
        ++ toString (first + index) ++ ")?;"
      ∈ argumentLines start arguments first parameters := by
  induction parameters generalizing first index with
  | nil => cases hat
  | cons e rest ih =>
      cases index with
      | zero =>
          cases hat
          exact List.mem_cons_self
      | succ i =>
          rw [show first + (i + 1) = first + 1 + i by omega]
          exact List.mem_cons_of_mem _ (ih (first + 1) i hat)

/-- The stub reads the argument of each parameter at what it spells out for the type. -/
theorem mem_binding (m : StubMethod) (index : Nat) (name : String) (p : Parameter)
    (hat : m.parameters[index]? = some (name, p)) :
    ∃ start arguments, start ++ "let " ++ name ++ ": " ++ p.type.inNative ++ " = argument("
        ++ arguments ++ ", " ++ toString index ++ ")?;" ∈ m.binding := by
  by_cases hasync : m.operation.returns.isAsync = true
  · have hline := mem_argumentLines "                    " "&args" m.parameters 0 index name p hat
    rw [Nat.zero_add] at hline
    refine ⟨"                    ", "&args", ?_⟩
    simp only [binding, hasync, if_true, List.mem_append]
    exact .inl (.inr (.inl (.inr hline)))
  · have hline := mem_argumentLines "                " "args" m.parameters 0 index name p hat
    rw [Nat.zero_add] at hline
    refine ⟨"                ", "args", ?_⟩
    simp only [binding, hasync, Bool.false_eq_true, if_false, List.mem_append]
    exact .inl (.inr (.inl (.inr hline)))

-- The parameters of a method are those of its operation.
theorem parameters_of_ofOperation (o : Operation) (m : StubMethod)
    (h : ofOperation o = .ok m) : m.parameters.map (·.2) = o.parameters := by
  rcases map_eq_ok.mp h with ⟨_, _, rfl⟩
  simp only [List.map_map, Function.comp_def, List.map_id']

end StubMethod

end Native

namespace Contract

/-- A type without data types names one native type. Every value that passes the check can be read
    at it as an argument. So the stub of an operation, which reads its arguments at the types that
    it spells out, can read those of every call that is admitted. -/
theorem argument_reads_of_check (c : Contract) (type : BridgeType) (h : type.named? = none) :
    ∃ T : NativeType, (∀ T' : NativeType, T'.spelling = type.inNative ↔ T' = T)
      ∧ (∀ v, c.check v type = .ok () → ∀ arguments index, arguments[index]? = some v →
          ∃ w, readArgument T arguments index = .ok w)
      ∧ ∀ (d : Dispatcher) (call : Call) (a : Dispatcher.Admission) (m : Native.StubMethod),
          d.contract = c → d.admission call = .ok a →
          Native.StubMethod.ofOperation a.operation = .ok m →
          ∀ index name p, m.parameters[index]? = some (name, p) → p.type = type →
            (∃ start arguments, start ++ "let " ++ name ++ ": " ++ T.spelling ++ " = argument("
                ++ arguments ++ ", " ++ toString index ++ ")?;" ∈ m.binding)
              ∧ ∃ w, readArgument T call.arguments index = .ok w := by
  rcases type.exists_native? h with ⟨T, hT, hspelled⟩
  have hreads : ∀ v, c.check v type = .ok () → ∀ arguments index, arguments[index]? = some v →
      ∃ w, readArgument T arguments index = .ok w := by
    intro v hcheck arguments index hat
    rcases map_eq_ok.mp hcheck with ⟨d, hd, _⟩
    exact (c.reads_of_decode v type T hT .root d hd).exists_readArgument arguments index hat
  refine ⟨T, fun T' => ?_, hreads, ?_⟩
  · rw [← hspelled]
    exact ⟨fun hT' => T'.spelling_injective T hT', fun hT' => by rw [hT']⟩
  · rintro d call a m rfl hadmitted hm index name p hat rfl
    refine ⟨by rw [hspelled]; exact m.mem_binding index name p hat, ?_⟩
    -- There is an argument for the parameter, and it passed the check at the type.
    rcases d.of_admission_eq_ok call a hadmitted with ⟨_, htakes, _⟩
    have hparameter : a.operation.parameters[index]? = some p := by
      rw [← Native.StubMethod.parameters_of_ofOperation _ _ hm, List.getElem?_map, hat]
      rfl
    have hlength : index < call.arguments.length := by
      rw [htakes.length]
      exact (List.getElem?_eq_some_iff.mp hparameter).1
    have hargument := List.getElem?_eq_getElem hlength
    refine hreads _ (htakes.types (p, call.arguments[index]) ?_) call.arguments index hargument
    refine List.mem_of_getElem? (i := index) ?_
    rw [List.getElem?_zip_eq_some]
    exact ⟨hparameter, hargument⟩

/-- The type of lists of named counts. A list, and each of the counts, may be absent. -/
def tallies : BridgeType := .nullable (.list (.map (.nullable (.primitive .i64))))

/-- A list with the greatest count, and one that is absent. -/
def tallyDocument : Json :=
  .array [.object [("first", .number (.integer 9223372036854775807)), ("second", .null)]]

/-- The stub spells out a type with four layers, and both values of the list are read at it. -/
theorem argument_reads_of_tallies :
    tallies.named? = none ∧ (⟨"Acme", [], []⟩ : Contract).check tallyDocument tallies = .ok ()
      ∧ ∃ T : NativeType, T.spelling = "Option<Vec<BTreeMap<String, Option<i64>>>>"
        ∧ ∃ w, readArgument T [tallyDocument] 0 = .ok w := by
  have hcheck : (⟨"Acme", [], []⟩ : Contract).check tallyDocument tallies = .ok () := rfl
  rcases argument_reads_of_check ⟨"Acme", [], []⟩ tallies rfl with ⟨T, hnames, hreads, _⟩
  exact ⟨rfl, hcheck, T, (hnames T).mpr rfl, hreads tallyDocument hcheck _ 0 rfl⟩

end Contract

end PlatformBridge
