import PlatformBridge.Proofs.Dart.Literals

/-!
# Directives of Dart Files

What the file of a data type imports and what the library exports, read off
the text of the file. A directive is a literal after a keyword. The other
literals of these files are keys, members and messages; they come after
brackets or commas, so whatever is in a wire name, none of them is read as a
directive.

The reader asks for literals behind a mark, and blanks do not count, so the
code in front of every single literal has to be looked at. For most of them it
is on the same line. The keys of a wire form are the exception: the first one
comes after a brace at the end of the line before, and all others after the
comma of the one before. `passes_entries` is an induction over the entries
with the character in front of them as a parameter.

A class of a composite and one of an enumeration have little in common but
their names and the comment above them, and are dealt with one after the
other. `reads_dataClass` puts them together. What it says of a file is what
its declaration lists as imported, and the modules on links take it from
there.

## Main definitions

* `Dart.DataClass.IsPlain`: A class whose names are plain.
* `Dart.DataClass.imported`: What the file of a data type imports.
* `Dart.exportMark`: The code in front of a path that the library exports.

## Theorems

* `Dart.passes_entries`, `Dart.passesLine_memberLines`,
  `Dart.passesLine_lookup`: Literals that are no directives.
* `Dart.DataClass.of_ofDataType`: What a class has of its data type.
* `Dart.passesLine_enumLines`: The file of an enumeration.
* `Dart.passes_encoder`, `Dart.reads_classLines`: The file of a composite.
* `Dart.reads_dataClass`: The imports of a data type.
* `Dart.reads_barrel`: The exports of the library.
-/

namespace PlatformBridge

open Text LiteralRules

namespace Dart

section DataTypes

/-- A class or enumeration whose names are plain. -/
structure DataClass.IsPlain (d : DataClass) : Prop where
  name : All isPlain d.name
  fields : ∀ named, d.body = .fields named → ∀ e ∈ named, All isPlain e.1
  members : ∀ named, d.body = .members named → ∀ e ∈ named, All isPlain e.1

/-- The data types that the file of a data type imports. -/
def DataClass.imported (d : DataClass) : List String :=
  match d.body with
  | .members _ => []
  | .fields named => importPaths (d.imports named)

-- The line of a field in the wire form of a class, up to its comma.
theorem toList_entryLine (name : String) (f : Field) :
    ("        " ++ literal f.name ++ ": " ++ f.type.dartEncode name 0 ++ ",").toList
      = "        ".toList ++ literalRules.quote
        :: (f.name.toList.flatMap escape ++ [literalRules.quote])
        ++ (": " ++ f.type.dartEncode name 0).toList ++ [','] := by
  simp [literal, literalRules]

/-- The keys of the wire form of a class are no imports: they come after a brace or a comma. -/
theorem passes_entries (named : List (String × Field)) (h : ∀ e ∈ named, All isPlain e.1)
    (start : Char) (hstart : start = '\x7b' ∨ start = ',') :
    literalRules.Passes importMark (start :: '\n' :: inLines (named.map fun (name, f) =>
      "        " ++ literal f.name ++ ": " ++ f.type.dartEncode name 0 ++ ",")) := by
  have hcode : (start :: '\n' :: "        ".toList).all literalRules.isCode = true := by
    rcases hstart with rfl | rfl <;> decide
  -- Code begins in front of the entries, with a brace or behind the comma of the entry before, so
  -- the induction is over the entries with the character in front left open.
  induction named generalizing start with
  | nil => exact passes_code fun c hc => List.all_eq_true.mp hcode c (by
      rcases List.mem_pair.mp hc with rfl | rfl <;> simp)
  | cons e rest ih =>
      rw [List.forall_mem_cons] at h
      have hopen : literalRules.Opens importMark false (start :: '\n' :: "        ".toList) := by
        refine opens_code hcode fun before => ?_
        rcases hstart with rfl | rfl
        · exact not_isSuffixOf_append before _ (by decide) (by decide)
        · exact not_isSuffixOf_append before _ (by decide) (by decide)
      have hencode : literalRules.Passes importMark
          (": " ++ e.2.type.dartEncode e.1 0).toList :=
        passes_code (holdsPlain_isCode.all (all_append.mpr ⟨all_fixed rfl,
          e.2.type.isPlain_dartEncode e.1 0 h.1⟩))
      have hrest := ih h.2 ',' (Or.inr rfl) (by decide)
      have hall := ((passes_literal hopen (closes_escape e.2.name.toList)).append hencode).append
        hrest
      rw [List.map_cons, inLines_cons, toList_entryLine]
      simpa only [List.append_assoc, List.cons_append, List.nil_append] using hall

/-- The lines of the members of an enumeration differ in how they end. -/
theorem passesLine_memberLines (named : List (String × String)) (h : ∀ e ∈ named, All isPlain e.1) :
    ∀ line ∈ DataClass.memberLines named, literalRules.PassesLine importMark line := by
  have hmember : ∀ e : String × String, All isPlain e.1 → ∀ closing : String, All isPlain closing →
      literalRules.PassesLine importMark ("  " ++ e.1 ++ "(" ++ literal e.2 ++ closing) := by
    intro e he closing hclosing
    refine passesLine_literal ("  " ++ e.1 ++ "(") e.2 closing ?_ hclosing
      (by simp only [String.append_assoc])
    rw [String.toList_append]
    exact (passes_code (holdsPlain_isCode.all (all_append.mpr ⟨all_fixed rfl, he⟩))).opens
      (opens_code (by decide) fun before => not_isSuffixOf_append before _ (by decide) (by decide))
  induction named with
  | nil => exact List.forall_mem_nil _
  | cons e rest ih =>
      rw [List.forall_mem_cons] at h
      cases rest with
      | nil => exact List.forall_mem_singleton.mpr (hmember e h.1 ");" (all_fixed rfl))
      | cons next others =>
          exact List.forall_mem_cons.mpr ⟨hmember e h.1 ")," (all_fixed rfl), ih h.2⟩

-- The message for a member that is not known has a literal with the name of the enumeration in it.
theorem passesLine_unknownMember (name : String) (h : All isPlain name) :
    literalRules.PassesLine importMark
      ("        orElse: () => throw FormatException('unknown " ++ name
        ++ " member: $value'),") := by
  have htext : ("        orElse: () => throw FormatException('unknown " ++ name
      ++ " member: $value'),").toList ++ ['\n']
      = ("        orElse: () => throw FormatException(".toList ++ literalRules.quote
        :: (("unknown " ++ name ++ " member: $value").toList ++ [literalRules.quote]))
        ++ "),\n".toList := by
    simp [literalRules]
  -- Neither a quote nor a backslash is in the message, so the literal ends where it is meant to.
  have hclose : literalRules.Closes importMark
      ("unknown " ++ name ++ " member: $value").toList := by
    have hname : All (fun c => c != '\'' && c != '\\') name := h.imp fun c hc => by
      simp [ne_of_isPlain hc (d := '\'') (by decide), ne_of_isPlain hc (d := '\\') (by decide)]
    have hall : All (fun c => c != '\'' && c != '\\') ("unknown " ++ name ++ " member: $value") :=
      all_append.mpr ⟨all_append.mpr ⟨all_fixed rfl, hname⟩, all_fixed rfl⟩
    refine closes_of_forall fun c hc => ?_
    have hchar := hall c hc
    rw [Bool.and_eq_true, bne_iff_ne, bne_iff_ne] at hchar
    exact hchar
  rw [PassesLine, htext]
  exact (passes_literal (opens_code (by decide) fun before =>
    not_isSuffixOf_append before _ (by decide) (by decide)) hclose).append
      (passes_fixed (by decide))

/-- The class of a data type has the fields of the data type, inherited ones included. -/
theorem DataClass.of_ofDataType (c : Contract) (d : DataType) (k : DataClass)
    (h : ofDataType c d = .ok k) : k.IsPlain ∧ k.typeName = d.name
      ∧ match k.body with
        | .members _ => ∃ members, d.shape = .enumeration members
        | .fields named => (∃ fields base, d.shape = .composite fields base)
          ∧ named.map (·.2) = c.fieldsWithInherited d.name := by
  -- The layout is made in two ways, for enumerations and for composites.
  unfold ofDataType at h
  split at h
  · rename_i members hshape
    rcases Results.map_eq_ok.mp h with ⟨_, _, hk⟩
    rw [← hk]
    dsimp only
    refine ⟨⟨?_, fun named hnamed => (nomatch hnamed), fun named hnamed e he => ?_⟩, rfl, members,
      hshape⟩
    · dsimp only
      exact isPlain_typeIdentifier d.name
    · rw [← DataBody.members.inj hnamed] at he
      rcases List.mem_map.mp he with ⟨m, _, hm⟩
      rw [← hm]
      dsimp only
      exact isPlain_identifier _ m
  · rename_i fields base hshape
    rcases Results.map_eq_ok.mp h with ⟨_, _, hk⟩
    rw [← hk]
    dsimp only
    refine ⟨⟨?_, fun named hnamed e he => ?_, fun named hnamed => (nomatch hnamed)⟩, rfl,
      ⟨fields, base, hshape⟩, ?_⟩
    · dsimp only
      exact isPlain_typeIdentifier d.name
    · rw [← DataBody.fields.inj hnamed] at he
      rcases List.mem_map.mp he with ⟨f, _, hf⟩
      rw [← hf]
      dsimp only
      exact isPlain_identifier _ f.name
    · rw [List.map_map, Function.comp_def]
      exact List.map_id' _

-- Many lines have the name of the class between two fixed texts.
theorem DataClass.IsPlain.passesLine_named {d : DataClass} (h : d.IsPlain)
    {opening closing : String} (hopening : All isPlain opening) (hclosing : All isPlain closing) :
    literalRules.PassesLine importMark (opening ++ d.name ++ closing) :=
  passesLine_plain (all_append.mpr ⟨all_append.mpr ⟨hopening, h.name⟩, hclosing⟩)

/-- The file of an enumeration imports nothing. -/
theorem passesLine_enumLines (d : DataClass) (h : d.IsPlain)
    (hquoted : literalRules.IsQuotable d.typeName) (named : List (String × String))
    (hbody : d.body = .members named) :
    ∀ line ∈ d.enumLines named, literalRules.PassesLine importMark line := by
  have hblank : literalRules.PassesLine importMark "" := passesLine_fixed rfl
  have hread : literalRules.PassesLine importMark ("  static " ++ d.name
      ++ " fromWire(Object? value) => " ++ d.name ++ ".values.firstWhere(") := by
    refine passesLine_plain ?_
    simp only [all_append]
    exact ⟨⟨⟨⟨all_fixed rfl, h.name⟩, all_fixed rfl⟩, h.name⟩, all_fixed rfl⟩
  rw [DataClass.enumLines, List.forall_mem_append, List.forall_mem_append]
  refine ⟨⟨?_, passesLine_memberLines named (h.members named hbody)⟩, ?_⟩
  · simp only [List.forall_mem_cons]
    exact ⟨hblank, passesLine_doc "" "/ Wire enumeration `" hquoted,
      h.passesLine_named (all_fixed rfl) (all_fixed rfl), List.forall_mem_nil _⟩
  · simp only [List.forall_mem_cons]
    exact ⟨hblank, h.passesLine_named (all_fixed rfl) (all_fixed rfl), hblank,
      passesLine_fixed rfl, hblank, hread, passesLine_fixed rfl,
      passesLine_unknownMember d.name h.name, passesLine_fixed rfl, passesLine_fixed rfl,
      List.forall_mem_nil _⟩

/-- What a class takes from the wire form is looked up by keys in brackets, which are no imports. -/
theorem passesLine_lookup (e : String × Field) (h : All isPlain e.1) :
    literalRules.PassesLine importMark ("      " ++ e.1 ++ ": "
      ++ e.2.type.dartDecode ("map[" ++ literal e.2.name ++ "]") 0 ++ ",") := by
  rcases e.2.type.surrounds_dartDecode 0 with ⟨opening, closing, hopening, hclosing, heq⟩
  dsimp only at heq
  rw [heq]
  refine passesLine_literal ("      " ++ e.1 ++ ": " ++ opening ++ "map[") e.2.name
    ("]" ++ closing ++ ",") ?_ ?_ (by simp only [String.append_assoc])
  · rw [String.toList_append]
    refine (passes_code (holdsPlain_isCode.all ?_)).opens
      (opens_code (by decide) fun before => not_isSuffixOf_append before _ (by decide) (by decide))
    simp only [all_append]
    exact ⟨⟨⟨all_fixed rfl, h⟩, all_fixed rfl⟩, hopening⟩
  · exact all_append.mpr ⟨all_append.mpr ⟨all_fixed rfl, hclosing⟩, all_fixed rfl⟩

theorem DataClass.IsPlain.passesLine_constructor {d : DataClass} (h : d.IsPlain)
    (named : List (String × Field)) (hnames : ∀ e ∈ named, All isPlain e.1) :
    literalRules.PassesLine importMark
      (if named.isEmpty then "  const " ++ d.name ++ "();"
      else "  const " ++ d.name ++ "(\x7b"
        ++ ", ".intercalate (named.map fun (name, f) => constructorParameter name f)
        ++ "\x7d);") := by
  split
  · exact h.passesLine_named (all_fixed rfl) (all_fixed rfl)
  · refine passesLine_plain ?_
    simp only [all_append]
    refine ⟨⟨⟨⟨all_fixed rfl, h.name⟩, all_fixed rfl⟩, all_intercalate (all_fixed rfl) ?_⟩,
      all_fixed rfl⟩
    refine List.forall_mem_map.mpr fun e he => ?_
    unfold constructorParameter
    split
    · exact all_append.mpr ⟨all_fixed rfl, hnames e he⟩
    · exact all_append.mpr ⟨all_fixed rfl, hnames e he⟩

theorem passesLine_fieldLine (e : String × Field) (h : All isPlain e.1) :
    literalRules.PassesLine importMark ("  final " ++ e.2.type.inDart ++ " " ++ e.1 ++ ";") := by
  refine passesLine_plain ?_
  simp only [all_append]
  exact ⟨⟨⟨⟨all_fixed rfl, e.2.type.isPlain_inDart⟩, all_fixed rfl⟩, h⟩, all_fixed rfl⟩

-- The brace at the end of the line in front of the keys belongs to the first key.
theorem passes_encoder (named : List (String × Field)) (h : ∀ e ∈ named, All isPlain e.1) :
    literalRules.Passes importMark (inLines ["", "  /// Encodes this value into its wire form.",
      "  Map<String, Object?> toJson() => <String, Object?>\x7b"]
      ++ inLines (named.map fun (name, f) =>
        "        " ++ literal f.name ++ ": " ++ f.type.dartEncode name 0 ++ ",")) := by
  have htext : inLines ["", "  /// Encodes this value into its wire form.",
        "  Map<String, Object?> toJson() => <String, Object?>\x7b"]
      ++ inLines (named.map fun (name, f) =>
        "        " ++ literal f.name ++ ": " ++ f.type.dartEncode name 0 ++ ",")
      = inLines ["", "  /// Encodes this value into its wire form."]
        ++ ("  Map<String, Object?> toJson() => <String, Object?>".toList
        ++ '\x7b' :: '\n' :: inLines (named.map fun (name, f) =>
          "        " ++ literal f.name ++ ": " ++ f.type.dartEncode name 0 ++ ",")) := by
    simp [inLines]
  rw [htext]
  refine (passes_inLines ?_).append ((passes_fixed (by decide)).append
    (passes_entries named h _ (Or.inl rfl)))
  exact List.forall_mem_cons.mpr ⟨passesLine_fixed rfl, List.forall_mem_singleton.mpr
    (passesLine_note "  " "/ Encodes this value into its wire form.")⟩

/-- The file of a composite imports the data types of its fields. -/
theorem reads_classLines (d : DataClass) (h : d.IsPlain)
    (hquoted : literalRules.IsQuotable d.typeName) (named : List (String × Field))
    (hbody : d.body = .fields named) :
    literalRules.Reads importMark IsOneLine (inLines (d.classLines named))
      ((importPaths (d.imports named)).map (·.toList)) := by
  have hnames := h.fields named hbody
  have hblank : literalRules.PassesLine importMark "" := passesLine_fixed rfl
  rw [DataClass.classLines]
  simp only [inLines_append, List.append_assoc]
  rw [← List.append_assoc, ← inLines_append, ← List.append_nil (List.map _ (importPaths _))]
  -- Behind the imports no line has a directive: the head of the class, its fields, the encoder, and
  -- the decoder.
  refine reads_imports proxyMark_importMark.imports _ _ _ (.passes (passes_inLines ?_)
    (.passes (passes_inLines ?_) ?_))
  · simp only [List.forall_mem_cons]
    exact ⟨hblank, passesLine_doc "" "/ Wire data type `" hquoted,
      h.passesLine_named (all_fixed rfl) (all_fixed rfl),
      h.passesLine_constructor named hnames, hblank, List.forall_mem_nil _⟩
  · exact List.forall_mem_map.mpr fun e he => passesLine_fieldLine e (hnames e he)
  · rw [← List.append_assoc]
    refine .passes (passes_encoder named hnames) (.passes (passes_inLines ?_)
      (.passes (passes_inLines ?_) (.of_passes (passes_inLines ?_))))
    · simp only [List.forall_mem_cons]
      exact ⟨passesLine_fixed rfl, hblank, passesLine_note "  " "/ Decodes a wire value.",
        h.passesLine_named (all_fixed rfl) (all_fixed rfl), passesLine_fixed rfl,
        h.passesLine_named (all_fixed rfl) (all_fixed rfl), List.forall_mem_nil _⟩
    · exact List.forall_mem_map.mpr fun e he => passesLine_lookup e (hnames e he)
    · simp only [List.forall_mem_cons]
      exact ⟨passesLine_fixed rfl, passesLine_fixed rfl, passesLine_fixed rfl,
        List.forall_mem_nil _⟩

/-- The file of a data type has its imports, and nothing else is read as one. -/
theorem reads_dataClass (d : DataClass) (h : d.IsPlain)
    (hquoted : literalRules.IsQuotable d.typeName) :
    literalRules.Reads importMark IsOneLine (inLines d.lines) (d.imported.map (·.toList)) := by
  rw [DataClass.lines, DataClass.imported]
  cases hbody : d.body with
  | members named =>
      exact .of_passes (passes_inLines (passesLine_enumLines d h hquoted named hbody))
  | fields named => exact reads_classLines d h hquoted named hbody

end DataTypes

section Library

/-- The code in front of a path that the library exports, without blanks. -/
def exportMark : List Char := "export".toList

theorem opens_export : literalRules.Opens exportMark true "export ".toList :=
  opens_code (by decide) fun before => isSuffixOf_append before _ (by decide)

/-- What the library exports is a path that can be written between quotes as it is. -/
theorem isInPath_of_mem_exports (c : Contract) (path : String) (h : path ∈ exports c) :
    All isInPath path := by
  have hfile : ∀ directory name, All isInPath directory →
      All isInPath ("src/" ++ (directory ++ fileStem name ++ ".dart")) := by
    intro directory name hdirectory
    simp only [all_append]
    exact ⟨all_fixed rfl,
      ⟨hdirectory, (isPlain_fileStem name).imp fun c h => by simp [isInPath, h]⟩,
      all_fixed rfl⟩
  rw [exports, mem_sortNames, List.mem_append, List.mem_cons, List.mem_map, List.mem_map] at h
  rcases h with (rfl | ⟨s, _, rfl⟩) | ⟨d, _, rfl⟩
  · exact all_fixed rfl
  · exact hfile "services/" s.name (all_fixed rfl)
  · exact hfile "data/" d.name (all_fixed rfl)

/-- The library exports its paths. -/
theorem reads_barrel (package : PackageIdentity) (c : Contract) (hname : All isPlain package.name)
    (hassembly : literalRules.IsQuotable c.assembly) :
    literalRules.Reads exportMark IsOneLine (inLines (barrel package c))
      ((exports c).map (·.toList)) := by
  have hexports : literalRules.Reads exportMark IsOneLine
      (inLines ((exports c).map fun path => "export '" ++ path ++ "';") ++ [])
      ((exports c).flatMap (fun path => [path.toList]) ++ []) := by
    rw [inLines, List.flatMap_map]
    refine .flatMap (fun path hpath rest others h => ?_) .nil
    exact reads_directive "export " path opens_export (isInPath_of_mem_exports c path hpath)
      (by rw [← String.toList_inj]; simp) rest others h
  rw [List.append_nil, List.append_nil, ← List.map_eq_flatMap] at hexports
  rw [barrel, inLines_append]
  refine .passes (passes_inLines ?_) hexports
  simp only [List.forall_mem_cons]
  exact ⟨passesLine_fixed rfl, passesLine_doc "" "/ Platform bridge for the `" hassembly,
    passesLine_plain (all_append.mpr ⟨all_append.mpr ⟨all_fixed rfl, hname⟩, all_fixed rfl⟩),
    passesLine_fixed rfl, List.forall_mem_nil _⟩

end Library

end Dart

end PlatformBridge
