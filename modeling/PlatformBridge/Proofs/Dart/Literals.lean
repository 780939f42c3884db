import PlatformBridge.Dart.DataClass
import PlatformBridge.Proofs.Dart.Letters
import PlatformBridge.Proofs.Results
import PlatformBridge.Proofs.Text.Literals

/-!
# Literals of Dart Code

The literals of the Dart side are read by the rules for single quotes: a
backslash takes the meaning of the quote, backslash or dollar sign behind it
away, and none of these may stand on its own, nor may a line end inside the
literal.

Ids and wire names are escaped before they are written between quotes. So a
literal always ends at its own quote, whatever is in the name, and denotes the
name just if the name is on one line. A line break is the one thing that the
escape leaves alone and the language does not take.

Two things are asked of the file of a service: what it imports, and the ids
that it calls. These are two marks over the same text, and for each of them
most literals of the file are not asked for. `ProxyMark` has what a proof needs
to know of a mark, which kinds of literals it asks for, so the file is gone
through once and the results for the two marks are two cases of one theorem.

The file is read from its end, line by line: getters, methods, the head of the
class, and imports. Everything that is neither a directive nor a call is
passed. What is in a line apart from quoted names is plain, and that is known
from what the members of a service are made into.

## Main definitions

* `Dart.denoteFrom?`, `Dart.literalRules`: The literals of the language.
* `Dart.IsOneLine`: A text on one line.
* `Dart.callMark`, `Dart.importMark`: What is in front of the literals that
  are asked for.
* `Dart.ProxyMark`: What a mark asks for in the file of a service.
* `Dart.ProxyMethod.IsPlain`: A method whose names are plain.

## Theorems

* `Dart.closes_escape`, `Dart.isOneLine_of_denoteFrom?`, `Dart.spells_escape`:
  Every literal ends, and what it denotes.
* `Dart.reads_literal`, `Dart.passesLine_literal`: Literals in code.
* `Dart.reads_directive`, `Dart.reads_imports`: Directives.
* `Dart.ProxyMethod.reads_call`, `Dart.ProxyMethod.reads_lines`: The call of a
  method.
* `Dart.ProxyGetter.passesLine_lines`: The lines of a getter.
* `Dart.Proxy.of_ofService`: What a file has of its service.
* `Dart.reads_proxy`: The calls and imports in the file of a service.
-/

namespace PlatformBridge

open Text LiteralRules

namespace Dart

/-- A character that is written with a backslash in front. -/
def isEscaped (c : Char) : Bool := c = '\'' || c = '\\' || c = '$'

/-- What the rest of a literal denotes, from behind a backslash or not. -/
def denoteFrom? : Bool → List Char → Option (List Char)
  | false, [] => some []
  | true, [] => none
  | false, c :: rest =>
    if c = '\\' then denoteFrom? true rest
    else if isEscaped c || !isInLine c then none
    else (denoteFrom? false rest).map (c :: ·)
  | true, c :: rest => if isEscaped c then (denoteFrom? false rest).map (c :: ·) else none

/-- The literals of the language. Its comments end with their line. -/
def literalRules : LiteralRules where
  quote := '\''
  endsComment c := c = '\n' || c = '\r'
  denote? := denoteFrom? false

instance : literalRules.IsUsual where
  quote := by decide
  quote_ne := by decide
  isCode_break := by decide
  endsComment_break := by decide
  holdsPlain c h := by
    simp [literalRules, ne_of_isPlain h (d := '\n') (by decide),
      ne_of_isPlain h (d := '\r') (by decide)]

/-- A text on one line. -/
def IsOneLine (text : List Char) : Prop := ∀ c ∈ text, isInLine c = true

instance (text : List Char) : Decidable (IsOneLine text) :=
  decidable_of_iff (text.all isInLine = true) List.all_eq_true

section Spelling

variable {mark : List Char}

theorem escape_eq (c : Char) : escape c = if isEscaped c then ['\\', c] else [c] := rfl

/-- A literal ends at its own quote, whatever is in the text. -/
theorem closes_escape (text : List Char) : literalRules.Closes mark (text.flatMap escape) := by
  induction text with
  | nil => exact closes_of_forall nofun
  | cons c text ih =>
      intro after raw rest
      rw [List.flatMap_cons, escape_eq]
      cases hc : isEscaped c with
      | true =>
          rw [if_pos rfl, List.append_assoc, List.cons_append, scan, if_neg (by decide),
            if_pos rfl, List.cons_append, scan, List.nil_append, ih]
          simp
      | false =>
          simp only [isEscaped, Bool.or_eq_false_iff, decide_eq_false_iff_not] at hc
          have hquote : c ≠ literalRules.quote := hc.1.1
          rw [if_neg Bool.false_ne_true, List.append_assoc, List.cons_append, scan,
            if_neg hquote, if_neg hc.1.2, List.nil_append, ih]
          simp

/-- A text on one line is denoted by what is written for it. -/
theorem denoteFrom?_escape (text : List Char) (h : IsOneLine text) :
    denoteFrom? false (text.flatMap escape) = some text := by
  induction text with
  | nil => rfl
  | cons c text ih =>
      rcases List.forall_mem_cons.mp h with ⟨hline, hrest⟩
      rw [List.flatMap_cons, escape_eq]
      cases hc : isEscaped c with
      | true =>
          rw [if_pos rfl, List.cons_append, List.cons_append, List.nil_append, denoteFrom?,
            if_pos rfl, denoteFrom?, if_pos hc, ih hrest]
          rfl
      | false =>
          have hslash : c ≠ '\\' := by
            rintro rfl
            cases hc
          rw [if_neg Bool.false_ne_true, List.cons_append, List.nil_append, denoteFrom?,
            if_neg hslash, hc, hline, ih hrest]
          rfl

/-- What a literal denotes is on one line. -/
theorem isOneLine_of_denoteFrom? (isEscape : Bool) (raw text : List Char)
    (h : denoteFrom? isEscape raw = some text) : IsOneLine text := by
  induction raw generalizing isEscape text with
  | nil =>
      cases isEscape with
      | false =>
          cases h
          nofun
      | true => cases h
  | cons c rest ih =>
      cases isEscape with
      | true =>
          rw [denoteFrom?] at h
          split at h
          · rename_i hc
            rcases Option.map_eq_some_iff.mp h with ⟨others, hothers, rfl⟩
            -- A line break is none of the characters that may stand behind a backslash.
            have hspecial : ∀ d, isInLine d = false → isEscaped d = false := by
              intro d hd
              simp only [isInLine, Bool.not_eq_false', Bool.or_eq_true, decide_eq_true_eq] at hd
              rcases hd with rfl | rfl <;> decide
            refine List.forall_mem_cons.mpr ⟨?_, ih false others hothers⟩
            cases hline : isInLine c with
            | true => rfl
            | false => exact absurd hc (by rw [hspecial c hline]; exact Bool.false_ne_true)
          · cases h
      | false =>
          rw [denoteFrom?] at h
          split at h
          · exact ih true text h
          · split at h
            · cases h
            · rename_i hc
              rcases Option.map_eq_some_iff.mp h with ⟨others, hothers, rfl⟩
              refine List.forall_mem_cons.mpr ⟨?_, ih false others hothers⟩
              simpa using (not_or.mp (mt Bool.or_eq_true_iff.mpr hc)).2

/-- A literal denotes its text just if the text is on one line. -/
theorem spells_escape (text : List Char) :
    literalRules.Spells mark IsOneLine (text.flatMap escape) text where
  closes _ := closes_escape text
  denotes := denoteFrom?_escape text
  allowed _ _ raw _ _ _ hdenotes := isOneLine_of_denoteFrom? false raw text hdenotes

/-- A literal is read as its text if it is asked for, and else as nothing. -/
theorem reads_literal {code : List Char} {marked : Bool} (text : String)
    (hopen : literalRules.Opens mark marked code) {rest : List Char} {others : List (List Char)}
    (h : literalRules.Reads mark IsOneLine rest others) :
    literalRules.Reads mark IsOneLine (code ++ ((literal text).toList ++ rest))
      ((if marked then [text.toList] else []) ++ others) := by
  have hliteral : (literal text).toList ++ rest
      = '\'' :: (text.toList.flatMap escape ++ '\'' :: rest) := by simp [literal]
  cases marked with
  | true =>
      rw [hliteral]
      exact .literal hopen (spells_escape _) h
  | false =>
      have hpasses := passes_literal hopen (closes_escape text.toList)
      have hcode : code ++ ((literal text).toList ++ rest) = (code ++ literalRules.quote
          :: (text.toList.flatMap escape ++ [literalRules.quote])) ++ rest := by
        rw [hliteral]
        simp [literalRules]
      rw [hcode]
      exact .passes hpasses h

/-- A line with a literal that is not asked for. -/
theorem passesLine_literal {line : String} (start text closing : String)
    (hopen : literalRules.Opens mark false start.toList) (hclosing : All isPlain closing)
    (hline : line = start ++ (literal text ++ closing)) : literalRules.PassesLine mark line := by
  have htext : line.toList ++ ['\n'] = (start.toList ++ literalRules.quote
      :: (text.toList.flatMap escape ++ [literalRules.quote])) ++ (closing.toList ++ ['\n']) := by
    rw [hline]
    simp [literal, literalRules]
  rw [PassesLine, htext]
  exact (passes_literal hopen (closes_escape _)).append (passesLine_plain hclosing)

end Spelling

section Proxies

/-- The code in front of the id of a call, without blanks. -/
def callMark : List Char := "callEnvelope(".toList

/-- The code in front of the path of an import, without blanks. -/
def importMark : List Char := "import".toList

/-- What a mark asks for in the file of a service: the imports or the calls, but never the events.
    -/
structure ProxyMark (mark : List Char) (asksImports asksCalls : Bool) : Prop where
  imports : literalRules.Opens mark asksImports "import ".toList
  calls : literalRules.Opens mark asksCalls "callEnvelope(".toList
  events : literalRules.Opens mark false "_transport.events(".toList

theorem proxyMark_callMark : ProxyMark callMark false true where
  imports := opens_code (by decide) fun before =>
    not_isSuffixOf_append before _ (by decide) (by decide)
  calls := opens_code (by decide) fun before => isSuffixOf_append before _ (by decide)
  events := opens_code (by decide) fun before =>
    not_isSuffixOf_append before _ (by decide) (by decide)

theorem proxyMark_importMark : ProxyMark importMark true false where
  imports := opens_code (by decide) fun before => isSuffixOf_append before _ (by decide)
  calls := opens_code (by decide) fun before =>
    not_isSuffixOf_append before _ (by decide) (by decide)
  events := opens_code (by decide) fun before =>
    not_isSuffixOf_append before _ (by decide) (by decide)

variable {mark : List Char} {asksImports asksCalls : Bool}

/-- A character of a path. -/
def isInPath (c : Char) : Bool := isPlain c || c = '/'

-- A path is written as it is.
theorem literal_of_isInPath (path : String) (h : All isInPath path) :
    (literal path).toList = '\'' :: (path.toList ++ ['\'']) := by
  have hescape : ∀ c ∈ path.toList, escape c = [c] := by
    intro c hc
    have hplain := h c hc
    rw [isInPath, Bool.or_eq_true, decide_eq_true_eq] at hplain
    have hne : isEscaped c = false := by
      rcases hplain with hplain | rfl
      · simp only [isEscaped, ne_of_isPlain hplain (d := '\'') (by decide),
          ne_of_isPlain hplain (d := '\\') (by decide), ne_of_isPlain hplain (d := '$') (by decide),
          decide_false, Bool.or_false]
      · decide
    rw [escape_eq, hne, if_neg Bool.false_ne_true]
  have hself : path.toList.flatMap escape = path.toList := by
    rw [List.flatMap_congr hescape, List.flatMap_singleton']
  simp [literal, hself]

/-- A directive names its path. -/
theorem reads_directive {marked : Bool} {line : String} (start path : String)
    (hopen : literalRules.Opens mark marked start.toList) (hpath : All isInPath path)
    (hline : line = start ++ "'" ++ path ++ "';") (rest : List Char) (others : List (List Char))
    (h : literalRules.Reads mark IsOneLine rest others) :
    literalRules.Reads mark IsOneLine (line.toList ++ ['\n'] ++ rest)
      ((if marked then [path.toList] else []) ++ others) := by
  have htext : line.toList ++ ['\n'] ++ rest
      = start.toList ++ ((literal path).toList ++ (";\n".toList ++ rest)) := by
    rw [hline, literal_of_isInPath path hpath]
    simp
  rw [htext]
  exact reads_literal path hopen (.passes (passes_fixed (by decide)) h)

theorem isInPath_dataFile (name : TypeName) : All isInPath ("../" ++ dataFile name) := by
  simp only [dataFile, all_append]
  exact ⟨all_fixed rfl,
    ⟨all_fixed rfl, (isPlain_fileStem name).imp fun c h => by simp [isInPath, h]⟩,
    all_fixed rfl⟩

/-- A method whose names are plain. -/
structure ProxyMethod.IsPlain (m : ProxyMethod) : Prop where
  name : All isPlain m.name
  parameters : ∀ e ∈ m.parameters, All isPlain e.1

/-- Whatever an operation and its parameters are called, the method that is made of it is plain. -/
theorem ProxyMethod.isPlain_of_ofOperation (o : Operation) (m : ProxyMethod)
    (h : ofOperation o = .ok m) : m.IsPlain ∧ m.operation = o := by
  rcases Results.map_eq_ok.mp h with ⟨_, _, hm⟩
  rw [← hm]
  refine ⟨⟨?_, fun e he => ?_⟩, by dsimp only⟩
  · dsimp only
    exact isPlain_identifier _ o.name
  · dsimp only at he
    rcases List.mem_map.mp he with ⟨p, _, hp⟩
    rw [← hp]
    dsimp only
    exact isPlain_identifier _ p.name

namespace ProxyMethod

variable (m : ProxyMethod) (h : m.IsPlain)

include h

/-- The signature of a method has types and identifiers in it, and these are plain. -/
theorem isPlain_signature : All isPlain m.signature := by
  have hparameters : All isPlain m.parameterList := by
    refine all_intercalate (all_fixed rfl) (List.forall_mem_map.mpr fun e he => ?_)
    simp only [all_append]
    exact ⟨⟨e.2.type.isPlain_inDart, all_fixed rfl⟩, h.parameters e he⟩
  have harguments : All isPlain (m.name ++ "(" ++ m.parameterList ++ ")") := by
    simp only [all_append]
    exact ⟨⟨⟨h.name, all_fixed rfl⟩, hparameters⟩, all_fixed rfl⟩
  unfold signature
  dsimp only
  split
  · exact all_append.mpr ⟨all_fixed rfl, harguments⟩
  · exact all_append.mpr ⟨all_append.mpr ⟨all_fixed rfl, harguments⟩, all_fixed rfl⟩
  · rename_i value _ _
    exact all_append.mpr ⟨all_append.mpr ⟨all_append.mpr ⟨all_append.mpr
      ⟨all_fixed rfl, value.isPlain_inDart⟩, all_fixed rfl⟩, harguments⟩, all_fixed rfl⟩

-- The arguments of a call are plain.
theorem exists_call_eq : ∃ arguments, All isPlain arguments
    ∧ m.call
      = "callEnvelope(" ++ literal m.operation.id ++ ", <Object?>[" ++ arguments ++ "])" := by
  refine ⟨_, all_intercalate (all_fixed rfl) (List.forall_mem_map.mpr fun e he => ?_), rfl⟩
  exact e.2.type.isPlain_dartEncode e.1 0 (h.parameters e he)

/-- A line with the call of a method names the id of its operation. -/
theorem reads_call (hmark : ProxyMark mark asksImports asksCalls) (start closing : String)
    (hstart : All isPlain start) (hclosing : All isPlain closing) (rest : List Char)
    (others : List (List Char)) (hrest : literalRules.Reads mark IsOneLine rest others) :
    literalRules.Reads mark IsOneLine ((start ++ m.call ++ closing).toList ++ '\n' :: rest)
      ((if asksCalls then [m.operation.id.toList] else []) ++ others) := by
  obtain ⟨arguments, harguments, hcall⟩ := m.exists_call_eq h
  have htail : literalRules.PassesLine mark (", <Object?>[" ++ arguments ++ "])" ++ closing) := by
    refine passesLine_plain ?_
    simp only [all_append]
    exact ⟨⟨⟨all_fixed rfl, harguments⟩, all_fixed rfl⟩, hclosing⟩
  have htext : (start ++ m.call ++ closing).toList ++ '\n' :: rest
      = (start.toList ++ "callEnvelope(".toList) ++ ((literal m.operation.id).toList
        ++ (((", <Object?>[" ++ arguments ++ "])" ++ closing).toList ++ ['\n']) ++ rest)) := by
    simp [hcall]
  rw [htext]
  exact reads_literal _ ((passes_code (holdsPlain_isCode.all hstart)).opens hmark.calls)
    (.passes htail hrest)

/-- A method calls its operation. -/
theorem reads_lines (hmark : ProxyMark mark asksImports asksCalls)
    (hquoted : literalRules.IsQuotable m.operation.formalSignature) (rest : List Char)
    (others : List (List Char)) (hrest : literalRules.Reads mark IsOneLine rest others) :
    literalRules.Reads mark IsOneLine (inLines m.lines ++ rest)
      ((if asksCalls then [m.operation.id.toList] else []) ++ others) := by
  have hshape : literalRules.IsQuotable
      ("` (" ++ shapeText m.operation.returns ++ " on the native side).") := by
    cases m.operation.returns <;> exact all_append.mpr ⟨all_append.mpr
      ⟨all_fixed rfl, all_fixed rfl⟩, all_fixed rfl⟩
  have hdoc : literalRules.PassesLine mark ("  /// Calls `" ++ m.operation.formalSignature
      ++ ("` (" ++ shapeText m.operation.returns ++ " on the native side).")) :=
    passesLine_doc "  " "/ Calls `" hquoted (by simp) (all_fixed rfl) (all_fixed rfl) hshape
  have hsignature : literalRules.PassesLine mark ("  " ++ m.signature ++ " \x7b") :=
    passesLine_plain (all_append.mpr
      ⟨all_append.mpr ⟨all_fixed rfl, m.isPlain_signature h⟩, all_fixed rfl⟩)
  have hclosed : literalRules.Reads mark IsOneLine (inLines ["  \x7d"] ++ rest) others :=
    .passes (passes_inLines (List.forall_mem_singleton.mpr (passesLine_fixed rfl))) hrest
  have hcall := m.reads_call h hmark
  rw [lines]
  simp only [inLines_append, List.append_assoc]
  refine .passes (passes_inLines ?_) ?_
  · simp only [List.forall_mem_cons]
    refine ⟨passesLine_fixed rfl, ?_, hsignature, List.forall_mem_nil _⟩
    simpa only [String.append_assoc] using hdoc
  -- However the operation answers, its call is made in the first line of the body.
  · unfold body
    split
    · rw [inLines_cons, List.append_assoc]
      exact hcall _ _ (all_fixed rfl) (all_fixed rfl) _ _ hclosed
    · rw [inLines_cons, List.append_assoc]
      exact hcall _ _ (all_fixed rfl) (all_fixed rfl) _ _ hclosed
    · rw [inLines_cons, List.append_assoc]
      refine hcall _ _ (all_fixed rfl) (all_fixed rfl) _ _ (.passes (passes_inLines ?_) hclosed)
      refine List.forall_mem_singleton.mpr (passesLine_plain ?_)
      refine all_append.mpr ⟨all_append.mpr ⟨all_fixed rfl, ?_⟩, all_fixed rfl⟩
      exact BridgeType.isPlain_dartDecode _ 0 (all_fixed rfl)

end ProxyMethod

namespace ProxyGetter

/-- A getter is passed: its event is no call. -/
theorem passesLine_lines (hmark : ProxyMark mark asksImports asksCalls) (e : Event)
    (hquoted : literalRules.IsQuotable e.name) :
    ∀ line ∈ (ofEvent e).lines, literalRules.PassesLine mark line := by
  have hname : All isPlain (ofEvent e).name :=
    all_append.mpr ⟨all_fixed rfl, Spelling.isPlain_pascalCase e.name⟩
  -- The one literal is that of the id, and it is behind a name that no mark asks for.
  have hevents : ∀ start closing : String, All isPlain start → All isPlain closing →
      literalRules.PassesLine mark
        (start ++ ("_transport.events(" ++ literal (ofEvent e).event.id ++ ")") ++ closing) := by
    intro start closing hstart hclosing
    refine passesLine_literal (start ++ "_transport.events(") (ofEvent e).event.id (")" ++ closing)
      ?_ (all_append.mpr ⟨all_fixed rfl, hclosing⟩) (by simp only [String.append_assoc])
    rw [String.toList_append]
    exact (passes_code (holdsPlain_isCode.all hstart)).opens hmark.events
  have hdoc : literalRules.PassesLine mark ("  /// Occurrences of the `" ++ e.name ++ "` event.") :=
    passesLine_doc "  " "/ Occurrences of the `" hquoted
  unfold lines
  dsimp only
  rw [List.forall_mem_append]
  refine ⟨List.forall_mem_cons.mpr ⟨passesLine_fixed rfl, List.forall_mem_singleton.mpr hdoc⟩, ?_⟩
  split
  · rename_i type _
    refine List.forall_mem_cons.mpr ⟨passesLine_plain ?_, List.forall_mem_singleton.mpr ?_⟩
    · simp only [all_append]
      exact ⟨⟨⟨⟨all_fixed rfl, type.isPlain_inDart⟩, all_fixed rfl⟩, hname⟩, all_fixed rfl⟩
    · have hdecode : All isPlain (".map((payload) => " ++ type.dartDecode "payload" 0 ++ ");") := by
        simp only [all_append]
        exact ⟨⟨all_fixed rfl, type.isPlain_dartDecode 0 (all_fixed rfl)⟩,
          all_fixed rfl⟩
      simpa only [String.append_assoc] using hevents "      " _ (all_fixed rfl) hdecode
  · refine List.forall_mem_singleton.mpr (hevents _ _ ?_ (all_fixed rfl))
    exact all_append.mpr ⟨all_append.mpr ⟨all_fixed rfl, hname⟩, all_fixed rfl⟩

end ProxyGetter

/-- What the files of services and data types import. -/
def importPaths (names : List TypeName) : List String :=
  "../bridge.dart" :: names.map fun name => "../" ++ dataFile name

/-- The imports of a file name their paths. -/
theorem reads_imports {marked : Bool} (hopen : literalRules.Opens mark marked "import ".toList)
    (names : List TypeName) (rest : List Char) (others : List (List Char))
    (h : literalRules.Reads mark IsOneLine rest others) :
    literalRules.Reads mark IsOneLine
      (inLines (["", "import '../bridge.dart';"] ++ names.map importLine) ++ rest)
      ((if marked then (importPaths names).map (·.toList) else []) ++ others) := by
  have hdata : literalRules.Reads mark IsOneLine (inLines (names.map importLine) ++ rest)
      ((names.flatMap fun name => if marked then [("../" ++ dataFile name).toList] else [])
        ++ others) := by
    rw [inLines, List.flatMap_map]
    refine .flatMap (fun name _ rest others h => ?_) h
    exact reads_directive "import " _ hopen (isInPath_dataFile name)
      (by rw [← String.toList_inj]; simp [importLine]) rest others h
  -- The shared library is imported first, and then the data types in their order.
  have hnames : (if marked then (importPaths names).map (·.toList) else []) ++ others
      = (if marked then ["../bridge.dart".toList] else []) ++ ((names.flatMap fun name =>
        if marked then [("../" ++ dataFile name).toList] else []) ++ others) := by
    cases marked with
    | true => simp [importPaths, List.map_eq_flatMap, List.flatMap_assoc]
    | false => simp
  have htext : inLines (["", "import '../bridge.dart';"] ++ names.map importLine) ++ rest
      = ['\n'] ++ ("import '../bridge.dart';".toList ++ ['\n']
        ++ (inLines (names.map importLine) ++ rest)) := by
    simp [inLines]
  rw [hnames, htext]
  exact .passes (passes_fixed (by decide)) (reads_directive "import " "../bridge.dart" hopen
    (all_fixed rfl) (by simp) _ _ hdata)

/-- What the file of a service keeps of the service: its name as a class, its operations as methods
    and its events as getters. -/
theorem Proxy.of_ofService (s : Service) (p : Proxy) (h : ofService s = .ok p) :
    p.name = typeIdentifier s.name ∧ p.service = s
      ∧ s.operations.mapM ProxyMethod.ofOperation = .ok p.methods
      ∧ p.getters = s.events.map ProxyGetter.ofEvent := by
  simp only [ofService, Results.bind_eq_ok] at h
  rcases h with ⟨_, _, methods, hmethods, hp⟩
  rw [← Except.ok.inj hp]
  exact ⟨by dsimp only, rfl, hmethods, rfl⟩

/-- The file of a service imports its data types and calls its operations. -/
theorem reads_proxy (hmark : ProxyMark mark asksImports asksCalls) (s : Service) (p : Proxy)
    (hp : Proxy.ofService s = .ok p) (hname : literalRules.IsQuotable s.name)
    (hsignatures : ∀ o ∈ s.operations, literalRules.IsQuotable o.formalSignature)
    (hevents : ∀ e ∈ s.events, literalRules.IsQuotable e.name) :
    literalRules.Reads mark IsOneLine (inLines p.lines)
      ((if asksImports then (importPaths s.dataTypes.toList).map (·.toList) else [])
        ++ (if asksCalls then s.operations.map fun o => o.id.toList else [])) := by
  rcases p.of_ofService s hp with ⟨hclass, rfl, hmethods, hgetters⟩
  have hmethod : ∀ m ∈ p.methods, m.IsPlain
      ∧ literalRules.IsQuotable m.operation.formalSignature := by
    intro m hm
    rcases Results.exists_of_mem_of_mapM_eq_ok _ _ p.methods hmethods m hm with ⟨o, ho, hof⟩
    rcases m.isPlain_of_ofOperation o hof with ⟨hplain, rfl⟩
    exact ⟨hplain, hsignatures _ ho⟩
  have hids : (if asksCalls then p.service.operations.map fun o => o.id.toList else [])
      = (p.methods.flatMap fun m => if asksCalls then [m.operation.id.toList] else []) ++ [] := by
    cases asksCalls with
    | false => simp
    | true =>
        rw [if_pos rfl, List.append_nil]
        simp only [if_true]
        rw [← List.map_eq_flatMap]
        refine (Results.map_of_mapM_eq_ok _ _ _ _ (fun o m hof => ?_) p.methods hmethods).symm
        rw [(m.isPlain_of_ofOperation o hof).2]
  have hplain : All isPlain p.name := hclass ▸ isPlain_typeIdentifier _
  have hget : ∀ g ∈ p.getters, ∀ line ∈ g.lines, literalRules.PassesLine mark line := by
    rw [hgetters]
    exact List.forall_mem_map.mpr fun e he =>
      ProxyGetter.passesLine_lines hmark e (hevents e he)
  rw [hids, Proxy.lines]
  simp only [inLines_append, inLines_flatMap, List.append_assoc]
  rw [← List.append_assoc, ← inLines_append]
  -- The file is gone through from its imports over the methods and the getters to its end.
  refine reads_imports hmark.imports _ _ _ (.passes (passes_inLines ?_)
    (.flatMap (fun m hm rest others => m.reads_lines (hmethod m hm).1 hmark (hmethod m hm).2 rest
      others) (.passes (.flatMap fun g hg => passes_inLines (hget g hg)) (.of_passes
        (passes_inLines (List.forall_mem_singleton.mpr (passesLine_fixed rfl)))))))
  simp only [List.forall_mem_cons]
  refine ⟨passesLine_fixed rfl, passesLine_doc "" "/ Proxy for the `" hname, passesLine_plain ?_,
    passesLine_plain ?_, passesLine_fixed rfl, passesLine_fixed rfl, List.forall_mem_nil _⟩
  · exact all_append.mpr ⟨all_append.mpr ⟨all_fixed rfl, hplain⟩, all_fixed rfl⟩
  · exact all_append.mpr ⟨all_append.mpr ⟨all_fixed rfl, hplain⟩, all_fixed rfl⟩

end Proxies

end Dart

end PlatformBridge
