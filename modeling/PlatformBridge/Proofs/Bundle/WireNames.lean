import PlatformBridge.Proofs.Bundle.Modules
import PlatformBridge.Proofs.Bundle.TypeNames
import PlatformBridge.Proofs.Dart.Literals
import PlatformBridge.Proofs.Native.Literals

/-!
# Wire Names of a Package

The two sides of a package find each other by the ids of the operations, and
read each other's data by the names of the fields and members. Both are literals
in the generated files, so what counts is what these literals denote. On the
Dart side an id is escaped, and its literal denotes it unless a line ends in it.
On the native side an id is written as it is, and its literal denotes it only if
it stands for itself: a quote ends the literal early, and a backslash starts an
escape.

That a stub registers the ids of its service, and that the data types are known
by their wire names, is told here for every package whose comments stay on their
lines. What a text has in its literals is found by a scan of the whole text, in
which comments and other literals are passed over. So each kind of file is gone
through line by line: most lines are passed, and those that have a literal of
the kind that is looked for give it.

## Main definitions

* `Native.registeredIds`, `Native.renamedNames`, `Dart.calledIds`: What the
  literals of a file denote.
* `Contract.wireNames`: The wire names of a contract.

## Theorems

* `passesLine_headerLines`, `reads_fileText`: The header of a file is passed.
* `Native.reads_dataLines`: The module of the data types.
* `Contract.registeredIds_eq_iff`, `Contract.calledIds_eq_iff`,
  `Contract.renamedNames_eq_iff`: One kind of file each.
* `Contract.wireNames_of_bundle`: When the files of a package use the names of
  the contract.
* `Contract.exists_wireNames_not_denoted`: Names that literals do not denote.
-/

namespace PlatformBridge

open Text LiteralRules

section Header

variable {x : LiteralRules} [x.IsUsual] {mark : List Char} {allowed : List Char → Prop}

/-- The lines of the header are comments. -/
theorem passesLine_headerLines (fingerprint : String) (h : x.IsQuotable fingerprint) :
    ∀ line ∈ headerLines "//" fingerprint, x.PassesLine mark line := by
  have hplain : ∀ text : String, All isPlain text → x.IsQuotable text :=
    fun _ htext => IsUsual.holdsPlain.all htext
  refine List.forall_mem_cons.mpr ⟨passesLine_note ""
    (" This file is @generated by " ++ toolName ++ ". DO NOT EDIT.") ?_ (all_fixed rfl)
    (hplain _ ?_),
    List.forall_mem_singleton.mpr (passesLine_note "" (" Contract: " ++ fingerprint) ?_
      (all_fixed rfl) (all_append.mpr ⟨hplain _ (all_fixed rfl), h⟩))⟩
  · simp only [String.append_assoc, String.empty_append]
  · exact all_append.mpr ⟨all_append.mpr ⟨all_fixed rfl, all_fixed rfl⟩, all_fixed rfl⟩
  · simp only [String.append_assoc, String.empty_append]

/-- The header of a file is passed. -/
theorem reads_fileText (c : Contract) (lines : List String) (names : List (List Char))
    (h : x.Reads mark allowed (inLines lines) names) :
    x.Reads mark allowed (fileText (c.header "//") lines).toList names := by
  have htext : (fileText (c.header "//") lines).toList
      = inLines (headerLines "//" (c.fingerprint.short headerDigits)) ++ inLines lines := by
    rw [Contract.header, toList_fileText, List.flatMap_map, ← inLines_append]
    rfl
  have hdigit : ∀ n < 16, isPlain (Json.hexDigit n) = true := by decide
  have hdigits : x.IsQuotable (c.fingerprint.short headerDigits) :=
    Digest.all_short (fun n hn => IsUsual.holdsPlain _ (hdigit n hn)) _ _
  rw [htext]
  exact .passes (passes_inLines (passesLine_headerLines _ hdigits)) h

end Header

namespace Native

/-- The ids that the file of a stub registers. -/
def registeredIds (text : String) : List (Option String) := literalRules.literals registerMark text

/-- The wire names that the module of the data types gives. -/
def renamedNames (text : String) : List (Option String) := literalRules.literals renameMark text

/-- The module of the data types gives the wire names of its declarations. -/
theorem reads_dataLines (items : List DataItem) (h : ∀ i ∈ items, i.IsPlain)
    (hquoted : ∀ i ∈ items, literalRules.IsQuotable i.typeName) :
    literalRules.Reads renameMark StandsForItself (inLines (dataLines items))
      (items.flatMap fun i => i.wireNames.map (·.toList)) := by
  have hblank : literalRules.PassesLine renameMark "" := passesLine_fixed rfl
  have hitems : literalRules.Reads renameMark StandsForItself
      (items.flatMap (fun i => inLines i.lines) ++ [])
      (items.flatMap (fun i => i.wireNames.map (·.toList)) ++ []) :=
    .flatMap (fun i hi rest others => i.reads_lines (h i hi) (hquoted i hi) rest others) .nil
  rw [List.append_nil, List.append_nil] at hitems
  rw [dataLines]
  simp only [inLines_append, inLines_flatMap, List.append_assoc]
  refine .passes (passes_inLines ?_) (.passes (passes_inLines ?_) (.passes (passes_inLines ?_)
    hitems))
  · simp only [List.forall_mem_cons]
    exact ⟨hblank, passesLine_note "" "! Wire data types.", hblank, List.forall_mem_nil _⟩
  · split
    · simp only [List.forall_mem_cons]
      exact ⟨passesLine_fixed rfl, hblank, List.forall_mem_nil _⟩
    · exact List.forall_mem_nil _
  · simp only [List.forall_mem_cons]
    exact ⟨passesLine_fixed rfl, passesLine_fixed rfl, List.forall_mem_nil _⟩

end Native

namespace Dart

/-- The ids that the file of a service calls. -/
def calledIds (text : String) : List (Option String) := literalRules.literals callMark text

end Dart

namespace Contract

variable (c : Contract) (package : PackageIdentity)

/-- The wire names of all data types. -/
def wireNames : List String := c.dataTypes.flatMap c.memberNames

/-- A name on one line is quoted on its line on the native side too. -/
theorem isQuotable_of_isInLine (name : String) (h : All isInLine name) :
    Native.literalRules.IsQuotable name := h.imp fun ch hch => by
  simp only [isInLine, Bool.not_eq_true', Bool.or_eq_false_iff, decide_eq_false_iff_not] at hch
  simp [Native.literalRules, hch.1]

/-- A stub registers the ids of its service just if each of them stands for itself. -/
theorem registeredIds_eq_iff (s : Service) (t : Native.Stub) (ht : Native.Stub.ofService s = .ok t)
    (hname : All isInLine s.name)
    (hsignatures : ∀ o ∈ s.operations, All isInLine o.formalSignature) :
    Native.registeredIds (fileText (c.header "//") t.lines) = (s.operations.map (·.id)).map some
      ↔ ∀ o ∈ s.operations, Native.StandsForItself o.id.toList := by
  have hreads := reads_fileText c t.lines _ (Native.reads_stub s t ht
    (isQuotable_of_isInLine _ hname) fun o ho => isQuotable_of_isInLine _ (hsignatures o ho))
  have hids : s.operations.map (fun o => o.id.toList)
      = (s.operations.map (·.id)).map (·.toList) := by rw [List.map_map, Function.comp_def]
  rw [hids] at hreads
  rw [Native.registeredIds, hreads.literals_eq_iff, List.forall_mem_map]

/-- The file of a service calls its ids just if each of them is on one line. -/
theorem calledIds_eq_iff (s : Service) (p : Dart.Proxy) (hp : Dart.Proxy.ofService s = .ok p)
    (hname : All isInLine s.name)
    (hsignatures : ∀ o ∈ s.operations, All isInLine o.formalSignature)
    (hevents : ∀ e ∈ s.events, All isInLine e.name) :
    Dart.calledIds (fileText (c.header "//") p.lines) = (s.operations.map (·.id)).map some
      ↔ ∀ o ∈ s.operations, Dart.IsOneLine o.id.toList := by
  have hreads := reads_fileText c p.lines _
    (Dart.reads_proxy Dart.proxyMark_callMark s p hp hname hsignatures hevents)
  have hids : (if false then (Dart.importPaths s.dataTypes.toList).map (·.toList) else [])
      ++ (if true then s.operations.map fun o => o.id.toList else [])
      = (s.operations.map (·.id)).map (·.toList) := by simp
  rw [hids] at hreads
  rw [Dart.calledIds, hreads.literals_eq_iff, List.forall_mem_map]

/-- The module of the data types gives the wire names of a contract just if each of them stands for
    itself. -/
theorem renamedNames_eq_iff (items : List Native.DataItem)
    (hitems : c.dataTypes.mapM (Native.DataItem.ofDataType c) = .ok items)
    (hnames : ∀ d ∈ c.dataTypes, All isInLine d.name) :
    Native.renamedNames (fileText (c.header "//") (Native.dataLines items)) = c.wireNames.map some
      ↔ ∀ name ∈ c.wireNames, Native.StandsForItself name.toList := by
  have hof : ∀ i ∈ items, i.IsPlain ∧ Native.literalRules.IsQuotable i.typeName := by
    intro i hi
    rcases Results.exists_of_mem_of_mapM_eq_ok _ _ items hitems i hi with ⟨d, hd, hid⟩
    rcases Native.DataItem.of_ofDataType c d i hid with ⟨hplain, hname, _⟩
    exact ⟨hplain, hname ▸ isQuotable_of_isInLine _ (hnames d hd)⟩
  have hwire : items.flatMap (fun i => i.wireNames.map (·.toList))
      = c.wireNames.map (·.toList) := by
    rw [wireNames, List.map_flatMap, List.flatMap_def, List.flatMap_def]
    refine congrArg List.flatten
      (Results.map_of_mapM_eq_ok _ _ _ _ (fun d i hid => ?_) items hitems)
    rw [(Native.DataItem.of_ofDataType c d i hid).2.2]
  have hreads := reads_fileText c _ _ (Native.reads_dataLines items (fun i hi => (hof i hi).1)
    fun i hi => (hof i hi).2)
  rw [hwire] at hreads
  exact hreads.literals_eq_iff

/-- In every package whose comments stay on their lines, the files of a service register and call
    the ids of its operations, and the module of the data types gives the wire names of the
    contract, just as far as the literals allow it: on the native side an id or wire name has to
    stand for itself, and on the Dart side an id has to be on one line. -/
theorem wireNames_of_bundle (b : Bundle) (h : c.bundle package = .ok b) :
    (∀ s ∈ c.services, All isInLine s.name →
      (∀ o ∈ s.operations, All isInLine o.formalSignature) →
      (∀ e ∈ s.events, All isInLine e.name) →
      ∃ stub ∈ b.files, ∃ proxy ∈ b.files, stub.path = Native.serviceFile s.name
        ∧ proxy.path = "lib/src/" ++ Dart.serviceFile s.name
        ∧ (Native.registeredIds stub.text = (s.operations.map (·.id)).map some
          ↔ ∀ o ∈ s.operations, Native.StandsForItself o.id.toList)
        ∧ (Dart.calledIds proxy.text = (s.operations.map (·.id)).map some
          ↔ ∀ o ∈ s.operations, Dart.IsOneLine o.id.toList))
    ∧ ((∀ d ∈ c.dataTypes, All isInLine d.name) →
      ∃ data ∈ b.files, data.path = "native/data.rs"
        ∧ (Native.renamedNames data.text = c.wireNames.map some
          ↔ ∀ name ∈ c.wireNames, Native.StandsForItself name.toList)) := by
  have hrenders := (c.exists_bundle_iff package).mp ⟨b, h⟩
  refine ⟨fun s hs hname hsignatures hevents => ?_, fun hnames => ?_⟩
  · rcases hrenders.stub s hs with ⟨t, ht⟩
    rcases hrenders.proxy s hs with ⟨p, hp⟩
    exact ⟨_,
      c.mem_of_nativeService package b h s hs _ ((nativeService_eq_ok _ s _).mpr ⟨t, ht, rfl⟩),
      _, c.mem_of_dartService package b h s hs _ ((dartService_eq_ok _ s _).mpr ⟨p, hp, rfl⟩),
      rfl, rfl, c.registeredIds_eq_iff s t ht hname hsignatures,
      c.calledIds_eq_iff s p hp hname hsignatures hevents⟩
  · rcases c.exists_declaresTypes_of_bundle package b h with ⟨items, _, _, hdeclares⟩
    exact ⟨_, hdeclares.dataModule, rfl, c.renamedNames_eq_iff items hdeclares.items_eq hnames⟩

/-- A contract with an operation of a given id and a member of a given name. -/
def caller (id : MemberId) (member : String) : Contract where
  assembly := "Acme"
  services := [⟨"Acme.Bell", [⟨"Ring", id, [], .fireAndForget, false, "Ring", "Ring()"⟩], [],
    .ofList []⟩]
  dataTypes := [⟨"Acme.Tone", .enumeration [member]⟩]

/-- An id and a wire name are in nobody's way, whatever they are. -/
theorem renders_caller (id : MemberId) (member : String)
    (hshallow : (caller id member).toJson.depth ≤ Json.maxDepth) :
    (caller id member).Renders (.ofName "acme") := by
  refine ⟨fun s hs => ?_, fun s hs => ?_, fun d hd => ?_, fun d hd => ?_, hshallow, ?_, ?_⟩
  · rw [List.mem_singleton.mp hs]
    exact ⟨_, rfl⟩
  · rw [List.mem_singleton.mp hs]
    exact ⟨_, rfl⟩
  · rw [List.mem_singleton.mp hd]
    exact ⟨_, rfl⟩
  · rw [List.mem_singleton.mp hd]
    exact ⟨_, rfl⟩
  · change ((caller "" "").paths (.ofName "acme")).Nodup
    decide
  · change Manifest.fileName ∉ (caller "" "").paths (.ofName "acme")
    decide

/-- An id and a wire name that stand for themselves are registered, called and given. -/
theorem wireNames_of_ring : ∃ b,
    (caller "Acme.Bell.Ring" "High").bundle (.ofName "acme") = .ok b
    ∧ ∃ stub ∈ b.files, ∃ proxy ∈ b.files, ∃ data ∈ b.files,
      Native.registeredIds stub.text = [some "Acme.Bell.Ring"]
      ∧ Dart.calledIds proxy.text = [some "Acme.Bell.Ring"]
      ∧ Native.renamedNames data.text = [some "High"] := by
  have hrenders := renders_caller "Acme.Bell.Ring" "High" (by decide)
  rcases (exists_bundle_iff _ _).mpr hrenders with ⟨b, hb⟩
  rcases wireNames_of_bundle _ (.ofName "acme") b hb with ⟨hservices, hdata⟩
  rcases hservices _ List.mem_cons_self (all_fixed rfl)
    (List.forall_mem_singleton.mpr (all_fixed rfl)) nofun with
    ⟨stub, hstub, proxy, hproxy, _, _, hregistered, hcalled⟩
  rcases hdata (List.forall_mem_singleton.mpr (all_fixed rfl)) with ⟨data, hdata, _, hrenamed⟩
  exact ⟨b, hb, stub, hstub, proxy, hproxy, data, hdata, hregistered.mpr (by decide),
    hcalled.mpr (by decide), hrenamed.mpr (by decide)⟩

/-- An id with quotes in it is called by the proxy, but it is not what the stub registers, and a
    wire name with quotes in it is not what the data types are known by. -/
theorem exists_wireNames_not_denoted : ∃ b,
    (caller "Acme.Bell.Ring\"x\"" "\"High\"").bundle (.ofName "acme") = .ok b
    ∧ ∃ stub ∈ b.files, ∃ proxy ∈ b.files, ∃ data ∈ b.files,
      stub.path = "native/bell.rs" ∧ proxy.path = "lib/src/services/bell.dart"
      ∧ data.path = "native/data.rs"
      ∧ Native.registeredIds stub.text ≠ [some "Acme.Bell.Ring\"x\""]
      ∧ Dart.calledIds proxy.text = [some "Acme.Bell.Ring\"x\""]
      ∧ Native.renamedNames data.text ≠ [some "\"High\""] := by
  let c := caller "Acme.Bell.Ring\"x\"" "\"High\""
  have hrenders : c.Renders (.ofName "acme") := renders_caller _ _ (by decide)
  rcases (exists_bundle_iff _ _).mpr hrenders with ⟨b, hb⟩
  rcases hrenders.stub _ List.mem_cons_self with ⟨t, ht⟩
  rcases hrenders.proxy _ List.mem_cons_self with ⟨p, hp⟩
  rcases exists_declaresTypes_of_bundle _ _ b hb with ⟨items, _, _, hdeclares⟩
  have hregistered := registeredIds_eq_iff c _ t ht (all_fixed rfl)
    (List.forall_mem_singleton.mpr (all_fixed rfl))
  have hcalled := calledIds_eq_iff c _ p hp (all_fixed rfl)
    (List.forall_mem_singleton.mpr (all_fixed rfl)) nofun
  have hrenamed := renamedNames_eq_iff c items hdeclares.items_eq
    (List.forall_mem_singleton.mpr (all_fixed rfl))
  have hstubPath : Native.serviceFile "Acme.Bell" = "native/bell.rs" := by decide
  have hproxyPath : "lib/src/" ++ Dart.serviceFile "Acme.Bell" = "lib/src/services/bell.dart" := by
    decide
  refine ⟨b, hb, _, mem_of_nativeService _ _ b hb _ List.mem_cons_self _
      ((nativeService_eq_ok _ _ _).mpr ⟨t, ht, rfl⟩), _,
    mem_of_dartService _ _ b hb _ List.mem_cons_self _
      ((dartService_eq_ok _ _ _).mpr ⟨p, hp, rfl⟩), _, hdeclares.dataModule, hstubPath, hproxyPath,
    rfl, fun heq => ?_, hcalled.mpr (by decide), fun heq => ?_⟩
  · exact absurd (hregistered.mp heq) (by decide)
  · exact absurd (hrenamed.mp heq) (by decide)

end Contract

end PlatformBridge
