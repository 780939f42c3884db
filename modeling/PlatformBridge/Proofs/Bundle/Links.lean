import PlatformBridge.Proofs.Bundle.WireNames
import PlatformBridge.Proofs.Contract.Closed
import PlatformBridge.Proofs.Dart.Directives
import PlatformBridge.Proofs.Validation.Closure

/-!
# Links of a Package

The Dart side of a package is a library of files that import each other. The
library exports every file below its sources, each once, and the file of a
service or data type imports the data types that occur in it, each once. Nothing
that is imported is missing, because the contract is closed, and nothing is
imported twice, because no two data types have one file.

This is read off the texts of the files; a name that is quoted in a comment
could add a directive of its own if a line ended in it, so these names have to
be on one line. That a directive is meant by a line of the text is a matter of
how the language is read, and is looked at where directives are.

The three kinds of files differ in where their imports come from, and agree in
how they are written. So `links_of_importPaths` is about a file that imports
some data types of the contract, and each kind of file only says which these
are.

## Main definitions

* `Dart.exportedPaths`, `Dart.importedPaths`: The directives of a file.
* `OccursIn`: The names that occur in some types.
* `Bundle.Links`, `Bundle.Exports`: What a file imports, and what a library
  exports.

## Theorems

* `Contract.literals_fileText`: The paths in the directives of a file.
* `Contract.mem_exports_iff`: What a library exports are the files below its
  sources.
* `Contract.links_of_importPaths`: A file that imports data types.
* `Contract.exports_of_bundle`, `Contract.links_of_service`,
  `Contract.links_of_dataType`: The three kinds of files.
* `Library.links_of_validate`: The package of a library without errors.
* `Library.exists_export_without_file`: A library whose name is an export.
-/

namespace PlatformBridge

open Text LiteralRules

namespace Dart

/-- The paths that a file exports. -/
def exportedPaths (text : String) : List (Option String) := literalRules.literals exportMark text

/-- The paths that a file imports. -/
def importedPaths (text : String) : List (Option String) := literalRules.literals importMark text

end Dart

/-- A data type is named in some types, at any depth. -/
def OccursIn (types : List BridgeType) (name : TypeName) : Prop :=
  ∃ t ∈ types, .data name ∈ t.parts ∨ .enum name ∈ t.parts

namespace Bundle

/-- A file whose imports are files of the package: each is there, each is imported once, and the
    data types among them are some names. -/
structure Links (b : Bundle) (text : String) (names : TypeName → Prop) : Prop where
  distinct : (Dart.importedPaths text).Nodup
  targets : ∀ path ∈ Dart.importedPaths text, ∃ rest, path = some ("../" ++ rest)
    ∧ ∃ a ∈ b.files, a.path = "lib/src/" ++ rest
  dataTypes : ∀ name, names name → some ("../" ++ Dart.dataFile name) ∈ Dart.importedPaths text
  only : ∀ path ∈ Dart.importedPaths text, path = some "../bridge.dart"
    ∨ ∃ name, names name ∧ path = some ("../" ++ Dart.dataFile name)

/-- A library that exports the files below its sources, each once, and nothing else. -/
structure Exports (b : Bundle) (text : String) : Prop where
  distinct : (Dart.exportedPaths text).Nodup
  sources : ∀ path ∈ Dart.exportedPaths text, ∃ rest, path = some ("src/" ++ rest)
  files : ∀ rest, some ("src/" ++ rest) ∈ Dart.exportedPaths text
    ↔ ∃ a ∈ b.files, a.path = "lib/src/" ++ rest

end Bundle

namespace Contract

variable (c : Contract) (package : PackageIdentity) (b : Bundle) (h : c.bundle package = .ok b)

/-- What is read off a text that has nothing but paths in its literals. -/
theorem literals_fileText {mark : List Char} (lines paths : List String)
    (hreads : Dart.literalRules.Reads mark Dart.IsOneLine (inLines lines) (paths.map (·.toList)))
    (hpaths : ∀ path ∈ paths, All Dart.isInPath path) :
    Dart.literalRules.literals mark (fileText (c.header "//") lines) = paths.map some :=
  (reads_fileText c lines _ hreads).literals_eq_iff.mpr fun path hpath =>
    (hpaths path hpath).imp fun ch hch => by
      rw [Dart.isInPath, Bool.or_eq_true, decide_eq_true_eq] at hch
      rcases hch with hch | rfl
      · simp [isInLine, ne_of_isPlain hch (d := '\n') (by decide),
          ne_of_isPlain hch (d := '\r') (by decide)]
      · rfl

-- Names in strict order are distinct.
theorem nodup_of_pairwise_lt (names : List String) (h : names.Pairwise (· < ·)) : names.Nodup := by
  rw [List.nodup_iff_pairwise_ne]
  refine h.imp ?_
  rintro name _ hlt rfl
  exact String.lt_irrefl name hlt

section Exports

/-- Below the sources are the shared library, the services and the data types. -/
theorem mem_exports_iff (hcheck : package.check = .ok ()) (rest : String) :
    "src/" ++ rest ∈ Dart.exports c ↔ "lib/src/" ++ rest ∈ c.paths package := by
  have hinj : ∀ other : String, "src/" ++ rest = "src/" ++ other ↔ rest = other := by
    simp [← String.toList_inj]
  have hinj' : ∀ other : String, "lib/src/" ++ rest = "lib/src/" ++ other ↔ rest = other := by
    simp [← String.toList_inj]
  have hexports : "src/" ++ rest ∈ Dart.exports c ↔ rest = "bridge.dart"
      ∨ (∃ s ∈ c.services, rest = Dart.serviceFile s.name)
      ∨ ∃ d ∈ c.dataTypes, rest = Dart.dataFile d.name := by
    have hbridge : "src/" ++ rest = "src/bridge.dart" ↔ rest = "bridge.dart" := hinj "bridge.dart"
    simp only [Dart.exports, mem_sortNames, List.mem_append, List.mem_cons, List.mem_map, or_assoc,
      hbridge]
    refine or_congr_right (or_congr ?_ ?_)
    · exact exists_congr fun s => and_congr_right fun _ => eq_comm.trans (hinj _)
    · exact exists_congr fun d => and_congr_right fun _ => eq_comm.trans (hinj _)
  rw [hexports]
  constructor
  · rintro (rfl | ⟨s, hs, rfl⟩ | ⟨d, hd, rfl⟩)
    · exact List.mem_append_left _ (List.mem_append_left _ (by simp))
    · exact List.mem_append_left _ (List.mem_append_right _
        (List.mem_flatMap.mpr ⟨s, hs, List.mem_cons_self⟩))
    · exact List.mem_append_right _ (List.mem_map.mpr ⟨d, hd, rfl⟩)
  · intro hpath
    -- The library itself has no slash in its name, and all else begins differently.
    have hname : "lib/src/" ++ rest ≠ "lib/" ++ package.name ++ ".dart" := by
      intro heq
      have htail : "src/".toList ++ rest.toList = package.name.toList ++ ".dart".toList := by
        simpa [← String.toList_inj] using heq
      have hslash : '/' ∈ package.name.toList ++ ".dart".toList := htail ▸ by simp
      rcases List.mem_append.mp hslash with hmem | hmem
      · exact absurd (isNameChar_of_check package hcheck _ hmem) (by decide)
      · exact absurd hmem (by decide)
    have hhead : ("lib/src/" ++ rest).toList.head? = some 'l' := by simp
    have hbridge : "lib/src/" ++ rest = "lib/src/bridge.dart" ↔ rest = "bridge.dart" :=
      hinj' "bridge.dart"
    simp only [paths, List.mem_append, List.mem_cons, List.not_mem_nil, or_false,
      List.mem_flatMap, List.mem_map] at hpath
    rcases hpath with ((heq | heq | heq | heq | heq | heq) | ⟨s, hs, heq | heq⟩) | ⟨d, hd, heq⟩
    · simp [heq] at hhead
    · exact absurd heq hname
    · exact Or.inl (hbridge.mp heq)
    · simp [heq] at hhead
    · simp [heq] at hhead
    · simp [heq] at hhead
    · exact Or.inr (Or.inl ⟨s, hs, (hinj' _).mp heq⟩)
    · simp [heq, Native.serviceFile] at hhead
    · exact Or.inr (Or.inr ⟨d, hd, (hinj' _).mp heq.symm⟩)

include h in
/-- The library of a package exports the files below its sources. -/
theorem exports_of_bundle (hcheck : package.check = .ok ()) (hassembly : All isInLine c.assembly) :
    b.Exports (fileText (c.header "//") (Dart.barrel package c)) := by
  have hname : All isPlain package.name := fun ch hch => by
    have hchar := isNameChar_of_check package hcheck ch hch
    simp only [isNameChar, Bool.or_eq_true, decide_eq_true_eq] at hchar
    rcases hchar with (hchar | hchar) | rfl
    · exact isPlain_of_isAlphanum ch (isAlphanum_of_isLower ch hchar)
    · exact isPlain_of_isAlphanum ch (by rw [Char.isAlphanum, hchar, Bool.or_true])
    · decide
  -- What is exported is read off the text, and is the sorted list that the text was written from.
  have hexported : Dart.exportedPaths (fileText (c.header "//") (Dart.barrel package c))
      = (Dart.exports c).map some :=
    c.literals_fileText _ _ (Dart.reads_barrel package c hname hassembly)
      (Dart.isInPath_of_mem_exports c)
  refine ⟨?_, fun path hpath => ?_, fun rest => ?_⟩
  · rw [hexported]
    exact (nodup_of_pairwise_lt _ (pairwise_sortNames _)).map fun _ _ => Option.some.inj
  · rw [hexported] at hpath
    rcases List.mem_map.mp hpath with ⟨path, hmem, rfl⟩
    simp only [Dart.exports, mem_sortNames, List.mem_append, List.mem_cons, List.mem_map] at hmem
    rcases hmem with (rfl | ⟨s, _, rfl⟩) | ⟨d, _, rfl⟩
    · exact ⟨"bridge.dart", rfl⟩
    · exact ⟨_, rfl⟩
    · exact ⟨_, rfl⟩
  · rw [hexported, c.exists_file_iff package b h, ← c.mem_exports_iff package hcheck]
    exact List.mem_map_of_injective fun _ _ => Option.some.inj

end Exports

section Imports

include h in
/-- No two data types of a package have one file. -/
theorem dataFile_inj_of_bundle (name other : TypeName) (hname : ∃ d ∈ c.dataTypes, d.name = name)
    (hother : ∃ d ∈ c.dataTypes, d.name = other)
    (heq : "../" ++ Dart.dataFile name = "../" ++ Dart.dataFile other) : name = other := by
  have hfiles : Dart.dataFile name = Dart.dataFile other := by
    simpa [← String.toList_inj] using heq
  rcases (c.bundle_eq_ok package b).mp h with ⟨_, _, hdistinct, _, _⟩
  rw [paths, List.nodup_append] at hdistinct
  rcases hname with ⟨d, hd, rfl⟩
  rcases hother with ⟨e, he, rfl⟩
  exact congrArg _ (List.inj_on_of_nodup_map hdistinct.2.1 hd he (by rw [hfiles]))

include h in
/-- A file that imports data types of the contract, besides the shared library. -/
theorem links_of_importPaths (lines : List String) (imports : List TypeName)
    (hreads : Dart.literalRules.Reads Dart.importMark Dart.IsOneLine (inLines lines)
      ((Dart.importPaths imports).map (·.toList)))
    (hdistinct : imports.Nodup)
    (hdefined : ∀ name ∈ imports, ∃ d ∈ c.dataTypes, d.name = name) :
    b.Links (fileText (c.header "//") lines) (· ∈ imports) := by
  have hin : ∀ path ∈ Dart.importPaths imports, All Dart.isInPath path := by
    refine List.forall_mem_cons.mpr ⟨all_fixed rfl, List.forall_mem_map.mpr fun name _ => ?_⟩
    exact Dart.isInPath_dataFile name
  have himported : Dart.importedPaths (fileText (c.header "//") lines)
      = (Dart.importPaths imports).map some := c.literals_fileText _ _ hreads hin
  have hfile : ∀ name ∈ imports, ∃ a ∈ b.files, a.path = "lib/src/" ++ Dart.dataFile name := by
    intro name hname
    rcases hdefined name hname with ⟨d, hd, rfl⟩
    exact (c.exists_file_iff package b h _).mpr (List.mem_append_right _ (List.mem_map_of_mem hd))
  have hbridge : ∃ a ∈ b.files, a.path = "lib/src/bridge.dart" :=
    (c.exists_file_iff package b h _).mpr (by simp [paths])
  refine ⟨?_, fun path hpath => ?_, fun name hname => ?_, fun path hpath => ?_⟩
  · rw [himported]
    refine List.Nodup.map (fun _ _ => Option.some.inj) (List.nodup_cons.mpr ⟨fun hmem => ?_, ?_⟩)
    -- The path of a data type is told from that of the shared library by its fourth character.
    · rcases List.mem_map.mp hmem with ⟨name, _, heq⟩
      have hhead : ("../" ++ Dart.dataFile name).toList[3]? = some 'd' := by
        simp [Dart.dataFile]
      rw [heq] at hhead
      exact absurd hhead (by decide)
    · exact hdistinct.map_on fun name hname other hother heq =>
        c.dataFile_inj_of_bundle package b h name other (hdefined name hname)
          (hdefined other hother) heq
  · rw [himported] at hpath
    rcases List.mem_map.mp hpath with ⟨path, hmem, rfl⟩
    rcases List.mem_cons.mp hmem with rfl | hmem
    · exact ⟨"bridge.dart", rfl, hbridge⟩
    · rcases List.mem_map.mp hmem with ⟨name, hname, rfl⟩
      exact ⟨_, rfl, hfile name hname⟩
  · rw [himported]
    exact List.mem_map_of_mem (List.mem_cons_of_mem _ (List.mem_map_of_mem hname))
  · rw [himported] at hpath
    rcases List.mem_map.mp hpath with ⟨path, hmem, rfl⟩
    rcases List.mem_cons.mp hmem with rfl | hmem
    · exact Or.inl rfl
    · rcases List.mem_map.mp hmem with ⟨name, hname, rfl⟩
      exact Or.inr ⟨name, hname, rfl⟩

include h in
/-- An enumeration of a package has no fields, not even those of a composite of its name. -/
theorem fieldsWithInherited_of_enumeration (d : DataType) (hd : d ∈ c.dataTypes)
    (members : List String) (hshape : d.shape = .enumeration members) :
    c.fieldsWithInherited d.name = [] := by
  rcases (c.bundle_eq_ok package b).mp h with ⟨_, _, hdistinct, _, _⟩
  rw [paths, List.nodup_append] at hdistinct
  have hnames : (c.dataTypes.map (·.name)).Nodup := by
    refine List.Nodup.of_map (fun name => "lib/src/" ++ Dart.dataFile name) ?_
    rw [List.map_map]
    exact hdistinct.2.1
  have hfind : c.dataType? d.name = some d := find?_key_of_nodup DataType.name _ hnames d hd
  refine c.fieldsWithInherited_of_composite?_eq_none d.name ?_
  rcases d with ⟨name, shape⟩
  dsimp only at hshape hfind
  rw [composite?, hfind, hshape]

/-- The class of a data type imports the other data types of its fields. -/
theorem mem_imports_iff (d : DataType) (k : Dart.DataClass) (htype : k.typeName = d.name)
    (named : List (String × Field)) (hnamed : named.map (·.2) = c.fieldsWithInherited d.name)
    (name : TypeName) : name ∈ k.imports named
      ↔ name ≠ d.name ∧ OccursIn ((c.fieldsWithInherited d.name).map (·.type)) name := by
  rw [Dart.DataClass.imports, List.mem_filter, mem_sortNames, List.mem_filterMap,
    decide_eq_true_eq, htype, and_comm, ← hnamed]
  simp only [OccursIn, List.map_map, List.mem_map, exists_exists_and_eq_and,
    Function.comp_apply, BridgeType.named?_eq_some_iff]

variable (hclosed : c.IsClosed)

include h hclosed

/-- The file of a service imports the data types of its operations and events. -/
theorem links_of_service (s : Service) (hs : s ∈ c.services) (hname : All isInLine s.name)
    (hsignatures : ∀ o ∈ s.operations, All isInLine o.formalSignature)
    (hevents : ∀ e ∈ s.events, All isInLine e.name) :
    ∃ a ∈ b.files, a.path = "lib/src/" ++ Dart.serviceFile s.name
      ∧ b.Links a.text (OccursIn s.types) := by
  rcases ((c.exists_bundle_iff package).mp ⟨b, h⟩).proxy s hs with ⟨p, hp⟩
  refine ⟨_, c.mem_of_dartService package b h s hs _ ((dartService_eq_ok _ s _).mpr ⟨p, hp, rfl⟩),
    rfl, ?_⟩
  have hreads := Dart.reads_proxy Dart.proxyMark_importMark s p hp hname hsignatures hevents
  simp only [if_true, Bool.false_eq_true, if_false, List.append_nil] at hreads
  have hoccurs : (· ∈ s.dataTypes.toList) = OccursIn s.types :=
    funext fun name => propext (hclosed.dataTypes s hs name)
  rw [← hoccurs]
  refine c.links_of_importPaths package b h _ _ hreads
    (nodup_of_pairwise_lt _ s.dataTypes.ordered) fun name hmem => ?_
  rcases (hclosed.dataTypes s hs name).mp hmem with ⟨t, ht, hpart⟩
  have hwritten : t ∈ c.types :=
    List.mem_append_left _ (List.mem_flatMap.mpr ⟨s, hs, ht⟩)
  exact hclosed.exists_dataType name
    (hpart.imp (fun hdata => ⟨t, hwritten, hdata⟩) fun henum => ⟨t, hwritten, henum⟩)

/-- The file of a data type imports the other data types of its fields. -/
theorem links_of_dataType (d : DataType) (hd : d ∈ c.dataTypes) (hname : All isInLine d.name) :
    ∃ a ∈ b.files, a.path = "lib/src/" ++ Dart.dataFile d.name
      ∧ b.Links a.text fun name =>
        name ≠ d.name ∧ OccursIn ((c.fieldsWithInherited d.name).map (·.type)) name := by
  rcases ((c.exists_bundle_iff package).mp ⟨b, h⟩).dataClass d hd with ⟨k, hk⟩
  refine ⟨_, c.mem_of_dartData package b h d hd _ ((c.dartData_eq_ok _ d _).mpr ⟨k, hk, rfl⟩), rfl,
    ?_⟩
  rcases Dart.DataClass.of_ofDataType c d k hk with ⟨hplain, htype, hbody⟩
  have hreads := Dart.reads_dataClass k hplain (htype ▸ hname)
  unfold Dart.DataClass.imported at hreads
  split at hbody
  · rename_i named hmembers
    rcases hbody with ⟨members, hshape⟩
    rw [hmembers] at hreads
    -- The file of an enumeration imports nothing.
    have himported : Dart.importedPaths (fileText (c.header "//") k.lines) = [] :=
      c.literals_fileText _ [] hreads nofun
    rw [c.fieldsWithInherited_of_enumeration package b h d hd members hshape]
    refine ⟨by simp [himported], by simp [himported], ?_, by simp [himported]⟩
    rintro name ⟨_, t, ht, _⟩
    cases ht
  · rename_i named hfields
    rcases hbody with ⟨_, hnamed⟩
    rw [hfields] at hreads
    have himports := c.mem_imports_iff d k htype named hnamed
    have hnames : (· ∈ k.imports named) = fun name => name ≠ d.name
        ∧ OccursIn ((c.fieldsWithInherited d.name).map (·.type)) name :=
      funext fun name => propext (himports name)
    rw [← hnames]
    refine c.links_of_importPaths package b h _ _ hreads
      ((nodup_of_pairwise_lt _ (pairwise_sortNames _)).filter _) fun name hmem => ?_
    rcases ((himports name).mp hmem).2 with ⟨t, ht, hpart⟩
    rcases List.mem_map.mp ht with ⟨f, hf, rfl⟩
    have hmentions := c.mentions_of_mem_fieldsWithInherited d.name f hf
    exact hclosed.exists_dataType name
      (hpart.imp hmentions.of_mem_parts hmentions.of_mem_parts)

end Imports

end Contract

namespace Library

/-- The package of a library without errors is closed under its links: the library exports each file
    below the sources once, and the files of services and data types import, once each, the data
    types that occur in them, all of which are there. The names that are quoted in the comments of a
    file have to be on one line. -/
theorem links_of_validate (a : Library) (verdict : Verdict) (h : a.validate = .ok verdict)
    (hclean : verdict.report.hasErrors = false) (package : PackageIdentity)
    (hcheck : package.check = .ok ()) (b : Bundle) (hb : verdict.contract.bundle package = .ok b) :
    (All isInLine verdict.contract.assembly →
      ∃ library ∈ b.files, library.path = "lib/" ++ package.name ++ ".dart"
        ∧ b.Exports library.text)
    ∧ (∀ s ∈ verdict.contract.services, All isInLine s.name →
      (∀ o ∈ s.operations, All isInLine o.formalSignature) →
      (∀ e ∈ s.events, All isInLine e.name) →
      ∃ file ∈ b.files, file.path = "lib/src/" ++ Dart.serviceFile s.name
        ∧ b.Links file.text (OccursIn s.types))
    ∧ ∀ d ∈ verdict.contract.dataTypes, All isInLine d.name →
      ∃ file ∈ b.files, file.path = "lib/src/" ++ Dart.dataFile d.name
        ∧ b.Links file.text fun name => name ≠ d.name
          ∧ OccursIn ((verdict.contract.fieldsWithInherited d.name).map (·.type)) name := by
  rcases (a.validate_eq_ok_iff verdict).mp h with ⟨hdefect, rfl⟩
  have hclosed := a.isClosed_review (a.hasDistinctNames_of_defect?_eq_none hdefect) hclean
  refine ⟨fun hassembly => ?_, fun s hs => ?_, fun d hd => ?_⟩
  · rcases a.review.contract.mem_of_common package b hb with ⟨_, _, hlibrary, _⟩
    exact ⟨_, hlibrary, rfl, Contract.exports_of_bundle _ package b hb hcheck hassembly⟩
  · exact Contract.links_of_service _ package b hb hclosed s hs
  · exact Contract.links_of_dataType _ package b hb hclosed d hd

/-- The library and the data type of the shop are linked to the enumeration they need. -/
theorem links_of_shopLibrary : ∃ b, shopLibrary.validate = .ok shopLibrary.review
    ∧ shopLibrary.review.report.hasErrors = false
    ∧ (PackageIdentity.ofName "acme").check = .ok ()
    ∧ shopLibrary.review.contract.bundle (.ofName "acme") = .ok b
    ∧ (∃ library ∈ b.files, library.path = "lib/acme.dart" ∧ b.Exports library.text)
    ∧ ∃ file ∈ b.files, file.path = "lib/src/data/item.dart"
      ∧ some "../data/color.dart" ∈ Dart.importedPaths file.text := by
  have h : shopLibrary.validate = .ok shopLibrary.review := by
    rw [validate_eq_ok_iff]
    exact ⟨by decide +kernel, rfl⟩
  have hclean : shopLibrary.review.report.hasErrors = false := by decide +kernel
  -- Each part of the contract is laid out, and the paths are distinct.
  have hrenders : shopLibrary.review.contract.Renders (.ofName "acme") := by
    refine ⟨fun s hs => ?_, fun s hs => ?_, fun d hd => ?_, fun d hd => ?_, by decide +kernel,
      by decide +kernel, by decide +kernel⟩
    · refine Results.exists_eq_ok_of_isOk ?_
      revert s
      decide +kernel
    · refine Results.exists_eq_ok_of_isOk ?_
      revert s
      decide +kernel
    · refine Results.exists_eq_ok_of_isOk ?_
      revert d
      decide +kernel
    · refine Results.exists_eq_ok_of_isOk ?_
      revert d
      decide +kernel
  have hcheck : (PackageIdentity.ofName "acme").check = .ok () := by decide +kernel
  rcases (Contract.exists_bundle_iff _ _).mpr hrenders with ⟨b, hb⟩
  rcases links_of_validate shopLibrary _ h hclean (.ofName "acme") hcheck b hb with
    ⟨hlibrary, _, hdataTypes⟩
  have hitem : ∃ d ∈ shopLibrary.review.contract.dataTypes, d.name = "Acme.Item" := by
    decide +kernel
  rcases hitem with ⟨d, hd, hname⟩
  rcases hdataTypes d hd (hname ▸ all_fixed rfl) with ⟨file, hfile, hpath, hlinks⟩
  rcases hlibrary (all_fixed rfl) with ⟨library, hmem, hlibraryPath, hexports⟩
  rw [hname] at hpath hlinks
  refine ⟨b, h, hclean, hcheck, hb, ⟨library, hmem, hlibraryPath, hexports⟩, file, hfile, hpath,
    hlinks.dataTypes "Acme.Color" ⟨by decide, .enum "Acme.Color", ?_, Or.inr (by decide)⟩⟩
  decide +kernel

/-- A library whose name goes on over three lines, the second of which is a directive. -/
def ghostLibrary : Library := ⟨"Acme\nexport 'src/ghost.dart';\n//", []⟩

/-- The comment that quotes the name ends in the first line of it. -/
theorem exportedPaths_ghostLibrary :
    Dart.exportedPaths (fileText (ghostLibrary.review.contract.header "//")
      (Dart.barrel (.ofName "acme") ghostLibrary.review.contract))
      = [some "src/ghost.dart", some "src/bridge.dart"] := by
  -- The name of the library takes up three lines, and the second one is a directive.
  have htext : inLines (Dart.barrel (.ofName "acme") ghostLibrary.review.contract)
      = inLines ["", "/// Platform bridge for the `Acme"]
        ++ ("export 'src/ghost.dart';".toList ++ ['\n']
        ++ (inLines ["//` assembly.", "library acme;", ""]
        ++ ("export 'src/bridge.dart';".toList ++ ['\n'] ++ []))) := by
    decide +kernel
  have hreads : Dart.literalRules.Reads Dart.exportMark Dart.IsOneLine
      (inLines (Dart.barrel (.ofName "acme") ghostLibrary.review.contract))
      ["src/ghost.dart".toList, "src/bridge.dart".toList] := by
    rw [htext]
    refine .passes (passes_inLines ?_) (Dart.reads_directive "export " "src/ghost.dart"
      Dart.opens_export (all_fixed rfl) (by simp) _ _ (.passes (passes_inLines ?_)
        (Dart.reads_directive "export " "src/bridge.dart" Dart.opens_export (all_fixed rfl)
          (by simp) _ _ .nil)))
    · exact List.forall_mem_cons.mpr ⟨passesLine_fixed rfl, List.forall_mem_singleton.mpr
        (passesLine_note "" "/ Platform bridge for the `Acme")⟩
    · simp only [List.forall_mem_cons]
      exact ⟨passesLine_note "" "` assembly.", passesLine_fixed rfl, passesLine_fixed rfl,
        List.forall_mem_nil _⟩
  exact Contract.literals_fileText _ _ ["src/ghost.dart", "src/bridge.dart"] hreads
    (List.forall_mem_cons.mpr ⟨all_fixed rfl, List.forall_mem_singleton.mpr (all_fixed rfl)⟩)

/-- The name of a library can add an export of a file that is not there. -/
theorem exists_export_without_file : ghostLibrary.validate = .ok ghostLibrary.review
    ∧ ghostLibrary.review.report.hasErrors = false
    ∧ (PackageIdentity.ofName "acme").check = .ok ()
    ∧ ∃ b, ghostLibrary.review.contract.bundle (.ofName "acme") = .ok b
      ∧ (∃ library ∈ b.files, library.path = "lib/acme.dart"
        ∧ some "src/ghost.dart" ∈ Dart.exportedPaths library.text)
      ∧ ∀ file ∈ b.files, file.path ≠ "lib/src/ghost.dart" := by
  have h : ghostLibrary.validate = .ok ghostLibrary.review := by
    rw [validate_eq_ok_iff]
    exact ⟨by decide +kernel, rfl⟩
  have hrenders : ghostLibrary.review.contract.Renders (.ofName "acme") :=
    ⟨nofun, nofun, nofun, nofun, by decide +kernel, by decide +kernel, by decide +kernel⟩
  rcases (Contract.exists_bundle_iff _ _).mpr hrenders with ⟨b, hb⟩
  rcases Contract.mem_of_common _ _ b hb with ⟨_, _, hlibrary, _⟩
  refine ⟨h, by decide +kernel, by decide +kernel, b, hb, ⟨_, hlibrary, rfl, ?_⟩,
    fun file hfile hpath => ?_⟩
  · rw [exportedPaths_ghostLibrary]
    exact List.mem_cons_self
  · have hmem := (Contract.exists_file_iff _ _ b hb _).mp ⟨file, hfile, hpath⟩
    exact absurd hmem (by decide +kernel)

end Library

end PlatformBridge
