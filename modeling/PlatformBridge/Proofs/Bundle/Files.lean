import PlatformBridge.Bundle.Basic
import PlatformBridge.Proofs.Contract.Document
import PlatformBridge.Proofs.Files.Paths
import PlatformBridge.Proofs.Json.Written
import PlatformBridge.Proofs.Results
import PlatformBridge.Proofs.Spelling.Case

/-!
# The Files of a Package

A package has the files that its contract asks for, each under a path of its
own. Which paths these are can be told without rendering anything, and so can
whether there is a package at all: every part of the contract has to be laid out
without two members of one name, the contract must not nest too deep, and the
paths must be distinct.

Every path is made of names alone, whatever the contract calls its types,
because letter case leaves nothing of a type name but letters, digits and
underscores. `IsLocation` lists the places where a file can be, segment by
segment. This says more than that a path is safe: it tells which directories
there are, and so in which order the files of different directories come.

What is proved about single files starts from membership in a package. The
lemmas `mem_of_common`, `mem_of_dartService` and so on give it for each kind of
file, and the order in which the files are written does not matter there.

`IsOrderly` collects what writing relies on, so that nothing about the way a
package is rendered is needed once it comes to disk. `outline` is a family of
small contracts in which all depends on the names of types; examples and
counterexamples of later files are taken from it.

## Main definitions

* `Contract.paths`: The paths of the files of a package.
* `Contract.header`: The header of the files of a package.
* `Contract.Renders`: A contract of which there is a package.
* `Contract.IsLocation`: Where the files of a package are.
* `Contract.outline`: Contracts in which all depends on the names of the types.
* `Bundle.IsOrderly`: A package as it is rendered.

## Theorems

* `Contract.files_eq_ok`: How the files of a package are made.
* `Contract.map_path_of_files`: The files have these paths.
* `Contract.bundle_eq_ok`: What is in a package.
* `Contract.exists_bundle_iff`: When there is a package.
* `Contract.mem_of_common`, `Contract.mem_of_dartService`,
  `Contract.mem_of_nativeService`, `Contract.mem_of_dartData`: Files that a
  package has.
* `Contract.exists_location_of_mem_paths`, `Contract.isNamed_of_mem_paths`:
  Paths are made of names.
* `Contract.isOrderly_of_bundle`: A package that is rendered is orderly.
-/

namespace PlatformBridge

/-- No name is found twice if the names are distinct and none of them was seen before. -/
theorem firstRepeated?_eq_none_iff (seen names : List String) :
    firstRepeated? seen names = none ↔ names.Nodup ∧ ∀ name ∈ names, name ∉ seen := by
  induction names generalizing seen with
  | nil => simp [firstRepeated?]
  | cons name rest ih =>
      rw [firstRepeated?, List.nodup_cons, List.forall_mem_cons]
      by_cases hseen : name ∈ seen
      · rw [if_pos (List.contains_iff_mem.mpr hseen)]
        simp [hseen]
      · rw [if_neg (fun h => hseen (List.contains_iff_mem.mp h)), ih]
        constructor
        · rintro ⟨hrest, hnew⟩
          refine ⟨⟨fun hmem => hnew name hmem List.mem_cons_self, hrest⟩, hseen,
            fun other hother hmem => hnew other hother (List.mem_cons_of_mem name hmem)⟩
        · rintro ⟨⟨hname, hrest⟩, _, hnew⟩
          refine ⟨hrest, fun other hother hmem => ?_⟩
          rcases List.mem_cons.mp hmem with rfl | hmem
          · exact hname hother
          · exact hnew other hother hmem

/-- Names that have to be distinct are. -/
theorem requireDistinct_eq_ok (side : Side) (scope : String) (names : List String) (u : Unit) :
    requireDistinct side scope names = .ok u ↔ names.Nodup := by
  have hnone : firstRepeated? [] names = none ↔ names.Nodup :=
    (firstRepeated?_eq_none_iff [] names).trans (and_iff_left fun _ _ => List.not_mem_nil)
  rw [← hnone, requireDistinct]
  cases firstRepeated? [] names with
  | none => simp
  | some name => simp

namespace Contract

variable (c : Contract) (package : PackageIdentity)

/-- The paths of the files of a package, in the order in which they are rendered. -/
def paths : List String :=
  ["pubspec.yaml", "lib/" ++ package.name ++ ".dart", "lib/src/bridge.dart", "native/mod.rs",
    "native/data.rs", "native/contract.json"]
  ++ (c.services.flatMap fun s =>
    ["lib/src/" ++ Dart.serviceFile s.name, Native.serviceFile s.name])
  ++ c.dataTypes.map fun d => "lib/src/" ++ Dart.dataFile d.name

/-- The files of a service, on either side. -/
def serviceFiles (header : String) (s : Service) : Except GenerationError (List GeneratedFile) := do
  return [← dartService header s, ← nativeService header s]

section Rendering

variable (header : String)

theorem dartService_eq_ok (s : Service) (f : GeneratedFile) :
    dartService header s = .ok f ↔ ∃ p, Dart.Proxy.ofService s = .ok p
      ∧ ⟨"lib/src/" ++ Dart.serviceFile s.name, .dart, fileText header p.lines⟩ = f :=
  Results.map_eq_ok

theorem nativeService_eq_ok (s : Service) (f : GeneratedFile) :
    nativeService header s = .ok f ↔ ∃ t, Native.Stub.ofService s = .ok t
      ∧ ⟨Native.serviceFile s.name, .native, fileText header t.lines⟩ = f :=
  Results.map_eq_ok

theorem dartData_eq_ok (d : DataType) (f : GeneratedFile) :
    c.dartData header d = .ok f ↔ ∃ k, Dart.DataClass.ofDataType c d = .ok k
      ∧ ⟨"lib/src/" ++ Dart.dataFile d.name, .dart, fileText header k.lines⟩ = f :=
  Results.map_eq_ok

theorem serviceFiles_eq_ok (s : Service) (fs : List GeneratedFile) :
    serviceFiles header s = .ok fs ↔ ∃ f g, dartService header s = .ok f
      ∧ nativeService header s = .ok g ∧ [f, g] = fs := by
  simp only [serviceFiles, Results.bind_eq_ok]
  constructor
  · rintro ⟨f, hf, g, hg, hpure⟩
    cases hpure
    exact ⟨f, g, hf, hg, rfl⟩
  · rintro ⟨f, g, hf, hg, rfl⟩
    exact ⟨f, hf, g, hg, rfl⟩

end Rendering

/-- The header of the files of a package. -/
def header (comment : String) : String := fileHeader comment (c.fingerprint.short headerDigits)

/-- The files of a package come in the order of its parts: those that every package has, then
    services, then data types. There are none unless all of them can be laid out. -/
theorem files_eq_ok (files : List GeneratedFile) :
    c.files package = .ok files ↔ ∃ data document services types,
      Native.dataModule c = .ok data ∧ Json.indentedCanonical? c.toJson = some document
      ∧ c.services.mapM (serviceFiles (c.header "//")) = .ok services
      ∧ c.dataTypes.mapM (c.dartData (c.header "//")) = .ok types
      ∧ [⟨"pubspec.yaml", .dart, fileText (c.header "#") (Dart.pubspec package)⟩,
          ⟨"lib/" ++ package.name ++ ".dart", .dart,
            fileText (c.header "//") (Dart.barrel package c)⟩,
          ⟨"lib/src/bridge.dart", .dart, fileText (c.header "//") Dart.bridge⟩,
          ⟨"native/mod.rs", .native, fileText (c.header "//") (Native.moduleRoot c)⟩,
          ⟨"native/data.rs", .native, fileText (c.header "//") data⟩,
          ⟨"native/contract.json", .native, document⟩] ++ services.flatten ++ types = files := by
  unfold Contract.files
  simp only [Results.bind_eq_ok, Results.mapError_eq_ok]
  constructor
  · rintro ⟨data, hdata, h⟩
    cases hdocument : Json.indentedCanonical? c.toJson with
    | none =>
        rw [hdocument] at h
        cases h
    | some document =>
        rw [hdocument] at h
        simp only [Results.bind_eq_ok, Results.mapError_eq_ok] at h
        rcases h with ⟨services, hservices, types, htypes, hpure⟩
        cases hpure
        exact ⟨data, document, services, types, hdata, rfl, hservices, htypes, rfl⟩
  · rintro ⟨data, document, services, types, hdata, hdocument, hservices, htypes, rfl⟩
    refine ⟨data, hdata, ?_⟩
    rw [hdocument]
    simp only [Results.bind_eq_ok, Results.mapError_eq_ok]
    exact ⟨services, hservices, types, htypes, rfl⟩

/-- The files of a package have the paths that can be told without rendering. -/
theorem map_path_of_files (files : List GeneratedFile) (h : c.files package = .ok files) :
    files.map (·.path) = c.paths package := by
  rcases (c.files_eq_ok package files).mp h with
    ⟨data, document, services, types, _, _, hservices, htypes, rfl⟩
  have hservicePaths : services.flatten.map (·.path) = c.services.flatMap fun s =>
      ["lib/src/" ++ Dart.serviceFile s.name, Native.serviceFile s.name] := by
    rw [List.map_flatten, List.flatMap]
    refine congrArg _ (Results.map_of_mapM_eq_ok _ _ _ _ (fun s fs hfs => ?_) services hservices)
    rcases (serviceFiles_eq_ok _ s fs).mp hfs with ⟨f, g, hf, hg, rfl⟩
    rcases (dartService_eq_ok _ s f).mp hf with ⟨p, _, rfl⟩
    rcases (nativeService_eq_ok _ s g).mp hg with ⟨t, _, rfl⟩
    rfl
  have htypePaths : types.map (·.path) = c.dataTypes.map fun d =>
      "lib/src/" ++ Dart.dataFile d.name := by
    refine Results.map_of_mapM_eq_ok _ _ _ _ (fun d f hf => ?_) types htypes
    rcases (c.dartData_eq_ok _ d f).mp hf with ⟨k, _, rfl⟩
    rfl
  rw [List.map_append, List.map_append, hservicePaths, htypePaths]
  rfl

/-- The files of a package in their order. -/
def inOrder (files : List GeneratedFile) : List GeneratedFile :=
  files.mergeSort fun a b => a.path ≤ b.path

theorem mem_inOrder (files : List GeneratedFile) (f : GeneratedFile) :
    f ∈ inOrder files ↔ f ∈ files :=
  (List.mergeSort_perm _ _).mem_iff

/-- Sorting the files does not change which paths they have. -/
theorem map_path_perm (files : List GeneratedFile) (h : c.files package = .ok files) :
    ((inOrder files).map (·.path)).Perm (c.paths package) := by
  rw [← c.map_path_of_files package files h]
  exact (List.mergeSort_perm _ _).map _

/-- A package is made of its files if their paths are distinct and none is that of the manifest. -/
theorem bundle_eq_ok (b : Bundle) : c.bundle package = .ok b ↔ ∃ files,
    c.files package = .ok files ∧ (c.paths package).Nodup
    ∧ Manifest.fileName ∉ c.paths package
    ∧ ⟨⟨toolName, toolVersion, package, c.fingerprint, (inOrder files).map GeneratedFile.entry⟩,
        inOrder files⟩ = b := by
  unfold bundle
  rw [Results.bind_eq_ok]
  refine exists_congr fun files => and_congr_right fun hfiles => ?_
  have hperm := c.map_path_perm package files hfiles
  -- The check goes through the sorted paths, with the name of the manifest for one that was seen.
  have hdistinct : repeatedPath? (inOrder files) = none
      ↔ (c.paths package).Nodup ∧ Manifest.fileName ∉ c.paths package := by
    rw [repeatedPath?, firstRepeated?_eq_none_iff, hperm.nodup_iff]
    refine and_congr_right fun _ => ?_
    simp only [List.mem_singleton, hperm.mem_iff]
    exact ⟨fun h hmem => h _ hmem rfl, fun h path hpath heq => h (heq ▸ hpath)⟩
  rw [← and_assoc, ← hdistinct]
  unfold inOrder
  dsimp only
  cases repeatedPath? (files.mergeSort fun a b => a.path ≤ b.path) with
  | some path =>
      constructor
      · intro h
        cases h
      · rintro ⟨h, _⟩
        cases h
  | none =>
      constructor
      · intro h
        cases h
        exact ⟨rfl, rfl⟩
      · rintro ⟨_, rfl⟩
        rfl

/-- A service has its files if it can be laid out on either side. -/
theorem exists_serviceFiles_iff (header : String) (s : Service) :
    (∃ fs, serviceFiles header s = .ok fs)
      ↔ (∃ p, Dart.Proxy.ofService s = .ok p) ∧ ∃ t, Native.Stub.ofService s = .ok t := by
  simp only [serviceFiles_eq_ok, dartService_eq_ok, nativeService_eq_ok]
  constructor
  · rintro ⟨_, f, g, ⟨p, hp, _⟩, ⟨t, ht, _⟩, _⟩
    exact ⟨⟨p, hp⟩, t, ht⟩
  · rintro ⟨⟨p, hp⟩, t, ht⟩
    exact ⟨_, _, _, ⟨p, hp, rfl⟩, ⟨t, ht, rfl⟩, rfl⟩

theorem exists_dartData_iff (header : String) (d : DataType) :
    (∃ f, c.dartData header d = .ok f) ↔ ∃ k, Dart.DataClass.ofDataType c d = .ok k := by
  simp only [dartData_eq_ok]
  exact ⟨fun ⟨_, k, hk, _⟩ => ⟨k, hk⟩, fun ⟨k, hk⟩ => ⟨_, k, hk, rfl⟩⟩

/-- A contract of which there is a package: all its parts can be laid out, it nests little enough to
    be written down, and no two files would get one path. -/
structure Renders : Prop where
  proxy : ∀ s ∈ c.services, ∃ p, Dart.Proxy.ofService s = .ok p
  stub : ∀ s ∈ c.services, ∃ t, Native.Stub.ofService s = .ok t
  item : ∀ d ∈ c.dataTypes, ∃ i, Native.DataItem.ofDataType c d = .ok i
  dataClass : ∀ d ∈ c.dataTypes, ∃ k, Dart.DataClass.ofDataType c d = .ok k
  shallow : c.toJson.depth ≤ Json.maxDepth
  distinct : (c.paths package).Nodup
  free : Manifest.fileName ∉ c.paths package

theorem exists_bundle_iff : (∃ b, c.bundle package = .ok b) ↔ c.Renders package := by
  -- Each part of the package is there on a condition of its own.
  have hdata : (∃ data, Native.dataModule c = .ok data)
      ↔ ∀ d ∈ c.dataTypes, ∃ i, Native.DataItem.ofDataType c d = .ok i := by
    rw [← Results.exists_mapM_eq_ok_iff]
    simp only [Native.dataModule, Results.map_eq_ok]
    exact ⟨fun ⟨_, items, hitems, _⟩ => ⟨items, hitems⟩,
      fun ⟨items, hitems⟩ => ⟨_, items, hitems, rfl⟩⟩
  have hdocument : (∃ document, Json.indentedCanonical? c.toJson = some document)
      ↔ c.toJson.depth ≤ Json.maxDepth := by
    simp only [Json.indentedCanonical?_eq_some_iff _ c.isDocument]
    exact ⟨fun ⟨_, hdepth, _⟩ => hdepth, fun hdepth => ⟨_, hdepth, rfl⟩⟩
  have hservices := Results.exists_mapM_eq_ok_iff (serviceFiles (c.header "//")) c.services
  have htypes := Results.exists_mapM_eq_ok_iff (c.dartData (c.header "//")) c.dataTypes
  simp only [exists_serviceFiles_iff] at hservices
  simp only [exists_dartData_iff] at htypes
  constructor
  · rintro ⟨b, hb⟩
    rcases (c.bundle_eq_ok package b).mp hb with ⟨files, hfiles, hdistinct, hfree, _⟩
    rcases (c.files_eq_ok package files).mp hfiles with
      ⟨data, document, services, types, h₁, h₂, h₃, h₄, _⟩
    have hlaidOut := hservices.mp ⟨services, h₃⟩
    exact ⟨fun s hs => (hlaidOut s hs).1, fun s hs => (hlaidOut s hs).2, hdata.mp ⟨data, h₁⟩,
      htypes.mp ⟨types, h₄⟩, hdocument.mp ⟨document, h₂⟩, hdistinct, hfree⟩
  · rintro ⟨hproxy, hstub, hitem, hclass, hshallow, hdistinct, hfree⟩
    rcases hdata.mpr hitem with ⟨data, h₁⟩
    rcases hdocument.mpr hshallow with ⟨document, h₂⟩
    rcases hservices.mpr fun s hs => ⟨hproxy s hs, hstub s hs⟩ with ⟨services, h₃⟩
    rcases htypes.mpr hclass with ⟨types, h₄⟩
    have hfiles := (c.files_eq_ok package _).mpr
      ⟨data, document, services, types, h₁, h₂, h₃, h₄, rfl⟩
    exact ⟨_, (c.bundle_eq_ok package _).mpr ⟨_, hfiles, hdistinct, hfree, rfl⟩⟩

section Members

variable (b : Bundle) (h : c.bundle package = .ok b)

include h

/-- A package has the files that it has whatever its types are. -/
theorem mem_of_common : ∃ data, Native.dataModule c = .ok data
    ∧ ⟨"lib/" ++ package.name ++ ".dart", .dart,
        fileText (c.header "//") (Dart.barrel package c)⟩ ∈ b.files
    ∧ ⟨"native/mod.rs", .native, fileText (c.header "//") (Native.moduleRoot c)⟩ ∈ b.files
    ∧ ⟨"native/data.rs", .native, fileText (c.header "//") data⟩ ∈ b.files := by
  rcases (c.bundle_eq_ok package b).mp h with ⟨files, hfiles, _, _, rfl⟩
  rcases (c.files_eq_ok package files).mp hfiles with
    ⟨data, document, services, types, hdata, _, _, _, rfl⟩
  exact ⟨data, hdata, (mem_inOrder _ _).mpr (by simp), (mem_inOrder _ _).mpr (by simp),
    (mem_inOrder _ _).mpr (by simp)⟩

theorem mem_of_serviceFiles (s : Service) (hs : s ∈ c.services) (fs : List GeneratedFile)
    (hfs : serviceFiles (c.header "//") s = .ok fs) (f : GeneratedFile) (hf : f ∈ fs) :
    f ∈ b.files := by
  rcases (c.bundle_eq_ok package b).mp h with ⟨files, hfiles, _, _, rfl⟩
  rcases (c.files_eq_ok package files).mp hfiles with
    ⟨data, document, services, types, _, _, hservices, _, rfl⟩
  have hflatten := List.mem_flatten_of_mem
    (Results.mem_of_mapM_eq_ok _ _ services hservices s hs _ hfs) hf
  exact (mem_inOrder _ _).mpr (List.mem_append_left _ (List.mem_append_right _ hflatten))

/-- A package has the Dart file of each service. -/
theorem mem_of_dartService (s : Service) (hs : s ∈ c.services) (f : GeneratedFile)
    (hf : dartService (c.header "//") s = .ok f) : f ∈ b.files := by
  rcases ((c.exists_bundle_iff package).mp ⟨b, h⟩).stub s hs with ⟨t, ht⟩
  exact c.mem_of_serviceFiles package b h s hs _ ((serviceFiles_eq_ok _ s _).mpr
    ⟨f, _, hf, (nativeService_eq_ok _ s _).mpr ⟨t, ht, rfl⟩, rfl⟩) f List.mem_cons_self

/-- A package has the native file of each service. -/
theorem mem_of_nativeService (s : Service) (hs : s ∈ c.services) (f : GeneratedFile)
    (hf : nativeService (c.header "//") s = .ok f) : f ∈ b.files := by
  rcases ((c.exists_bundle_iff package).mp ⟨b, h⟩).proxy s hs with ⟨p, hp⟩
  exact c.mem_of_serviceFiles package b h s hs _ ((serviceFiles_eq_ok _ s _).mpr
    ⟨_, f, (dartService_eq_ok _ s _).mpr ⟨p, hp, rfl⟩, hf, rfl⟩) f
      (List.mem_cons_of_mem _ List.mem_cons_self)

/-- A package has the Dart file of each data type. -/
theorem mem_of_dartData (d : DataType) (hd : d ∈ c.dataTypes) (f : GeneratedFile)
    (hf : c.dartData (c.header "//") d = .ok f) : f ∈ b.files := by
  rcases (c.bundle_eq_ok package b).mp h with ⟨files, hfiles, _, _, rfl⟩
  rcases (c.files_eq_ok package files).mp hfiles with
    ⟨data, document, services, types, _, _, _, htypes, rfl⟩
  exact (mem_inOrder _ _).mpr
    (List.mem_append_right _ (Results.mem_of_mapM_eq_ok _ _ types htypes d hd f hf))

end Members

/-- A contract with a service that offers nothing and enumerations with one member each. -/
def outline (service : TypeName) (enumerations : List TypeName) : Contract where
  assembly := "Acme"
  services := [⟨service, [], [], .ofList []⟩]
  dataTypes := enumerations.map fun name => ⟨name, .enumeration ["X"]⟩

/-- In such a contract only the names of the types can be in each other's way. -/
theorem renders_outline (service : TypeName) (enumerations : List TypeName)
    (hshallow : (outline service enumerations).toJson.depth ≤ Json.maxDepth)
    (hdistinct : ((outline service enumerations).paths package).Nodup)
    (hfree : Manifest.fileName ∉ (outline service enumerations).paths package) :
    (outline service enumerations).Renders package := by
  refine ⟨fun s hs => ?_, fun s hs => ?_, fun d hd => ?_, fun d hd => ?_, hshallow, hdistinct,
    hfree⟩
  · rw [List.mem_singleton.mp hs]
    exact ⟨_, rfl⟩
  · rw [List.mem_singleton.mp hs]
    exact ⟨_, rfl⟩
  · rcases List.mem_map.mp hd with ⟨name, _, rfl⟩
    exact ⟨_, rfl⟩
  · rcases List.mem_map.mp hd with ⟨name, _, rfl⟩
    exact ⟨_, rfl⟩

section Steps

/-- The file of a type has a name without slashes, whatever the type is called. -/
theorem isStep_stem (name : TypeName) (ending : String) (hending : '/' ∉ ending.toList)
    (hlength : 2 < ending.toList.length) :
    Path.IsStep (Spelling.snakeCase name.simple ++ ending) := by
  refine Path.isStep_append _ _ (fun hmem => ?_) hending hlength
  rw [Spelling.snakeCase, String.toList_ofList] at hmem
  rcases Spelling.mem_snakeChars _ _ hmem with h | h | h <;> exact absurd h (by decide)

/-- The name of a package has nothing but small letters, digits and underscores in it. -/
theorem isNameChar_of_check (hcheck : package.check = .ok ()) :
    ∀ c ∈ package.name.toList, isNameChar c = true := by
  have hdefect : nameDefect? package.name = none := by
    rcases Results.bind_eq_ok.mp hcheck with ⟨⟨⟩, hname, _⟩
    unfold checkName at hname
    split at hname
    · cases hname
    · assumption
  unfold nameDefect? at hdefect
  split at hdefect
  · cases hdefect
  · rename_i first rest heq
    rw [heq]
    refine List.all_eq_true.mp ?_
    cases hall : (first :: rest).all isNameChar with
    | true => rfl
    | false =>
        -- Whatever else is wrong with the name, this is.
        rw [hall, Bool.not_false, if_pos rfl] at hdefect
        split at hdefect
        · cases hdefect
        · split at hdefect <;> cases hdefect

theorem isStep_packageName (hcheck : package.check = .ok ()) :
    Path.IsStep (package.name ++ ".dart") := by
  refine Path.isStep_append _ _ (fun hmem => ?_) (by decide) (by decide)
  exact absurd (isNameChar_of_check package hcheck _ hmem) (by decide)

end Steps

/-- The names that lead to the files of a package. -/
inductive IsLocation : List String → Prop where
  | description : IsLocation ["pubspec.yaml"]
  | library (file : String) : IsLocation ["lib", file]
  | shared : IsLocation ["lib", "src", "bridge.dart"]
  | service (file : String) : IsLocation ["lib", "src", "services", file]
  | data (file : String) : IsLocation ["lib", "src", "data", file]
  | native (file : String) : IsLocation ["native", file]

/-- The paths of the files of a package are made of the names that lead to them. -/
theorem exists_location_of_mem_paths (hcheck : package.check = .ok ()) (path : String)
    (hpath : path ∈ c.paths package) : ∃ segments : List String, IsLocation segments
      ∧ (∀ s ∈ segments, Path.IsStep s) ∧ path = "/".intercalate segments := by
  have hplain : ∀ s ∈ ["pubspec.yaml", "lib", "src", "bridge.dart", "native", "mod.rs", "data.rs",
      "contract.json", "services", "data"], Path.IsStep s := by
    have hall : ∀ s ∈ ["pubspec.yaml", "lib", "src", "bridge.dart", "native", "mod.rs", "data.rs",
        "contract.json", "services", "data"],
        '/' ∉ s.toList ∧ Path.isIdle s = false ∧ s ≠ ".." := by decide
    exact fun s hs => ⟨(hall s hs).1, (hall s hs).2.1, (hall s hs).2.2⟩
  simp only [paths, List.mem_append, List.mem_cons, List.not_mem_nil, or_false, List.mem_flatMap,
    List.mem_map] at hpath
  have hname := isStep_packageName package hcheck
  have hdart := fun name => isStep_stem name ".dart" (by decide) (by decide)
  have hnative := fun name => isStep_stem name ".rs" (by decide) (by decide)
  -- The paths are gone through in the order in which they are listed: six files that every package
  -- has, two for each service, and one for each data type.
  rcases hpath with ((rfl | rfl | rfl | rfl | rfl | rfl) | ⟨s, _, rfl | rfl⟩) | ⟨d, _, rfl⟩
  · exact ⟨_, .description, by simp [hplain], rfl⟩
  · exact ⟨_, .library (package.name ++ ".dart"), by simp [hplain, hname],
      by rw [String.append_assoc]; rfl⟩
  · exact ⟨_, .shared, by simp [hplain], rfl⟩
  · exact ⟨_, .native "mod.rs", by simp [hplain], rfl⟩
  · exact ⟨_, .native "data.rs", by simp [hplain], rfl⟩
  · exact ⟨_, .native "contract.json", by simp [hplain], rfl⟩
  · refine ⟨_, .service (Dart.fileStem s.name ++ ".dart"),
      by simp [hplain, Dart.fileStem, hdart s.name], ?_⟩
    rw [← String.toList_inj]
    simp [Dart.serviceFile]
  · refine ⟨_, .native (Native.fileStem s.name ++ ".rs"),
      by simp [hplain, Native.fileStem, hnative s.name], ?_⟩
    rw [← String.toList_inj]
    simp [Native.serviceFile]
  · refine ⟨_, .data (Dart.fileStem d.name ++ ".dart"),
      by simp [hplain, Dart.fileStem, hdart d.name], ?_⟩
    rw [← String.toList_inj]
    simp [Dart.dataFile]

/-- The paths of the files of a package are made of names. -/
theorem isNamed_of_mem_paths (hcheck : package.check = .ok ()) (path : String)
    (hpath : path ∈ c.paths package) : (Path.ofText path).IsNamed := by
  rcases c.exists_location_of_mem_paths package hcheck path hpath with
    ⟨segments, hlocation, hsteps, rfl⟩
  refine Path.isNamed_ofText_intercalate segments ?_ hsteps
  cases hlocation <;> exact List.cons_ne_nil _ _

end Contract

/-- A package as it is rendered: its paths are made of names, they are distinct, and the manifest,
    which has a name of its own, lists them. -/
structure Bundle.IsOrderly (b : Bundle) : Prop where
  named : ∀ a ∈ b.files, (Path.ofText a.path).IsNamed
  distinct : (b.files.map (·.path)).Nodup
  free : Manifest.fileName ∉ b.files.map (·.path)
  listed : b.manifest.files = b.files.map GeneratedFile.entry

/-- The paths of a package are those that can be told without rendering, in some order. -/
theorem Contract.path_perm_of_bundle (c : Contract) (package : PackageIdentity) (b : Bundle)
    (h : c.bundle package = .ok b) : (b.files.map (·.path)).Perm (c.paths package) := by
  rcases (c.bundle_eq_ok package b).mp h with ⟨files, hfiles, _, _, rfl⟩
  exact c.map_path_perm package files hfiles

/-- So a package has a file under a path just if the path is one of these. -/
theorem Contract.exists_file_iff (c : Contract) (package : PackageIdentity) (b : Bundle)
    (h : c.bundle package = .ok b) (path : String) :
    (∃ a ∈ b.files, a.path = path) ↔ path ∈ c.paths package := by
  rw [← (c.path_perm_of_bundle package b h).mem_iff, List.mem_map]

/-- A package that is rendered is orderly, whatever the contract calls its types. -/
theorem Contract.isOrderly_of_bundle (c : Contract) (package : PackageIdentity)
    (hcheck : package.check = .ok ()) (b : Bundle) (h : c.bundle package = .ok b) :
    b.IsOrderly := by
  have hperm := c.path_perm_of_bundle package b h
  rcases (c.bundle_eq_ok package b).mp h with ⟨files, hfiles, hdistinct, hfree, rfl⟩
  refine ⟨fun a ha => ?_, hperm.nodup_iff.mpr hdistinct, fun hmem => hfree (hperm.mem_iff.mp hmem),
    rfl⟩
  exact c.isNamed_of_mem_paths package hcheck _ (hperm.mem_iff.mp (List.mem_map_of_mem ha))

end PlatformBridge
