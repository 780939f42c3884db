import PlatformBridge.Proofs.Bundle.Files
import PlatformBridge.Proofs.Native.Identifier

/-!
# Names of Types in a Package

Types are declared by their simple names in Pascal case, and kept apart by their
simple names in snake case, which the paths of their files are made of. The two
spellings cut a name into words at different places. So files of their own do
not give two types names of their own, and nothing at all keeps a service from
the name of a data type, as their files are in different directories.

What the types of a package are called is told here for every package: they have
names of their own just if their simple names differ in Pascal case, as they do
for data types that are in Pascal case already.

The names are read off the layouts that the files are written from. A package
keeps texts only, so `DeclaresTypes` gives the layouts beside it, and says of
each that it is made from its service or data type and that the file of the
package is its text. Once that is there, everything else is about lists of
names.

## Main definitions

* `Contract.DeclaresTypes`: What the files of a package declare.

## Theorems

* `Native.dataModule_eq_ok`: The module of the data types and its declarations.
* `Native.DataItem.name_of_ofDataType`, `Dart.DataClass.names_of_ofDataType`,
  `Dart.Proxy.names_of_ofService`: The names that layouts give.
* `Contract.exists_declaresTypes_of_bundle`: Every package has its declarations.
* `Contract.DeclaresTypes.map_name_items`,
  `Contract.DeclaresTypes.map_name_dart`: The names on either side.
* `Contract.pairwise_snakeCase_of_bundle`: How a package keeps types apart.
* `Contract.typeNames_of_bundle`: When the types of a package have names of
  their own.
* `Contract.exists_bundle_not_nodup`: A package in which types share names.
-/

namespace PlatformBridge

namespace Native

/-- A module is written from the declarations of the data types, in their order. What is proved
    about the module is proved about its declarations, which are given by this. -/
theorem dataModule_eq_ok (c : Contract) (lines : List String) : dataModule c = .ok lines
    ↔ ∃ items, c.dataTypes.mapM (DataItem.ofDataType c) = .ok items ∧ dataLines items = lines :=
  Results.map_eq_ok

/-- A data type is declared by its simple name on the native side. The layout is made under
    conditions on its members, so that the name is the same in all cases is said once here. -/
theorem DataItem.name_of_ofDataType (c : Contract) (d : DataType) (i : DataItem)
    (h : ofDataType c d = .ok i) : i.name = typeIdentifier d.name := by
  unfold ofDataType at h
  split at h <;> rcases Results.map_eq_ok.mp h with ⟨_, _, rfl⟩ <;> dsimp only

end Native

namespace Dart

/-- So it is on the Dart side, where the layout keeps its full name too: the imports of the file
    need it. -/
theorem DataClass.names_of_ofDataType (c : Contract) (d : DataType) (k : DataClass)
    (h : ofDataType c d = .ok k) :
    k.name = typeIdentifier d.name ∧ k.typeName = d.name := by
  unfold ofDataType at h
  split at h <;> rcases Results.map_eq_ok.mp h with ⟨_, _, rfl⟩ <;> exact ⟨by dsimp only, rfl⟩

/-- The class of a service is called by the simple name of the service. The layout keeps the service
    itself, and so the ids and comments in its file are those of the service it was made from. -/
theorem Proxy.names_of_ofService (s : Service) (p : Proxy) (h : ofService s = .ok p) :
    p.name = typeIdentifier s.name ∧ p.service = s := by
  simp only [ofService, Results.bind_eq_ok] at h
  rcases h with ⟨_, _, methods, _, hp⟩
  rw [← Except.ok.inj hp]
  exact ⟨by dsimp only, rfl⟩

end Dart

namespace Contract

variable (c : Contract) (package : PackageIdentity)

/-- What the files of a package declare: on the native side the data types, in one module, and on
    the Dart side the class of each service and data type, in a file that the library exports. -/
structure DeclaresTypes (b : Bundle) (items : List Native.DataItem) (proxies : List Dart.Proxy)
    (classes : List Dart.DataClass) : Prop where
  items_eq : c.dataTypes.mapM (Native.DataItem.ofDataType c) = .ok items
  proxies_eq : c.services.mapM Dart.Proxy.ofService = .ok proxies
  classes_eq : c.dataTypes.mapM (Dart.DataClass.ofDataType c) = .ok classes
  dataModule : ⟨"native/data.rs", .native, fileText (c.header "//") (Native.dataLines items)⟩
    ∈ b.files
  library : ⟨"lib/" ++ package.name ++ ".dart", .dart,
    fileText (c.header "//") (Dart.barrel package c)⟩ ∈ b.files
  proxyFile : ∀ p ∈ proxies, "src/" ++ Dart.serviceFile p.service.name ∈ Dart.exports c
    ∧ ⟨"lib/src/" ++ Dart.serviceFile p.service.name, .dart, fileText (c.header "//") p.lines⟩
      ∈ b.files
  classFile : ∀ k ∈ classes, "src/" ++ Dart.dataFile k.typeName ∈ Dart.exports c
    ∧ ⟨"lib/src/" ++ Dart.dataFile k.typeName, .dart, fileText (c.header "//") k.lines⟩ ∈ b.files

/-- Every package has its declarations. -/
theorem exists_declaresTypes_of_bundle (b : Bundle) (h : c.bundle package = .ok b) :
    ∃ items proxies classes, c.DeclaresTypes package b items proxies classes := by
  have hrenders := (c.exists_bundle_iff package).mp ⟨b, h⟩
  rcases c.mem_of_common package b h with ⟨data, hdata, hlibrary, _, hmodule⟩
  rcases (Native.dataModule_eq_ok c data).mp hdata with ⟨items, hitems, rfl⟩
  rcases (Results.exists_mapM_eq_ok_iff Dart.Proxy.ofService c.services).mpr hrenders.proxy with
    ⟨proxies, hproxies⟩
  rcases (Results.exists_mapM_eq_ok_iff (Dart.DataClass.ofDataType c) c.dataTypes).mpr
    hrenders.dataClass with ⟨classes, hclasses⟩
  refine ⟨items, proxies, classes, hitems, hproxies, hclasses, hmodule, hlibrary, fun p hp => ?_,
    fun k hk => ?_⟩
  · rcases Results.exists_of_mem_of_mapM_eq_ok _ _ proxies hproxies p hp with ⟨s, hs, hproxy⟩
    rw [(Dart.Proxy.names_of_ofService s p hproxy).2, Dart.exports, mem_sortNames]
    exact ⟨List.mem_append_left _ (List.mem_cons_of_mem _ (List.mem_map_of_mem hs)),
      c.mem_of_dartService package b h s hs _ ((dartService_eq_ok _ s _).mpr ⟨p, hproxy, rfl⟩)⟩
  · rcases Results.exists_of_mem_of_mapM_eq_ok _ _ classes hclasses k hk with ⟨d, hd, hclass⟩
    rw [(Dart.DataClass.names_of_ofDataType c d k hclass).2, Dart.exports, mem_sortNames]
    exact ⟨List.mem_append_right _ (List.mem_map_of_mem hd),
      c.mem_of_dartData package b h d hd _ ((c.dartData_eq_ok _ d _).mpr ⟨k, hclass, rfl⟩)⟩

namespace DeclaresTypes

variable (b : Bundle) (items : List Native.DataItem) (proxies : List Dart.Proxy)
variable (classes : List Dart.DataClass) (h : c.DeclaresTypes package b items proxies classes)

include h in
/-- The names that are declared on the native side. -/
theorem map_name_items : items.map (·.name)
    = c.dataTypes.map fun d => Native.typeIdentifier d.name :=
  Results.map_of_mapM_eq_ok _ _ _ _ (Native.DataItem.name_of_ofDataType c) items h.items_eq

include h in
/-- The names that are declared on the Dart side, services first. A service and a data type are
    spelled in one way, so they are compared like two data types. -/
theorem map_name_dart : proxies.map (·.name) ++ classes.map (·.name)
    = (c.services.map (·.name) ++ c.dataTypes.map (·.name)).map
      fun name => Spelling.pascalCase name.simple := by
  rw [List.map_append, List.map_map, List.map_map]
  congr 1
  · exact Results.map_of_mapM_eq_ok _ _ _ _
      (fun s p hp => (Dart.Proxy.names_of_ofService s p hp).1) proxies h.proxies_eq
  · exact Results.map_of_mapM_eq_ok _ _ _ _
      (fun d k hk => (Dart.DataClass.names_of_ofDataType c d k hk).1) classes h.classes_eq

include h in
/-- Data types have names of their own on the native side if their names differ in Pascal case,
    since escaping a word never gives the name of another type. -/
theorem nodup_items_iff : (items.map (·.name)).Nodup
    ↔ (c.dataTypes.map fun d => Spelling.pascalCase d.name.simple).Nodup := by
  rw [h.map_name_items, List.nodup_iff_pairwise_ne, List.nodup_iff_pairwise_ne,
    List.pairwise_map, List.pairwise_map]
  simp only [Native.typeIdentifier, ne_eq, Native.identifier_pascalCase_inj]

end DeclaresTypes

/-- A package keeps services apart, and data types, by their simple names in snake case. -/
theorem pairwise_snakeCase_of_bundle (b : Bundle) (h : c.bundle package = .ok b) :
    (c.services.map (·.name)).Pairwise
        (fun name other => Spelling.snakeCase name.simple ≠ Spelling.snakeCase other.simple)
      ∧ (c.dataTypes.map (·.name)).Pairwise
        (fun name other => Spelling.snakeCase name.simple ≠ Spelling.snakeCase other.simple) := by
  rcases (c.bundle_eq_ok package b).mp h with ⟨_, _, hdistinct, _, _⟩
  rw [paths, List.nodup_append, List.nodup_append] at hdistinct
  rcases hdistinct with ⟨⟨_, hservices, _⟩, htypes, _⟩
  constructor
  · rw [List.pairwise_map]
    refine (List.nodup_flatMap.mp hservices).2.imp fun hdisjoint heq => ?_
    refine hdisjoint List.mem_cons_self (List.mem_cons.mpr (Or.inl ?_))
    simp only [Dart.serviceFile, Dart.fileStem, heq]
  · rw [List.pairwise_map]
    refine (List.pairwise_map.mp htypes).imp fun hne heq => hne ?_
    simp only [Dart.dataFile, Dart.fileStem, heq]

/-- The data types of a package have names of their own on the native side just if their simple
    names differ in Pascal case, and the services and data types together on the Dart side. Among
    services, and among data types, only names that are cut into words at different places can get
    one name, and so no data types whose simple names are in Pascal case already. -/
theorem typeNames_of_bundle (b : Bundle) (h : c.bundle package = .ok b) :
    ∃ items proxies classes, c.DeclaresTypes package b items proxies classes
      ∧ ((items.map (·.name)).Nodup
        ↔ (c.dataTypes.map fun d => Spelling.pascalCase d.name.simple).Nodup)
      ∧ ((proxies.map (·.name) ++ classes.map (·.name)).Nodup
        ↔ ((c.services.map (·.name) ++ c.dataTypes.map (·.name)).map
          fun name => Spelling.pascalCase name.simple).Nodup)
      ∧ (∀ names ∈ [c.services.map (·.name), c.dataTypes.map (·.name)],
        names.Pairwise fun name other =>
          Spelling.pascalCase name.simple = Spelling.pascalCase other.simple →
            Spelling.CutOtherwise name.simple other.simple)
      ∧ ((∀ d ∈ c.dataTypes, Spelling.IsPascal d.name.simple) → (items.map (·.name)).Nodup) := by
  rcases c.exists_declaresTypes_of_bundle package b h with ⟨items, proxies, classes, hdeclares⟩
  rcases c.pairwise_snakeCase_of_bundle package b h with ⟨hservices, htypes⟩
  refine ⟨items, proxies, classes, hdeclares, hdeclares.nodup_items_iff, ?_, ?_, fun hplain => ?_⟩
  · rw [hdeclares.map_name_dart]
  · intro names hnames
    have hpairwise : names.Pairwise fun name other =>
        Spelling.snakeCase name.simple ≠ Spelling.snakeCase other.simple := by
      rcases List.mem_pair.mp hnames with rfl | rfl
      · exact hservices
      · exact htypes
    exact hpairwise.imp fun hne heq =>
      ⟨hne, Spelling.filter_snakeCase_of_pascalCase_eq _ _ heq⟩
  -- A name in Pascal case is its own spelling, so equal spellings are equal names.
  · rw [hdeclares.nodup_items_iff]
    rw [List.pairwise_map] at htypes
    refine List.pairwise_map.mpr (htypes.imp_of_mem fun hd he hne heq => hne ?_)
    rw [Spelling.pascalCase_of_isPascal _ (hplain _ hd),
      Spelling.pascalCase_of_isPascal _ (hplain _ he)] at heq
    rw [heq]

/-- Types with names of their own in Pascal case are declared once each. -/
theorem typeNames_of_alarm : ∃ b,
    (outline "Acme.Alarm" ["Acme.Bell", "Acme.Tone"]).bundle (.ofName "acme") = .ok b
    ∧ ∃ items proxies classes,
      (outline "Acme.Alarm" ["Acme.Bell", "Acme.Tone"]).DeclaresTypes (.ofName "acme") b items
        proxies classes
      ∧ (items.map (·.name)).Nodup ∧ (proxies.map (·.name) ++ classes.map (·.name)).Nodup := by
  have hrenders := renders_outline (.ofName "acme") "Acme.Alarm" ["Acme.Bell", "Acme.Tone"]
    (by decide) (by decide) (by decide)
  rcases (exists_bundle_iff _ _).mpr hrenders with ⟨b, hb⟩
  rcases typeNames_of_bundle _ (.ofName "acme") b hb with
    ⟨items, proxies, classes, hdeclares, hnative, hdart, _⟩
  exact ⟨b, hb, items, proxies, classes, hdeclares, hnative.mpr (by decide),
    hdart.mpr (by decide)⟩

/-- Two enumerations whose names are cut into words at different places, and a service in another
    namespace that is named like one of them, have a package in which types share their names. -/
theorem exists_bundle_not_nodup : ∃ b,
    (outline "Acme.Devices.AB" ["Acme.AB", "Acme.A_B"]).bundle (.ofName "acme") = .ok b
    ∧ ∃ items proxies classes,
      (outline "Acme.Devices.AB" ["Acme.AB", "Acme.A_B"]).DeclaresTypes (.ofName "acme") b items
        proxies classes
      ∧ ¬ (items.map (·.name)).Nodup ∧ ¬ (proxies.map (·.name) ++ classes.map (·.name)).Nodup := by
  have hrenders := renders_outline (.ofName "acme") "Acme.Devices.AB" ["Acme.AB", "Acme.A_B"]
    (by decide) (by decide) (by decide)
  rcases (exists_bundle_iff _ _).mpr hrenders with ⟨b, hb⟩
  rcases exists_declaresTypes_of_bundle _ (.ofName "acme") b hb with
    ⟨items, proxies, classes, hdeclares⟩
  refine ⟨b, hb, items, proxies, classes, hdeclares, ?_, ?_⟩
  · rw [hdeclares.nodup_items_iff]
    decide
  · rw [hdeclares.map_name_dart]
    decide

end Contract

end PlatformBridge
