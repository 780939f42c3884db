import PlatformBridge.Proofs.Bundle.Files
import PlatformBridge.Proofs.Native.Modules
import PlatformBridge.Proofs.Text.Letters

/-!
# The Module Root of a Package

A module that the module root declares is looked for in the file of its name.
The files of the services are named after the services in snake case, whatever
that gives, while the modules are made into identifiers. The two agree on a
service just if its name in snake case can be the name of a module, so the
module root fits the files of a package just if this holds of all its services.

An identifier is made in two ways. A keyword becomes a raw identifier, which is
the keyword as far as files are concerned; a word that cannot be raw gets an
underscore, which changes the name of the file that is looked for. So keywords
do no harm here, and those few words do.

What the module root declares is read off its text, and so its lines have to be
told apart. This is why the name of the library, which its header quotes, must
not have a line break in it.

## Main definitions

* `headerLines`: The lines of the header of a file.
* `Bundle.HasModule`: A package with the file of a module.

## Theorems

* `toList_fileText`: The lines of a file.
* `Contract.declaredModules_moduleRoot`: The modules that the module root of a
  package declares.
* `Contract.hasModule_iff`: The modules that a package has files of.
* `Contract.modules_of_bundle`: When the two are the same.
* `Contract.exists_hasModule_not_declared`: A file without a module.
-/

namespace PlatformBridge

/-- A digest is written in digits. -/
theorem Digest.all_short {p : Char → Bool} (hp : ∀ n < 16, p (Json.hexDigit n) = true)
    (bytes : ByteArray) (n : Nat) : Text.All p ((Digest.ofBytes bytes).short n) := by
  have hdigits : ∀ bytes : List UInt8, ∀ c ∈ hexDigits bytes, p c = true := by
    intro bytes c hc
    rcases List.mem_flatMap.mp hc with ⟨b, _, hb⟩
    have hlt : b.toNat < 256 := b.toNat_lt
    rcases List.mem_pair.mp hb with rfl | rfl
    · exact hp _ (by omega)
    · exact hp _ (by omega)
  unfold short ofBytes
  dsimp only
  split
  · rw [Text.all_ofList, String.toList_ofList]
    exact fun c hc => hdigits _ c (List.mem_of_mem_take hc)
  · exact Text.all_ofList.mpr (hdigits _)

section Lines

/-- The lines of the header of a file. -/
def headerLines (comment fingerprint : String) : List String :=
  [comment ++ " This file is @generated by " ++ toolName ++ ". DO NOT EDIT.",
    comment ++ " Contract: " ++ fingerprint]

/-- The lines of a file, each with its line break. -/
theorem toList_fileText (comment fingerprint : String) (lines : List String) :
    (fileText (fileHeader comment fingerprint) lines).toList
      = ((headerLines comment fingerprint ++ lines).map (·.toList)).flatMap (· ++ ['\n']) := by
  simp [fileText, fileHeader, headerLines, String.toList_join, List.flatMap_map]

end Lines

/-- A package with the file that a module of a name is looked for in. -/
def Bundle.HasModule (b : Bundle) (name : String) : Prop :=
  ∃ a ∈ b.files, a.path = "native/" ++ name ++ ".rs" ∧ a.path ≠ "native/mod.rs"

namespace Contract

variable (c : Contract) (package : PackageIdentity)

theorem newline_not_mem_digits : '\n' ∉ (c.fingerprint.short headerDigits).toList := by
  have hall := Digest.all_short (p := (· != '\n')) (by decide) c.toJson.canonical.toUTF8
    headerDigits
  exact fun hmem => Bool.false_ne_true (hall _ hmem)

/-- The name of a file has nothing but small letters, digits and underscores in it. -/
theorem not_mem_fileStem (name : TypeName) (ch : Char) (hunderscore : ch ≠ '_')
    (hlower : ch.isLower = false) (hdigit : ch.isDigit = false) :
    ch ∉ (Native.fileStem name).toList := by
  rw [Native.fileStem, Spelling.snakeCase, String.toList_ofList]
  intro hmem
  rcases Spelling.mem_snakeChars _ _ hmem with heq | h | h
  · exact hunderscore heq
  · rw [hlower] at h
    cases h
  · rw [hdigit] at h
    cases h

theorem newline_not_mem_of_mem_modules (name : String) (h : name ∈ Native.modules c) :
    '\n' ∉ name.toList := by
  rw [Native.modules, mem_sortNames] at h
  rcases List.mem_cons.mp h with rfl | h
  · decide
  · rcases List.mem_map.mp h with ⟨s, _, rfl⟩
    exact Native.newline_not_mem_identifier _ (not_mem_fileStem s.name _ (by decide) rfl rfl)

/-- The modules that the module root of a package declares. -/
theorem declaredModules_moduleRoot (h : '\n' ∉ c.assembly.toList) :
    Native.declaredModules (fileText (c.header "//") (Native.moduleRoot c))
      = (Native.modules c).map Native.bare := by
  have hdigits := c.newline_not_mem_digits
  have hheader : ∀ line ∈ headerLines "//" (c.fingerprint.short headerDigits),
      '\n' ∉ line.toList ∧ Native.declared? line.toList = none := by
    intro line hline
    rcases List.mem_pair.mp hline with rfl | rfl
    · exact ⟨by decide, by decide⟩
    · exact ⟨by simp [hdigits], Native.declared?_of_head _ (by simp)⟩
  have hroot : ∀ line ∈ Native.moduleRoot c, '\n' ∉ line.toList := by
    simp only [Native.moduleRoot, List.forall_mem_append, List.forall_mem_map,
      List.forall_mem_cons]
    refine ⟨⟨⟨by decide, by simp [h], by decide, by simp⟩, fun name hname => ?_⟩, by decide,
      by decide, by decide, by simp⟩
    simp [c.newline_not_mem_of_mem_modules name hname]
  -- The lines of the header declare nothing.
  have hnone : ((headerLines "//" (c.fingerprint.short headerDigits)).map (·.toList)).filterMap
      Native.declared? = [] := by
    rw [List.filterMap_eq_nil_iff, List.forall_mem_map]
    exact fun line hline => (hheader line hline).2
  rw [Native.declaredModules, header, toList_fileText, Text.split_lines]
  · rw [List.map_append, List.filterMap_append, List.filterMap_append, hnone,
      Native.filterMap_declared?_moduleRoot]
    exact List.append_nil _
  · rw [List.forall_mem_map, List.forall_mem_append]
    exact ⟨fun line hline => (hheader line hline).1, hroot⟩

/-- The modules are that of the data types and one for each service. -/
theorem mem_bare_modules_iff (m : String) : m ∈ (Native.modules c).map Native.bare
    ↔ m = "data" ∨ ∃ s ∈ c.services, m = Native.bare (Native.moduleOf s.name) := by
  have hdata : Native.bare "data" = "data" := by decide
  have hmodules : ∀ name, name ∈ Native.modules c
      ↔ name = "data" ∨ ∃ s ∈ c.services, Native.moduleOf s.name = name := by
    intro name
    rw [Native.modules, mem_sortNames, List.mem_cons, List.mem_map]
  rw [List.mem_map]
  constructor
  · rintro ⟨name, hname, hm⟩
    rcases (hmodules name).mp hname with heq | ⟨s, hs, heq⟩
    · exact Or.inl (by rw [← hm, heq, hdata])
    · exact Or.inr ⟨s, hs, by rw [heq, hm]⟩
  · rintro (hm | ⟨s, hs, hm⟩)
    · exact ⟨"data", (hmodules _).mpr (Or.inl rfl), by rw [hdata, hm]⟩
    · exact ⟨Native.moduleOf s.name, (hmodules _).mpr (Or.inr ⟨s, hs, rfl⟩), hm.symm⟩

/-- A package has the file of a module if it has the path, and the path is not that of the module
    root. -/
theorem hasModule_iff_mem_paths (b : Bundle) (h : c.bundle package = .ok b) (name : String) :
    b.HasModule name ↔ "native/" ++ name ++ ".rs" ∈ c.paths package
      ∧ "native/" ++ name ++ ".rs" ≠ "native/mod.rs" := by
  rw [← (c.path_perm_of_bundle package b h).mem_iff, List.mem_map]
  constructor
  · rintro ⟨a, ha, hpath, hne⟩
    exact ⟨⟨a, ha, hpath⟩, hpath ▸ hne⟩
  · rintro ⟨⟨a, ha, hpath⟩, hne⟩
    exact ⟨a, ha, hpath, hpath ▸ hne⟩

/-- The files of a package are distinct, so no stub is put in place of the module root. -/
theorem serviceFile_ne_moduleRoot (b : Bundle) (h : c.bundle package = .ok b) (s : Service)
    (hs : s ∈ c.services) : Native.serviceFile s.name ≠ "native/mod.rs" := by
  intro heq
  rcases (c.bundle_eq_ok package b).mp h with ⟨_, _, hdistinct, _, _⟩
  rw [paths, List.append_assoc, List.nodup_append] at hdistinct
  refine hdistinct.2.2 "native/mod.rs" (by simp) _ (List.mem_append_left _ ?_) heq.symm
  exact List.mem_flatMap.mpr ⟨s, hs, List.mem_cons_of_mem _ List.mem_cons_self⟩

/-- The modules that a package has files of. -/
theorem hasModule_iff (b : Bundle) (h : c.bundle package = .ok b) (name : String) :
    b.HasModule name ↔ name = "data" ∨ ∃ s ∈ c.services, name = Native.fileStem s.name := by
  have hinj : ∀ other : String, "native/" ++ name ++ ".rs" = "native/" ++ other ++ ".rs"
      ↔ name = other := by
    intro other
    simp [← String.toList_inj]
  -- The files of the other side are in other directories, and the document ends otherwise.
  have hhead : ("native/" ++ name ++ ".rs").toList.head? = some 'n' := by simp
  have hlast : ("native/" ++ name ++ ".rs").toList.getLast? = some 's' := by
    rw [String.toList_append, List.getLast?_append]
    rfl
  rw [c.hasModule_iff_mem_paths package b h]
  constructor
  · rintro ⟨hpath, hne⟩
    simp only [paths, List.mem_append, List.mem_cons, List.not_mem_nil, or_false,
      List.mem_flatMap, List.mem_map] at hpath
    rcases hpath with ((heq | heq | heq | heq | heq | heq) | ⟨s, hs, heq | heq⟩) | ⟨d, _, heq⟩
    · simp [heq] at hhead
    · simp [heq] at hhead
    · simp [heq] at hhead
    · exact absurd heq hne
    · exact Or.inl ((hinj "data").mp heq)
    · simp [heq] at hlast
    · simp [heq] at hhead
    · exact Or.inr ⟨s, hs, (hinj _).mp heq⟩
    · simp [← heq] at hhead
  · rintro (rfl | ⟨s, hs, rfl⟩)
    · exact ⟨by simp [paths], by decide⟩
    · refine ⟨List.mem_append_left _ (List.mem_append_right _ ?_),
        c.serviceFile_ne_moduleRoot package b h s hs⟩
      exact List.mem_flatMap.mpr ⟨s, hs, List.mem_cons_of_mem _ List.mem_cons_self⟩

/-- The module root of a package declares the module of the data types and one for each service,
    and the package has a file for the data types and one for each service. The file of a service
    is declared just if its name can be that of a module, and so the two are the same just if
    this holds of every service. -/
theorem modules_of_bundle (b : Bundle) (h : c.bundle package = .ok b)
    (hassembly : '\n' ∉ c.assembly.toList) :
    ∃ root ∈ b.files, root.path = "native/mod.rs"
      ∧ (∀ m, m ∈ Native.declaredModules root.text
        ↔ m = "data" ∨ ∃ s ∈ c.services, m = Native.bare (Native.moduleOf s.name))
      ∧ (∀ m, b.HasModule m ↔ m = "data" ∨ ∃ s ∈ c.services, m = Native.fileStem s.name)
      ∧ (∀ s ∈ c.services, Native.fileStem s.name ∈ Native.declaredModules root.text
        ↔ Native.IsModuleName (Native.fileStem s.name))
      ∧ ((∀ m, m ∈ Native.declaredModules root.text ↔ b.HasModule m)
        ↔ ∀ s ∈ c.services, Native.IsModuleName (Native.fileStem s.name)) := by
  have hraw : ∀ s ∈ c.services, '#' ∉ (Native.fileStem s.name).toList :=
    fun s _ => not_mem_fileStem s.name '#' (by decide) rfl rfl
  have hdeclared := c.mem_bare_modules_iff
  have hfile := c.hasModule_iff package b h
  -- What is declared is the name of a module, so no other service declares a file either.
  have hservice : ∀ s ∈ c.services, Native.fileStem s.name ∈ (Native.modules c).map Native.bare
      ↔ Native.IsModuleName (Native.fileStem s.name) := by
    intro s hs
    rw [hdeclared]
    constructor
    · rintro (heq | ⟨t, ht, heq⟩)
      · rw [heq]
        decide
      · rw [heq]
        exact Native.isModuleName_bare_identifier _ (hraw t ht)
    · intro hname
      exact Or.inr ⟨s, hs, ((Native.bare_identifier_eq_iff _ (hraw s hs)).mpr hname).symm⟩
  rcases c.mem_of_common package b h with ⟨_, _, _, hroot, _⟩
  refine ⟨_, hroot, rfl, ?_⟩
  rw [c.declaredModules_moduleRoot hassembly]
  refine ⟨hdeclared, hfile, hservice, fun hsame s hs => ?_, fun hnames m => ?_⟩
  · exact (hservice s hs).mp ((hsame _).mpr ((hfile _).mpr (Or.inr ⟨s, hs, rfl⟩)))
  · rw [hdeclared, hfile]
    refine or_congr_right (exists_congr fun s => and_congr_right fun hs => ?_)
    rw [Native.moduleOf, (Native.bare_identifier_eq_iff _ (hraw s hs)).mpr (hnames s hs)]

/-- The stub of a service that is named like a keyword is declared by a raw identifier. -/
theorem modules_of_match : ∃ b, (outline "Acme.Match" []).bundle (.ofName "acme") = .ok b
    ∧ '\n' ∉ (outline "Acme.Match" []).assembly.toList
    ∧ ∃ root ∈ b.files, root.path = "native/mod.rs"
      ∧ ∀ m, m ∈ Native.declaredModules root.text ↔ b.HasModule m := by
  have hrenders := renders_outline (.ofName "acme") "Acme.Match" [] (by decide) (by decide)
    (by decide)
  have hassembly : '\n' ∉ (outline "Acme.Match" []).assembly.toList := by decide
  rcases (exists_bundle_iff _ _).mpr hrenders with ⟨b, hb⟩
  rcases modules_of_bundle _ (.ofName "acme") b hb hassembly with
    ⟨root, hroot, hpath, _, _, _, hsame⟩
  refine ⟨b, hb, hassembly, root, hroot, hpath, hsame.mpr fun s hs => ?_⟩
  rw [List.mem_singleton.mp hs]
  decide

/-- The stub of a service that is named like another word of the language has no module. -/
theorem exists_hasModule_not_declared :
    ∃ b, (outline "Acme.Super" []).bundle (.ofName "acme") = .ok b ∧ b.HasModule "super"
      ∧ ∃ root ∈ b.files, root.path = "native/mod.rs"
        ∧ "super" ∉ Native.declaredModules root.text := by
  have hrenders := renders_outline (.ofName "acme") "Acme.Super" [] (by decide) (by decide)
    (by decide)
  rcases (exists_bundle_iff _ _).mpr hrenders with ⟨b, hb⟩
  rcases mem_of_common _ _ b hb with ⟨_, _, _, hroot, _⟩
  refine ⟨b, hb, (hasModule_iff _ _ b hb _).mpr (Or.inr ⟨_, List.mem_cons_self, by decide⟩), _,
    hroot, rfl, ?_⟩
  rw [declaredModules_moduleRoot _ (by decide)]
  decide

end Contract

end PlatformBridge
