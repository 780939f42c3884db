import PlatformBridge.Proofs.Bundle.Failures
import PlatformBridge.Proofs.Bundle.Files
import PlatformBridge.Proofs.Bundle.SafePaths
import PlatformBridge.Proofs.Text.Bytes

/-!
# Packages Ready to be Written

A package that is rendered can be written as far as its paths are concerned.
However many files a contract asks for, and whatever it calls its types, the
paths are distinct, sorted, below the directory that they are joined to, and
none is that of the manifest, which lists them. So the one path that writing a
package can fail on is one that the manifest lists which was there before, and
those are followed before the first file is put in place.

Errors about texts of paths are told apart from those of the file system by
their kind, so the last part is a search: where in a write can such an error
come from? Not from the files of the package, as their paths are safe; so from
what is cleared away.

## Theorems

* `Contract.length_of_files`: How many files there are.
* `Contract.pairwise_of_bundle`: The files are in the order of their paths.
* `Contract.pathBelow_of_mem_paths`: Their paths are safe to follow.
* `Output.ofFile_ne_generation`: Errors of the file system are not about texts.
* `Output.eachOf_put_ne_generation`, `Output.of_write_eq_generation`: Where
  writing can fail on a path.
* `Contract.readiness_of_bundle`: All of this for a package that is rendered.
-/

namespace PlatformBridge

namespace Contract

variable (c : Contract) (package : PackageIdentity)

/-- There are six files in any case, two for each service and one for each data type. -/
theorem length_of_files (files : List GeneratedFile) (h : c.files package = .ok files) :
    files.length = 6 + 2 * c.services.length + c.dataTypes.length := by
  have hpairs : (c.services.flatMap fun s =>
      ["lib/src/" ++ Dart.serviceFile s.name, Native.serviceFile s.name]).length
      = 2 * c.services.length := by
    induction c.services with
    | nil => rfl
    | cons s rest ih =>
        rw [List.flatMap_cons, List.length_append, ih, List.length_cons]
        simp only [List.length_cons, List.length_nil]
        omega
  rw [← List.length_map (f := (·.path)), c.map_path_of_files package files h, paths,
    List.length_append, List.length_append, hpairs, List.length_map]
  rfl

/-- The files of a package are in the order of their paths. -/
theorem pairwise_of_bundle (b : Bundle) (h : c.bundle package = .ok b) :
    (b.files.map (·.path)).Pairwise (· < ·) := by
  have hperm := c.path_perm_of_bundle package b h
  rcases (c.bundle_eq_ok package b).mp h with ⟨files, _, hdistinct, _, rfl⟩
  have hsorted : ((inOrder files).map (·.path)).Pairwise (· ≤ ·) := by
    refine List.pairwise_map.mpr ((List.pairwise_mergeSort ?_ ?_ files).imp of_decide_eq_true)
    · intro f g k hfg hgk
      exact decide_eq_true (String.le_trans (of_decide_eq_true hfg) (of_decide_eq_true hgk))
    · intro f g
      simpa using String.le_total f.path g.path
  exact hsorted.imp₂ (fun _ _ hle hne => Std.lt_of_le_of_ne hle hne) (hperm.nodup_iff.mpr hdistinct)

/-- The paths of a package are safe to follow. -/
theorem pathBelow_of_mem_paths (hcheck : package.check = .ok ()) (path : String)
    (hpath : path ∈ c.paths package) : pathBelow path = .ok (Path.ofText path) := by
  have hnamed := c.isNamed_of_mem_paths package hcheck path hpath
  -- Every path has the dot of an ending.
  have hdot : '.' ∈ path.toList := by
    have hdart : '.' ∈ ".dart".toList := by decide
    have hnative : '.' ∈ ".rs".toList := by decide
    simp only [paths, List.mem_append, List.mem_cons, List.not_mem_nil, or_false, List.mem_flatMap,
      List.mem_map] at hpath
    rcases hpath with ((rfl | rfl | rfl | rfl | rfl | rfl) | ⟨s, _, rfl | rfl⟩) | ⟨d, _, rfl⟩
    · decide
    · simp only [String.toList_append, List.mem_append, hdart, or_true]
    · decide
    · decide
    · decide
    · decide
    · simp only [Dart.serviceFile, String.toList_append, List.mem_append, hdart, or_true]
    · simp only [Native.serviceFile, String.toList_append, List.mem_append, hnative, or_true]
    · simp only [Dart.dataFile, String.toList_append, List.mem_append, hdart, or_true]
  have hblank : Text.isBlank path = false :=
    List.all_eq_false.mpr ⟨'.', hdot, by decide⟩
  have hfirst : (Path.ofText path).segments.head? ≠ some "." := by
    intro hhead
    have hidle := (hnamed.steps "." (List.mem_of_head? hhead)).notIdle
    cases hidle
  have hslash : path.toList.head? ≠ some '/' := fun hhead =>
    absurd ((Path.isAbsolute_ofText path).mpr hhead) (by simp [hnamed.isAbsolute])
  exact (pathBelow_eq_ok_iff path _).mpr ⟨rfl, hblank, hslash, hfirst, hnamed.notUp⟩

end Contract

namespace Output

variable {t t' : FileTree} {g : GenerationError} (dir : Path) (b : Bundle)

/-- What goes wrong with a file is not the fault of the text of its path. -/
theorem ofFile_ne_generation (path : Path) (cause : FileError) :
    BundleError.ofFile path cause ≠ .generation g := by
  cases cause <;> simp [BundleError.ofFile]

theorem pathBelow_fileName :
    pathBelow Manifest.fileName = .ok (Path.ofText Manifest.fileName) := by
  rfl

/-- Putting files in place does not fail on a path that is safe to follow. -/
theorem eachOf_put_ne_generation (items : List (String × String))
    (hpaths : ∀ i ∈ items, ∃ path, pathBelow i.1 = .ok path) :
    (eachOf (put dir) items).run t ≠ (.error (.generation g), t') := by
  intro h
  rcases exists_of_eachOf_eq_error _ items h with ⟨done, i, rest, t₁, rfl, _, hi⟩
  rcases hpaths i (List.mem_append_right _ List.mem_cons_self) with ⟨path, hpath⟩
  rcases hi with ⟨⟨g', hg', _⟩, _⟩ | ⟨path', _, hput⟩
  · rw [hpath] at hg'
    cases hg'
  · rcases of_put_eq_error dir i.2 path' hput with
      ⟨cause, _, he⟩ | ⟨_, ⟨_, he⟩ | ⟨cause, _, he⟩⟩
    · exact ofFile_ne_generation _ cause he
    · cases he
    · exact ofFile_ne_generation _ cause he

/-- A package whose paths are safe to follow fails on a path only while it clears away what an old
    manifest lists. -/
theorem of_write_eq_generation (hpaths : ∀ a ∈ b.files, pathBelow a.path = .ok (Path.ofText a.path))
    (overwrite : Bool)
    (h : (write b dir overwrite : Action Unit).run t = (.error (.generation g), t')) :
    ∃ old, (prepare dir overwrite : Action (Option Manifest)).run t = (.ok (some old), t)
      ∧ (clearListed dir old b : Action Unit).run t = (.error (.generation g), t') := by
  rcases of_write_eq_error dir b overwrite h with h | ⟨old?, t₁, hprepare, h⟩
  · exfalso
    rcases of_prepare_eq_error dir overwrite h with
      ⟨_, he | he | ⟨cause, he⟩⟩ | ⟨_, _, cause, _, he⟩
    · cases he
    · cases he
    · exact ofFile_ne_generation _ cause he
    · exact ofFile_ne_generation _ cause he
  rcases h with h | ⟨t₂, manifest, _, h⟩
  · cases old? with
    | none => cases h
    | some old =>
        -- A manifest is found only in a directory that is there.
        rcases ((prepare_eq_ok dir overwrite _).mp hprepare).2 with
          ⟨_, _, hold⟩ | ⟨_, rfl, _⟩
        · cases hold
        · rw [← clearListed_eq] at h
          exact ⟨old, hprepare, h⟩
  · refine absurd h (eachOf_put_ne_generation dir _ fun i hi => ?_)
    rcases List.mem_append.mp hi with hi | hi
    · rcases List.mem_map.mp hi with ⟨a, ha, rfl⟩
      exact ⟨_, hpaths a ha⟩
    · rw [List.mem_singleton.mp hi]
      exact ⟨_, pathBelow_fileName⟩

end Output

namespace Contract

open Output

/-- A package that is rendered is ready to be written: it has as many files as the contract asks
    for, in the order of the bytes of their paths, none under the name of the manifest and each
    under a path that is safe to follow; the manifest lists them in this order; and writing it can
    fail on a path only before the first file is put in place, on one that was listed before. -/
theorem readiness_of_bundle (c : Contract) (package : PackageIdentity)
    (hcheck : package.check = .ok ()) (b : Bundle) (h : c.bundle package = .ok b) :
    b.files.length = 6 + 2 * c.services.length + c.dataTypes.length
      ∧ b.files.Pairwise (fun f g => Text.bytes f.path < Text.bytes g.path)
      ∧ Manifest.fileName ∉ b.files.map (·.path)
      ∧ (∀ a ∈ b.files, pathBelow a.path = .ok (Path.ofText a.path))
      ∧ b.manifest.files = b.files.map (fun a => ⟨a.path, a.side, Digest.ofText a.text⟩)
      ∧ ∀ (t t' : FileTree) (dir : Path) (overwrite : Bool) (g : GenerationError),
          (Output.write b dir overwrite : Action Unit).run t = (.error (.generation g), t') →
          ∃ old, (prepare dir overwrite : Action (Option Manifest)).run t = (.ok (some old), t)
            ∧ (clearListed dir old b : Action Unit).run t = (.error (.generation g), t') := by
  have hperm := c.path_perm_of_bundle package b h
  have horderly := c.isOrderly_of_bundle package hcheck b h
  have hpaths : ∀ a ∈ b.files, pathBelow a.path = .ok (Path.ofText a.path) := fun a ha =>
    c.pathBelow_of_mem_paths package hcheck a.path (hperm.mem_iff.mp (List.mem_map_of_mem ha))
  refine ⟨?_, ?_, horderly.free, hpaths, horderly.listed,
    fun t t' dir overwrite g => of_write_eq_generation dir b hpaths overwrite⟩
  · rcases (c.bundle_eq_ok package b).mp h with ⟨files, hfiles, _, _, rfl⟩
    rw [← c.length_of_files package files hfiles]
    exact (List.mergeSort_perm _ _).length_eq
  · exact (List.pairwise_map.mp (c.pairwise_of_bundle package b h)).imp fun hlt =>
      Text.bytes_lt_bytes _ _ hlt

/-- A contract whose names read as paths has a package that is ready to be written all the same. -/
theorem readiness_of_outline : (PackageIdentity.ofName "acme").check = .ok () ∧ ∃ b,
    (outline "Acme/../Bell" ["../Tone", "é"]).bundle (.ofName "acme") = .ok b
      ∧ b.files.length = 10
      ∧ b.files.Pairwise (fun f g => Text.bytes f.path < Text.bytes g.path)
      ∧ ∀ a ∈ b.files, pathBelow a.path = .ok (Path.ofText a.path) := by
  have hcheck : (PackageIdentity.ofName "acme").check = .ok () := rfl
  rcases (exists_bundle_iff _ _).mpr (renders_outline (.ofName "acme")
    "Acme/../Bell" ["../Tone", "é"] (by decide) (by decide) (by decide)) with ⟨b, hb⟩
  rcases readiness_of_bundle _ _ hcheck b hb with ⟨hlength, hsorted, _, hpaths, _⟩
  exact ⟨hcheck, b, hb, hlength, hsorted, hpaths⟩

end Contract

end PlatformBridge
