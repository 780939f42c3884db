import PlatformBridge.Proofs.Contract.Document
import PlatformBridge.Proofs.Json.Written

/-!
# Reading Manifests Back

A manifest that was written is read back, so whoever finds one in a directory
knows which files were put there with it.

A manifest is small as a document: its nesting does not depend on the package,
so it can always be written, and its reader is put together from those of its
parts.

## Theorems

* `Manifest.isDocument`: The document of a manifest can be written and read.
* `Manifest.depth_toJson_le`: It nests little.
* `Manifest.reader_finds`: A manifest is read from its document.
* `Manifest.exists_indentedCanonical?`: Every manifest has a file.
* `Manifest.readBytes?_indentedCanonical`: The file of a manifest holds the
  manifest.
-/

namespace PlatformBridge

open Json

section Documents

variable {layout : Layout}

theorem ListedFile.isDocument (e : ListedFile) : e.toJson.IsDocument layout :=
  .object _ (by simp) (by simp [IsDocument.string])

theorem PackageIdentity.isDocument (p : PackageIdentity) : p.toJson.IsDocument layout :=
  .object _ (by simp) (by simp [IsDocument.string])

/-- The document of a manifest can be written and read. -/
theorem Manifest.isDocument (m : Manifest) : m.toJson.IsDocument layout := by
  have hfiles := isDocument_map layout _ m.files ListedFile.isDocument
  exact .object _ (by simp) (by simp [IsDocument.string, m.package.isDocument, hfiles])

end Documents

/-- A manifest nests little, however many files it lists. -/
theorem Manifest.depth_toJson_le (m : Manifest) : m.toJson.depth ≤ 3 := by
  have hfiles : (array (m.files.map ListedFile.toJson)).depth ≤ 2 := by
    rw [depth_array_le_iff]
    intro v hv
    rcases List.mem_map.mp hv with ⟨e, _, rfl⟩
    exact Nat.le_refl 1
  rw [toJson, depth_object_le_iff]
  simp only [List.forall_mem_cons, hfiles]
  exact ⟨Nat.zero_le 2, Nat.zero_le 2, Nat.le_succ 1, Nat.zero_le 2, trivial, by simp⟩

theorem ListedFile.reader_finds (e : ListedFile) : reader.Finds e.toJson e := by
  refine Reader.record_finds _ _ _ (by simp) (by simp) _ fun r hr => ?_
  have hside : (Reader.name Side.names).Finds (string e.side.text) e.side :=
    Reader.name_finds _ _ _ (by cases e.side <;> decide)
  rw [hr.required (by simp) (Reader.text_finds e.path), hr.required (by simp) hside,
    hr.required (by simp) (Reader.text_finds e.digest.hex)]
  rfl

theorem PackageIdentity.reader_finds (p : PackageIdentity) : reader.Finds p.toJson p := by
  refine Reader.record_finds _ _ _ (by simp) (by simp) _ fun r hr => ?_
  rw [hr.required (by simp) (Reader.text_finds p.name),
    hr.required (by simp) (Reader.text_finds p.description),
    hr.required (by simp) (Reader.text_finds p.version),
    hr.required (by simp) (Reader.text_finds p.dartSdk)]
  rfl

namespace Manifest

/-- A manifest is read from its document. -/
theorem reader_finds (m : Manifest) : reader.Finds m.toJson m := by
  refine Reader.record_finds _ _ _ (by simp) (by simp) _ fun r hr => ?_
  have hfiles := Reader.list_finds _ _ m.files fun e _ => e.reader_finds
  rw [hr.required (by simp) (Reader.text_finds m.generator),
    hr.required (by simp) (Reader.text_finds m.toolVersion),
    hr.required (by simp) m.package.reader_finds,
    hr.required (by simp) (Reader.text_finds m.fingerprint.hex), hr.required (by simp) hfiles]
  rfl

/-- Every manifest has a file. -/
theorem exists_indentedCanonical? (m : Manifest) :
    ∃ text, indentedCanonical? m.toJson = some text :=
  ⟨_, (indentedCanonical?_eq_some_iff _ m.isDocument _).mpr
    ⟨Nat.le_trans m.depth_toJson_le (by decide), rfl⟩⟩

/-- The file of a manifest holds the manifest. -/
theorem readBytes?_indentedCanonical (m : Manifest) (text : String)
    (h : indentedCanonical? m.toJson = some text) : readBytes? reader text.toUTF8 = some m :=
  Reader.readBytes?_of_finds reader _ m (fun _ => m.isDocument) m.reader_finds text h

end Manifest

end PlatformBridge
