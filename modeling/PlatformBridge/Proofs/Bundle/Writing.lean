import PlatformBridge.Proofs.Bundle.Files
import PlatformBridge.Proofs.Bundle.Manifest
import PlatformBridge.Proofs.Bundle.Output
import PlatformBridge.Proofs.Bundle.SafePaths
import PlatformBridge.Proofs.Files.Changes

/-!
# What Writing Leaves

Writing a package is a row of small changes to a tree, and the package is what
is left of them. The argument follows the row. Making the directory ready
changes nothing that was there. Each removal changes what is at one address, and
each file that is put in place does too; as the files of a package have distinct
places, what is put in place once stays there. So in the end everything that the
package puts on disk is held by the tree, and nothing but stale files and the
package has changed.

A tree that holds everything of a package passes an audit, and writing the
package once more does nothing to it: the directories are there, the manifest
that is found lists no file that is stale, and every file is replaced by itself.

The manifest that is found beforehand can be any text. What it lists is removed
only if it is safe to follow, and two spellings of one place are one place. So
places are compared by the names that lead to them, and a listed file that the
package puts back under another spelling is not lost.

The example is a package that is written over an older one. Its tree takes the
texts that the old manifest lists for a parameter, and is used again for writes
that are refused on account of such a text.

## Main definitions

* `Output.place`: Where a text leads below an address.
* `Bundle.Occupies`: The places of a package.
* `Output.Accepts`, `Output.Holds`: A tree that is ready for a file of a
  package, and one that has it.
* `Verdict.oldManifest`, `Verdict.oldTree`: A package that was written before,
  in a tree with other files.

## Theorems

* `Output.place_injective`: Distinct paths have distinct places.
* `Output.holds_of_put`, `Output.holds_of_eachOf_put`: What is put in place
  stays there.
* `Output.exists_eachOf_put`: What it takes to put everything in place.
* `Output.gone_of_removeListed`, `Output.gone_of_forM_removeListed`: What is
  removed is gone.
* `Output.eachOf_compare_of_holds`, `Output.same_of_eachOf_put`: What is there
  passes, and is not changed by being put in place again.
* `Output.of_prepare_eq_ok`, `Output.of_write_eq_ok`: Writing once.
* `Output.audit_of_holds`, `Output.same_of_write`: Auditing, and writing once
  more.
* `Verdict.write_leaves_package`: What a tree is like once a package is written.
-/

namespace PlatformBridge

namespace Output

open FileTree Runs

/-- Where a text leads below an address, by its names alone. -/
def place (base : Address) (text : String) : Address := (Path.ofText text).names.reverse ++ base

/-- Texts of names lead to places of their own. -/
theorem place_injective (base : Address) (text other : String) (h : (Path.ofText text).IsNamed)
    (h' : (Path.ofText other).IsNamed) (heq : place base text = place base other) :
    text = other := by
  rw [place, place, List.append_left_inj, List.reverse_inj, h.names_eq, h'.names_eq] at heq
  exact Path.ofText_injective text other (congrArg Path.mk heq)

end Output

/-- The places of a package below an address: those of its files and of its manifest. -/
def Bundle.Occupies (b : Bundle) (base l : Address) : Prop :=
  l = Output.place base Manifest.fileName ∨ ∃ a ∈ b.files, l = Output.place base a.path

namespace Bundle

variable (b : Bundle) (manifest : String)

/-- The places of a package are those of everything that it puts on disk. -/
theorem occupies_iff (base l : Address) : b.Occupies base l
    ↔ ∃ i ∈ b.contents manifest, l = Output.place base i.1 := by
  simp only [Occupies, contents, List.mem_append, List.mem_map, List.mem_singleton]
  constructor
  · rintro (hl | ⟨a, ha, hl⟩)
    · exact ⟨_, Or.inr rfl, hl⟩
    · exact ⟨_, Or.inl ⟨a, ha, rfl⟩, hl⟩
  · rintro ⟨i, ⟨a, ha, rfl⟩ | rfl, hl⟩
    · exact Or.inr ⟨a, ha, hl⟩
    · exact Or.inl hl

theorem map_fst_contents :
    (b.contents manifest).map (·.1) = b.files.map (·.path) ++ [Manifest.fileName] := by
  rw [contents, List.map_append, List.map_map]
  rfl

variable {b} (h : b.IsOrderly)

include h

theorem IsOrderly.nodup_contents : ((b.contents manifest).map (·.1)).Nodup := by
  rw [map_fst_contents, List.nodup_append]
  refine ⟨h.distinct, List.nodup_singleton _, fun path hpath other hother heq => h.free ?_⟩
  rw [← List.mem_singleton.mp hother, ← heq]
  exact hpath

theorem IsOrderly.isNamed_contents (i : String × String) (hi : i ∈ b.contents manifest) :
    (Path.ofText i.1).IsNamed := by
  rcases List.mem_append.mp hi with hi | hi
  · rcases List.mem_map.mp hi with ⟨a, ha, rfl⟩
    exact h.named a ha
  · rw [List.mem_singleton.mp hi]
    exact Path.isNamed_ofText_intercalate [Manifest.fileName] (by simp)
      (by simpa using ⟨by decide, by decide, by decide⟩)

end Bundle

namespace Output

open FileTree Runs

variable {t t' : FileTree} (dir : Path) (hdir : dir.isEmpty = false)

include hdir in
/-- A text that is safe to follow leads to its place. -/
theorem address_of_pathBelow (text : String) (path : Path) (h : pathBelow text = .ok path) :
    t.address (dir.join path) = place (t.address dir) text := by
  rcases of_pathBelow_eq_ok text path h with ⟨rfl, habsolute, hup⟩
  exact address_join dir _ hdir habsolute (Path.segments_ofText_ne_nil text) hup

/-- A file of a package can be put in place in a tree whose directories are ready. -/
structure Accepts (t : FileTree) (dir : Path) (text : String) : Prop where
  below : pathBelow text = .ok (Path.ofText text)
  named : (Path.ofText text).IsNamed
  admits : t.Admits (dir.join (Path.ofText text))
  free : t.entry? (place (t.address dir) text) ≠ some .directory
  room : HasRoom (place (t.address dir) text)

/-- A tree has a file of a package. -/
structure Holds (t : FileTree) (dir : Path) (i : String × String) : Prop extends
    Accepts t dir i.1 where
  file : t.entry? (place (t.address dir) i.1) = some (.file i.2.toUTF8)

variable {dir}

/-- A tree keeps a file if nothing is changed at the place of it. -/
theorem Holds.of_changesOnly {named : Address → Prop} {i : String × String}
    (h : Holds t dir i) (hchanges : t.ChangesOnly named t')
    (hother : ¬ named (place (t.address dir) i.1)) : Holds t' dir i := by
  have haddress := hchanges.address dir
  have hfile : t'.entry? (place (t'.address dir) i.1) = some (.file i.2.toUTF8) := by
    rw [haddress]
    exact hchanges.kept _ _ hother h.file
  refine ⟨⟨h.below, h.named, hchanges.admits _ h.admits, ?_, ?_⟩, hfile⟩
  · rw [hfile]
    simp
  · rw [haddress]
    exact h.room

variable (dir)

section Putting

include hdir

/-- A file that was put in place is there, and nothing else has changed. -/
theorem holds_of_put (h : t.IsPlain) (i : String × String) (hnamed : (Path.ofText i.1).IsNamed)
    (path : Path) (hpath : pathBelow i.1 = .ok path)
    (hput : (put dir path i.2 : Action Unit).run t = (.ok (), t')) :
    t.ChangesOnly (· = place (t.address dir) i.1) t' ∧ Holds t' dir i := by
  rcases (put_eq_ok dir i.2 path).mp hput with ⟨t₁, hcreate, _, hreplace⟩
  rcases of_pathBelow_eq_ok i.1 path hpath with ⟨rfl, habsolute, _⟩
  -- First the directories above the file are made.
  have hmade : t.ChangesOnly (· = place (t.address dir) i.1) t₁ := by
    have htouches := touches_createChain (· = place (t.address dir) i.1)
      ((dir.join (Path.ofText i.1)).parent?.getD dir).ancestors t h
    change (FileStore.createChain _ : StateM FileTree _) t = _ at hcreate
    rwa [hcreate] at htouches
  have hlast : (dir.join (Path.ofText i.1)).segments.getLast? ≠ some "" := by
    rcases hnamed.exists_concat with ⟨front, s, hsegments, hs⟩
    rw [Path.segments_join dir _ habsolute, hsegments, ← List.append_assoc, List.getLast?_concat]
    rintro heq
    rw [Option.some.inj heq] at hs
    exact absurd hs.notIdle (by decide)
  -- Then the file is set, at the address that the path has in either tree.
  rcases of_replace_eq_ok hmade.plain _ hlast _ hreplace with
    ⟨hadmits, hfree, hdirectory, hroom, rfl⟩
  have hset := changesOnly_set_file hmade.plain _ hfree hdirectory i.2.toUTF8
  have hplace : t₁.address (dir.join (Path.ofText i.1)) = place (t.address dir) i.1 := by
    rw [address_of_pathBelow dir hdir i.1 _ hpath, hmade.address]
  rw [hplace] at hset hfree hroom ⊢
  refine ⟨hmade.trans hset, ?_⟩
  have haddress : (t₁.set (place (t.address dir) i.1) (.file i.2.toUTF8)).address dir
      = t.address dir := by rw [hset.address, hmade.address]
  have hfile := entry?_set t₁ _ hfree (.file i.2.toUTF8) (place (t.address dir) i.1)
  rw [if_pos rfl] at hfile
  refine ⟨⟨hpath, hnamed, hset.admits _ hadmits, ?_, ?_⟩, ?_⟩ <;> rw [haddress]
  · rw [hfile]
    simp
  · exact hroom
  · exact hfile

/-- What is put in place stays there while the rest is put in place. -/
theorem holds_of_eachOf_put (items : List (String × String)) (h : t.IsPlain)
    (hdistinct : (items.map (·.1)).Nodup) (hnamed : ∀ i ∈ items, (Path.ofText i.1).IsNamed)
    (hrun : (eachOf (put dir) items).run t = (.ok (), t')) :
    t.ChangesOnly (fun l => ∃ i ∈ items, l = place (t.address dir) i.1) t'
      ∧ ∀ i ∈ items, Holds t' dir i := by
  induction items generalizing t with
  | nil =>
      rw [(eachOf_nil_eq_ok _).mp hrun] at h ⊢
      exact ⟨ChangesOnly.refl h, by simp⟩
  | cons i rest ih =>
      rcases (eachOf_cons_eq_ok _ i rest).mp hrun with ⟨path, hpath, t₁, hput, hrest⟩
      rw [List.map_cons, List.nodup_cons] at hdistinct
      rw [List.forall_mem_cons] at hnamed
      rcases holds_of_put dir hdir h i hnamed.1 path hpath hput with ⟨hfirst, hholds⟩
      rcases ih hfirst.plain hdistinct.2 hnamed.2 hrest with ⟨hothers, hall⟩
      have haddress := hfirst.address dir
      refine ⟨?_, List.forall_mem_cons.mpr ⟨hholds.of_changesOnly hothers ?_, hall⟩⟩
      · refine (hfirst.mono fun l hl => ⟨i, List.mem_cons_self, hl⟩).trans
          (hothers.mono fun l hl => ?_)
        rcases hl with ⟨j, hj, hl⟩
        exact ⟨j, List.mem_cons_of_mem i hj, haddress ▸ hl⟩
      · rintro ⟨j, hj, heq⟩
        have hsame := place_injective _ _ _ hnamed.1 (hnamed.2 j hj) heq
        exact hdistinct.1 (hsame ▸ List.mem_map_of_mem hj)

end Putting

section Again

include hdir

/-- A file of a package is what its path leads to. -/
theorem Holds.entry?_address (i : String × String) (h : Holds t dir i) :
    t.entry? (t.address (dir.join (Path.ofText i.1))) = some (.file i.2.toUTF8) := by
  rw [address_of_pathBelow dir hdir i.1 _ h.below]
  exact h.file

/-- What is there passes. -/
theorem eachOf_compare_of_holds (h : t.IsPlain) (items : List (String × String))
    (hholds : ∀ i ∈ items, Holds t dir i) :
    (eachOf (compare dir) items).run t = (.ok (), t) := by
  induction items with
  | nil => exact (eachOf_nil_eq_ok _).mpr rfl
  | cons i rest ih =>
      rw [List.forall_mem_cons] at hholds
      rcases hholds with ⟨hi, hrest⟩
      have hfile := hi.entry?_address dir hdir
      refine (eachOf_cons_eq_ok _ i rest).mpr ⟨_, hi.below, t, ?_, ih hrest⟩
      exact (compare_eq_ok dir i.2 _).mpr
        ⟨rfl, (kind_eq_ok_iff h _ false .file).mpr ⟨hi.admits, _, hfile, rfl⟩,
          (read_eq_ok_iff h _ _).mpr ⟨hi.admits, hfile⟩⟩

/-- Where directories are ready, putting a file in place does nothing else. -/
theorem put_of_accepts (h : t.IsPlain) (text content : String) (haccepts : Accepts t dir text) :
    (put dir (Path.ofText text) content : Action Unit).run t
      = (.ok (), t.set (place (t.address dir) text) (.file content.toUTF8)) := by
  have hplace : t.address (dir.join (Path.ofText text)) = place (t.address dir) text :=
    address_of_pathBelow dir hdir text _ haccepts.below
  rcases haccepts.named.exists_concat with ⟨front, s, hsegments, hs⟩
  have hjoin : (dir.join (Path.ofText text)).segments = (dir.base ++ front) ++ [s] := by
    rw [Path.segments_join dir _ haccepts.named.isAbsolute, hsegments, List.append_assoc]
  have hne : dir.base ++ front ≠ [] :=
    List.append_ne_nil_of_left_ne_nil (Path.base_ne_nil dir hdir) front
  rcases createDirectories_parent h _ _ s hjoin hs.notIdle hne haccepts.admits with
    ⟨q, hq, hcreate⟩
  have hreplace := replace_of_admits h _ _ s hjoin hs haccepts.admits (hplace ▸ haccepts.free)
    (hplace ▸ haccepts.room) content.toUTF8
  rw [hplace] at hreplace
  refine (put_eq_ok dir content _).mpr ⟨t, ?_, fun hkind => ?_, hreplace⟩
  · rw [hq]
    exact hcreate
  · -- Nothing in the tree is a link.
    rcases (kind_eq_ok_iff h _ false .link).mp hkind with ⟨_, e, hentry, he⟩
    cases e with
    | link target => exact h.noLinks _ target hentry
    | file bytes => cases he
    | directory => cases he

/-- What is there is not changed by being put in place again. -/
theorem same_of_put (h : t.IsPlain) (i : String × String) (hholds : Holds t dir i) :
    ∃ t', (put dir (Path.ofText i.1) i.2 : Action Unit).run t = (.ok (), t') ∧ t.Same t' := by
  refine ⟨_, put_of_accepts dir hdir h i.1 i.2 hholds.toAccepts, rfl, fun l => ?_⟩
  rw [entry?_set _ _ hholds.free]
  split
  · rename_i hl
    rw [hl, hholds.file]
  · rfl

/-- Everything can be put in place where directories are ready. -/
theorem exists_eachOf_put (h : t.IsPlain) (items : List (String × String))
    (hdistinct : (items.map (·.1)).Nodup) (haccepts : ∀ i ∈ items, Accepts t dir i.1) :
    ∃ t', (eachOf (put dir) items).run t = (.ok (), t') := by
  induction items generalizing t with
  | nil => exact ⟨t, (eachOf_nil_eq_ok _).mpr rfl⟩
  | cons i rest ih =>
      rw [List.map_cons, List.nodup_cons] at hdistinct
      rw [List.forall_mem_cons] at haccepts
      rcases haccepts with ⟨hi, hrest⟩
      have hput := put_of_accepts dir hdir h i.1 i.2 hi
      rcases holds_of_put dir hdir h i hi.named _ hi.below hput with ⟨hchanges, _⟩
      have haddress := hchanges.address dir
      have hothers : ∀ j ∈ rest,
          Accepts (t.set (place (t.address dir) i.1) (.file i.2.toUTF8)) dir j.1 := by
        intro j hj
        have hj' := hrest j hj
        refine ⟨hj'.below, hj'.named, hchanges.admits _ hj'.admits, ?_, ?_⟩ <;> rw [haddress]
        · rw [entry?_set _ _ hi.free, if_neg fun heq => hdistinct.1 ?_]
          · exact hj'.free
          · rw [← place_injective _ _ _ hj'.named hi.named heq]
            exact List.mem_map_of_mem hj
        · exact hj'.room
      rcases ih hchanges.plain hdistinct.2 hothers with ⟨t', hrun⟩
      exact ⟨t', (eachOf_cons_eq_ok _ i rest).mpr ⟨_, hi.below, _, hput, hrun⟩⟩

/-- Everything that is there is put in place again without a change. -/
theorem same_of_eachOf_put (h : t.IsPlain) (items : List (String × String))
    (hholds : ∀ i ∈ items, Holds t dir i) :
    ∃ t', (eachOf (put dir) items).run t = (.ok (), t') ∧ t.Same t' := by
  induction items generalizing t with
  | nil => exact ⟨t, (eachOf_nil_eq_ok _).mpr rfl, rfl, fun _ => rfl⟩
  | cons i rest ih =>
      rw [List.forall_mem_cons] at hholds
      rcases hholds with ⟨hi, hrest⟩
      rcases same_of_put dir hdir h i hi with ⟨t₁, hput, hsame⟩
      have hchanges : t.ChangesOnly (fun _ => False) t₁ := hsame.changesOnly h
      rcases ih hchanges.plain fun j hj => (hrest j hj).of_changesOnly hchanges id with
        ⟨t', hrun, hsame'⟩
      exact ⟨t', (eachOf_cons_eq_ok _ i rest).mpr ⟨_, hi.below, t₁, hput, hrun⟩,
        hsame.trans hsame'⟩

end Again

section Removing

variable (hadmits : t.Admits dir) (hdirectory : t.entry? (t.address dir) = some .directory)

include hdir hadmits hdirectory

/-- A listed file that is removed is gone, and nothing else has changed. -/
theorem gone_of_removeListed (h : t.IsPlain) (text : String)
    (hrun : (removeListed dir text : Action Unit).run t = (.ok (), t')) :
    t.ChangesOnly (· = place (t.address dir) text) t'
      ∧ t'.entry? (place (t.address dir) text) = none := by
  rcases (removeListed_eq_ok dir text).mp hrun with ⟨path, hpath, ⟨hkind, hremove⟩ | ⟨hkind, rfl⟩⟩
  -- A file is there, and it is what is removed.
  · rcases (kind_eq_ok_iff h _ false .file).mp hkind with ⟨hfollow, e, hentry, he⟩
    cases e with
    | file bytes =>
        rw [remove_of_file h _ hfollow bytes hentry, Except.ok.injEq] at hremove
        rw [← hremove]
        have hfree : t.entry? (t.address (dir.join path)) ≠ some .directory := by simp [hentry]
        have herase := changesOnly_erase h _ hfree
        have hgone := entry?_erase t _ hfree (t.address (dir.join path))
        rw [if_pos rfl] at hgone
        rw [address_of_pathBelow dir hdir text path hpath] at herase hgone ⊢
        exact ⟨herase, hgone⟩
    | directory => cases he
    | link target => cases he
  -- Nothing was found by the path. Since the path goes down from a directory, nothing is there.
  · refine ⟨ChangesOnly.refl h, ?_⟩
    rcases of_pathBelow_eq_ok text path hpath with ⟨rfl, habsolute, hup⟩
    have hne := Path.segments_ofText_ne_nil text
    have hstart := Path.start_join dir _ hdir habsolute hne t.home
    rw [← address_of_pathBelow dir hdir text _ hpath]
    refine entry?_of_kind_eq_notFound h _ false (Path.isEmpty_join dir _ hdir habsolute hne)
      dir.base _ (Path.segments_join dir _ habsolute) hup ?_ .directory ?_ hkind
    · rw [hstart]
      exact passes_base dir _ hadmits.passes
    · rw [hstart, Path.goal_base]
      exact hdirectory

/-- What is removed stays away while the rest is removed. -/
theorem gone_of_forM_removeListed (h : t.IsPlain) (texts : List String)
    (hrun : (texts.forM (removeListed dir) : Action Unit).run t = (.ok (), t')) :
    t.ChangesOnly (fun l => ∃ text ∈ texts, l = place (t.address dir) text) t'
      ∧ ∀ text ∈ texts, ∀ bytes, t'.entry? (place (t.address dir) text) ≠ some (.file bytes) := by
  induction texts generalizing t with
  | nil =>
      rw [forM_nil_eq_ok.mp hrun] at h ⊢
      exact ⟨ChangesOnly.refl h, by simp⟩
  | cons text rest ih =>
      rcases forM_cons_eq_ok.mp hrun with ⟨t₁, hremove, hrest⟩
      rcases gone_of_removeListed dir hdir hadmits hdirectory h text hremove with ⟨hfirst, hgone⟩
      have haddress := hfirst.address dir
      rcases ih (hfirst.admits _ hadmits) (haddress ▸ hfirst.directories _ hdirectory)
        hfirst.plain hrest with ⟨hothers, hall⟩
      -- Removing a file does not change where the directory is.
      rw [haddress] at hothers hall
      refine ⟨?_, List.forall_mem_cons.mpr ⟨fun bytes hfile => ?_, hall⟩⟩
      · refine (hfirst.mono fun l hl => ⟨text, List.mem_cons_self, hl⟩).trans
          (hothers.mono fun l hl => ?_)
        rcases hl with ⟨other, hother, hl⟩
        exact ⟨other, List.mem_cons_of_mem text hother, hl⟩
      · -- Nothing has been put there since, whether something else leads there or not.
        by_cases hnamed : ∃ other ∈ rest, place (t.address dir) text = place (t.address dir) other
        · rcases hnamed with ⟨other, hother, heq⟩
          exact hall other hother bytes (heq ▸ hfile)
        · rw [hothers.file_iff _ hnamed bytes, hgone] at hfile
          cases hfile

end Removing

/-- Whoever finds a manifest in a directory has found the directory. -/
theorem admits_of_manifestAt?_eq_some (h : t.IsPlain) (m : Manifest)
    (hm : manifestAt? t dir = some m) (hdir : dir.isEmpty = false) : t.Admits dir
      ∧ t.entry? (t.address dir) = some .directory ∧ t.hasEntryBelow (t.address dir) = true := by
  rw [manifestAt?] at hm
  cases hread : t.read (dir.join (Path.ofText Manifest.fileName)) with
  | error e =>
      rw [hread] at hm
      cases hm
  | ok bytes =>
      rcases (read_eq_ok_iff h _ bytes).mp hread with ⟨hadmits, hfile⟩
      rcases Admits.of_join dir _ hdir rfl (Path.segments_ofText_ne_nil _) hadmits with
        ⟨hthere, hdirectory⟩
      rw [address_of_pathBelow dir hdir Manifest.fileName _ rfl] at hfile
      exact ⟨hthere, hdirectory, hasEntryBelow_of_entry? Manifest.fileName _ _ hfile⟩

/-- Making a directory ready changes nothing that was there, and finds the manifest in it. -/
theorem of_prepare_eq_ok (h : t.IsPlain) (overwrite : Bool) (old? : Option Manifest)
    (hrun : (prepare dir overwrite : Action (Option Manifest)).run t = (.ok old?, t')) :
    dir.isEmpty = false ∧ t.ChangesOnly (fun _ => False) t' ∧ manifestAt? t dir = old?
      ∧ (old? ≠ none → t = t') := by
  rcases (prepare_eq_ok dir overwrite old?).mp hrun with ⟨hdir, hcases⟩
  refine ⟨hdir, ?_⟩
  -- There is no manifest where there is no directory, or nothing in it.
  have hnone : (∀ m, manifestAt? t dir = some m → False) → manifestAt? t dir = none := fun hno =>
    Option.eq_none_iff_forall_ne_some.mpr hno
  rcases hcases with ⟨hkind, hcreate, rfl⟩ | ⟨hkind, rfl, ⟨hempty, rfl⟩ | ⟨_, _, rfl⟩⟩
  · have htouches := touches_createChain (fun _ => False) dir.ancestors t h
    change (FileStore.createChain _ : StateM FileTree _) t = _ at hcreate
    rw [hcreate] at htouches
    refine ⟨htouches, hnone fun m hm => ?_, fun hne => absurd rfl hne⟩
    rcases admits_of_manifestAt?_eq_some dir h m hm hdir with ⟨hadmits, hdirectory, _⟩
    rw [(kind_eq_ok_iff h dir false .directory).mpr ⟨hadmits, _, hdirectory, rfl⟩] at hkind
    cases hkind
  · refine ⟨ChangesOnly.refl h, hnone fun m hm => ?_, fun _ => rfl⟩
    rcases admits_of_manifestAt?_eq_some dir h m hm hdir with ⟨hadmits, hdirectory, hbelow⟩
    rw [isEmpty_of_admits h dir hadmits hdirectory, hbelow] at hempty
    cases hempty
  · exact ⟨ChangesOnly.refl h, rfl, fun _ => rfl⟩

/-- Writing a package removes what is stale, then puts the package in place. -/
theorem of_write_eq_ok (h : t.IsPlain) (b : Bundle) (hb : b.IsOrderly) (overwrite : Bool)
    (hrun : (write b dir overwrite : Action Unit).run t = (.ok (), t')) :
    dir.isEmpty = false ∧ ∃ t₁ manifest, b.manifestText = .ok manifest
      ∧ t.ChangesOnly (fun l => ∃ text ∈ b.stale (manifestAt? t dir),
          l = place (t.address dir) text) t₁
      ∧ (∀ text ∈ b.stale (manifestAt? t dir), ∀ bytes,
          t₁.entry? (place (t.address dir) text) ≠ some (.file bytes))
      ∧ t₁.ChangesOnly (b.Occupies (t.address dir)) t'
      ∧ ∀ i ∈ b.contents manifest, Holds t' dir i := by
  rcases (write_eq_ok dir b overwrite).mp hrun with
    ⟨old?, t₁, hprepare, t₂, hclear, manifest, hmanifest, hput⟩
  rcases of_prepare_eq_ok dir h overwrite old? hprepare with ⟨hdir, hmade, hold, hsame⟩
  have hcleared : t₁.ChangesOnly (fun l => ∃ text ∈ b.stale old?,
        l = place (t.address dir) text) t₂
      ∧ ∀ text ∈ b.stale old?, ∀ bytes,
        t₂.entry? (place (t.address dir) text) ≠ some (.file bytes) := by
    cases old? with
    | none =>
        rw [forM_nil_eq_ok.mp hclear] at hmade ⊢
        exact ⟨ChangesOnly.refl hmade.plain, fun text htext => absurd htext List.not_mem_nil⟩
    | some old =>
        -- Where there is a manifest, there is a directory to remove files from.
        cases hsame (by simp)
        rcases admits_of_manifestAt?_eq_some dir h old hold hdir with ⟨hadmits, hdirectory, _⟩
        exact gone_of_forM_removeListed dir hdir hadmits hdirectory h _ hclear
  rcases holds_of_eachOf_put dir hdir _ hcleared.1.plain (hb.nodup_contents manifest)
    (hb.isNamed_contents manifest) hput with ⟨hputs, hholds⟩
  rw [hcleared.1.address, hmade.address] at hputs
  rw [hold]
  refine ⟨hdir, t₂, manifest, hmanifest, (hmade.mono fun _ => False.elim).trans hcleared.1,
    hcleared.2, hputs.mono fun l hl => (b.occupies_iff manifest _ l).mpr hl, hholds⟩

/-- Of the files that its own manifest lists a package is missing none. -/
theorem stale_manifest (b : Bundle) (hlisted : b.manifest.files = b.files.map GeneratedFile.entry) :
    b.stale (some b.manifest) = [] := by
  refine List.eq_nil_iff_forall_not_mem.mpr fun text htext => ?_
  rcases (b.mem_stale_iff _ text).mp htext with ⟨old, hold, e, he, hother, _⟩
  cases hold
  rw [hlisted] at he
  rcases List.mem_map.mp he with ⟨a, ha, rfl⟩
  exact hother a ha rfl

section Held

include hdir

variable (h : t.IsPlain) (b : Bundle) {manifest : String}
  (hmanifest : b.manifestText = .ok manifest)
variable (hholds : ∀ i ∈ b.contents manifest, Holds t dir i)

include h hmanifest hholds

/-- The manifest that is found is that of the package. -/
theorem manifestAt?_of_holds : manifestAt? t dir = some b.manifest := by
  have hindex : Holds t dir (Manifest.fileName, manifest) :=
    hholds _ (List.mem_append_right _ (List.mem_singleton_self _))
  have hread := (read_eq_ok_iff h _ _).mpr ⟨hindex.admits, hindex.entry?_address dir hdir⟩
  have htext := (b.manifestText_eq_ok manifest).mp hmanifest
  rw [manifestAt?, hread]
  exact b.manifest.readBytes?_indentedCanonical manifest htext

/-- A directory that has everything of a package passes an audit. -/
theorem audit_of_holds : (audit b dir : Action Unit).run t = (.ok (), t) := by
  rcases admits_of_manifestAt?_eq_some dir h _ (manifestAt?_of_holds dir hdir h b hmanifest hholds)
    hdir with ⟨hadmits, hdirectory, _⟩
  have hkind := (kind_eq_ok_iff h dir false .directory).mpr ⟨hadmits, _, hdirectory, rfl⟩
  exact (audit_eq_ok dir b).mpr
    ⟨hkind, manifest, hmanifest, eachOf_compare_of_holds dir hdir h _ hholds⟩

end Held

/-- Writing a package over itself changes nothing. -/
theorem same_of_write (h : t.IsPlain) (hdir : dir.isEmpty = false) (b : Bundle) (manifest : String)
    (hmanifest : b.manifestText = .ok manifest)
    (hlisted : b.manifest.files = b.files.map GeneratedFile.entry)
    (hholds : ∀ i ∈ b.contents manifest, Holds t dir i) :
    ∃ t', (write b dir true : Action Unit).run t = (.ok (), t') ∧ t.Same t' := by
  have hfound := manifestAt?_of_holds dir hdir h b hmanifest hholds
  rcases admits_of_manifestAt?_eq_some dir h _ hfound hdir with ⟨hadmits, hdirectory, hbelow⟩
  have hprepare : (prepare dir true : Action (Option Manifest)).run t
      = (.ok (some b.manifest), t) := by
    refine (prepare_eq_ok dir true _).mpr ⟨hdir, Or.inr ⟨?_, rfl, Or.inr ⟨?_, rfl, hfound⟩⟩⟩
    · exact (kind_eq_ok_iff h dir false .directory).mpr ⟨hadmits, _, hdirectory, rfl⟩
    · rw [isEmpty_of_admits h dir hadmits hdirectory, hbelow]
      rfl
  rcases same_of_eachOf_put dir hdir h _ hholds with ⟨t', hput, hsame⟩
  refine ⟨t', (write_eq_ok dir b true).mpr ⟨_, t, hprepare, t, ?_, manifest, hmanifest, hput⟩,
    hsame⟩
  rw [stale_manifest b hlisted]
  exact forM_nil_eq_ok.mpr rfl

end Output

namespace Verdict

open Output FileTree Runs

/-- Once a package is written, the tree holds the package and passes an audit. Whatever the manifest
    that was there before lists is gone, unless the package has it, and every other file is as it
    was. Writing the package once more changes nothing. -/
theorem write_leaves_package (o : Verdict) (package : PackageIdentity)
    (hcheck : package.check = .ok ()) (t t' : FileTree) (h : t.IsPlain) (dir : Path)
    (overwrite : Bool) (m : Manifest)
    (hwrite : (o.write package dir overwrite : Action Manifest).run t = (.ok m, t')) :
    ∃ b, o.bundle package = .ok b ∧ b.manifest = m
      ∧ (o.audit package dir : Action Unit).run t' = (.ok (), t')
      ∧ (∀ old, (findManifest dir : Action Manifest).run t = (.ok old, t) → ∀ e ∈ old.files,
          ¬ b.Occupies (t.address dir) (place (t.address dir) e.path) →
          ∀ bytes, t'.entry? (place (t.address dir) e.path) ≠ some (.file bytes))
      ∧ (∀ l, ¬ b.Occupies (t.address dir) l →
          (∀ old, (findManifest dir : Action Manifest).run t = (.ok old, t) →
            ∀ e ∈ old.files, l ≠ place (t.address dir) e.path) →
          ∀ bytes, t'.entry? l = some (.file bytes) ↔ t.entry? l = some (.file bytes))
      ∧ ∃ t'', (o.write package dir true : Action Manifest).run t' = (.ok m, t'')
        ∧ t'.Same t'' := by
  rcases (o.write_eq_ok package dir overwrite m).mp hwrite with ⟨b, hb, hm, hrun⟩
  have horderly : b.IsOrderly := by
    rcases Results.bind_eq_ok.mp hb with ⟨c, _, hbundle⟩
    exact c.isOrderly_of_bundle package hcheck b hbundle
  rcases of_write_eq_ok dir h b horderly overwrite hrun with
    ⟨hdir, t₁, manifest, hmanifest, hcleared, hgone, hputs, hholds⟩
  -- What is listed and stale is what the old manifest lists, apart from files of the package.
  have hstale : ∀ text, text ∈ b.stale (manifestAt? t dir) ↔ ∃ old,
      (findManifest dir : Action Manifest).run t = (.ok old, t)
        ∧ ∃ e ∈ old.files, (∀ a ∈ b.files, a.path ≠ e.path) ∧ e.path = text := by
    intro text
    simp only [b.mem_stale_iff, findManifest_eq_ok, and_true, Option.mem_def]
  have hplain := hputs.plain
  refine ⟨b, hb, hm, ?_, fun old hold e he hfree bytes hfile => ?_, fun l hfree hlisted bytes => ?_,
    ?_⟩
  · exact (o.audit_eq_ok package dir).mpr
      ⟨b, hb, audit_of_holds dir hdir hplain b hmanifest hholds⟩
  · have hother : ∀ a ∈ b.files, a.path ≠ e.path := fun a ha heq =>
      hfree (Or.inr ⟨a, ha, by rw [heq]⟩)
    rw [hputs.file_iff _ hfree] at hfile
    exact hgone e.path ((hstale _).mpr ⟨old, hold, e, he, hother, rfl⟩) bytes hfile
  · refine (hputs.file_iff l hfree bytes).trans (hcleared.file_iff l ?_ bytes)
    rintro ⟨text, htext, hl⟩
    rcases (hstale text).mp htext with ⟨old, hold, e, he, _, rfl⟩
    exact hlisted old hold e he hl
  · rcases same_of_write dir hplain hdir b manifest hmanifest horderly.listed hholds with
      ⟨t'', hagain, hsame⟩
    exact ⟨t'', (o.write_eq_ok package dir true m).mpr ⟨b, hb, hm, hagain⟩, hsame⟩

section Example

/-- The identity of a package with the name of its library. -/
def acmePackage : PackageIdentity := .ofName "acme"

/-- The verdict on a library with a service and an enumeration. -/
def alarmVerdict : Verdict := ⟨.outline "Acme.Alarm" ["Acme.Tone"], []⟩

theorem renders_alarmVerdict : alarmVerdict.contract.Renders acmePackage :=
  Contract.renders_outline acmePackage "Acme.Alarm" ["Acme.Tone"] (by decide) (by decide)
    (by decide)

/-- The manifest of a package that was written before, which lists some files. -/
def oldManifest (texts : List String) : Manifest where
  generator := toolName
  toolVersion := PlatformBridge.toolVersion
  package := acmePackage
  fingerprint := ⟨""⟩
  files := texts.map fun text => ⟨text, .dart, ⟨""⟩⟩

/-- A working directory with such a package: its manifest, a file of it, the directories that it is
    in, and notes that somebody has put beside it. -/
def oldTree (texts : List String) : FileTree where
  home := ["work"]
  entries := [
    (["index.json", "out", "work"],
      .file ((Json.indentedCanonical? (oldManifest texts).toJson).getD "").toUTF8),
    (["old.txt", "out", "work"], .file "old".toUTF8),
    (["notes.md", "out", "work"], .file "by hand".toUTF8),
    (["out", "work"], .directory),
    (["lib", "out", "work"], .directory),
    (["src", "lib", "out", "work"], .directory),
    (["services", "src", "lib", "out", "work"], .directory),
    (["data", "src", "lib", "out", "work"], .directory),
    (["native", "out", "work"], .directory)]

/-- The tree has no links, and every entry of it is in a directory. -/
theorem oldTree_isPlain (texts : List String) : (oldTree texts).IsPlain := by
  refine isPlain_of_entries ?_
  simp only [oldTree, List.forall_mem_cons]
  refine ⟨⟨?_, rfl⟩, ⟨?_, rfl⟩, ⟨?_, rfl⟩, ⟨?_, rfl⟩, ⟨?_, rfl⟩, ⟨?_, rfl⟩, ⟨?_, rfl⟩, ⟨?_, rfl⟩,
    ⟨?_, rfl⟩, by simp⟩ <;> simp

/-- The manifest that is there is found, whatever it lists. -/
theorem manifestAt?_oldTree (texts : List String) :
    manifestAt? (oldTree texts) (Path.ofText "out") = some (oldManifest texts) := by
  rcases (oldManifest texts).exists_indentedCanonical? with ⟨text, htext⟩
  have hread : (oldTree texts).read ((Path.ofText "out").join (Path.ofText Manifest.fileName))
      = .ok ((Json.indentedCanonical? (oldManifest texts).toJson).getD "").toUTF8 := rfl
  rw [manifestAt?, hread, htext]
  exact (oldManifest texts).readBytes?_indentedCanonical text htext

/-- So a directory with the old package is ready to be overwritten. -/
theorem prepare_oldTree (texts : List String) :
    (prepare (Path.ofText "out") true : Action (Option Manifest)).run (oldTree texts)
      = (.ok (some (oldManifest texts)), oldTree texts) :=
  (prepare_eq_ok _ true _).mpr
    ⟨rfl, Or.inr ⟨rfl, rfl, Or.inr ⟨rfl, rfl, manifestAt?_oldTree texts⟩⟩⟩

/-- What the old package lists and the new one does not have is stale. -/
theorem stale_oldManifest {c : Contract} {b : Bundle} (hb : c.bundle acmePackage = .ok b)
    (texts : List String) (h : ∀ text ∈ texts, text ∉ c.paths acmePackage) :
    b.stale (some (oldManifest texts)) = texts := by
  have hperm := c.path_perm_of_bundle acmePackage b hb
  have hkept : (oldManifest texts).files.filter (fun e => !(b.files.any fun a => a.path = e.path))
      = (oldManifest texts).files := by
    refine List.filter_eq_self.mpr (List.forall_mem_map.mpr fun text htext => ?_)
    rw [Bool.not_eq_true', List.any_eq_false]
    intro a ha heq
    have hpath : a.path = text := of_decide_eq_true heq
    exact h text htext (hpath ▸ hperm.mem_iff.mp (List.mem_map_of_mem ha))
  rw [Bundle.stale, Option.elim_some, hkept, oldManifest, List.map_map]
  exact List.map_id texts

/-- The tree once the only stale file is removed. -/
def clearedTree : FileTree := (oldTree ["old.txt"]).erase ["old.txt", "out", "work"]

/-- The directories are ready for everything that the package puts on disk. -/
theorem accepts_of_mem (text : String)
    (h : text ∈ alarmVerdict.contract.paths acmePackage ++ [Manifest.fileName])
    (hnamed : (Path.ofText text).IsNamed) : Accepts clearedTree (Path.ofText "out") text := by
  have hpaths : alarmVerdict.contract.paths acmePackage ++ [Manifest.fileName]
      = ["pubspec.yaml", "lib/acme.dart", "lib/src/bridge.dart", "native/mod.rs", "native/data.rs",
        "native/contract.json", "lib/src/services/alarm.dart", "native/alarm.rs",
        "lib/src/data/tone.dart", "index.json"] := by decide
  rw [hpaths] at h
  simp only [List.mem_cons, List.not_mem_nil, or_false] at h
  rcases h with rfl | rfl | rfl | rfl | rfl | rfl | rfl | rfl | rfl | rfl <;>
    refine ⟨rfl, hnamed, ⟨⟨rfl, by decide, by decide⟩, ?_⟩, (fun h => by cases h), ?_⟩ <;>
    -- Every directory on the way is there, and the names are short.
    first
    | exact (by unfold HasRoom; decide)
    | repeat first | exact trivial | refine ⟨rfl, by decide, ?_⟩

/-- A package with a service is written over one that lists a file which is stale by now. The file
    is gone, the notes beside it are as they were, and writing once more changes nothing. -/
theorem write_leaves_package_of_oldTree : acmePackage.check = .ok ()
    ∧ (oldTree ["old.txt"]).IsPlain
    ∧ FileTree.entry? (oldTree ["old.txt"]) ["old.txt", "out", "work"] = some (.file "old".toUTF8)
    ∧ ∃ m t', (alarmVerdict.write acmePackage (Path.ofText "out") true : Action Manifest).run
        (oldTree ["old.txt"]) = (.ok m, t')
      ∧ (alarmVerdict.audit acmePackage (Path.ofText "out") : Action Unit).run t' = (.ok (), t')
      ∧ (∀ bytes, t'.entry? ["old.txt", "out", "work"] ≠ some (.file bytes))
      ∧ t'.entry? ["notes.md", "out", "work"] = some (.file "by hand".toUTF8)
      ∧ ∃ t'', (alarmVerdict.write acmePackage (Path.ofText "out") true : Action Manifest).run t'
          = (.ok m, t'') ∧ t'.Same t'' := by
  have hcheck : acmePackage.check = .ok () := rfl
  rcases (Contract.exists_bundle_iff _ _).mpr renders_alarmVerdict with ⟨b, hbundle⟩
  have hb : alarmVerdict.bundle acmePackage = .ok b :=
    Results.bind_eq_ok.mpr ⟨alarmVerdict.contract, rfl, hbundle⟩
  have hperm := alarmVerdict.contract.path_perm_of_bundle acmePackage b hbundle
  have horderly := Contract.isOrderly_of_bundle _ _ hcheck b hbundle
  rcases b.manifest.exists_indentedCanonical? with ⟨manifest, htext⟩
  have hmanifest := (b.manifestText_eq_ok manifest).mpr htext
  have haccepts : ∀ i ∈ b.contents manifest, Accepts clearedTree (Path.ofText "out") i.1 := by
    intro i hi
    refine accepts_of_mem i.1 ?_ (horderly.isNamed_contents manifest i hi)
    have hmem : i.1 ∈ (b.contents manifest).map (·.1) := List.mem_map_of_mem hi
    rw [Bundle.map_fst_contents, List.mem_append] at hmem
    exact List.mem_append.mpr (hmem.imp_left hperm.mem_iff.mp)
  -- Only the stale file is removed before the package is put in place.
  have hclear : ((b.stale (some (oldManifest ["old.txt"]))).forM
      (removeListed (Path.ofText "out")) : Action Unit).run (oldTree ["old.txt"])
      = (.ok (), clearedTree) := by
    rw [stale_oldManifest hbundle ["old.txt"] (by decide)]
    exact forM_cons_eq_ok.mpr
      ⟨_, (removeListed_eq_ok _ _).mpr ⟨_, rfl, Or.inl ⟨rfl, rfl⟩⟩, forM_nil_eq_ok.mpr rfl⟩
  have hplain : clearedTree.IsPlain :=
    (changesOnly_erase (oldTree_isPlain _) _ (fun h => by cases h)).plain
  rcases exists_eachOf_put (Path.ofText "out") rfl hplain _ (horderly.nodup_contents manifest)
    haccepts with ⟨t', hput⟩
  have hwrite : (alarmVerdict.write acmePackage (Path.ofText "out") true : Action Manifest).run
      (oldTree ["old.txt"]) = (.ok b.manifest, t') :=
    (write_eq_ok _ _ _ true _).mpr ⟨b, hb, rfl, (Output.write_eq_ok _ b true).mpr
      ⟨_, _, prepare_oldTree _, clearedTree, hclear, manifest, hmanifest, hput⟩⟩
  rcases write_leaves_package alarmVerdict acmePackage hcheck _ t' (oldTree_isPlain _)
    (Path.ofText "out") true b.manifest hwrite with ⟨b', hb', _, haudit, hgone, hkept, hagain⟩
  rcases Except.ok.inj (hb.symm.trans hb') with rfl
  -- Neither the stale file nor the notes are in a place of the new package.
  have hfree : ∀ l ∈ [["old.txt", "out", "work"], ["notes.md", "out", "work"]],
      ¬ b.Occupies ["out", "work"] l := by
    have hother : ∀ l ∈ [["old.txt", "out", "work"], ["notes.md", "out", "work"]],
        ∀ text ∈ alarmVerdict.contract.paths acmePackage ++ [Manifest.fileName],
          l ≠ place ["out", "work"] text := by decide
    rintro l hl (heq | ⟨a, ha, heq⟩)
    · exact hother l hl _ (by simp) heq
    · exact hother l hl a.path
        (List.mem_append_left _ (hperm.mem_iff.mp (List.mem_map_of_mem ha))) heq
  refine ⟨hcheck, oldTree_isPlain _, rfl, _, t', hwrite, haudit, ?_, ?_, hagain⟩
  · exact hgone (oldManifest ["old.txt"])
      ((findManifest_eq_ok _ _).mpr ⟨manifestAt?_oldTree _, rfl⟩) ⟨"old.txt", .dart, ⟨""⟩⟩
      List.mem_cons_self (hfree ["old.txt", "out", "work"] (by simp))
  · refine (hkept _ (hfree _ (by simp)) (fun old hold e he => ?_) _).mpr rfl
    rw [findManifest_eq_ok, manifestAt?_oldTree] at hold
    rcases Option.some.inj hold.1 with rfl
    rw [List.mem_singleton.mp he]
    decide

end Example

end Verdict

end PlatformBridge
