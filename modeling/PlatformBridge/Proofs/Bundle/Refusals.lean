import PlatformBridge.Proofs.Bundle.Readiness
import PlatformBridge.Proofs.Bundle.Writing
import PlatformBridge.Proofs.Files.Making

/-!
# Refused Writes

A package is rendered as a whole before the directory is looked at, and the
directory is looked at before anything in it is changed. So a write that is
refused for what a contract, a package or a directory is leaves everything as it
was. What stands in the way of a file is met at the first file of the package,
before it is put in place, since the files that come after it are put in
directories that are there by then. But the paths that an old manifest lists are
followed one after the other, and what was removed before one of them is refused
is not put back.

A refusal is any error but a failure of the file system. Those can come at any
time and leave any part of the work done, and nothing is said about them.

That only the first file can be refused depends on the order of the files.
`Follows` says what is needed of it: each file that is in a directory of a
directory comes behind one that leads through the outer one. Paths of a package
are sorted, and of all places where its files can be, only files beside the
sources come before the shared library, which leads into the sources.

The one case in which directories stay behind is a directory that is missing and
whose path goes up. It is made step by step, and what it goes up from may not be
what the path of a file in it goes through.

## Main definitions

* `BundleError.IsRefusal`, `BundleError.IsOfPath`: Errors that refuse a package,
  and a path.
* `FileTree.Without`: A tree with nothing at some addresses.
* `Output.Follows`: Files of which each but the first goes where another has
  gone before.
* `Output.StopsAt`: Where a write stops that is refused.
* `Output.IsSteady`: A package of which only the first file can be refused.

## Theorems

* `Output.put_not_isRefusal`, `Output.eq_of_put_refused`: Putting single files
  in place.
* `Output.exists_of_eachOf_put_refused`: Only the first file of several is
  refused.
* `Output.without_of_removeListed`, `Output.without_of_forM_removeListed`:
  Removing stale files.
* `Output.of_contents_refused`, `Output.of_stale_refused`: Refused files, and
  refused removals.
* `Output.of_write_refused`: Refused writes of packages of which only the first
  file can be refused.
* `Contract.follows_of_bundle`, `Contract.isSteady_of_bundle`: Rendered packages
  are such packages.
* `Verdict.refusal_of_write`: What a write that is refused leaves behind.
* `Verdict.exists_refusal_not_same`: It is not always the tree as it was.
-/

namespace PlatformBridge

/-- An error that refuses to write a package. The others are failures of the file system. -/
def BundleError.IsRefusal (e : BundleError) : Prop := ∀ path reason, e ≠ .file path reason

/-- An error about a path, or about what is at a path. -/
def BundleError.IsOfPath (e : BundleError) : Prop :=
  (∃ g, e = .generation g) ∨ (∃ path, e = .outputPath path) ∨ e = .noTemporaryName

/-- An error of the file system that refuses is a refusal of its own. -/
theorem BundleError.isRefusal_of_ofFile (path : Path) (cause : FileError)
    (h : (BundleError.ofFile path cause).IsRefusal) : cause.IsRefusal := by
  cases cause with
  | notADirectory => exact Or.inl rfl
  | denied => exact Or.inr (Or.inl rfl)
  | noTemporaryName => exact Or.inr (Or.inr rfl)
  | _ => exact absurd rfl (h _ _)

/-- It is about the path that the operation was about. -/
theorem BundleError.isOfPath_of_ofFile (path : Path) (cause : FileError)
    (h : (BundleError.ofFile path cause).IsRefusal) :
    (BundleError.ofFile path cause).IsOfPath := by
  rcases isRefusal_of_ofFile path cause h with rfl | rfl | rfl
  · exact Or.inr (Or.inl ⟨_, rfl⟩)
  · exact Or.inr (Or.inl ⟨_, rfl⟩)
  · exact Or.inr (Or.inr rfl)

/-- A tree is another with nothing at some addresses. -/
structure FileTree.Without (t : FileTree) (addresses : List Address) (t' : FileTree) : Prop where
  home : t'.home = t.home
  entry : ∀ l, t'.entry? l = if l ∈ addresses then none else t.entry? l

/-- What is removed in two steps is missing after both. -/
theorem FileTree.Without.append {t t' t'' : FileTree} {addresses others : List Address}
    (h : t.Without addresses t') (h' : t'.Without others t'') :
    t.Without (addresses ++ others) t'' := by
  refine ⟨h'.home.trans h.home, fun l => ?_⟩
  rw [h'.entry, h.entry]
  by_cases hl : l ∈ addresses <;> by_cases hl' : l ∈ others <;> simp [hl, hl']

namespace Output

open FileTree Runs

variable {t t₁ t' : FileTree} {e : BundleError} (dir : Path) (hdir : dir.isEmpty = false)

section Putting

variable (path : Path) (hnamed : path.IsNamed) (front : List String) (s : String)
variable (hsegments : path.segments = front ++ [s])

include hdir hnamed hsegments

/-- The directory that a file of a package is to be put in. -/
theorem exists_above : ∃ q, (dir.join path).parent? = some q ∧ q.isEmpty = false
    ∧ q.withoutSlashes = q
    ∧ t.address q = Path.goal (start dir t.home) (dir.base ++ front)
    ∧ (t.Clear (start dir t.home) (dir.base ++ front) → t.Clear (start q t.home) q.segments)
    ∧ (front ≠ [] → q.segments = dir.base ++ front) := by
  have hjoin : (dir.join path).segments = (dir.base ++ front) ++ [s] := by
    rw [Path.segments_join dir _ hnamed.isAbsolute, hsegments, List.append_assoc]
  have hpresent := Path.isEmpty_join dir path hdir hnamed.isAbsolute hnamed.ne_nil
  have hidle : ∀ s' ∈ path.segments, Path.isIdle s' = false := fun s' hs' =>
    (hnamed.steps s' hs').notIdle
  rw [hsegments, List.forall_mem_append, List.forall_mem_singleton] at hidle
  rcases exists_parent (t := t) (dir.join path) hpresent _ s hjoin hidle.2
    (List.append_ne_nil_of_left_ne_nil (Path.base_ne_nil dir hdir) front) with
    ⟨q, hq, hqpresent, hslashes, haddress, hclear, hlast⟩
  rw [Path.start_join dir path hdir hnamed.isAbsolute hnamed.ne_nil] at haddress hclear
  refine ⟨q, hq, hqpresent, hslashes, haddress, hclear, fun hne => ?_⟩
  rcases List.eq_nil_or_concat front with hnil | ⟨others, name, hconcat⟩
  · exact absurd hnil hne
  · rw [List.concat_eq_append] at hconcat
    refine hlast name ?_ (hidle.1 name (hconcat ▸ by simp))
    rw [hconcat, ← List.append_assoc, List.getLast?_concat]

/-- A file is not refused if no other file is in its way. -/
theorem put_not_isRefusal (h : t.IsPlain) (text : String)
    (hclear : t.Clear (start dir t.home) (dir.base ++ front))
    (hput : (put dir path text : Action Unit).run t = (.error e, t')) : ¬ e.IsRefusal := by
  rcases exists_above (t := t) dir hdir path hnamed front s hsegments with
    ⟨q, hq, hqpresent, hslashes, haddress, hqclear, _⟩
  -- Either the directories above the file are not made, or the file is not set.
  rcases of_put_eq_error dir text path hput with ⟨cause, hcreate, he⟩ | ⟨hcreate, hcases⟩
  · rw [hq] at hcreate
    rw [← he]
    exact fun hrefusal => createDirectories_not_isRefusal h q (hqclear hclear) cause hcreate
      (BundleError.isRefusal_of_ofFile _ cause hrefusal)
  · rw [hq] at hcreate
    have hmade := changesOnly_of_made h (fun _ => False) q.ancestors _ hcreate
    rcases hcases with ⟨hkind, _⟩ | ⟨cause, hreplace, he⟩
    · -- Nothing in the tree is a link.
      rcases (kind_eq_ok_iff hmade.plain _ false .link).mp hkind with ⟨_, entry, hentry, hlink⟩
      cases entry with
      | link target => exact absurd hentry (hmade.plain.noLinks _ target)
      | file bytes => cases hlink
      | directory => cases hlink
    · -- The directory that the file is put in was made, so it is not in the way either.
      have hthere := entry?_of_createDirectories h q hqpresent hslashes hcreate
      rw [haddress] at hthere
      have hall : t'.Clear (start (dir.join path) t'.home) (dir.join path).segments := by
        rw [Path.start_join dir path hdir hnamed.isAbsolute hnamed.ne_nil, hmade.home,
          Path.segments_join dir path hnamed.isAbsolute, hsegments, ← List.append_assoc,
          clear_append]
        refine ⟨hmade.clear _ _ hclear, fun bytes hfile => ?_, trivial⟩
        rw [hthere] at hfile
        cases hfile
      rw [← he]
      exact fun hrefusal => replace_not_isRefusal hmade.plain _ hall _ cause hreplace
        (BundleError.isRefusal_of_ofFile _ cause hrefusal)

/-- A file that is refused below a directory that is there leaves the tree as it is. -/
theorem eq_of_put_refused (h : t.IsPlain) (text : String)
    (hpasses : t.Passes (start dir t.home) dir.base)
    (hdirectory : t.entry? (t.address dir) = some .directory) (he : e.IsRefusal)
    (hput : (put dir path text : Action Unit).run t = (.error e, t')) : t' = t := by
  rw [address, ← Path.goal_base] at hdirectory
  have hblocked : ¬ t.Clear (start dir t.home) (dir.base ++ front) := fun hclear =>
    put_not_isRefusal dir hdir path hnamed front s hsegments h text hclear hput he
  -- In the directory itself nothing can be in the way.
  have hne : front ≠ [] := by
    rintro rfl
    rw [List.append_nil] at hblocked
    exact hblocked (clear_of_passes _ _ hpasses)
  rcases exists_above (t := t) dir hdir path hnamed front s hsegments with
    ⟨q, hq, hqpresent, hslashes, _, _, hqsegments⟩
  have hstart : start q t.home = start dir t.home := by
    refine Path.start_eq q dir hqpresent hdir ?_ _
    rw [hqsegments hne, Path.head?_base_append dir hdir]
  have hup : ".." ∉ front := fun hmem => hnamed.notUp (hsegments ▸ List.mem_append_left _ hmem)
  rcases createDirectories_of_not_clear h q hqpresent hslashes dir.base front (hqsegments hne) hup
    (hstart ▸ hpasses) (hstart ▸ hdirectory) (hstart ▸ (hqsegments hne) ▸ hblocked) with
    ⟨cause, hrefused⟩
  rcases of_put_eq_error dir text path hput with ⟨_, hcreate, _⟩ | ⟨hcreate, _⟩
  · rw [hq] at hcreate
    exact (Prod.mk.inj (hcreate.symm.trans hrefused)).2
  · rw [hq] at hcreate
    cases hcreate.symm.trans hrefused

end Putting

/-- A file that is not put in place leaves nothing behind but directories. -/
theorem changesOnly_of_put_eq_error (h : t.IsPlain) (path : Path) (text : String)
    (hput : (put dir path text : Action Unit).run t = (.error e, t')) :
    t.ChangesOnly (fun _ => False) t' := by
  rcases of_put_eq_error dir text path hput with ⟨_, hcreate, _⟩ | ⟨hcreate, _⟩ <;>
    exact changesOnly_of_made h _ _ _ hcreate

include hdir in
/-- Nothing is in the way below a directory that is missing. -/
theorem clear_below_missing (h : t.IsPlain) (hup : ".." ∉ dir.segments)
    (hkind : t.kind false dir = .error .notFound) (names : List String) (hnames : ".." ∉ names) :
    t.Clear (start dir t.home) (dir.base ++ names) := by
  have hclear := clear_of_kind_eq_notFound h dir false hdir hup hkind
  have hmissing := entry?_of_kind_eq_notFound h dir false hdir [] dir.segments rfl hup trivial
    .directory (entry?_start dir) hkind
  rw [address, ← Path.goal_base] at hmissing
  rw [clear_append]
  refine ⟨?_, clear_of_missing h _ names hnames hmissing⟩
  rcases dir.segments_eq with hsegments | hsegments
  · rwa [hsegments] at hclear
  · rw [hsegments, clear_append] at hclear
    exact hclear.1

/-- Of texts that are put in place one after the other, each that leads through two directories or
    more, but for the first, comes after one that leads through all of them but the last. -/
def Follows (texts : List String) : Prop :=
  ∀ done text rest, texts = done ++ text :: rest → done ≠ [] → ∀ lead directory name,
    (Path.ofText text).segments = lead ++ [directory, name] → lead ≠ [] →
    ∃ other ∈ done, ∃ tail, tail ≠ [] ∧ (Path.ofText other).segments = lead ++ tail

section Each

include hdir

/-- What a file that is in place leads through is not in the way. -/
theorem Holds.clear (i : String × String) (hholds : Holds t dir i) (lead tail : List String)
    (hsegments : (Path.ofText i.1).segments = lead ++ tail) (hne : tail ≠ []) (directory : String) :
    t.Clear (start dir t.home) (dir.base ++ lead ++ [directory]) := by
  have habsolute := hholds.named.isAbsolute
  have hpasses := hholds.admits.passes
  rw [Path.start_join dir _ hdir habsolute hholds.named.ne_nil, Path.segments_join dir _ habsolute,
    hsegments, ← List.append_assoc, passes_append] at hpasses
  rcases List.exists_cons_of_ne_nil hne with ⟨s, rest, rfl⟩
  rw [clear_append]
  refine ⟨clear_of_passes _ _ hpasses.1, fun bytes hfile => ?_, trivial⟩
  rw [hpasses.2.1] at hfile
  cases hfile

/-- Nothing is in the way of a file that follows others which are in place. -/
theorem clear_of_holds (done : List (String × String)) (hdone : done ≠ [])
    (hholds : ∀ j ∈ done, Holds t dir j) (front : List String)
    (hfollows : ∀ lead directory, front = lead ++ [directory] → lead ≠ [] →
      ∃ j ∈ done, ∃ tail, tail ≠ [] ∧ (Path.ofText j.1).segments = lead ++ tail) :
    t.Clear (start dir t.home) (dir.base ++ front) := by
  rcases List.exists_mem_of_ne_nil done hdone with ⟨first, hfirst⟩
  have hbase : ∀ directory, t.Clear (start dir t.home) (dir.base ++ [directory]) := by
    intro directory
    have hclear := (hholds first hfirst).clear dir hdir first [] _ rfl
      (hholds first hfirst).named.ne_nil directory
    rwa [List.append_nil] at hclear
  rcases List.eq_nil_or_concat front with rfl | ⟨lead, directory, hfront⟩
  · rw [List.append_nil]
    exact ((clear_append _ _ _).mp (hbase "")).1
  · rw [List.concat_eq_append] at hfront
    by_cases hlead : lead = []
    · rw [hfront, hlead]
      exact hbase directory
    · rcases hfollows lead directory hfront hlead with ⟨j, hj, tail, hne, hsegments⟩
      rw [hfront, ← List.append_assoc]
      exact (hholds j hj).clear dir hdir j lead tail hsegments hne directory

/-- Once the first file is in place, none is refused. -/
theorem exists_of_eachOf_put_refused (h : t.IsPlain) (items : List (String × String))
    (hdistinct : (items.map (·.1)).Nodup)
    (hpaths : ∀ i ∈ items, (Path.ofText i.1).IsNamed ∧ pathBelow i.1 = .ok (Path.ofText i.1))
    (hfollows : Follows (items.map (·.1))) (he : e.IsRefusal)
    (hrun : (eachOf (put dir) items).run t = (.error e, t')) :
    ∃ i ∈ items.head?, (put dir (Path.ofText i.1) i.2 : Action Unit).run t = (.error e, t') := by
  rcases exists_of_eachOf_eq_error _ items hrun with ⟨done, i, rest, t₁, rfl, hdone, hi⟩
  rw [List.forall_mem_append, List.forall_mem_cons] at hpaths
  rcases hpaths with ⟨hbefore, ⟨hnamed, hbelow⟩, _⟩
  have hput : (put dir (Path.ofText i.1) i.2 : Action Unit).run t₁ = (.error e, t') := by
    rcases hi with ⟨⟨g, hg, _⟩, _⟩ | ⟨path, hpath, hput⟩
    · rw [hbelow] at hg
      cases hg
    · rw [hbelow] at hpath
      cases hpath
      exact hput
  cases done with
  | nil =>
      rw [(eachOf_nil_eq_ok _).mp hdone]
      exact ⟨i, rfl, hput⟩
  | cons first others =>
      -- What is in place by now has made the directories for this file, so it is not refused.
      exfalso
      rw [List.map_append, List.nodup_append] at hdistinct
      rcases holds_of_eachOf_put dir hdir _ h hdistinct.1 (fun j hj => (hbefore j hj).1) hdone with
        ⟨hchanges, hholds⟩
      rcases hnamed.exists_concat with ⟨front, s, hsegments, _⟩
      refine put_not_isRefusal dir hdir _ hnamed front s hsegments hchanges.plain i.2 ?_ hput he
      refine clear_of_holds dir hdir (first :: others) (List.cons_ne_nil _ _) hholds front ?_
      rintro lead directory rfl hlead
      rw [List.append_assoc] at hsegments
      rcases hfollows ((first :: others).map (·.1)) i.1 (rest.map (·.1)) (by simp) (by simp)
        lead directory s hsegments hlead with ⟨other, hother, tail⟩
      rcases List.mem_map.mp hother with ⟨j, hj, rfl⟩
      exact ⟨j, hj, tail⟩

end Each

section Removing

variable (hadmits : t.Admits dir) (hdirectory : t.entry? (t.address dir) = some .directory)

include hdir hadmits hdirectory

/-- A listed file that is removed is all that is missing then. -/
theorem without_of_removeListed (h : t.IsPlain) (text : String)
    (hrun : (removeListed dir text : Action Unit).run t = (.ok (), t')) :
    t.Without [place (t.address dir) text] t'
      ∧ (t' = t ∨ ∃ bytes, t.entry? (place (t.address dir) text) = some (.file bytes)) := by
  have hgone := (gone_of_removeListed dir hdir hadmits hdirectory h text hrun).2
  rcases (removeListed_eq_ok dir text).mp hrun with ⟨path, hpath, ⟨hkind, hremove⟩ | ⟨_, rfl⟩⟩
  · rcases (kind_eq_ok_iff h _ false .file).mp hkind with ⟨hfollow, e, hentry, he⟩
    cases e with
    | file bytes =>
        rw [remove_of_file h _ hfollow bytes hentry, Except.ok.injEq] at hremove
        rw [address_of_pathBelow dir hdir text path hpath] at hentry hremove
        refine ⟨⟨hremove ▸ rfl, fun l => ?_⟩, Or.inr ⟨bytes, hentry⟩⟩
        rw [← hremove, entry?_erase t _ (by simp [hentry])]
        simp only [List.mem_singleton]
    | directory => cases he
    | link target => cases he
  · refine ⟨⟨rfl, fun l => ?_⟩, Or.inl rfl⟩
    split
    · rename_i hl
      rw [List.mem_singleton.mp hl, hgone]
    · rfl

/-- Listed files that are removed are all that is missing then. -/
theorem without_of_forM_removeListed (h : t.IsPlain) (texts : List String)
    (hrun : (texts.forM (removeListed dir) : Action Unit).run t = (.ok (), t')) :
    t.Without (texts.map (place (t.address dir))) t'
      ∧ (t' = t ∨ ∃ text ∈ texts, ∃ bytes,
          t.entry? (place (t.address dir) text) = some (.file bytes)) := by
  induction texts generalizing t with
  | nil =>
      rw [forM_nil_eq_ok.mp hrun]
      exact ⟨⟨rfl, fun l => by simp⟩, Or.inl rfl⟩
  | cons text rest ih =>
      rcases forM_cons_eq_ok.mp hrun with ⟨t₁, hremove, hrest⟩
      rcases gone_of_removeListed dir hdir hadmits hdirectory h text hremove with ⟨hfirst, _⟩
      rcases without_of_removeListed dir hdir hadmits hdirectory h text hremove with
        ⟨hwithout, hfile⟩
      have haddress := hfirst.address dir
      rcases ih (hfirst.admits _ hadmits) (haddress ▸ hfirst.directories _ hdirectory)
        hfirst.plain hrest with ⟨hothers, hfile'⟩
      rw [haddress] at hothers hfile'
      refine ⟨hwithout.append hothers, ?_⟩
      rcases hfile with rfl | hfile
      · exact hfile'.imp_right fun ⟨other, hother, hbytes⟩ =>
          ⟨other, List.mem_cons_of_mem text hother, hbytes⟩
      · exact Or.inr ⟨text, List.mem_cons_self, hfile⟩

end Removing

/-- Where a write stops that is refused: at the first listed file that is still to be removed, or at
    the first file of the package once there is none. -/
def StopsAt (b : Bundle) (rest : List String) (e : BundleError) (t : FileTree) : Prop :=
  match rest with
  | text :: _ => (removeListed dir text : Action Unit).run t = (.error e, t)
  | [] => ∃ a ∈ b.files.head?,
      (put dir (Path.ofText a.path) a.text : Action Unit).run t = (.error e, t)

/-- What refuses a file is its path, or what is there. -/
theorem isOfPath_of_put_eq_error (path : Path) (text : String) (he : e.IsRefusal)
    (hput : (put dir path text : Action Unit).run t = (.error e, t')) : e.IsOfPath := by
  rcases of_put_eq_error dir text path hput with
    ⟨cause, _, rfl⟩ | ⟨_, ⟨_, rfl⟩ | ⟨cause, _, rfl⟩⟩
  · exact BundleError.isOfPath_of_ofFile _ cause he
  · exact Or.inr (Or.inl ⟨_, rfl⟩)
  · exact BundleError.isOfPath_of_ofFile _ cause he

/-- What refuses a removal is the path that is listed, or what is there. -/
theorem isOfPath_of_removeListed_eq_error (text : String) (he : e.IsRefusal)
    (hrun : (removeListed dir text : Action Unit).run t = (.error e, t')) : e.IsOfPath := by
  rcases (of_removeListed_eq_error dir text hrun).2 with
    ⟨g, _, rfl⟩ | ⟨path, _, rfl | ⟨cause, rfl⟩⟩
  · exact Or.inl ⟨g, rfl⟩
  · exact Or.inr (Or.inl ⟨_, rfl⟩)
  · exact BundleError.isOfPath_of_ofFile _ cause he

/-- If the directory cannot be made then the tree is as it was, or the path goes up. -/
theorem of_prepare_refused (h : t.IsPlain) (he : e.IsRefusal) (overwrite : Bool)
    (hrun : (prepare dir overwrite : Action (Option Manifest)).run t = (.error e, t')) :
    t' = t ∨ e.IsOfPath ∧ ".." ∈ dir.segments ∧ t.kind false dir = .error .notFound
      ∧ t.ChangesOnly (fun _ => False) t' := by
  rcases of_prepare_eq_error dir overwrite hrun with ⟨rfl, _⟩ | ⟨hdir, hkind, cause, hcreate, rfl⟩
  · exact Or.inl rfl
  · refine Or.inr ⟨BundleError.isOfPath_of_ofFile _ _ he, ?_, hkind,
      changesOnly_of_made h _ _ _ hcreate⟩
    by_contra hup
    exact createDirectories_not_isRefusal h dir
      (clear_of_kind_eq_notFound h dir false hdir hup hkind) cause hcreate
      (BundleError.isRefusal_of_ofFile _ cause he)

/-- A package of which nothing is refused once its first file is in place. -/
structure IsSteady (b : Bundle) : Prop where
  ne_nil : b.files ≠ []
  orderly : b.IsOrderly
  below : ∀ a ∈ b.files, pathBelow a.path = .ok (Path.ofText a.path)
  follows : ∀ manifest, Follows ((b.contents manifest).map (·.1))

section Writing

variable (b : Bundle) (hb : IsSteady b) (he : e.IsRefusal)

include hb he

include hdir in
/-- If a file of a package is refused then it is the first. -/
theorem exists_of_contents_refused (h : t.IsPlain) (manifest : String)
    (hrun : (eachOf (put dir) (b.contents manifest)).run t = (.error e, t')) :
    ∃ a ∈ b.files.head?, (Path.ofText a.path).IsNamed
      ∧ (put dir (Path.ofText a.path) a.text : Action Unit).run t = (.error e, t') := by
  have hpaths : ∀ i ∈ b.contents manifest,
      (Path.ofText i.1).IsNamed ∧ pathBelow i.1 = .ok (Path.ofText i.1) := by
    intro i hi
    refine ⟨hb.orderly.isNamed_contents manifest i hi, ?_⟩
    rcases List.mem_append.mp hi with hi | hi
    · rcases List.mem_map.mp hi with ⟨a, ha, rfl⟩
      exact hb.below a ha
    · rw [List.mem_singleton.mp hi]
      exact pathBelow_fileName
  rcases exists_of_eachOf_put_refused dir hdir h _ (hb.orderly.nodup_contents manifest) hpaths
    (hb.follows manifest) he hrun with ⟨i, hi, hput⟩
  rcases List.exists_cons_of_ne_nil hb.ne_nil with ⟨a, rest, hfiles⟩
  rw [Bundle.contents, hfiles, List.map_cons, List.cons_append, List.head?_cons,
    Option.mem_some_iff] at hi
  subst hi
  exact ⟨a, by rw [hfiles]; rfl, hb.orderly.named a (hfiles ▸ List.mem_cons_self), hput⟩

include hdir in
/-- In a directory that was missing a file is refused only if the path of the directory goes up. -/
theorem of_contents_refused (h : t.IsPlain) (hkind : t.kind false dir = .error .notFound)
    (hmade : t.ChangesOnly (fun _ => False) t₁) (manifest : String)
    (hrun : (eachOf (put dir) (b.contents manifest)).run t₁ = (.error e, t')) :
    e.IsOfPath ∧ ".." ∈ dir.segments ∧ t.kind false dir = .error .notFound
      ∧ t.ChangesOnly (fun _ => False) t' := by
  rcases exists_of_contents_refused dir hdir b hb he hmade.plain manifest hrun with
    ⟨a, _, hnamed, hput⟩
  refine ⟨isOfPath_of_put_eq_error dir _ a.text he hput, ?_, hkind,
    hmade.trans (changesOnly_of_put_eq_error dir hmade.plain _ a.text hput)⟩
  by_contra hup
  rcases hnamed.exists_concat with ⟨front, s, hsegments, _⟩
  have hfront : ".." ∉ front := fun hmem =>
    hnamed.notUp (hsegments ▸ List.mem_append_left _ hmem)
  have hclear := hmade.clear _ _ (clear_below_missing dir hdir h hup hkind front hfront)
  rw [← hmade.home] at hclear
  exact put_not_isRefusal dir hdir _ hnamed front s hsegments hmade.plain a.text hclear hput he

include hdir in
/-- In a directory that was there what is missing are stale files, up to what is refused. -/
theorem of_stale_refused (h : t.IsPlain) (hadmits : t.Admits dir)
    (hdirectory : t.entry? (t.address dir) = some .directory) (old? : Option Manifest)
    (hrun : ((b.stale old?).forM (removeListed dir) : Action Unit).run t = (.error e, t')
      ∨ ∃ t₁ manifest, ((b.stale old?).forM (removeListed dir) : Action Unit).run t = (.ok (), t₁)
        ∧ (eachOf (put dir) (b.contents manifest)).run t₁ = (.error e, t')) :
    t' = t ∨ e.IsOfPath ∧ ∃ done rest, b.stale old? = done ++ rest ∧ StopsAt dir b rest e t'
      ∧ (∃ text ∈ done, ∃ bytes, t.entry? (place (t.address dir) text) = some (.file bytes))
      ∧ t.Without (done.map (place (t.address dir))) t' := by
  rcases hrun with hrun | ⟨t₁, manifest, hremoved, hrun⟩
  · rcases exists_of_forM_eq_error hrun with ⟨done, text, rest, t₁, hstale, hdone, hfail⟩
    -- The removal that is refused leaves the tree as it found it.
    rcases (of_removeListed_eq_error dir text hfail).1 with rfl
    rcases without_of_forM_removeListed dir hdir hadmits hdirectory h done hdone with
      ⟨hwithout, hfile⟩
    exact hfile.imp_right fun hfile => ⟨isOfPath_of_removeListed_eq_error dir text he hfail,
      done, text :: rest, hstale, hfail, hfile, hwithout⟩
  · rcases gone_of_forM_removeListed dir hdir hadmits hdirectory h _ hremoved with ⟨hcleared, _⟩
    rcases without_of_forM_removeListed dir hdir hadmits hdirectory h _ hremoved with
      ⟨hwithout, hfile⟩
    rcases exists_of_contents_refused dir hdir b hb he hcleared.plain manifest hrun with
      ⟨a, ha, hnamed, hput⟩
    rcases hnamed.exists_concat with ⟨front, s, hsegments, _⟩
    -- So does the file, since the directory is there and all that was removed are files.
    rcases eq_of_put_refused dir hdir _ hnamed front s hsegments hcleared.plain a.text
      (passes_base dir _ (hcleared.admits dir hadmits).passes)
      (hcleared.address dir ▸ hcleared.directories _ hdirectory) he hput with rfl
    exact hfile.imp_right fun hfile => ⟨isOfPath_of_put_eq_error dir _ a.text he hput,
      _, [], (List.append_nil _).symm, ⟨a, ha, hput⟩, hfile, hwithout⟩

/-- A write that is refused leaves the tree as it is, except that files may be gone that an old
    manifest lists before what is refused, or that directories may have been made on the way to a
    directory that a path goes up to. -/
theorem of_write_refused (h : t.IsPlain) (overwrite : Bool)
    (hrun : (write b dir overwrite : Action Unit).run t = (.error e, t')) :
    t' = t ∨ e.IsOfPath ∧
      ((overwrite = true ∧ ∃ old done rest, manifestAt? t dir = some old
          ∧ b.stale (some old) = done ++ rest ∧ StopsAt dir b rest e t'
          ∧ (∃ text ∈ done, ∃ bytes, t.entry? (place (t.address dir) text) = some (.file bytes))
          ∧ t.Without (done.map (place (t.address dir))) t')
        ∨ (".." ∈ dir.segments ∧ t.kind false dir = .error .notFound
          ∧ t.ChangesOnly (fun _ => False) t')) := by
  rcases of_write_eq_error dir b overwrite hrun with hprepare | ⟨old?, t₁, hprepare, hrest⟩
  · exact (of_prepare_refused dir h he overwrite hprepare).imp_right fun ⟨hpath, hup⟩ =>
      ⟨hpath, Or.inr hup⟩
  rcases (prepare_eq_ok dir overwrite old?).mp hprepare with
    ⟨hdir, ⟨hkind, hcreate, rfl⟩ | ⟨hkind, rfl, hfound⟩⟩
  · -- Where the directory was missing, there is nothing to remove.
    rcases hrest with hrest | ⟨t₂, manifest, hremoved, hrun⟩
    · cases hrest
    rcases forM_nil_eq_ok.mp hremoved with rfl
    have hmade := changesOnly_of_made h (fun _ => False) dir.ancestors _ hcreate
    rcases of_contents_refused dir hdir b hb he h hkind hmade manifest hrun with ⟨hpath, hup⟩
    exact Or.inr ⟨hpath, Or.inr hup⟩
  · rcases (kind_eq_ok_iff h dir false .directory).mp hkind with ⟨hadmits, entry, hentry, hentry'⟩
    have hdirectory : t.entry? (t.address dir) = some .directory := by
      cases entry with
      | directory => exact hentry
      | file bytes => cases hentry'
      | link target => cases hentry'
    refine (of_stale_refused dir hdir b hb he h hadmits hdirectory old? hrest).imp_right ?_
    rintro ⟨hpath, done, rest, hstale, hstops, hfile, hwithout⟩
    refine ⟨hpath, Or.inl ?_⟩
    -- A file is removed only on account of an old manifest.
    rcases hfile with ⟨text, htext, hbytes⟩
    cases old? with
    | none => exact absurd (hstale ▸ List.mem_append_left rest htext) List.not_mem_nil
    | some old =>
        rcases hfound with ⟨_, hnone⟩ | ⟨_, hoverwrite, hold⟩
        · cases hnone
        · exact ⟨hoverwrite, old, done, rest, hold, hstale, hstops, ⟨text, htext, hbytes⟩,
            hwithout⟩

end Writing

end Output

namespace Contract

open Output

variable (c : Contract) (package : PackageIdentity)

/-- Only files in the directory above that of the shared library come before it. -/
theorem of_lt_shared (segments : List String) (h : IsLocation segments)
    (hlt : "/".intercalate segments < "lib/src/bridge.dart") :
    ∃ file, segments = ["lib", file] := by
  rw [String.lt_iff_toList_lt, String.toList_intercalate] at hlt
  cases h with
  | library file => exact ⟨file, rfl⟩
  | description | shared | service | data | native => simp [List.cons_lt_cons_iff] at hlt

/-- What a path of a package leads through. -/
theorem exists_segments_of_mem_files (hcheck : package.check = .ok ()) (b : Bundle)
    (h : c.bundle package = .ok b) (path : String) (hpath : path ∈ b.files.map (·.path)) :
    ∃ segments, IsLocation segments ∧ (Path.ofText path).segments = segments
      ∧ path = "/".intercalate segments := by
  rcases c.exists_location_of_mem_paths package hcheck path
    ((c.path_perm_of_bundle package b h).mem_iff.mp hpath) with ⟨segments, hloc, hsteps, rfl⟩
  have hne : segments ≠ [] := by cases hloc <;> exact List.cons_ne_nil _ _
  exact ⟨segments, hloc, congrArg Path.segments
    (Path.ofText_intercalate segments hne fun s hs => (hsteps s hs).noSlash), rfl⟩

/-- The manifest is in no directory, so what leads through one is the path of a file. -/
theorem exists_files_of_contents (b : Bundle) (manifest : String) (done rest : List String)
    (text : String) (h : (b.contents manifest).map (·.1) = done ++ text :: rest)
    (hdeep : 1 < (Path.ofText text).segments.length) :
    ∃ others, b.files.map (·.path) = done ++ text :: others := by
  rw [Bundle.map_fst_contents] at h
  rcases List.eq_nil_or_concat rest with rfl | ⟨others, last, rfl⟩
  · have htext := List.singleton_inj.mp (List.append_inj_right' h rfl)
    rw [← htext] at hdeep
    exact absurd hdeep (by decide)
  · rw [List.concat_eq_append, ← List.cons_append, ← List.append_assoc] at h
    exact ⟨others, List.append_inj_left' h rfl⟩

/-- The shared library comes before the files in the directories beside it, and what comes before
    the shared library is in the directory above. -/
theorem follows_of_bundle (hcheck : package.check = .ok ()) (b : Bundle)
    (h : c.bundle package = .ok b) (manifest : String) :
    Follows ((b.contents manifest).map (·.1)) := by
  intro done text rest htexts hdone lead directory name hsegments hlead
  have hpos := List.length_pos_iff.mpr hlead
  have hdeep : 1 < (Path.ofText text).segments.length := by
    rw [hsegments, List.length_append]
    exact Nat.lt_add_left _ (Nat.lt_succ_self 1)
  rcases exists_files_of_contents b manifest done rest text htexts hdeep with ⟨others, hfiles⟩
  have hsorted := c.pairwise_of_bundle package b h
  have hlocation := c.exists_segments_of_mem_files package hcheck b h
  have hshared : "lib/src/bridge.dart" ∈ b.files.map (·.path) :=
    (c.path_perm_of_bundle package b h).mem_iff.mpr (by simp [paths])
  rw [hfiles] at hsorted hlocation hshared
  rw [List.pairwise_append, List.pairwise_cons] at hsorted
  rcases hsorted with ⟨_, ⟨hafter, _⟩, hbefore⟩
  rcases hlocation text (by simp) with ⟨segments, hloc, hpath, htext⟩
  rw [hsegments] at hpath
  -- A file further down comes after the shared library.
  have hfurther : ∀ folder file, IsLocation ["lib", "src", folder, file] →
      segments = ["lib", "src", folder, file] → ∃ other ∈ done, ∃ tail, tail ≠ []
        ∧ (Path.ofText other).segments = lead ++ tail := by
    rintro folder file hdown rfl
    have hlead : lead = ["lib", "src"] :=
      List.append_inj_left' (show lead ++ _ = ["lib", "src"] ++ [folder, file] from hpath) rfl
    refine ⟨"lib/src/bridge.dart", ?_, ["bridge.dart"], by simp, by rw [hlead]; decide⟩
    rcases List.mem_append.mp hshared with hmem | hmem
    · exact hmem
    · rcases List.mem_cons.mp hmem with rfl | hmem
      · rw [hpath] at hsegments
        cases hsegments
      · have hlt := hafter _ hmem
        rw [htext] at hlt
        rcases of_lt_shared _ hdown hlt with ⟨_, h⟩
        cases h
  cases hloc with
  | shared =>
      have hlead : lead = ["lib"] :=
        List.append_inj_left' (show lead ++ _ = ["lib"] ++ ["src", "bridge.dart"] from hpath) rfl
      rcases List.exists_mem_of_ne_nil done hdone with ⟨other, hother⟩
      rcases hlocation other (List.mem_append_left _ hother) with ⟨segments, hloc, hsegs, hother'⟩
      have hlt := hbefore other hother text List.mem_cons_self
      rw [htext, hother'] at hlt
      rcases of_lt_shared segments hloc hlt with ⟨file, rfl⟩
      exact ⟨other, hother, [file], by simp, by rw [hsegs, hlead]; rfl⟩
  | service file => exact hfurther "services" file (.service file) rfl
  | data file => exact hfurther "data" file (.data file) rfl
  | description | library | native =>
      -- These are in the directory itself, or in one in it.
      have hlength := congrArg List.length hpath
      rw [List.length_append] at hlength
      simp only [List.length_cons, List.length_nil] at hlength
      omega

/-- Of a package that is rendered nothing is refused once its first file is in place. -/
theorem isSteady_of_bundle (hcheck : package.check = .ok ()) (b : Bundle)
    (h : c.bundle package = .ok b) : IsSteady b := by
  have hperm := c.path_perm_of_bundle package b h
  refine ⟨fun hnone => ?_, c.isOrderly_of_bundle package hcheck b h, fun a ha => ?_,
    c.follows_of_bundle package hcheck b h⟩
  · have hlength := hperm.length_eq
    simp [hnone, paths] at hlength
  · exact c.pathBelow_of_mem_paths package hcheck a.path
      (hperm.mem_iff.mp (List.mem_map_of_mem ha))

end Contract

namespace Verdict

open Output FileTree Runs

/-- A write that is refused leaves the tree as it was, with two exceptions, in both of which a path
    is what is refused. Where an old manifest is overwritten, the stale files that it lists before
    what is refused are gone, one of which at least was there, and nothing else has changed. Where a
    directory is missing and its path goes up, directories may have been made on the way. -/
theorem refusal_of_write (o : Verdict) (package : PackageIdentity)
    (hcheck : package.check = .ok ()) (t t' : FileTree) (h : t.IsPlain) (dir : Path)
    (overwrite : Bool) (e : BundleError) (he : e.IsRefusal)
    (hwrite : (o.write package dir overwrite : Action Manifest).run t = (.error e, t')) :
    t' = t ∨ e.IsOfPath ∧
      ((overwrite = true ∧ ∃ b old done rest, o.bundle package = .ok b
          ∧ (findManifest dir : Action Manifest).run t = (.ok old, t)
          ∧ b.stale (some old) = done ++ rest ∧ StopsAt dir b rest e t'
          ∧ (∃ text ∈ done, ∃ bytes, t.entry? (place (t.address dir) text) = some (.file bytes))
          ∧ t.Without (done.map (place (t.address dir))) t')
        ∨ (".." ∈ dir.segments ∧ t.kind false dir = .error .notFound
          ∧ t.ChangesOnly (fun _ => False) t')) := by
  rcases o.of_write_eq_error package dir overwrite hwrite with ⟨_, rfl⟩ | ⟨b, hb, hrun⟩
  · exact Or.inl rfl
  · rcases Results.bind_eq_ok.mp hb with ⟨c, _, hbundle⟩
    refine (of_write_refused dir b (c.isSteady_of_bundle package hcheck b hbundle) he h overwrite
      hrun).imp_right fun ⟨hpath, hcases⟩ => ⟨hpath, hcases.imp_left ?_⟩
    rintro ⟨hoverwrite, old, done, rest, hold, hrest⟩
    exact ⟨hoverwrite, b, old, done, rest, hb, (findManifest_eq_ok dir old).mpr ⟨hold, rfl⟩, hrest⟩

/-- The verdict on a library that offers nothing. -/
def bareVerdict : Verdict := ⟨⟨"Acme", [], []⟩, []⟩

theorem renders_bareVerdict : bareVerdict.contract.Renders acmePackage := by
  have hservices : bareVerdict.contract.services = [] := rfl
  have hdataTypes : bareVerdict.contract.dataTypes = [] := rfl
  refine ⟨?_, ?_, ?_, ?_, by decide, by decide, by decide⟩ <;> simp [hservices, hdataTypes]

/-- A manifest lists a file of its directory, then one outside of it. -/
def strayTexts : List String := ["old.txt", "../secret.txt"]

/-- Overwriting is refused on account of the second file, when the first has been removed. -/
theorem write_oldTree_strayTexts : ∃ t',
    (bareVerdict.write acmePackage (Path.ofText "out") true : Action Manifest).run
        (oldTree strayTexts)
      = (.error (.generation (.unsafePath "../secret.txt")), t')
    ∧ t'.entry? ["old.txt", "out", "work"] = none := by
  rcases (Contract.exists_bundle_iff _ _).mpr renders_bareVerdict with ⟨b, hbundle⟩
  have hb : bareVerdict.bundle acmePackage = .ok b :=
    Results.bind_eq_ok.mpr ⟨bareVerdict.contract, rfl, hbundle⟩
  have hstale : b.stale (some (oldManifest strayTexts)) = strayTexts :=
    stale_oldManifest hbundle strayTexts (by decide)
  have hremoved : (removeListed (Path.ofText "out") "old.txt" : Action Unit).run
      (oldTree strayTexts) = (.ok (), (oldTree strayTexts).erase ["old.txt", "out", "work"]) :=
    (removeListed_eq_ok _ _).mpr ⟨_, rfl, Or.inl ⟨rfl, rfl⟩⟩
  refine ⟨(oldTree strayTexts).erase ["old.txt", "out", "work"], ?_, rfl⟩
  refine bind_eq_error.mpr (Or.inr ⟨b, oldTree strayTexts, ofExcept_eq_ok.mpr ⟨hb, rfl⟩,
    bind_eq_error.mpr (Or.inl (bind_eq_error.mpr (Or.inr ⟨_, _, prepare_oldTree _, ?_⟩)))⟩)
  refine bind_eq_error.mpr (Or.inl ?_)
  rw [clearListed_eq, hstale]
  refine bind_eq_error.mpr (Or.inr ⟨(), _, hremoved, bind_eq_error.mpr (Or.inl ?_)⟩)
  exact bind_eq_error.mpr (Or.inl ((pathOf_eq_error _).mpr ⟨⟨_, rfl, rfl⟩, rfl⟩))

/-- So a write that is refused can leave the package that was there without one of its files. -/
theorem exists_refusal_not_same : ∃ e t', e.IsRefusal ∧ (oldTree strayTexts).IsPlain
    ∧ (bareVerdict.write acmePackage (Path.ofText "out") true : Action Manifest).run
        (oldTree strayTexts) = (.error e, t')
    ∧ ¬ (oldTree strayTexts).Same t' := by
  rcases write_oldTree_strayTexts with ⟨t', hwrite, hgone⟩
  refine ⟨_, t', fun _ _ h => ?_, oldTree_isPlain _, hwrite, fun hsame => ?_⟩
  · cases h
  · have hthere := hsame.entry ["old.txt", "out", "work"]
    rw [hgone] at hthere
    cases hthere

/-- What no manifest lists is still there. -/
theorem refusal_of_straying : acmePackage.check = .ok () ∧ (oldTree strayTexts).IsPlain
    ∧ ∃ e t', e.IsRefusal ∧ e.IsOfPath
    ∧ (bareVerdict.write acmePackage (Path.ofText "out") true : Action Manifest).run
        (oldTree strayTexts) = (.error e, t')
    ∧ t'.entry? ["notes.md", "out", "work"] = some (.file "by hand".toUTF8) := by
  have hcheck : acmePackage.check = .ok () := rfl
  rcases write_oldTree_strayTexts with ⟨t', hwrite, hgone⟩
  have he : (BundleError.generation (.unsafePath "../secret.txt")).IsRefusal := fun _ _ h => by
    cases h
  refine ⟨hcheck, oldTree_isPlain _, _, t', he, Or.inl ⟨_, rfl⟩, hwrite, ?_⟩
  rcases refusal_of_write bareVerdict acmePackage hcheck _ t' (oldTree_isPlain _)
    (Path.ofText "out") true _ he hwrite with rfl | ⟨_, ⟨_, b, old, done, rest, _, hold, hstale, _,
      _, hwithout⟩ | ⟨hup, _⟩⟩
  · rfl
  · rw [hwithout.entry, if_neg]
    · rfl
    · intro hmem
      rcases List.mem_map.mp hmem with ⟨text, htext, hplace⟩
      have hlisted : text ∈ b.stale (some old) := hstale ▸ List.mem_append_left rest htext
      rw [findManifest_eq_ok, manifestAt?_oldTree] at hold
      rcases Option.some.inj hold.1 with rfl
      rcases List.mem_map.mp hlisted with ⟨f, hf, rfl⟩
      -- The old manifest does not list the notes.
      have hother : ∀ f ∈ (oldManifest strayTexts).files,
          place ["out", "work"] f.path ≠ ["notes.md", "out", "work"] := by decide
      exact hother f (List.mem_of_mem_filter hf) hplace
  · exact absurd hup (by decide)

end Verdict

end PlatformBridge
