import PlatformBridge.Proofs.Files.Paths
import PlatformBridge.Proofs.Results

/-!
# Walks without Links

In a tree of plain files and directories a walk goes where its path says. It
needs a directory under every segment, and nothing else about the tree matters
to it, so walks that went well in one tree go well in every tree that has the
same directories.

The walk of the model follows links, and has to count them to come to an end.
What it does at a link is a parameter of the lemmas about walks, since it is
never called: `IsPlain` says that no entry is a link. It also says that
everything is in a directory. A tree with a file below a file could be
written down, and a walk to that file would fail.

`Passes` is what a walk needs of the tree: a directory under each segment
that is left, and so not at the end of the walk, where there may be anything
or nothing. It is by recursion on the segments, as the walk is, and splits
where segments are appended. `ends_of_walkWith` is the other direction. It
says of a walk that went well where it ended, and that is at an entry, or at a
name that is not in use with nothing but slashes behind it.

The second half turns walks into paths. `find_eq_ok_iff` is what later modules
use: what a path leads to is the entry at its address, provided that the path
can be followed. `Admits` is that proviso, and the two lemmas on directories
at the end say that it passes from a path below a directory to the directory.

## Main definitions

* `FileTree.IsPlain`: A tree without links, in which everything is in a
  directory.
* `FileTree.Passes`: Segments that can be walked.
* `FileTree.Ends`: Where a walk may end.
* `FileTree.address`, `FileTree.Admits`: Where a path leads, and a path that
  can be followed.

## Theorems

* `FileTree.isPlain_of_entries`: How to tell that there are no links.
* `FileTree.passes_append`: Segments after segments.
* `FileTree.walkWith_cons`, `FileTree.walkWith_cons_of_missing`,
  `FileTree.walkWith_cons_of_long`,
  `FileTree.walkWith_cons_of_not_directory`: What one step of a walk does.
* `FileTree.of_walkWith_cons`: What a step needs.
* `FileTree.walkWith_of_passes`, `FileTree.walkWith_of_passes_of_missing`:
  When a walk goes well.
* `FileTree.walkWith_ne_notFound`: A walk to something that is there.
* `FileTree.ends_of_walkWith`: To where a walk goes.
* `FileTree.resolve_of_admits`, `FileTree.ends_of_resolve`: The same for
  paths.
* `FileTree.find_eq_ok_iff`, `FileTree.kind_eq_ok_iff`,
  `FileTree.read_eq_ok_iff`: What a path leads to.
* `FileTree.entry?_of_kind_eq_notFound`: A path that leads to nothing.
* `FileTree.address_join`, `FileTree.Admits.of_join`: Paths below a
  directory.
* `FileTree.isEmpty_of_admits`: Whether a directory is empty.
-/

namespace PlatformBridge

namespace FileTree

/-- A tree of files and directories, in which everything is in a directory. -/
structure IsPlain (t : FileTree) : Prop where
  noLinks : ∀ l target, t.entry? l ≠ some (.link target)
  inDirectories : ∀ name l e, t.entry? (name :: l) = some e → t.entry? l = some .directory

/-- Segments can be walked from an address, but that there may be nothing at the end. -/
def Passes (t : FileTree) : Address → List String → Prop
  | _, [] => True
  | l, s :: rest => t.entry? l = some .directory ∧ Text.byteLength s.toList ≤ maxNameBytes
      ∧ t.Passes (Path.step l s) rest

variable {t : FileTree}

theorem isDirectoryAt_iff (l : Address) :
    t.isDirectoryAt l = true ↔ t.entry? l = some .directory := by
  unfold isDirectoryAt
  split
  · rename_i h
    simp only [h]
  · rename_i h
    simp only [Bool.false_eq_true, false_iff]
    exact h

/-- The working directory and what is above it are always there. -/
theorem entry?_of_suffix (l : Address) (h : l <:+ t.home) : t.entry? l = some .directory := by
  unfold entry?
  rw [if_pos (List.isSuffixOf_iff_suffix.mpr h)]

theorem entry?_nil : t.entry? [] = some .directory := entry?_of_suffix [] List.nil_suffix

/-- What is above something is a directory. -/
theorem IsPlain.tail (h : t.IsPlain) (l : Address) (e : Entry) (hentry : t.entry? l = some e) :
    t.entry? l.tail = some .directory := by
  cases l with
  | nil => exact entry?_nil
  | cons name l => exact h.inDirectories name l e hentry

/-- What is somewhere is an entry of the tree, or above the working directory. -/
theorem mem_of_entry? (l : Address) (e : Entry) (hentry : t.entry? l = some e) :
    l <:+ t.home ∧ e = .directory ∨ (l, e) ∈ t.entries := by
  unfold entry? at hentry
  split at hentry
  · rename_i hsuffix
    exact Or.inl ⟨List.isSuffixOf_iff_suffix.mp hsuffix, (Option.some.inj hentry).symm⟩
  · rcases Option.map_eq_some_iff.mp hentry with ⟨found, hfound, rfl⟩
    have haddress : found.1 = l := of_decide_eq_true (List.find?_some hfound :)
    exact Or.inr (haddress ▸ List.mem_of_find?_eq_some hfound)

/-- Whether a tree is one of files and directories can be told from its entries. -/
theorem isPlain_of_entries (h : ∀ e ∈ t.entries,
    (∀ target, e.2 ≠ .link target) ∧ t.entry? e.1.tail = some .directory) : t.IsPlain := by
  refine ⟨fun l target hlink => ?_, fun name l e hentry => ?_⟩
  · rcases mem_of_entry? l _ hlink with ⟨_, he⟩ | hmem
    · cases he
    · exact (h _ hmem).1 target rfl
  · rcases mem_of_entry? (name :: l) e hentry with ⟨hsuffix, _⟩ | hmem
    · exact entry?_of_suffix l ((List.suffix_cons name l).trans hsuffix)
    · exact (h _ hmem).2

/-- Segments one after the other can be walked if the first can, and the others from where those
    lead. -/
theorem passes_append (l : Address) (segments others : List String) :
    t.Passes l (segments ++ others)
      ↔ t.Passes l segments ∧ t.Passes (Path.goal l segments) others := by
  induction segments generalizing l with
  | nil => simp only [List.nil_append, Passes, true_and]; rfl
  | cons s rest ih => simp only [List.cons_append, Passes, ih, and_assoc]; rfl

section Walk

variable (takeLast : Bool) (follow : Address → List String → Except FileError Place)
variable (h : t.IsPlain) (l : Address) (s : String) (rest : List String)

include h in
/-- Only a name can be missing. -/
theorem isName_of_missing (hdirectory : t.entry? l = some .directory)
    (hmissing : t.entry? (Path.step l s) = none) : Path.isIdle s = false ∧ s ≠ ".." := by
  constructor
  · refine Bool.eq_false_iff.mpr fun hidle => ?_
    rw [Path.step, if_pos hidle, hdirectory] at hmissing
    cases hmissing
  · rintro rfl
    rw [Path.step, if_neg (by decide), if_pos rfl, h.tail l _ hdirectory] at hmissing
    cases hmissing

include h in
/-- A step to something that is there is taken. -/
theorem walkWith_cons (hdirectory : t.entry? l = some .directory)
    (hlength : Text.byteLength s.toList ≤ maxNameBytes) (e : Entry)
    (hentry : t.entry? (Path.step l s) = some e) :
    t.walkWith takeLast follow l (s :: rest) = t.walkWith takeLast follow (Path.step l s) rest := by
  rw [walkWith, (isDirectoryAt_iff l).mpr hdirectory, Bool.not_true, if_neg Bool.false_ne_true]
  unfold Path.step at hentry ⊢
  split
  · rfl
  · rename_i hidle
    split
    · rfl
    · rename_i hup
      rw [if_neg hidle, if_neg hup] at hentry
      rw [if_neg (Nat.not_lt.mpr hlength), hentry]
      cases e with
      | link target => exact absurd hentry (h.noLinks _ target)
      | file bytes => rfl
      | directory => rfl

include h in
/-- A step to a name that is not in use is the last one. -/
theorem walkWith_cons_of_missing (hdirectory : t.entry? l = some .directory)
    (hlength : Text.byteLength s.toList ≤ maxNameBytes)
    (hmissing : t.entry? (Path.step l s) = none) :
    t.walkWith takeLast follow l (s :: rest)
      = if rest.all (· = "") then .ok (.free l s) else .error .notFound := by
  rcases isName_of_missing h l s hdirectory hmissing with ⟨hidle, hup⟩
  rw [Path.step, hidle, if_neg Bool.false_ne_true, if_neg hup] at hmissing
  rw [walkWith, (isDirectoryAt_iff l).mpr hdirectory, Bool.not_true, if_neg Bool.false_ne_true,
    hidle, if_neg Bool.false_ne_true, if_neg hup, if_neg (Nat.not_lt.mpr hlength), hmissing]

-- What leads nowhere or up is short.
theorem not_isIdle_of_long (hlong : ¬ Text.byteLength s.toList ≤ maxNameBytes) :
    Path.isIdle s = false ∧ s ≠ ".." := by
  constructor
  · refine Bool.eq_false_iff.mpr fun hidle => hlong ?_
    rcases (Bool.or_eq_true _ _).mp hidle with hs | hs <;> rw [of_decide_eq_true hs] <;> decide
  · rintro rfl
    exact hlong (by decide)

/-- A name that is too long ends a walk, before it is looked for. -/
theorem walkWith_cons_of_long (hdirectory : t.entry? l = some .directory)
    (hlength : ¬ Text.byteLength s.toList ≤ maxNameBytes) :
    t.walkWith takeLast follow l (s :: rest) = .error .nameTooLong := by
  rcases not_isIdle_of_long s hlength with ⟨hidle, hne⟩
  rw [walkWith, (isDirectoryAt_iff l).mpr hdirectory, Bool.not_true, if_neg Bool.false_ne_true,
    hidle, if_neg Bool.false_ne_true, if_neg hne, if_pos (Nat.not_le.mp hlength)]

/-- So does whatever is no directory. -/
theorem walkWith_cons_of_not_directory (hdirectory : t.entry? l ≠ some .directory) :
    t.walkWith takeLast follow l (s :: rest) = .error .notADirectory := by
  have hthere : t.isDirectoryAt l = false :=
    Bool.eq_false_iff.mpr fun hthere => hdirectory ((isDirectoryAt_iff l).mp hthere)
  rw [walkWith, hthere, Bool.not_false, if_pos rfl]

/-- A step needs a directory to stand in, and a name of a bounded length. -/
theorem of_walkWith_cons (place : Place)
    (hwalk : t.walkWith takeLast follow l (s :: rest) = .ok place) :
    t.entry? l = some .directory ∧ Text.byteLength s.toList ≤ maxNameBytes := by
  by_cases hdirectory : t.entry? l = some .directory
  · refine ⟨hdirectory, Decidable.byContradiction fun hlong => ?_⟩
    rw [walkWith_cons_of_long takeLast follow l s rest hdirectory hlong] at hwalk
    cases hwalk
  · rw [walkWith_cons_of_not_directory takeLast follow l s rest hdirectory] at hwalk
    cases hwalk

include h in
/-- A walk through directories goes on from the entry that they lead to. -/
theorem walkWith_append (front others : List String) (e : Entry) (hpasses : t.Passes l front)
    (hentry : t.entry? (Path.goal l front) = some e) :
    t.walkWith takeLast follow l (front ++ others)
      = t.walkWith takeLast follow (Path.goal l front) others := by
  induction front generalizing l with
  | nil => rfl
  | cons s rest ih =>
      rcases hpasses with ⟨hdirectory, hlength, hrest⟩
      have hnext : ∃ e, t.entry? (Path.step l s) = some e := by
        cases rest with
        | nil => exact ⟨e, hentry⟩
        | cons s' rest => exact ⟨_, hrest.1⟩
      rcases hnext with ⟨e', he'⟩
      rw [List.cons_append,
        walkWith_cons takeLast follow h l s (rest ++ others) hdirectory hlength e' he']
      exact ih (Path.step l s) hrest hentry

include h in
/-- A walk through directories that ends at an entry finds it. -/
theorem walkWith_of_passes (segments : List String) (e : Entry) (hpasses : t.Passes l segments)
    (hentry : t.entry? (Path.goal l segments) = some e) :
    t.walkWith takeLast follow l segments = .ok (.taken (Path.goal l segments)) := by
  have hwalk := walkWith_append takeLast follow h l segments [] e hpasses hentry
  rw [List.append_nil] at hwalk
  rw [hwalk]
  rfl

include h in
/-- A walk through directories that ends at a name that is not in use finds that it is free. -/
theorem walkWith_of_passes_of_missing (front : List String)
    (hpasses : t.Passes l (front ++ [s]))
    (hmissing : t.entry? (Path.step (Path.goal l front) s) = none) :
    t.walkWith takeLast follow l (front ++ [s]) = .ok (.free (Path.goal l front) s) := by
  rw [passes_append] at hpasses
  rcases hpasses with ⟨hfront, hdirectory, hlength, _⟩
  rw [walkWith_append takeLast follow h l front [s] _ hfront hdirectory,
    walkWith_cons_of_missing takeLast follow h _ s [] hdirectory hlength hmissing]
  rfl

include h in
/-- What is on the way to an entry is there too. -/
theorem exists_entry?_of_goal (segments : List String) (hup : ".." ∉ segments) (e : Entry)
    (hentry : t.entry? (Path.goal l segments) = some e) : ∃ e, t.entry? l = some e := by
  rw [Path.goal_of_not_up l segments hup] at hentry
  generalize (segments.filter fun s => !Path.isIdle s).reverse = names at hentry
  induction names generalizing e with
  | nil => exact ⟨e, hentry⟩
  | cons name names ih => exact ih .directory (h.inDirectories name _ e hentry)

include h in
/-- A walk down to an entry misses nothing on its way. -/
theorem walkWith_ne_notFound (segments : List String) (hup : ".." ∉ segments) (e : Entry)
    (hentry : t.entry? (Path.goal l segments) = some e) :
    t.walkWith takeLast follow l segments ≠ .error .notFound := by
  induction segments generalizing l with
  | nil => exact fun hwalk => by cases hwalk
  | cons s rest ih =>
      intro hwalk
      have hrest : ".." ∉ rest := fun hmem => hup (List.mem_cons_of_mem s hmem)
      rcases exists_entry?_of_goal h (Path.step l s) rest hrest e hentry with ⟨e', he'⟩
      by_cases hdirectory : t.entry? l = some .directory
      · by_cases hlength : Text.byteLength s.toList ≤ maxNameBytes
        · rw [walkWith_cons takeLast follow h l s rest hdirectory hlength e' he'] at hwalk
          exact ih (Path.step l s) hrest hentry hwalk
        · rw [walkWith_cons_of_long takeLast follow l s rest hdirectory hlength] at hwalk
          cases hwalk
      · rw [walkWith_cons_of_not_directory takeLast follow l s rest hdirectory] at hwalk
        cases hwalk

/-- Where a walk may end: at an entry, or at a name that is not in use, with nothing but slashes
    behind it. -/
inductive Ends (t : FileTree) (l : Address) (segments : List String) : Place → Prop where
  | taken (e : Entry) (hpasses : t.Passes l segments)
      (hentry : t.entry? (Path.goal l segments) = some e) :
      Ends t l segments (.taken (Path.goal l segments))
  | free (directory : Address) (name : String) (front blanks : List String)
      (hsegments : segments = front ++ blanks) (hblanks : ∀ s ∈ blanks, s = "")
      (hpasses : t.Passes l front) (hgoal : Path.goal l front = name :: directory)
      (hdirectory : t.entry? directory = some .directory)
      (hmissing : t.entry? (name :: directory) = none) :
      Ends t l segments (.free directory name)

include h in
/-- A walk that went well ended where its segments lead. The induction is on the segments; what has
    been walked is known to be there. -/
theorem ends_of_walkWith (segments : List String) (e : Entry) (hl : t.entry? l = some e)
    (place : Place) (hwalk : t.walkWith takeLast follow l segments = .ok place) :
    t.Ends l segments place := by
  induction segments generalizing l e with
  | nil =>
      cases hwalk
      exact .taken e trivial hl
  | cons s rest ih =>
      rcases of_walkWith_cons takeLast follow l s rest place hwalk with ⟨hdirectory, hlength⟩
      -- The walk ends where nothing is, and goes on otherwise.
      cases hnext : t.entry? (Path.step l s) with
      | none =>
          rw [walkWith_cons_of_missing takeLast follow h l s rest hdirectory hlength hnext] at hwalk
          rcases isName_of_missing h l s hdirectory hnext with ⟨hidle, hup⟩
          have hstep : Path.step l s = s :: l := by
            rw [Path.step, hidle, if_neg Bool.false_ne_true, if_neg hup]
          split at hwalk
          · rename_i hblank
            cases hwalk
            refine .free l s [s] rest rfl (fun s' hs' => ?_) ⟨hdirectory, hlength, trivial⟩ hstep
              hdirectory (hstep ▸ hnext)
            exact of_decide_eq_true (List.all_eq_true.mp hblank s' hs')
          · cases hwalk
      | some e' =>
          rw [walkWith_cons takeLast follow h l s rest hdirectory hlength e' hnext] at hwalk
          cases ih (Path.step l s) e' hnext hwalk with
          | taken e hpasses hentry => exact .taken e ⟨hdirectory, hlength, hpasses⟩ hentry
          | free d name front blanks hsegments hblanks hpasses hgoal hd hmissing =>
              exact .free d name (s :: front) blanks (congrArg _ hsegments) hblanks
                ⟨hdirectory, hlength, hpasses⟩ hgoal hd hmissing

end Walk

/-- Where a path leads from the working directory, if no link is in the way. -/
def address (t : FileTree) (p : Path) : Address := Path.goal (start p t.home) p.segments

/-- A path can be followed to its end, where there may be nothing. -/
structure Admits (t : FileTree) (p : Path) : Prop where
  fits : p.Fits
  passes : t.Passes (start p t.home) p.segments

section Paths

variable (h : t.IsPlain) (p : Path)

/-- A path starts at a directory: the working directory or the root. -/
theorem entry?_start : t.entry? (start p t.home) = some .directory := by
  rw [start]
  split
  · exact entry?_nil
  · exact entry?_of_suffix t.home (List.suffix_refl _)

/-- A path that can be followed, as far as its text is concerned, is walked from where it starts. -/
theorem resolve_of_fits (takeLast : Bool) (hfits : p.Fits) :
    t.resolve takeLast p = t.walk takeLast maxLinks (start p t.home) p.segments := by
  have hzero : (p.segments.any fun s => s.toList.any (· = '\x00')) = false := by
    rw [List.any_eq_false]
    intro s hs hany
    rcases List.any_eq_true.mp hany with ⟨c, hc, heq⟩
    exact hfits.nonzero s hs (of_decide_eq_true heq ▸ hc)
  rw [resolve, hzero, if_neg Bool.false_ne_true, hfits.present, if_neg Bool.false_ne_true,
    if_neg (Nat.not_lt.mpr hfits.short)]

/-- Only such paths are followed. -/
theorem fits_of_resolve (takeLast : Bool) (place : Place)
    (hresolve : t.resolve takeLast p = .ok place) : p.Fits := by
  unfold resolve at hresolve
  split at hresolve
  · cases hresolve
  · rename_i hzero
    split at hresolve
    · cases hresolve
    · rename_i hpresent
      split at hresolve
      · cases hresolve
      · rename_i hshort
        refine ⟨Bool.eq_false_iff.mpr hpresent, fun s hs hmem => hzero ?_, Nat.not_lt.mp hshort⟩
        exact List.any_eq_true.mpr ⟨s, hs, List.any_eq_true.mpr ⟨_, hmem, decide_eq_true rfl⟩⟩

include h in
/-- A path that is followed to an entry leads there. -/
theorem resolve_of_admits (takeLast : Bool) (hadmits : t.Admits p) (e : Entry)
    (hentry : t.entry? (t.address p) = some e) :
    t.resolve takeLast p = .ok (.taken (t.address p)) := by
  rw [resolve_of_fits p takeLast hadmits.fits]
  exact walkWith_of_passes takeLast _ h _ _ e hadmits.passes hentry

include h in
/-- A path that is followed ends where its segments lead. -/
theorem ends_of_resolve (takeLast : Bool) (place : Place)
    (hresolve : t.resolve takeLast p = .ok place) :
    p.Fits ∧ t.Ends (start p t.home) p.segments place := by
  have hfits := fits_of_resolve p takeLast place hresolve
  rw [resolve_of_fits p takeLast hfits] at hresolve
  exact ⟨hfits, ends_of_walkWith takeLast _ h _ _ .directory (entry?_start p) place hresolve⟩

include h in
/-- A path leads to an entry if it can be followed and the entry is where it leads. -/
theorem find_eq_ok_iff (takeLast : Bool) (e : Entry) :
    t.find takeLast p = .ok e ↔ t.Admits p ∧ t.entry? (t.address p) = some e := by
  rw [find, Results.bind_eq_ok]
  constructor
  · rintro ⟨place, hresolve, hfound⟩
    rcases ends_of_resolve h p takeLast place hresolve with ⟨hfits, hends⟩
    cases hends with
    | taken e' hpasses hentry =>
        simp only [hentry] at hfound
        cases hfound
        exact ⟨⟨hfits, hpasses⟩, hentry⟩
    | free => cases hfound
  · rintro ⟨hadmits, hentry⟩
    refine ⟨_, resolve_of_admits h p takeLast hadmits e hentry, ?_⟩
    simp only [hentry]
    rfl

include h in
/-- What kind of entry a path leads to is told by the entry at its address. -/
theorem kind_eq_ok_iff (takeLast : Bool) (k : FileKind) :
    t.kind takeLast p = .ok k
      ↔ t.Admits p ∧ ∃ e, t.entry? (t.address p) = some e ∧ e.kind = k := by
  rw [kind, Results.map_eq_ok]
  constructor
  · rintro ⟨e, hfind, hkind⟩
    rcases (find_eq_ok_iff h p takeLast e).mp hfind with ⟨hadmits, hentry⟩
    exact ⟨hadmits, e, hentry, hkind⟩
  · rintro ⟨hadmits, e, hentry, hkind⟩
    exact ⟨e, (find_eq_ok_iff h p takeLast e).mpr ⟨hadmits, hentry⟩, hkind⟩

include h in
/-- Nothing is where a path leads that is found to lead to nothing, if it goes down from something
    that is there. -/
theorem entry?_of_kind_eq_notFound (takeLast : Bool) (hpresent : p.isEmpty = false)
    (front names : List String) (hsegments : p.segments = front ++ names) (hup : ".." ∉ names)
    (hpasses : t.Passes (start p t.home) front) (e : Entry)
    (hentry : t.entry? (Path.goal (start p t.home) front) = some e)
    (hkind : t.kind takeLast p = .error .notFound) : t.entry? (t.address p) = none := by
  rw [kind, Results.map_eq_error, find, Results.bind_eq_error] at hkind
  refine Option.eq_none_iff_forall_ne_some.mpr fun e' he' => ?_
  rcases hkind with hresolve | ⟨place, hresolve, hfound⟩
  · -- The path can be followed as far as its text is concerned, so the walk has missed something.
    unfold resolve at hresolve
    rw [hpresent, if_neg Bool.false_ne_true] at hresolve
    split at hresolve
    · cases hresolve
    · split at hresolve
      · cases hresolve
      · rw [show maxLinks = 39 + 1 from rfl, walk, hsegments,
          walkWith_append takeLast _ h _ front names e hpasses hentry]
          at hresolve
        rw [address, hsegments, Path.goal_append] at he'
        exact walkWith_ne_notFound takeLast _ h _ names hup e' he' hresolve
  · rcases ends_of_resolve h p takeLast place hresolve with ⟨_, hends⟩
    cases hends with
    | taken e'' _ hentry'' =>
        simp only [hentry''] at hfound
        cases hfound
    | free d name front' blanks hsegments' hblanks _ hgoal _ hmissing =>
        have hidle : ∀ s ∈ blanks, Path.isIdle s = true := fun s hs => by
          rw [hblanks s hs]
          rfl
        rw [address, hsegments', Path.goal_append, Path.goal_of_idle _ blanks hidle, hgoal,
          hmissing] at he'
        cases he'

include h in
/-- What is read from a path is what the file at its address holds. -/
theorem read_eq_ok_iff (bytes : ByteArray) :
    t.read p = .ok bytes ↔ t.Admits p ∧ t.entry? (t.address p) = some (.file bytes) := by
  rw [read, Results.bind_eq_ok]
  constructor
  · rintro ⟨e, hfind, hfile⟩
    cases e with
    | file bytes' =>
        cases hfile
        exact (find_eq_ok_iff h p true _).mp hfind
    | directory => cases hfile
    | link target => cases hfile
  · intro hfound
    exact ⟨_, (find_eq_ok_iff h p true _).mpr hfound, rfl⟩

end Paths

section Directories

variable (h : t.IsPlain) (dir p : Path) (hdir : dir.isEmpty = false)

include hdir in
/-- Where a path below a directory leads can be told from where the directory is. -/
theorem address_join (habsolute : p.isAbsolute = false) (hne : p.segments ≠ [])
    (hup : ".." ∉ p.segments) : t.address (dir.join p) = p.names.reverse ++ t.address dir := by
  rw [address, Path.start_join dir p hdir habsolute hne, Path.segments_join dir p habsolute,
    Path.goal_append, Path.goal_base, Path.goal_of_not_up _ _ hup]
  rfl

/-- A slash at the end of a directory makes no difference to where it leads. -/
theorem passes_base (l : Address) (hpasses : t.Passes l dir.segments) : t.Passes l dir.base := by
  rcases dir.segments_eq with hsegments | hsegments
  · rwa [hsegments] at hpasses
  · rw [hsegments, passes_append] at hpasses
    exact hpasses.1

include hdir in
/-- Whoever can follow a path below a directory can follow the path of the directory, and it leads
    to a directory. -/
theorem Admits.of_join (habsolute : p.isAbsolute = false) (hne : p.segments ≠ [])
    (hadmits : t.Admits (dir.join p)) :
    t.Admits dir ∧ t.entry? (t.address dir) = some .directory := by
  have hpasses := hadmits.passes
  have hsegments := Path.segments_join dir p habsolute
  rw [Path.start_join dir p hdir habsolute hne, hsegments, passes_append] at hpasses
  rcases hpasses with ⟨hbase, hrest⟩
  rcases List.exists_cons_of_ne_nil hne with ⟨s, rest, hcons⟩
  rw [hcons] at hrest
  have hdirectory : t.entry? (Path.goal (start dir t.home) dir.base) = some .directory := hrest.1
  have haddress : t.entry? (t.address dir) = some .directory := by
    rw [address, ← Path.goal_base]
    exact hdirectory
  -- The segments of the directory are among those of the path, but for a slash at its end.
  refine ⟨⟨hadmits.fits.of_le hdir (fun s hs => ?_) ?_ ?_, ?_⟩, haddress⟩
  · rw [hsegments]
    rcases dir.segments_eq with heq | heq
    · exact Or.inl (List.mem_append_left _ (heq ▸ hs))
    · rw [heq, List.mem_append, List.mem_singleton] at hs
      exact hs.imp (List.mem_append_left _) id
  · rw [hsegments, List.flatMap_append, Text.byteLength_append]
    rcases dir.segments_eq with heq | heq
    · rw [heq]
      omega
    · rw [heq, List.flatMap_append, Text.byteLength_append]
      exact Nat.add_le_add_left (Nat.zero_le _) _
  · rw [hsegments, List.length_append, hcons, List.length_cons]
    rcases dir.segments_eq with heq | heq
    · rw [heq]
      omega
    · rw [heq, List.length_append, List.length_singleton]
      omega
  · rcases dir.segments_eq with heq | heq
    · rwa [heq]
    · rw [heq, passes_append]
      exact ⟨hbase, hdirectory, by decide, trivial⟩

include h in
/-- A directory is empty if nothing is below its address. -/
theorem isEmpty_of_admits (hadmits : t.Admits dir)
    (hdirectory : t.entry? (t.address dir) = some .directory) :
    t.isEmpty dir = .ok (!t.hasEntryBelow (t.address dir)) := by
  rw [isEmpty, resolve_of_admits h dir true hadmits _ hdirectory]
  change (if t.isDirectoryAt (t.address dir) then return !t.hasEntryBelow (t.address dir)
    else throw .notADirectory : Except FileError Bool) = _
  rw [if_pos ((isDirectoryAt_iff _).mpr hdirectory)]
  rfl

theorem hasEntryBelow_of_entry? (name : String) (l : Address) (e : Entry)
    (hentry : t.entry? (name :: l) = some e) : t.hasEntryBelow l = true := by
  rw [hasEntryBelow, Bool.or_eq_true]
  rcases mem_of_entry? (name :: l) e hentry with ⟨hhome, _⟩ | hmem
  · refine Or.inl ((Bool.and_eq_true _ _).mpr ⟨decide_eq_true fun heq => ?_,
      List.isSuffixOf_iff_suffix.mpr ((List.suffix_cons name l).trans hhome)⟩)
    have hlength := hhome.length_le
    rw [← heq, List.length_cons] at hlength
    omega
  · exact Or.inr (List.any_eq_true.mpr ⟨_, hmem, by simp⟩)

end Directories

end FileTree

end PlatformBridge
