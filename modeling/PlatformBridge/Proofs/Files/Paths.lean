import PlatformBridge.Files.Tree
import PlatformBridge.Proofs.Text.Split

/-!
# Where Paths Lead

A path is a list of steps. Without links in the way, where it leads can be
told from the path alone: a name goes down, `..` goes up, and an idle segment
goes nowhere. `goal` is this walk over segments, with no tree in it, and the
modules on trees only have to say when a walk comes to where `goal` says.

Every path of a package is made from a directory and a path below it. Such a
path leads there by way of the directory, and this holds segment by segment:
`segments_join` says that the segments are those of the directory and then
those of the path. A directory may be written with a slash behind it, which
is an empty segment at its end, and the joined path does not have this
segment. `base` is the directory without it, and stands for the directory
wherever a path goes on from there.

The path above a path is harder to tell than it looks. What is cut off is the
last name and all idle segments before it, so `a/./b` is below `a`, but the
root is written as a slash and keeps it. `parent?_eq` says what comes out when
the last segment is a name, which is the case for every file that is put in
place, and `of_parent?_eq_some` says what may come out of any path.

Only paths of a bounded length are followed at all. What is made of parts is
at least as long as its parts, so whoever has followed a path below a
directory may follow the path of the directory too. `Fits.of_le` is stated for
any two paths of which one has the segments of the other, as both the path
above and the path of a directory are needed.

## Main definitions

* `Path.step`, `Path.goal`: Where a segment and a list of segments lead.
* `Path.names`, `Path.IsStep`, `Path.IsNamed`: The names in a path, and paths
  of nothing else.
* `Path.base`: A directory without a slash at its end.
* `Path.Fits`: A path that can be followed if all is there.

## Theorems

* `Path.goal_append`, `Path.goal_of_idle`, `Path.goal_of_not_up`: Where
  segments lead.
* `Path.text_ofText`, `Path.ofText_injective`, `Path.ofText_intercalate`:
  Paths and their texts.
* `Path.isStep_append`, `Path.isNamed_ofText_intercalate`: Names that make a
  path.
* `Path.segments_eq`, `Path.segments_join`, `Path.start_join`: Paths below a
  directory.
* `Path.start_eq`: Paths that start alike.
* `Path.parent?_eq`, `Path.of_parent?_eq_some`: The path above a path.
* `Path.segments_withoutSlashes`, `Path.withoutSlashes_of_getLast?`: A path
  without the slashes at its end.
* `Path.byteLength_text`: The length of a path by its segments.
* `Path.Fits.of_le`: Shorter paths can be followed as well.
-/

namespace PlatformBridge

namespace Path

/-- Where a segment leads from an address. -/
def step (l : Address) (s : String) : Address :=
  if isIdle s then l else if s = ".." then l.tail else s :: l

/-- Where segments lead from an address, if no link is in the way. -/
def goal (l : Address) (segments : List String) : Address := segments.foldl step l

theorem goal_append (l : Address) (segments others : List String) :
    goal l (segments ++ others) = goal (goal l segments) others := List.foldl_append

/-- Segments that are idle lead nowhere. -/
theorem goal_of_idle (l : Address) (segments : List String) (h : ∀ s ∈ segments, isIdle s = true) :
    goal l segments = l := by
  induction segments with
  | nil => rfl
  | cons s rest ih =>
      rw [goal, List.foldl_cons, step, if_pos (h s List.mem_cons_self)]
      exact ih fun s' hs' => h s' (List.mem_cons_of_mem s hs')

/-- Segments that do not lead up lead to the names among them. -/
theorem goal_of_not_up (l : Address) (segments : List String) (h : ".." ∉ segments) :
    goal l segments = (segments.filter fun s => !isIdle s).reverse ++ l := by
  induction segments generalizing l with
  | nil => rfl
  | cons s rest ih =>
      rw [List.mem_cons, not_or] at h
      rw [goal, List.foldl_cons, step, ← goal, ih _ h.2, List.filter_cons]
      by_cases hs : isIdle s = true
      · rw [if_pos hs, hs]
        rfl
      · rw [if_neg hs, if_neg (Ne.symm h.1), Bool.eq_false_iff.mpr hs]
        simp only [Bool.not_false, if_true, List.reverse_cons, List.append_assoc,
          List.singleton_append]

/-- A text is what its path says. -/
theorem text_ofText (text : String) : (ofText text).text = text := by
  rw [Path.text, ofText, ← String.toList_inj, String.toList_intercalate, List.map_map,
    show String.toList ∘ String.ofList = id from funext fun _ => String.toList_ofList, List.map_id]
  exact Text.intercalate_split '/' text.toList

/-- Texts with the same path are the same text. -/
theorem ofText_injective (text other : String) (h : ofText text = ofText other) : text = other := by
  rw [← text_ofText text, h, text_ofText]

/-- The path of a text that is made of segments. -/
theorem ofText_intercalate (segments : List String) (hne : segments ≠ [])
    (h : ∀ s ∈ segments, '/' ∉ s.toList) : ofText ("/".intercalate segments) = ⟨segments⟩ := by
  have hparts : Text.split (· = '/') (['/'].intercalate (segments.map String.toList))
      = segments.map String.toList := by
    refine Text.split_intercalate '/' _ (by simpa using hne) fun part hpart => ?_
    rcases List.mem_map.mp hpart with ⟨s, hs, rfl⟩
    exact h s hs
  rw [ofText, String.toList_intercalate, show "/".toList = ['/'] from rfl, hparts, List.map_map,
    show String.ofList ∘ String.toList = id from funext fun _ => String.ofList_toList, List.map_id]

/-- The steps of a path that lead somewhere. -/
def names (p : Path) : List String := p.segments.filter fun s => !isIdle s

/-- A segment that is a name and nothing else. -/
structure IsStep (s : String) : Prop where
  noSlash : '/' ∉ s.toList
  notIdle : isIdle s = false
  notUp : s ≠ ".."

/-- A name with an ending is not one of the segments that are none. -/
theorem isStep_append (stem ending : String) (hstem : '/' ∉ stem.toList)
    (hending : '/' ∉ ending.toList) (hlength : 2 < ending.toList.length) :
    IsStep (stem ++ ending) := by
  have hlong : ∀ s : String, s.toList.length ≤ 2 → stem ++ ending ≠ s := by
    rintro s hs rfl
    rw [String.toList_append, List.length_append] at hs
    omega
  refine ⟨?_, ?_, hlong ".." (by decide)⟩
  · rw [String.toList_append, List.mem_append, not_or]
    exact ⟨hstem, hending⟩
  · rw [isIdle, decide_eq_false (hlong "" (by decide)), decide_eq_false (hlong "." (by decide))]
    rfl

/-- A path that is made of names. -/
structure IsNamed (p : Path) : Prop where
  ne_nil : p.segments ≠ []
  steps : ∀ s ∈ p.segments, IsStep s

/-- Names with slashes between them make such a path. -/
theorem isNamed_ofText_intercalate (segments : List String) (hne : segments ≠ [])
    (h : ∀ s ∈ segments, IsStep s) : (ofText ("/".intercalate segments)).IsNamed := by
  rw [ofText_intercalate segments hne fun s hs => (h s hs).noSlash]
  exact ⟨hne, h⟩

namespace IsNamed

variable {p : Path} (h : p.IsNamed)

include h

theorem notUp : ".." ∉ p.segments := fun hmem => (h.steps _ hmem).notUp rfl

theorem isAbsolute : p.isAbsolute = false := by
  have hblank : "" ∉ p.segments := fun hmem => absurd (h.steps _ hmem).notIdle (by decide)
  unfold Path.isAbsolute
  split
  · rename_i first second rest hsegments
    refine decide_eq_false fun hfirst => hblank ?_
    rw [hsegments, hfirst]
    exact List.mem_cons_self
  · rfl

/-- Nothing in a path of names is idle, so all of its segments are names that it leads through. -/
theorem names_eq : p.names = p.segments := by
  rw [names, List.filter_eq_self]
  intro s hs
  rw [(h.steps s hs).notIdle]
  rfl

/-- The last step of a path of names is a name. -/
theorem exists_concat : ∃ front s, p.segments = front ++ [s] ∧ IsStep s := by
  rcases List.eq_nil_or_concat p.segments with hnil | ⟨front, s, hconcat⟩
  · exact absurd hnil h.ne_nil
  · rw [List.concat_eq_append] at hconcat
    refine ⟨front, s, hconcat, h.steps s ?_⟩
    rw [hconcat]
    exact List.mem_append_right _ (List.mem_singleton_self s)

end IsNamed

theorem isEmpty_eq_false_iff (p : Path) :
    p.isEmpty = false ↔ p.segments ≠ [] ∧ p.segments ≠ [""] := by
  unfold isEmpty
  split <;> simp_all

/-- The segments of a directory without a slash at its end. -/
def base (p : Path) : List String :=
  if p.segments.getLast? = some "" then p.segments.dropLast else p.segments

/-- A directory has no more than a slash after its base. -/
theorem segments_eq (p : Path) : p.segments = p.base ∨ p.segments = p.base ++ [""] := by
  unfold base
  split
  · rename_i hlast
    rcases List.getLast?_eq_some_iff.mp hlast with ⟨front, hfront⟩
    rw [hfront, List.dropLast_concat]
    exact Or.inr rfl
  · exact Or.inl rfl

theorem base_ne_nil (p : Path) (h : p.isEmpty = false) : p.base ≠ [] := by
  rw [isEmpty_eq_false_iff] at h
  intro hbase
  rcases p.segments_eq with hsegments | hsegments <;> rw [hbase] at hsegments
  · exact h.1 hsegments
  · exact h.2 hsegments

/-- A path below a directory goes through it. -/
theorem segments_join (dir p : Path) (h : p.isAbsolute = false) :
    (dir.join p).segments = dir.base ++ p.segments := by
  rw [join, if_neg (Bool.eq_false_iff.mp h), base]
  split <;> rfl

/-- The slash at the end of a directory leads nowhere. -/
theorem goal_base (dir : Path) (l : Address) : goal l dir.base = goal l dir.segments := by
  rcases dir.segments_eq with hsegments | hsegments
  · rw [hsegments]
  · rw [hsegments, goal_append]
    rfl

/-- Whether a path is absolute can be told from its first segment. -/
theorem isAbsolute_eq (p : Path) (h : p.isEmpty = false) (first : String) (rest : List String)
    (hsegments : p.segments = first :: rest) : p.isAbsolute = decide (first = "") := by
  rw [isEmpty_eq_false_iff, hsegments] at h
  rw [isAbsolute, hsegments]
  cases rest with
  | nil => exact (decide_eq_false fun heq => h.2 (by rw [heq])).symm
  | cons second rest => rfl

/-- Paths start alike if their first segments are the same. -/
theorem start_eq (p q : Path) (hp : p.isEmpty = false) (hq : q.isEmpty = false)
    (h : p.segments.head? = q.segments.head?) (l : Address) :
    FileTree.start p l = FileTree.start q l := by
  have habsolute : p.isAbsolute = q.isAbsolute := by
    cases hsegments : p.segments with
    | nil => exact absurd hsegments ((isEmpty_eq_false_iff p).mp hp).1
    | cons first rest =>
        rw [hsegments, List.head?_cons] at h
        rcases List.head?_eq_some_iff.mp h.symm with ⟨rest', hsegments'⟩
        rw [isAbsolute_eq p hp first rest hsegments, isAbsolute_eq q hq first rest' hsegments']
  rw [FileTree.start, FileTree.start, habsolute]

section Join

variable (dir p : Path) (hdir : dir.isEmpty = false) (h : p.isAbsolute = false)
variable (hne : p.segments ≠ [])

include hdir in
/-- What goes on from a directory begins where the directory does. -/
theorem head?_base_append (rest : List String) :
    (dir.base ++ rest).head? = dir.segments.head? := by
  rcases List.exists_cons_of_ne_nil (base_ne_nil dir hdir) with ⟨first, tail, hbase⟩
  rcases dir.segments_eq with hsegments | hsegments <;> rw [hsegments, hbase] <;> rfl

include hdir h hne in
theorem isEmpty_join : (dir.join p).isEmpty = false := by
  rw [isEmpty_eq_false_iff, segments_join dir p h]
  rcases List.exists_cons_of_ne_nil (base_ne_nil dir hdir) with ⟨first, tail, hbase⟩
  rcases List.exists_cons_of_ne_nil hne with ⟨s, rest, hs⟩
  rw [hbase, hs]
  constructor
  · exact List.cons_ne_nil _ _
  · intro heq
    have hlength := congrArg List.length heq
    simp at hlength

include hdir h hne in
/-- A path below a directory starts where the directory does. -/
theorem start_join (l : Address) : FileTree.start (dir.join p) l = FileTree.start dir l := by
  refine start_eq _ _ (isEmpty_join dir p hdir h hne) hdir ?_ l
  rw [segments_join dir p h, head?_base_append dir hdir]

end Join

theorem dropIdle_cons (s : String) (rest : List String) (h : rest ≠ []) :
    dropIdle (s :: rest) = if isIdle s then dropIdle rest else s :: rest := by
  rw [dropIdle]
  exact h

/-- What is left starts with a segment that leads somewhere, or is a single one. -/
theorem exists_dropIdle_eq (segments : List String) (hne : segments ≠ []) :
    ∃ idle kept, segments = idle ++ kept ∧ (∀ s ∈ idle, isIdle s = true) ∧ dropIdle segments = kept
      ∧ kept ≠ [] ∧ (kept ≠ [""] → kept.head? ≠ some "") := by
  induction segments with
  | nil => exact absurd rfl hne
  | cons s rest ih =>
      by_cases hrest : rest = []
      · subst hrest
        refine ⟨[], [s], rfl, by simp, rfl, by simp, fun hs hhead => hs ?_⟩
        rw [List.head?_cons, Option.some.injEq] at hhead
        rw [hhead]
      · rw [dropIdle_cons s rest hrest]
        split
        · rename_i hs
          rcases ih hrest with ⟨idle, kept, heq, hidle, hdrop, hkept⟩
          exact ⟨s :: idle, kept, by rw [heq]; rfl, List.forall_mem_cons.mpr ⟨hs, hidle⟩, hdrop,
            hkept⟩
        · rename_i hs
          refine ⟨[], s :: rest, rfl, by simp, rfl, by simp, fun _ hhead => hs ?_⟩
          rw [List.head?_cons, Option.some.injEq] at hhead
          rw [hhead]
          rfl

/-- The path above a path ends before the last name and has no idle segments at its end, but for the
    root, which is written as a slash. -/
theorem parent?_eq (p : Path) (front : List String) (s : String)
    (hsegments : p.segments = front ++ [s]) (hs : isIdle s = false) (hne : front ≠ []) :
    ∃ (q : Path) (kept idle : List String), p.parent? = some q ∧ front = kept ++ idle
      ∧ (∀ s ∈ idle, isIdle s = true) ∧ kept ≠ []
      ∧ (q.segments = kept ∧ kept.getLast? ≠ some "" ∨ q.segments = ["", ""] ∧ kept = [""]) := by
  have hreverse : front.reverse ≠ [] := by simpa using hne
  rcases exists_dropIdle_eq front.reverse hreverse with
    ⟨idle, kept, heq, hidle, hdrop, hkept, hhead⟩
  have hfront : front = kept.reverse ++ idle.reverse := by
    rw [← List.reverse_append, ← heq, List.reverse_reverse]
  have hidle' : ∀ s ∈ idle.reverse, isIdle s = true := fun s hs => hidle s (List.mem_reverse.mp hs)
  have hkept' : kept.reverse ≠ [] := by simpa using hkept
  -- Segments are dropped from the end, so the path is looked at in reverse.
  have hfirst : dropIdle p.segments.reverse = s :: front.reverse := by
    rw [hsegments, List.reverse_concat, dropIdle_cons s _ hreverse, hs]
    rfl
  rcases List.exists_cons_of_ne_nil hreverse with ⟨s', rest, hrest⟩
  -- What is left may be the root alone, which has a spelling of its own.
  by_cases hroot : kept = [""]
  · refine ⟨⟨["", ""]⟩, kept.reverse, idle.reverse, ?_, hfront, hidle', hkept', Or.inr ⟨rfl, ?_⟩⟩
    · rw [parent?, hfirst, hrest]
      simp only [← hrest, hdrop, hroot]
    · rw [hroot]
      rfl
  · refine ⟨⟨kept.reverse⟩, kept.reverse, idle.reverse, ?_, hfront, hidle', hkept',
      Or.inl ⟨rfl, ?_⟩⟩
    · rw [parent?, hfirst, hrest]
      simp only [← hrest, hdrop]
    · rw [List.getLast?_reverse]
      exact hhead hroot

/-- Nothing is above the empty path. -/
theorem parent?_of_isEmpty (p : Path) (h : p.isEmpty = true) : p.parent? = none := by
  unfold isEmpty at h
  split at h
  · rename_i hsegments
    rw [parent?, hsegments]
    rfl
  · rename_i hsegments
    rw [parent?, hsegments]
    rfl
  · cases h

/-- The path above a path is empty, the root, or the path up to somewhere. -/
theorem of_parent?_eq_some (p q : Path) (h : p.parent? = some q) :
    q.isEmpty = true ∨ q.segments = ["", ""] ∨ ∃ rest, p.segments = q.segments ++ rest := by
  cases hreverse : p.segments.reverse with
  | nil =>
      rw [parent?, hreverse] at h
      cases h
  | cons last others =>
      rcases exists_dropIdle_eq p.segments.reverse
        (by rw [hreverse]; exact List.cons_ne_nil _ _) with
        ⟨idle, kept, heq, _, hdrop, hkept, _⟩
      rcases List.exists_cons_of_ne_nil hkept with ⟨s, rest, rfl⟩
      -- With one segment left there is no directory above but the one where the path starts.
      cases rest with
      | nil =>
          simp only [parent?, hdrop] at h
          split at h
          · cases h
          · cases h
            exact Or.inl rfl
      | cons s' rest =>
          rcases exists_dropIdle_eq (s' :: rest) (List.cons_ne_nil _ _) with
            ⟨idle', kept', heq', _, hdrop', _⟩
          have hsegments : p.segments = kept'.reverse ++ (idle'.reverse ++ s :: idle.reverse) := by
            rw [← List.reverse_reverse p.segments, heq, heq']
            simp
          simp only [parent?, hdrop, hdrop'] at h
          split at h
          · cases h
            exact Or.inr (Or.inl rfl)
          · cases h
            exact Or.inr (Or.inr ⟨_, hsegments⟩)

/-- A path without the slashes at its end is the path up to them. -/
theorem segments_withoutSlashes (p : Path) (hpresent : p.isEmpty = false) :
    p.withoutSlashes.isEmpty = false ∧ ∃ blanks, (∀ s ∈ blanks, s = "")
      ∧ p.segments = p.withoutSlashes.segments ++ blanks := by
  have hsplit : p.segments.reverse.takeWhile (· = "") ++ p.segments.reverse.dropWhile (· = "")
      = p.segments.reverse := List.takeWhile_append_dropWhile
  unfold withoutSlashes
  cases hkept : p.segments.reverse.dropWhile (· = "") with
  | nil => exact ⟨hpresent, [], by simp, by simp⟩
  | cons s rest =>
      have hs : s ≠ "" := by
        have hhead := List.head?_dropWhile_not (fun s => decide (s = "")) p.segments.reverse
        rw [hkept] at hhead
        simpa using hhead
      rw [hkept] at hsplit
      refine ⟨(isEmpty_eq_false_iff _).mpr ⟨by simp, fun heq => hs ?_⟩,
        (p.segments.reverse.takeWhile (· = "")).reverse, fun s hs => ?_, ?_⟩
      · have hsingle := congrArg List.reverse heq
        rw [List.reverse_reverse] at hsingle
        exact (List.cons.inj hsingle).1
      · exact of_decide_eq_true
          (List.all_eq_true.mp List.all_takeWhile s (List.mem_reverse.mp hs) :)
      · rw [← List.reverse_append, hsplit, List.reverse_reverse]

/-- A path that does not end in a slash has none to lose. -/
theorem withoutSlashes_of_getLast? (p : Path) (h : p.segments.getLast? ≠ some "") :
    p.withoutSlashes = p := by
  have hdrop : p.segments.reverse.dropWhile (· = "") = p.segments.reverse := by
    rw [← List.head?_reverse] at h
    cases hreverse : p.segments.reverse with
    | nil => rfl
    | cons last rest =>
        rw [hreverse, List.head?_cons, ne_eq, Option.some.injEq] at h
        rw [List.dropWhile_cons, if_neg (by simpa using h)]
  rw [withoutSlashes, hdrop]
  split
  · rfl
  · rw [List.reverse_reverse]

/-- The length of a path is that of its segments, and of the slashes between them. -/
theorem byteLength_text (p : Path) : Text.byteLength p.text.toList
    = Text.byteLength (p.segments.flatMap String.toList) + (p.segments.length - 1) := by
  rcases p with ⟨segments⟩
  induction segments with
  | nil => rfl
  | cons s rest ih =>
      cases rest with
      | nil => simp [text]
      | cons s' rest =>
          simp only [text] at ih ⊢
          rw [String.intercalate_cons_cons, String.toList_append, String.toList_append,
            Text.byteLength_append, Text.byteLength_append, ih,
            show Text.byteLength "/".toList = 1 from rfl]
          simp only [List.flatMap_cons, Text.byteLength_append, List.length_cons]
          omega

/-- A path can be followed, as far as its text is concerned. -/
structure Fits (p : Path) : Prop where
  present : p.isEmpty = false
  nonzero : ∀ s ∈ p.segments, '\x00' ∉ s.toList
  short : Text.byteLength p.text.toList ≤ FileTree.maxPathBytes

/-- Shorter paths can be followed as well. -/
theorem Fits.of_le {p q : Path} (h : p.Fits) (hpresent : q.isEmpty = false)
    (hsegments : ∀ s ∈ q.segments, s ∈ p.segments ∨ s = "")
    (hbytes : Text.byteLength (q.segments.flatMap String.toList)
      ≤ Text.byteLength (p.segments.flatMap String.toList))
    (hlength : q.segments.length ≤ p.segments.length) : q.Fits := by
  refine ⟨hpresent, fun s hs => ?_, ?_⟩
  · rcases hsegments s hs with hs | rfl
    · exact h.nonzero s hs
    · exact List.not_mem_nil
  · refine Nat.le_trans ?_ h.short
    rw [byteLength_text, byteLength_text]
    omega

end Path

end PlatformBridge
