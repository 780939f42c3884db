import PlatformBridge.Bundle.Output
import PlatformBridge.Proofs.Files.Paths

/-!
# Paths that Stay Below

A manifest that is found on disk can list any text, and what it lists may be
removed. So a text is followed only if it is safe to follow: it is not blank,
does not start with a slash, and has no `..` among its segments. A `.` in front
is refused as well, although it would do no harm.

Each step of such a path goes down or nowhere, so the walk never leaves where it
starts. It also goes down at least once: the first segment is not empty, as the
text would be empty then or start with a slash, and it is neither `.` nor `..`.

That the walk does not leave is said of every step of it and not of its end
only. A path that left and came back would end below as well, but might have
gone through a link on the way.

## Main definitions

* `Path.LeadsBelow`: A path that never leaves an address and ends strictly below
  it.

## Theorems

* `Path.head?_segments_ofText`, `Path.isAbsolute_ofText`: How the path of a text
  starts.
* `Path.suffix_goal`: Segments that do not lead up never leave an address.
* `pathBelow_eq_ok_iff`: The texts that are safe to follow.
* `names_ne_nil_of_pathBelow`: They have a name.
* `pathBelow_leads_below`: They lead below wherever they start.
-/

namespace PlatformBridge

namespace Path

/-- The first segment of a text is what is in front of its first slash. -/
theorem head?_segments_ofText (text : String) : (ofText text).segments.head?
    = some (String.ofList (text.toList.takeWhile (· ≠ '/'))) := by
  have hsplit : ∀ chars, (Text.split (· = '/') chars).head? = some (chars.takeWhile (· ≠ '/')) := by
    intro chars
    induction chars with
    | nil => rfl
    | cons c rest ih =>
        rw [Text.split, List.takeWhile_cons]
        by_cases hc : c = '/'
        · rw [if_pos (decide_eq_true hc), if_neg (by simpa using hc)]
          rfl
        · rw [if_neg (by simpa using hc), if_pos (by simpa using hc)]
          cases hparts : Text.split (· = '/') rest with
          | nil => exact absurd hparts (Text.split_ne_nil _ rest)
          | cons part parts =>
              rw [hparts, List.head?_cons, Option.some.injEq] at ih
              rw [← ih]
              rfl
  rw [ofText, List.head?_map, hsplit, Option.map_some]

theorem segments_ofText_ne_nil (text : String) : (ofText text).segments ≠ [] := by
  rw [ofText, ne_eq, List.map_eq_nil_iff]
  exact Text.split_ne_nil _ _

/-- Only the empty text has an empty path. -/
theorem isEmpty_ofText (text : String) : (ofText text).isEmpty = false ↔ text ≠ "" := by
  rw [isEmpty_eq_false_iff, and_iff_right (segments_ofText_ne_nil text)]
  refine not_congr ⟨fun h => ?_, fun h => ?_⟩
  · rw [← text_ofText text, Path.text, h]
    rfl
  · rw [h]
    rfl

/-- A path is absolute just if its text starts with a slash. -/
theorem isAbsolute_ofText (text : String) :
    (ofText text).isAbsolute = true ↔ text.toList.head? = some '/' := by
  rcases List.exists_cons_of_ne_nil (segments_ofText_ne_nil text) with ⟨first, rest, hsegments⟩
  have hfirst := head?_segments_ofText text
  rw [hsegments, List.head?_cons, Option.some.injEq] at hfirst
  cases htext : text.toList with
  | nil =>
      have hempty : text = "" := by rwa [String.toList_eq_nil_iff] at htext
      subst hempty
      exact iff_of_false (by decide) (by decide)
  | cons c chars =>
      have hne : text ≠ "" := by
        rintro rfl
        cases htext
      rw [isAbsolute_eq _ ((isEmpty_ofText text).mpr hne) first rest hsegments, decide_eq_true_eq,
        hfirst, htext, List.takeWhile_cons, List.head?_cons, Option.some.injEq]
      by_cases hc : c = '/'
      · simp [hc]
      · simp [hc]

/-- A text that does not start with a slash has something in front of the first one. -/
theorem head?_segments_ofText_ne (text : String) (hne : text ≠ "")
    (hslash : text.toList.head? ≠ some '/') : (ofText text).segments.head? ≠ some "" := by
  rw [head?_segments_ofText, ne_eq, Option.some.injEq]
  cases htext : text.toList with
  | nil => exact absurd (String.toList_eq_nil_iff.mp htext) hne
  | cons c rest =>
      have hc : c ≠ '/' := fun heq => hslash (by rw [htext, heq, List.head?_cons])
      rw [List.takeWhile_cons, if_pos (by simpa using hc), ← String.toList_inj,
        String.toList_ofList]
      exact List.cons_ne_nil _ _

/-- Segments that do not lead up never leave an address. -/
theorem suffix_goal (l : Address) (segments : List String) (h : ".." ∉ segments) :
    l <:+ goal l segments := by
  rw [goal_of_not_up l segments h]
  exact List.suffix_append _ l

/-- A path that is followed from an address without leaving it, and ends strictly below it. -/
structure LeadsBelow (p : Path) (l : Address) : Prop where
  /-- After any number of segments, the walk is at the address or below. -/
  stays : ∀ front, front <+: p.segments → l <:+ goal l front
  ends : ∃ names, names ≠ [] ∧ goal l p.segments = names ++ l

/-- A path without `..` leads below if it has a name. -/
theorem leadsBelow_of_not_up (p : Path) (l : Address) (hup : ".." ∉ p.segments)
    (hname : p.names ≠ []) : p.LeadsBelow l where
  stays front hfront := suffix_goal l front fun hmem => hup (hfront.subset hmem)
  ends := ⟨p.names.reverse, by simpa using hname, goal_of_not_up l p.segments hup⟩

end Path

/-- The texts that are safe to follow. -/
theorem pathBelow_eq_ok_iff (text : String) (path : Path) : pathBelow text = .ok path
    ↔ path = Path.ofText text ∧ Text.isBlank text = false ∧ text.toList.head? ≠ some '/'
      ∧ path.segments.head? ≠ some "." ∧ ".." ∉ path.segments := by
  have habsolute := Path.isAbsolute_ofText text
  -- The checks of the code are taken one by one; each of them refuses what one part of the
  -- condition is about.
  unfold pathBelow
  dsimp only
  split
  · rename_i hblank
    exact iff_of_false nofun fun h => by simp [hblank] at h
  · rename_i hblank
    split
    · rename_i hslash
      exact iff_of_false nofun fun h => h.2.2.1 (habsolute.mp hslash)
    · rename_i hslash
      have hbelow : (Path.ofText text).isBelow = true
          ↔ (Path.ofText text).segments.head? ≠ some "." ∧ ".." ∉ (Path.ofText text).segments := by
        simp [Path.isBelow, hslash]
      split
      · rename_i hunsafe
        refine iff_of_false nofun ?_
        rintro ⟨rfl, _, _, hdot, hup⟩
        simp [hbelow.mpr ⟨hdot, hup⟩] at hunsafe
      · rename_i hsafe
        rw [Except.ok.injEq, eq_comm]
        simp only [Bool.not_eq_true', Bool.not_eq_false] at hsafe
        refine (and_iff_left_of_imp ?_).symm
        rintro rfl
        exact ⟨by simpa using hblank, fun h => hslash (habsolute.mpr h), hbelow.mp hsafe⟩

/-- What the walk along a text that is safe to follow relies on. -/
theorem of_pathBelow_eq_ok (text : String) (path : Path) (h : pathBelow text = .ok path) :
    path = Path.ofText text ∧ path.isAbsolute = false ∧ ".." ∉ path.segments := by
  rcases (pathBelow_eq_ok_iff text path).mp h with ⟨rfl, _, hslash, _, hup⟩
  exact ⟨rfl, Bool.eq_false_iff.mpr fun h => hslash ((Path.isAbsolute_ofText text).mp h), hup⟩

/-- A text that is safe to follow has a name, and so it does not lead to where it starts. -/
theorem names_ne_nil_of_pathBelow (text : String) (path : Path) (h : pathBelow text = .ok path) :
    path.names ≠ [] := by
  rcases (pathBelow_eq_ok_iff text path).mp h with ⟨rfl, hblank, hslash, hdot, _⟩
  rcases List.exists_cons_of_ne_nil (Path.segments_ofText_ne_nil text) with ⟨first, rest, hfirst⟩
  have hne : text ≠ "" := by
    rintro rfl
    cases hblank
  have hempty := Path.head?_segments_ofText_ne text hne hslash
  rw [hfirst, List.head?_cons, ne_eq, Option.some.injEq] at hempty hdot
  -- The first segment is neither empty nor a dot.
  have hname : first ∈ (Path.ofText text).names := by
    rw [Path.names, List.mem_filter, hfirst]
    exact ⟨List.mem_cons_self, by simp [Path.isIdle, hempty, hdot]⟩
  exact List.ne_nil_of_mem hname

/-- A text is safe to follow just if it is not blank, does not start with a slash, its first segment
    is not `.`, and no segment is `..`. It then leads below wherever it starts, and never leaves. -/
theorem pathBelow_leads_below (text : String) :
    ((∃ path, pathBelow text = .ok path)
      ↔ Text.isBlank text = false ∧ text.toList.head? ≠ some '/'
        ∧ (Path.ofText text).segments.head? ≠ some "." ∧ ".." ∉ (Path.ofText text).segments)
    ∧ ∀ path, pathBelow text = .ok path → path = Path.ofText text ∧ ∀ l, path.LeadsBelow l := by
  refine ⟨⟨?_, fun h => ⟨_, (pathBelow_eq_ok_iff text _).mpr ⟨rfl, h⟩⟩⟩, fun path hpath => ?_⟩
  · rintro ⟨path, hpath⟩
    rcases (pathBelow_eq_ok_iff text path).mp hpath with ⟨rfl, h⟩
    exact h
  · rcases of_pathBelow_eq_ok text path hpath with ⟨htext, _, hup⟩
    exact ⟨htext, fun l =>
      Path.leadsBelow_of_not_up path l hup (names_ne_nil_of_pathBelow text path hpath)⟩

/-- A path that winds but goes down is followed, and one that goes up twice is not. -/
theorem leads_below_of_winding :
    (∃ path, pathBelow "lib/./src//bridge.dart/" = .ok path ∧ path.LeadsBelow ["acme", "home"])
      ∧ ¬ ∃ path, pathBelow "lib/../../bridge.dart" = .ok path := by
  rcases (pathBelow_leads_below "lib/./src//bridge.dart/").1.mpr (by decide) with ⟨path, hpath⟩
  refine ⟨⟨path, hpath, ((pathBelow_leads_below _).2 path hpath).2 _⟩, ?_⟩
  rw [(pathBelow_leads_below "lib/../../bridge.dart").1]
  decide

end PlatformBridge
