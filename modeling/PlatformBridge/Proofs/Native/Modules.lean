import Mathlib.Data.List.Basic
import PlatformBridge.Native.Stub
import PlatformBridge.Proofs.Spelling.Case
import PlatformBridge.Proofs.Text.Split

/-!
# The Modules of a Module Root

The module root of a package is read as the compiler reads it, line by line.
Its modules are named after the files of the services, but a name that cannot
be the name of a module is changed, and then the module is not named after the
file any more. A keyword does not count as changed, because its raw identifier
stands for it.

There are four names that have no raw identifier, as they are words of paths,
and `super` is one of them. `IsModuleName` leaves these out, along with the
empty name and those that start with a digit. `bare_identifier_eq_iff` says
that these are just the names that are changed. A file in snake case may be
called like that, and the module that is declared for it then is another one.

The declarations are read off the text, and the reader is as simple as it can
be: `pub mod`, a name and a semicolon on a line. Nothing else in a module root
looks like this, which is `declared?_of_head`, and names have no line breaks in
them, so the lines of the text are the lines that were written.

## Main definitions

* `Native.bare`: What an identifier stands for.
* `Native.declared?`, `Native.declaredModules`: The modules that a line and a
  text declare.
* `Native.IsModuleName`: A text that can be the name of a module.

## Theorems

* `Native.bare_of_not_mem`, `Native.bare_raw`: Identifiers with and without a
  mark.
* `Native.isModuleName_bare_identifier`: Identifiers stand for names of
  modules.
* `Native.bare_identifier_eq_iff`: Which names are left as they are.
* `Native.declared?_pub_mod`, `Native.declared?_of_head`: What lines declare.
* `Native.filterMap_declared?_moduleRoot`: The modules of the module root of a
  contract.
-/

namespace PlatformBridge

namespace Native

/-- What an identifier stands for: a raw one for the keyword after its mark. -/
def bare (name : String) : String :=
  match name.toList with
  | 'r' :: '#' :: keyword => String.ofList keyword
  | _ => name

/-- The module that a line declares. -/
def declared? (line : List Char) : Option String :=
  (line.dropPrefix? "pub mod ".toList).bind fun rest =>
    (rest.dropSuffix? ";".toList).map fun name => bare (String.ofList name)

/-- The modules that a text declares in lines of their own. -/
def declaredModules (text : String) : List String :=
  (Text.split (· = '\n') text.toList).filterMap declared?

/-- A text that can be the name of a module, if need be as a raw identifier. -/
def IsModuleName (name : String) : Prop :=
  name ≠ "" ∧ name.toList.head?.any Char.isDigit = false ∧ name ∉ pathKeywords

instance (name : String) : Decidable (IsModuleName name) :=
  inferInstanceAs (Decidable (_ ∧ _ ∧ _))

section Identifiers

variable (name : String)

theorem bare_of_not_mem (h : '#' ∉ name.toList) : bare name = name := by
  unfold bare
  split
  · rename_i keyword heq
    rw [heq] at h
    exact absurd (List.mem_cons_of_mem _ List.mem_cons_self) h
  · rfl

theorem bare_raw : bare ("r#" ++ name) = name := by
  rw [bare, String.toList_append]
  exact String.ofList_toList

/-- A name with a `v` in front is the name of a module. -/
theorem isModuleName_v : IsModuleName ("v" ++ name) := by
  have hall : ∀ word ∈ pathKeywords, word.toList.head? ≠ some 'v' := by decide
  have htext : ("v" ++ name).toList = 'v' :: name.toList := String.toList_append
  refine ⟨fun heq => ?_, ?_, fun hmem => hall _ hmem ?_⟩
  · rw [heq] at htext
    cases htext
  · rw [htext]
    rfl
  · rw [htext]
    rfl

/-- An identifier stands for the name of a module, whatever it was made of. -/
theorem isModuleName_bare_identifier (h : '#' ∉ name.toList) :
    IsModuleName (bare (identifier name)) := by
  have hv : IsModuleName (bare ("v" ++ name)) := by
    rw [bare_of_not_mem ("v" ++ name) (by simp [h])]
    exact isModuleName_v name
  -- A word that no identifier can have is escaped by an underscore, which is the name of a module
  -- again.
  have hpath : ∀ word ∈ pathKeywords, IsModuleName (bare (word ++ "_")) := by decide
  unfold identifier
  split
  · decide
  · rename_i c rest htext
    split
    · exact hv
    · rename_i hdigit
      split
      · rename_i hmem
        exact hpath name (List.contains_iff_mem.mp hmem)
      · rename_i hfree
        have hname : IsModuleName name := by
          refine ⟨fun heq => ?_, ?_, fun hmem => hfree (List.contains_iff_mem.mpr hmem)⟩
          · rw [heq] at htext
            cases htext
          · rw [htext, List.head?_cons, Option.any_some]
            exact Bool.eq_false_iff.mpr hdigit
        split
        · rw [bare_raw]
          exact hname
        · rw [bare_of_not_mem name h]
          exact hname

/-- The names of modules are the names that are left as they are, apart from the mark of a raw
    identifier. -/
theorem bare_identifier_eq_iff (h : '#' ∉ name.toList) :
    bare (identifier name) = name ↔ IsModuleName name := by
  constructor
  · intro heq
    rw [← heq]
    exact isModuleName_bare_identifier name h
  · rintro ⟨hne, hhead, hfree⟩
    unfold identifier
    split
    · rename_i htext
      exact absurd (String.toList_inj.mp htext) hne
    · rename_i c rest htext
      rw [htext, List.head?_cons, Option.any_some] at hhead
      rw [if_neg (Bool.eq_false_iff.mp hhead),
        if_neg fun hmem => hfree (List.contains_iff_mem.mp hmem)]
      split
      · exact bare_raw name
      · exact bare_of_not_mem name h

theorem newline_not_mem_identifier (h : '\n' ∉ name.toList) : '\n' ∉ (identifier name).toList := by
  unfold identifier
  repeat' split
  all_goals simp [h]

end Identifiers

section Lines

/-- A declaration declares what its identifier stands for. -/
theorem declared?_pub_mod (name : String) :
    declared? ("pub mod " ++ name ++ ";").toList = some (bare name) := by
  rw [declared?, String.toList_append, String.toList_append, List.append_assoc,
    List.dropPrefix?_append_of_beq _ (beq_self_eq_true _), Option.bind_some,
    List.dropSuffix?_eq_some_iff.mpr ⟨_, rfl, beq_self_eq_true _⟩, Option.map_some,
    String.ofList_toList]

/-- The other lines are blank, comments, or declare something else. -/
theorem declared?_of_head (line : List Char) (h : line.head? ≠ some 'p') :
    declared? line = none := by
  cases hdrop : line.dropPrefix? "pub mod ".toList with
  | none => rw [declared?, hdrop, Option.bind_none]
  | some rest =>
      rcases List.dropPrefix?_eq_some_iff.mp hdrop with ⟨start, rfl, hstart⟩
      rw [eq_of_beq hstart] at h
      exact absurd rfl h

/-- The modules of the lines of a module root. -/
theorem filterMap_declared?_moduleRoot (c : Contract) :
    ((moduleRoot c).map (·.toList)).filterMap declared? = (modules c).map bare := by
  have hmodules : ((modules c).map fun m => ("pub mod " ++ m ++ ";").toList).filterMap declared?
      = (modules c).map bare := by
    rw [List.filterMap_map, ← List.filterMap_eq_map]
    exact List.filterMap_congr fun m _ => declared?_pub_mod m
  have hfirst : (["", "//! Native bindings for the `" ++ c.assembly ++ "` assembly.", ""].map
      (·.toList)).filterMap declared? = [] := by
    simp only [List.filterMap_eq_nil_iff, List.forall_mem_map, List.forall_mem_cons]
    exact ⟨rfl, declared?_of_head _ (by simp), rfl, by simp⟩
  have hlast : (["", "/// Validated contract the Dart package was generated from.",
      "pub const CONTRACT_JSON: &str = include_str!(\"contract.json\");"].map
      (·.toList)).filterMap declared? = [] := by decide
  rw [moduleRoot, List.map_append, List.map_append, List.filterMap_append, List.filterMap_append,
    hfirst, hlast, List.map_map, List.append_nil, List.nil_append]
  exact hmodules

example : declaredModules "//! Bindings.\n\npub mod data;\npub mod r#match;\n"
    = ["data", "match"] := by decide

end Lines

end Native

end PlatformBridge
