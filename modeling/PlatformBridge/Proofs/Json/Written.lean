import PlatformBridge.Bundle.Manifest
import PlatformBridge.Proofs.Json.Reading

/-!
# Reading What Is Written

Whatever way a value is written, compact, indented or canonical, the document
in the text is the one of the value. The ways of writing differ in blanks and
in the order of members: blanks are lost when the text is scanned, and the
order of members is lost when the document is read. So the text on disk, which
is written from a value that was read again from its canonical text, holds the
value that was to be written.

Values are written whatever their depth. It is reading them that has a limit,
and so has writing to disk, which reads. `indentedCanonical?_eq_some_iff` says
when there is a text for the disk at all, and it is the only place where
writing can fail.

Two values with the same canonical text are the same up to the order of
members. The argument is short and does not look at the text: what is in it is
read, and there is only one result. Fingerprints are taken of canonical texts,
and this is what makes them tell values apart as far as the hash does.

## Theorems

* `Json.tokens_array`, `Json.tokens_object`: The tokens of written arrays and
  objects.
* `Json.scans_compact`, `Json.scans_pretty`: Written text has the tokens of
  its document.
* `Json.ofText?_of_scans`: The document in a text of such tokens.
* `Json.ofText?_canonical`, `Json.ofText?_pretty`: The documents in a
  canonical text and in one on disk.
* `Json.parse?_canonical`: The value of a canonical text.
* `Json.indentedCanonical?_eq_some_iff`: The text on disk, and when there is
  one.
* `Json.same_of_canonical_eq`: Values of one canonical text are the same.
* `Json.Tree.ofBytes?_toUTF8`: The document in the bytes of a text.
* `Json.Reader.readBytes?_of_finds`: What is read from a file.
-/

namespace PlatformBridge

namespace Json

open Token

theorem compactItems_eq_map (layout : Layout) (items : List Json) :
    compactItems layout items = items.map (compact layout) := by
  induction items with
  | nil => rfl
  | cons v rest ih => rw [compactItems, ih, List.map_cons]

theorem compactMembers_eq_map (layout : Layout) (members : List (String × Json)) :
    compactMembers layout members
      = members.map fun m => quoted m.1 ++ ':' :: compact layout m.2 := by
  induction members with
  | nil => rfl
  | cons m rest ih => rw [compactMembers, ih, List.map_cons]

theorem prettyItems_eq_map (level : Nat) (items : List Json) :
    prettyItems level items = items.map (prettyAt level) := by
  induction items with
  | nil => rfl
  | cons v rest ih => rw [prettyItems, ih, List.map_cons]

theorem prettyMembers_eq_map (level : Nat) (members : List (String × Json)) :
    prettyMembers level members
      = members.map fun m => quoted m.1 ++ ':' :: ' ' :: prettyAt level m.2 := by
  induction members with
  | nil => rfl
  | cons m rest ih => rw [prettyMembers, ih, List.map_cons]

/-- The tokens of a written array. -/
theorem tokens_array (layout : Layout) (items : List Json) :
    ((array items).toTree layout).tokens
      = .leftBracket :: ([.comma].intercalate (items.map fun v => (v.toTree layout).tokens)
        ++ [.rightBracket]) := by
  have hitems : Tree.itemTokens (itemTrees layout items)
      = items.map fun v => (v.toTree layout).tokens := by
    induction items with
    | nil => rfl
    | cons v rest ih => rw [itemTrees, Tree.itemTokens, ih, List.map_cons]
  rw [toTree, Tree.tokens, hitems, List.cons_append]

/-- The tokens of a written object. -/
theorem tokens_object (layout : Layout) (members : List (String × Json)) :
    ((object members).toTree layout).tokens
      = .leftBrace :: ([.comma].intercalate (members.map fun m =>
        [.string (some m.1), .colon] ++ (m.2.toTree layout).tokens) ++ [.rightBrace]) := by
  have hmembers : Tree.memberTokens (memberTrees layout members)
      = members.map fun m => [.string (some m.1), .colon] ++ (m.2.toTree layout).tokens := by
    induction members with
    | nil => rfl
    | cons m rest ih =>
        rw [memberTrees, Tree.memberTokens, ih, List.map_cons]
        rfl
  rw [toTree, Tree.tokens, hmembers, List.cons_append]

/-- A member is its key, a colon and its value. -/
theorem scans_member (key : String) (text : List Char) (tokens : List Token)
    (h : Scans text tokens) :
    Scans (quoted key ++ ':' :: text) ([.string (some key), .colon] ++ tokens) :=
  (adds_quoted key).append_scans (adds_colon.append_scans h)

theorem scans_blank (text : List Char) (tokens : List Token) (h : Scans text tokens) :
    Scans (' ' :: text) tokens := by
  have hblank : Adds [' '] [] := fun _ => rfl
  exact hblank.append_scans h

/-- A text without blanks has the tokens of its document. -/
theorem scans_compact (layout : Layout) (v : Json) (h : v.IsDocument layout) :
    Scans (compact layout v) (v.toTree layout).tokens := by
  induction h with
  | null => exact scans_null
  | bool b =>
      cases b with
      | true => exact scans_true
      | false => exact scans_false
  | number n hn => exact scans_number layout n hn
  | string s => exact (adds_quoted s).scans
  | array items _ ih =>
      rw [compact, compactItems_eq_map, tokens_array]
      have hitems := adds_bracketed (compact layout) _ '[' ']' _ _ adds_leftBracket
        adds_rightBracket rfl [] [] (List.forall_mem_nil _) (List.forall_mem_nil _) items ih
      exact hitems.scans
  | object members _ _ ih =>
      rw [compact, compactMembers_eq_map, tokens_object]
      have hmembers := adds_bracketed
        (fun m : String × Json => quoted m.1 ++ ':' :: compact layout m.2) _ '{' '}' _ _
        adds_leftBrace adds_rightBrace rfl [] [] (List.forall_mem_nil _) (List.forall_mem_nil _)
        members fun m hm => scans_member m.1 _ _ (ih m hm)
      exact hmembers.scans

/-- So has an indented text. -/
theorem scans_pretty (v : Json) (h : v.IsDocument .json) :
    ∀ level, Scans (prettyAt level v) (v.toTree .json).tokens := by
  induction h with
  | null => exact fun _ => scans_null
  | bool b =>
      cases b with
      | true => exact fun _ => scans_true
      | false => exact fun _ => scans_false
  | number n hn => exact fun _ => scans_number .json n hn
  | string s => exact fun _ => (adds_quoted s).scans
  | array items _ ih =>
      -- Items are written in a block, each on a line of one level more.
      intro level
      rw [prettyAt, prettyItems_eq_map, tokens_array]
      have hitems := adds_block (prettyAt (level + 1)) _ '[' ']' _ _ adds_leftBracket
        adds_rightBracket rfl level items fun v hv => ih v hv (level + 1)
      exact hitems.scans
  | object members _ _ ih =>
      intro level
      rw [prettyAt, prettyMembers_eq_map, tokens_object]
      have hmembers := adds_block
        (fun m : String × Json => quoted m.1 ++ ':' :: ' ' :: prettyAt (level + 1) m.2) _
        '{' '}' _ _ adds_leftBrace adds_rightBrace rfl level members fun m hm =>
          scans_member m.1 _ _ (scans_blank _ _ (ih m hm (level + 1)))
      exact hmembers.scans

/-- A text that scans to the tokens of a document holds this document. -/
theorem ofText?_of_scans (text : List Char) (t : Tree) (h : Scans text t.tokens) :
    Tree.ofText? (String.ofList text) = some t := by
  rw [Tree.ofText?, String.toList_ofList, ← symbolsOf, h.scan?_eq, Option.bind_some,
    Tree.ofTokens?_tokens]

/-- The document in a canonical text has its members in the order of their quoted keys. -/
theorem ofText?_canonical (v : Json) (h : v.IsDocument .canonical) :
    Tree.ofText? v.canonical = some ((v.sorted quotedBefore).toTree .canonical) :=
  ofText?_of_scans _ _ (scans_compact .canonical _ (h.sorted _))

/-- A canonical text is read as the value with its members sorted by key, if it nests little
    enough. -/
theorem parse?_canonical (v : Json) (h : v.IsDocument .canonical) :
    parse? v.canonical
      = if v.depth ≤ maxDepth then some (v.sorted keyBefore) else none := by
  rw [parse?, ofText?_canonical v h, Option.bind_some, toJson?_toTree .canonical _ (h.sorted _),
    depth_sorted quotedBefore .canonical v h, sorted_sorted quotedBefore .canonical v h]

/-- A value that nests little enough has a text on disk, and it is indented, with members sorted by
    key. -/
theorem indentedCanonical?_eq_some_iff (v : Json) (h : v.IsDocument .canonical) (text : String) :
    indentedCanonical? v = some text
      ↔ v.depth ≤ maxDepth ∧ (v.sorted keyBefore).pretty ++ "\n" = text := by
  rw [indentedCanonical?, parse?_canonical v h]
  by_cases hdepth : v.depth ≤ maxDepth
  · rw [if_pos hdepth, Option.map_some, Option.some.injEq]
    exact (and_iff_right hdepth).symm
  · rw [if_neg hdepth, Option.map_none]
    simp only [reduceCtorEq, hdepth, false_and]

/-- The document in a text on disk. -/
theorem ofText?_pretty (v : Json) (h : v.IsDocument .json) :
    Tree.ofText? (v.pretty ++ "\n") = some (v.toTree .json) := by
  have hbreak : Adds ['\n'] [] := fun _ => rfl
  have hscan := (scans_pretty v h 0).append_cons (c := '\n') rfl hbreak.scans
  rw [List.append_nil] at hscan
  have htext : v.pretty ++ "\n" = String.ofList (prettyAt 0 v ++ ['\n']) := by
    rw [pretty, String.ofList_append]
  rw [htext]
  exact ofText?_of_scans _ _ hscan

/-- Values of one canonical text are the same. -/
theorem same_of_canonical_eq (v w : Json) (hv : v.IsDocument .canonical)
    (hw : w.IsDocument .canonical) (h : v.canonical = w.canonical) : v.Same w := by
  have hread := ofText?_canonical v hv
  rw [h, ofText?_canonical w hw, Option.some.injEq] at hread
  -- Read with an allowance that is enough for both, the one document has both values.
  have hjson := congrArg (Tree.toJson? (max v.depth w.depth)) hread
  rw [toJson?_toTree .canonical _ (hw.sorted _), toJson?_toTree .canonical _ (hv.sorted _),
    depth_sorted quotedBefore .canonical v hv, depth_sorted quotedBefore .canonical w hw,
    if_pos (Nat.le_max_left _ _), if_pos (Nat.le_max_right _ _), Option.some.injEq,
    sorted_sorted quotedBefore .canonical v hv, sorted_sorted quotedBefore .canonical w hw] at hjson
  exact hjson.symm

namespace Tree

/-- The document in the bytes of a text is the one in the text. -/
theorem ofBytes?_toUTF8 (text : String) : ofBytes? text.toUTF8 = ofText? text := by
  have hread : String.fromUTF8? text.toUTF8 = some text := by
    rw [String.fromUTF8?, String.toUTF8_eq_toByteArray, dif_pos text.isValidUTF8]
    rfl
  rw [ofBytes?, symbols, hread, ofText?]

end Tree

/-- What a reader finds in the documents of a value, it finds in the file of the value. -/
theorem Reader.readBytes?_of_finds {α : Type} (reader : Reader α) (v : Json) (x : α)
    (hdocument : ∀ layout, v.IsDocument layout) (hfinds : reader.Finds v x) (text : String)
    (h : indentedCanonical? v = some text) : readBytes? reader text.toUTF8 = some x := by
  rcases (indentedCanonical?_eq_some_iff v (hdocument _) text).mp h with ⟨hdepth, rfl⟩
  have hsorted : (v.sorted keyBefore).IsDocument .json := (hdocument _).sorted _
  rw [readBytes?, Tree.ofBytes?_toUTF8, ofText?_pretty _ hsorted, Option.bind_some]
  refine hfinds _ _ ⟨.json, _, hsorted, ?_, ?_, rfl⟩
  · exact sorted_sorted keyBefore .json _ (hdocument _)
  · rw [depth_sorted keyBefore .json _ (hdocument _)]
    exact Allowance.admits_maxDepth hdepth

end Json

end PlatformBridge
