import PlatformBridge.Proofs.Text.Letters
import PlatformBridge.Toml.Parser

/-!
# Lines of a Settings File

How a settings file is read that was written with care: every line is empty, a
header, or a key with a text between quotes or with true or false. The reader
of a file sees no lines. It takes what it needs from the front of the text and
leaves the rest, with a fuel for how long this may go on. A line that is
written with care is taken as a whole: it turns one state of the reader into
another, whatever comes behind its line break, and uses up one of the fuel. So
a file of such lines is read line by line.

A text between quotes is read as it stands as long as there is nothing in it
but plain characters, none of them a quote or a backslash.

Nothing is said here of files that were not written with care. The reader
takes them too, with all that the format allows, and it is tested on them. The
one file that has to be readable whatever a project is called is the one that
the tool writes itself for a new project, and it is of this kind.

A line is given by what it does to the table that has been read so far. The
functions that add to a table may refuse, if a key is there already, and this
is left to whoever has a certain file: `turns_header` and `turns_assignment`
take the table that comes out as a hypothesis, and for a file with fixed keys
that table is computed.

## Main definitions

* `Toml.Place`: The state of the reader between two lines.
* `Toml.IsBareKey`, `Toml.IsVerbatim`: Keys without quotes, and texts that are
  read as they stand.
* `Toml.Denotes`: A text at the end of a line is read as a value.
* `Toml.Turns`, `Toml.Leads`: What a line does, and what some lines do.

## Theorems

* `Toml.readLine?_append`, `Toml.readString?_append`: A text is read up to the
  quote behind it.
* `Toml.readKeys?_append`: A key is read up to what cannot be part of it.
* `Toml.denotes_quoted`, `Toml.denotes_bool`: Values.
* `Toml.turns_empty`, `Toml.turns_header`, `Toml.turns_assignment`: The three
  kinds of lines.
* `Toml.Leads.read`: A file is read line by line.
-/

namespace PlatformBridge

namespace Toml

/-- The state of the reader between two lines: the keys of the last header, and the table that the
    lines have added up to. -/
structure Place where
  header : List String
  root : Members

section Texts

/-- A key that is written without quotes. -/
def IsBareKey (key : List Char) : Prop := key ≠ [] ∧ ∀ c ∈ key, isBare c = true

/-- A text that is read as it stands between quotes. -/
def IsVerbatim (text : List Char) : Prop :=
  ∀ c ∈ text, isPlain c = true ∧ c ≠ '"' ∧ c ≠ '\\'

-- Only the letters of a text are looked at, and not all that there are.
instance (key : List Char) : Decidable (IsBareKey key) :=
  have := List.decidableBAll (fun c => isBare c = true) key
  inferInstanceAs (Decidable (_ ∧ _))

instance (text : List Char) : Decidable (IsVerbatim text) := List.decidableBAll _ text

/-- A key has a first character, and this is no blank, so the reader does not skip it. -/
theorem IsBareKey.exists_cons {key : List Char} (h : IsBareKey key) :
    ∃ first more, key = first :: more ∧ isBare first = true ∧ isSpace first = false := by
  rcases List.exists_cons_of_ne_nil h.1 with ⟨first, more, rfl⟩
  have hfirst : isBare first = true := h.2 first List.mem_cons_self
  refine ⟨first, more, rfl, hfirst, ?_⟩
  simp [isSpace, Text.ne_of_class hfirst (d := ' ') (by decide),
    Text.ne_of_class hfirst (d := '\t') (by decide)]

/-- A text is read up to the quote behind it. -/
theorem readLine?_append (text rest : List Char) (htext : IsVerbatim text) :
    ∀ acc fuel, text.length < fuel →
      readLine? '"' acc fuel (text ++ '"' :: rest)
        = some (String.ofList (acc.reverse ++ text), rest) := by
  induction text with
  | nil =>
      intro acc fuel hfuel
      cases fuel with
      | zero => exact absurd hfuel (Nat.not_lt_zero _)
      | succ fuel => rw [List.nil_append, readLine?, if_pos rfl, List.append_nil]
  | cons c text ih =>
      intro acc fuel hfuel
      cases fuel with
      | zero => exact absurd hfuel (Nat.not_lt_zero _)
      | succ fuel =>
          rcases List.forall_mem_cons.mp htext with ⟨⟨hplain, hquote, hslash⟩, hrest⟩
          have hmore := ih hrest (c :: acc) fuel (Nat.lt_of_succ_lt_succ hfuel)
          rw [List.cons_append, readLine?, if_neg hquote, hplain, if_pos rfl, hmore]
          simp [hslash]

/-- A string on one line is read up to its second quote. -/
theorem readString?_append (text rest : List Char) (htext : IsVerbatim text) :
    readString? '"' ('"' :: (text ++ '"' :: '\n' :: rest))
      = some (String.ofList text, '\n' :: rest) := by
  have hline := readLine?_append text ('\n' :: rest) htext []
    ('"' :: (text ++ '"' :: '\n' :: rest)).length (by
      simp only [List.length_cons, List.length_append]
      omega)
  -- It is no string over several lines: of the first three characters one is no quote.
  rcases text with _ | ⟨a, _ | ⟨b, text⟩⟩
  · exact hline
  · have ha := (htext a List.mem_cons_self).2.1
    simpa [readString?, ha] using hline
  · have ha := (htext a List.mem_cons_self).2.1
    simpa [readString?, ha] using hline

/-- A key is read up to what cannot be part of it. Blanks behind it are skipped, since a dot might
    follow them. -/
theorem readKeys?_append (key rest : List Char) (mark : Char) (more : List Char)
    (hkey : IsBareKey key) (hend : ∀ c, rest.head? = some c → isBare c = false)
    (hmark : rest.dropWhile isSpace = mark :: more) (hdot : mark ≠ '.') :
    readKeys? (key ++ rest) = some (([], String.ofList key), mark :: more) := by
  have htake : (key ++ rest).takeWhile isBare = key ∧ (key ++ rest).dropWhile isBare = rest := by
    rw [List.takeWhile_append_of_pos hkey.2, List.dropWhile_append_of_pos hkey.2]
    cases rest with
    | nil => exact ⟨List.append_nil key, rfl⟩
    | cons c rest => simp [hend c rfl]
  rcases hkey.exists_cons with ⟨first, others, rfl, hfirst, hspace⟩
  -- A bare key starts with no quote, so it is read as what it is.
  have hread :
      readKey? (first :: others ++ rest) = some (String.ofList (first :: others), rest) := by
    unfold readKey?
    split
    · rename_i heq
      cases heq
      exact absurd hfirst (by decide)
    · rename_i heq
      cases heq
      exact absurd hfirst (by decide)
    · rw [htake.1, htake.2]
      rfl
  -- No dot is behind the key, so it is the only one.
  have hmore : readMoreKeys? (rest.length + 1) rest = some ([], mark :: more) := by
    rw [readMoreKeys?, hmark]
    split
    · rename_i heq
      exact absurd (List.cons.inj heq).1 hdot
    · rfl
  rw [readKeys?, List.cons_append, List.dropWhile_cons_of_neg (by simp [hspace]),
    ← List.cons_append, hread, Option.bind_some]
  dsimp only
  rw [hmore]
  rfl

end Texts

section Values

/-- A text at the end of a line is read as a value. -/
def Denotes (text : List Char) (value : Toml) : Prop :=
  (∀ c, text.head? = some c → isSpace c = false)
    ∧ ∀ fuel rest, readValue? (fuel + 1) (text ++ '\n' :: rest) = some (value, '\n' :: rest)

/-- A text between quotes is a string. -/
theorem denotes_quoted (text : String) (htext : IsVerbatim text.toList) :
    Denotes ('"' :: (text.toList ++ ['"'])) (.string text) := by
  refine ⟨fun c hc => Option.some.inj hc ▸ rfl, fun fuel rest => ?_⟩
  have hread := readString?_append text.toList rest htext
  rw [String.ofList_toList] at hread
  simp [readValue?, hread]

/-- True and false are written by name. -/
theorem denotes_bool (b : Bool) : Denotes (toString b).toList (.bool b) := by
  cases b with
  | false => exact ⟨fun c hc => Option.some.inj hc ▸ rfl, fun fuel rest => rfl⟩
  | true => exact ⟨fun c hc => Option.some.inj hc ▸ rfl, fun fuel rest => rfl⟩

end Values

section Steps

/-- What a line does to the state of the reader, whatever comes behind it. -/
def Turns (line : List Char) (s t : Place) : Prop :=
  ∀ fuel rest, readLinesOf? (fuel + 1) s.header s.root (line ++ '\n' :: rest)
    = readLinesOf? fuel t.header t.root rest

theorem endLine?_newline (rest : List Char) : endLine? ('\n' :: rest) = some rest := rfl

/-- An empty line changes nothing. -/
theorem turns_empty (s : Place) : Turns [] s s := fun _ _ => rfl

/-- A header opens a table. -/
theorem turns_header (key : String) (hkey : IsBareKey key.toList) (s : Place) (root : Members)
    (hopen : Node.openTable? [] key s.root = some root) :
    Turns ('[' :: (key.toList ++ [']'])) s ⟨[key], root⟩ := by
  intro fuel rest
  have hread := readKeys?_append key.toList (']' :: '\n' :: rest) ']' ('\n' :: rest) hkey
    (fun c hc => Option.some.inj hc ▸ rfl) rfl (by decide)
  rcases hkey.exists_cons with ⟨first, more, heq, hfirst, _⟩
  -- The header is none with two brackets, as the key does not start with one.
  have hbracket : first ≠ '[' := Text.ne_of_class hfirst (by decide)
  have hspace : isSpace '[' = false := rfl
  rw [String.ofList_toList, heq, List.cons_append] at hread
  simp [readLinesOf?, heq, hspace, hbracket, hread, hopen, endLine?_newline]

/-- A key with a value adds to the table of the last header. -/
theorem turns_assignment (key : String) (hkey : IsBareKey key.toList) (text : List Char)
    (value : Toml) (hvalue : Denotes text value) (s : Place) (root : Members)
    (hassign : Node.inTable? s.header (Node.assign? [] key value) s.root = some root) :
    Turns (key.toList ++ ' ' :: '=' :: ' ' :: text) s ⟨s.header, root⟩ := by
  intro fuel rest
  have hread := readKeys?_append key.toList (' ' :: '=' :: ' ' :: (text ++ '\n' :: rest)) '='
    (' ' :: (text ++ '\n' :: rest)) hkey (fun c hc => Option.some.inj hc ▸ rfl) rfl (by decide)
  have hdrop : (' ' :: (text ++ '\n' :: rest)).dropWhile isSpace = text ++ '\n' :: rest := by
    rw [List.dropWhile_cons_of_pos rfl]
    rcases text with _ | ⟨first, text⟩
    · rfl
    · rw [List.cons_append, List.dropWhile_cons_of_neg (by simp [hvalue.1 first rfl])]
  rcases hkey.exists_cons with ⟨first, more, heq, hfirst, hspace⟩
  -- The line is neither a header nor empty: its first character is that of a key.
  have hne : ∀ d, isBare d = false → first ≠ d := fun d hd => Text.ne_of_class hfirst hd
  have hmore :
      endLine? (first :: (more ++ ' ' :: '=' :: ' ' :: (text ++ '\n' :: rest))) = none := by
    simp [endLine?, skipComment, newline?, hspace, hne '#' (by decide), hne '\n' (by decide),
      hne '\r' (by decide)]
  rw [String.ofList_toList, heq, List.cons_append] at hread
  simp [readLinesOf?, heq, hspace, hne '[' (by decide), hread, hmore, hdrop, hvalue.2, hassign,
    endLine?_newline]

/-- What some lines do to the state of the reader. -/
inductive Leads : List (List Char) → Place → Place → Prop where
  | nil (s : Place) : Leads [] s s
  | cons (line : List Char) (lines : List (List Char)) (s t u : Place) (hline : Turns line s t)
      (hlines : Leads lines t u) : Leads (line :: lines) s u

/-- A file is read line by line, if the fuel lasts. -/
theorem Leads.read {lines : List (List Char)} {s t : Place} (h : Leads lines s t) :
    ∀ fuel, lines.length < fuel →
      readLinesOf? fuel s.header s.root (lines.flatMap (· ++ ['\n'])) = some t.root := by
  induction h with
  | nil s =>
      intro fuel hfuel
      cases fuel with
      | zero => exact absurd hfuel (Nat.not_lt_zero _)
      | succ fuel => rfl
  | cons line lines s t u hline _ ih =>
      intro fuel hfuel
      cases fuel with
      | zero => exact absurd hfuel (Nat.not_lt_zero _)
      | succ fuel =>
          rw [List.flatMap_cons, List.append_assoc, List.singleton_append, hline]
          exact ih fuel (Nat.lt_of_succ_lt_succ hfuel)

end Steps

end Toml

end PlatformBridge
