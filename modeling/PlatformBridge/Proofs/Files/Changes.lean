import PlatformBridge.Proofs.Files.Walks

/-!
# What Changes in a Tree

Operations on a tree change what is at one address and nothing else, and
directories stay. Whatever is built from them is therefore described by the
addresses that it may change: apart from these, files are as they were, and
nothing is new but directories. What could be followed before can still be
followed.

`ChangesOnly` says this of two trees, for a set of addresses. It says nothing
of what is at these addresses afterwards, so it can be weakened to a greater
set and put together over a row of operations, and both are all that is asked
of it. What a file holds at the end is then followed from the operation that
put it there.

An operation that fails may have changed something too. `Touches` says of an
action that whatever it does, and however it ends, is within some addresses.
Making directories is the case where this matters, since it may fail halfway,
with some directories made; they are not counted as a change.

A file is put in place at once, by way of a temporary file beside it of which
nothing is left in the end. All that shows of it is that its name has to have
room: it is longer than that of the file, so a name can be short enough for a
file and too long for putting it in place. `of_replace_eq_ok` and
`replace_of_admits` say from both sides what it takes, and what is at the
address then.

## Main definitions

* `FileTree.ChangesOnly`, `FileTree.Same`: What is kept when only some
  addresses change, or none.
* `FileTree.Touches`: Everything that an action may change is at some
  addresses.
* `FileTree.HasRoom`: Where a file can be put in place.

## Theorems

* `FileTree.entry?_set`, `FileTree.entry?_erase`: What is where after a
  change.
* `FileTree.ChangesOnly.trans`, `FileTree.ChangesOnly.mono`: Changes in a
  row, and at more addresses.
* `FileTree.ChangesOnly.file_iff`: The files that are as they were.
* `FileTree.ChangesOnly.passes`, `FileTree.ChangesOnly.admits`: What can be
  followed still can.
* `FileTree.changesOnly_set_file`, `FileTree.changesOnly_set_directory`,
  `FileTree.changesOnly_erase`: Single changes.
* `FileTree.touches_bind`, `FileTree.touches_update`: Actions in a row.
* `FileTree.touches_createChain`, `FileTree.createDirectories_of_directory`,
  `FileTree.createDirectories_parent`: Making directories.
* `FileTree.of_replace_eq_ok`, `FileTree.replace_of_admits`: Putting a file
  in place.
* `FileTree.remove_of_file`: Removing a file.
-/

namespace PlatformBridge

namespace FileTree

section Entries

variable (t : FileTree) (l : Address) (hfree : t.entry? l ≠ some .directory)

include hfree in
/-- Only directories are above the working directory. -/
theorem not_isSuffixOf_home : l.isSuffixOf t.home = false := by
  exact Bool.eq_false_iff.mpr fun hsuffix =>
    hfree (entry?_of_suffix l (List.isSuffixOf_iff_suffix.mp hsuffix))

omit hfree in
/-- What is at one address is not looked for at another. -/
theorem find?_filter_ne (k : Address) (hk : k ≠ l) :
    (t.entries.filter (·.1 ≠ l)).find? (fun e => e.1 = k) = t.entries.find? fun e => e.1 = k := by
  rw [List.find?_filter]
  refine congrArg (fun p => t.entries.find? p) (funext fun e => ?_)
  by_cases hek : e.1 = k
  · simp [hek, hk]
  · simp [hek]

include hfree in
/-- What is put at an address is there, and everything else is where it was. -/
theorem entry?_set (e : Entry) (k : Address) :
    FileTree.entry? (t.set l e) k = if k = l then some e else t.entry? k := by
  have hsuffix := not_isSuffixOf_home t l hfree
  by_cases hk : k = l
  · subst hk
    rw [if_pos rfl, entry?, set, hsuffix, if_neg Bool.false_ne_true]
    simp
  · rw [if_neg hk, entry?, entry?, set]
    have hfind : ((l, e) :: t.entries.filter (·.1 ≠ l)).find? (fun e => e.1 = k)
        = t.entries.find? fun e => e.1 = k := by
      rw [List.find?_cons_of_neg (by simpa using Ne.symm hk), find?_filter_ne t l k hk]
    rw [hfind]

include hfree in
/-- What is removed is gone, and everything else is where it was. -/
theorem entry?_erase (k : Address) :
    FileTree.entry? (t.erase l) k = if k = l then none else t.entry? k := by
  have hsuffix := not_isSuffixOf_home t l hfree
  by_cases hk : k = l
  · subst hk
    rw [if_pos rfl, entry?, erase, hsuffix, if_neg Bool.false_ne_true]
    simp
  · rw [if_neg hk, entry?, entry?, erase]
    rw [find?_filter_ne t l k hk]

end Entries

/-- From one plain tree to another nothing changes but what is at some addresses, and that there are
    further directories. Directories stay in any case. -/
structure ChangesOnly (named : Address → Prop) (t t' : FileTree) : Prop where
  plain : t'.IsPlain
  home : t'.home = t.home
  directories : ∀ l, t.entry? l = some .directory → t'.entry? l = some .directory
  kept : ∀ l e, ¬ named l → t.entry? l = some e → t'.entry? l = some e
  added : ∀ l e, ¬ named l → t'.entry? l = some e → t.entry? l = some e ∨ e = .directory

variable {named named' : Address → Prop} {t t' t'' : FileTree}

theorem ChangesOnly.refl (h : t.IsPlain) : t.ChangesOnly named t :=
  ⟨h, rfl, fun _ => id, fun _ _ _ => id, fun _ _ _ => Or.inl⟩

/-- Changes at some addresses, one after the other, are changes at these addresses. -/
theorem ChangesOnly.trans (h : t.ChangesOnly named t') (h' : t'.ChangesOnly named t'') :
    t.ChangesOnly named t'' := by
  refine ⟨h'.plain, h'.home.trans h.home, fun l hl => h'.directories l (h.directories l hl),
    fun l e hl he => h'.kept l e hl (h.kept l e hl he), fun l e hl he => ?_⟩
  rcases h'.added l e hl he with he | he
  · exact h.added l e hl he
  · exact Or.inr he

theorem ChangesOnly.mono (h : t.ChangesOnly named t') (hnamed : ∀ l, named l → named' l) :
    t.ChangesOnly named' t' :=
  ⟨h.plain, h.home, h.directories, fun l e hl => h.kept l e fun hl' => hl (hnamed l hl'),
    fun l e hl => h.added l e fun hl' => hl (hnamed l hl')⟩

/-- The files are the same where nothing is named. -/
theorem ChangesOnly.file_iff (h : t.ChangesOnly named t') (l : Address) (hl : ¬ named l)
    (bytes : ByteArray) : t'.entry? l = some (.file bytes) ↔ t.entry? l = some (.file bytes) := by
  refine ⟨fun he => ?_, h.kept l _ hl⟩
  rcases h.added l _ hl he with he | he
  · exact he
  · cases he

theorem ChangesOnly.address (h : t.ChangesOnly named t') (p : Path) :
    t'.address p = t.address p := by
  rw [FileTree.address, FileTree.address, h.home]

/-- Segments can still be walked, because directories stay. -/
theorem ChangesOnly.passes (h : t.ChangesOnly named t') (l : Address) (segments : List String)
    (hpasses : t.Passes l segments) : t'.Passes l segments := by
  induction segments generalizing l with
  | nil => trivial
  | cons s rest ih => exact ⟨h.directories l hpasses.1, hpasses.2.1, ih _ hpasses.2.2⟩

/-- What could be followed still can. -/
theorem ChangesOnly.admits (h : t.ChangesOnly named t') (p : Path) (hadmits : t.Admits p) :
    t'.Admits p := by
  refine ⟨hadmits.fits, ?_⟩
  rw [h.home]
  exact h.passes _ _ hadmits.passes

/-- Two trees have the same at every address. -/
structure Same (t t' : FileTree) : Prop where
  home : t'.home = t.home
  entry : ∀ l, t'.entry? l = t.entry? l

theorem Same.trans (h : t.Same t') (h' : t'.Same t'') : t.Same t'' :=
  ⟨h'.home.trans h.home, fun l => (h'.entry l).trans (h.entry l)⟩

/-- If everything is the same, then nothing has changed. -/
theorem Same.changesOnly (hsame : t.Same t') (h : t.IsPlain) : t.ChangesOnly named t' := by
  refine ⟨⟨fun l target hlink => ?_, fun name l e hentry => ?_⟩, hsame.home, fun l hl => ?_,
    fun l e _ hl => ?_, fun l e _ hl => Or.inl ?_⟩
  · rw [hsame.entry] at hlink
    exact h.noLinks l target hlink
  · rw [hsame.entry] at hentry ⊢
    exact h.inDirectories name l e hentry
  · rwa [hsame.entry]
  · rwa [hsame.entry]
  · rwa [hsame.entry] at hl

section Single

variable (h : t.IsPlain) (l : Address)

include h in
/-- Putting a file into a directory changes nothing else. -/
theorem changesOnly_set_file (hfree : t.entry? l ≠ some .directory)
    (hdirectory : t.entry? l.tail = some .directory) (bytes : ByteArray) :
    t.ChangesOnly (· = l) (t.set l (.file bytes)) := by
  have hset := entry?_set t l hfree (.file bytes)
  refine ⟨⟨fun k target hlink => ?_, fun name k e hentry => ?_⟩, rfl, fun k hk => ?_,
    fun k e hne hk => ?_, fun k e hne hk => ?_⟩
  · rw [hset] at hlink
    split at hlink
    · cases hlink
    · exact h.noLinks k target hlink
  · -- What is in a directory is in none that has become a file.
    have hparent : t.entry? k = some .directory := by
      rw [hset] at hentry
      split at hentry
      · rename_i hname
        rw [← hname] at hdirectory
        exact hdirectory
      · exact h.inDirectories name k e hentry
    rw [hset, if_neg (fun heq : k = l => hfree (heq ▸ hparent))]
    exact hparent
  · rw [hset, if_neg (fun heq : k = l => hfree (heq ▸ hk))]
    exact hk
  · rw [hset, if_neg hne]
    exact hk
  · rw [hset, if_neg hne] at hk
    exact Or.inl hk

include h in
/-- A new directory changes nothing that was there. -/
theorem changesOnly_set_directory (hfree : t.entry? l = none)
    (hdirectory : t.entry? l.tail = some .directory) :
    t.ChangesOnly named (t.set l .directory) := by
  have hset := entry?_set t l (by simp [hfree]) .directory
  -- Nothing was at the address, so nothing that was there is lost.
  have hkept : ∀ k e, t.entry? k = some e → FileTree.entry? (t.set l .directory) k = some e := by
    intro k e hk
    rw [hset, if_neg (fun heq => by rw [heq, hfree] at hk; cases hk)]
    exact hk
  refine ⟨⟨fun k target hlink => ?_, fun name k e hentry => ?_⟩, rfl, fun k hk => hkept k _ hk,
    fun k e _ hk => hkept k e hk, fun k e _ hk => ?_⟩
  · rw [hset] at hlink
    split at hlink
    · cases hlink
    · exact h.noLinks k target hlink
  · refine hkept k _ ?_
    rw [hset] at hentry
    split at hentry
    · rename_i hname
      rw [← hname] at hdirectory
      exact hdirectory
    · exact h.inDirectories name k e hentry
  · rw [hset] at hk
    split at hk
    · exact Or.inr (Option.some.inj hk).symm
    · exact Or.inl hk

include h in
/-- Removing a file changes nothing else. -/
theorem changesOnly_erase (hfree : t.entry? l ≠ some .directory) :
    t.ChangesOnly (· = l) (t.erase l) := by
  have herase := entry?_erase t l hfree
  have hkept : ∀ k e, k ≠ l → t.entry? k = some e → FileTree.entry? (t.erase l) k = some e := by
    intro k e hne hk
    rw [herase, if_neg hne]
    exact hk
  have hbefore : ∀ k e, FileTree.entry? (t.erase l) k = some e → t.entry? k = some e := by
    intro k e hk
    rw [herase] at hk
    split at hk
    · cases hk
    · exact hk
  have hdirectories : ∀ k, t.entry? k = some .directory →
      FileTree.entry? (t.erase l) k = some .directory :=
    fun k hk => hkept k _ (fun heq => hfree (heq ▸ hk)) hk
  refine ⟨⟨fun k target hlink => h.noLinks k target (hbefore k _ hlink), fun name k e hentry => ?_⟩,
    rfl, hdirectories, hkept, fun k e _ hk => Or.inl (hbefore k e hk)⟩
  exact hdirectories k (h.inDirectories name k e (hbefore _ e hentry))

end Single

/-- Whatever an action does, it changes nothing but what is at some addresses. -/
def Touches {α : Type} (named : Address → Prop) (x : StateM FileTree α) : Prop :=
  ∀ t : FileTree, t.IsPlain → t.ChangesOnly named (x t).2

section Actions

variable {α β : Type}

theorem touches_pure (a : α) : Touches named (pure a : StateM FileTree α) :=
  fun _ h => ChangesOnly.refl h

theorem touches_view (f : FileTree → Except FileError α) : Touches named (view f) :=
  fun _ h => ChangesOnly.refl h

/-- An action goes on from what the one before it gives and leaves. -/
theorem bind_apply (x : StateM FileTree α) (f : α → StateM FileTree β) (a : α) (t' : FileTree)
    (hx : x t = (a, t')) : (x >>= f) t = f a t' := by
  change f (x t).1 (x t).2 = _
  rw [hx]

/-- An action is within some addresses if its parts are, whatever the first gives to the second. -/
theorem touches_bind (x : StateM FileTree α) (f : α → StateM FileTree β) (hx : Touches named x)
    (hf : ∀ a, Touches named (f a)) : Touches named (x >>= f) :=
  fun t h => (hx t h).trans (hf (x t).1 (x t).2 (hx t h).plain)

/-- So is an action that replaces the tree by one with no other changes, or fails. -/
theorem touches_update (f : FileTree → Except FileError FileTree)
    (hf : ∀ t t' : FileTree, t.IsPlain → f t = .ok t' → t.ChangesOnly named t') :
    Touches named (update f) := by
  intro t h
  rw [update]
  cases hresult : f t with
  | ok t' => exact hf t t' h hresult
  | error e => exact ChangesOnly.refl h

end Actions

section Operations

variable (h : t.IsPlain) (p : Path)

include h in
/-- What is planted is put where nothing was, into a directory. -/
theorem of_plant_eq_ok (e : Entry) (hplant : t.plant p e = .ok t') :
    ∃ l, t.entry? l = none ∧ t.entry? l.tail = some .directory ∧ t' = t.set l e := by
  rcases Results.bind_eq_ok.mp hplant with ⟨place, hresolve, hset⟩
  rcases ends_of_resolve h p false place hresolve with ⟨_, hends⟩
  cases hends with
  | taken => cases hset
  | free d name _ _ _ _ _ _ hdirectory hmissing =>
      cases hset
      exact ⟨name :: d, hmissing, hdirectory, rfl⟩

include h in
theorem changesOnly_makeDirectory (hmake : t.makeDirectory p = .ok t') :
    t.ChangesOnly named t' := by
  rcases of_plant_eq_ok h p.withoutSlashes .directory hmake with ⟨l, hfree, hdirectory, rfl⟩
  exact changesOnly_set_directory h l hfree hdirectory

/-- Making directories changes nothing that was there, whether it goes well or not. -/
theorem touches_createChain (named : Address → Prop) (paths : List Path) :
    Touches named (FileStore.createChain paths : StateM FileTree (Except FileError Unit)) := by
  have hmake : ∀ path, Touches named (FileStore.makeDirectory path : StateM FileTree _) :=
    fun path => touches_update _ fun t t' h hmake => changesOnly_makeDirectory h path hmake
  have hlook : ∀ (path : Path) (e : FileError), Touches named (do
      if ← FileStore.isDirectory path then return .ok () else return .error e :
        StateM FileTree (Except FileError Unit)) := by
    intro path e
    refine touches_bind _ _ (touches_bind _ _ (touches_view _) fun kind => ?_) fun there => ?_
    · split <;> exact touches_pure _
    · split <;> exact touches_pure _
  -- The chain is a row of attempts and looks, each of which touches no more than is named.
  induction paths with
  | nil => exact touches_pure _
  | cons path above ih =>
      rw [FileStore.createChain]
      split
      · exact touches_pure _
      · refine touches_bind _ _ (hmake path) fun made => ?_
        split
        · exact touches_pure _
        · refine touches_bind _ _ ih fun chain => ?_
          split
          · exact touches_pure _
          · refine touches_bind _ _ (hmake path) fun made => ?_
            split
            · exact touches_pure _
            · exact hlook path _
        · exact hlook path _

include h in
/-- Making a directory that is there does nothing. -/
theorem createDirectories_of_directory (hslashes : p.withoutSlashes = p) (hadmits : t.Admits p)
    (hdirectory : t.entry? (t.address p) = some .directory) :
    (FileStore.createDirectories p : StateM FileTree (Except FileError Unit)) t = (.ok (), t) := by
  have hmake : (FileStore.makeDirectory p : StateM FileTree (Except FileError Unit)) t
      = (.error .alreadyExists, t) := by
    change update (fun t => t.plant p.withoutSlashes .directory) t = _
    rw [update, hslashes, plant, resolve_of_admits h p false hadmits _ hdirectory]
    rfl
  have hthere : (FileStore.isDirectory p : StateM FileTree Bool) t = (true, t) := by
    have hkind := (kind_eq_ok_iff h p true .directory).mpr ⟨hadmits, _, hdirectory, rfl⟩
    have hlook : (FileStore.kind true p : StateM FileTree (Except FileError FileKind)) t
        = (.ok .directory, t) := congrArg (·, t) hkind
    exact bind_apply _ _ _ _ hlook
  rw [FileStore.createDirectories, Path.ancestors, Path.ancestorsUpTo, FileStore.createChain,
    hadmits.fits.present, if_neg Bool.false_ne_true, bind_apply _ _ _ _ hmake]
  change (_ >>= _ : StateM FileTree (Except FileError Unit)) t = _
  rw [bind_apply _ _ _ _ hthere]
  rfl

include h in
/-- What is above a path that can be followed is there, so making it does nothing. -/
theorem createDirectories_parent (front : List String) (s : String)
    (hsegments : p.segments = front ++ [s]) (hs : Path.isIdle s = false) (hne : front ≠ [])
    (hadmits : t.Admits p) : ∃ q, p.parent? = some q
      ∧ (FileStore.createDirectories q : StateM FileTree (Except FileError Unit)) t
        = (.ok (), t) := by
  rcases Path.parent?_eq p front s hsegments hs hne with
    ⟨q, kept, idle, hq, hfront, hidle, hkept, ⟨hqkept, hlast⟩ | ⟨hqroot, rfl⟩⟩
  · -- The path above goes the same way and stops before the last name.
    have hparts : p.segments = kept ++ (idle ++ [s]) := by
      rw [hsegments, hfront, List.append_assoc]
    have hpresent : q.isEmpty = false := by
      rw [Path.isEmpty_eq_false_iff, hqkept]
      exact ⟨hkept, fun hroot => hlast (by rw [hroot]; rfl)⟩
    have hstart : start q t.home = start p t.home := by
      refine Path.start_eq q p hpresent hadmits.fits.present ?_ _
      rcases List.exists_cons_of_ne_nil hkept with ⟨first, rest, hcons⟩
      rw [hqkept, hparts, hcons]
      rfl
    have hpasses := hadmits.passes
    rw [hparts, passes_append] at hpasses
    have hdirectory : t.entry? (Path.goal (start p t.home) kept) = some .directory := by
      cases idle with
      | nil => exact hpasses.2.1
      | cons first rest => exact hpasses.2.1
    refine ⟨q, hq, createDirectories_of_directory h q ?_ ⟨?_, ?_⟩ ?_⟩
    · exact Path.withoutSlashes_of_getLast? q (hqkept ▸ hlast)
    · refine hadmits.fits.of_le hpresent (fun s hs => Or.inl ?_) ?_ ?_
      · rw [hparts]
        exact List.mem_append_left _ (hqkept ▸ hs)
      · rw [hparts, hqkept, List.flatMap_append, Text.byteLength_append]
        omega
      · rw [hparts, hqkept, List.length_append]
        omega
    · rw [hstart, hqkept]
      exact hpasses.1
    · rw [address, hstart, hqkept]
      exact hdirectory
  · -- The root is always there.
    rcases q with ⟨segments⟩
    cases hqroot
    refine ⟨_, hq, createDirectories_of_directory h _ rfl ⟨⟨rfl, by decide, by decide⟩, ?_⟩ ?_⟩
    · exact ⟨entry?_nil, by decide, entry?_nil, by decide, trivial⟩
    · exact entry?_nil

/-- A file can be put in place at an address: the name of a temporary file beside it is not too
    long. -/
def HasRoom (l : Address) : Prop :=
  Text.byteLength (l.headD "").toList + temporaryNameBytes ≤ maxNameBytes

include h in
/-- A file is put in place where its path leads, which is not a directory but in one. -/
theorem of_replace_eq_ok (hlast : p.segments.getLast? ≠ some "") (bytes : ByteArray)
    (hreplace : t.replace p bytes = .ok t') :
    t.Admits p ∧ t.entry? (t.address p) ≠ some .directory
      ∧ t.entry? (t.address p).tail = some .directory ∧ HasRoom (t.address p)
      ∧ t' = t.set (t.address p) (.file bytes) := by
  have hat : ∀ l, t.replaceAt l bytes = .ok t' →
      t.entry? l ≠ some .directory ∧ HasRoom l ∧ t' = t.set l (.file bytes) := by
    intro l hl
    unfold replaceAt at hl
    split at hl
    · cases hl
    · rename_i hroom
      split at hl
      · cases hl
      · rename_i hfree
        cases hl
        exact ⟨fun hdirectory => hfree ((isDirectoryAt_iff l).mpr hdirectory),
          Nat.not_lt.mp hroom, rfl⟩
  rcases Results.bind_eq_ok.mp hreplace with ⟨place, hresolve, hset⟩
  rcases ends_of_resolve h p false place hresolve with ⟨hfits, hends⟩
  cases hends with
  | taken e hpasses hentry =>
      rcases hat _ hset with ⟨hfree, hroom, rfl⟩
      exact ⟨⟨hfits, hpasses⟩, hfree, h.tail _ e hentry, hroom, rfl⟩
  | free d name front blanks hsegments hblanks hpasses hgoal hdirectory hmissing =>
      -- There is no slash at the end, so the name that is not in use is the last segment.
      have hnil : blanks = [] := by
        rcases List.eq_nil_or_concat blanks with hnil | ⟨others, s, rfl⟩
        · exact hnil
        · refine absurd ?_ hlast
          rw [List.concat_eq_append] at hsegments hblanks
          rw [hsegments, ← List.append_assoc, List.getLast?_concat,
            hblanks s (List.mem_append_right _ (List.mem_singleton_self s))]
      rw [hnil, List.append_nil] at hsegments
      have haddress : t.address p = name :: d := by rw [address, hsegments, hgoal]
      rcases hat _ hset with ⟨hfree, hroom, rfl⟩
      rw [haddress]
      exact ⟨⟨hfits, hsegments ▸ hpasses⟩, hfree, hdirectory, hroom, rfl⟩

include h in
/-- A file can be put in place wherever a path can be followed to a name that is no directory. -/
theorem replace_of_admits (front : List String) (s : String)
    (hsegments : p.segments = front ++ [s]) (hs : Path.IsStep s) (hadmits : t.Admits p)
    (hfree : t.entry? (t.address p) ≠ some .directory) (hroom : HasRoom (t.address p))
    (bytes : ByteArray) : t.replace p bytes = .ok (t.set (t.address p) (.file bytes)) := by
  have hat : t.replaceAt (t.address p) bytes = .ok (t.set (t.address p) (.file bytes)) := by
    rw [replaceAt, if_neg (Nat.not_lt.mpr hroom),
      if_neg (fun hthere => hfree ((isDirectoryAt_iff _).mp hthere))]
  -- The file is replaced where there is one, and put where there is none.
  cases hentry : t.entry? (t.address p) with
  | some e =>
      rw [replace, resolve_of_admits h p false hadmits e hentry]
      exact hat
  | none =>
      have hstep : Path.step (Path.goal (start p t.home) front) s = t.address p := by
        rw [address, hsegments, Path.goal_append]
        rfl
      have hname : t.address p = s :: Path.goal (start p t.home) front := by
        rw [← hstep, Path.step, hs.notIdle, if_neg Bool.false_ne_true, if_neg hs.notUp]
      have hresolve : t.resolve false p = .ok (.free (Path.goal (start p t.home) front) s) := by
        have hpasses := hadmits.passes
        rw [hsegments] at hpasses
        rw [resolve_of_fits p false hadmits.fits, hsegments]
        exact walkWith_of_passes_of_missing false _ h _ s front hpasses (hstep ▸ hentry)
      rw [replace, hresolve]
      rw [hname] at hat ⊢
      exact hat

section Files

variable (hadmits : t.Admits p) (bytes : ByteArray)
variable (hfile : t.entry? (t.address p) = some (.file bytes))

include hfile in
theorem isDirectoryAt_of_file : t.isDirectoryAt (t.address p) = false := by
  rw [isDirectoryAt, hfile]

include h hadmits hfile in
/-- A file that is there can be removed. -/
theorem remove_of_file : t.remove p = .ok (t.erase (t.address p)) := by
  rw [remove, resolve_of_admits h p false hadmits _ hfile]
  change (if t.isDirectoryAt (t.address p) then throw .isADirectory
    else return t.erase (t.address p) : Except FileError FileTree) = _
  rw [isDirectoryAt_of_file p bytes hfile, if_neg Bool.false_ne_true]
  rfl

end Files

end Operations

end FileTree

end PlatformBridge
