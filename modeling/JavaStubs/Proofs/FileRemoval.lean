import JavaStubs.Proofs.FileChanges

/-!
# What removing files and directories changes

Deleting a file takes away its entry. Deleting directories while they are empty takes away places
strictly below the base, each of them empty at that moment; so every entry that is left stands in a
directory still.
-/
namespace JavaStubs

namespace Files.FileTree

open JavaStubs.Path (IsName component?)

variable {tree before between after : FileTree} {path base : Path}

/-- One tree becomes another one by losing entries. -/
structure Shrinks (lost : Place → Entry → Prop) (before after : FileTree) : Prop where
  workingDirectory : after.workingDirectory = before.workingDirectory
  entries : ∀ place, after.entry? place = before.entry? place ∨
    after.entry? place = none ∧ ∃ entry, before.entry? place = some entry ∧ lost place entry

namespace Shrinks

variable {lost : Place → Entry → Prop}

theorem refl (lost : Place → Entry → Prop) (tree : FileTree) : Shrinks lost tree tree :=
  ⟨rfl, fun _ => Or.inl rfl⟩

theorem trans (h : Shrinks lost before between) (h' : Shrinks lost between after) :
    Shrinks lost before after := by
  refine ⟨h'.workingDirectory.trans h.workingDirectory, fun place => ?_⟩
  rcases h.entries place with hsame | ⟨hnone, hlost⟩
  · rw [← hsame]
    exact h'.entries place
  · refine Or.inr ⟨?_, hlost⟩
    rcases h'.entries place with hsame' | ⟨hnone', -⟩
    · rw [hsame', hnone]
    · exact hnone'

theorem mono {lost' : Place → Entry → Prop} (h : Shrinks lost before after)
    (hsub : ∀ place entry, lost place entry → lost' place entry) : Shrinks lost' before after :=
  ⟨h.workingDirectory, fun place => (h.entries place).imp_right fun ⟨hnone, entry, he, hlost⟩ =>
    ⟨hnone, entry, he, hsub place entry hlost⟩⟩

/-- What is there afterwards was there before. -/
theorem of_after (h : Shrinks lost before after) {place : Place} {entry : Entry}
    (he : after.entry? place = some entry) : before.entry? place = some entry := by
  rcases h.entries place with hsame | ⟨hnone, -⟩
  · rw [← hsame, he]
  · simp [hnone] at he

/-- What is not lost stays. -/
theorem keeps (h : Shrinks lost before after) {place : Place} {entry : Entry}
    (he : before.entry? place = some entry) (hkept : ¬ lost place entry) :
    after.entry? place = some entry := by
  rcases h.entries place with hsame | ⟨-, found, hfound, hlost⟩
  · rw [hsame, he]
  · rw [he] at hfound
    exact absurd (Option.some.inj hfound ▸ hlost) hkept

theorem placeOf (h : Shrinks lost before after) (path : Path) :
    after.placeOf path = before.placeOf path := by
  rw [FileTree.placeOf, FileTree.placeOf, h.workingDirectory]

end Shrinks

theorem LinkFree.spot_place (h : tree.LinkFree) {follow : Bool} {spot : Spot}
    (hs : tree.spot follow path = .ok spot) : spot.place = tree.placeOf path := by
  obtain ⟨-, hw⟩ := spot_eq_ok_iff.mp hs
  rw [(walk_sound h hw).1, placeOf, (setOut_eq tree _ path).1]

theorem LinkFree.of_find (h : tree.LinkFree) {place : Place} {entry : Entry}
    (hfound : tree.find path = .ok (place, entry)) :
    place = tree.placeOf path ∧ tree.entry? place = some entry := by
  obtain ⟨spot, hs, rfl, hentry, -⟩ := find_eq_ok_iff.mp hfound
  exact ⟨h.spot_place hs, hentry⟩

/-- Where nothing stands, nothing stands below. -/
theorem Plain.nothing_below (h : tree.Plain) {place : Place} (hnone : tree.entry? place = none)
    (rest : Place) : tree.entry? (place ++ rest) = none := by
  by_cases hrest : rest = []
  · rw [hrest, List.append_nil, hnone]
  · by_contra hsome
    obtain ⟨entry, hentry⟩ := Option.ne_none_iff_exists'.mp hsome
    rw [h.of_append hrest hentry] at hnone
    cases hnone

theorem deleteDirectory_eq_ok (h : before.deleteDirectory path = .ok after) :
    ∃ spot name, before.spot false path = .ok spot ∧ spot.last = .name name ∧
      before.entry? spot.place = some .directory ∧ before.children spot.place = [] ∧
      after = before.erase spot.place := by
  obtain ⟨spot, hs, h⟩ := bind_eq_ok.mp h
  split at h
  · cases h
  · cases h
  · cases h
  · rename_i name hname
    split at h
    · cases h
    · rename_i hentry
      split at h <;> rename_i hempty
      · exact ⟨spot, name, hs, hname, hentry, List.isEmpty_iff.mp hempty, (Except.ok.inj h).symm⟩
      · cases h
    · cases h

theorem shrinks_erase {place : Place} (hne : place ≠ []) {entry : Entry}
    (he : tree.entry? place = some entry) :
    Shrinks (fun other found => other = place ∧ found = entry) tree (tree.erase place) := by
  refine ⟨rfl, fun other => ?_⟩
  rw [entry?_erase tree hne]
  split <;> rename_i hother
  · exact Or.inr ⟨rfl, entry, by rw [hother, he], hother, rfl⟩
  · exact Or.inl rfl

/-- An empty directory can be taken away: nothing stands in it. -/
theorem plain_erase_empty (h : tree.Plain) {place : Place} (hne : place ≠ [])
    (hempty : tree.children place = []) : (tree.erase place).Plain := by
  refine ⟨fun other target => ?_, fun other found => ?_⟩
  · rw [entry?_erase tree hne]
    split
    · simp
    · exact h.linkFree other target
  · rw [entry?_erase tree hne, entry?_erase tree hne]
    split
    · simp
    · intro hfound
      rw [if_neg, h.closed other found hfound]
      intro hparent
      have hother : other ≠ [] := by
        rintro rfl
        exact hne hparent.symm
      have hkey : other ∈ tree.entries.keys := by
        unfold entry? at hfound
        rw [if_neg hother] at hfound
        exact Table.mem_keys_iff.mpr (Option.isSome_of_eq_some hfound)
      obtain ⟨front, name, rfl⟩ := List.eq_nil_or_concat' other |>.resolve_left hother
      have hchild := List.filterMap_eq_nil_iff.mp hempty _ hkey
      simp [hparent] at hchild

theorem deleteIfEmpty_eq_ok {deleted : Bool}
    (h : before.deleteIfEmpty path = .ok (deleted, after)) :
    after = before ∨ before.deleteDirectory path = .ok after := by
  obtain ⟨empty, -, h⟩ := bind_eq_ok.mp h
  split at h
  · obtain ⟨erased, herased, h⟩ := bind_eq_ok.mp h
    obtain ⟨-, rfl⟩ := Prod.mk.inj (Except.ok.inj h)
    exact Or.inr herased
  · obtain ⟨-, rfl⟩ := Prod.mk.inj (Except.ok.inj h)
    exact Or.inl rfl

theorem deleteDirectory_shrinks (h : before.Plain) (hok : before.deleteDirectory path = .ok after) :
    after.Plain ∧ Shrinks (fun place entry => place = before.placeOf path ∧ entry = .directory)
      before after := by
  obtain ⟨spot, name, hs, hname, hentry, hempty, rfl⟩ := deleteDirectory_eq_ok hok
  have hne : spot.place ≠ [] := by simp [place_of_last_name hname]
  rw [← h.linkFree.spot_place hs]
  exact ⟨plain_erase_empty h hne hempty, shrinks_erase hne hentry⟩

/-- A computation that takes away at most the entries that may get lost. -/
def Sheds (home : Place) (lost : Place → Entry → Prop) {α : Type} (x : StateM FileTree α) : Prop :=
  ∀ tree : FileTree, tree.Plain → tree.workingDirectory = home →
    (x tree).2.Plain ∧ Shrinks lost tree (x tree).2

namespace Sheds

variable {home : Place} {lost : Place → Entry → Prop} {α β : Type}

theorem pure (a : α) : Sheds home lost (Pure.pure a : StateM FileTree α) :=
  fun tree h _ => ⟨h, Shrinks.refl lost tree⟩

theorem bind {x : StateM FileTree α} {f : α → StateM FileTree β} (hx : Sheds home lost x)
    (hf : ∀ a, Sheds home lost (f a)) : Sheds home lost (x >>= f) := by
  intro tree h hhome
  obtain ⟨hplain, hshrinks⟩ := hx tree h hhome
  obtain ⟨hplain', hshrinks'⟩ := hf (x tree).1 (x tree).2 hplain
    (hshrinks.workingDirectory.trans hhome)
  exact ⟨hplain', hshrinks.trans hshrinks'⟩

theorem mono {lost' : Place → Entry → Prop} {x : StateM FileTree α} (h : Sheds home lost x)
    (hsub : ∀ place entry, lost place entry → lost' place entry) : Sheds home lost' x :=
  fun tree hplain hhome => (h tree hplain hhome).imp_right fun hshrinks => hshrinks.mono hsub

end Sheds

variable {home : Place}

/-- Deleting a directory if it is empty takes away at most the directory. -/
theorem sheds_deleteIfEmpty (path : Path) :
    Sheds home (fun place entry => place = reach home path.components ∧ entry = .directory)
      (Disk.deleteIfEmpty path : StateM FileTree _) := by
  rintro tree h rfl
  simp only [Disk.deleteIfEmpty]
  cases hrun : tree.deleteIfEmpty path with
  | error error => exact ⟨h, Shrinks.refl _ _⟩
  | ok result =>
    obtain ⟨deleted, after⟩ := result
    rcases deleteIfEmpty_eq_ok hrun with rfl | herased
    · exact ⟨h, Shrinks.refl _ _⟩
    · exact deleteDirectory_shrinks h herased

/-- One step of deleting directories while they are empty. -/
theorem deleteWhileEmpty_eq {m : Type → Type} [Monad m] [Disk m] (directory base : Path) :
    deleteWhileEmpty (m := m) directory base =
      if directory.same base || !directory.startsWith base then pure (.ok ())
      else do
        match ← Disk.deleteIfEmpty directory with
        | .error error => return .error error
        | .ok false => return .ok ()
        | .ok true =>
          match directory.parent? with
          | some parent => deleteWhileEmpty parent base
          | none => return .ok () := by
  rw [deleteWhileEmpty]
  congr 2
  funext deleted
  split
  · rfl
  · rfl
  · split <;> rename_i hparent <;> simp only [hparent]

/-- A directory below a base on the way that some names lead from there. -/
def PrunedBelow (base : Place) (names : List String) (place : Place) (entry : Entry) : Prop :=
  entry = .directory ∧ ∃ front, front ≠ [] ∧ front <+: names ∧ place = base ++ front

/-- Deleting a directory and those it lies in while they are empty takes away directories strictly
below the base only: induction over the names that lead from the base to the directory. -/
theorem sheds_deleteWhileEmpty {directory : Path} {names : List String}
    (hdirectory : directory.components = base.components ++ names.map .name) :
    Sheds home (PrunedBelow (reach home base.components) names)
      (deleteWhileEmpty directory base : StateM FileTree _) := by
  induction names using List.reverseRecOn generalizing directory with
  | nil =>
    have hsame : directory.same base = true := by simp [Path.same, hdirectory]
    rw [deleteWhileEmpty_eq, if_pos (by simp [hsame])]
    exact Sheds.pure _
  | append_singleton names last ih =>
    have hplace : reach home directory.components =
        reach home base.components ++ (names ++ [last]) := by
      rw [hdirectory, reach_append, reach_names]
    rw [deleteWhileEmpty_eq]
    split
    · exact Sheds.pure _
    · have hdeleted : Sheds home (PrunedBelow (reach home base.components) (names ++ [last]))
          (Disk.deleteIfEmpty directory : StateM FileTree _) :=
        (sheds_deleteIfEmpty directory).mono fun place entry hlost =>
          ⟨hlost.2, _, by simp, List.prefix_rfl, by rw [hlost.1, hplace]⟩
      refine hdeleted.bind fun deleted => ?_
      split
      · exact Sheds.pure _
      · exact Sheds.pure _
      · split
        · rename_i parent hparent
          obtain ⟨_, hcomponents⟩ := Path.components_of_parent? hparent
          rw [hdirectory, List.map_append, ← List.append_assoc] at hcomponents
          refine (ih (List.append_inj' hcomponents rfl).1.symm).mono ?_
          rintro place entry ⟨hentry, front, hne, hfront, hplace⟩
          exact ⟨hentry, front, hne, hfront.trans (List.prefix_append _ _), hplace⟩
        · exact Sheds.pure _

/-- Two paths to a name with the same components lead to the same. -/
theorem find_of_components (h : tree.LinkFree) {other : Path} {front front' : List String}
    {name : String} (hname : IsName name) (hpath : path.pieces = front ++ [name])
    (hother : other.pieces = front' ++ [name]) (hsame : other.components = path.components)
    (husable : Usable other) {place : Place} {entry : Entry}
    (hfound : tree.find path = .ok (place, entry)) : tree.find other = .ok (place, entry) := by
  obtain ⟨hreaches, hplace, hentry⟩ := (find_concat_iff h hname hpath).mp hfound
  refine (find_concat_iff h hname hother).mpr ⟨⟨husable, ?_, ?_⟩, ?_, hentry⟩
  · rw [hsame]
    exact hreaches.passable
  · rw [hsame]
    exact hreaches.short
  · rw [hplace, placeOf, placeOf, hsame]

/-- A file that a path leads to can be deleted. -/
theorem deleteIfPresent_of_find (h : tree.LinkFree) {front : List String} {name : String}
    (hname : IsName name) (hpath : path.pieces = front ++ [name]) {place : Place}
    {bytes : ByteArray} (hfound : tree.find path = .ok (place, .file bytes)) :
    deleteIfPresent (m := StateM FileTree) path tree = (.ok true, tree.erase place) := by
  obtain ⟨hreaches, hplace, hentry⟩ := (find_concat_iff h hname hpath).mp hfound
  rw [placeOf_concat hname hpath] at hplace
  have hspot : tree.spot false path = .ok _ := (spot_concat_iff h hname hpath).mpr ⟨hreaches, rfl⟩
  have hdeleted : tree.deleteFile path = .ok (tree.erase place) := by
    rw [deleteFile, hspot]
    simp only [bind, Except.bind, Spot.place, ← hplace, hentry]
    rfl
  have hrun : Disk.deleteFile (m := StateM FileTree) path tree = (.ok (), tree.erase place) := by
    simp only [Disk.deleteFile, change, hdeleted]
  simp only [deleteIfPresent, bind_apply, hrun]
  rfl

/-- A file counts as gone if the first name of its path leads nowhere, whatever follows. -/
theorem deleteIfPresent_of_vacant (h : tree.LinkFree) {first : String} {rest : List String}
    (hfirst : IsName first) (hpath : path = ⟨first :: rest⟩) (hrest : rest.all (· == "") = false)
    (husable : Usable path) (hshort : first.utf8ByteSize ≤ nameLimit)
    (hvacant : tree.entry? (tree.workingDirectory ++ [first]) = none) :
    deleteIfPresent (m := StateM FileTree) path tree = (.ok false, tree) := by
  have hwalk : tree.walk false linkLimit tree.workingDirectory (first :: rest) =
      .error .notFound := by
    rw [walk_name h hfirst hrest, if_neg (Nat.not_lt.mpr hshort), hvacant]
  have hspot : tree.spot false path = .error .notFound := by
    have hnul : path.text.toList.contains '\x00' = false := by
      simpa [List.contains_iff_mem] using husable.noNul
    have hnonempty : path.text.isEmpty = false := by simpa using husable.nonempty
    simp only [spot, hnul, hnonempty, Nat.not_le.mpr husable.short, Bool.false_eq_true, if_false]
    rw [hpath, setOut, Path.isAbsolute_of_isName hfirst]
    exact hwalk
  have hrun : Disk.deleteFile (m := StateM FileTree) path tree = (.error .notFound, tree) := by
    apply change_of_eq_error
    rw [deleteFile, hspot]
    rfl
  simp only [deleteIfPresent, bind_apply, hrun]
  rfl

/-- An empty directory that a path leads to can be deleted. -/
theorem deleteIfEmpty_of_find (h : tree.LinkFree) {front : List String} {name : String}
    (hname : IsName name) (hpath : path.pieces = front ++ [name]) {place : Place}
    (hfound : tree.find path = .ok (place, .directory)) (hempty : tree.children place = []) :
    Disk.deleteIfEmpty (m := StateM FileTree) path tree = (.ok true, tree.erase place) := by
  obtain ⟨hreaches, hplace, hentry⟩ := (find_concat_iff h hname hpath).mp hfound
  rw [placeOf_concat hname hpath] at hplace
  have hspot : tree.spot false path = .ok _ := (spot_concat_iff h hname hpath).mpr ⟨hreaches, rfl⟩
  have hchecked : tree.isEmptyDirectory path = .ok true := by
    simp only [isEmptyDirectory, hfound, bind, Except.bind, hempty, List.isEmpty_nil]
  have hdeleted : tree.deleteDirectory path = .ok (tree.erase place) := by
    rw [deleteDirectory, hspot]
    simp only [bind, Except.bind, Spot.place, ← hplace, hentry, hempty, List.isEmpty_nil, if_true]
  have hrun : tree.deleteIfEmpty path = .ok (true, tree.erase place) := by
    simp only [deleteIfEmpty, hchecked, hdeleted, bind, Except.bind, if_true]
    rfl
  simp only [Disk.deleteIfEmpty, hrun]

end Files.FileTree

end JavaStubs
