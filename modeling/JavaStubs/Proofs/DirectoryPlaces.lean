import JavaStubs.Proofs.MadeDirectories

/-!
# Where directories are made

The directories that are made lie on the way along a path: where one stands afterwards, one stood
before, or the path names the place. Opening, filling and deleting a file make none, so writing a
file makes directories on the way to it only.
-/
namespace JavaStubs

namespace Files.FileTree

variable {tree after : FileTree} {home : Place} {path : Path}

/-- A computation that makes directories at most at those places. -/
def Founds (home : Place) (made : Place → Prop) {α : Type} (x : StateM FileTree α) : Prop :=
  ∀ tree : FileTree, tree.Plain → tree.workingDirectory = home →
    tree.entry? home = some .directory →
      ∀ place, FileTree.entry? (x tree).2 place = some .directory →
        tree.entry? place = some .directory ∨ made place

namespace Founds

variable {made : Place → Prop} {α β : Type}

theorem pure (a : α) : Founds home made (Pure.pure a : StateM FileTree α) :=
  fun _ _ _ _ _ => Or.inl

theorem bind {touched : Place → Prop} {x : StateM FileTree α} {f : α → StateM FileTree β}
    (hconfined : Confined home touched x) (hx : Founds home made x)
    (hf : ∀ a, Founds home made (f a)) : Founds home made (x >>= f) := by
  intro tree hplain hwork hhome place hplace
  obtain ⟨hplain', hgrows⟩ := hconfined tree hplain hwork hhome
  rcases hf (x tree).1 (x tree).2 hplain' (hgrows.workingDirectory.trans hwork)
    (hgrows.directories _ hhome) place hplace with hbetween | hmade
  · exact hx tree hplain hwork hhome place hbetween
  · exact Or.inr hmade

/-- A change makes such directories only if what it does to a tree does. -/
theorem change {operation : FileTree → Outcome FileTree}
    (h : ∀ before after, operation before = .ok after → before.Plain →
      before.workingDirectory = home → before.entry? home = some .directory →
      ∀ place, after.entry? place = some .directory →
        before.entry? place = some .directory ∨ made place) :
    Founds home made (FileTree.change operation) := by
  intro tree hplain hwork hhome
  unfold FileTree.change
  cases hop : operation tree with
  | error error => exact fun _ => Or.inl
  | ok changed => exact h tree changed hop hplain hwork hhome

end Founds

/-- A directory is made at a place that its path names on the way. -/
theorem makeDirectory_founds (hplain : tree.Plain)
    (hhome : tree.entry? tree.workingDirectory = some .directory)
    (h : tree.makeDirectory path = .ok after) {place : Place}
    (hplace : after.entry? place = some .directory) :
    tree.entry? place = some .directory ∨
      place ∈ visited tree.workingDirectory path.components := by
  obtain ⟨found, hvacant, h⟩ := bind_eq_ok.mp h
  obtain rfl := Except.ok.inj h
  obtain ⟨spot, name, hs, hname, rfl, -⟩ := vacantPlace_eq_ok hvacant
  obtain ⟨hspot, hne, -⟩ := hplain.spot_of_name hhome hs hname
  rw [entry?_put tree hne] at hplace
  split at hplace
  · rename_i heq
    right
    rcases spot_inv hplain.linkFree hs with ⟨hother, -⟩ | ⟨passed, last, hcomponents, -⟩
    · exact absurd hname (hother name)
    · rw [heq, hspot, placeOf, hcomponents, reach_append, visited_append]
      simp [visited, reach, next]
  · exact Or.inl hplace

theorem ensureDirectory_founds (hplain : tree.Plain)
    (hhome : tree.entry? tree.workingDirectory = some .directory) {place : Place}
    (hplace : entry? (ensureDirectory path tree).2 place = some .directory) :
    tree.entry? place = some .directory ∨
      place ∈ visited tree.workingDirectory path.components := by
  unfold ensureDirectory at hplace
  cases hmade : tree.makeDirectory path with
  | ok after =>
    rw [hmade] at hplace
    exact makeDirectory_founds hplain hhome hmade hplace
  | error error =>
    rw [hmade] at hplace
    exact Or.inl hplace

/-- Directories are made on the way only: induction over the path, since the way to its parent is a
part of its own. -/
theorem founds_createDirectories (path : Path) :
    Founds home (· ∈ visited home path.components)
      (createDirectories path : StateM FileTree _) := by
  rintro tree hplain rfl hhome
  induction hlength : path.components.length using Nat.strongRecOn generalizing path with
  | ind length ih =>
    intro place hplace
    rcases createDirectories_cases path tree with
      ⟨-, hrun⟩ | ⟨-, ⟨-, hrun⟩ | ⟨-, ⟨-, hrun⟩ | ⟨parent, hparent, hagain⟩⟩⟩
    · rw [hrun] at hplace
      exact Or.inl hplace
    · rw [hrun] at hplace
      exact ensureDirectory_founds hplain hhome hplace
    · rw [hrun] at hplace
      exact Or.inl hplace
    · obtain ⟨last, hlast⟩ := Path.components_of_parent? hparent
      have hshorter := Path.length_components_of_parent? hparent
      have hmade : ∀ place, entry? (createDirectories (m := StateM FileTree) parent tree).2 place =
          some .directory → tree.entry? place = some .directory ∨
            place ∈ visited tree.workingDirectory path.components := by
        intro place hplace
        rw [hlast, visited_append]
        exact (ih _ (hlength ▸ hshorter) parent rfl place hplace).imp_right
          (List.mem_append_left _)
      obtain ⟨hplain', hgrows⟩ := confined_createDirectories parent tree hplain rfl hhome
      rcases hagain with ⟨error, -, hrun⟩ | ⟨-, hrun⟩
      · rw [hrun] at hplace
        exact hmade place hplace
      · rw [hrun] at hplace
        rcases ensureDirectory_founds hplain' (hgrows.home_directory hhome) hplace with
          hbefore | hvisited
        · exact hmade place hbefore
        · exact Or.inr (hgrows.workingDirectory ▸ hvisited)

theorem founds_createParent (path : Path) :
    Founds home (· ∈ visited home path.components.dropLast)
      (createParent path : StateM FileTree _) := by
  unfold createParent
  split
  · rename_i parent hparent
    obtain ⟨last, hlast⟩ := Path.components_of_parent? hparent
    rw [hlast, List.dropLast_concat]
    exact founds_createDirectories parent
  · exact Founds.pure _

section

variable {made : Place → Prop}

/-- What is put somewhere and is no directory makes none. -/
theorem founds_put {place : Place} (hne : place ≠ []) {entry : Entry} (hentry : entry ≠ .directory)
    {other : Place} (h : FileTree.entry? (tree.put place entry) other = some .directory) :
    tree.entry? other = some .directory := by
  rw [entry?_put tree hne] at h
  split at h
  · exact absurd (Option.some.inj h) hentry
  · exact h

theorem founds_createFile (path : Path) :
    Founds home made (Disk.createFile path : StateM FileTree _) := by
  apply Founds.change
  rintro before after h - - - place hplace
  obtain ⟨spot, name, -, hname, -, ⟨-, rfl⟩ | ⟨-, rfl⟩⟩ := createFile_eq_ok h
  · exact Or.inl hplace
  · exact Or.inl (founds_put (by simp [place_of_last_name hname]) (by simp) hplace)

theorem founds_fillFile (path : Path) (content : String) :
    Founds home made (Disk.fillFile path content : StateM FileTree _) := by
  apply Founds.change
  rintro before after h - - - place hplace
  rcases fillBytes_eq_ok h with ⟨found, old, hfound, rfl⟩ | ⟨-, -, -, rfl⟩
  · obtain ⟨spot, -, rfl, hentry, -⟩ := find_eq_ok_iff.mp hfound
    have hne : spot.place ≠ [] := fun heq => by simp [heq, entry?] at hentry
    exact Or.inl (founds_put hne (by simp) hplace)
  · exact Or.inl hplace

theorem founds_deleteFile (path : Path) :
    Founds home made (Disk.deleteFile path : StateM FileTree _) := by
  apply Founds.change
  rintro before after h - - - place hplace
  obtain ⟨spot, name, entry, -, hname, -, -, rfl⟩ := deleteFile_eq_ok h
  have hne : spot.place ≠ [] := by simp [place_of_last_name hname]
  rw [entry?_erase before hne] at hplace
  split at hplace
  · cases hplace
  · exact Or.inl hplace

end

theorem founds_writeFile (path : Path) (content : String) :
    Founds home (· ∈ visited home path.components.dropLast)
      (writeFile path content : StateM FileTree _) := by
  unfold writeFile
  refine Founds.bind (confined_createParent path) (founds_createParent path) fun parent => ?_
  split
  · exact Founds.pure _
  · refine Founds.bind (confined_createFile path) (founds_createFile path) fun created => ?_
    split
    · exact Founds.pure _
    · refine Founds.bind (confined_fillFile path content) (founds_fillFile path content)
        fun filled => ?_
      split
      · exact Founds.pure _
      · exact Founds.bind (confined_deleteFile path) (founds_deleteFile path) fun _ =>
          Founds.pure _

end Files.FileTree

end JavaStubs
