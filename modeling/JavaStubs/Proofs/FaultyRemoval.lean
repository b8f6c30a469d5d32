import JavaStubs.Proofs.LostEntries
import JavaStubs.Proofs.OutputBounds

/-!
# Removing on a disk with faults

What deleting one file can come to when any operation may fail, and what deleting the directories
that this leaves empty can lose: at most directories on the way to the file. A deletion that fails
leaves the tree as it was. Faults that are over do not come again.
-/
namespace JavaStubs.Files.FaultyTree

open FileTree (Plain Shrinks LostFor SameFiles)

variable {α : Type} {disk before between after : FaultyTree} {path : Path} {home : Place}

/-- The disk after the fault that is due. -/
def due (disk : FaultyTree) : FaultyTree := { disk with faults := disk.faults.tail }

theorem unlessFault_apply (operation : StateM FaultyTree (Outcome α)) (disk : FaultyTree) :
    unlessFault operation disk =
      match disk.faults.headD none with
      | some fault => (.error fault.error, disk.due)
      | none => operation disk.due := by
  simp only [unlessFault, bind_apply, nextFault, due]
  cases disk.faults.headD none <;> rfl

/-- No fault passes for the absence of a file. -/
def Honest (disk : FaultyTree) : Prop :=
  ∀ fault, some fault ∈ disk.faults → fault.error ≠ .notFound

theorem Honest.of_suffix (h : before.Honest) (hfaults : after.faults <:+ before.faults) :
    after.Honest :=
  fun fault hfault => h fault (hfaults.subset hfault)

theorem honest_of_no_faults (h : disk.faults = []) : disk.Honest := by
  simp [Honest, h]

/-- Between two disks at most such entries were lost, if nothing but that can have happened to the
tree, and no fault was added. -/
structure Loses (home : Place) (lost : Place → Entry → Prop) (before after : FaultyTree) :
    Prop where
  faults : after.faults <:+ before.faults
  tree : before.tree.Plain → before.tree.workingDirectory = home →
    after.tree.Plain ∧ Shrinks lost before.tree after.tree

instance (home : Place) (lost : Place → Entry → Prop) :
    IsPreorder FaultyTree (Loses home lost) where
  refl disk := ⟨List.suffix_rfl, fun hplain _ => ⟨hplain, Shrinks.refl _ _⟩⟩
  trans before between after h h' := by
    refine ⟨h'.faults.trans h.faults, fun hplain hhome => ?_⟩
    obtain ⟨hplain', hshrinks⟩ := h.tree hplain hhome
    obtain ⟨hplain'', hshrinks'⟩ := h'.tree hplain' (hshrinks.workingDirectory.trans hhome)
    exact ⟨hplain'', hshrinks.trans hshrinks'⟩

variable {target : Place}

/-- Deleting an empty directory on the way to a place loses nothing else. -/
theorem loses_deleteIfEmpty (hway : reach home path.components <+: target) :
    Always (Loses home (LostFor target)) (Disk.deleteIfEmpty path : StateM FaultyTree _) := by
  intro disk
  have hdue : Loses home (LostFor target) disk disk.due :=
    ⟨List.tail_suffix _, fun hplain _ => ⟨hplain, Shrinks.refl _ _⟩⟩
  rw [show Disk.deleteIfEmpty (m := StateM FaultyTree) path disk = _ from
    unlessFault_apply (deleteIfEmpty path) disk]
  split
  · exact hdue
  · refine IsTrans.trans _ _ _ hdue ?_
    unfold deleteIfEmpty
    cases hdeleted : disk.due.tree.deleteIfEmpty path with
    | error error => exact Std.Refl.refl _
    | ok result =>
      obtain ⟨deleted, tree⟩ := result
      refine ⟨List.suffix_rfl, fun hplain hhome => ?_⟩
      rcases FileTree.deleteIfEmpty_eq_ok hdeleted with rfl | herased
      · exact ⟨hplain, Shrinks.refl _ _⟩
      · refine (FileTree.deleteDirectory_shrinks hplain herased).imp_right fun h => h.mono ?_
        rintro place entry ⟨rfl, hentry⟩
        rw [FileTree.placeOf, hhome]
        exact ⟨hway, Or.inl hentry⟩

/-- Induction over the directory, since its parent is shorter and lies on the way, too. -/
theorem loses_deleteWhileEmpty {directory : Path} (base : Path) (hup : .up ∉ directory.components)
    (hway : reach home directory.components <+: target) :
    Always (Loses home (LostFor target))
      (deleteWhileEmpty directory base : StateM FaultyTree _) := by
  induction hlength : directory.components.length using Nat.strongRecOn generalizing directory with
  | ind length ih =>
    rw [FileTree.deleteWhileEmpty_eq]
    split
    · exact Always.pure _
    · refine (loses_deleteIfEmpty hway).bind fun deleted => ?_
      split
      · exact Always.pure _
      · exact Always.pure _
      · split
        · rename_i parent hparent
          obtain ⟨hparentUp, hparentWay⟩ := reach_parent? hparent hup home
          exact ih _ (hlength ▸ Path.length_components_of_parent? hparent) hparentUp
            (hparentWay.trans hway) rfl
        · exact Always.pure _

/-- A file is deleted, or it is not there, or everything stays as it was. -/
theorem deleteFile_run (path : Path) (disk : FaultyTree) :
    let run := Disk.deleteFile (m := StateM FaultyTree) path disk
    run.2.faults = disk.faults.tail ∧
      (run.1 = .ok () ∧ disk.tree.deleteFile path = .ok run.2.tree ∨
        run.2.tree = disk.tree ∧ ∃ cause, run.1 = .error cause ∧
          (disk.tree.deleteFile path = .error cause ∨
            ∃ fault, some fault ∈ disk.faults ∧ cause = fault.error)) := by
  intro run
  have hrun : run = _ := unlessFault_apply _ disk
  rw [hrun]
  split
  · rename_i fault hfault
    refine ⟨rfl, Or.inr ⟨rfl, _, rfl, Or.inr ⟨fault, ?_, rfl⟩⟩⟩
    cases hfaults : disk.faults with
    | nil => simp [hfaults] at hfault
    | cons first rest =>
      obtain rfl : first = some fault := by simpa [hfaults] using hfault
      exact List.mem_cons_self
  · simp only [change]
    cases hdeleted : disk.due.tree.deleteFile path with
    | ok tree => exact ⟨rfl, Or.inl ⟨rfl, hdeleted⟩⟩
    | error cause => exact ⟨rfl, Or.inr ⟨rfl, cause, rfl, Or.inl hdeleted⟩⟩

section

variable (hfaults : disk.faults = [])

include hfaults

theorem deleteFile_eq_change (path : Path) : Disk.deleteFile (m := StateM FaultyTree) path disk =
    change (·.deleteFile path) (fun tree => noteAt tree false path (.deleted path)) disk := by
  obtain ⟨tree, faults, journal⟩ := disk
  obtain rfl : faults = [] := hfaults
  exact unlessFault_apply _ _

/-- Where no fault comes in between, a deletion fails as it does on the tree. -/
theorem deleteFile_error {cause : FileError} (h : disk.tree.deleteFile path = .error cause) :
    Disk.deleteFile (m := StateM FaultyTree) path disk = (.error cause, disk) := by
  rw [deleteFile_eq_change hfaults, change, h]

theorem deleteFile_ok {spot : Spot} {tree : FileTree} (hs : disk.tree.spot false path = .ok spot)
    (h : disk.tree.deleteFile path = .ok tree) :
    Disk.deleteFile (m := StateM FaultyTree) path disk =
      (.ok (), { disk with tree, journal := disk.journal ++ [.deleted path spot.place] }) := by
  rw [deleteFile_eq_change hfaults, change, h, noteAt_of_spot hs]

end

end JavaStubs.Files.FaultyTree
