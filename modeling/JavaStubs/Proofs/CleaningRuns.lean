import JavaStubs.Proofs.FaultyRemoval

/-!
# What cleaning comes to

Cleaning on a disk where any operation may fail. It succeeds exactly when no stub fails in its turn
for another reason than absence. Then it has deleted the stubs that were there and no other file. If
a stub fails, the stubs before it are gone, it and the stubs after it are as they were, and the
registry is kept; so cleaning again deletes the rest once nothing stands in the way.

This asks for paths that lead to places of which none is another one or lies below it. Two paths
with different components may lead to the same file.
-/
namespace JavaStubs.Stubs

open Files
open Files.FaultyTree (Always Loses bind_apply pure_apply)
open Files.FileTree (Plain Shrinks LostFor SameFiles find_unless_lost)

namespace Registry

section

variable {m : Type → Type} [Monad m] [Disk m]

/-- Deletes one file with the directories that this leaves empty, and says whether it was there. -/
def removeOne (base path : Path) : m (Outcome Bool) := do
  match ← Files.deleteIfPresent path with
  | .ok true =>
    deleteEmptyParents base path
    return .ok true
  | result => return result

end

end Registry

/-- What cleaning did with one more path before everything else. -/
def Cleaned.record (path : Path) (deleted : Bool) (cleaned : Cleaned) : Cleaned :=
  if deleted then { cleaned with deleted := path :: cleaned.deleted }
  else { cleaned with missing := path :: cleaned.missing }

section

variable {base path : Path} {paths : List Path} {disk after : FaultyTree} {error : RemovalError}

theorem removeAll_step (base path : Path) (rest : List Path) (disk : FaultyTree) :
    Registry.removeAll (m := StateM FaultyTree) base (path :: rest) disk =
      match Registry.removeOne (m := StateM FaultyTree) base path disk with
      | (.error cause, after) => (.error ⟨path, cause⟩, after)
      | (.ok deleted, after) =>
        Prod.map (Except.map (Cleaned.record path deleted)) id
          (Registry.removeAll (m := StateM FaultyTree) base rest after) := by
  simp only [Registry.removeAll, Registry.removeOne, bind_apply]
  generalize Files.deleteIfPresent (m := StateM FaultyTree) path disk = run
  obtain ⟨result, after⟩ := run
  cases result with
  | error cause => rfl
  | ok deleted => cases deleted <;> rfl

theorem map_eq_error_iff {f : Cleaned → Cleaned} {run : Except RemovalError Cleaned × FaultyTree} :
    Prod.map (Except.map f) id run = (.error error, after) ↔ run = (.error error, after) := by
  obtain ⟨result, disk⟩ := run
  cases result <;> simp [Except.map]

theorem map_eq_ok_iff {f : Cleaned → Cleaned} {run : Except RemovalError Cleaned × FaultyTree}
    {cleaned : Cleaned} : Prod.map (Except.map f) id run = (.ok cleaned, after) ↔
      ∃ others, run = (.ok others, after) ∧ f others = cleaned := by
  obtain ⟨result, disk⟩ := run
  cases result <;> simp [Except.map, and_comm]

/-- Removing files stops at a path if those before it can be removed and it cannot in its turn:
induction over the paths. -/
theorem removeAll_eq_error_iff :
    Registry.removeAll (m := StateM FaultyTree) base paths disk = (.error error, after) ↔
      ∃ front rest cleaned between, paths = front ++ error.path :: rest ∧
        Registry.removeAll (m := StateM FaultyTree) base front disk = (.ok cleaned, between) ∧
        Registry.removeOne (m := StateM FaultyTree) base error.path between =
          (.error error.cause, after) := by
  induction paths generalizing disk with
  | nil =>
    constructor
    · rintro ⟨⟩
    · rintro ⟨front, rest, -, -, hpaths, -⟩
      simp at hpaths
  | cons path others ih =>
    rw [removeAll_step]
    generalize hone : Registry.removeOne (m := StateM FaultyTree) base path disk = one
    obtain ⟨result, passed⟩ := one
    cases result with
    | error cause =>
      constructor
      · intro h
        obtain ⟨herror, rfl⟩ := Prod.mk.inj h
        obtain rfl := Except.error.inj herror
        exact ⟨[], others, {}, disk, rfl, rfl, hone⟩
      · rintro ⟨front, rest, cleaned, between, hpaths, hfront, hstops⟩
        cases front with
        | nil =>
          obtain ⟨rfl, -⟩ := List.cons.inj hpaths
          cases hfront
          obtain ⟨hcause, rfl⟩ := Prod.mk.inj (hone.symm.trans hstops)
          rw [Except.error.inj hcause]
        | cons first front =>
          obtain ⟨rfl, -⟩ := List.cons.inj hpaths
          rw [removeAll_step, hone] at hfront
          cases hfront
    | ok deleted =>
      refine map_eq_error_iff.trans (ih.trans ?_)
      constructor
      · rintro ⟨front, rest, cleaned, between, rfl, hfront, hstops⟩
        refine ⟨path :: front, rest, cleaned.record path deleted, between, rfl, ?_, hstops⟩
        rw [removeAll_step, hone]
        exact map_eq_ok_iff.mpr ⟨_, hfront, rfl⟩
      · rintro ⟨front, rest, cleaned, between, hpaths, hfront, hstops⟩
        cases front with
        | nil =>
          obtain ⟨rfl, -⟩ := List.cons.inj hpaths
          cases hfront
          cases hone.symm.trans hstops
        | cons first front =>
          obtain ⟨rfl, rfl⟩ := List.cons.inj hpaths
          rw [removeAll_step, hone] at hfront
          obtain ⟨cleaned, hfront, -⟩ := map_eq_ok_iff.mp hfront
          exact ⟨front, rest, cleaned, between, rfl, hfront, hstops⟩

theorem loses_deleteEmptyParents {home : Place} (base : Path) (hup : .up ∉ path.components) :
    Always (Loses home (LostFor (reach home path.components)))
      (Registry.deleteEmptyParents base path : StateM FaultyTree Unit) := by
  unfold Registry.deleteEmptyParents
  split
  · rename_i parent hparent
    obtain ⟨hparentUp, hway⟩ := reach_parent? hparent hup home
    exact (FaultyTree.loses_deleteWhileEmpty base hparentUp hway).bind fun _ => Always.pure _
  · exact Always.pure _

/-- What removing one file comes to. -/
structure Removed (path : Path) (before : FaultyTree) (result : Outcome Bool) (after : FaultyTree) :
    Prop where
  faults : after.faults <:+ before.faults
  plain : after.tree.Plain
  shrinks : Shrinks (fun place entry => before.tree.isPresent path = true ∧
    LostFor (before.tree.placeOf path) place entry) before.tree after.tree
  /-- It says whether there was a file, and there is none afterwards. -/
  gone : ∀ deleted, result = .ok deleted →
    deleted = before.tree.isPresent path ∧ after.tree.isPresent path = false
  /-- A failure leaves the tree as it was. -/
  failed : ∀ cause, result = .error cause → after.tree = before.tree ∧ cause ≠ .notFound ∧
    (before.faults = [] → before.tree.deleteFile path = .error cause)

section removeOne

variable {erased : FaultyTree} {cause : FileError}

theorem removeOne_of_deleted
    (h : Disk.deleteFile (m := StateM FaultyTree) path disk = (.ok (), erased)) :
    Registry.removeOne (m := StateM FaultyTree) base path disk =
      (.ok true, (Registry.deleteEmptyParents (m := StateM FaultyTree) base path erased).2) := by
  simp only [Registry.removeOne, Files.deleteIfPresent, bind_apply, h]
  rfl

theorem removeOne_of_notFound
    (h : Disk.deleteFile (m := StateM FaultyTree) path disk = (.error .notFound, erased)) :
    Registry.removeOne (m := StateM FaultyTree) base path disk = (.ok false, erased) := by
  simp only [Registry.removeOne, Files.deleteIfPresent, bind_apply, h]
  rfl

/-- Removing a file fails if it cannot be deleted for another reason than absence. -/
theorem removeOne_eq_error_iff :
    Registry.removeOne (m := StateM FaultyTree) base path disk = (.error cause, erased) ↔
      Disk.deleteFile (m := StateM FaultyTree) path disk = (.error cause, erased) ∧
        cause ≠ .notFound := by
  generalize hrun : Disk.deleteFile (m := StateM FaultyTree) path disk = run
  obtain ⟨result, between⟩ := run
  cases result with
  | ok _ =>
    rw [removeOne_of_deleted hrun]
    constructor
    · rintro ⟨⟩
    · rintro ⟨⟨⟩, -⟩
  | error found =>
    by_cases hfound : found = .notFound
    · subst hfound
      rw [removeOne_of_notFound hrun]
      constructor
      · rintro ⟨⟩
      · rintro ⟨⟨⟩, hcause⟩
        exact absurd rfl hcause
    · have hone : Registry.removeOne (m := StateM FaultyTree) base path disk =
          (.error found, between) := by
        simp only [Registry.removeOne, Files.deleteIfPresent, bind_apply, hrun]
        rfl
      rw [hone]
      constructor
      · rintro ⟨⟩
        exact ⟨rfl, hfound⟩
      · rintro ⟨⟨⟩, -⟩
        rfl

theorem removeOne_removed (base : Path) (hplain : disk.tree.Plain) (hhonest : disk.Honest)
    (hup : .up ∉ path.components) :
    let run := Registry.removeOne (m := StateM FaultyTree) base path disk
    Removed path disk run.1 run.2 := by
  intro run
  obtain ⟨hfaults, hrun⟩ := FaultyTree.deleteFile_run path disk
  generalize hdisk : Disk.deleteFile (m := StateM FaultyTree) path disk = deletion at hfaults hrun
  obtain ⟨result, erased⟩ := deletion
  have hsuffix : erased.faults <:+ disk.faults := hfaults ▸ List.tail_suffix _
  rcases hrun with ⟨hok, hdeleted⟩ | ⟨htree, cause, herror, hcause⟩
  · obtain rfl : result = .ok () := hok
    obtain ⟨herased, hshrinks, hgone⟩ := hplain.deleteFile hdeleted
    have hpresent := hplain.linkFree.isPresent_of_deleteFile hdeleted
    have hpruned : Loses disk.tree.workingDirectory (LostFor (disk.tree.placeOf path)) erased _ :=
      loses_deleteEmptyParents base hup erased
    obtain ⟨hafter, hshrinks'⟩ := hpruned.tree herased hshrinks.workingDirectory
    rw [show run = _ from removeOne_of_deleted hdisk]
    refine ⟨hpruned.faults.trans hsuffix, hafter,
      (hshrinks.trans hshrinks').mono fun _ _ h => ⟨hpresent, h⟩, ?_, nofun⟩
    rintro deleted ⟨⟩
    refine ⟨hpresent.symm, ?_⟩
    rw [Bool.eq_false_iff]
    exact fun h => Bool.eq_false_iff.mp hgone
      (FileTree.isPresent_of_shrinks hshrinks' herased.linkFree hafter hup h)
  · obtain rfl : result = .error cause := herror
    have htree : erased.tree = disk.tree := htree
    have hstays : Shrinks (fun place entry => disk.tree.isPresent path = true ∧
        LostFor (disk.tree.placeOf path) place entry) disk.tree erased.tree := by
      rw [htree]
      exact Shrinks.refl _ _
    by_cases hnotFound : cause = .notFound
    · subst hnotFound
      have habsent : disk.tree.isPresent path = false := by
        rcases hcause with hcause | ⟨fault, hfault, hcause⟩
        · exact hplain.linkFree.isPresent_of_notFound hcause
        · exact absurd hcause.symm (hhonest fault hfault)
      rw [show run = _ from removeOne_of_notFound hdisk]
      refine ⟨hsuffix, htree ▸ hplain, hstays, ?_, nofun⟩
      rintro deleted ⟨⟩
      exact ⟨habsent.symm, htree ▸ habsent⟩
    · rw [show run = _ from removeOne_eq_error_iff.mpr ⟨hdisk, hnotFound⟩]
      refine ⟨hsuffix, htree ▸ hplain, hstays, nofun, ?_⟩
      rintro other ⟨⟩
      refine ⟨htree, hnotFound, fun hnone => ?_⟩
      rcases hcause with hcause | ⟨fault, hfault, -⟩
      · exact hcause
      · simp [hnone] at hfault

end removeOne

/-- Paths without two dots whose places diverge. -/
structure Separate (tree : FileTree) (paths : List Path) : Prop where
  straight : ∀ path ∈ paths, .up ∉ path.components
  diverge : paths.Pairwise fun path other => Diverge (tree.placeOf path) (tree.placeOf other)

theorem Separate.rest {tree : FileTree} (h : Separate tree (path :: paths)) :
    Separate tree paths :=
  ⟨fun other hother => h.straight other (List.mem_cons_of_mem _ hother),
    (List.pairwise_cons.mp h.diverge).2⟩

theorem Separate.of_workingDirectory {tree other : FileTree} (h : Separate tree paths)
    (hwork : other.workingDirectory = tree.workingDirectory) : Separate other paths := by
  refine ⟨h.straight, ?_⟩
  unfold FileTree.placeOf
  rw [hwork]
  exact h.diverge

/-- What removing all files comes to. -/
structure Emptied (paths : List Path) (before : FaultyTree) (cleaned : Cleaned)
    (after : FaultyTree) : Prop where
  faults : after.faults <:+ before.faults
  plain : after.tree.Plain
  shrinks : Shrinks (fun place entry => ∃ path ∈ paths, before.tree.isPresent path = true ∧
    LostFor (before.tree.placeOf path) place entry) before.tree after.tree
  deleted : cleaned.deleted = paths.filter fun path => before.tree.isPresent path
  missing : cleaned.missing = paths.filter fun path => !before.tree.isPresent path
  gone : ∀ path ∈ paths, after.tree.isPresent path = false

/-- What removing one file and then the others comes to: the others are still what they were when
the first one is gone. -/
theorem Emptied.cons {between : FaultyTree} {deleted : Bool} {rest : List Path} {cleaned : Cleaned}
    (hplain : disk.tree.Plain) (hseparate : Separate disk.tree (path :: rest))
    (hfirst : Removed path disk (.ok deleted) between)
    (hothers : Emptied rest between cleaned after) :
    Emptied (path :: rest) disk (cleaned.record path deleted) after := by
  obtain ⟨hstraight, hdiverge⟩ := hseparate
  rw [List.forall_mem_cons] at hstraight
  rw [List.pairwise_cons] at hdiverge
  obtain ⟨hdeleted, hgone⟩ := hfirst.gone deleted rfl
  have hlost := hfirst.shrinks.mono fun _ _ => And.right
  have hpresent : ∀ other ∈ rest, between.tree.isPresent other = disk.tree.isPresent other :=
    fun other ho => FileTree.isPresent_unless_lost hlost hplain.linkFree hfirst.plain
      (hstraight.2 other ho) (LostFor.not_of_diverge (hdiverge.1 other ho))
  refine ⟨hothers.faults.trans hfirst.faults, hothers.plain, ?_, ?_, ?_, ?_⟩
  · refine (hfirst.shrinks.mono fun _ _ h => ⟨path, List.mem_cons_self, h⟩).trans
      (hothers.shrinks.mono ?_)
    rintro place entry ⟨other, hother, hthere, hplace⟩
    rw [hpresent other hother] at hthere
    rw [hfirst.shrinks.placeOf] at hplace
    exact ⟨other, List.mem_cons_of_mem _ hother, hthere, hplace⟩
  · rw [List.filter_cons, ← hdeleted, ← List.filter_congr hpresent, ← hothers.deleted]
    cases deleted <;> rfl
  · have hmissing := hothers.missing
    rw [List.filter_congr fun other hother => by rw [hpresent other hother]] at hmissing
    rw [List.filter_cons, ← hdeleted, ← hmissing]
    cases deleted <;> rfl
  · rw [List.forall_mem_cons]
    refine ⟨?_, hothers.gone⟩
    rw [Bool.eq_false_iff]
    exact fun h => Bool.eq_false_iff.mp hgone (FileTree.isPresent_of_shrinks hothers.shrinks
      hfirst.plain.linkFree hothers.plain hstraight.1 h)

/-- Removing files whose places diverge, where nothing fails: induction over the paths. -/
theorem removeAll_emptied (hplain : disk.tree.Plain) (hhonest : disk.Honest)
    (hseparate : Separate disk.tree paths) {cleaned : Cleaned}
    (hok : Registry.removeAll (m := StateM FaultyTree) base paths disk = (.ok cleaned, after)) :
    Emptied paths disk cleaned after := by
  induction paths generalizing disk cleaned with
  | nil =>
    cases hok
    exact ⟨List.suffix_rfl, hplain, Shrinks.refl _ _, rfl, rfl, by simp⟩
  | cons path rest ih =>
    rw [removeAll_step] at hok
    have hfirst := removeOne_removed base hplain hhonest
      (hseparate.straight path List.mem_cons_self)
    generalize Registry.removeOne (m := StateM FaultyTree) base path disk = one at hok hfirst
    obtain ⟨result, between⟩ := one
    cases result with
    | error cause => cases hok
    | ok deleted =>
      obtain ⟨others, hothers, rfl⟩ := map_eq_ok_iff.mp hok
      refine Emptied.cons hplain hseparate hfirst
        (ih hfirst.plain (hhonest.of_suffix hfirst.faults) ?_ hothers)
      exact hseparate.rest.of_workingDirectory hfirst.shrinks.workingDirectory

/-- What removing files comes to that stops at one of them: the files before it are removed, and
it and those after it are as they were. -/
theorem removeAll_stopped (hplain : disk.tree.Plain) (hhonest : disk.Honest)
    (hseparate : Separate disk.tree paths)
    (herror : Registry.removeAll (m := StateM FaultyTree) base paths disk = (.error error, after)) :
    ∃ front rest, paths = front ++ error.path :: rest ∧ error.cause ≠ .notFound ∧
      (disk.faults = [] → disk.tree.deleteFile error.path = .error error.cause) ∧
      (∀ path ∈ front, after.tree.isPresent path = false) ∧
      (∀ path ∈ error.path :: rest, ∀ found,
        after.tree.find path = .ok found ↔ disk.tree.find path = .ok found) ∧
      Shrinks (fun place entry => ∃ path ∈ front, disk.tree.isPresent path = true ∧
        LostFor (disk.tree.placeOf path) place entry) disk.tree after.tree := by
  obtain ⟨front, rest, cleaned, between, rfl, hfront, hstops⟩ := removeAll_eq_error_iff.mp herror
  obtain ⟨hstraight, hdiverge⟩ := hseparate
  obtain ⟨hbefore, -, hacross⟩ := List.pairwise_append.mp hdiverge
  obtain ⟨hstraight, hothers⟩ := List.forall_mem_append.mp hstraight
  have hemptied := removeAll_emptied hplain hhonest ⟨hstraight, hbefore⟩ hfront
  have hone := removeOne_removed base hemptied.plain (hhonest.of_suffix hemptied.faults)
    (hothers error.path List.mem_cons_self)
  rw [hstops] at hone
  obtain ⟨htree, hcause, hfails⟩ := hone.failed error.cause rfl
  refine ⟨front, rest, rfl, hcause, fun hnone => ?_, ?_, ?_, ?_⟩
  · have hfaults : between.faults = [] := List.suffix_nil.mp (hnone ▸ hemptied.faults)
    exact FileTree.deleteFile_error_of_shrinks hemptied.shrinks hplain.linkFree hemptied.plain
      (hothers error.path List.mem_cons_self) hcause (hfails hfaults)
  · rw [htree]
    exact hemptied.gone
  · intro path hpath found
    rw [htree]
    refine find_unless_lost hemptied.shrinks hplain.linkFree hemptied.plain (hothers path hpath) ?_
    rintro entry ⟨other, hother, -, hlost⟩
    exact LostFor.not_of_diverge (hacross other hother path hpath) entry hlost
  · rw [htree]
    exact hemptied.shrinks

/-- Files that get lost stood at the place of a path to something. -/
theorem sameFiles_of_shrinks {before after : FileTree}
    (h : Shrinks (fun place entry => ∃ path ∈ paths, before.isPresent path = true ∧
      LostFor (before.placeOf path) place entry) before after) :
    SameFiles (fun place => ∃ path ∈ paths, before.isPresent path = true ∧
      before.placeOf path = place) before after := by
  intro place hplace bytes
  refine ⟨h.of_after, fun hfile => h.keeps hfile ?_⟩
  rintro ⟨path, hpath, hpresent, -, hdirectory | hsame⟩
  · cases hdirectory
  · exact hplace ⟨path, hpath, hpresent, hsame.symm⟩

end

section

variable {registry : Registry} {disk : FaultyTree}

theorem present_apply (paths : List Path) (disk : FaultyTree) :
    Registry.present (m := StateM FaultyTree) paths disk =
      (paths.filter fun path => disk.tree.isPresent path, disk) := by
  induction paths with
  | nil => rfl
  | cons path rest ih =>
    have hask : Disk.isPresent (m := StateM FaultyTree) path disk =
      (disk.tree.isPresent path, disk) := rfl
    simp only [Registry.present, bind_apply, hask, ih, List.filter_cons]
    cases disk.tree.isPresent path <;> rfl

theorem clean_apply (registry : Registry) (disk : FaultyTree) :
    registry.clean (m := StateM FaultyTree) disk =
      match Registry.removeAll (m := StateM FaultyTree) registry.base registry.paths disk with
      | (.ok cleaned, after) => ((.ok cleaned, registry.clear), after)
      | (.error error, after) => ((.error error, registry), after) := by
  simp only [Registry.clean, bind_apply]
  generalize Registry.removeAll (m := StateM FaultyTree) registry.base registry.paths disk = run
  obtain ⟨result, after⟩ := run
  cases result <;> rfl

/-- Something other than its absence is in the way of deleting a file. -/
def Obstructed (tree : FileTree) (path : Path) : Prop :=
  ∃ cause, cause ≠ .notFound ∧ tree.deleteFile path = .error cause

/-- No obstacle stands in the way of cleaning. -/
structure Registry.Unhindered (registry : Registry) (disk : FaultyTree) : Prop where
  faults : disk.faults = []
  free : ∀ path ∈ registry.paths, ¬ Obstructed disk.tree path

/-- When a path's turn comes, since those before it could be removed or were not there, it cannot
be deleted for another reason than absence. -/
def Registry.FailsInTurn (registry : Registry) (disk : FaultyTree) (path : Path) : Prop :=
  ∃ front rest cleaned between, registry.paths = front ++ path :: rest ∧
    Registry.removeAll (m := StateM FaultyTree) registry.base front disk = (.ok cleaned, between) ∧
    ∃ cause after, cause ≠ .notFound ∧
      Disk.deleteFile (m := StateM FaultyTree) path between = (.error cause, after)

/-- What is true when cleaning succeeded. -/
structure CleanedUp (registry : Registry) (before : FaultyTree) (cleaned : Cleaned)
    (left : Registry) (after : FaultyTree) : Prop where
  deleted : cleaned.deleted = registry.paths.filter fun path => before.tree.isPresent path
  missing : cleaned.missing = registry.paths.filter fun path => !before.tree.isPresent path
  together : (cleaned.deleted ++ cleaned.missing).Perm registry.paths
  once : (cleaned.deleted ++ cleaned.missing).Nodup
  foretold : cleaned.deleted = (registry.wouldDelete (m := StateM FaultyTree) before).1
  gone : ∀ path ∈ registry.paths, after.tree.isPresent path = false
  forgotten : left = registry.clear
  bystanders : SameFiles (fun place => ∃ path ∈ registry.paths, before.tree.isPresent path = true ∧
    before.tree.placeOf path = place) before.tree after.tree

/-- What is true when cleaning stopped at a path. -/
structure Stopped (registry : Registry) (front : List Path) (error : RemovalError)
    (rest : List Path) (before : FaultyTree) (left : Registry) (after : FaultyTree) : Prop where
  order : registry.paths = front ++ error.path :: rest
  cause : error.cause ≠ .notFound
  /-- Where no fault came between, it was in the way from the beginning. -/
  obstacle : before.faults = [] → before.tree.deleteFile error.path = .error error.cause
  kept : left = registry
  gone : ∀ path ∈ front, after.tree.isPresent path = false
  untouched : ∀ path ∈ error.path :: rest, ∀ found,
    after.tree.find path = .ok found ↔ before.tree.find path = .ok found
  bystanders : SameFiles (fun place => ∃ path ∈ front, before.tree.isPresent path = true ∧
    before.tree.placeOf path = place) before.tree after.tree
  /-- Once nothing is in the way cleaning deletes all that is left. -/
  again : ∀ mended : FaultyTree, mended.tree.Plain →
    mended.tree.workingDirectory = before.tree.workingDirectory → registry.Unhindered mended →
    (∀ path ∈ rest, mended.tree.isPresent path = after.tree.isPresent path) →
    let second := left.clean (m := StateM FaultyTree) mended
    ∃ cleaned, second.1.1 = .ok cleaned ∧ CleanedUp registry mended cleaned second.1.2 second.2 ∧
      ∀ path ∈ rest, before.tree.isPresent path = true → path ∈ cleaned.deleted

theorem Separate.nodup {tree : FileTree} {paths : List Path} (h : Separate tree paths) :
    paths.Nodup :=
  h.diverge.imp fun hdiverge heq => hdiverge.ne (congrArg _ heq)

theorem Emptied.cleanedUp {cleaned : Cleaned} {after : FaultyTree}
    (h : Emptied registry.paths disk cleaned after)
    (hseparate : Separate disk.tree registry.paths) :
    CleanedUp registry disk cleaned registry.clear after := by
  have htogether : (cleaned.deleted ++ cleaned.missing).Perm registry.paths := by
    rw [h.deleted, h.missing]
    exact List.filter_append_perm _ _
  refine ⟨h.deleted, h.missing, htogether, htogether.nodup_iff.mpr hseparate.nodup, ?_, h.gone, rfl,
    sameFiles_of_shrinks h.shrinks⟩
  rw [h.deleted, Registry.wouldDelete, present_apply]

/-- Where no obstacle stands in the way cleaning succeeds. -/
theorem removeAll_of_unhindered (hplain : disk.tree.Plain)
    (hseparate : Separate disk.tree registry.paths) (hfree : registry.Unhindered disk) :
    ∃ cleaned after, Emptied registry.paths disk cleaned after ∧
      Registry.removeAll (m := StateM FaultyTree) registry.base registry.paths disk =
        (.ok cleaned, after) := by
  have hhonest := FaultyTree.honest_of_no_faults hfree.faults
  cases hrun : Registry.removeAll (m := StateM FaultyTree) registry.base registry.paths disk with
  | mk result after =>
    cases result with
    | ok cleaned => exact ⟨cleaned, after, removeAll_emptied hplain hhonest hseparate hrun, rfl⟩
    | error error =>
      obtain ⟨front, rest, hpaths, hcause, hfails, -⟩ :=
        removeAll_stopped hplain hhonest hseparate hrun
      refine absurd ⟨error.cause, hcause, hfails hfree.faults⟩ (hfree.free error.path ?_)
      simp [hpaths]

theorem failsInTurn_iff {path : Path} : registry.FailsInTurn disk path ↔
    ∃ cause after, Registry.removeAll (m := StateM FaultyTree) registry.base registry.paths disk =
      (.error ⟨path, cause⟩, after) := by
  simp only [removeAll_eq_error_iff, removeOne_eq_error_iff]
  constructor
  · rintro ⟨front, rest, cleaned, between, hpaths, hfront, cause, after, hcause, hfails⟩
    exact ⟨cause, after, front, rest, cleaned, between, hpaths, hfront, hfails, hcause⟩
  · rintro ⟨cause, after, front, rest, cleaned, between, hpaths, hfront, hfails, hcause⟩
    exact ⟨front, rest, cleaned, between, hpaths, hfront, cause, after, hcause, hfails⟩

theorem clean_cleanedUp (hplain : disk.tree.Plain) (hhonest : disk.Honest)
    (hseparate : Separate disk.tree registry.paths) {cleaned : Cleaned} {after : FaultyTree}
    (hok : Registry.removeAll (m := StateM FaultyTree) registry.base registry.paths disk =
      (.ok cleaned, after)) :
    let run := registry.clean (m := StateM FaultyTree) disk
    run.1.1 = .ok cleaned ∧ CleanedUp registry disk cleaned run.1.2 run.2 := by
  intro run
  have hrun : run = _ := clean_apply registry disk
  rw [hok] at hrun
  rw [hrun]
  exact ⟨rfl, (removeAll_emptied hplain hhonest hseparate hok).cleanedUp hseparate⟩

theorem clean_stopped (hplain : disk.tree.Plain) (hhonest : disk.Honest)
    (hseparate : Separate disk.tree registry.paths) {error : RemovalError} {after : FaultyTree}
    (herror : Registry.removeAll (m := StateM FaultyTree) registry.base registry.paths disk =
      (.error error, after)) :
    let run := registry.clean (m := StateM FaultyTree) disk
    run.1.1 = .error error ∧
      ∃ front rest, Stopped registry front error rest disk run.1.2 run.2 := by
  intro run
  have hrun : run = _ := clean_apply registry disk
  rw [herror] at hrun
  rw [hrun]
  obtain ⟨front, rest, hpaths, hcause, hobstacle, hgone, huntouched, hshrinks⟩ :=
    removeAll_stopped hplain hhonest hseparate herror
  refine ⟨rfl, front, rest, hpaths, hcause, hobstacle, rfl, hgone, huntouched,
    sameFiles_of_shrinks hshrinks, ?_⟩
  intro mended hplain' hwork hfree hpresent second
  have hseparate' := hseparate.of_workingDirectory hwork
  obtain ⟨cleaned, final, -, hclean⟩ := removeAll_of_unhindered hplain' hseparate' hfree
  have hhonest' := FaultyTree.honest_of_no_faults hfree.faults
  obtain ⟨hok, hcleaned⟩ := clean_cleanedUp hplain' hhonest' hseparate' hclean
  refine ⟨cleaned, hok, hcleaned, fun path hpath hthere => ?_⟩
  have hstays : mended.tree.isPresent path = true := by
    obtain ⟨found, hfound⟩ := FileTree.isPresent_iff.mp hthere
    rw [hpresent path hpath]
    exact FileTree.isPresent_iff.mpr
      ⟨found, (huntouched path (List.mem_cons_of_mem _ hpath) found).mpr hfound⟩
  rw [hcleaned.deleted, hpaths]
  exact List.mem_filter.mpr ⟨by simp [hpath], hstays⟩

/-- Cleaning succeeds exactly when no path fails in its turn. Then it has deleted the registered
files that were there, each once and in their order, as foretold, and the registry is empty. If it
stops, the registered files before the failing one are gone, all others are untouched, and the
registry is kept, so that cleaning deletes the rest once nothing is in the way. No other file is
lost or changed in either case. -/
theorem clean_outcome (registry : Registry) (disk : FaultyTree) (hplain : disk.tree.Plain)
    (hhonest : disk.Honest) (hseparate : Separate disk.tree registry.paths) :
    let run := registry.clean (m := StateM FaultyTree) disk
    ((∃ cleaned, run.1.1 = .ok cleaned) ↔ ∀ path, ¬ registry.FailsInTurn disk path) ∧
      (∀ cleaned, run.1.1 = .ok cleaned → CleanedUp registry disk cleaned run.1.2 run.2) ∧
      ∀ error, run.1.1 = .error error →
        ∃ front rest, Stopped registry front error rest disk run.1.2 run.2 := by
  intro run
  simp only [failsInTurn_iff]
  cases hremoved :
    Registry.removeAll (m := StateM FaultyTree) registry.base registry.paths disk with
  | mk result after =>
    cases result with
    | ok cleaned =>
      obtain ⟨hok, hcleaned⟩ := clean_cleanedUp hplain hhonest hseparate hremoved
      refine ⟨⟨fun _ path => by rintro ⟨cause, other, ⟨⟩⟩, fun _ => ⟨cleaned, hok⟩⟩, ?_, ?_⟩
      · intro other hother
        obtain rfl := Except.ok.inj (hok.symm.trans hother)
        exact hcleaned
      · intro error herror
        cases hok.symm.trans herror
    | error error =>
      obtain ⟨herror, hstopped⟩ := clean_stopped hplain hhonest hseparate hremoved
      refine ⟨⟨?_, fun h => absurd ⟨error.cause, after, rfl⟩ (h error.path)⟩, ?_, ?_⟩
      · rintro ⟨cleaned, hok⟩
        cases herror.symm.trans hok
      · intro cleaned hok
        cases herror.symm.trans hok
      · intro other hother
        obtain rfl := Except.error.inj (herror.symm.trans hother)
        exact hstopped

/-- Two stubs. -/
def twoStubs : Registry := ((Registry.empty Path.empty "java").register ⟨["A"]⟩).register ⟨["B"]⟩

/-- A directory at the path of the first stub and a file at the path of the second one. -/
def obstacle : FaultyTree where
  tree := ((⟨Table.empty, []⟩ : FileTree).put ["A.java"] .directory).put ["B.java"] (.file .empty)

theorem twoStubs_stop :
    let run := twoStubs.clean (m := StateM FaultyTree) obstacle
    obstacle.tree.Plain ∧ obstacle.Honest ∧ Separate obstacle.tree twoStubs.paths ∧
      ∃ error front rest, run.1.1 = .error error ∧
        Stopped twoStubs front error rest obstacle run.1.2 run.2 := by
  intro run
  have hpaths : twoStubs.paths = [⟨["A.java"]⟩, ⟨["B.java"]⟩] := by decide +kernel
  have hdirectory := (FileTree.plain_put (FileTree.plain_empty []) (List.cons_ne_nil "A.java" [])
    rfl .directory nofun nofun).1
  have hplain : obstacle.tree.Plain := (FileTree.plain_put hdirectory
    (List.cons_ne_nil "B.java" []) rfl (.file .empty) nofun nofun).1
  have hhonest : obstacle.Honest := FaultyTree.honest_of_no_faults rfl
  have hseparate : Separate obstacle.tree twoStubs.paths := by
    rw [hpaths]
    exact ⟨by decide, by simp [Diverge]; decide⟩
  obtain ⟨hsucceeds, -, hstopped⟩ := clean_outcome twoStubs obstacle hplain hhonest hseparate
  have hspot : obstacle.tree.spot false ⟨["A.java"]⟩ = .ok ⟨[], .name "A.java", false⟩ := by
    have hname : Path.IsName "A.java" := by decide
    refine (FileTree.spot_concat_iff hplain.linkFree hname (List.nil_append _).symm).mpr ⟨?_, rfl⟩
    exact (FileTree.reaches_concat_iff hname (List.nil_append _).symm).mpr
      ⟨⟨by decide, by decide, by decide⟩, FileTree.passable_nil, by decide⟩
  have hdeleted : obstacle.tree.deleteFile ⟨["A.java"]⟩ = .error .isDirectory := by
    rw [FileTree.deleteFile, hspot]
    rfl
  have hfails : twoStubs.FailsInTurn obstacle ⟨["A.java"]⟩ :=
    ⟨[], [⟨["B.java"]⟩], {}, obstacle, hpaths, rfl, .isDirectory, obstacle, by decide,
      FaultyTree.deleteFile_error rfl hdeleted⟩
  refine ⟨hplain, hhonest, hseparate, ?_⟩
  cases hresult : run.1.1 with
  | ok cleaned => exact absurd hfails (hsucceeds.mp ⟨cleaned, hresult⟩ _)
  | error error =>
    obtain ⟨front, rest, h⟩ := hstopped error hresult
    exact ⟨error, front, rest, rfl, h⟩

/-- A stub that is registered twice, by different components. -/
def twofold : Registry :=
  ((Registry.empty Path.empty "java").register ⟨["X"]⟩).register ⟨[".", "X"]⟩

/-- The stub's file. -/
def oneFile : FaultyTree where
  tree := (⟨Table.empty, []⟩ : FileTree).put ["X.java"] (.file .empty)

theorem spot_oneFile {tree : FileTree} (h : tree.LinkFree) (hwork : tree.workingDirectory = [])
    (follow : Bool) {front : List String} (hfront : front = [] ∨ front = ["."]) :
    tree.spot follow ⟨front ++ ["X.java"]⟩ = .ok ⟨[], .name "X.java", false⟩ := by
  have hname : Path.IsName "X.java" := by decide
  have hway : (⟨front ++ ["X.java"]⟩ : Path).components.dropLast = [] ∨
      (⟨front ++ ["X.java"]⟩ : Path).components.dropLast = [.here] := by
    rcases hfront with rfl | rfl
    · exact Or.inl (by decide)
    · exact Or.inr (by decide)
  refine (FileTree.spot_concat_iff h hname rfl).mpr
    ⟨(FileTree.reaches_concat_iff hname rfl).mpr ⟨?_, ?_, by decide⟩, ?_⟩
  · rcases hfront with rfl | rfl
    · exact ⟨by decide, by decide, by decide⟩
    · exact ⟨by decide, by decide, by decide⟩
  · rcases hway with hway | hway <;> rw [hway]
    · exact FileTree.passable_nil
    · exact (FileTree.passable_cons_sign (by simp)).mpr FileTree.passable_nil
  · rcases hway with hway | hway <;> rw [hway, hwork] <;> rfl

/-- Where paths with different components lead to one file, the file is foretold for both and
deleted once. -/
theorem twofold_cleaned :
    let paths : List Path := [⟨["X.java"]⟩, ⟨[".", "X.java"]⟩]
    oneFile.tree.Plain ∧ oneFile.faults = [] ∧ twofold.paths = paths ∧
      (∀ path ∈ paths, .up ∉ path.components) ∧
      (paths.map Path.components).Pairwise (fun path other =>
        ¬ path <+: other ∧ ¬ other <+: path) ∧
      (twofold.wouldDelete (m := StateM FaultyTree) oneFile).1 = paths ∧
      (twofold.clean (m := StateM FaultyTree) oneFile).1.1 =
        .ok { deleted := [⟨["X.java"]⟩], missing := [⟨[".", "X.java"]⟩] } := by
  intro paths
  have hpaths : twofold.paths = paths := by decide +kernel
  have hplain : oneFile.tree.Plain := (FileTree.plain_put (FileTree.plain_empty [])
    (List.cons_ne_nil "X.java" []) rfl (.file .empty) nofun nofun).1
  have herased : (oneFile.tree.erase ["X.java"]).LinkFree := (FileTree.plain_erase hplain
    (List.cons_ne_nil "X.java" []) nofun).1.linkFree
  have hspot : oneFile.tree.spot false ⟨["X.java"]⟩ = .ok ⟨[], .name "X.java", false⟩ :=
    spot_oneFile hplain.linkFree rfl false (Or.inl rfl)
  have hpresent : ∀ front : List String, front = [] ∨ front = ["."] →
      oneFile.tree.isPresent ⟨front ++ ["X.java"]⟩ = true := fun front hfront =>
    FileTree.isPresent_iff.mpr ⟨(["X.java"], .file .empty), FileTree.find_eq_ok_iff.mpr
      ⟨_, spot_oneFile hplain.linkFree rfl true hfront, rfl, rfl, nofun⟩⟩
  refine ⟨hplain, rfl, hpaths, by decide, by decide, ?_, ?_⟩
  · rw [Registry.wouldDelete, hpaths, present_apply]
    exact List.filter_eq_self.mpr (by
      simpa [paths] using ⟨hpresent [] (Or.inl rfl), hpresent ["."] (Or.inr rfl)⟩)
  · have hdeleted : oneFile.tree.deleteFile ⟨["X.java"]⟩ =
        .ok (oneFile.tree.erase ["X.java"]) := by
      rw [FileTree.deleteFile, hspot]
      rfl
    have hmissing : (oneFile.tree.erase ["X.java"]).deleteFile ⟨[".", "X.java"]⟩ =
        .error .notFound := by
      rw [FileTree.deleteFile, show FileTree.spot _ false ⟨[".", "X.java"]⟩ = _ from
        spot_oneFile herased rfl false (Or.inr rfl)]
      rfl
    have hparent : (⟨["X.java"]⟩ : Path).parent? = some Path.empty := by decide +kernel
    have hstays : Files.deleteWhileEmpty (m := StateM FaultyTree) Path.empty Path.empty =
        pure (.ok ()) := by
      rw [FileTree.deleteWhileEmpty_eq, if_pos (by decide +kernel)]
    have hbase : twofold.base = Path.empty := by decide +kernel
    let erased : FaultyTree :=
      { tree := oneFile.tree.erase ["X.java"], journal := [.deleted ⟨["X.java"]⟩ ["X.java"]] }
    have hfirst : Registry.removeOne (m := StateM FaultyTree) Path.empty ⟨["X.java"]⟩ oneFile =
        (.ok true, erased) := by
      rw [removeOne_of_deleted (FaultyTree.deleteFile_ok rfl hspot hdeleted),
        Registry.deleteEmptyParents]
      simp only [hparent, hstays]
      rfl
    have hsecond : Registry.removeOne (m := StateM FaultyTree) Path.empty ⟨[".", "X.java"]⟩ erased =
        (.ok false, erased) :=
      removeOne_of_notFound (FaultyTree.deleteFile_error rfl hmissing)
    rw [clean_apply, hpaths, hbase, removeAll_step, hfirst]
    simp only
    rw [removeAll_step, hsecond]
    rfl

end

end JavaStubs.Stubs
