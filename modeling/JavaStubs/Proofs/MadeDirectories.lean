import JavaStubs.Proofs.ClearWays

/-!
# Making missing directories

Making a directory and those that it lies in tries the directory itself and, when something on the
way is missing, makes the parent before it tries again. On a clear way this succeeds, and wherever it
succeeds, the path leads to a directory in the end.
-/
namespace JavaStubs

namespace Files.FileTree

variable {tree after : FileTree} {home : Place} {path : Path}

section

variable (hplain : tree.Plain) (hhome : tree.entry? tree.workingDirectory = some .directory)

include hplain hhome

/-- Where directories stand on the whole way, a path leads to a directory. -/
theorem isDirectory_of_passable (husable : Usable path)
    (hp : tree.Passable tree.workingDirectory path.components) : tree.isDirectory path = true :=
  (isDirectory_iff hplain.linkFree).mpr ⟨husable, hp, hplain.reach hhome hp⟩

/-- A directory that could be made is there. -/
theorem isDirectory_of_makeDirectory (h : tree.makeDirectory path = .ok after) :
    after.isDirectory path = true := by
  obtain ⟨place, hvacant, h⟩ := bind_eq_ok.mp h
  obtain rfl := Except.ok.inj h
  obtain ⟨spot, name, hs, hname, rfl, hnone⟩ := vacantPlace_eq_ok hvacant
  obtain ⟨hplace, hne, hparent⟩ := hplain.spot_of_name hhome hs hname
  obtain ⟨hplain', hgrows⟩ :=
    plain_put hplain hne hparent .directory (by simp) (by simp [hnone])
  have hput := entry?_put tree hne .directory
  rcases spot_inv hplain.linkFree hs with ⟨hother, -⟩ | ⟨passed, last, heq, -, hpassed, hshort⟩
  · exact absurd hname (hother name)
  · refine isDirectory_of_passable hplain' (hgrows.home_directory hhome)
      (spot_eq_ok_iff.mp hs).1 ?_
    rw [heq, passable_append]
    refine ⟨hpassed.of_directories fun place _ => hgrows.directories place,
      passable_cons_name.mpr ⟨hshort, ?_, passable_nil⟩⟩
    rw [hput, if_pos]
    rw [hplace, placeOf, heq, reach_append]
    rfl

/-- On a clear way that leads somewhere, a directory is made or is there. -/
theorem makeDirectory_of_spot (hclear : tree.Clear tree.workingDirectory path.components)
    {spot : Spot} (hs : tree.spot false path = .ok spot) :
    (∃ after, tree.makeDirectory path = .ok after) ∨
      tree.makeDirectory path = .error .exists ∧ tree.isDirectory path = true := by
  have husable := (spot_eq_ok_iff.mp hs).1
  unfold makeDirectory vacantPlace
  rw [hs]
  rcases spot_inv hplain.linkFree hs with ⟨hother, hp⟩ | ⟨passed, name, heq, hname, hpassed, hshort⟩
  · refine Or.inr ⟨?_, isDirectory_of_passable hplain hhome husable hp⟩
    cases hlast : spot.last with
    | name name => exact absurd hlast (hother name)
    | root | here | up => simp [hlast, Bind.bind, Except.bind]
  · have hplace : spot.place = reach tree.workingDirectory passed ++ [name] := by
      rw [(hplain.spot hhome hs).1, placeOf, heq, reach_append]
      rfl
    have hvisited : spot.place ∈ visited tree.workingDirectory path.components := by
      rw [heq, visited_append, hplace]
      simp [visited]
    rcases hclear.vacant _ hvisited with hnone | hdirectory
    · exact Or.inl ⟨_, by simp [hname, hnone, Bind.bind, Except.bind]; rfl⟩
    · refine Or.inr ⟨by simp [hname, hdirectory, Bind.bind, Except.bind], ?_⟩
      refine isDirectory_of_passable hplain hhome husable ?_
      rw [heq, passable_append]
      rw [hplace] at hdirectory
      exact ⟨hpassed, passable_cons_name.mpr ⟨hshort, hdirectory, passable_nil⟩⟩

end

theorem unlessDirectory_apply (path : Path) (error : FileError) (tree : FileTree) :
    unlessDirectory (m := StateM FileTree) path error tree =
      (if tree.isDirectory path then .ok () else .error error, tree) := by
  change (if tree.isDirectory path = true then pure (.ok ()) else pure (.error error) :
    StateM FileTree (Outcome Unit)) tree = _
  split <;> rfl

/-- Makes a directory unless it is there. -/
def ensureDirectory (path : Path) (tree : FileTree) : Outcome Unit × FileTree :=
  match tree.makeDirectory path with
  | .ok after => (.ok (), after)
  | .error error => (if tree.isDirectory path then .ok () else .error error, tree)

theorem ensureDirectory_apply (path : Path) (tree : FileTree) :
    (do
      match ← Disk.makeDirectory path with
      | .ok () => return .ok ()
      | .error error => unlessDirectory path error : StateM FileTree (Outcome Unit)) tree =
        ensureDirectory path tree := by
  rw [ensureDirectory]
  simp only [bind_apply]
  cases hmade : tree.makeDirectory path with
  | ok after =>
    have hchange : Disk.makeDirectory (m := StateM FileTree) path tree = (.ok (), after) :=
      change_of_eq_ok hmade
    rw [hchange]
    rfl
  | error error =>
    have hchange : Disk.makeDirectory (m := StateM FileTree) path tree = (.error error, tree) :=
      change_of_eq_error hmade
    rw [hchange]
    exact unlessDirectory_apply path error tree

theorem createDirectories_eq {m : Type → Type} [Monad m] [Disk m] (path : Path) :
    createDirectories (m := m) path =
      (if path.isEmpty then pure (.ok ())
      else do
        match ← Disk.makeDirectory path with
        | .ok () => return .ok ()
        | .error .notFound =>
          match path.parent? with
          | none => return .error .noBeginning
          | some parent =>
            match ← createDirectories parent with
            | .error error => return .error error
            | .ok () =>
              match ← Disk.makeDirectory path with
              | .ok () => return .ok ()
              | .error error => unlessDirectory path error
        | .error error => unlessDirectory path error) := by
  rw [createDirectories]
  congr 2
  funext made
  split
  · rfl
  · cases path.parent? <;> rfl
  · rename_i error hother
    cases error <;> first | exact (hother rfl).elim | rfl

/-- Making a directory and those it lies in is making it, after those it lies in if one of them is
missing. -/
theorem createDirectories_cases (path : Path) (tree : FileTree) :
    let run := createDirectories (m := StateM FileTree) path tree
    path.isEmpty = true ∧ run = (.ok (), tree) ∨
    path.isEmpty = false ∧ (tree.makeDirectory path ≠ .error .notFound ∧
        run = ensureDirectory path tree ∨
      tree.makeDirectory path = .error .notFound ∧
        (path.parent? = none ∧ run = (.error .noBeginning, tree) ∨
          ∃ parent, path.parent? = some parent ∧
            let made := createDirectories (m := StateM FileTree) parent tree
            (∃ error, made.1 = .error error ∧ run = (.error error, made.2)) ∨
              made.1 = .ok () ∧ run = ensureDirectory path made.2)) := by
  intro run
  have hrun : run = createDirectories (m := StateM FileTree) path tree := rfl
  rw [createDirectories_eq] at hrun
  cases hempty : path.isEmpty with
  | true =>
    rw [hempty] at hrun
    exact Or.inl ⟨rfl, hrun⟩
  | false =>
    refine Or.inr ⟨rfl, ?_⟩
    rw [hempty] at hrun
    simp only [Bool.false_eq_true, if_false, bind_apply] at hrun
    cases hmade : tree.makeDirectory path with
    | ok after =>
      have hchange : Disk.makeDirectory (m := StateM FileTree) path tree = (.ok (), after) :=
        change_of_eq_ok hmade
      refine Or.inl ⟨by simp, ?_⟩
      rw [hrun, hchange, ensureDirectory, hmade]
      rfl
    | error error =>
      have hchange : Disk.makeDirectory (m := StateM FileTree) path tree = (.error error, tree) :=
        change_of_eq_error hmade
      rw [hchange] at hrun
      by_cases hmissing : error = .notFound
      · subst hmissing
        refine Or.inr ⟨rfl, ?_⟩
        cases hparent : path.parent? with
        | none =>
          rw [hparent] at hrun
          exact Or.inl ⟨rfl, hrun⟩
        | some parent =>
          refine Or.inr ⟨parent, rfl, ?_⟩
          rw [hparent] at hrun
          simp only [bind_apply] at hrun
          generalize createDirectories (m := StateM FileTree) parent tree = made at hrun ⊢
          obtain ⟨result, made⟩ := made
          cases result with
          | error error => exact Or.inl ⟨error, rfl, hrun⟩
          | ok _ => exact Or.inr ⟨rfl, hrun.trans (ensureDirectory_apply path made)⟩
      · refine Or.inl ⟨by simpa using hmissing, ?_⟩
        rw [ensureDirectory, hmade]
        simp only [← unlessDirectory_apply]
        cases error <;> first | exact absurd rfl hmissing | exact hrun

section

variable (hplain : tree.Plain) (hhome : tree.entry? tree.workingDirectory = some .directory)

include hplain hhome

theorem isDirectory_of_ensureDirectory (h : (ensureDirectory path tree).1 = .ok ()) :
    (ensureDirectory path tree).2.isDirectory path = true := by
  unfold ensureDirectory at h ⊢
  cases hmade : tree.makeDirectory path with
  | ok after => exact isDirectory_of_makeDirectory hplain hhome hmade
  | error error =>
    rw [hmade] at h
    by_contra hno
    simp [hno] at h

/-- Where directories could be made, the path leads to a directory. -/
theorem isDirectory_of_createDirectories
    (h : (createDirectories (m := StateM FileTree) path tree).1 = .ok ()) :
    path.isEmpty = true ∨
      (createDirectories (m := StateM FileTree) path tree).2.isDirectory path = true := by
  rcases createDirectories_cases path tree with
    ⟨hempty, -⟩ | ⟨-, ⟨-, hrun⟩ | ⟨-, ⟨-, hrun⟩ | ⟨parent, -, ⟨error, -, hrun⟩ | ⟨-, hrun⟩⟩⟩⟩
  · exact Or.inl hempty
  · rw [hrun] at h ⊢
    exact Or.inr (isDirectory_of_ensureDirectory hplain hhome h)
  · rw [hrun] at h
    cases h
  · rw [hrun] at h
    cases h
  · obtain ⟨hmade, hgrows⟩ := confined_createDirectories parent tree hplain rfl hhome
    rw [hrun] at h ⊢
    exact Or.inr (isDirectory_of_ensureDirectory hmade (hgrows.home_directory hhome) h)

theorem passable_of_createDirectories
    (h : (createDirectories (m := StateM FileTree) path tree).1 = .ok ()) :
    (createDirectories (m := StateM FileTree) path tree).2.Passable tree.workingDirectory
      path.components := by
  obtain ⟨hmade, hgrows⟩ := confined_createDirectories path tree hplain rfl hhome
  rcases isDirectory_of_createDirectories hplain hhome h with hempty | hdirectory
  · rw [Path.components_of_isEmpty hempty]
    exact passable_nil
  · rw [← hgrows.workingDirectory]
    exact ((isDirectory_iff hmade.linkFree).mp hdirectory).2.1

/-- On a clear way that can be followed, a directory is there in the end. -/
theorem ensureDirectory_of_spot (hclear : tree.Clear tree.workingDirectory path.components)
    {spot : Spot} (hs : tree.spot false path = .ok spot) :
    (ensureDirectory path tree).1 = .ok () := by
  unfold ensureDirectory
  rcases makeDirectory_of_spot hplain hhome hclear hs with ⟨after, hmade⟩ | ⟨hmade, hdirectory⟩
  · rw [hmade]
  · simp [hmade, hdirectory]

end

theorem Clear.of_grows (h : tree.Clear home path.components)
    (hgrows : Grows (fun _ => False) tree after) : after.Clear home path.components :=
  ⟨fun place hp => (hgrows.crossable_iff (by simp)).mpr (h.vacant place hp), h.short⟩

/-- On a clear way, when the directories that a directory lies in are made, it can be made too or is
there. -/
theorem ensureDirectory_of_parent (hplain : tree.Plain)
    (hhome : tree.entry? tree.workingDirectory = some .directory) (husable : Usable path)
    (htrimmed : path.Trimmed) (hclear : tree.Clear tree.workingDirectory path.components)
    {parent : Path} (hfront : parent.components = path.components.dropLast)
    (hmade : (createDirectories (m := StateM FileTree) parent tree).1 = .ok ()) :
    (ensureDirectory path (createDirectories (m := StateM FileTree) parent tree).2).1 = .ok () := by
  have hpassable := passable_of_createDirectories hplain hhome hmade
  obtain ⟨hplain', hgrows⟩ := confined_createDirectories parent tree hplain rfl hhome
  have hclear' := hclear.of_grows hgrows
  rw [← hgrows.workingDirectory] at hclear' hpassable
  obtain ⟨spot, hs⟩ := exists_spot_of_trimmed hplain'.linkFree husable htrimmed hclear.short
    (hfront ▸ hpassable) false
  exact ensureDirectory_of_spot hplain' (hgrows.home_directory hhome) hclear' hs

/-- On a clear way all missing directories can be made: induction over the path, since its parent is
shorter. -/
theorem createDirectories_of_clear (hplain : tree.Plain)
    (hhome : tree.entry? tree.workingDirectory = some .directory) (htrimmed : path.Trimmed)
    (husable : path.isEmpty = false → Usable path)
    (hclear : tree.Clear tree.workingDirectory path.components) :
    (createDirectories (m := StateM FileTree) path tree).1 = .ok () := by
  induction hlength : path.components.length using Nat.strongRecOn generalizing path with
  | ind length ih =>
    rcases createDirectories_cases path tree with
      ⟨-, hrun⟩ | ⟨hempty, ⟨hfound, hrun⟩ | ⟨hmissing, hparent⟩⟩
    · rw [hrun]
    · rw [hrun]
      rcases spot_of_clear hplain.linkFree (husable hempty) hclear false with ⟨spot, hs⟩ | hnone
      · exact ensureDirectory_of_spot hplain hhome hclear hs
      · refine absurd ?_ hfound
        unfold makeDirectory vacantPlace
        rw [hnone]
        rfl
    -- Something on the way is missing, so the path leads nowhere and has a parent.
    · have hfound : ∀ spot, tree.spot false path ≠ .ok spot := by
        intro spot hs
        rcases makeDirectory_of_spot hplain hhome hclear hs with ⟨after, hmade⟩ | ⟨hmade, -⟩
        · simp [hmade] at hmissing
        · simp [hmade] at hmissing
      rcases Path.components_parent? path with ⟨hnone, hfirst⟩ | ⟨parent, hsome, hfront⟩
      · obtain ⟨spot, hs⟩ := exists_spot_of_trimmed hplain.linkFree (husable hempty) htrimmed
          hclear.short (hfirst ▸ passable_nil) false
        exact absurd hs (hfound spot)
      · have hshorter := Path.length_components_of_parent? hsome
        have hclear' : tree.Clear tree.workingDirectory parent.components := by
          obtain ⟨last, hlast⟩ := Path.components_of_parent? hsome
          rw [hlast] at hclear
          exact hclear.of_append
        have htrimmed' : parent.Trimmed := by
          obtain ⟨start, body, rfl, -⟩ := Path.parent?_eq_some hsome
          exact Path.trimmed_ofLead start body
        have hmade := ih _ (hlength ▸ hshorter) htrimmed' ((husable hempty).of_parent hsome)
          hclear' rfl
        rw [hsome] at hparent
        rcases hparent with ⟨hnone, -⟩ | ⟨other, hother, ⟨error, herror, -⟩ | ⟨-, hrun⟩⟩
        · cases hnone
        · obtain rfl := Option.some.inj hother
          simp [hmade] at herror
        · obtain rfl := Option.some.inj hother
          rw [hrun]
          exact ensureDirectory_of_parent hplain hhome (husable hempty) htrimmed hclear hfront hmade

end Files.FileTree

end JavaStubs
