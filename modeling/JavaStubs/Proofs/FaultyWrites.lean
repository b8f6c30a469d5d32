import JavaStubs.Proofs.FaultyDisk

/-!
# Writing on a disk with faults

What writing a file can come to when any operation may fail. Before the file is opened, directories
are made at most, and the journal says nothing. Once it was opened, the write touches its place
only; if it fails then, the file is deleted again where that succeeds.
-/
namespace JavaStubs.Files

namespace FileTree

variable {tree : FileTree}

/-- Where links are followed a path does not end with one. -/
theorem walk_follow_no_link {links : Nat} {here : Place} {pieces : List String} {spot : Spot}
    {name : String} (h : tree.walk true links here pieces = .ok spot)
    (hname : spot.last = .name name) (target : String) :
    tree.entry? spot.place ≠ some (.link target) := by
  fun_induction FileTree.walk tree true links here pieces
  all_goals grind [walk, Spot.place]

/-- Changes at places that are not excepted are none of files. -/
theorem Grows.sameFiles {touched : Place → Prop} {before after : FileTree}
    (h : Grows touched before after) : SameFiles touched before after := by
  intro place hp bytes
  rcases h.untouched place hp with hsame | ⟨hnone, hmade⟩
  · rw [hsame]
  · simp [hnone, hmade]

/-- What is no directory can be replaced by what is no directory, and nothing else changes. -/
theorem grows_put {place : Place} (hne : place ≠ []) (entry : Entry)
    (hd : tree.entry? place ≠ some .directory) : Grows (· = place) tree (tree.put place entry) := by
  refine ⟨rfl, fun other ho => ?_, fun other ho => Or.inl ?_⟩
  · rw [entry?_put tree hne, if_neg, ho]
    rintro rfl
    exact hd ho
  · rw [entry?_put tree hne, if_neg ho]

theorem grows_erase {place : Place} (hne : place ≠ [])
    (hd : tree.entry? place ≠ some .directory) : Grows (· = place) tree (tree.erase place) := by
  refine ⟨rfl, fun other ho => ?_, fun other ho => Or.inl ?_⟩
  · rw [entry?_erase tree hne, if_neg, ho]
    rintro rfl
    exact hd ho
  · rw [entry?_erase tree hne, if_neg ho]

theorem makeDirectory_grows {path : Path} {after : FileTree}
    (h : tree.makeDirectory path = .ok after) : Grows (fun _ => False) tree after := by
  obtain ⟨place, hvacant, h⟩ := bind_eq_ok.mp h
  obtain rfl := Except.ok.inj h
  obtain ⟨spot, name, -, hname, rfl, hnone⟩ := vacantPlace_eq_ok hvacant
  have hne : spot.place ≠ [] := by simp [place_of_last_name hname]
  have hput := entry?_put tree hne .directory
  have hgrows : Grows (· = spot.place) tree (tree.put spot.place .directory) :=
    grows_put hne .directory (by simp [hnone])
  refine ⟨hgrows.workingDirectory, hgrows.directories, fun other _ => ?_⟩
  by_cases hother : other = spot.place
  · exact Or.inr ⟨hother ▸ hnone, by rw [hput, if_pos hother]⟩
  · exact hgrows.untouched other hother

variable {path : Path} {place : Place} {before after : FileTree}

/-- A link that stands at an untouched place stood there before. -/
theorem Grows.link {touched : Place → Prop} (h : Grows touched before after)
    (hp : ¬ touched place) {target : String} (he : after.entry? place = some (.link target)) :
    before.entry? place = some (.link target) := by
  rcases h.untouched place hp with hsame | ⟨-, hmade⟩
  · rw [← hsame, he]
  · rw [hmade] at he
    cases he

/-- A path leads to a place where a file or a device stands. -/
structure Open (tree : FileTree) (path : Path) (place : Place) : Prop where
  spot : ∃ spot, tree.spot true path = .ok spot ∧ spot.place = place
  ne_root : place ≠ []
  no_directory : tree.entry? place ≠ some .directory
  no_link : ∀ target, tree.entry? place ≠ some (.link target)

/-- Putting a file where a file stands leaves it open. -/
theorem Open.put (h : tree.Open path place) (bytes : ByteArray) :
    (tree.put place (.file bytes)).Open path place ∧
      Grows (· = place) tree (tree.put place (.file bytes)) := by
  obtain ⟨spot, hs, rfl⟩ := h.spot
  have hentry := entry?_put tree h.ne_root (.file bytes) spot.place
  rw [if_pos rfl] at hentry
  refine ⟨⟨⟨spot, ?_, rfl⟩, h.ne_root, ?_, ?_⟩, grows_put h.ne_root _ h.no_directory⟩
  · exact spot_put_file h.ne_root bytes h.no_directory h.no_link hs
  · simp [hentry]
  · simp [hentry]

theorem createFile_open (h : before.createFile path = .ok after) :
    ∃ spot, before.spot true path = .ok spot ∧ after.Open path spot.place ∧
      Grows (· = spot.place) before after := by
  obtain ⟨spot, name, hs, hname, hfree, hafter⟩ := createFile_eq_ok h
  obtain ⟨-, hw⟩ := spot_eq_ok_iff.mp hs
  have hopen : before.Open path spot.place :=
    ⟨⟨spot, hs, rfl⟩, by simp [place_of_last_name hname], hfree, walk_follow_no_link hw hname⟩
  refine ⟨spot, hs, ?_⟩
  rcases hafter with ⟨-, rfl⟩ | ⟨-, rfl⟩
  · exact ⟨hopen, Grows.refl _ _⟩
  · exact hopen.put ByteArray.empty

theorem Open.fillBytes (hopen : before.Open path place) {bytes : ByteArray}
    (h : before.fillBytes path bytes = .ok after) :
    after.Open path place ∧ Grows (· = place) before after := by
  rcases fillBytes_eq_ok h with ⟨found, old, hfound, rfl⟩ | ⟨-, -, -, rfl⟩
  · obtain ⟨spot, hs, rfl, -⟩ := find_eq_ok_iff.mp hfound
    obtain ⟨other, hother, rfl⟩ := hopen.spot
    obtain rfl := Except.ok.inj (hs.symm.trans hother)
    exact hopen.put bytes
  · exact ⟨hopen, Grows.refl _ _⟩

/-- What is deleted under the path of an open file is the file, or a link that led to it. -/
theorem Open.deleteFile (hopen : before.Open path place) (h : before.deleteFile path = .ok after) :
    ∃ spot, before.spot false path = .ok spot ∧ Grows (· = spot.place) before after ∧
      after.isPresent path = false ∧ after.entry? spot.place = none ∧
      (spot.place = place ∨ ∃ target, before.entry? spot.place = some (.link target)) := by
  obtain ⟨spot, name, entry, hs, hname, hentry, hother, rfl⟩ := deleteFile_eq_ok h
  have hne : spot.place ≠ [] := by simp [place_of_last_name hname]
  have hd : before.entry? spot.place ≠ some .directory := by simpa [hentry] using hother
  refine ⟨spot, hs, grows_erase hne hd, isPresent_erase hs hname hd, ?_, ?_⟩
  · rw [entry?_erase before hne, if_pos rfl]
  · by_cases hlink : ∃ target, before.entry? spot.place = some (.link target)
    · exact Or.inr hlink
    · obtain ⟨opened, hopened, rfl⟩ := hopen.spot
      have hsame := hopened.symm.trans (spot_follow hs (not_exists.mp hlink))
      exact Or.inl (by rw [Except.ok.inj hsame])

end FileTree

namespace FaultyTree

open FileTree (Grows SameFiles)

variable {α β : Type} {disk before between after : FaultyTree} {path : Path}

theorem bind_apply (x : StateM FaultyTree α) (f : α → StateM FaultyTree β) (disk : FaultyTree) :
    (x >>= f) disk = f (x disk).1 (x disk).2 := rfl

theorem pure_apply (a : α) (disk : FaultyTree) : (pure a : StateM FaultyTree α) disk = (a, disk) :=
  rfl

/-- Every run of a computation relates the disk before to the disk after. -/
def Always (R : FaultyTree → FaultyTree → Prop) (x : StateM FaultyTree α) : Prop :=
  ∀ disk, R disk (x disk).2

namespace Always

variable {R : FaultyTree → FaultyTree → Prop} [IsPreorder FaultyTree R]

theorem pure (a : α) : Always R (Pure.pure a : StateM FaultyTree α) :=
  fun disk => Std.Refl.refl disk

theorem ask (question : FileTree → α) : Always R (FaultyTree.ask question) :=
  fun disk => Std.Refl.refl disk

theorem bind {x : StateM FaultyTree α} {f : α → StateM FaultyTree β} (hx : Always R x)
    (hf : ∀ a, Always R (f a)) : Always R (x >>= f) :=
  fun disk => IsTrans.trans _ _ _ (hx disk) (hf (x disk).1 (x disk).2)

end Always

/-- Between two disks no deed was done: at most directories were made. -/
structure Builds (before after : FaultyTree) : Prop where
  journal : after.journal = before.journal
  tree : Grows (fun _ => False) before.tree after.tree

instance : IsPreorder FaultyTree Builds where
  refl _ := ⟨rfl, Grows.refl _ _⟩
  trans _ _ _ h h' := ⟨h'.journal.trans h.journal, h.tree.trans h'.tree⟩

/-- Between two disks nothing happened but a fault. -/
structure Rests (before after : FaultyTree) : Prop where
  journal : after.journal = before.journal
  tree : after.tree = before.tree

theorem Rests.builds (h : Rests before after) : Builds before after :=
  ⟨h.journal, h.tree ▸ Grows.refl _ _⟩

/-- An operation that may go wrong fails and leaves everything as it was, or does its work on a disk
with the same tree and the same journal. -/
theorem unlessFault_cases (operation : StateM FaultyTree (Outcome α)) (disk : FaultyTree) :
    (∃ error, (unlessFault operation disk).1 = .error error ∧
      Rests disk (unlessFault operation disk).2) ∨
    ∃ due, Rests disk due ∧ unlessFault operation disk = operation due := by
  have hdue : Rests disk { disk with faults := disk.faults.tail } := ⟨rfl, rfl⟩
  simp only [unlessFault, bind_apply, nextFault]
  cases disk.faults.headD none with
  | some fault => exact Or.inl ⟨fault.error, rfl, hdue⟩
  | none => exact Or.inr ⟨_, hdue, rfl⟩

/-- Changing the tree leaves everything as it was, or changes the tree and is noted. -/
theorem change_cases (operation : FileTree → Outcome FileTree) (note : FileTree → List Deed)
    (disk : FaultyTree) :
    let run := change operation note disk
    (∃ error, run.1 = .error error ∧ Rests disk run.2) ∨
      run.1 = .ok () ∧ operation disk.tree = .ok run.2.tree ∧
        run.2.journal = disk.journal ++ note disk.tree := by
  simp only [change]
  cases hop : operation disk.tree with
  | error error => exact Or.inl ⟨error, rfl, rfl, rfl⟩
  | ok tree => exact Or.inr ⟨rfl, rfl, rfl⟩

theorem unlessFault_change_cases (operation : FileTree → Outcome FileTree)
    (note : FileTree → List Deed) (disk : FaultyTree) :
    let run := unlessFault (change operation note) disk
    (∃ error, run.1 = .error error ∧ Rests disk run.2) ∨
      run.1 = .ok () ∧ operation disk.tree = .ok run.2.tree ∧
        run.2.journal = disk.journal ++ note disk.tree := by
  intro run
  rcases unlessFault_cases (change operation note) disk with hfault | ⟨due, hrests, hrun⟩
  · exact Or.inl hfault
  · rw [show run = change operation note due from hrun, ← hrests.tree, ← hrests.journal]
    rcases change_cases operation note due with ⟨error, herror, hrests'⟩ | hok
    · exact Or.inl ⟨error, herror, hrests'.journal.trans hrests.journal,
        hrests'.tree.trans hrests.tree⟩
    · exact Or.inr hok

/-- Making directories is no deed. -/
theorem builds_makeDirectory (path : Path) :
    Always Builds (Disk.makeDirectory path : StateM FaultyTree _) := by
  intro disk
  rcases unlessFault_change_cases (·.makeDirectory path) (fun _ => []) disk with
    ⟨_, -, hrests⟩ | ⟨-, hmade, hjournal⟩
  · exact hrests.builds
  · exact ⟨hjournal.trans (List.append_nil _), FileTree.makeDirectory_grows hmade⟩

theorem builds_createParent (path : Path) :
    Always Builds (createParent path : StateM FaultyTree _) :=
  createParent_induction Always.pure Always.bind (fun _ => Always.ask _) builds_makeDirectory path

/-- Filling a file leaves everything as it was, or gives the file some bytes and notes that. -/
theorem fillFile_cases (path : Path) (content : String) (disk : FaultyTree) :
    let run := Disk.fillFile (m := StateM FaultyTree) path content disk
    (∃ error, run.1 = .error error ∧ Rests disk run.2) ∨
      ∃ bytes, disk.tree.fillBytes path bytes = .ok run.2.tree ∧
        run.2.journal = disk.journal ++ noteAt disk.tree true path (.filled path) := by
  have hdue : Rests disk { disk with faults := disk.faults.tail } := ⟨rfl, rfl⟩
  simp only [Disk.fillFile, bind_apply, nextFault]
  cases disk.faults.headD none with
  | some fault =>
    rcases change_cases (·.fillBytes path fault.torn)
      (fun tree => noteAt tree true path (.filled path)) { disk with faults := disk.faults.tail }
      with ⟨_, -, hrests⟩ | ⟨-, hfilled, hjournal⟩
    · exact Or.inl ⟨fault.error, rfl, hrests.journal.trans hdue.journal,
        hrests.tree.trans hdue.tree⟩
    · exact Or.inr ⟨fault.torn, hfilled, hjournal⟩
  | none =>
    rcases change_cases (·.fillBytes path content.toUTF8)
      (fun tree => noteAt tree true path (.filled path)) { disk with faults := disk.faults.tail }
      with ⟨error, herror, hrests⟩ | ⟨-, hfilled, hjournal⟩
    · exact Or.inl ⟨error, herror, hrests.journal.trans hdue.journal,
        hrests.tree.trans hdue.tree⟩
    · exact Or.inr ⟨_, hfilled, hjournal⟩

theorem noteAt_of_spot {tree : FileTree} {follow : Bool} {spot : Spot}
    (h : tree.spot follow path = .ok spot) (deed : Place → Deed) :
    noteAt tree follow path deed = [deed spot.place] := by
  rw [noteAt, h]

/-- A write that opened its file at a place, and what was done after that. -/
structure Opened (path : Path) (place : Place) (deeds : List Deed) (before after : FaultyTree) :
    Prop where
  /-- The path led to the place once its directories were made. -/
  leads : ∃ made spot, Grows (fun _ => False) before.tree made ∧
    made.spot true path = .ok spot ∧ spot.place = place
  journal : after.journal = before.journal ++ .opened path place :: deeds
  kinds : ∀ deed ∈ deeds, deed = .filled path place ∨ ∃ other, deed = .deleted path other
  tree : Grows (fun other => other = place ∨ .deleted path other ∈ deeds) before.tree after.tree
  /-- If the file was deleted again, the path leads nowhere. -/
  deleted : ∀ other, .deleted path other ∈ deeds → after.tree.isPresent path = false ∧
    after.tree.entry? other = none ∧
      (other = place ∨ ∃ target, before.tree.entry? other = some (.link target))

variable {place : Place}

/-- A write changes no file but its own: if a link was deleted with it, a link is no file. -/
theorem Opened.sameFiles {deeds : List Deed} (h : Opened path place deeds before after) :
    SameFiles (· = place) before.tree after.tree := by
  intro other hother bytes
  by_cases hdeleted : .deleted path other ∈ deeds
  · obtain ⟨-, hnone, hwhich⟩ := h.deleted other hdeleted
    obtain ⟨target, hlink⟩ := hwhich.resolve_left hother
    simp [hnone, hlink]
  · exact h.tree.sameFiles other (not_or.mpr ⟨hother, hdeleted⟩) bytes

theorem createFile_cases (path : Path) (disk : FaultyTree) :
    let run := Disk.createFile (m := StateM FaultyTree) path disk
    (∃ error, run.1 = .error error ∧ Rests disk run.2) ∨
      ∃ place, run.1 = .ok () ∧ Opened path place [] disk run.2 ∧ run.2.tree.Open path place := by
  intro run
  rcases unlessFault_change_cases (·.createFile path)
    (fun tree => noteAt tree true path (.opened path)) disk with hfault | ⟨hok, hcreated, hjournal⟩
  · exact Or.inl hfault
  · obtain ⟨spot, hs, hopen, hgrows⟩ := FileTree.createFile_open hcreated
    rw [noteAt_of_spot hs] at hjournal
    exact Or.inr ⟨spot.place, hok, ⟨⟨disk.tree, spot, Grows.refl _ _, hs, rfl⟩, hjournal, by simp,
      hgrows.mono fun _ => Or.inl, by simp⟩, hopen⟩

/-- Directories that were made before do not count. -/
theorem Opened.of_builds {deeds : List Deed} (h : Opened path place deeds between after)
    (hbuilds : Builds before between) : Opened path place deeds before after := by
  obtain ⟨made, spot, hmade, hs, hplace⟩ := h.leads
  refine ⟨⟨made, spot, hbuilds.tree.trans hmade, hs, hplace⟩, ?_, h.kinds,
    (hbuilds.tree.mono fun _ => False.elim).trans h.tree, fun other ho => ?_⟩
  · rw [h.journal, hbuilds.journal]
  · obtain ⟨hgone, hnone, hwhich⟩ := h.deleted other ho
    exact ⟨hgone, hnone, hwhich.imp_right fun ⟨target, hlink⟩ =>
      ⟨target, hbuilds.tree.link (by simp) hlink⟩⟩

/-- A file that is open stays so when it is filled. -/
theorem Opened.fillFile (h : Opened path place [] before between)
    (hopen : between.tree.Open path place) (content : String) :
    let run := Disk.fillFile (m := StateM FaultyTree) path content between
    ∃ deeds, (∀ other, .deleted path other ∉ deeds) ∧ Opened path place deeds before run.2 ∧
      run.2.tree.Open path place := by
  intro run
  rcases fillFile_cases path content between with ⟨error, -, hrests⟩ | ⟨bytes, hfilled, hjournal⟩
  · refine ⟨[], by simp, ⟨h.leads, hrests.journal.trans h.journal, by simp, ?_, by simp⟩, ?_⟩
    · rw [hrests.tree]
      exact h.tree
    · rw [hrests.tree]
      exact hopen
  · obtain ⟨spot, hs, rfl⟩ := hopen.spot
    obtain ⟨hopen', hgrows⟩ := hopen.fillBytes hfilled
    rw [noteAt_of_spot hs, h.journal] at hjournal
    refine ⟨[.filled path spot.place], by simp, ⟨h.leads, by simpa using hjournal, by simp, ?_,
      by simp⟩, hopen'⟩
    exact (h.tree.mono (by simp)).trans (hgrows.mono fun _ => Or.inl)

theorem deleteFile_cases (path : Path) (disk : FaultyTree) :
    let run := Disk.deleteFile (m := StateM FaultyTree) path disk
    (∃ error, run.1 = .error error ∧ Rests disk run.2) ∨
      run.1 = .ok () ∧ disk.tree.deleteFile path = .ok run.2.tree ∧
        run.2.journal = disk.journal ++ noteAt disk.tree false path (.deleted path) :=
  unlessFault_change_cases _ _ disk

/-- An open file can be deleted, or everything stays as it is. -/
theorem Opened.deleteFile {deeds : List Deed} (h : Opened path place deeds before between)
    (hnone : ∀ other, .deleted path other ∉ deeds) (hopen : between.tree.Open path place) :
    let run := Disk.deleteFile (m := StateM FaultyTree) path between
    ∃ deeds, Opened path place deeds before run.2 := by
  intro run
  rcases deleteFile_cases path between with ⟨error, -, hrests⟩ | ⟨-, hdeleted, hjournal⟩
  · refine ⟨deeds, h.leads, hrests.journal.trans h.journal, h.kinds, ?_, ?_⟩
    · rw [hrests.tree]
      exact h.tree
    · exact fun other ho => absurd ho (hnone other)
  · obtain ⟨spot, hs, hgrows, hgone, herased, hwhich⟩ := hopen.deleteFile hdeleted
    rw [noteAt_of_spot hs, h.journal] at hjournal
    have hbefore : Grows (· = place) before.tree between.tree :=
      h.tree.mono fun other ho => ho.resolve_right (hnone other)
    refine ⟨deeds ++ [.deleted path spot.place], h.leads, by simpa using hjournal, ?_, ?_, ?_⟩
    · intro deed hdeed
      rcases List.mem_append.mp hdeed with hdeed | hdeed
      · exact h.kinds deed hdeed
      · exact Or.inr ⟨_, List.mem_singleton.mp hdeed⟩
    · refine (hbefore.mono fun _ => Or.inl).trans (hgrows.mono ?_)
      rintro other rfl
      simp
    · intro other ho
      have hother : other = spot.place := by simpa [hnone other] using ho
      subst hother
      refine ⟨hgone, herased, ?_⟩
      by_cases hsame : spot.place = place
      · exact Or.inl hsame
      · obtain ⟨target, hlink⟩ := hwhich.resolve_left hsame
        exact Or.inr ⟨target, hbefore.link hsame hlink⟩

/-- Writing a file does not open it and fails, or opens it. -/
theorem writeFile_cases (path : Path) (content : String) (disk : FaultyTree) :
    let run := writeFile (m := StateM FaultyTree) path content disk
    (∃ error, run.1 = .error error ∧ Builds disk run.2) ∨
      ∃ place deeds, Opened path place deeds disk run.2 := by
  simp only [writeFile, bind_apply]
  have hbuilds := builds_createParent path disk
  generalize createParent (m := StateM FaultyTree) path disk = parent at hbuilds ⊢
  obtain ⟨result, built⟩ := parent
  cases result with
  | error error => exact Or.inl ⟨error, rfl, hbuilds⟩
  | ok _ =>
    simp only [bind_apply]
    have hcreated := createFile_cases path built
    generalize Disk.createFile (m := StateM FaultyTree) path built = created at hcreated ⊢
    obtain ⟨result, created⟩ := created
    rcases hcreated with ⟨error, herror, hrests⟩ | ⟨place, hok, hopened, hopen⟩
    · obtain rfl : result = .error error := herror
      exact Or.inl ⟨error, rfl, IsTrans.trans _ _ _ hbuilds hrests.builds⟩
    · obtain rfl : result = .ok () := hok
      simp only [bind_apply]
      obtain ⟨deeds, hnone, hfilled, hopen⟩ := (hopened.of_builds hbuilds).fillFile hopen content
      generalize Disk.fillFile (m := StateM FaultyTree) path content created = filled
        at hfilled hopen ⊢
      obtain ⟨result, filled⟩ := filled
      cases result with
      | ok _ => exact Or.inr ⟨place, deeds, hfilled⟩
      | error error =>
        -- A file with half its text is deleted again, and that may fail, too.
        obtain ⟨deeds, hdeleted⟩ := hfilled.deleteFile hnone hopen
        exact Or.inr ⟨place, deeds, hdeleted⟩

end FaultyTree

end JavaStubs.Files
