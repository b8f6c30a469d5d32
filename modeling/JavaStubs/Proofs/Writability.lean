import JavaStubs.Proofs.DirectoryPlaces

/-!
# When a file can be written

In a tree without symbolic links a file can be written exactly if the way to it is clear, its own
place is not on the way, and there stands nothing or a file. So it only matters what stands at these
few places. The file is touched only if its place is not on the way.
-/
namespace JavaStubs

namespace Files.FileTree

open JavaStubs.Path (IsName)

variable {tree : FileTree} {home : Place} {path : Path}

/-- A file can be written: the way to it is clear, and its own place is not on the way and holds at
most a file. -/
structure Writable (tree : FileTree) (path : Path) : Prop where
  usable : Usable path
  clear : tree.Clear tree.workingDirectory path.components.dropLast
  short : ∀ name, .name name ∈ path.components → name.utf8ByteSize ≤ nameLimit
  apart : tree.placeOf path ∉ visited tree.workingDirectory path.components.dropLast
  target : tree.entry? (tree.placeOf path) = none ∨
    ∃ bytes, tree.entry? (tree.placeOf path) = some (.file bytes)

section

variable (hplain : tree.Plain) (hhome : tree.entry? tree.workingDirectory = some .directory)

include hplain hhome

/-- Where the directory of a path could be made, the path can be followed up to it. -/
theorem passable_of_createParent (h : (createParent (m := StateM FileTree) path tree).1 = .ok ()) :
    (createParent (m := StateM FileTree) path tree).2.Passable tree.workingDirectory
      path.components.dropLast := by
  unfold createParent at h ⊢
  rcases Path.components_parent? path with ⟨hnone, hfirst⟩ | ⟨parent, hsome, hfront⟩
  · rw [hfirst]
    exact passable_nil
  · rw [hsome] at h ⊢
    rw [← hfront]
    exact passable_of_createDirectories hplain hhome h

theorem createParent_of_clear (husable : Usable path)
    (hclear : tree.Clear tree.workingDirectory path.components.dropLast) :
    (createParent (m := StateM FileTree) path tree).1 = .ok () := by
  unfold createParent
  rcases Path.components_parent? path with ⟨hnone, -⟩ | ⟨parent, hsome, hfront⟩
  · rw [hnone]
    rfl
  · obtain ⟨start, body, rfl, -⟩ := Path.parent?_eq_some hsome
    rw [hsome]
    exact createDirectories_of_clear hplain hhome (Path.trimmed_ofLead start body)
      (husable.of_parent hsome) (hfront ▸ hclear)

variable {front : List String} {name : String} (hname : IsName name)
  (hpath : path.pieces = front ++ [name])

include hname hpath

/-- Where the directory of a path is there, and at most a file at its end, the file can be opened
and filled. -/
theorem open_of_reaches (hreaches : tree.Reaches path)
    (htarget : tree.entry? (tree.placeOf path) = none ∨
      ∃ bytes, tree.entry? (tree.placeOf path) = some (.file bytes)) (bytes : ByteArray) :
    ∃ made after, tree.createFile path = .ok made ∧ made.fillBytes path bytes = .ok after := by
  have hspot : ∀ follow, tree.spot follow path =
      .ok ⟨reach tree.workingDirectory path.components.dropLast, .name name, false⟩ :=
    fun follow => (spot_concat_iff hplain.linkFree hname hpath).mpr ⟨hreaches, rfl⟩
  have hfile : ∀ follow, tree.fileSpot follow path =
      .ok ⟨reach tree.workingDirectory path.components.dropLast, .name name, false⟩ :=
    fun follow => bind_eq_ok.mpr ⟨_, hspot follow, rfl⟩
  have hplace : tree.placeOf path = _ := placeOf_concat hname hpath
  obtain ⟨-, hne, hparent⟩ := hplain.spot_of_name hhome (hspot true) rfl
  change reach tree.workingDirectory path.components.dropLast ++ [name] ≠ [] at hne
  change tree.entry? (reach tree.workingDirectory path.components.dropLast ++ [name]).dropLast =
    some .directory at hparent
  rw [← hplace] at hne hparent
  have hcreate : tree.createFile path =
      .ok (tree.put (tree.placeOf path) (.file ByteArray.empty)) := by
    unfold createFile
    rw [hfile, hfile, hplace]
    rcases htarget with hnone | ⟨old, hold⟩
    · rw [hplace] at hnone
      simp [Bind.bind, Except.bind, Spot.place, hnone]
    · rw [hplace] at hold
      simp [Bind.bind, Except.bind, Spot.place, hold]
  have hfree : tree.entry? (tree.placeOf path) ≠ some .directory := by
    rcases htarget with hnone | ⟨old, hold⟩
    · simp [hnone]
    · simp [hold]
  obtain ⟨hplain', hgrows⟩ := plain_put hplain hne hparent (.file ByteArray.empty) (by simp) hfree
  have hfound : (tree.put (tree.placeOf path) (.file ByteArray.empty)).find path =
      .ok (tree.placeOf path, .file ByteArray.empty) := by
    refine (find_concat_iff hplain'.linkFree hname hpath).mpr ⟨hgrows.reaches hreaches, ?_, ?_⟩
    · rw [hgrows.placeOf]
    · rw [entry?_put tree hne, if_pos rfl]
  exact ⟨_, _, hcreate, bind_eq_ok.mpr ⟨_, hfound, rfl⟩⟩

/-- Before a file that can be written was opened, its place held at most a file. -/
theorem target_of_writeFile {content : String} (hcontent : content ≠ "")
    (hok : (writeFile (m := StateM FileTree) path content tree).1 = .ok ()) :
    tree.entry? (tree.placeOf path) = none ∨
      ∃ bytes, tree.entry? (tree.placeOf path) = some (.file bytes) := by
  obtain ⟨made, hmade, hfilled⟩ := writeFile_eq_ok hok
  obtain ⟨hbuilt, hgrows⟩ := confined_createParent path tree hplain rfl hhome
  have hhome' := hgrows.home_directory hhome
  generalize (createParent (m := StateM FileTree) path tree).2 = built
    at hmade hbuilt hgrows hhome'
  obtain ⟨spot, last, hs, -, hfree, hdevice⟩ := createFile_eq_ok hmade
  have hplace : spot.place = tree.placeOf path := by
    rw [(hbuilt.spot hhome' hs).1, hgrows.placeOf]
  rw [hplace] at hfree hdevice
  have hnodevice : built.entry? (tree.placeOf path) ≠ some .fullDevice := by
    intro hentry
    obtain ⟨-, rfl⟩ := hdevice.resolve_right fun hother => hother.1 hentry
    rcases fillBytes_eq_ok hfilled with ⟨place, old, hfound, -⟩ | ⟨-, -, hempty, -⟩
    · obtain ⟨-, rfl, hfile⟩ := (find_concat_iff hbuilt.linkFree hname hpath).mp hfound
      rw [hgrows.placeOf, hentry] at hfile
      cases hfile
    · exact hcontent (String.utf8ByteSize_eq_zero_iff.mp (by simpa [ByteArray.isEmpty] using hempty))
  rcases hgrows.untouched (tree.placeOf path) (by simp) with hsame | ⟨-, hdirectory⟩
  · rw [← hsame]
    cases hentry : built.entry? (tree.placeOf path) with
    | none => exact Or.inl rfl
    | some entry =>
      cases entry with
      | file bytes => exact Or.inr ⟨bytes, rfl⟩
      | directory => exact absurd hentry hfree
      | link target => exact absurd hentry (hbuilt.linkFree _ target)
      | fullDevice => exact absurd hentry hnodevice
  · exact absurd hdirectory hfree

theorem writable_of_writeFile {content : String} (hcontent : content ≠ "")
    (hok : (writeFile (m := StateM FileTree) path content tree).1 = .ok ()) :
    tree.Writable path := by
  have hfound := find_of_writeFile hplain hhome hname hpath hcontent hok
  obtain ⟨hafter, hgrows⟩ := confined_writeFile path content tree hplain rfl hhome
  obtain ⟨hreaches, -, hfile⟩ := (find_concat_iff hafter.linkFree hname hpath).mp hfound
  have hpassable := hreaches.passable
  rw [hgrows.workingDirectory] at hpassable
  have hapart : tree.placeOf path ∉ visited tree.workingDirectory path.components.dropLast := by
    intro hvisited
    rw [hpassable.directories _ hvisited] at hfile
    cases hfile
  refine ⟨hreaches.usable, ⟨fun place hp => ?_, hpassable.short⟩, hreaches.short, hapart,
    target_of_writeFile hplain hhome hname hpath hcontent hok⟩
  have hother : place ≠ tree.placeOf path := by
    rintro rfl
    exact hapart hp
  rcases hgrows.untouched place hother with hsame | ⟨hnone, -⟩
  · exact Or.inr (hsame ▸ hpassable.directories place hp)
  · exact Or.inl hnone

theorem writeFile_of_writable (h : tree.Writable path) (content : String) :
    (writeFile (m := StateM FileTree) path content tree).1 = .ok () := by
  have hparent := createParent_of_clear hplain hhome h.usable h.clear
  have hpassable := passable_of_createParent hplain hhome hparent
  obtain ⟨hbuilt, hgrows⟩ := confined_createParent path tree hplain rfl hhome
  have hfounds := founds_createParent path tree hplain rfl hhome (tree.placeOf path)
  have hhome' := hgrows.home_directory hhome
  unfold writeFile
  simp only [bind_apply]
  generalize createParent (m := StateM FileTree) path tree = parent
    at hparent hpassable hbuilt hgrows hfounds hhome' ⊢
  obtain ⟨result, built⟩ := parent
  obtain rfl : result = .ok () := hparent
  have htarget : built.entry? (built.placeOf path) = none ∨
      ∃ bytes, built.entry? (built.placeOf path) = some (.file bytes) := by
    rw [hgrows.placeOf]
    rcases hgrows.untouched (tree.placeOf path) (by simp) with hsame | ⟨hnone, hmade⟩
    · rw [hsame]
      exact h.target
    · rcases hfounds hmade with hdirectory | hvisited
      · simp [hnone] at hdirectory
      · exact absurd hvisited h.apart
  have hreaches : built.Reaches path :=
    ⟨h.usable, hgrows.workingDirectory ▸ hpassable, h.short⟩
  obtain ⟨made, after, hcreated, hfilled⟩ :=
    open_of_reaches hbuilt hhome' hname hpath hreaches htarget content.toUTF8
  have hcreated' : Disk.createFile (m := StateM FileTree) path built = (.ok (), made) :=
    change_of_eq_ok hcreated
  have hfilled' : Disk.fillFile (m := StateM FileTree) path content made = (.ok (), after) :=
    change_of_eq_ok hfilled
  simp only [bind_apply, hcreated', hfilled']
  rfl

/-- A file can be written exactly if it is writable. -/
theorem writeFile_iff {content : String} (hcontent : content ≠ "") :
    (writeFile (m := StateM FileTree) path content tree).1 = .ok () ↔ tree.Writable path :=
  ⟨writable_of_writeFile hplain hhome hname hpath hcontent,
    fun h => writeFile_of_writable hplain hhome hname hpath h content⟩

end

/-- Writing a file touches its place only if the path does not lead through it: where it does, a
directory stands there before the file would be opened. -/
theorem confined_writeFile_apart (path : Path) (content : String) :
    Confined home (fun place => place = reach home path.components ∧
        place ∉ visited home path.components.dropLast)
      (writeFile path content : StateM FileTree _) := by
  rintro tree hplain rfl hhome
  by_cases hvisited : reach tree.workingDirectory path.components ∈
      visited tree.workingDirectory path.components.dropLast
  · obtain ⟨hbuilt, hgrows⟩ := confined_createParent path tree hplain rfl hhome
    have hpassable : _ → _ := @passable_of_createParent tree path hplain hhome
    have hhome' := hgrows.home_directory hhome
    unfold writeFile
    simp only [bind_apply]
    generalize createParent (m := StateM FileTree) path tree = parent
      at hbuilt hgrows hpassable hhome' ⊢
    obtain ⟨result, built⟩ := parent
    cases result with
    | error error => exact ⟨hbuilt, hgrows.mono fun _ => False.elim⟩
    | ok _ =>
      have hdirectory := (hpassable rfl).directories _ hvisited
      have hcreated : ∃ error, Disk.createFile (m := StateM FileTree) path built =
          (.error error, built) := by
        cases hmade : built.createFile path with
        | error error => exact ⟨error, change_of_eq_error hmade⟩
        | ok made =>
          obtain ⟨spot, last, hs, -, hfree, -⟩ := createFile_eq_ok hmade
          rw [(hbuilt.spot hhome' hs).1, hgrows.placeOf] at hfree
          exact absurd hdirectory hfree
      obtain ⟨error, hcreated⟩ := hcreated
      simp only [bind_apply, hcreated]
      exact ⟨hbuilt, hgrows.mono fun _ => False.elim⟩
  · obtain ⟨hafter, hgrows⟩ := confined_writeFile path content tree hplain rfl hhome
    refine ⟨hafter, hgrows.mono ?_⟩
    rintro place rfl
    exact ⟨rfl, hvisited⟩

end Files.FileTree

end JavaStubs
