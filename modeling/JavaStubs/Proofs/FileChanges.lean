import JavaStubs.Proofs.FileWalk
import Mathlib.Data.List.Induction

/-!
# What writing a file changes

A computation on a tree is confined to some places if everywhere else it makes directories at most,
and if it keeps every directory. Writing a file is confined to the place of the file: the
directories on the way to it are made where nothing stands. After a file was written, its path leads
to its bytes, and where a path leads to a file already, writing it again succeeds.
-/
namespace JavaStubs.Files

section

variable {m : Type → Type} [Monad m] [Disk m] {P : {α : Type} → m α → Prop}
  (hpure : ∀ {α : Type} (a : α), P (pure a : m α))
  (hbind : ∀ {α β : Type} {x : m α} {f : α → m β}, P x → (∀ a, P (f a)) → P (x >>= f))
  (hask : ∀ path, P (Disk.isDirectory path : m Bool))
  (hmake : ∀ path, P (Disk.makeDirectory path : m (Outcome Unit)))

include hpure hbind hask hmake

/-- What holds of making one directory, and of computations one after the other, holds of making
those that a directory lies in, too: induction over the path, since its parent is shorter. -/
theorem createDirectories_induction (path : Path) :
    P (createDirectories path : m (Outcome Unit)) := by
  have hunless : ∀ path error, P (unlessDirectory path error : m (Outcome Unit)) := by
    intro path error
    refine hbind (hask path) fun present => ?_
    split
    · exact hpure _
    · exact hpure _
  induction hlength : path.components.length using Nat.strongRecOn generalizing path with
  | ind length ih =>
    rw [createDirectories]
    split
    · exact hpure _
    · refine hbind (hmake path) fun made => ?_
      split
      · exact hpure _
      · split
        · exact hpure _
        · rename_i parent hparent
          have hshorter := Path.length_components_of_parent? hparent
          refine hbind (ih _ (hlength ▸ hshorter) parent rfl) fun created => ?_
          split
          · exact hpure _
          · refine hbind (hmake path) fun made => ?_
            split
            · exact hpure _
            · exact hunless path _
      · exact hunless path _

theorem createParent_induction (path : Path) : P (createParent path : m (Outcome Unit)) := by
  unfold createParent
  split
  · exact createDirectories_induction hpure hbind hask hmake _
  · exact hpure _

end

end JavaStubs.Files

namespace JavaStubs.Files.FileTree

open JavaStubs.Path (IsName component?)

theorem bind_apply {α β : Type} (x : StateM FileTree α) (f : α → StateM FileTree β)
    (tree : FileTree) : (x >>= f) tree = f (x tree).1 (x tree).2 := rfl

theorem pure_apply {α : Type} (a : α) (tree : FileTree) :
    (pure a : StateM FileTree α) tree = (a, tree) := rfl

theorem entry?_put (tree : FileTree) {place : Place} (h : place ≠ []) (entry : Entry)
    (other : Place) :
    entry? (tree.put place entry) other =
      if other = place then some entry else tree.entry? other := by
  unfold entry? put
  by_cases hroot : other = []
  · rw [if_pos hroot, if_neg (hroot ▸ h.symm), if_pos hroot]
  · rw [if_neg hroot, Table.get?_put, if_neg hroot]

theorem entry?_erase (tree : FileTree) {place : Place} (h : place ≠ []) (other : Place) :
    entry? (tree.erase place) other = if other = place then none else tree.entry? other := by
  unfold entry? erase
  by_cases hroot : other = []
  · rw [if_pos hroot, if_neg (hroot ▸ h.symm), if_pos hroot]
  · rw [if_neg hroot, Table.get?_erase, if_neg hroot]

/-- A tree without symbolic links in which every entry stands in a directory. -/
structure Plain (tree : FileTree) : Prop where
  linkFree : tree.LinkFree
  closed : ∀ place entry, tree.entry? place = some entry →
    tree.entry? place.dropLast = some .directory

variable {tree before between after : FileTree} {home : Place}

theorem Plain.of_append (h : tree.Plain) {front rest : Place} (hne : rest ≠ []) {entry : Entry}
    (he : tree.entry? (front ++ rest) = some entry) : tree.entry? front = some .directory := by
  induction rest using List.reverseRecOn generalizing entry with
  | nil => exact absurd rfl hne
  | append_singleton rest last ih =>
    have hparent := h.closed _ _ he
    rw [← List.append_assoc, List.dropLast_concat] at hparent
    by_cases hrest : rest = []
    · rwa [hrest, List.append_nil] at hparent
    · exact ih hrest hparent

/-- Components that can be followed from a directory lead to a directory. -/
theorem Plain.reach (h : tree.Plain) {here : Place} (hhere : tree.entry? here = some .directory)
    {components : List Component} (hp : tree.Passable here components) :
    tree.entry? (reach here components) = some .directory := by
  induction components generalizing here with
  | nil => exact hhere
  | cons component rest ih =>
    cases component with
    | root => exact ih rfl ((passable_cons_sign (by simp)).mp hp)
    | here => exact ih hhere ((passable_cons_sign (by simp)).mp hp)
    | up => exact ih (h.closed _ _ hhere) (passable_cons_up.mp hp)
    | name name =>
      obtain ⟨-, hdirectory, hrest⟩ := passable_cons_name.mp hp
      exact ih hdirectory hrest

theorem Plain.spot (h : tree.Plain)
    (hhome : tree.entry? tree.workingDirectory = some .directory) {follow : Bool} {path : Path}
    {spot : Spot} (hs : tree.spot follow path = .ok spot) :
    spot.place = tree.placeOf path ∧ tree.entry? spot.directory = some .directory := by
  obtain ⟨-, hw⟩ := spot_eq_ok_iff.mp hs
  obtain ⟨hplace, -, passed, hpassed, hdirectory⟩ := walk_sound h.linkFree hw
  have hstart : tree.entry? (setOut tree.workingDirectory path).1 = some .directory := by
    unfold setOut
    split
    · rfl
    · exact hhome
  exact ⟨by rw [hplace, placeOf, (setOut_eq tree _ path).1],
    hdirectory ▸ h.reach hstart hpassed⟩

/-- The place of a spot with a name is in the directory of the spot. -/
theorem place_of_last_name {spot : Spot} {name : String} (h : spot.last = .name name) :
    spot.place = spot.directory ++ [name] := by
  rw [Spot.place, h]

/-- One tree becomes another one: it keeps its directories, and at places that are not touched only
directories are made. -/
structure Grows (touched : Place → Prop) (before after : FileTree) : Prop where
  workingDirectory : after.workingDirectory = before.workingDirectory
  directories : ∀ place, before.entry? place = some .directory →
    after.entry? place = some .directory
  untouched : ∀ place, ¬ touched place → after.entry? place = before.entry? place ∨
    before.entry? place = none ∧ after.entry? place = some .directory

namespace Grows

variable {touched : Place → Prop}

theorem refl (touched : Place → Prop) (tree : FileTree) : Grows touched tree tree :=
  ⟨rfl, fun _ h => h, fun _ _ => Or.inl rfl⟩

theorem trans (h : Grows touched before between) (h' : Grows touched between after) :
    Grows touched before after := by
  refine ⟨h'.workingDirectory.trans h.workingDirectory,
    fun place hp => h'.directories place (h.directories place hp), fun place hp => ?_⟩
  rcases h.untouched place hp with hsame | ⟨hnone, hmade⟩
  · rw [← hsame]
    exact h'.untouched place hp
  · exact Or.inr ⟨hnone, h'.directories place hmade⟩

theorem mono {touched' : Place → Prop} (h : Grows touched before after)
    (hsub : ∀ place, touched place → touched' place) : Grows touched' before after :=
  ⟨h.workingDirectory, h.directories, fun place hp => h.untouched place (mt (hsub place) hp)⟩

/-- The working directory is still a directory. -/
theorem home_directory (h : Grows touched before after)
    (hhome : before.entry? before.workingDirectory = some .directory) :
    after.entry? after.workingDirectory = some .directory := by
  rw [h.workingDirectory]
  exact h.directories _ hhome

/-- What stands at an untouched place stays. -/
theorem keeps (h : Grows touched before after) {place : Place} (hp : ¬ touched place)
    {entry : Entry} (he : before.entry? place = some entry) : after.entry? place = some entry := by
  rcases h.untouched place hp with hsame | ⟨hnone, -⟩
  · rw [hsame, he]
  · simp [hnone] at he

theorem placeOf (h : Grows touched before after) (path : Path) :
    after.placeOf path = before.placeOf path := by
  rw [FileTree.placeOf, FileTree.placeOf, h.workingDirectory]

/-- A path whose directory could be reached before can still be followed. -/
theorem reaches (h : Grows touched before after) {path : Path} (hr : before.Reaches path) :
    after.Reaches path :=
  ⟨hr.usable, h.workingDirectory ▸ hr.passable.of_directories fun place _ => h.directories place,
    hr.short⟩

/-- A path that led to an untouched place still leads to what stands there. -/
theorem find_keeps (h : Grows touched before after) (hbefore : before.LinkFree)
    (hafter : after.LinkFree) {path : Path} {front : List String} {name : String}
    (hname : IsName name) (hpath : path.pieces = front ++ [name]) {place : Place} {entry : Entry}
    (hfound : before.find path = .ok (place, entry)) (hp : ¬ touched place) :
    after.find path = .ok (place, entry) := by
  obtain ⟨hreaches, rfl, hentry⟩ := (find_concat_iff hbefore hname hpath).mp hfound
  exact (find_concat_iff hafter hname hpath).mpr
    ⟨h.reaches hreaches, (h.placeOf path).symm, h.keeps hp hentry⟩

end Grows

/-- A computation that keeps trees plain and, with that working directory, touches only those
places. -/
def Confined (home : Place) (touched : Place → Prop) {α : Type} (x : StateM FileTree α) : Prop :=
  ∀ tree : FileTree, tree.Plain → tree.workingDirectory = home →
    tree.entry? home = some .directory → (x tree).2.Plain ∧ Grows touched tree (x tree).2

namespace Confined

variable {touched : Place → Prop} {α β : Type}

theorem pure (a : α) : Confined home touched (Pure.pure a : StateM FileTree α) :=
  fun tree hplain _ _ => ⟨hplain, Grows.refl touched tree⟩

theorem ask (question : FileTree → α) : Confined home touched (FileTree.ask question) :=
  fun tree hplain _ _ => ⟨hplain, Grows.refl touched tree⟩

theorem bind {x : StateM FileTree α} {f : α → StateM FileTree β} (hx : Confined home touched x)
    (hf : ∀ a, Confined home touched (f a)) : Confined home touched (x >>= f) := by
  intro tree hplain hwork hhome
  obtain ⟨hplain', hgrows⟩ := hx tree hplain hwork hhome
  obtain ⟨hplain'', hgrows'⟩ := hf (x tree).1 (x tree).2 hplain'
    (hgrows.workingDirectory.trans hwork) (hgrows.directories _ hhome)
  exact ⟨hplain'', hgrows.trans hgrows'⟩

theorem mono {touched' : Place → Prop} {x : StateM FileTree α} (h : Confined home touched x)
    (hsub : ∀ place, touched place → touched' place) : Confined home touched' x :=
  fun tree hplain hwork hhome =>
    (h tree hplain hwork hhome).imp_right fun hgrows => hgrows.mono hsub

/-- A change is confined if what it does to a tree is. -/
theorem change {operation : FileTree → Outcome FileTree}
    (h : ∀ before after, operation before = .ok after → before.Plain →
      before.workingDirectory = home → before.entry? home = some .directory →
      after.Plain ∧ Grows touched before after) :
    Confined home touched (FileTree.change operation) := by
  intro tree hplain hwork hhome
  unfold FileTree.change
  cases hop : operation tree with
  | error error => exact ⟨hplain, Grows.refl touched tree⟩
  | ok changed => exact h tree changed hop hplain hwork hhome

end Confined

/-- An entry other than a link can be put into a directory where no directory stands. -/
theorem plain_put (h : tree.Plain) {place : Place} (hne : place ≠ [])
    (hd : tree.entry? place.dropLast = some .directory) (entry : Entry)
    (hlink : ∀ target, entry ≠ .link target) (hfree : tree.entry? place ≠ some .directory) :
    (tree.put place entry).Plain ∧ Grows (· = place) tree (tree.put place entry) := by
  have hother : ∀ other, tree.entry? other = some .directory → other ≠ place := by
    rintro other ho rfl
    exact hfree ho
  refine ⟨⟨?_, ?_⟩, rfl, ?_, ?_⟩
  · intro other target
    rw [entry?_put tree hne]
    split
    · exact fun heq => hlink target (Option.some.inj heq)
    · exact h.linkFree other target
  · intro other found
    rw [entry?_put tree hne, entry?_put tree hne]
    split <;> rename_i hplace
    · rintro -
      rw [hplace, if_neg (hother _ hd), hd]
    · intro hfound
      have hparent := h.closed other found hfound
      rw [if_neg (hother _ hparent), hparent]
  · intro other ho
    rw [entry?_put tree hne, if_neg (hother _ ho), ho]
  · intro other ho
    exact Or.inl (by rw [entry?_put tree hne, if_neg ho])

/-- A tree without entries is plain. -/
theorem plain_empty (home : Place) : (⟨Table.empty, home⟩ : FileTree).Plain := by
  have hentry : ∀ place entry, entry? ⟨Table.empty, home⟩ place = some entry →
      place = [] ∧ entry = .directory := by
    intro place entry he
    unfold entry? at he
    split at he <;> rename_i hplace
    · exact ⟨hplace, (Option.some.inj he).symm⟩
    · simp at he
  refine ⟨fun place target he => ?_, fun place entry he => ?_⟩
  · exact Entry.noConfusion (hentry place _ he).2
  · rw [(hentry place entry he).1]
    rfl

/-- What is no directory can be taken away. -/
theorem plain_erase (h : tree.Plain) {place : Place} (hne : place ≠ [])
    (hfree : tree.entry? place ≠ some .directory) :
    (tree.erase place).Plain ∧ Grows (· = place) tree (tree.erase place) := by
  have hother : ∀ other, tree.entry? other = some .directory → other ≠ place := by
    rintro other ho rfl
    exact hfree ho
  refine ⟨⟨?_, ?_⟩, rfl, ?_, ?_⟩
  · intro other target
    rw [entry?_erase tree hne]
    split
    · simp
    · exact h.linkFree other target
  · intro other found
    rw [entry?_erase tree hne, entry?_erase tree hne]
    split
    · simp
    · intro hfound
      have hparent := h.closed other found hfound
      rw [if_neg (hother _ hparent), hparent]
  · intro other ho
    rw [entry?_erase tree hne, if_neg (hother _ ho), ho]
  · intro other ho
    exact Or.inl (by rw [entry?_erase tree hne, if_neg ho])

theorem bind_eq_ok {α β : Type} {x : Outcome α} {f : α → Outcome β} {b : β} :
    x >>= f = .ok b ↔ ∃ a, x = .ok a ∧ f a = .ok b := by
  cases x with
  | error error => exact ⟨nofun, nofun⟩
  | ok a => exact ⟨fun h => ⟨a, rfl, h⟩, fun ⟨_, ha, h⟩ => Except.ok.inj ha ▸ h⟩

theorem vacantPlace_eq_ok {path : Path} {place : Place} (h : tree.vacantPlace path = .ok place) :
    ∃ spot name, tree.spot false path = .ok spot ∧ spot.last = .name name ∧
      spot.place = place ∧ tree.entry? place = none := by
  obtain ⟨spot, hs, hspot⟩ := bind_eq_ok.mp h
  split at hspot
  · rename_i name hname
    split at hspot
    · cases hspot
    · rename_i hentry
      obtain rfl := Except.ok.inj hspot
      exact ⟨spot, name, hs, hname, rfl, hentry⟩
  · cases hspot

theorem fileSpot_eq_ok {follow : Bool} {path : Path} {spot : Spot}
    (h : tree.fileSpot follow path = .ok spot) :
    tree.spot follow path = .ok spot ∧ ∃ name, spot.last = .name name := by
  obtain ⟨found, hs, h⟩ := bind_eq_ok.mp h
  split at h
  · rename_i name hname hslash
    obtain rfl := Except.ok.inj h
    exact ⟨hs, name, hname⟩
  · cases h

theorem createFile_eq_ok {path : Path} (h : before.createFile path = .ok after) :
    ∃ spot name, before.spot true path = .ok spot ∧ spot.last = .name name ∧
      before.entry? spot.place ≠ some .directory ∧
      (before.entry? spot.place = some .fullDevice ∧ after = before ∨
        before.entry? spot.place ≠ some .fullDevice ∧
          after = before.put spot.place (.file ByteArray.empty)) := by
  obtain ⟨-, -, h⟩ := bind_eq_ok.mp h
  obtain ⟨spot, hfile, h⟩ := bind_eq_ok.mp h
  obtain ⟨hs, name, hname⟩ := fileSpot_eq_ok hfile
  refine ⟨spot, name, hs, hname, ?_⟩
  split at h
  · cases h
  · rename_i hentry
    obtain rfl := Except.ok.inj h
    exact ⟨by simp [hentry], Or.inl ⟨hentry, rfl⟩⟩
  · rename_i hdirectory hdevice
    obtain rfl := Except.ok.inj h
    exact ⟨hdirectory, Or.inr ⟨hdevice, rfl⟩⟩

theorem fillBytes_eq_ok {path : Path} {bytes : ByteArray}
    (h : before.fillBytes path bytes = .ok after) :
    (∃ place old, before.find path = .ok (place, .file old) ∧
      after = before.put place (.file bytes)) ∨
    (∃ place, before.find path = .ok (place, .fullDevice) ∧ bytes.isEmpty = true ∧
      after = before) := by
  obtain ⟨found, hfound, h⟩ := bind_eq_ok.mp h
  split at h
  · rename_i place old
    exact Or.inl ⟨place, old, hfound, (Except.ok.inj h).symm⟩
  · rename_i place
    split at h <;> rename_i hempty
    · exact Or.inr ⟨place, hfound, hempty, (Except.ok.inj h).symm⟩
    · cases h
  · cases h

theorem deleteFile_eq_ok {path : Path} (h : before.deleteFile path = .ok after) :
    ∃ spot name entry, before.spot false path = .ok spot ∧ spot.last = .name name ∧
      before.entry? spot.place = some entry ∧ entry ≠ .directory ∧
      after = before.erase spot.place := by
  obtain ⟨spot, hs, h⟩ := bind_eq_ok.mp h
  split at h
  · rename_i name hname
    split at h
    · cases h
    · cases h
    · rename_i entry hdirectory hentry
      split at h
      · cases h
      · exact ⟨spot, name, entry, hs, hname, hentry, hdirectory, (Except.ok.inj h).symm⟩
  · cases h

section

variable {path : Path}

/-- The place of a path that ends with a name is in a directory. -/
theorem Plain.spot_of_name (h : tree.Plain)
    (hhome : tree.entry? tree.workingDirectory = some .directory) {follow : Bool} {spot : Spot}
    {name : String} (hs : tree.spot follow path = .ok spot) (hname : spot.last = .name name) :
    spot.place = tree.placeOf path ∧ spot.place ≠ [] ∧
      tree.entry? spot.place.dropLast = some .directory := by
  obtain ⟨hplace, hdirectory⟩ := h.spot hhome hs
  refine ⟨hplace, ?_, ?_⟩
  · simp [place_of_last_name hname]
  · rw [place_of_last_name hname, List.dropLast_concat, hdirectory]

theorem confined_makeDirectory (path : Path) :
    Confined home (fun _ => False) (Disk.makeDirectory path : StateM FileTree _) := by
  apply Confined.change
  rintro before after hmade hplain rfl hhome
  obtain ⟨place, hvacant, h⟩ := bind_eq_ok.mp hmade
  obtain rfl := Except.ok.inj h
  obtain ⟨spot, name, hs, hname, rfl, hnone⟩ := vacantPlace_eq_ok hvacant
  obtain ⟨-, hne, hparent⟩ := hplain.spot_of_name hhome hs hname
  obtain ⟨hplain', hgrows⟩ :=
    plain_put hplain hne hparent .directory (by simp) (by simp [hnone])
  refine ⟨hplain', hgrows.workingDirectory, hgrows.directories, fun place _ => ?_⟩
  by_cases hplace : place = spot.place
  · rw [hplace, entry?_put before hne, if_pos rfl]
    exact Or.inr ⟨hnone, rfl⟩
  · exact hgrows.untouched place hplace

theorem confined_createFile (path : Path) :
    Confined home (· = reach home path.components)
      (Disk.createFile path : StateM FileTree _) := by
  apply Confined.change
  rintro before after hmade hplain rfl hhome
  obtain ⟨spot, name, hs, hname, hfree, ⟨-, rfl⟩ | ⟨-, rfl⟩⟩ := createFile_eq_ok hmade
  · exact ⟨hplain, Grows.refl _ _⟩
  · obtain ⟨hplace, hne, hparent⟩ := hplain.spot_of_name hhome hs hname
    rw [hplace] at hne hparent hfree ⊢
    exact plain_put hplain hne hparent _ (by simp) hfree

theorem confined_fillFile (path : Path) (content : String) :
    Confined home (· = reach home path.components)
      (Disk.fillFile path content : StateM FileTree _) := by
  apply Confined.change
  rintro before after hfilled hplain rfl hhome
  rcases fillBytes_eq_ok hfilled with ⟨place, old, hfound, rfl⟩ | ⟨-, -, -, rfl⟩
  · obtain ⟨spot, hs, rfl, hentry, -⟩ := find_eq_ok_iff.mp hfound
    obtain ⟨hplace, -⟩ := hplain.spot hhome hs
    have hne : spot.place ≠ [] := fun heq => by simp [heq, entry?] at hentry
    have hfree : before.entry? spot.place ≠ some .directory := by simp [hentry]
    have hparent := hplain.closed _ _ hentry
    rw [hplace] at hne hparent hfree ⊢
    exact plain_put hplain hne hparent _ (by simp) hfree
  · exact ⟨hplain, Grows.refl _ _⟩

theorem confined_deleteFile (path : Path) :
    Confined home (· = reach home path.components)
      (Disk.deleteFile path : StateM FileTree _) := by
  apply Confined.change
  rintro before after hdeleted hplain rfl hhome
  obtain ⟨spot, name, entry, hs, hname, hentry, hother, rfl⟩ := deleteFile_eq_ok hdeleted
  obtain ⟨hplace, hne, -⟩ := hplain.spot_of_name hhome hs hname
  have hfree : before.entry? spot.place ≠ some .directory := by
    simpa [hentry] using hother
  rw [hplace] at hne hfree ⊢
  exact plain_erase hplain hne hfree

/-- Making directories touches nothing. -/
theorem confined_createDirectories (path : Path) :
    Confined home (fun _ => False) (createDirectories path : StateM FileTree _) :=
  createDirectories_induction Confined.pure Confined.bind (fun _ => Confined.ask _)
    confined_makeDirectory path

theorem confined_createParent (path : Path) :
    Confined home (fun _ => False) (createParent path : StateM FileTree _) :=
  createParent_induction Confined.pure Confined.bind (fun _ => Confined.ask _)
    confined_makeDirectory path

/-- Writing a file touches only the place of the file. -/
theorem confined_writeFile (path : Path) (content : String) :
    Confined home (· = reach home path.components)
      (writeFile path content : StateM FileTree _) := by
  unfold writeFile
  refine ((confined_createParent path).mono (by simp)).bind fun parent => ?_
  split
  · exact Confined.pure _
  · refine (confined_createFile path).bind fun created => ?_
    split
    · exact Confined.pure _
    · refine (confined_fillFile path content).bind fun filled => ?_
      split
      · exact Confined.pure _
      · exact (confined_deleteFile path).bind fun _ => Confined.pure _

theorem change_eq_ok {operation : FileTree → Outcome FileTree}
    (h : (change operation tree).1 = .ok ()) : operation tree = .ok (change operation tree).2 := by
  unfold change at h ⊢
  cases hop : operation tree with
  | error error => simp [hop] at h
  | ok changed => rfl

theorem change_of_eq_error {operation : FileTree → Outcome FileTree} {error : FileError}
    (h : operation tree = .error error) : change operation tree = (.error error, tree) := by
  unfold change
  rw [h]

theorem change_of_eq_ok {operation : FileTree → Outcome FileTree}
    (h : operation before = .ok after) : change operation before = (.ok (), after) := by
  unfold change
  rw [h]

/-- A file that was written was made, in the tree with its directory, and then filled. -/
theorem writeFile_eq_ok {content : String}
    (h : (writeFile (m := StateM FileTree) path content tree).1 = .ok ()) :
    ∃ made, (createParent (m := StateM FileTree) path tree).2.createFile path = .ok made ∧
      made.fillBytes path content.toUTF8 =
        .ok (writeFile (m := StateM FileTree) path content tree).2 := by
  unfold writeFile at h ⊢
  simp only [bind_apply] at h ⊢
  cases hparent : (createParent (m := StateM FileTree) path tree).1 with
  | error error => simp [hparent, pure_apply] at h
  | ok _ =>
    simp only [hparent, bind_apply] at h ⊢
    cases hcreated : (Disk.createFile (m := StateM FileTree) path
        (createParent (m := StateM FileTree) path tree).2).1 with
    | error error => simp [hcreated, pure_apply] at h
    | ok _ =>
      refine ⟨_, change_eq_ok hcreated, ?_⟩
      simp only [hcreated, bind_apply] at h ⊢
      cases hfilled : (Disk.fillFile (m := StateM FileTree) path content
          (Disk.createFile (m := StateM FileTree) path
            (createParent (m := StateM FileTree) path tree).2).2).1 with
      | error error => simp [hfilled, bind_apply, pure_apply] at h
      | ok _ => exact change_eq_ok hfilled

/-- A file that was written holds its text. -/
theorem find_of_writeFile (h : tree.Plain)
    (hhome : tree.entry? tree.workingDirectory = some .directory) {front : List String}
    {name : String} (hname : IsName name) (hpath : path.pieces = front ++ [name])
    {content : String} (hcontent : content ≠ "")
    (hok : (writeFile (m := StateM FileTree) path content tree).1 = .ok ()) :
    (writeFile (m := StateM FileTree) path content tree).2.find path =
      .ok (tree.placeOf path, .file content.toUTF8) := by
  obtain ⟨made, hmade, hfilled⟩ := writeFile_eq_ok hok
  obtain ⟨hplain, hgrows⟩ := confined_createParent path tree h rfl hhome
  have hhome' : entry? (createParent (m := StateM FileTree) path tree).2 tree.workingDirectory =
      some .directory := hgrows.directories _ hhome
  obtain ⟨hplain', hgrows'⟩ :=
    confined_createFile path _ hplain hgrows.workingDirectory hhome'
  rw [show Disk.createFile (m := StateM FileTree) path _ = (.ok (), made) from
    change_of_eq_ok hmade] at hplain' hgrows'
  rcases fillBytes_eq_ok hfilled with ⟨place, old, hfound, hafter⟩ | ⟨-, -, hempty, -⟩
  · obtain ⟨hreaches, hplace, hentry⟩ := (find_concat_iff hplain'.linkFree hname hpath).mp hfound
    have hne : place ≠ [] := fun heq => by simp [heq, entry?] at hentry
    obtain ⟨hplain'', hgrows''⟩ := plain_put hplain' hne (hplain'.closed _ _ hentry)
      (.file content.toUTF8) (by simp) (by simp [hentry])
    rw [hafter]
    refine (find_concat_iff hplain''.linkFree hname hpath).mpr ⟨hgrows''.reaches hreaches, ?_, ?_⟩
    · rw [hgrows''.placeOf, hgrows'.placeOf, hgrows.placeOf]
    · rw [entry?_put made hne, if_pos]
      rw [hplace, hgrows'.placeOf, hgrows.placeOf]
  · refine absurd ?_ hcontent
    exact String.utf8ByteSize_eq_zero_iff.mp (by simpa [ByteArray.isEmpty] using hempty)

theorem readText_of_find {place : Place} {content : String}
    (hfound : tree.find path = .ok (place, .file content.toUTF8)) :
    tree.readText path = .ok content := by
  have htext : String.fromUTF8? content.toUTF8 = some content := dif_pos content.isValidUTF8
  refine bind_eq_ok.mpr ⟨_, hfound, ?_⟩
  simp only [htext]

/-- A path whose text is made of pieces of a usable path is usable, too. -/
theorem Usable.of_sublist {fewer : Path} (h : Usable path) (hsub : fewer.pieces.Sublist path.pieces)
    (hne : fewer.text ≠ "") : Usable fewer := by
  refine ⟨?_, hne, ?_⟩
  · have habsent := Text.absent_of_not_mem_join h.noNul
    exact Text.not_mem_join (by decide) fun piece hp => habsent piece (hsub.subset hp)
  · exact Nat.lt_of_le_of_lt (Text.utf8ByteSize_join_le_of_sublist "/" hsub) h.short

theorem makeDirectory_of_isDirectory (h : tree.Plain) (hd : tree.isDirectory path = true) :
    tree.makeDirectory path = .error .exists := by
  obtain ⟨husable, hpassable, hentry⟩ := (isDirectory_iff h.linkFree).mp hd
  rw [placeOf, (setOut_eq tree _ path).1] at hentry
  rw [(setOut_eq tree _ path).2] at hpassable
  obtain ⟨spot, hw⟩ :=
    walk_of_passable h.linkFree false linkLimit hpassable
  have hspot := spot_eq_ok_iff.mpr ⟨husable, hw⟩
  obtain ⟨hplace, -⟩ := walk_sound h.linkFree hw
  have hvacant : tree.vacantPlace path = .error .exists := by
    unfold vacantPlace
    rw [hspot]
    cases hlast : spot.last <;> simp [hlast, hplace, hentry, Bind.bind, Except.bind]
  unfold makeDirectory
  rw [hvacant]
  rfl

theorem createDirectories_of_isDirectory (h : tree.Plain) (hd : tree.isDirectory path = true) :
    createDirectories (m := StateM FileTree) path tree = (.ok (), tree) := by
  have hempty : path.isEmpty = false := by
    obtain ⟨husable, -⟩ := (isDirectory_iff h.linkFree).mp hd
    rw [Path.isEmpty, beq_eq_false_iff_ne]
    intro hpieces
    exact husable.nonempty (by rw [Path.text, hpieces, Text.join_singleton])
  have hmade : Disk.makeDirectory (m := StateM FileTree) path tree = (.error .exists, tree) :=
    change_of_eq_error (makeDirectory_of_isDirectory h hd)
  rw [createDirectories, hempty]
  simp only [Bool.false_eq_true, if_false, bind_apply, hmade]
  change (if tree.isDirectory path = true then pure (.ok ()) else pure (.error FileError.exists) :
    StateM FileTree (Outcome Unit)) tree = _
  rw [if_pos hd]
  rfl

theorem text_ne_empty_of_isEmpty {path : Path} (h : path.isEmpty = false)
    (hne : path.pieces ≠ []) : path.text ≠ "" := by
  intro htext
  rcases Text.join_eq_empty (by decide) htext with hpieces | hpieces
  · exact hne hpieces
  · simp [Path.isEmpty, hpieces] at h

/-- The directory of a usable path has a usable path, too, if it has one at all. -/
theorem Usable.of_parent {parent : Path} (h : Usable path) (hparent : path.parent? = some parent)
    (hempty : parent.isEmpty = false) : Usable parent := by
  obtain ⟨start, body, hfound, hsub⟩ := Path.parent?_eq_some hparent
  rcases Path.ofLead_cases start (Path.trimEnd body) with ⟨heq, hne⟩ | heq | heq
  · refine h.of_sublist ?_ (text_ne_empty_of_isEmpty hempty (by rw [hfound, heq]; exact hne))
    rw [hfound, heq]
    exact ((Path.trimEnd_isPrefix body).sublist.append_left _).trans hsub
  · rw [hfound, heq]
    exact ⟨by decide, by decide, by decide⟩
  · rw [hfound, heq] at hempty
    exact absurd hempty (by decide)

/-- Where a path leads to something, the directory that its last name stands in is there. -/
theorem createParent_of_find (h : tree.Plain)
    (hhome : tree.entry? tree.workingDirectory = some .directory) {front : List String}
    {name : String} (hname : IsName name) (hpath : path.pieces = front ++ [name])
    {place : Place} {entry : Entry} (hfound : tree.find path = .ok (place, entry)) :
    createParent (m := StateM FileTree) path tree = (.ok (), tree) := by
  obtain ⟨hreaches, rfl, hentry⟩ := (find_concat_iff h.linkFree hname hpath).mp hfound
  unfold createParent
  cases hparent : path.parent? with
  | none => rfl
  | some parent =>
    simp only
    by_cases hempty : parent.isEmpty = true
    · rw [createDirectories, if_pos hempty]
      rfl
    · apply createDirectories_of_isDirectory h
      obtain ⟨last, hcomponents⟩ := Path.components_of_parent? hparent
      have hfront : parent.components = path.components.dropLast := by
        rw [hcomponents, List.dropLast_concat]
      refine (isDirectory_iff h.linkFree).mpr
        ⟨hreaches.usable.of_parent hparent (Bool.eq_false_iff.mpr hempty), ?_, ?_⟩
      · rw [hfront]
        exact hreaches.passable
      · rw [placeOf, hfront]
        exact h.reach hhome hreaches.passable

theorem put_put (tree : FileTree) (place : Place) (first second : Entry) :
    (tree.put place first).put place second = tree.put place second := by
  simp [put, Table.put_put]

/-- Where a path leads to a file, writing it succeeds and changes nothing but the file. -/
theorem writeFile_of_find (h : tree.Plain)
    (hhome : tree.entry? tree.workingDirectory = some .directory) {front : List String}
    {name : String} (hname : IsName name) (hpath : path.pieces = front ++ [name])
    {place : Place} {old : ByteArray} (hfound : tree.find path = .ok (place, .file old))
    (content : String) : writeFile (m := StateM FileTree) path content tree =
      (.ok (), tree.put place (.file content.toUTF8)) := by
  obtain ⟨hreaches, hplace, hentry⟩ := (find_concat_iff h.linkFree hname hpath).mp hfound
  have hspot : ∀ follow, tree.spot follow path =
      .ok ⟨reach tree.workingDirectory path.components.dropLast, .name name, false⟩ :=
    fun follow => (spot_concat_iff h.linkFree hname hpath).mpr ⟨hreaches, rfl⟩
  have hsame :
      Spot.place ⟨reach tree.workingDirectory path.components.dropLast, .name name, false⟩ =
        place := by
    rw [hplace, placeOf_concat hname hpath]
    rfl
  have hfile : ∀ follow, tree.fileSpot follow path =
      .ok ⟨reach tree.workingDirectory path.components.dropLast, .name name, false⟩ :=
    fun follow => bind_eq_ok.mpr ⟨_, hspot follow, rfl⟩
  have hcreate : tree.createFile path = .ok (tree.put place (.file ByteArray.empty)) := by
    unfold createFile
    rw [hfile, hfile]
    simp [Bind.bind, Except.bind, hsame, hentry]
  have hne : place ≠ [] := fun heq => by simp [heq, entry?] at hentry
  obtain ⟨hplain, hgrows⟩ := plain_put h hne (h.closed _ _ hentry)
    (.file ByteArray.empty) (by simp) (by simp [hentry])
  have hmade : (tree.put place (.file ByteArray.empty)).find path =
      .ok (place, .file ByteArray.empty) := by
    refine (find_concat_iff hplain.linkFree hname hpath).mpr ⟨hgrows.reaches hreaches, ?_, ?_⟩
    · rw [hgrows.placeOf, hplace]
    · rw [entry?_put tree hne, if_pos rfl]
  have hfill : (tree.put place (.file ByteArray.empty)).fillBytes path content.toUTF8 =
      .ok (tree.put place (.file content.toUTF8)) := by
    rw [← put_put tree place (.file ByteArray.empty) (.file content.toUTF8)]
    exact bind_eq_ok.mpr ⟨_, hmade, rfl⟩
  have hcreated : Disk.createFile (m := StateM FileTree) path tree =
      (.ok (), tree.put place (.file ByteArray.empty)) := change_of_eq_ok hcreate
  have hfilled : Disk.fillFile (m := StateM FileTree) path content _ = _ := change_of_eq_ok hfill
  unfold writeFile
  simp only [bind_apply, createParent_of_find h hhome hname hpath hfound, hcreated, hfilled]
  rfl

end

end JavaStubs.Files.FileTree
