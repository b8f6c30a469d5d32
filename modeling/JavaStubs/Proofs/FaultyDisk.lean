import JavaStubs.Proofs.FileChanges

/-!
# Disks with faults

A file tree on a disk where any operation may fail, a text may be written in part only, and symbolic
links may stand anywhere. The disk keeps a journal of what was done to files: under which path and
at which place a file was opened, filled or deleted. Nothing happens to a file that the journal does
not account for. If writing a file fails, no other file has changed; nothing has changed at all if
the file was never opened, and it is gone if it could be deleted again.
-/
namespace JavaStubs.Files

/-- What goes wrong at one operation. -/
structure Fault where
  error : FileError
  /-- What a file holds whose filling breaks off. -/
  torn : ByteArray

/-- What was done to a file: the path that was used, and the place where the file stands. -/
inductive Deed where
  /-- It was made, or emptied. -/
  | opened (path : Path) (place : Place)
  | filled (path : Path) (place : Place)
  /-- It, or the link that stood at the place, was deleted. -/
  | deleted (path : Path) (place : Place)
  deriving DecidableEq

/-- The path under which it was done. -/
def Deed.path : Deed → Path
  | .opened path _ | .filled path _ | .deleted path _ => path

/-- The place at which it was done. -/
def Deed.place : Deed → Place
  | .opened _ place | .filled _ place | .deleted _ place => place

/-- A file tree on a disk with faults. -/
structure FaultyTree where
  tree : FileTree
  /-- What goes wrong at the operations to come, in order; where nothing is said they work. -/
  faults : List (Option Fault) := []
  /-- What was done to files so far. -/
  journal : List Deed := []

namespace FaultyTree

/-- What goes wrong at the operation that is due. -/
def nextFault : StateM FaultyTree (Option Fault) := fun disk =>
  (disk.faults.headD none, { disk with faults := disk.faults.tail })

/-- Runs an operation unless something goes wrong. -/
def unlessFault {α : Type} (operation : StateM FaultyTree (Outcome α)) :
    StateM FaultyTree (Outcome α) := do
  match ← nextFault with
  | some fault => return .error fault.error
  | none => operation

/-- The deed at the place that a path leads to. -/
def noteAt (tree : FileTree) (follow : Bool) (path : Path) (deed : Place → Deed) : List Deed :=
  match tree.spot follow path with
  | .ok spot => [deed spot.place]
  | .error _ => []

/-- Changes the tree and notes the deeds; a failure leaves everything as it was. -/
def change (operation : FileTree → Outcome FileTree) (note : FileTree → List Deed) :
    StateM FaultyTree (Outcome Unit) := fun disk =>
  match operation disk.tree with
  | .ok tree => (.ok (), { disk with tree, journal := disk.journal ++ note disk.tree })
  | .error error => (.error error, disk)

/-- Gives a file its bytes and notes it. -/
def fill (path : Path) (bytes : ByteArray) : StateM FaultyTree (Outcome Unit) :=
  change (·.fillBytes path bytes) fun tree => noteAt tree true path (.filled path)

/-- Deletes a directory if nothing is in it, which is not noted. -/
def deleteIfEmpty (path : Path) : StateM FaultyTree (Outcome Bool) := fun disk =>
  match disk.tree.deleteIfEmpty path with
  | .ok (deleted, tree) => (.ok deleted, { disk with tree })
  | .error error => (.error error, disk)

/-- Asks something of the tree. -/
def ask {α : Type} (question : FileTree → α) : StateM FaultyTree α := fun disk =>
  (question disk.tree, disk)

instance : Disk (StateM FaultyTree) where
  isPresent path := ask (·.isPresent path)
  isDirectory path := ask (·.isDirectory path)
  makeDirectory path := unlessFault <| change (·.makeDirectory path) fun _ => []
  createFile path := unlessFault <|
    change (·.createFile path) fun tree => noteAt tree true path (.opened path)
  fillFile path content := do
    match ← nextFault with
    | some fault =>
      let _ ← fill path fault.torn
      return .error fault.error
    | none => fill path content.toUTF8
  deleteFile path := unlessFault <|
    change (·.deleteFile path) fun tree => noteAt tree false path (.deleted path)
  deleteIfEmpty path := unlessFault <| deleteIfEmpty path
  readText path := ask (·.readText path)

end FaultyTree

namespace FileTree

variable {tree other : FileTree} {path : Path} {spot : Spot}

/-- The same files stand in two trees, except at some places. -/
def SameFiles (except : Place → Prop) (before after : FileTree) : Prop :=
  ∀ place, ¬ except place → ∀ bytes,
    after.entry? place = some (.file bytes) ↔ before.entry? place = some (.file bytes)

theorem SameFiles.refl (except : Place → Prop) (tree : FileTree) : SameFiles except tree tree :=
  fun _ _ _ => Iff.rfl

theorem SameFiles.trans {except : Place → Prop} {before between after : FileTree}
    (h : SameFiles except before between) (h' : SameFiles except between after) :
    SameFiles except before after :=
  fun place hp bytes => (h' place hp bytes).trans (h place hp bytes)

theorem SameFiles.mono {except except' : Place → Prop} {before after : FileTree}
    (h : SameFiles except before after) (hsub : ∀ place, except place → except' place) :
    SameFiles except' before after :=
  fun place hp => h place (mt (hsub place) hp)

theorem sameFiles_erase {place : Place} (hne : place ≠ []) :
    SameFiles (· = place) tree (tree.erase place) := by
  intro other ho bytes
  rw [entry?_erase tree hne, if_neg ho]

/-- A change at a place where no file stands before or after is none of a file. -/
theorem SameFiles.of_no_file {place : Place} (h : SameFiles (· = place) tree other)
    (hbefore : ∀ bytes, tree.entry? place ≠ some (.file bytes))
    (hafter : ∀ bytes, other.entry? place ≠ some (.file bytes)) :
    SameFiles (fun _ => False) tree other := by
  intro found _ bytes
  by_cases hfound : found = place
  · rw [hfound]
    exact ⟨fun h => absurd h (hafter bytes), fun h => absurd h (hbefore bytes)⟩
  · exact h found hfound bytes

/-- A path leads to the same place in a tree with the same links that has the directories of the
first one. -/
theorem walk_kept (hdirectories : ∀ place, tree.entry? place = some .directory →
      other.entry? place = some .directory)
    (hlinks : ∀ place target, other.entry? place = some (.link target) ↔
      tree.entry? place = some (.link target)) {follow : Bool} {links : Nat} {here : Place}
    {pieces : List String} (h : tree.walk follow links here pieces = .ok spot) :
    other.walk follow links here pieces = .ok spot := by
  fun_induction FileTree.walk tree follow links here pieces
  all_goals grind [walk]

/-- Where no link stands at the end, it makes no difference whether it is followed. -/
theorem walk_follow {links : Nat} {here : Place} {pieces : List String}
    (h : tree.walk false links here pieces = .ok spot)
    (hlink : ∀ target, tree.entry? spot.place ≠ some (.link target)) :
    tree.walk true links here pieces = .ok spot := by
  fun_induction FileTree.walk tree false links here pieces
  all_goals grind [walk, Spot.place]

/-- When the end of a path was taken away the path leads to the same place, if anywhere: it may have
passed the place before, where a link stood. -/
theorem walk_erase {place : Place} (hne : place ≠ []) (hd : tree.entry? place ≠ some .directory)
    {links : Nat} {here : Place} {pieces : List String} {found : Spot} {name : String}
    (h : tree.walk false links here pieces = .ok spot) (hplace : spot.place = place)
    (hname : spot.last = .name name)
    (hfound : (tree.erase place).walk true links here pieces = .ok found) : found = spot := by
  have herased := entry?_erase tree hne
  fun_induction FileTree.walk tree false links here pieces
  all_goals grind [walk, Spot.place]

theorem spot_kept {follow : Bool} (hwork : other.workingDirectory = tree.workingDirectory)
    (hdirectories : ∀ place, tree.entry? place = some .directory →
      other.entry? place = some .directory)
    (hlinks : ∀ place target, other.entry? place = some (.link target) ↔
      tree.entry? place = some (.link target)) (h : tree.spot follow path = .ok spot) :
    other.spot follow path = .ok spot := by
  obtain ⟨husable, hw⟩ := spot_eq_ok_iff.mp h
  exact spot_eq_ok_iff.mpr ⟨husable, hwork ▸ walk_kept hdirectories hlinks hw⟩

theorem spot_follow (h : tree.spot false path = .ok spot)
    (hlink : ∀ target, tree.entry? spot.place ≠ some (.link target)) :
    tree.spot true path = .ok spot := by
  obtain ⟨husable, hw⟩ := spot_eq_ok_iff.mp h
  exact spot_eq_ok_iff.mpr ⟨husable, walk_follow hw hlink⟩

/-- A path to a file leads there still when the file has other bytes. -/
theorem spot_put_file {place : Place} (hne : place ≠ []) (bytes : ByteArray)
    (hd : tree.entry? place ≠ some .directory)
    (hlink : ∀ target, tree.entry? place ≠ some (.link target)) {follow : Bool}
    (h : tree.spot follow path = .ok spot) :
    (tree.put place (.file bytes)).spot follow path = .ok spot := by
  have hput := entry?_put tree hne (.file bytes)
  have hwork : (tree.put place (.file bytes)).workingDirectory = tree.workingDirectory := rfl
  refine spot_kept hwork (fun other ho => ?_) (fun other target => ?_) h
  · rw [hput, if_neg, ho]
    rintro rfl
    exact hd ho
  · rw [hput]
    split <;> rename_i heq
    · rw [heq]
      exact ⟨nofun, fun h => absurd h (hlink target)⟩
    · exact Iff.rfl

/-- A path that ended with a link or file leads nowhere when that was deleted. -/
theorem isPresent_erase {name : String} (h : tree.spot false path = .ok spot)
    (hname : spot.last = .name name) (hd : tree.entry? spot.place ≠ some .directory) :
    (tree.erase spot.place).isPresent path = false := by
  have hne : spot.place ≠ [] := by simp [place_of_last_name hname]
  obtain ⟨-, hw⟩ := spot_eq_ok_iff.mp h
  rw [isPresent]
  cases hfound : (tree.erase spot.place).find path with
  | error error => rfl
  | ok found =>
    obtain ⟨other, hother, hplace, hentry, -⟩ := find_eq_ok_iff.mp hfound
    obtain rfl := walk_erase hne hd hw rfl hname (spot_eq_ok_iff.mp hother).2
    rw [← hplace, entry?_erase tree hne, if_pos rfl] at hentry
    cases hentry

end FileTree

end JavaStubs.Files
