import JavaStubs.Proofs.FaultyWrites

/-!
# Files that are written repeatedly

Files are written one after the other on a tree in which symbolic links may stand. A write that
succeeds keeps all links, so a path leads to one place in all trees on the way: to the place of its
file. What stands there in the end was written last. So it makes no difference if some of the files
were written before, whatever they held.
-/
namespace JavaStubs.Files.FileTree

variable {tree other before between after : FileTree} {path : Path}

/-- Two trees have the same links and the same working directory. -/
structure SameLinks (before after : FileTree) : Prop where
  workingDirectory : after.workingDirectory = before.workingDirectory
  links : ∀ place target, after.entry? place = some (.link target) ↔
    before.entry? place = some (.link target)

namespace SameLinks

theorem refl (tree : FileTree) : SameLinks tree tree := ⟨rfl, fun _ _ => Iff.rfl⟩

theorem symm (h : SameLinks before after) : SameLinks after before :=
  ⟨h.workingDirectory.symm, fun place target => (h.links place target).symm⟩

theorem trans (h : SameLinks before between) (h' : SameLinks between after) :
    SameLinks before after :=
  ⟨h'.workingDirectory.trans h.workingDirectory,
    fun place target => (h'.links place target).trans (h.links place target)⟩

/-- A path that can be followed in two trees with the same links leads to one place. -/
theorem walk_eq (h : SameLinks tree other) {follow : Bool} {links : Nat} {here : Place}
    {pieces : List String} {spot found : Spot} (hs : tree.walk follow links here pieces = .ok spot)
    (hf : other.walk follow links here pieces = .ok found) : spot = found := by
  have hlinks := h.links
  fun_induction FileTree.walk tree follow links here pieces
  all_goals grind [walk]

theorem spot_eq (h : SameLinks tree other) {follow : Bool} {spot found : Spot}
    (hs : tree.spot follow path = .ok spot) (hf : other.spot follow path = .ok found) :
    spot = found := by
  obtain ⟨-, hs⟩ := spot_eq_ok_iff.mp hs
  obtain ⟨-, hf⟩ := spot_eq_ok_iff.mp hf
  exact h.walk_eq hs (h.workingDirectory ▸ hf)

end SameLinks

/-- Nothing is done to links where none stands at the places that are touched. -/
theorem Grows.sameLinks {touched : Place → Prop} (h : Grows touched before after)
    (hbefore : ∀ place, touched place → ∀ target, before.entry? place ≠ some (.link target))
    (hafter : ∀ place, touched place → ∀ target, after.entry? place ≠ some (.link target)) :
    SameLinks before after := by
  refine ⟨h.workingDirectory, fun place target => ?_⟩
  by_cases hp : touched place
  · exact ⟨fun he => absurd he (hafter place hp target),
      fun he => absurd he (hbefore place hp target)⟩
  · exact ⟨h.link hp, h.keeps hp⟩

theorem createParent_grows (path : Path) (tree : FileTree) :
    Grows (fun _ => False) tree (createParent (m := StateM FileTree) path tree).2 := by
  refine createParent_induction (m := StateM FileTree)
    (P := fun x => ∀ tree, Grows (fun _ => False) tree (x tree).2) ?_ ?_ ?_ ?_ path tree
  · exact fun _ tree => Grows.refl _ tree
  · exact fun hx hf tree => (hx tree).trans (hf _ _)
  · exact fun _ tree => Grows.refl _ tree
  · intro path tree
    cases hmade : tree.makeDirectory path with
    | error error =>
      rw [show Disk.makeDirectory (m := StateM FileTree) path tree = _ from
        change_of_eq_error hmade]
      exact Grows.refl _ tree
    | ok after =>
      rw [show Disk.makeDirectory (m := StateM FileTree) path tree = _ from change_of_eq_ok hmade]
      exact makeDirectory_grows hmade

/-- What was done by a write that succeeded: its path leads to a file with the text, and nothing
else happened to files or links. -/
structure Wrote (path : Path) (content : String) (place : Place) (before after : FileTree) :
    Prop where
  found : after.find path = .ok (place, .file content.toUTF8)
  directories : ∀ place, before.entry? place = some .directory →
    after.entry? place = some .directory
  links : SameLinks before after
  files : SameFiles (· = place) before after

theorem entry_of_find {place : Place} {entry : Entry} (h : tree.find path = .ok (place, entry)) :
    tree.entry? place = some entry := by
  obtain ⟨-, -, -, hentry, -⟩ := find_eq_ok_iff.mp h
  exact hentry

theorem wrote_of_writeFile {content : String} (hcontent : content ≠ "")
    (hok : (writeFile (m := StateM FileTree) path content tree).1 = .ok ()) :
    ∃ place, Wrote path content place tree
      (writeFile (m := StateM FileTree) path content tree).2 := by
  obtain ⟨made, hmade, hfilled⟩ := writeFile_eq_ok hok
  have hbuilt := createParent_grows path tree
  obtain ⟨spot, hs, hopen, hcreated⟩ := createFile_open hmade
  obtain ⟨hopen', hwritten⟩ := hopen.fillBytes hfilled
  generalize (writeFile (m := StateM FileTree) path content tree).2 = after at *
  generalize (createParent (m := StateM FileTree) path tree).2 = built at *
  have hgrows := hcreated.trans hwritten
  refine ⟨spot.place, ?_, fun place h => hgrows.directories place (hbuilt.directories place h),
    ?_, ?_⟩
  · rcases fillBytes_eq_ok hfilled with ⟨place, old, hfound, rfl⟩ | ⟨-, -, hempty, -⟩
    · obtain ⟨found, hf, rfl, -, hslash⟩ := find_eq_ok_iff.mp hfound
      obtain ⟨opened, ho, hplace⟩ := hopen.spot
      obtain rfl := Except.ok.inj (hf.symm.trans ho)
      rw [hplace]
      refine find_eq_ok_iff.mpr ⟨found, ?_, hplace, ?_, hslash⟩
      · exact spot_put_file hopen.ne_root _ hopen.no_directory hopen.no_link hf
      · rw [entry?_put made hopen.ne_root, if_pos rfl]
    · exact absurd (String.utf8ByteSize_eq_zero_iff.mp (by simpa [ByteArray.isEmpty] using hempty))
        hcontent
  · have hlink : ∀ target, built.entry? spot.place ≠ some (.link target) := by
      obtain ⟨found, name, hf, hname, -⟩ := createFile_eq_ok hmade
      obtain rfl := Except.ok.inj (hf.symm.trans hs)
      exact walk_follow_no_link (spot_eq_ok_iff.mp hs).2 hname
    refine (hbuilt.sameLinks (fun _ => False.elim) fun _ => False.elim).trans
      (hgrows.sameLinks ?_ ?_)
    · rintro place rfl
      exact hlink
    · rintro place rfl
      exact hopen'.no_link
  · exact ((hbuilt.mono fun _ => False.elim).trans hgrows).sameFiles

/-- Where a path leads to a file it leads to a file at that place afterwards. -/
theorem Wrote.find_kept {content : String} {place found : Place} {other : Path}
    (h : Wrote path content place before after) {bytes : ByteArray}
    (hfound : before.find other = .ok (found, .file bytes)) :
    ∃ bytes', after.find other = .ok (found, .file bytes') := by
  obtain ⟨spot, hs, hplace, hentry, hslash⟩ := find_eq_ok_iff.mp hfound
  have hs := spot_kept h.links.workingDirectory h.directories h.links.links hs
  by_cases hother : found = place
  · exact ⟨content.toUTF8, find_eq_ok_iff.mpr
      ⟨spot, hs, hplace, hother ▸ entry_of_find h.found, hslash⟩⟩
  · exact ⟨bytes, find_eq_ok_iff.mpr
      ⟨spot, hs, hplace, (h.files found hother bytes).mpr hentry, hslash⟩⟩

/-- In trees with the same links and files a path leads to the same file, if to anything. -/
theorem SameLinks.find_eq (hlinks : SameLinks tree other)
    (hfiles : SameFiles (fun _ => False) tree other) {place found : Place}
    {bytes bytes' : ByteArray} (h : tree.find path = .ok (place, .file bytes))
    (h' : other.find path = .ok (found, .file bytes')) :
    other.find path = .ok (place, .file bytes) := by
  obtain ⟨spot, hs, rfl, hentry, -⟩ := find_eq_ok_iff.mp h
  obtain ⟨spot', hs', rfl, hentry', -⟩ := find_eq_ok_iff.mp h'
  obtain rfl := hlinks.spot_eq hs hs'
  obtain rfl := Entry.file.inj (Option.some.inj
    (((hfiles _ not_false bytes).mpr hentry).symm.trans hentry'))
  exact h'

/-- A path leads to a place in some tree with the same links. -/
def LeadsTo (tree : FileTree) (path : Path) (place : Place) : Prop :=
  ∃ (other : FileTree) (spot : Spot), SameLinks tree other ∧ other.spot true path = .ok spot ∧
    spot.place = place

theorem LeadsTo.unique {place place' : Place} (h : tree.LeadsTo path place)
    (h' : tree.LeadsTo path place') : place = place' := by
  obtain ⟨first, spot, hfirst, hspot, rfl⟩ := h
  obtain ⟨second, found, hsecond, hfound, rfl⟩ := h'
  rw [(hfirst.symm.trans hsecond).spot_eq hspot hfound]

theorem LeadsTo.of_links {place : Place} (h : other.LeadsTo path place)
    (hlinks : SameLinks tree other) : tree.LeadsTo path place := by
  obtain ⟨found, spot, hfound, hspot⟩ := h
  exact ⟨found, spot, hlinks.trans hfound, hspot⟩

theorem Wrote.leadsTo {content : String} {place : Place}
    (h : Wrote path content place before after) : before.LeadsTo path place := by
  obtain ⟨spot, hs, hplace, -⟩ := find_eq_ok_iff.mp h.found
  exact ⟨after, spot, h.links, hs, hplace⟩

/-- Texts are written to files one after the other, and no write fails. -/
inductive Writes : List (Path × String) → FileTree → FileTree → Prop where
  | nil (tree : FileTree) : Writes [] tree tree
  | cons {path : Path} {content : String} {rest : List (Path × String)} {tree after : FileTree}
      (hok : (writeFile (m := StateM FileTree) path content tree).1 = .ok ())
      (hrest : Writes rest (writeFile (m := StateM FileTree) path content tree).2 after) :
      Writes ((path, content) :: rest) tree after

namespace Writes

variable {files earlier : List (Path × String)}

theorem append (h : Writes earlier before between) (h' : Writes files between after) :
    Writes (earlier ++ files) before after := by
  induction h with
  | nil tree => exact h'
  | cons hok _ ih => exact .cons hok (ih h')

theorem exists_between (h : Writes (earlier ++ files) before after) :
    ∃ between, Writes earlier before between ∧ Writes files between after := by
  induction earlier generalizing before with
  | nil => exact ⟨before, .nil before, h⟩
  | cons first rest ih =>
    cases h with
    | cons hok hrest =>
      obtain ⟨between, hearlier, hfiles⟩ := ih hrest
      exact ⟨between, .cons hok hearlier, hfiles⟩

/-- Writing changes files only where the paths lead. -/
theorem kept (h : Writes files before after) (hcontents : ∀ file ∈ files, file.2 ≠ "") :
    SameLinks before after ∧
      SameFiles (fun place => ∃ file ∈ files, before.LeadsTo file.1 place) before after := by
  induction h with
  | nil tree => exact ⟨.refl tree, .refl _ tree⟩
  | cons hok _ ih =>
    rw [List.forall_mem_cons] at hcontents
    obtain ⟨place, hwrote⟩ := wrote_of_writeFile hcontents.1 hok
    obtain ⟨hlinks, hfiles⟩ := ih hcontents.2
    refine ⟨hwrote.links.trans hlinks, (hwrote.files.mono ?_).trans (hfiles.mono ?_)⟩
    · rintro _ rfl
      exact ⟨_, List.mem_cons_self, hwrote.leadsTo⟩
    · rintro place ⟨file, hfile, hleads⟩
      exact ⟨file, List.mem_cons_of_mem _ hfile, hleads.of_links hwrote.links⟩

/-- A file that a path leads to is still there when files were written. -/
theorem find_kept (h : Writes files before after) (hcontents : ∀ file ∈ files, file.2 ≠ "")
    {bytes : ByteArray} {place : Place} (hfound : before.find path = .ok (place, .file bytes)) :
    ∃ bytes', after.find path = .ok (place, .file bytes') := by
  induction h generalizing bytes with
  | nil tree => exact ⟨bytes, hfound⟩
  | cons hok _ ih =>
    rw [List.forall_mem_cons] at hcontents
    obtain ⟨_, hwrote⟩ := wrote_of_writeFile hcontents.1 hok
    obtain ⟨bytes', hfound⟩ := hwrote.find_kept hfound
    exact ih hcontents.2 hfound

/-- The files that were written are there in the end. -/
theorem find (h : Writes files before after) (hcontents : ∀ file ∈ files, file.2 ≠ "") :
    ∀ file ∈ files, ∃ place bytes, after.find file.1 = .ok (place, .file bytes) := by
  induction h with
  | nil tree => simp
  | cons hok hrest ih =>
    rw [List.forall_mem_cons] at hcontents ⊢
    obtain ⟨place, hwrote⟩ := wrote_of_writeFile hcontents.1 hok
    exact ⟨⟨place, hrest.find_kept hcontents.2 hwrote.found⟩, ih hcontents.2⟩

/-- The same texts are written on two trees whose files differ only where they are written: then
the files are the same in the end. Induction over the texts, since each of them makes the two trees
agree at one more place. -/
theorem sameFiles {before' after' : FileTree} (h : Writes files before after)
    (h' : Writes files before' after') (hcontents : ∀ file ∈ files, file.2 ≠ "")
    (hlinks : SameLinks before before')
    (hfiles : SameFiles (fun place => ∃ file ∈ files, before.LeadsTo file.1 place)
      before before') : SameFiles (fun _ => False) after after' := by
  induction h generalizing before' with
  | nil tree =>
    cases h'
    exact hfiles.mono (by simp)
  | @cons path content rest tree after hok _ ih =>
    cases h' with
    | cons hok' hrest' =>
      rw [List.forall_mem_cons] at hcontents
      obtain ⟨place, hwrote⟩ := wrote_of_writeFile hcontents.1 hok
      obtain ⟨place', hwrote'⟩ := wrote_of_writeFile hcontents.1 hok'
      obtain rfl := hwrote.leadsTo.unique (hwrote'.leadsTo.of_links hlinks)
      refine ih hrest' hcontents.2 ((hwrote.links.symm.trans hlinks).trans hwrote'.links) ?_
      intro other ho bytes
      -- The trees agree at the place of this write from now on; where else they differ, one of the
      -- other paths leads.
      by_cases hplace : other = place
      · rw [hplace, entry_of_find hwrote.found, entry_of_find hwrote'.found]
      · rw [hwrote'.files other hplace, hwrote.files other hplace]
        refine hfiles other ?_ bytes
        rintro ⟨file, hfile, hleads⟩
        rcases List.mem_cons.mp hfile with rfl | hfile
        · exact hplace (hleads.unique hwrote.leadsTo)
        · exact ho ⟨file, hfile, hleads.of_links hwrote.links.symm⟩

/-- It makes no difference if files of the same paths were written before. -/
theorem sameFiles_again {again : FileTree} (h : Writes files before after)
    (hagain : Writes (earlier ++ files) before again)
    (hearlier : ∀ file ∈ earlier, ∃ other ∈ files, other.1 = file.1)
    (hcontents : ∀ file ∈ earlier ++ files, file.2 ≠ "") :
    SameFiles (fun _ => False) after again := by
  rw [List.forall_mem_append] at hcontents
  obtain ⟨between, hbefore, hfiles⟩ := hagain.exists_between
  obtain ⟨hlinks, hkept⟩ := hbefore.kept hcontents.1
  refine h.sameFiles hfiles hcontents.2 hlinks (hkept.mono ?_)
  rintro place ⟨file, hfile, hleads⟩
  obtain ⟨other, hother, hpath⟩ := hearlier file hfile
  exact ⟨other, hother, hpath ▸ hleads⟩

/-- Then the paths lead to the same files, too. -/
theorem find_again {again : FileTree} (h : Writes files before after)
    (hagain : Writes (earlier ++ files) before again)
    (hearlier : ∀ file ∈ earlier, ∃ other ∈ files, other.1 = file.1)
    (hcontents : ∀ file ∈ earlier ++ files, file.2 ≠ "") :
    ∀ file ∈ files, ∃ place bytes, after.find file.1 = .ok (place, .file bytes) ∧
      again.find file.1 = .ok (place, .file bytes) := by
  intro file hfile
  have hwritten := (List.forall_mem_append.mp hcontents).2
  obtain ⟨place, bytes, hfound⟩ := h.find hwritten file hfile
  obtain ⟨found, bytes', hfound'⟩ := hagain.find hcontents file (List.mem_append_right _ hfile)
  have hlinks : SameLinks after again :=
    (h.kept hwritten).1.symm.trans (hagain.kept hcontents).1
  have hfiles := h.sameFiles_again hagain hearlier hcontents
  exact ⟨place, bytes, hfound, hlinks.find_eq hfiles hfound hfound'⟩

end Writes

end JavaStubs.Files.FileTree
