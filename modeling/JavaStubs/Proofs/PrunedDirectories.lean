import JavaStubs.Proofs.LostEntries
import JavaStubs.Proofs.ClearWays

/-!
# Which directories are pruned

Deleting a directory below a base, and those it lies in while they are empty, takes the paths from
the directory upwards one after the other, as far as they are strictly below the base. Each of them
leads to an empty directory at that moment. The first one that has entries ends the run, and so does
a path that the system does not remove a directory by: one that ends in a single dot, or the root.
Nothing else in the tree changes.
-/
namespace JavaStubs

namespace Path

variable {path parent base : Path}

/-- A path, the path that it lies in, and so on. -/
def lineage (path : Path) : List Path :=
  path ::
    match _h : path.parent? with
    | some parent => parent.lineage
    | none => []
termination_by path.components.length
decreasing_by exact length_components_of_parent? ‹_›

theorem lineage_eq (path : Path) : path.lineage = path :: path.parent?.elim [] lineage := by
  rw [lineage]
  split <;> rename_i hparent <;> rw [hparent]
  · rfl
  · rfl

/-- Whether a path begins with a base and goes on after it. -/
def isBelow (path base : Path) : Bool := path.startsWith base && !path.same base

theorem isBelow_iff : path.isBelow base = true ↔
    ∃ rest, rest ≠ [] ∧ path.components = base.components ++ rest := by
  simp only [isBelow, startsWith, same, Bool.and_eq_true, List.isPrefixOf_iff_prefix,
    Bool.not_eq_true', beq_eq_false_iff_ne]
  constructor
  · rintro ⟨⟨rest, hrest⟩, hne⟩
    refine ⟨rest, ?_, hrest.symm⟩
    rintro rfl
    exact hne (by rw [← hrest, List.append_nil])
  · rintro ⟨rest, hne, hrest⟩
    exact ⟨⟨rest, hrest.symm⟩, by simpa [hrest] using hne⟩

theorem same_or_not_startsWith (path base : Path) :
    (path.same base || !path.startsWith base) = !path.isBelow base := by
  simp [isBelow, Bool.or_comm]

theorem isBelow_of_parent (hparent : path.parent? = some parent) (h : parent.isBelow base = true) :
    path.isBelow base = true := by
  obtain ⟨rest, hne, hrest⟩ := isBelow_iff.mp h
  obtain ⟨last, hlast⟩ := components_of_parent? hparent
  exact isBelow_iff.mpr ⟨rest ++ [last], by simp, by rw [hlast, hrest, List.append_assoc]⟩

theorem isEmpty_of_isBelow (h : path.isBelow base = true) : path.isEmpty = false := by
  rw [Bool.eq_false_iff]
  intro hempty
  obtain ⟨rest, hne, hrest⟩ := isBelow_iff.mp h
  rw [components_of_isEmpty hempty] at hrest
  exact hne (List.append_eq_nil_iff.mp hrest.symm).2

/-- The paths from a directory upwards that are strictly below a base. -/
def lineageBelow (path base : Path) : List Path := path.lineage.filter fun p => p.isBelow base

/-- What is not below a base does not lie in anything below it. -/
theorem lineageBelow_eq_nil (h : path.isBelow base = false) : path.lineageBelow base = [] := by
  induction hlength : path.components.length using Nat.strongRecOn generalizing path with
  | ind length ih =>
    rw [lineageBelow, lineage_eq, List.filter_cons_of_neg (by simp [h])]
    cases hparent : path.parent? with
    | none => rfl
    | some parent =>
      have hbelow : parent.isBelow base = false := by
        rw [Bool.eq_false_iff] at h ⊢
        exact mt (isBelow_of_parent hparent) h
      exact ih _ (hlength ▸ length_components_of_parent? hparent) hbelow rfl

theorem lineageBelow_eq_cons (h : path.isBelow base = true) :
    path.lineageBelow base =
      path :: path.parent?.elim [] fun parent => parent.lineageBelow base := by
  rw [lineageBelow, lineage_eq, List.filter_cons, if_pos h]
  cases path.parent? with
  | none => rfl
  | some parent => rfl

theorem lineageBelow_inv {first : Path} {rest : List Path}
    (h : path.lineageBelow base = first :: rest) : path.isBelow base = true ∧ first = path := by
  cases hbelow : path.isBelow base with
  | false =>
    rw [lineageBelow_eq_nil hbelow] at h
    cases h
  | true =>
    rw [lineageBelow_eq_cons hbelow] at h
    exact ⟨rfl, (List.cons.inj h).1.symm⟩

theorem components_of_mem_lineage {member : Path} (h : member ∈ path.lineage) :
    member.components <+: path.components := by
  induction hlength : path.components.length using Nat.strongRecOn generalizing path with
  | ind length ih =>
    rw [lineage_eq, List.mem_cons] at h
    rcases h with rfl | h
    · exact List.prefix_rfl
    · cases hparent : path.parent? with
      | none => simp [hparent] at h
      | some parent =>
        rw [hparent] at h
        obtain ⟨last, hlast⟩ := components_of_parent? hparent
        rw [hlast]
        exact (ih _ (hlength ▸ length_components_of_parent? hparent) h rfl).trans
          (List.prefix_append _ _)

theorem text_of_no_components (h : path.components = []) : path.text = "" := by
  have hlead : path.lead.1.components ++ path.lead.2.filterMap component? = [] := h
  rw [List.append_eq_nil_iff] at hlead
  have hstart : path.lead = (.nothing, path.lead.2) := by
    refine Prod.ext ?_ rfl
    cases hl : path.lead.1 <;> simp [hl, Lead.components] at hlead ⊢
  obtain ⟨hpieces, hbody | hbody | ⟨piece, rest, hbody, hne, hdot⟩⟩ := lead_eq_nothing hstart
  · rw [text, hpieces, hbody]
    rfl
  · rw [text, hpieces, hbody]
    rfl
  · rw [hbody] at hlead
    by_cases hup : piece = ".." <;> simp [component?, hne, hdot, hup] at hlead

/-- The last piece that is not empty: slashes at the end do not count. -/
def lastPiece? (pieces : List String) : Option String := (pieces.filter (· != "")).getLast?

theorem lastPiece?_cons_blank {piece : String} {rest : List String}
    (hrest : rest.all (· == "") = true) :
    lastPiece? (piece :: rest) = if piece = "" then none else some piece := by
  have hblank : rest.filter (· != "") = [] := by
    rw [List.filter_eq_nil_iff]
    simpa using hrest
  by_cases hpiece : piece = ""
  · simp [lastPiece?, hpiece, hblank]
  · simp [lastPiece?, hpiece, hblank]

theorem lastPiece?_cons {piece : String} {rest : List String}
    (hrest : rest.all (· == "") = false) : lastPiece? (piece :: rest) = lastPiece? rest := by
  have hne : rest.filter (· != "") ≠ [] := by
    intro hnil
    rw [List.filter_eq_nil_iff] at hnil
    simp [show rest.all (· == "") = true by simpa using hnil] at hrest
  obtain ⟨first, others, hothers⟩ := List.exists_cons_of_ne_nil hne
  by_cases hpiece : piece = ""
  · simp [lastPiece?, hpiece]
  · simp [lastPiece?, hpiece, hothers]

theorem mem_of_lastPiece? {pieces : List String} {piece : String}
    (h : lastPiece? pieces = some piece) : piece ∈ pieces :=
  (List.mem_filter.mp (List.mem_of_getLast? h)).1

/-- A path that the system does not remove a directory by: it ends in a single dot, or it is the
root. -/
def EndsNameless (path : Path) : Prop :=
  lastPiece? path.pieces = none ∨ lastPiece? path.pieces = some "."

/-- The path that another one lies in ends with a name, unless it has no name at all. -/
theorem length_components_of_trimmed (h : path.Trimmed) (hend : path.EndsNameless) :
    path.components.length ≤ 1 := by
  cases h with
  | start start =>
    cases start <;> simp [components, ofLead, empty, lead, Lead.components, component?]
  | @piece front last hlast =>
    have hne : last ≠ "" := by
      rintro rfl
      simp [isTrivial, component?] at hlast
    have hpiece : lastPiece? (front ++ [last]) = some last := by simp [lastPiece?, hne]
    rcases hend with hnone | hdot
    · rw [hpiece] at hnone
      cases hnone
    · rw [hpiece] at hdot
      obtain rfl := Option.some.inj hdot
      simp [isTrivial, component?] at hlast

end Path

namespace Files

open JavaStubs.Path (component? lastPiece? lineageBelow EndsNameless)

/-- What the system takes the last piece of a path for. -/
def LastPiece.ofPiece? : Option String → LastPiece
  | none => .root
  | some piece => if piece = "." then .here else if piece = ".." then .up else .name piece

namespace FileTree

variable {tree before between after : FileTree} {here : Place} {path parent base : Path}

theorem last_of_walk (h : tree.LinkFree) {follow : Bool} {links : Nat} {pieces : List String}
    {spot : Spot} (hw : tree.walk follow links here pieces = .ok spot) :
    spot.last = .ofPiece? (lastPiece? pieces) := by
  induction pieces generalizing here with
  | nil =>
    rw [walk] at hw
    obtain rfl := Except.ok.inj hw
    rfl
  | cons piece rest ih =>
    cases hrest : rest.all (· == "") with
    | true =>
      rw [Path.lastPiece?_cons_blank hrest]
      rcases component?_cases piece with ⟨rfl | rfl, -⟩ | ⟨rfl, -⟩ | ⟨hp, -⟩
      · rw [walk, walk_blank hrest] at hw
        obtain rfl := Except.ok.inj hw
        rfl
      · rw [walk_here_last hrest] at hw
        obtain rfl := Except.ok.inj hw
        rfl
      · rw [walk_up_last hrest] at hw
        obtain rfl := Except.ok.inj hw
        rfl
      · rw [walk_last h hp hrest] at hw
        split at hw
        · cases hw
        · obtain rfl := Except.ok.inj hw
          simp [LastPiece.ofPiece?, hp.ne_empty, hp.ne_here, hp.ne_up]
    | false =>
      rw [Path.lastPiece?_cons hrest]
      rcases component?_cases piece with ⟨-, hc⟩ | ⟨rfl, -⟩ | ⟨hp, -⟩
      · rw [walk_trivial hc hrest] at hw
        exact ih hw
      · rw [walk_up hrest] at hw
        exact ih hw
      · rw [walk_name h hp hrest] at hw
        split at hw
        · cases hw
        · split at hw
          · exact ih hw
          · cases hw
          · cases hw

theorem lastPiece?_setOut (here : Place) (path : Path) :
    lastPiece? (setOut here path).2 = lastPiece? path.pieces := by
  unfold setOut
  split
  · next habsolute =>
    have hpieces := Path.pieces_eq_lead path
    have hroot : path.lead.1 = .root := by simpa [Path.isAbsolute] using habsolute
    rw [hroot] at hpieces
    rw [hpieces]
    rfl
  · rfl

/-- Without two dots, a path leads to a name, or it ends in a single dot or is the root. -/
theorem last_of_spot (h : tree.LinkFree) (hup : .up ∉ path.components) {follow : Bool} {spot : Spot}
    (hs : tree.spot follow path = .ok spot) :
    (∃ name, spot.last = .name name) ∨
      lastPiece? path.pieces = none ∧ spot.last = .root ∨
      lastPiece? path.pieces = some "." ∧ spot.last = .here := by
  have hlast := last_of_walk h (spot_eq_ok_iff.mp hs).2
  rw [hlast]
  cases hpiece : lastPiece? (setOut tree.workingDirectory path).2 with
  | none =>
    rw [lastPiece?_setOut] at hpiece
    exact .inr (.inl ⟨hpiece, rfl⟩)
  | some piece =>
    by_cases hdot : piece = "."
    · subst hdot
      rw [lastPiece?_setOut] at hpiece
      exact .inr (.inr ⟨hpiece, rfl⟩)
    · by_cases hdots : piece = ".."
      · subst hdots
        have hmeans : .up ∈ (setOut tree.workingDirectory path).2.filterMap component? :=
          List.mem_filterMap.mpr ⟨_, Path.mem_of_lastPiece? hpiece, rfl⟩
        exact absurd (up_mem_setOut hmeans) hup
      · exact .inl ⟨piece, by simp [LastPiece.ofPiece?, hdot, hdots]⟩

/-- What happens to one directory of a tree, by its path. -/
inductive Step (tree : FileTree) (path : Path) : Outcome Bool × FileTree → Prop
  /-- The path does not lead to a directory. -/
  | noDirectory {error : FileError} (h : tree.isDirectory path = false) :
      Step tree path (.error error, tree)
  | notEmpty {place : Place} (hfound : tree.find path = .ok (place, .directory))
      (hentries : tree.children place ≠ []) : Step tree path (.ok false, tree)
  /-- The system does not remove a directory by that path. -/
  | refused {place : Place} {error : FileError} (hfound : tree.find path = .ok (place, .directory))
      (hempty : tree.children place = []) (hend : path.EndsNameless) :
      Step tree path (.error error, tree)
  | erased {place : Place} {passed : List Component} {name : String}
      (hfound : tree.find path = .ok (place, .directory)) (hempty : tree.children place = [])
      (hcomponents : path.components = passed ++ [.name name])
      (hpassed : tree.Passable tree.workingDirectory passed) :
      Step tree path (.ok true, tree.erase place)

theorem deleteDirectory_of_find (h : tree.LinkFree) (hup : .up ∉ path.components) {place : Place}
    (hfound : tree.find path = .ok (place, .directory)) (hempty : tree.children place = []) :
    path.EndsNameless ∧ (∃ error, tree.deleteDirectory path = .error error) ∨
      ∃ passed name, path.components = passed ++ [.name name] ∧
        tree.Passable tree.workingDirectory passed ∧
        tree.deleteDirectory path = .ok (tree.erase place) := by
  obtain ⟨spot, hs, rfl, hentry, -⟩ := find_eq_ok_iff.mp hfound
  rw [h.spot_follow] at hs
  unfold deleteDirectory
  rw [hs]
  simp only [bind, Except.bind]
  rcases last_of_spot h hup hs with ⟨name, hname⟩ | ⟨hend, hlast⟩ | ⟨hend, hlast⟩
  · rcases spot_inv h hs with ⟨hother, -⟩ | ⟨passed, last, hcomponents, -, hpassed, -⟩
    · exact absurd hname (hother name)
    · exact .inr ⟨passed, last, hcomponents, hpassed, by simp [hname, hentry, hempty]⟩
  · exact .inl ⟨.inl hend, _, by rw [hlast]⟩
  · exact .inl ⟨.inr hend, _, by rw [hlast]⟩

theorem deleteIfEmpty_step (h : tree.LinkFree) (hup : .up ∉ path.components) :
    tree.Step path (Disk.deleteIfEmpty (m := StateM FileTree) path tree) := by
  simp only [Disk.deleteIfEmpty, deleteIfEmpty, isEmptyDirectory]
  cases hfound : tree.find path with
  | error error =>
    refine .noDirectory (Bool.eq_false_iff.mpr fun hdirectory => ?_)
    simp [isDirectory_iff_find, hfound] at hdirectory
  | ok found =>
    obtain ⟨place, entry⟩ := found
    cases entry with
    | file | link | fullDevice =>
      refine .noDirectory (Bool.eq_false_iff.mpr fun hdirectory => ?_)
      simp [isDirectory_iff_find, hfound] at hdirectory
    | directory =>
      by_cases hempty : tree.children place = []
      · rcases deleteDirectory_of_find h hup hfound hempty with
          ⟨hend, error, hdeleted⟩ | ⟨passed, name, hcomponents, hpassed, hdeleted⟩
        · simp only [bind, Except.bind, hempty, List.isEmpty_nil, if_true, hdeleted]
          exact .refused hfound hempty hend
        · simp only [bind, Except.bind, hempty, List.isEmpty_nil, if_true, hdeleted]
          exact .erased hfound hempty hcomponents hpassed
      · have hentries : (tree.children place).isEmpty = false := by simpa using hempty
        simp only [bind, Except.bind, hentries, Bool.false_eq_true, if_false]
        exact .notEmpty hfound hempty

/-- Paths lead to empty directories that are taken away one after the other. -/
inductive ErasedInTurn : FileTree → List Path → FileTree → Prop
  | nil (tree : FileTree) : ErasedInTurn tree [] tree
  | cons {tree after : FileTree} {path : Path} {rest : List Path} {place : Place}
      (hfound : tree.find path = .ok (place, .directory)) (hempty : tree.children place = [])
      (hroot : place ≠ []) (hrest : ErasedInTurn (tree.erase place) rest after) :
      ErasedInTurn tree (path :: rest) after

/-- Why a run ends, after it erased some of the paths and with the others left. -/
inductive Ends (base : Path) (tree : FileTree) : List Path → List Path → Outcome Unit → Prop
  /-- The base is reached. -/
  | atBase {erased : List Path} : Ends base tree erased [] (.ok ())
  | notEmpty {erased rest : List Path} {path : Path} {place : Place}
      (hfound : tree.find path = .ok (place, .directory)) (hentries : tree.children place ≠ []) :
      Ends base tree erased (path :: rest) (.ok ())
  /-- The first path does not lead to a directory. -/
  | noDirectory {rest : List Path} {path : Path} {error : FileError}
      (h : tree.isDirectory path = false) : Ends base tree [] (path :: rest) (.error error)
  /-- The directory is empty, but the system does not remove it by that path, which is the first one
  or, where the base is the empty path, a beginning without a name. -/
  | refused {erased rest : List Path} {path : Path} {place : Place} {error : FileError}
      (hfound : tree.find path = .ok (place, .directory)) (hempty : tree.children place = [])
      (hend : path.EndsNameless) (hplace : erased = [] ∨ base.components = []) :
      Ends base tree erased (path :: rest) (.error error)

theorem ErasedInTurn.eq_or_found {erased : List Path} (h : ErasedInTurn before erased after) :
    after = before ∨ ∃ first rest place, erased = first :: rest ∧
      before.find first = .ok (place, .directory) := by
  cases h with
  | nil => exact .inl rfl
  | cons hfound => exact .inr ⟨_, _, _, rfl, hfound⟩

theorem ErasedInTurn.shrinks {erased : List Path} (h : ErasedInTurn before erased after)
    (hplain : before.Plain) :
    after.Plain ∧
      Shrinks (fun place entry => (∃ path ∈ erased, place = before.placeOf path) ∧
        entry = .directory) before after ∧
      ∀ path ∈ erased, before.entry? (before.placeOf path) = some .directory ∧
        after.entry? (before.placeOf path) = none := by
  induction h with
  | nil tree => exact ⟨hplain, Shrinks.refl _ _, by simp⟩
  | @cons tree after path rest place hfound hempty hroot hrest ih =>
    obtain ⟨hplace, hentry⟩ := hplain.linkFree.of_find hfound
    obtain ⟨hafter, hshrinks, hgone⟩ := ih (plain_erase_empty hplain hroot hempty)
    have hfirst := shrinks_erase hroot hentry
    refine ⟨hafter, ?_, ?_⟩
    · refine (hfirst.mono ?_).trans (hshrinks.mono ?_)
      · rintro other found ⟨rfl, rfl⟩
        exact ⟨⟨path, List.mem_cons_self, hplace⟩, rfl⟩
      · rintro other found ⟨⟨inner, hinner, rfl⟩, rfl⟩
        exact ⟨⟨inner, List.mem_cons_of_mem _ hinner, hfirst.placeOf inner⟩, rfl⟩
    · intro member hm
      rcases List.mem_cons.mp hm with rfl | hm
      · have herased : entry? (tree.erase place) place = none := by
          rw [entry?_erase tree hroot, if_pos rfl]
        rw [← hplace]
        refine ⟨hentry, ?_⟩
        rcases hshrinks.entries place with hsame | ⟨hnone, -⟩
        · rw [hsame, herased]
        · exact hnone
      · rw [← hfirst.placeOf member]
        exact (hgone member hm).imp_left hfirst.of_after

theorem placeOf_of_components {passed : List Component} {name : String}
    (h : path.components = passed ++ [.name name]) :
    tree.placeOf path = reach tree.workingDirectory passed ++ [name] := by
  rw [placeOf, h, reach_append]
  rfl

/-- After a directory was erased, the one that it lay in is there. -/
theorem isDirectory_parent (hplain : tree.Plain) (hup : .up ∉ path.components) {place : Place}
    {passed : List Component} {name : String}
    (hfound : tree.find path = .ok (place, .directory)) (hempty : tree.children place = [])
    (hcomponents : path.components = passed ++ [.name name])
    (hpassed : tree.Passable tree.workingDirectory passed) (hparent : path.parent? = some parent)
    (hnonempty : parent.isEmpty = false) : (tree.erase place).isDirectory parent = true := by
  have husable : Usable path :=
    ((isDirectory_iff hplain.linkFree).mp (isDirectory_iff_find.mpr ⟨place, hfound⟩)).1
  obtain ⟨hplace, hentry⟩ := hplain.linkFree.of_find hfound
  obtain ⟨last, hlast⟩ := Path.components_of_parent? hparent
  obtain ⟨rfl, -⟩ := List.append_inj' (hcomponents.symm.trans hlast) rfl
  have hbelow : place = tree.placeOf parent ++ [name] :=
    hplace.trans (placeOf_of_components hcomponents)
  have hne : place ≠ [] := by simp [hbelow]
  have hdirectory : tree.entry? (tree.placeOf parent) = some .directory :=
    hplain.of_append (List.cons_ne_nil name []) (hbelow ▸ hentry)
  obtain ⟨outside, houtside⟩ := isDirectory_iff_find.mp ((isDirectory_iff hplain.linkFree).mpr
    ⟨husable.of_parent hparent hnonempty, hpassed, hdirectory⟩)
  have hnoUp : .up ∉ parent.components := (reach_parent? hparent hup []).1
  refine isDirectory_iff_find.mpr ⟨outside, find_of_kept (shrinks_erase hne hentry)
    hplain.linkFree (plain_erase_empty hplain hne hempty) hnoUp houtside ?_⟩
  rintro ⟨hsame, -⟩
  rw [(hplain.linkFree.of_find houtside).1, hbelow] at hsame
  simp at hsame

/-- How a run goes on after its first directory was erased: the next one is there, so if it is not
erased because of its path, then the path is a beginning without a name. -/
theorem Ends.cons_parent {erased rest : List Path} {result : Outcome Unit}
    (h : Ends base after erased rest result) (hparent : path.parent? = some parent)
    (hchain : parent.lineageBelow base = erased ++ rest) (hturn : ErasedInTurn tree erased after)
    (hdirectory : parent.isEmpty = false → tree.isDirectory parent = true) :
    Ends base after (path :: erased) rest result := by
  cases h with
  | atBase => exact .atBase
  | notEmpty hfound hentries => exact .notEmpty hfound hentries
  | noDirectory hno =>
    obtain ⟨hbelow, hfirst⟩ := Path.lineageBelow_inv hchain
    cases hturn
    rw [hfirst, hdirectory (Path.isEmpty_of_isBelow hbelow)] at hno
    cases hno
  | refused hfound hempty hend hplace =>
    refine .refused hfound hempty hend (.inr (hplace.elim ?_ id))
    rintro rfl
    obtain ⟨hbelow, hfirst⟩ := Path.lineageBelow_inv hchain
    obtain ⟨others, hne, hothers⟩ := Path.isBelow_iff.mp hbelow
    obtain ⟨start, body, htrimmed, -⟩ := Path.parent?_eq_some hparent
    have hlength : parent.components.length ≤ 1 :=
      Path.length_components_of_trimmed (htrimmed ▸ Path.trimmed_ofLead start body) (hfirst ▸ hend)
    have hpos : 0 < others.length := List.length_pos_iff.mpr hne
    rw [hothers, List.length_append] at hlength
    exact List.length_eq_zero_iff.mp (by omega)

/-- A run erases the first paths strictly below the base in turn, and then it ends: induction over
the path, since the path that it lies in is shorter. -/
theorem deleteWhileEmpty_ends (directory base : Path) (tree : FileTree) (hplain : tree.Plain)
    (hup : .up ∉ directory.components) :
    let run := deleteWhileEmpty (m := StateM FileTree) directory base tree
    ∃ erased rest, directory.lineageBelow base = erased ++ rest ∧
      tree.ErasedInTurn erased run.2 ∧ Ends base run.2 erased rest run.1 := by
  induction hlength : directory.components.length using Nat.strongRecOn
    generalizing directory tree with
  | ind length ih =>
    rw [deleteWhileEmpty_eq, Path.same_or_not_startsWith]
    cases hbelow : directory.isBelow base with
    | false => exact ⟨[], [], by rw [Path.lineageBelow_eq_nil hbelow]; rfl, .nil tree, .atBase⟩
    | true =>
      rw [if_neg (by simp), Path.lineageBelow_eq_cons hbelow]
      simp only [bind_apply]
      have hstep := deleteIfEmpty_step hplain.linkFree hup
      generalize Disk.deleteIfEmpty (m := StateM FileTree) directory tree = step at hstep ⊢
      cases hstep with
      | noDirectory h => exact ⟨[], _, rfl, .nil tree, .noDirectory h⟩
      | notEmpty hfound hentries => exact ⟨[], _, rfl, .nil tree, .notEmpty hfound hentries⟩
      | refused hfound hempty hend =>
        exact ⟨[], _, rfl, .nil tree, .refused hfound hempty hend (.inl rfl)⟩
      | @erased place passed name hfound hempty hcomponents hpassed =>
        have hroot : place ≠ [] := by
          rw [(hplain.linkFree.of_find hfound).1, placeOf_of_components hcomponents]
          simp
        cases hparent : directory.parent? with
        | none => exact ⟨[directory], [], rfl, .cons hfound hempty hroot (.nil _), .atBase⟩
        | some parent =>
          obtain ⟨erased, rest, hchain, hturn, hends⟩ := ih _
            (hlength ▸ Path.length_components_of_parent? hparent) parent (tree.erase place)
            (plain_erase_empty hplain hroot hempty) (reach_parent? hparent hup []).1 rfl
          have hdirectory : parent.isEmpty = false → (tree.erase place).isDirectory parent = true :=
            isDirectory_parent hplain hup hfound hempty hcomponents hpassed hparent
          refine ⟨directory :: erased, rest, by simp [hchain], .cons hfound hempty hroot hturn, ?_⟩
          exact hends.cons_parent hparent hchain hturn hdirectory

/-- After its first component, a path without two dots has only names. -/
theorem exists_names_tail (hup : .up ∉ path.components) :
    ∃ names : List String, path.components.tail = names.map .name := by
  unfold Path.components at hup ⊢
  generalize path.lead = parts at hup ⊢
  obtain ⟨start, body⟩ := parts
  obtain ⟨names, hnames⟩ :=
    filterMap_component?_of_no_up fun hmem => hup (List.mem_append_right _ hmem)
  simp only
  rw [hnames]
  cases start with
  | root => exact ⟨names, rfl⟩
  | here => exact ⟨names, rfl⟩
  | nothing => exact ⟨names.tail, List.map_tail.symm⟩

/-- A path below a base does not lead to where the base leads, which is nowhere if it has no
components. -/
theorem placeOf_ne_of_isBelow (hbelow : path.isBelow base = true) (hup : .up ∉ path.components)
    (hbase : base.components ≠ []) : tree.placeOf path ≠ tree.placeOf base := by
  obtain ⟨rest, hne, hrest⟩ := Path.isBelow_iff.mp hbelow
  obtain ⟨first, others, hfirst⟩ := List.exists_cons_of_ne_nil hbase
  obtain ⟨names, hnames⟩ := exists_names_tail hup
  rw [hrest, hfirst, List.cons_append, List.tail_cons] at hnames
  obtain ⟨-, inner, -, -, rfl⟩ := List.map_eq_append_iff.mp hnames.symm
  rw [placeOf, placeOf, hrest, reach_append, reach_names]
  simpa using hne

theorem find_of_no_components (h : path.components = []) {found : Place × Entry} :
    tree.find path ≠ .ok found := by
  obtain ⟨place, entry⟩ := found
  intro hfound
  obtain ⟨spot, hs, -⟩ := find_eq_ok_iff.mp hfound
  exact (spot_eq_ok_iff.mp hs).1.nonempty (Path.text_of_no_components h)

/-- What paths below a base lead to can go without any change for the base. -/
theorem ErasedInTurn.find_base {directory : Path} {erased rest : List Path} (hplain : before.Plain)
    (hup : .up ∉ directory.components) (hchain : directory.lineageBelow base = erased ++ rest)
    (h : ErasedInTurn before erased after) {found : Place × Entry} :
    after.find base = .ok found ↔ before.find base = .ok found := by
  by_cases hbase : base.components = []
  · exact iff_of_false (find_of_no_components hbase) (find_of_no_components hbase)
  · cases hfirst : erased with
    | nil =>
      subst hfirst
      cases h
      exact Iff.rfl
    | cons first others =>
      have hmember : ∀ path ∈ erased, path.isBelow base = true ∧ .up ∉ path.components := by
        intro path hp
        obtain ⟨hlineage, hbelow⟩ :=
          List.mem_filter.mp (show path ∈ directory.lineageBelow base by simp [hchain, hp])
        exact ⟨hbelow, fun hmem => hup ((Path.components_of_mem_lineage hlineage).subset hmem)⟩
      obtain ⟨hbelow, hnoUp⟩ := hmember first (by simp [hfirst])
      obtain ⟨rest, -, hrest⟩ := Path.isBelow_iff.mp hbelow
      rw [hrest, List.mem_append, not_or] at hnoUp
      obtain ⟨hafter, hshrinks, -⟩ := h.shrinks hplain
      refine find_unless_lost hshrinks hplain.linkFree hafter hnoUp.1 ?_
      rintro entry ⟨⟨path, hp, hsame⟩, -⟩
      obtain ⟨hbelow, hnoUp⟩ := hmember path hp
      exact placeOf_ne_of_isBelow hbelow hnoUp hbase hsame.symm

/-- What a run leaves, after it erased the directories that the first paths lead to. -/
structure Pruned (base : Path) (erased rest : List Path) (before : FileTree)
    (result : Outcome Unit) (after : FileTree) : Prop where
  inTurn : ErasedInTurn before erased after
  ends : Ends base after erased rest result
  gone : ∀ path ∈ erased, before.entry? (before.placeOf path) = some .directory ∧
    after.entry? (before.placeOf path) = none
  others : ∀ place, (∀ path ∈ erased, place ≠ before.placeOf path) →
    after.entry? place = before.entry? place
  /-- What stood in an erased directory is an erased directory. -/
  inside : ∀ path ∈ erased, ∀ inner entry,
    before.entry? (before.placeOf path ++ inner) = some entry →
      ∃ other ∈ erased, before.placeOf path ++ inner = before.placeOf other
  base : ∀ found, after.find base = .ok found ↔ before.find base = .ok found

theorem ErasedInTurn.pruned {directory : Path} {erased rest : List Path} {result : Outcome Unit}
    (hplain : before.Plain) (hup : .up ∉ directory.components)
    (hchain : directory.lineageBelow base = erased ++ rest) (h : ErasedInTurn before erased after)
    (hends : Ends base after erased rest result) : Pruned base erased rest before result after := by
  obtain ⟨hafter, hshrinks, hgone⟩ := h.shrinks hplain
  refine ⟨h, hends, hgone, ?_, ?_, fun found => h.find_base hplain hup hchain⟩
  · intro place hother
    rcases hshrinks.entries place with hsame | ⟨-, -, -, ⟨path, hp, heq⟩, -⟩
    · exact hsame
    · exact absurd heq (hother path hp)
  · intro path hp inner entry hentry
    have hnone := hafter.nothing_below (hgone path hp).2 inner
    rcases hshrinks.entries (before.placeOf path ++ inner) with hsame | ⟨-, -, -, hlost, -⟩
    · rw [hsame, hentry] at hnone
      cases hnone
    · exact hlost

/-- Deleting a directory without two dots, and those it lies in while they are empty, erases the
first of the paths from the directory upwards that are strictly below the base, and nothing else.
Where the directory is not below the base, or its path leads nowhere, nothing changes. -/
theorem deleteWhileEmpty_pruned (directory base : Path) (tree : FileTree) (hplain : tree.Plain)
    (hup : .up ∉ directory.components) :
    let run := deleteWhileEmpty (m := StateM FileTree) directory base tree
    (∃ erased rest, directory.lineageBelow base = erased ++ rest ∧
        Pruned base erased rest tree run.1 run.2) ∧
      (directory.isBelow base = false → run = (.ok (), tree)) ∧
      (tree.isPresent directory = false → run.2 = tree) := by
  intro run
  obtain ⟨erased, rest, hchain, hturn, hends⟩ :=
    deleteWhileEmpty_ends directory base tree hplain hup
  refine ⟨⟨erased, rest, hchain, hturn.pruned hplain hup hchain hends⟩, ?_, ?_⟩
  · intro hbelow
    have hstop : deleteWhileEmpty (m := StateM FileTree) directory base = pure (.ok ()) := by
      rw [deleteWhileEmpty_eq, Path.same_or_not_startsWith, hbelow]
      rfl
    rw [show run = deleteWhileEmpty (m := StateM FileTree) directory base tree from rfl, hstop]
    rfl
  · intro habsent
    rcases hturn.eq_or_found with hsame | ⟨first, others, place, hfirst, hfound⟩
    · exact hsame
    · rw [hfirst, List.cons_append] at hchain
      rw [(Path.lineageBelow_inv hchain).2] at hfound
      rw [isPresent_iff.mpr ⟨_, hfound⟩] at habsent
      cases habsent

/-- Empty directories, one in the other. -/
def nook : FileTree :=
  (((⟨Table.empty, []⟩ : FileTree).put ["out"] .directory).put ["out", "a"] .directory).put
    ["out", "a", "b"] .directory

theorem plain_nook : nook.Plain := by
  have hout := (plain_put (plain_empty []) (List.cons_ne_nil "out" []) rfl .directory nofun nofun).1
  have ha := (plain_put hout (List.cons_ne_nil "out" ["a"]) rfl .directory nofun nofun).1
  exact (plain_put ha (List.cons_ne_nil "out" ["a", "b"]) rfl .directory nofun nofun).1

theorem nook_pruned :
    let run := deleteWhileEmpty (m := StateM FileTree) (.ofString "out/a/b") (.ofString "out") nook
    nook.Plain ∧ .up ∉ (Path.ofString "out/a/b").components ∧
      ∃ erased rest, [.ofString "out/a/b", .ofString "out/a"] = erased ++ rest ∧
        Pruned (.ofString "out") erased rest nook run.1 run.2 := by
  intro run
  have hup : .up ∉ (Path.ofString "out/a/b").components := by decide +kernel
  have hb : (Path.ofString "out/a/b").parent? = some (.ofString "out/a") := by decide +kernel
  have ha : (Path.ofString "out/a").parent? = some (.ofString "out") := by decide +kernel
  have hchain : (Path.ofString "out/a/b").lineageBelow (.ofString "out") =
      [.ofString "out/a/b", .ofString "out/a"] := by
    rw [Path.lineageBelow_eq_cons (by decide +kernel), hb, Option.elim_some,
      Path.lineageBelow_eq_cons (by decide +kernel), ha, Option.elim_some,
      Path.lineageBelow_eq_nil (by decide +kernel)]
  rw [← hchain]
  exact ⟨plain_nook, hup, (deleteWhileEmpty_pruned _ _ nook plain_nook hup).1⟩

/-- The path of the innermost directory, written with a dot at the end. -/
def dotted : Path := .ofString "out/a/b/."

/-- The directory is empty and strictly below the base, and yet it stays, since its path ends in a
dot. -/
theorem nook_not_pruned :
    nook.Plain ∧ .up ∉ dotted.components ∧ dotted.isBelow (.ofString "out") = true ∧
      nook.find dotted = .ok (["out", "a", "b"], .directory) ∧
      nook.children ["out", "a", "b"] = [] ∧
      deleteWhileEmpty (m := StateM FileTree) dotted (.ofString "out") nook =
        (.error .invalidArgument, nook) := by
  have hempty : nook.children ["out", "a", "b"] = [] := by decide +kernel
  have hspot : ∀ follow, nook.spot follow dotted = .ok ⟨["out", "a", "b"], .here, false⟩ := by
    intro follow
    have hsetOut : setOut nook.workingDirectory dotted = ([], ["out", "a", "b", "."]) := by
      decide +kernel
    have hout : nook.entry? ([] ++ ["out"]) = some .directory := rfl
    have ha : nook.entry? ([] ++ ["out"] ++ ["a"]) = some .directory := rfl
    have hb : nook.entry? ([] ++ ["out"] ++ ["a"] ++ ["b"]) = some .directory := rfl
    rw [spot_of_usable ⟨by decide +kernel, by decide +kernel, by decide +kernel⟩, hsetOut,
      walk_name plain_nook.linkFree (by decide) (by decide), if_neg (by decide), hout]
    simp only
    rw [walk_name plain_nook.linkFree (by decide) (by decide), if_neg (by decide), ha]
    simp only
    rw [walk_name plain_nook.linkFree (by decide) (by decide), if_neg (by decide), hb]
    simp only
    rw [walk_here_last rfl]
    rfl
  have hfound : nook.find dotted = .ok (["out", "a", "b"], .directory) :=
    find_eq_ok_iff.mpr ⟨_, hspot true, rfl, rfl, nofun⟩
  have hrefused : Disk.deleteIfEmpty (m := StateM FileTree) dotted nook =
      (.error .invalidArgument, nook) := by
    simp only [Disk.deleteIfEmpty, deleteIfEmpty, isEmptyDirectory, deleteDirectory, hfound,
      hspot false, bind, Except.bind, hempty, List.isEmpty_nil, if_true]
  have hbelow : dotted.isBelow (.ofString "out") = true := by decide +kernel
  refine ⟨plain_nook, by decide +kernel, hbelow, hfound, hempty, ?_⟩
  rw [deleteWhileEmpty_eq, Path.same_or_not_startsWith, hbelow, if_neg (by decide), bind_apply,
    hrefused]
  rfl

end FileTree

end Files

end JavaStubs
