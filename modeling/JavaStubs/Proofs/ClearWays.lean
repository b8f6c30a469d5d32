import JavaStubs.Proofs.FileChanges

/-!
# Clear ways

In a tree without symbolic links the way along a path is clear if every place that it leads through
is vacant or a directory, and no name on it is too long. On a clear way nothing can go wrong but that
a directory is missing: a path can be followed, or something that it names is not there.
-/
namespace JavaStubs

namespace Path

variable {path : Path}

/-- The last piece that trimming leaves means something. -/
theorem isTrivial_of_getLast?_trimEnd {pieces : List String} {last : String}
    (h : (trimEnd pieces).getLast? = some last) : isTrivial last = false := by
  obtain ⟨front, hfront⟩ := List.getLast?_eq_some_iff.mp h
  obtain ⟨c, hc⟩ := filterMap_dropLast_trimEnd (show trimEnd pieces ≠ [] by simp [hfront])
  rw [← filterMap_trimEnd, hfront, List.dropLast_concat, List.filterMap_append] at hc
  have hlast : [last].filterMap component? = [c] := List.append_cancel_left hc
  cases hp : component? last with
  | none => simp [hp] at hlast
  | some d => simp [isTrivial, hp]

/-- A path whose last piece means something, or that is a beginning only. -/
inductive Trimmed : Path → Prop where
  | start (start : Lead) : Trimmed (ofLead start [])
  | piece (front : List String) {last : String} (h : isTrivial last = false) :
      Trimmed ⟨front ++ [last]⟩

theorem trimmed_ofLead (start : Lead) (body : List String) :
    (ofLead start (trimEnd body)).Trimmed := by
  rcases List.eq_nil_or_concat' (trimEnd body) with hnil | ⟨front, last, hlast⟩
  · rw [hnil]
    exact .start start
  · have hmeans : isTrivial last = false :=
      isTrivial_of_getLast?_trimEnd (by rw [hlast, List.getLast?_concat])
    have hpath : ofLead start (front ++ [last]) = ⟨(start.pieces ++ front) ++ [last]⟩ := by
      cases start <;> cases front <;> rfl
    rw [hlast, hpath]
    exact .piece _ hmeans

theorem components_parent? (path : Path) :
    path.parent? = none ∧ path.components.dropLast = [] ∨
      ∃ parent, path.parent? = some parent ∧ parent.components = path.components.dropLast := by
  cases hparent : path.parent? with
  | none =>
    refine Or.inl ⟨rfl, ?_⟩
    unfold parent? at hparent
    unfold components
    generalize path.lead = found at hparent ⊢
    obtain ⟨start, body⟩ := found
    simp only at hparent ⊢
    rw [← filterMap_trimEnd]
    cases htrim : trimEnd body with
    | nil => cases start <;> simp [Lead.components]
    | cons piece rest => simp [htrim] at hparent
  | some parent =>
    obtain ⟨last, hlast⟩ := components_of_parent? hparent
    exact Or.inr ⟨parent, rfl, by rw [hlast, List.dropLast_concat]⟩

theorem components_of_isEmpty (h : path.isEmpty = true) : path.components = [] := by
  obtain ⟨pieces⟩ := path
  obtain rfl : pieces = [""] := by simpa [isEmpty] using h
  rfl

end Path

namespace Files.FileTree

open JavaStubs.Path (IsName component? Trimmed)

variable {tree before after : FileTree} {here home : Place} {path : Path}

/-- Whether paths can lead through a place, once directories are made. -/
def Crossable (tree : FileTree) (place : Place) : Prop :=
  tree.entry? place = none ∨ tree.entry? place = some .directory

/-- Where nothing is touched, at most a directory is made. -/
theorem Grows.crossable_iff {touched : Place → Prop} (h : Grows touched before after)
    {place : Place} (hp : ¬ touched place) : after.Crossable place ↔ before.Crossable place := by
  rcases h.untouched place hp with hsame | ⟨hnone, hmade⟩
  · rw [Crossable, Crossable, hsame]
  · simp [Crossable, hnone, hmade]

/-- Components lead through places that are vacant or directories, by names that are not too
long. -/
structure Clear (tree : FileTree) (here : Place) (components : List Component) : Prop where
  vacant : ∀ place ∈ visited here components, tree.Crossable place
  short : ∀ name, .name name ∈ components → name.utf8ByteSize ≤ nameLimit

theorem clear_cons_name {name : String} {rest : List Component} :
    tree.Clear here (.name name :: rest) ↔ name.utf8ByteSize ≤ nameLimit ∧
      tree.Crossable (here ++ [name]) ∧ tree.Clear (here ++ [name]) rest := by
  constructor
  · rintro ⟨hvacant, hshort⟩
    rw [visited, List.forall_mem_cons] at hvacant
    exact ⟨hshort name List.mem_cons_self, hvacant.1, hvacant.2,
      fun n hn => hshort n (List.mem_cons_of_mem _ hn)⟩
  · rintro ⟨hname, hplace, hvacant, hshort⟩
    refine ⟨?_, fun n hn => ?_⟩
    · rw [visited, List.forall_mem_cons]
      exact ⟨hplace, hvacant⟩
    · rcases List.mem_cons.mp hn with hn | hn
      · rw [Component.name.inj hn]
        exact hname
      · exact hshort n hn

theorem Clear.of_append {first second : List Component} (h : tree.Clear here (first ++ second)) :
    tree.Clear here first := by
  refine ⟨fun place hp => h.vacant place ?_, fun name hn => h.short name ?_⟩
  · rw [visited_append]
    exact List.mem_append_left _ hp
  · exact List.mem_append_left _ hn

theorem clear_cons_up {rest : List Component} (h : tree.Clear here (.up :: rest)) :
    tree.Clear here.dropLast rest :=
  ⟨h.vacant, fun name hn => h.short name (List.mem_cons_of_mem _ hn)⟩

section walk

variable {follow : Bool} {links : Nat}

/-- On a clear way nothing can go wrong but that a directory is missing. -/
theorem walk_of_clear (h : tree.LinkFree) {pieces : List String}
    (hclear : tree.Clear here (pieces.filterMap component?)) :
    (∃ spot, tree.walk follow links here pieces = .ok spot) ∨
      tree.walk follow links here pieces = .error .notFound := by
  induction pieces generalizing here with
  | nil => exact Or.inl ⟨_, by rw [walk]⟩
  | cons piece rest ih =>
    cases hrest : rest.all (· == "") with
    | true =>
      left
      rcases component?_cases piece with ⟨rfl | rfl, -⟩ | ⟨rfl, -⟩ | ⟨hname, hc⟩
      · exact ⟨_, by rw [walk, walk_blank hrest]⟩
      · exact ⟨_, walk_here_last hrest⟩
      · exact ⟨_, walk_up_last hrest⟩
      · rw [List.filterMap_cons_some hc, clear_cons_name] at hclear
        exact ⟨_, by rw [walk_last h hname hrest, if_neg (Nat.not_lt.mpr hclear.1)]⟩
    | false =>
      rcases component?_cases piece with ⟨-, hc⟩ | ⟨rfl, hc⟩ | ⟨hname, hc⟩
      · rw [List.filterMap_cons_none hc] at hclear
        rw [walk_trivial hc hrest]
        exact ih hclear
      · rw [List.filterMap_cons_some hc] at hclear
        rw [walk_up hrest]
        exact ih (clear_cons_up hclear)
      · rw [List.filterMap_cons_some hc, clear_cons_name] at hclear
        obtain ⟨hsize, hplace | hplace, hothers⟩ := hclear
        · rw [walk_name h hname hrest, if_neg (Nat.not_lt.mpr hsize), hplace]
          exact Or.inr rfl
        · rw [walk_name h hname hrest, if_neg (Nat.not_lt.mpr hsize), hplace]
          exact ih hothers

/-- A path that can be followed either leads through directories only, or it ends with a name, which
need not stand for anything. -/
theorem walk_inv (h : tree.LinkFree) {pieces : List String} {spot : Spot}
    (hw : tree.walk follow links here pieces = .ok spot) :
    (∀ name, spot.last ≠ .name name) ∧ tree.Passable here (pieces.filterMap component?) ∨
      ∃ passed name, pieces.filterMap component? = passed ++ [.name name] ∧
        spot.last = .name name ∧ tree.Passable here passed ∧ name.utf8ByteSize ≤ nameLimit := by
  induction pieces generalizing here with
  | nil =>
    rw [walk] at hw
    obtain rfl := Except.ok.inj hw
    exact Or.inl ⟨by simp, passable_nil⟩
  | cons piece rest ih =>
    -- Blank pieces at the end lead nowhere: before them a name is the last one.
    cases hrest : rest.all (· == "") with
    | true =>
      rw [← List.singleton_append, List.filterMap_append, filterMap_component?_of_blank hrest,
        List.append_nil]
      rcases component?_cases piece with ⟨rfl | rfl, -⟩ | ⟨rfl, -⟩ | ⟨hname, hc⟩
      · rw [walk, walk_blank hrest] at hw
        obtain rfl := Except.ok.inj hw
        exact Or.inl ⟨by simp, passable_nil⟩
      · rw [walk_here_last hrest] at hw
        obtain rfl := Except.ok.inj hw
        exact Or.inl ⟨by simp, passable_nil⟩
      · rw [walk_up_last hrest] at hw
        obtain rfl := Except.ok.inj hw
        exact Or.inl ⟨by simp, passable_cons_up.mpr passable_nil⟩
      · rw [walk_last h hname hrest] at hw
        split at hw <;> rename_i hlong
        · cases hw
        · obtain rfl := Except.ok.inj hw
          exact Or.inr ⟨[], piece, by simp [hc], rfl, passable_nil, Nat.not_lt.mp hlong⟩
    | false =>
      rcases component?_cases piece with ⟨-, hc⟩ | ⟨rfl, hc⟩ | ⟨hname, hc⟩
      · rw [walk_trivial hc hrest] at hw
        rw [List.filterMap_cons_none hc]
        exact ih hw
      · rw [walk_up hrest] at hw
        rw [List.filterMap_cons_some hc, passable_cons_up]
        refine (ih hw).imp_right ?_
        rintro ⟨passed, name, heq, hlast, hpassed, hshort⟩
        exact ⟨.up :: passed, name, by rw [heq, List.cons_append], hlast,
          passable_cons_up.mpr hpassed, hshort⟩
      · rw [walk_name h hname hrest] at hw
        split at hw <;> rename_i hlong
        · cases hw
        · split at hw <;> rename_i hentry
          · rw [List.filterMap_cons_some hc, passable_cons_name]
            refine (ih hw).imp ?_ ?_
            · rintro ⟨hlast, hothers⟩
              exact ⟨hlast, Nat.not_lt.mp hlong, hentry, hothers⟩
            · rintro ⟨passed, name, heq, hlast, hpassed, hshort⟩
              exact ⟨.name piece :: passed, name, by rw [heq, List.cons_append], hlast,
                passable_cons_name.mpr ⟨Nat.not_lt.mp hlong, hentry, hpassed⟩, hshort⟩
          · cases hw
          · cases hw

end walk

/-- Before the pieces that are followed a path has at most a sign, which leads to where they
begin. -/
theorem setOut_signs (here : Place) (path : Path) : ∃ signs : List Component,
    (∀ name, .name name ∉ signs) ∧
      path.components = signs ++ (setOut here path).2.filterMap component? ∧
      ∀ rest, reach here (signs ++ rest) = reach (setOut here path).1 rest ∧
        visited here (signs ++ rest) = visited (setOut here path).1 rest := by
  have hpieces := Path.pieces_eq_lead path
  unfold setOut Path.isAbsolute Path.components
  generalize path.lead = parts at hpieces ⊢
  obtain ⟨start, body⟩ := parts
  rw [hpieces]
  cases start with
  | root => exact ⟨[.root], by simp, rfl, fun rest => ⟨rfl, rfl⟩⟩
  | here => exact ⟨[.here], by simp, rfl, fun rest => ⟨rfl, rfl⟩⟩
  | nothing => exact ⟨[], by simp, rfl, fun rest => ⟨rfl, rfl⟩⟩

theorem passable_of_visited {other : Place} {signs rest : List Component}
    (hsigns : ∀ name, .name name ∉ signs)
    (hvisited : visited here (signs ++ rest) = visited other rest)
    (h : tree.Passable other rest) : tree.Passable here (signs ++ rest) :=
  ⟨hvisited ▸ h.directories, fun name hn =>
    h.short name ((List.mem_append.mp hn).resolve_left (hsigns name))⟩

theorem clear_of_visited {other : Place} {signs rest : List Component}
    (hvisited : visited here (signs ++ rest) = visited other rest)
    (h : tree.Clear here (signs ++ rest)) : tree.Clear other rest :=
  ⟨hvisited ▸ h.vacant, fun name hn => h.short name (List.mem_append_right _ hn)⟩

theorem spot_of_usable (h : Usable path) (follow : Bool) :
    tree.spot follow path = tree.walk follow linkLimit (setOut tree.workingDirectory path).1
      (setOut tree.workingDirectory path).2 := by
  have hnul : path.text.toList.contains '\x00' = false := by
    simpa [List.contains_iff_mem] using h.noNul
  have hnonempty : path.text.isEmpty = false := by simpa using h.nonempty
  simp only [spot, hnul, hnonempty, Nat.not_le.mpr h.short, Bool.false_eq_true, if_false]

theorem spot_of_clear (h : tree.LinkFree) (husable : Usable path)
    (hclear : tree.Clear tree.workingDirectory path.components) (follow : Bool) :
    (∃ spot, tree.spot follow path = .ok spot) ∨ tree.spot follow path = .error .notFound := by
  obtain ⟨signs, -, hcomponents, hway⟩ := setOut_signs tree.workingDirectory path
  rw [hcomponents] at hclear
  rw [spot_of_usable husable]
  exact walk_of_clear h (clear_of_visited (hway _).2 hclear)

theorem spot_inv (h : tree.LinkFree) {follow : Bool} {spot : Spot}
    (hs : tree.spot follow path = .ok spot) :
    (∀ name, spot.last ≠ .name name) ∧ tree.Passable tree.workingDirectory path.components ∨
      ∃ passed name, path.components = passed ++ [.name name] ∧ spot.last = .name name ∧
        tree.Passable tree.workingDirectory passed ∧ name.utf8ByteSize ≤ nameLimit := by
  obtain ⟨-, hw⟩ := spot_eq_ok_iff.mp hs
  obtain ⟨signs, hsigns, hcomponents, hway⟩ := setOut_signs tree.workingDirectory path
  rw [hcomponents]
  refine (walk_inv h hw).imp ?_ ?_
  · rintro ⟨hlast, hpassable⟩
    exact ⟨hlast, passable_of_visited hsigns (hway _).2 hpassable⟩
  · rintro ⟨passed, name, heq, hlast, hpassed, hshort⟩
    exact ⟨signs ++ passed, name, by rw [heq, List.append_assoc], hlast,
      passable_of_visited hsigns (hway _).2 hpassed, hshort⟩

theorem exists_spot_of_passable (h : tree.LinkFree) (husable : Usable path)
    (hp : tree.Passable tree.workingDirectory path.components) (follow : Bool) :
    ∃ spot, tree.spot follow path = .ok spot := by
  rw [(setOut_eq tree _ path).2] at hp
  rw [spot_of_usable husable]
  exact walk_of_passable h follow linkLimit hp

/-- A path can be followed if its last piece means something and the others can be followed. -/
theorem exists_spot_of_trimmed (h : tree.LinkFree) (husable : Usable path)
    (htrimmed : path.Trimmed)
    (hshort : ∀ name, .name name ∈ path.components → name.utf8ByteSize ≤ nameLimit)
    (hp : tree.Passable tree.workingDirectory path.components.dropLast) (follow : Bool) :
    ∃ spot, tree.spot follow path = .ok spot := by
  cases htrimmed with
  | start start =>
    refine exists_spot_of_passable h husable ⟨?_, hshort⟩ follow
    cases start <;> simp [Path.components, Path.ofLead, Path.empty, Path.lead,
      Path.Lead.components, component?, visited]
  | @piece front last hlast =>
    rcases component?_cases last with ⟨-, hc⟩ | ⟨rfl, hc⟩ | ⟨hname, hc⟩
    · simp [Path.isTrivial, hc] at hlast
    · obtain ⟨-, -, hcomponents, -⟩ := setOut_concat tree tree.workingDirectory hc
        (rfl : (⟨front ++ [".."]⟩ : Path).pieces = front ++ [".."])
      refine exists_spot_of_passable h husable ?_ follow
      rw [hcomponents]
      exact passable_append.mpr ⟨hp, passable_cons_up.mpr passable_nil⟩
    · exact ⟨_, (spot_concat_iff h hname rfl).mpr ⟨⟨husable, hp, hshort⟩, rfl⟩⟩

end Files.FileTree

end JavaStubs
