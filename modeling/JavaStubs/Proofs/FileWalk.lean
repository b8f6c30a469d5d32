import JavaStubs.Files.Tree
import JavaStubs.Proofs.PathText

/-!
# Following paths where there are no links

In a tree without symbolic links the components of a path alone say where it leads: a name goes one
step down, two dots go one step up. The path can be followed if every place that its names lead
through is a directory. So a path leads to the same place in any other tree that has these
directories, whatever else changed.
-/
namespace JavaStubs.Files

open JavaStubs.Path (IsName component?)

/-- Where a component leads from a place, whatever is there. -/
def next (here : Place) : Component → Place
  | .root => []
  | .here => here
  | .up => here.dropLast
  | .name name => here ++ [name]

/-- Where components lead from a place, whatever is there. -/
def reach (here : Place) : List Component → Place
  | [] => here
  | component :: rest => reach (next here component) rest

/-- The places that names among components lead to on the way. -/
def visited (here : Place) : List Component → List Place
  | [] => []
  | .name name :: rest => (here ++ [name]) :: visited (here ++ [name]) rest
  | component :: rest => visited (next here component) rest

theorem reach_append (here : Place) (first second : List Component) :
    reach here (first ++ second) = reach (reach here first) second := by
  induction first generalizing here with
  | nil => rfl
  | cons component rest ih => exact ih (next here component)

theorem visited_append (here : Place) (first second : List Component) :
    visited here (first ++ second) = visited here first ++ visited (reach here first) second := by
  induction first generalizing here with
  | nil => rfl
  | cons component rest ih =>
    cases component with
    | name name => exact congrArg _ (ih (here ++ [name]))
    | root | here | up => exact ih _

theorem reach_names (here : Place) (names : List String) :
    reach here (names.map .name) = here ++ names := by
  induction names generalizing here with
  | nil => simp [reach]
  | cons name rest ih => simp [reach, next, ih]

theorem mem_visited_names {here place : Place} {names : List String} :
    place ∈ visited here (names.map .name) ↔
      ∃ front, front ≠ [] ∧ front <+: names ∧ place = here ++ front := by
  induction names generalizing here with
  | nil =>
    simp only [List.map_nil, visited, List.not_mem_nil, List.prefix_nil, false_iff]
    rintro ⟨front, hne, rfl, -⟩
    exact hne rfl
  | cons name rest ih =>
    rw [List.map_cons, visited, List.mem_cons, ih]
    constructor
    · rintro (rfl | ⟨front, -, hfront, rfl⟩)
      · exact ⟨[name], by simp, by simp, rfl⟩
      · exact ⟨name :: front, by simp, by simpa using hfront, by simp⟩
    · rintro ⟨front, hne, hfront, rfl⟩
      obtain ⟨first, others, rfl⟩ := List.exists_cons_of_ne_nil hne
      obtain ⟨rfl, hothers⟩ := List.cons_prefix_cons.mp hfront
      by_cases hnil : others = []
      · exact Or.inl (by rw [hnil])
      · exact Or.inr ⟨others, hnil, hothers, by simp⟩

namespace FileTree

/-- No place holds a symbolic link. -/
def LinkFree (tree : FileTree) : Prop := ∀ place target, tree.entry? place ≠ some (.link target)

/-- Whether components can be followed: their names are not too long, and the places that these lead
to are directories. -/
structure Passable (tree : FileTree) (here : Place) (components : List Component) : Prop where
  directories : ∀ place ∈ visited here components, tree.entry? place = some .directory
  short : ∀ name, .name name ∈ components → name.utf8ByteSize ≤ nameLimit

variable {tree other : FileTree} {here : Place}

theorem passable_nil : tree.Passable here [] := ⟨by simp [visited], by simp⟩

theorem passable_cons_name {name : String} {rest : List Component} :
    tree.Passable here (.name name :: rest) ↔ name.utf8ByteSize ≤ nameLimit ∧
      tree.entry? (here ++ [name]) = some .directory ∧ tree.Passable (here ++ [name]) rest := by
  constructor
  · rintro ⟨hdirectories, hshort⟩
    rw [visited, List.forall_mem_cons] at hdirectories
    exact ⟨hshort name List.mem_cons_self, hdirectories.1, hdirectories.2,
      fun n hn => hshort n (List.mem_cons_of_mem _ hn)⟩
  · rintro ⟨hname, hdirectory, hdirectories, hshort⟩
    refine ⟨?_, ?_⟩
    · rw [visited, List.forall_mem_cons]
      exact ⟨hdirectory, hdirectories⟩
    · intro n hn
      rcases List.mem_cons.mp hn with hn | hn
      · rw [Component.name.inj hn]
        exact hname
      · exact hshort n hn

/-- A component that is no name asks for nothing. -/
theorem passable_cons_sign {component : Component} (h : ∀ name, component ≠ .name name)
    {rest : List Component} :
    tree.Passable here (component :: rest) ↔ tree.Passable (next here component) rest := by
  have hvisited : visited here (component :: rest) = visited (next here component) rest := by
    cases component with
    | name name => exact absurd rfl (h name)
    | root | here | up => rfl
  constructor
  · rintro ⟨hdirectories, hshort⟩
    exact ⟨hvisited ▸ hdirectories, fun n hn => hshort n (List.mem_cons_of_mem _ hn)⟩
  · rintro ⟨hdirectories, hshort⟩
    refine ⟨hvisited ▸ hdirectories, fun n hn => hshort n ?_⟩
    exact (List.mem_cons.mp hn).resolve_left (h n).symm

theorem passable_cons_up {rest : List Component} :
    tree.Passable here (.up :: rest) ↔ tree.Passable here.dropLast rest :=
  passable_cons_sign (by simp)

theorem passable_append {first second : List Component} :
    tree.Passable here (first ++ second) ↔
      tree.Passable here first ∧ tree.Passable (reach here first) second := by
  constructor
  · rintro ⟨hdirectories, hshort⟩
    rw [visited_append, List.forall_mem_append] at hdirectories
    exact ⟨⟨hdirectories.1, fun n hn => hshort n (List.mem_append_left _ hn)⟩,
      ⟨hdirectories.2, fun n hn => hshort n (List.mem_append_right _ hn)⟩⟩
  · rintro ⟨⟨hfirst, hshort⟩, ⟨hsecond, hshort'⟩⟩
    refine ⟨?_, ?_⟩
    · rw [visited_append, List.forall_mem_append]
      exact ⟨hfirst, hsecond⟩
    · intro n hn
      rcases List.mem_append.mp hn with hn | hn
      · exact hshort n hn
      · exact hshort' n hn

/-- Components that can be followed in one tree can be followed in another one that has the
directories on the way. -/
theorem Passable.of_directories {components : List Component} (h : tree.Passable here components)
    (hkept : ∀ place ∈ visited here components, tree.entry? place = some .directory →
      other.entry? place = some .directory) : other.Passable here components :=
  ⟨fun place hp => hkept place hp (h.directories place hp), h.short⟩

/-- A piece means nothing, a step up, or itself. -/
theorem component?_cases (piece : String) :
    ((piece = "" ∨ piece = ".") ∧ component? piece = none) ∨
      (piece = ".." ∧ component? piece = some .up) ∨
      (IsName piece ∧ component? piece = some (.name piece)) := by
  by_cases hblank : piece = "" ∨ piece = "."
  · exact Or.inl ⟨hblank, if_pos hblank⟩
  · by_cases hup : piece = ".."
    · exact Or.inr (Or.inl ⟨hup, by rw [hup]; decide⟩)
    · rw [not_or] at hblank
      have hname : IsName piece := ⟨hblank.1, hblank.2, hup⟩
      exact Or.inr (Or.inr ⟨hname, hname.component?⟩)

theorem filterMap_component?_of_no_up {pieces : List String}
    (h : .up ∉ pieces.filterMap component?) :
    ∃ names : List String, pieces.filterMap component? = names.map .name := by
  induction pieces with
  | nil => exact ⟨[], rfl⟩
  | cons piece rest ih =>
    rcases component?_cases piece with ⟨-, hc⟩ | ⟨-, hc⟩ | ⟨-, hc⟩
    · rw [List.filterMap_cons_none hc] at h ⊢
      exact ih h
    · rw [List.filterMap_cons_some hc] at h
      exact absurd List.mem_cons_self h
    · rw [List.filterMap_cons_some hc] at h ⊢
      obtain ⟨names, hnames⟩ := ih fun hup => h (List.mem_cons_of_mem _ hup)
      exact ⟨piece :: names, by rw [hnames, List.map_cons]⟩

section walk

variable {follow : Bool} {links : Nat}

theorem walk_blank {pieces : List String} (h : pieces.all (· == "") = true) :
    tree.walk follow links here pieces = .ok ⟨here, .root, false⟩ := by
  induction pieces with
  | nil => rw [walk]
  | cons piece rest ih =>
    simp only [List.all_cons, Bool.and_eq_true, beq_iff_eq] at h
    rw [h.1, walk, ih h.2]

/-- A piece that means nothing is skipped if others follow. -/
theorem walk_trivial {piece : String} (hpiece : component? piece = none) {rest : List String}
    (hrest : rest.all (· == "") = false) :
    tree.walk follow links here (piece :: rest) = tree.walk follow links here rest := by
  by_cases hempty : piece = ""
  · rw [hempty, walk]
  · by_cases hdot : piece = "."
    · rw [hdot, walk]
      · simp [hrest]
      · simp
    · by_cases hup : piece = ".." <;> simp [component?, hempty, hdot, hup] at hpiece

theorem walk_up {rest : List String} (hrest : rest.all (· == "") = false) :
    tree.walk follow links here (".." :: rest) = tree.walk follow links here.dropLast rest := by
  rw [walk]
  · simp [hrest]
  · simp

theorem walk_here_last {rest : List String} (hrest : rest.all (· == "") = true) :
    tree.walk follow links here ("." :: rest) = .ok ⟨here, .here, !rest.isEmpty⟩ := by
  rw [walk]
  · simp [hrest]
  · simp

theorem walk_up_last {rest : List String} (hrest : rest.all (· == "") = true) :
    tree.walk follow links here (".." :: rest) = .ok ⟨here, .up, !rest.isEmpty⟩ := by
  rw [walk]
  · simp [hrest]
  · simp

/-- The last name of a path is not looked up. -/
theorem walk_last (h : tree.LinkFree) {name : String} (hname : IsName name) {rest : List String}
    (hrest : rest.all (· == "") = true) :
    tree.walk follow links here (name :: rest) =
      if nameLimit < name.utf8ByteSize then .error .nameTooLong
      else .ok ⟨here, .name name, !rest.isEmpty⟩ := by
  rw [walk]
  · simp only [hname.ne_here, hname.ne_up, hrest, if_false, if_true]
    congr 1
    split <;> rename_i hentry
    · exact absurd hentry (h _ _)
    · rfl
  · exact hname.ne_empty

theorem walk_name (h : tree.LinkFree) {name : String} (hname : IsName name) {rest : List String}
    (hrest : rest.all (· == "") = false) :
    tree.walk follow links here (name :: rest) =
      if nameLimit < name.utf8ByteSize then .error .nameTooLong
      else match tree.entry? (here ++ [name]) with
        | some .directory => tree.walk follow links (here ++ [name]) rest
        | some _ => .error .notDirectory
        | none => .error .notFound := by
  rw [walk]
  · simp only [hname.ne_here, hname.ne_up, hrest, if_false, Bool.false_eq_true]
    congr 1
    split <;> rename_i hentry
    · exact absurd hentry (h _ _)
    · rfl
  · exact hname.ne_empty

theorem filterMap_component?_of_blank {pieces : List String}
    (h : pieces.all (· == "") = true) : pieces.filterMap component? = [] := by
  rw [List.filterMap_eq_nil_iff]
  intro piece hp
  have hempty : piece = "" := by simpa using List.all_eq_true.mp h piece hp
  simp [component?, hempty]

/-- The last piece that is not empty says where the path leads from the place before it. -/
theorem walk_end (h : tree.LinkFree) {piece : String} {rest : List String}
    (hrest : rest.all (· == "") = true) {spot : Spot}
    (hw : tree.walk follow links here (piece :: rest) = .ok spot) :
    spot.directory = here ∧ spot.place = reach here ([piece].filterMap component?) ∧
      (tree.entry? spot.place = some .directory →
        tree.Passable here ([piece].filterMap component?)) := by
  rcases component?_cases piece with ⟨rfl | rfl, hc⟩ | ⟨rfl, hc⟩ | ⟨hp, hc⟩
  · rw [walk, walk_blank hrest] at hw
    obtain rfl := Except.ok.inj hw
    exact ⟨rfl, rfl, fun _ => passable_nil⟩
  · rw [walk_here_last hrest] at hw
    obtain rfl := Except.ok.inj hw
    exact ⟨rfl, rfl, fun _ => passable_nil⟩
  · rw [walk_up_last hrest] at hw
    obtain rfl := Except.ok.inj hw
    exact ⟨rfl, rfl, fun _ => passable_cons_up.mpr passable_nil⟩
  · rw [walk_last h hp hrest] at hw
    split at hw <;> rename_i hlong
    · cases hw
    · obtain rfl := Except.ok.inj hw
      rw [List.filterMap_cons_some hc]
      exact ⟨rfl, rfl, fun hd => passable_cons_name.mpr ⟨by omega, hd, passable_nil⟩⟩

/-- A path that can be followed leads where its components say, and to a directory only if
directories stand on the whole way; the directory before its last piece is reached through
directories. -/
theorem walk_sound (h : tree.LinkFree) {pieces : List String} {spot : Spot}
    (hw : tree.walk follow links here pieces = .ok spot) :
    spot.place = reach here (pieces.filterMap component?) ∧
      (tree.entry? spot.place = some .directory →
        tree.Passable here (pieces.filterMap component?)) ∧
      ∃ passed, tree.Passable here passed ∧ spot.directory = reach here passed := by
  induction pieces generalizing here with
  | nil =>
    rw [walk] at hw
    obtain rfl := Except.ok.inj hw
    exact ⟨rfl, fun _ => passable_nil, [], passable_nil, rfl⟩
  | cons piece rest ih =>
    cases hrest : rest.all (· == "") with
    | true =>
      obtain ⟨hdirectory, hplace, hpassable⟩ := walk_end h hrest hw
      rw [← List.singleton_append, List.filterMap_append, filterMap_component?_of_blank hrest,
        List.append_nil]
      exact ⟨hplace, hpassable, [], passable_nil, hdirectory⟩
    | false =>
      rcases component?_cases piece with ⟨hp, hc⟩ | ⟨rfl, hc⟩ | ⟨hp, hc⟩
      · rw [walk_trivial hc hrest] at hw
        rw [List.filterMap_cons_none hc]
        exact ih hw
      · rw [walk_up hrest] at hw
        rw [List.filterMap_cons_some hc, passable_cons_up]
        obtain ⟨hplace, hpassable, passed, hpassed, hdirectory⟩ := ih hw
        exact ⟨hplace, hpassable, .up :: passed, passable_cons_up.mpr hpassed, hdirectory⟩
      · rw [walk_name h hp hrest] at hw
        split at hw <;> rename_i hlong
        · cases hw
        · split at hw <;> rename_i hentry
          · obtain ⟨hplace, hpassable, passed, hpassed, hdirectory⟩ := ih hw
            have hstep {components : List Component}
                (hcomponents : tree.Passable (here ++ [piece]) components) :
                tree.Passable here (.name piece :: components) :=
              passable_cons_name.mpr ⟨by omega, hentry, hcomponents⟩
            rw [List.filterMap_cons_some hc]
            exact ⟨hplace, fun hd => hstep (hpassable hd), .name piece :: passed, hstep hpassed,
              hdirectory⟩
          · cases hw
          · cases hw

/-- A path can be followed if directories stand on the whole way. -/
theorem walk_of_passable (h : tree.LinkFree) (follow : Bool) (links : Nat) {pieces : List String}
    (hp : tree.Passable here (pieces.filterMap component?)) :
    ∃ spot, tree.walk follow links here pieces = .ok spot := by
  induction pieces generalizing here with
  | nil => exact ⟨_, by rw [walk]⟩
  | cons piece rest ih =>
    cases hrest : rest.all (· == "") with
    | true =>
      rcases component?_cases piece with ⟨rfl | rfl, -⟩ | ⟨rfl, -⟩ | ⟨hname, hc⟩
      · exact ⟨_, by rw [walk, walk_blank hrest]⟩
      · exact ⟨_, walk_here_last hrest⟩
      · exact ⟨_, walk_up_last hrest⟩
      · rw [List.filterMap_cons_some hc, passable_cons_name] at hp
        exact ⟨_, by rw [walk_last h hname hrest, if_neg (Nat.not_lt.mpr hp.1)]⟩
    | false =>
      rcases component?_cases piece with ⟨-, hc⟩ | ⟨rfl, hc⟩ | ⟨hname, hc⟩
      · rw [List.filterMap_cons_none hc] at hp
        rw [walk_trivial hc hrest]
        exact ih hp
      · rw [List.filterMap_cons_some hc, passable_cons_up] at hp
        rw [walk_up hrest]
        exact ih hp
      · rw [List.filterMap_cons_some hc, passable_cons_name] at hp
        obtain ⟨hsize, hentry, hothers⟩ := hp
        rw [walk_name h hname hrest, if_neg (Nat.not_lt.mpr hsize), hentry]
        exact ih hothers

/-- A path with a name at its end leads to the name in the directory before it. -/
theorem walk_concat_iff (h : tree.LinkFree) {front : List String} {name : String}
    (hname : IsName name) {spot : Spot} :
    tree.walk follow links here (front ++ [name]) = .ok spot ↔
      tree.Passable here (front.filterMap component?) ∧ name.utf8ByteSize ≤ nameLimit ∧
        spot = ⟨reach here (front.filterMap component?), .name name, false⟩ := by
  induction front generalizing here with
  | nil =>
    rw [List.nil_append, walk_last h hname rfl]
    split <;> rename_i hlong
    · constructor
      · rintro ⟨⟩
      · rintro ⟨-, hshort, -⟩
        omega
    · constructor
      · intro hw
        exact ⟨passable_nil, by omega, (Except.ok.inj hw).symm⟩
      · rintro ⟨-, -, rfl⟩
        rfl
  | cons piece rest ih =>
    have hrest : (rest ++ [name]).all (· == "") = false := by simp [hname.ne_empty]
    rw [List.cons_append]
    rcases component?_cases piece with ⟨-, hc⟩ | ⟨rfl, hc⟩ | ⟨hpiece, hc⟩
    · rw [walk_trivial hc hrest, List.filterMap_cons_none hc]
      exact ih
    · rw [walk_up hrest, List.filterMap_cons_some hc, passable_cons_up]
      exact ih
    · rw [walk_name h hpiece hrest, List.filterMap_cons_some hc, passable_cons_name]
      split <;> rename_i hlong
      · constructor
        · rintro ⟨⟩
        · rintro ⟨⟨hshort, -⟩, -⟩
          omega
      · split
        · rename_i hentry
          rw [ih]
          simp only [hentry, true_and, Nat.not_lt.mp hlong]
          rfl
        · rename_i hother hentry
          constructor
          · rintro ⟨⟩
          · rintro ⟨⟨-, hdirectory, -⟩, -⟩
            exact absurd (Option.some.inj (hentry.symm.trans hdirectory)) hother
        · rename_i hentry
          simp [hentry]

end walk

theorem setOut_eq (tree : FileTree) (here : Place) (path : Path) :
    reach here path.components =
        reach (setOut here path).1 ((setOut here path).2.filterMap component?) ∧
      (tree.Passable here path.components ↔
        tree.Passable (setOut here path).1 ((setOut here path).2.filterMap component?)) := by
  have hpieces := Path.pieces_eq_lead path
  unfold setOut Path.isAbsolute Path.components
  generalize path.lead = parts at hpieces ⊢
  obtain ⟨start, body⟩ := parts
  rw [hpieces]
  cases start with
  | root => exact ⟨rfl, passable_cons_sign (by simp)⟩
  | here => exact ⟨rfl, passable_cons_sign (by simp)⟩
  | nothing => exact ⟨rfl, Iff.rfl⟩

/-- A path whose text the system takes. -/
structure Usable (path : Path) : Prop where
  noNul : '\x00' ∉ path.text.toList
  nonempty : path.text ≠ ""
  short : path.text.utf8ByteSize < pathLimit

theorem spot_eq_ok_iff {follow : Bool} {path : Path} {spot : Spot} :
    tree.spot follow path = .ok spot ↔ Usable path ∧
      tree.walk follow linkLimit (setOut tree.workingDirectory path).1
        (setOut tree.workingDirectory path).2 = .ok spot := by
  unfold FileTree.spot
  simp only [List.contains_iff_mem, String.isEmpty_iff]
  split <;> rename_i hnul
  · exact ⟨nofun, fun hok => absurd hnul hok.1.noNul⟩
  · split <;> rename_i hempty
    · exact ⟨nofun, fun hok => absurd hempty hok.1.nonempty⟩
    · split <;> rename_i hlong
      · exact ⟨nofun, fun hok => absurd hok.1.short (Nat.not_lt.mpr hlong)⟩
      · exact ⟨fun hw => ⟨⟨hnul, hempty, Nat.not_le.mp hlong⟩, hw⟩, And.right⟩

/-- The place that a path leads to, whatever is there. -/
def placeOf (tree : FileTree) (path : Path) : Place :=
  reach tree.workingDirectory path.components

/-- Whether the directory can be reached in which the last name of a path stands. -/
structure Reaches (tree : FileTree) (path : Path) : Prop where
  usable : Usable path
  passable : tree.Passable tree.workingDirectory path.components.dropLast
  short : ∀ name, .name name ∈ path.components → name.utf8ByteSize ≤ nameLimit

theorem setOut_concat (tree : FileTree) (here : Place) {path : Path} {front : List String}
    {last : String} {c : Component} (hlast : component? last = some c)
    (hpath : path.pieces = front ++ [last]) : ∃ front',
      (setOut here path).2 = front' ++ [last] ∧
        path.components = path.components.dropLast ++ [c] ∧
        reach here path.components.dropLast =
          reach (setOut here path).1 (front'.filterMap component?) ∧
        (tree.Passable here path.components.dropLast ↔
          tree.Passable (setOut here path).1 (front'.filterMap component?)) := by
  obtain ⟨body, hbody, hfront⟩ := Path.lead_concat hlast hpath
  have hmeaning : (body ++ [last]).filterMap component? =
      body.filterMap component? ++ [c] := by
    simp [hlast]
  unfold setOut Path.isAbsolute Path.components
  rw [hpath, hfront]
  generalize path.lead = parts at hbody
  obtain ⟨start, rest⟩ := parts
  simp only at hbody ⊢
  rw [hbody, hmeaning, ← List.append_assoc, List.dropLast_concat]
  cases start with
  | root => exact ⟨body, rfl, rfl, rfl, passable_cons_sign (by simp)⟩
  | here => exact ⟨"." :: body, rfl, rfl, rfl, passable_cons_sign (by simp)⟩
  | nothing => exact ⟨body, rfl, rfl, rfl, Iff.rfl⟩

/-- A path to a name is followed up to the name, which must not be too long either. -/
theorem reaches_concat_iff {path : Path} {front : List String} {name : String}
    (hname : IsName name) (hpath : path.pieces = front ++ [name]) :
    tree.Reaches path ↔ Usable path ∧
      tree.Passable tree.workingDirectory path.components.dropLast ∧
        name.utf8ByteSize ≤ nameLimit := by
  obtain ⟨-, -, hcomponents, -⟩ := setOut_concat tree tree.workingDirectory hname.component? hpath
  constructor
  · rintro ⟨husable, hp, hshort⟩
    exact ⟨husable, hp, hshort name (by rw [hcomponents]; simp)⟩
  · rintro ⟨husable, hp, hsize⟩
    refine ⟨husable, hp, fun n hn => ?_⟩
    rw [hcomponents, List.mem_append, List.mem_singleton] at hn
    rcases hn with hn | hn
    · exact hp.short n hn
    · rw [Component.name.inj hn]
      exact hsize

theorem spot_concat_iff (h : tree.LinkFree) {path : Path} {front : List String} {name : String}
    (hname : IsName name) (hpath : path.pieces = front ++ [name]) {follow : Bool} {spot : Spot} :
    tree.spot follow path = .ok spot ↔ tree.Reaches path ∧
      spot = ⟨reach tree.workingDirectory path.components.dropLast, .name name, false⟩ := by
  obtain ⟨front', hfront, -, hreach, hpassable⟩ :=
    setOut_concat tree tree.workingDirectory hname.component? hpath
  rw [spot_eq_ok_iff, hfront, walk_concat_iff h hname, ← hreach, ← hpassable,
    reaches_concat_iff hname hpath]
  simp only [and_assoc]

theorem placeOf_concat {path : Path} {front : List String} {name : String} (hname : IsName name)
    (hpath : path.pieces = front ++ [name]) :
    tree.placeOf path = reach tree.workingDirectory path.components.dropLast ++ [name] := by
  obtain ⟨-, -, hcomponents, -⟩ :=
    setOut_concat tree tree.workingDirectory hname.component? hpath
  rw [placeOf, hcomponents, reach_append, List.dropLast_concat]
  rfl

theorem find_eq_ok_iff {path : Path} {place : Place} {entry : Entry} :
    tree.find path = .ok (place, entry) ↔ ∃ spot, tree.spot true path = .ok spot ∧
      spot.place = place ∧ tree.entry? place = some entry ∧
        (spot.slash = true → entry.isDirectory = true) := by
  unfold find
  cases hs : tree.spot true path with
  | error error => exact ⟨nofun, nofun⟩
  | ok spot =>
    simp only [bind, Except.bind]
    constructor
    · intro hfound
      split at hfound
      · cases hfound
      · rename_i found hentry
        split at hfound <;> rename_i hslash
        · cases hfound
        · obtain ⟨rfl, rfl⟩ := Prod.mk.inj (Except.ok.inj hfound)
          exact ⟨spot, rfl, rfl, hentry, by simpa using hslash⟩
    · rintro ⟨found, hok, rfl, hentry, hslash⟩
      obtain rfl := Except.ok.inj hok
      simp only [hentry]
      rw [if_neg (by simpa using hslash)]

/-- What a path with a name at its end leads to. -/
theorem find_concat_iff (h : tree.LinkFree) {path : Path} {front : List String} {name : String}
    (hname : IsName name) (hpath : path.pieces = front ++ [name]) {place : Place} {entry : Entry} :
    tree.find path = .ok (place, entry) ↔
      tree.Reaches path ∧ place = tree.placeOf path ∧ tree.entry? place = some entry := by
  rw [find_eq_ok_iff, placeOf_concat hname hpath]
  simp only [spot_concat_iff h hname hpath]
  constructor
  · rintro ⟨spot, ⟨hreaches, rfl⟩, rfl, hentry, -⟩
    exact ⟨hreaches, rfl, hentry⟩
  · rintro ⟨hreaches, rfl, hentry⟩
    exact ⟨_, ⟨hreaches, rfl⟩, rfl, hentry, by simp⟩

theorem isDirectory_iff_find {path : Path} :
    tree.isDirectory path = true ↔ ∃ place, tree.find path = .ok (place, .directory) := by
  unfold FileTree.isDirectory
  cases tree.find path with
  | error error => exact ⟨nofun, nofun⟩
  | ok found =>
    obtain ⟨place, entry⟩ := found
    cases entry <;> simp [Except.toOption, Entry.isDirectory]

/-- A path leads to a directory if directories stand on the whole way. -/
theorem isDirectory_iff (h : tree.LinkFree) {path : Path} :
    tree.isDirectory path = true ↔ Usable path ∧
      tree.Passable tree.workingDirectory path.components ∧
        tree.entry? (tree.placeOf path) = some .directory := by
  obtain ⟨hreach, hpassable⟩ := setOut_eq tree tree.workingDirectory path
  simp only [isDirectory_iff_find, find_eq_ok_iff, spot_eq_ok_iff, hpassable, placeOf, hreach]
  constructor
  · rintro ⟨place, spot, ⟨husable, hw⟩, rfl, hentry, -⟩
    obtain ⟨hplace, hway, -⟩ := walk_sound h hw
    exact ⟨husable, hway hentry, hplace ▸ hentry⟩
  · rintro ⟨husable, hway, hentry⟩
    obtain ⟨spot, hw⟩ := walk_of_passable h true linkLimit hway
    obtain ⟨hplace, -⟩ := walk_sound h hw
    exact ⟨_, spot, ⟨husable, hw⟩, hplace, hentry, fun _ => rfl⟩

end FileTree

end JavaStubs.Files
