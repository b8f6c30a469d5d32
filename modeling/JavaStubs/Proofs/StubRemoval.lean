import JavaStubs.Proofs.FileRemoval
import JavaStubs.Proofs.GeneratedFiles
import Mathlib.Data.List.Nodup

/-!
# Removing stubs

The paths of the stubs are computed anew from a registry of the classes that get a file; each name
is registered once. Under these paths the stubs can be deleted one after the other. Deleting one of
them takes away its file and, of the directories below the output directory that lead to it, those
that are left empty. So the others are still there, unless the path of the output directory itself
leads through such a directory.
-/
namespace JavaStubs

section

variable {α β : Type} [BEq α] [LawfulBEq α] [BEq β] [LawfulBEq β]

theorem eraseDups_concat (front : List α) (last : α) :
    (front ++ [last]).eraseDups =
      if front.contains last then front.eraseDups else front.eraseDups ++ [last] := by
  rw [List.eraseDups_append, List.removeAll]
  by_cases h : last ∈ front
  · simp [h]
  · simp [h, List.eraseDups_cons]

theorem eraseDups_map {f : α → β} {xs : List α}
    (hf : ∀ x ∈ xs, ∀ y ∈ xs, f x = f y → x = y) :
    (xs.map f).eraseDups = xs.eraseDups.map f := by
  induction xs using List.reverseRecOn with
  | nil => rfl
  | append_singleton front last ih =>
    have hcontains : (front.map f).contains (f last) = front.contains last := by
      rw [Bool.eq_iff_iff, List.contains_iff_mem, List.contains_iff_mem, List.mem_map]
      constructor
      · rintro ⟨x, hx, heq⟩
        rwa [← hf x (by simp [hx]) last (by simp) heq]
      · intro hlast
        exact ⟨last, hlast, rfl⟩
    rw [List.map_append, List.map_singleton, eraseDups_concat, eraseDups_concat, hcontains,
      ih fun x hx y hy => hf x (by simp [hx]) y (by simp [hy])]
    split
    · rfl
    · simp

end

namespace Stubs

open Files JavaStubs.Path
open Files.FileTree (Plain Grows Shrinks Sheds PrunedBelow Passable)

/-- The names of the classes that get a file, in order. -/
def renderedNames (model : DeclarationModel) (settings : StubSettings) : List String :=
  (model.topLevel.filter (settings.decision · = .render)).map (·.name)

theorem isDotted_of_mem_renderedNames {model : DeclarationModel} {settings : StubSettings}
    (hnames : ∀ decl ∈ model.topLevel, Names.IsDotted decl.name) {name : String}
    (h : name ∈ renderedNames model settings) : Names.IsDotted name := by
  obtain ⟨decl, hdecl, rfl⟩ := List.mem_map.mp h
  exact hnames decl (List.mem_filter.mp hdecl).1

theorem components_ofDotted_inj {name other : String} (h : Names.IsDotted name)
    (h' : Names.IsDotted other)
    (heq : (ofDotted name).components = (ofDotted other).components) : name = other := by
  rw [components_ofDotted h, components_ofDotted h'] at heq
  have hsegments := List.map_injective_iff.mpr (fun _ _ => Component.name.inj) heq
  rw [← Text.join_splitAt '.' name, hsegments, Text.join_splitAt]

/-- Registering classes one after the other registers each name once, in order of first occurrence:
induction from the end, since a name is compared with those before it. -/
theorem foldl_register {names : List String} (hnames : ∀ n ∈ names, Names.IsDotted n)
    (base : Path) :
    let registry := names.foldl (fun registry name => registry.register (ofDotted name))
      (Registry.empty base stubExtension)
    registry.base = base ∧ registry.extension = stubExtension ∧
      registry.stubs = names.eraseDups.map ofDotted := by
  induction names using List.reverseRecOn with
  | nil => exact ⟨rfl, rfl, rfl⟩
  | append_singleton front last ih =>
    obtain ⟨hbase, hextension, hstubs⟩ := ih fun n hn => hnames n (by simp [hn])
    rw [List.foldl_concat, eraseDups_concat]
    generalize front.foldl (fun registry name => registry.register (ofDotted name))
      (Registry.empty base stubExtension) = registry at hbase hextension hstubs ⊢
    have hcontains : registry.contains (ofDotted last) = front.contains last := by
      rw [Bool.eq_iff_iff, Registry.contains, List.contains_iff_mem, List.contains_iff_mem, hstubs,
        List.map_map, List.mem_map]
      constructor
      · rintro ⟨n, hn, heq⟩
        have hn := List.mem_eraseDups.mp hn
        rwa [← components_ofDotted_inj (hnames n (by simp [hn])) (hnames last (by simp)) heq]
      · intro hlast
        exact ⟨last, List.mem_eraseDups.mpr hlast, rfl⟩
    simp only [Registry.register, hcontains]
    split
    · exact ⟨hbase, hextension, hstubs⟩
    · exact ⟨hbase, hextension, by simp [hstubs]⟩

theorem registryOf_eq {model : DeclarationModel}
    (hnames : ∀ decl ∈ model.topLevel, Names.IsDotted decl.name) (settings : StubSettings) :
    (registryOf model settings).base = settings.outputDirectory ∧
      (registryOf model settings).extension = stubExtension ∧
      (registryOf model settings).stubs =
        (renderedNames model settings).eraseDups.map ofDotted := by
  have hrendered : ∀ n ∈ renderedNames model settings, Names.IsDotted n := fun _ =>
    isDotted_of_mem_renderedNames hnames
  have hfold := foldl_register hrendered settings.outputDirectory
  rwa [renderedNames, List.foldl_map] at hfold

/-- A path is straight if none of the directories that it names on its way lies below the place
where it ends. -/
def Straight (home : Place) (path : Path) : Prop :=
  ∀ via ∈ visited home path.components,
    reach home path.components <+: via → via = reach home path.components

instance (home : Place) (path : Path) : Decidable (Straight home path) :=
  inferInstanceAs (Decidable (∀ via ∈ _, _))

/-- An entry that may get lost when the stub of a class is deleted. -/
def LostWith (base : Place) (name : String) (place : Place) (entry : Entry) : Prop :=
  (place = base ++ stubWay name ∧ ∃ bytes, entry = .file bytes) ∨
    PrunedBelow base (packages name) place entry

section

variable {base place : Place} {name other : String} {entry : Entry} {tree after : FileTree}
  {registry : Registry}

/-- What may get lost stands strictly below the base. -/
theorem LostWith.below (h : LostWith base name place entry) :
    ∃ rest, rest ≠ [] ∧ place = base ++ rest := by
  rcases h with ⟨hplace, -⟩ | ⟨-, front, hne, -, hplace⟩
  · exact ⟨_, stubWay_ne_nil name, hplace⟩
  · exact ⟨front, hne, hplace⟩

/-- What gets lost with a stub is the stub itself or a directory that leads to it. -/
theorem LostWith.cases {out : Path} (h : LostWith (tree.placeOf out) name place entry)
    (hname : Names.IsDotted name) :
    tree.placeOf (stubPath out name) = place ∨ entry = .directory ∧
      (∃ names, names ≠ [] ∧ place = tree.placeOf out ++ names) ∧
        place <+: tree.placeOf (stubPath out name) := by
  rw [placeOf_stubPath hname]
  rcases h with ⟨rfl, -⟩ | ⟨hentry, front, hne, hfront, rfl⟩
  · exact Or.inl rfl
  · refine Or.inr ⟨hentry, ⟨front, hne, rfl⟩, ?_⟩
    rw [List.prefix_append_right_inj]
    exact hfront.trans (List.prefix_append _ _)

theorem Straight.not_lost {home : Place} {path : Path} (h : Straight home path) {via : Place}
    (hvia : via ∈ visited home path.components) :
    ¬ LostWith (reach home path.components) name via entry := by
  intro hlost
  obtain ⟨rest, hne, rfl⟩ := hlost.below
  exact hne (List.append_right_eq_self.mp (h _ hvia (List.prefix_append _ _)))

theorem Straight.passable {path : Path} (h : Straight tree.workingDirectory path)
    {lost : Place → Entry → Prop} (hshrinks : Shrinks lost tree after)
    (hlost : ∀ place entry, lost place entry →
      ∃ name, LostWith (tree.placeOf path) name place entry)
    (hp : tree.Passable tree.workingDirectory path.components) :
    after.Passable after.workingDirectory path.components := by
  rw [hshrinks.workingDirectory]
  refine hp.of_directories fun via hvia hdirectory => hshrinks.keeps hdirectory fun hbad => ?_
  obtain ⟨name, hname⟩ := hlost _ _ hbad
  exact h.not_lost hvia hname

theorem dropLast_components_stubPath (base : Path) (h : Names.IsDotted name) :
    (stubPath base name).components.dropLast = base.components ++ (packages name).map .name := by
  rw [stubPath, components_join_stubWay base h, stubWay, List.map_append, ← List.append_assoc]
  exact List.dropLast_concat

/-- A path to a stub can be followed if the one to the output directory can: where the stub is, the
directories that it lies in are, too. -/
theorem find_stub {out : Path} (hplain : tree.Plain) (hname : Names.IsDotted name)
    (husable : FileTree.Usable (stubPath out name))
    (hbase : tree.Passable tree.workingDirectory out.components)
    (hshort : ∀ n ∈ stubWay name, n.utf8ByteSize ≤ FileTree.nameLimit)
    (hentry : tree.entry? (tree.placeOf out ++ stubWay name) = some entry) :
    tree.find (stubPath out name) = .ok (tree.placeOf out ++ stubWay name, entry) := by
  have hlast := isName_stubFileName name
  have hpath : (stubPath out name).pieces = _ := pieces_stubPath hname
  refine (FileTree.find_concat_iff hplain.linkFree hlast hpath).mpr
    ⟨(FileTree.reaches_concat_iff hlast hpath).mpr ⟨husable, ?_, hshort _ (by simp [stubWay])⟩,
      (placeOf_stubPath hname).symm, hentry⟩
  rw [dropLast_components_stubPath out hname, FileTree.passable_append]
  refine ⟨hbase, fun via hvia => ?_, fun n hn => ?_⟩
  · obtain ⟨front, -, ⟨rest, hrest⟩, rfl⟩ := mem_visited_names.mp hvia
    rw [stubWay, ← hrest, List.append_assoc, ← List.append_assoc] at hentry
    exact hplain.of_append (by simp) hentry
  · obtain ⟨piece, hpiece, hsame⟩ := List.mem_map.mp hn
    obtain rfl := Component.name.inj hsame
    exact hshort piece (List.mem_append_left _ hpiece)

/-- The stub of another class stays when a stub is deleted. -/
theorem find_stub_of_shrinks {out : Path} (hstraight : Straight tree.workingDirectory out)
    (hother : Names.IsDotted other) (hne : other ≠ name) (hplain : tree.Plain)
    (hafter : after.Plain)
    (hshrinks : Shrinks (LostWith (tree.placeOf out) name) tree after) {bytes : ByteArray}
    (hfound : tree.find (stubPath out other) = .ok (place, .file bytes)) :
    after.find (stubPath out other) = .ok (place, .file bytes) := by
  obtain ⟨hreaches, hplace, hentry⟩ := (FileTree.find_concat_iff hplain.linkFree
    (isName_stubFileName other) (pieces_stubPath hother)).mp hfound
  rw [placeOf_stubPath hother] at hplace
  have hpassable := hreaches.passable
  rw [dropLast_components_stubPath out hother, FileTree.passable_append] at hpassable
  have hshort : ∀ n ∈ stubWay other, n.utf8ByteSize ≤ FileTree.nameLimit := by
    intro n hn
    refine hreaches.short n ?_
    rw [stubPath, components_join_stubWay out hother]
    exact List.mem_append_right _ (List.mem_map_of_mem hn)
  have hkept : after.entry? place = some (.file bytes) := by
    refine hshrinks.keeps hentry ?_
    rintro (⟨hsame, -⟩ | ⟨hdirectory, -⟩)
    · exact hne (stubWay_injective (List.append_cancel_left (hplace.symm.trans hsame)))
    · exact Entry.noConfusion hdirectory
  rw [hplace, ← hshrinks.placeOf] at hkept ⊢
  exact find_stub hafter hother hreaches.usable
    (hstraight.passable hshrinks (fun _ _ h => ⟨name, h⟩) hpassable.1) hshort hkept

theorem sheds_deleteEmptyParents {home : Place} {out path : Path} {names : List String}
    {last : String} (hpath : path.components = out.components ++ (names ++ [last]).map .name) :
    Sheds home (PrunedBelow (reach home out.components) names)
      (Registry.deleteEmptyParents out path : StateM FileTree Unit) := by
  unfold Registry.deleteEmptyParents
  split
  · rename_i parent hparent
    obtain ⟨_, hcomponents⟩ := components_of_parent? hparent
    rw [hpath, List.map_append, ← List.append_assoc] at hcomponents
    have hdirectory := (List.append_inj' hcomponents rfl).1.symm
    exact (FileTree.sheds_deleteWhileEmpty hdirectory).bind fun _ => Sheds.pure _
  · exact Sheds.pure _

/-- A stub can be deleted under the path that is registered for its class. -/
theorem deleteIfPresent_pathOf (hextension : registry.extension = stubExtension)
    (hname : Names.IsDotted name) (hplain : tree.Plain) {bytes : ByteArray}
    (hfound : tree.find (stubPath registry.base name) = .ok (place, .file bytes)) :
    deleteIfPresent (m := StateM FileTree) (registry.pathOf (ofDotted name)) tree =
        (.ok true, tree.erase place) ∧
      place = tree.placeOf registry.base ++ stubWay name ∧
      tree.entry? place = some (.file bytes) := by
  have hlast := isName_stubFileName name
  have hpath : (stubPath registry.base name).pieces = _ := pieces_stubPath hname
  obtain ⟨front, hregistered, hfront, hcomponents⟩ := pathOf_ofDotted hextension hname
  obtain ⟨hreaches, hplace, hentry⟩ :=
    (FileTree.find_concat_iff hplain.linkFree hlast hpath).mp hfound
  have hregistered : (registry.pathOf (ofDotted name)).pieces = front ++ [stubFileName name] := by
    rw [hregistered]
  have husable : FileTree.Usable (registry.pathOf (ofDotted name)) := by
    refine hreaches.usable.of_sublist ?_ ?_
    · rw [hregistered, hpath]
      exact hfront.append_right _
    · intro htext
      rcases Text.join_eq_empty (by decide) htext with hpieces | hpieces
      · simp [hregistered] at hpieces
      · rw [hregistered] at hpieces
        have hempty := (List.append_inj' (hpieces.trans (List.nil_append _).symm) rfl).2
        exact hlast.ne_empty (List.cons.inj hempty).1
  have hsame : (registry.pathOf (ofDotted name)).components =
      (stubPath registry.base name).components := by
    rw [hcomponents, stubPath, components_join_stubWay _ hname]
  have hfound' := FileTree.find_of_components hplain.linkFree hlast hpath hregistered hsame husable
    hfound
  exact ⟨FileTree.deleteIfPresent_of_find hplain.linkFree hlast hregistered hfound',
    hplace.trans (placeOf_stubPath hname), hentry⟩

/-- What is left when a stub and the directories that this leaves empty were deleted. -/
theorem deleteEmptyParents_stub (hextension : registry.extension = stubExtension)
    (hname : Names.IsDotted name) (hplain : tree.Plain) {bytes : ByteArray}
    (hplace : place = tree.placeOf registry.base ++ stubWay name)
    (hentry : tree.entry? place = some (.file bytes)) :
    let after := (Registry.deleteEmptyParents (m := StateM FileTree) registry.base
      (registry.pathOf (ofDotted name)) (tree.erase place)).2
    after.Plain ∧ Shrinks (LostWith (tree.placeOf registry.base) name) tree after ∧
      after.entry? place = none := by
  intro after
  have hne : place ≠ [] := by simp [hplace, stubWay]
  have herased := (FileTree.plain_erase hplain hne (by simp [hentry])).1
  obtain ⟨-, -, -, hcomponents⟩ := pathOf_ofDotted hextension hname
  obtain ⟨hafter, hpruned⟩ := sheds_deleteEmptyParents hcomponents (tree.erase place) herased rfl
  have hgone : FileTree.entry? (tree.erase place) place = none := by
    rw [FileTree.entry?_erase tree hne, if_pos rfl]
  refine ⟨hafter, ?_, ?_⟩
  · refine (FileTree.shrinks_erase hne hentry).mono ?_ |>.trans (hpruned.mono fun _ _ => Or.inr)
    rintro other found ⟨rfl, rfl⟩
    exact Or.inl ⟨hplace, bytes, rfl⟩
  · rcases hpruned.entries place with hsame | ⟨hnone, -⟩
    · exact hsame.trans hgone
    · exact hnone

theorem removeAll_cons (out path : Path) (rest : List Path) {erased : FileTree}
    (h : deleteIfPresent (m := StateM FileTree) path tree = (.ok true, erased)) :
    Registry.removeAll (m := StateM FileTree) out (path :: rest) tree =
      let others := Registry.removeAll (m := StateM FileTree) out rest
        (Registry.deleteEmptyParents (m := StateM FileTree) out path erased).2
      (others.1.map fun r => { r with deleted := path :: r.deleted }, others.2) := by
  simp only [Registry.removeAll, FileTree.bind_apply, h]
  rfl

/-- Stubs that are there can all be deleted, and nothing goes but them and directories that this
leaves empty: induction over the stubs, since the others are still there when one was deleted. -/
theorem removeAll_stubs (hextension : registry.extension = stubExtension) (hplain : tree.Plain)
    (hstraight : Straight tree.workingDirectory registry.base) {names : List String}
    (hnames : ∀ n ∈ names, Names.IsDotted n) (hdistinct : names.Nodup)
    (hstands : ∀ n ∈ names, ∃ place bytes,
      tree.find (stubPath registry.base n) = .ok (place, .file bytes)) :
    let paths := names.map fun n => registry.pathOf (ofDotted n)
    let run := Registry.removeAll (m := StateM FileTree) registry.base paths tree
    run.1 = .ok { deleted := paths } ∧ run.2.Plain ∧
      Shrinks (fun place entry => ∃ n ∈ names, LostWith (tree.placeOf registry.base) n place entry)
        tree run.2 ∧
      ∀ n ∈ names, FileTree.entry? run.2 (tree.placeOf registry.base ++ stubWay n) = none := by
  induction names generalizing tree with
  | nil => exact ⟨rfl, hplain, Shrinks.refl _ _, by simp⟩
  | cons name rest ih =>
    rw [List.forall_mem_cons] at hnames hstands
    rw [List.nodup_cons] at hdistinct
    obtain ⟨place, bytes, hfound⟩ := hstands.1
    obtain ⟨hdeleted, hplace, hentry⟩ := deleteIfPresent_pathOf hextension hnames.1 hplain hfound
    obtain ⟨hafter, hshrinks, hgone⟩ :=
      deleteEmptyParents_stub hextension hnames.1 hplain hplace hentry
    simp only [List.map_cons, removeAll_cons _ _ _ hdeleted]
    generalize (Registry.deleteEmptyParents (m := StateM FileTree) registry.base
      (registry.pathOf (ofDotted name)) (tree.erase place)).2 = after at hafter hshrinks hgone ⊢
    have hothers : ∀ n ∈ rest, ∃ place bytes,
        after.find (stubPath registry.base n) = .ok (place, .file bytes) := by
      intro n hn
      obtain ⟨place, bytes, hfound⟩ := hstands.2 n hn
      have hne : n ≠ name := by
        rintro rfl
        exact hdistinct.1 hn
      exact ⟨place, bytes, find_stub_of_shrinks hstraight (hnames.2 n hn) hne hplain hafter
        hshrinks hfound⟩
    obtain ⟨hresult, hfinal, hshrinks', hgone'⟩ := ih hafter
      (hshrinks.workingDirectory.symm ▸ hstraight) hnames.2 hdistinct.2 hothers
    rw [hshrinks.placeOf] at hshrinks' hgone'
    refine ⟨by rw [hresult]; rfl, hfinal, ?_, ?_⟩
    · refine (hshrinks.mono fun _ _ h => ⟨name, by simp, h⟩).trans (hshrinks'.mono ?_)
      rintro place entry ⟨n, hn, hlost⟩
      exact ⟨n, by simp [hn], hlost⟩
    · rw [List.forall_mem_cons]
      refine ⟨?_, hgone'⟩
      rw [← hplace]
      rcases hshrinks'.entries place with hsame | ⟨hnone, -⟩
      · exact hsame.trans hgone
      · exact hnone

end

end Stubs

end JavaStubs
