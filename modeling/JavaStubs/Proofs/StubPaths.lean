import JavaStubs.Proofs.PathText
import JavaStubs.Stubs.Operations

/-!
# Paths of stubs

The stub of a class whose name has only proper segments lies where the segments lead, with the
extension after the last one. Writing and registering a stub compute its path in two ways; both
paths have the same components, and the registered one is a part of the written one. Two stubs lie
at the same path only if their classes have one name.
-/
namespace JavaStubs

/-- The segments of a dotted name are neither empty nor hold a slash. -/
def Names.IsDotted (name : String) : Prop :=
  ∀ segment ∈ Text.splitAt '.' name, segment ≠ "" ∧ '/' ∉ segment.toList

instance (name : String) : Decidable (Names.IsDotted name) :=
  inferInstanceAs (Decidable (∀ segment ∈ _, _))

namespace Stubs

open JavaStubs.Path

/-- The packages that a dotted name leads through. -/
def packages (name : String) : List String := (Text.splitAt '.' name).dropLast

/-- The name of a stub's file. -/
def stubFileName (name : String) : String := Text.afterLast '.' name ++ ("." ++ stubExtension)

/-- The names on the way from the output directory to a stub's file. -/
def stubWay (name : String) : List String := packages name ++ [stubFileName name]

theorem splitAt_eq_packages (name : String) :
    Text.splitAt '.' name = packages name ++ [Text.afterLast '.' name] := by
  have hlast : (Text.splitAt '.' name).getLast? = some (Text.afterLast '.' name) := by
    obtain ⟨last, hlast⟩ := List.getLast?_isSome.mpr (Text.splitAt_ne_nil '.' name) |>
      Option.isSome_iff_exists.mp
    rw [Text.afterLast, hlast, Option.getD_some]
  exact (List.dropLast_append_getLast? _ hlast).symm

/-- With the extension every text is a name. -/
theorem isName_append_extension (s : String) : IsName (s ++ ("." ++ stubExtension)) := by
  have hsize : 5 ≤ (s ++ ("." ++ stubExtension)).utf8ByteSize := by
    have hending : ("." ++ stubExtension).utf8ByteSize = 5 := by decide
    rw [String.utf8ByteSize_append, hending]
    omega
  constructor
  all_goals
    intro heq
    rw [heq] at hsize
    exact absurd hsize (by decide)

theorem isName_stubFileName (name : String) : IsName (stubFileName name) :=
  isName_append_extension _

/-- Different names lead to different files. -/
theorem stubWay_injective : Function.Injective stubWay := by
  intro a b h
  obtain ⟨hpackages, hfile⟩ := List.append_inj' h rfl
  have hlast : Text.afterLast '.' a = Text.afterLast '.' b := by
    have hfile := congrArg String.toList (List.cons.inj hfile).1
    simp only [stubFileName, String.toList_append, List.append_cancel_right_eq] at hfile
    exact String.toList_inj.mp hfile
  rw [← Text.join_splitAt '.' a, ← Text.join_splitAt '.' b, splitAt_eq_packages a,
    splitAt_eq_packages b, hpackages, hlast]

section

variable {name : String}

theorem isName_segment (h : Names.IsDotted name) {segment : String}
    (hs : segment ∈ Text.splitAt '.' name) : IsName segment := by
  have hdot := Text.not_mem_of_mem_splitAt hs
  refine ⟨(h segment hs).1, ?_, ?_⟩
  all_goals
    rintro rfl
    exact absurd hdot (by decide)

theorem packages_subset (name : String) : packages name ⊆ Text.splitAt '.' name :=
  (List.dropLast_sublist _).subset

theorem isName_stubWay (h : Names.IsDotted name) : ∀ n ∈ stubWay name, IsName n := by
  intro n hn
  rcases List.mem_append.mp hn with hn | hn
  · exact isName_segment h (packages_subset name hn)
  · rw [List.mem_singleton.mp hn]
    exact isName_stubFileName name

theorem absent_stubWay (h : Names.IsDotted name) : Absent '/' (stubWay name) := by
  have hsegments : Absent '/' (Text.splitAt '.' name) := fun segment hs => (h segment hs).2
  rw [splitAt_eq_packages] at hsegments
  have hending : '/' ∉ ".".toList ∧ '/' ∉ stubExtension.toList := by decide
  simp only [stubWay, absent_append, absent_cons, stubFileName, String.toList_append,
    List.mem_append, not_or] at hsegments ⊢
  exact ⟨hsegments.1, ⟨hsegments.2.1, hending⟩, hsegments.2.2⟩

theorem foldl_join_names {names : List String} (hnames : ∀ n ∈ names, IsName n)
    (hslash : Absent '/' names) {base : Path} (hbase : base.stem = base.pieces) :
    names.foldl (fun path piece => path.join (ofString piece)) base =
      ⟨base.pieces ++ names⟩ := by
  induction names generalizing base with
  | nil => simp
  | cons n rest ih =>
    rw [List.forall_mem_cons] at hnames
    rw [absent_cons] at hslash
    have hjoin : base.join (ofString n) = ⟨base.pieces ++ [n]⟩ := by
      rw [ofString_of_not_mem hslash.1, join_of_isName base hnames.1, hbase]
    have hstem : (⟨base.pieces ++ [n]⟩ : Path).stem = base.pieces ++ [n] := by
      simp [stem, hnames.1.ne_empty]
    rw [List.foldl_cons, hjoin, ih hnames.2 hslash.2 hstem]
    simp

theorem ofDotted_eq (h : Names.IsDotted name) : ofDotted name = ⟨Text.splitAt '.' name⟩ := by
  have hnames := fun n (hn : n ∈ Text.splitAt '.' name) => isName_segment h hn
  have hslash : Absent '/' (Text.splitAt '.' name) := fun segment hs => (h segment hs).2
  rw [ofDotted]
  cases hsegments : Text.splitAt '.' name with
  | nil => exact absurd hsegments (Text.splitAt_ne_nil '.' name)
  | cons first rest =>
    rw [hsegments] at hnames hslash
    rw [List.forall_mem_cons] at hnames
    rw [absent_cons] at hslash
    have hfirst : empty.join (ofString first) = ⟨[first]⟩ := by
      rw [ofString_of_not_mem hslash.1, join_of_isName empty hnames.1]
      rfl
    have hstem : (⟨[first]⟩ : Path).stem = [first] := by simp [stem, hnames.1.ne_empty]
    rw [List.foldl_cons, hfirst, foldl_join_names hnames.2 hslash.2 hstem]
    rfl

theorem components_ofDotted (h : Names.IsDotted name) :
    (ofDotted name).components = (Text.splitAt '.' name).map .name := by
  have hnames := fun n (hn : n ∈ Text.splitAt '.' name) => isName_segment h hn
  rw [ofDotted_eq h]
  cases hsegments : Text.splitAt '.' name with
  | nil => exact absurd hsegments (Text.splitAt_ne_nil '.' name)
  | cons first rest =>
    rw [hsegments] at hnames
    rw [components, lead_of_isName (hnames first (by simp))]
    exact filterMap_component?_of_isName hnames

/-- The path of a stub's file under the output directory is the way to it. -/
theorem append_ofDotted (h : Names.IsDotted name) :
    (ofDotted name).append ("." ++ stubExtension) = ⟨stubWay name⟩ := by
  have hwritten : (⟨Text.splitAt '.' name⟩ : Path).Written :=
    ⟨Text.splitAt_ne_nil '.' name, fun segment hs => (h segment hs).2⟩
  rw [ofDotted_eq h]
  rw [splitAt_eq_packages] at hwritten ⊢
  exact append_eq hwritten (by decide)

theorem stubWay_ne_nil (name : String) : stubWay name ≠ [] := by simp [stubWay]

theorem join_stubWay (base : Path) (h : Names.IsDotted name) :
    base.join ⟨stubWay name⟩ = ⟨base.stem ++ stubWay name⟩ :=
  (join_names base (stubWay_ne_nil name) (isName_stubWay h)).1

theorem components_join_stubWay (base : Path) (h : Names.IsDotted name) :
    (base.join ⟨stubWay name⟩).components = base.components ++ (stubWay name).map .name :=
  (join_names base (stubWay_ne_nil name) (isName_stubWay h)).2

/-- A stub's path is shown as the way to it from the output directory. -/
theorem relativeText_join (base : Path) (h : Names.IsDotted name) :
    relativeText base (base.join ⟨stubWay name⟩) = (⟨stubWay name⟩ : Path).text := by
  have hnames := isName_stubWay h
  rw [relativeText]
  cases hway : stubWay name with
  | nil => simp [stubWay] at hway
  | cons first rest => rw [stripBase?_join base (hway ▸ hnames), Option.getD_some]

/-- The path of a registered stub ends with the file's name, leads through pieces of the path under
which the stub is written, and has the same components. -/
theorem pathOf_ofDotted {registry : Registry} (hextension : registry.extension = stubExtension)
    (h : Names.IsDotted name) : ∃ front,
      registry.pathOf (ofDotted name) = ⟨front ++ [stubFileName name]⟩ ∧
      front.Sublist (registry.base.stem ++ packages name) ∧
      (registry.pathOf (ofDotted name)).components =
        registry.base.components ++ (stubWay name).map .name := by
  obtain ⟨body, hstem, hbefore, -⟩ := stem_eq registry.base
  generalize registry.base.lead.1 = start at hstem hbefore
  have hfile := isName_stubFileName name
  have hsegments := fun n (hn : n ∈ Text.splitAt '.' name) => isName_segment h hn
  obtain ⟨hjoin, hcomponents⟩ :=
    join_names registry.base (Text.splitAt_ne_nil '.' name) hsegments
  rw [← ofDotted_eq h] at hjoin hcomponents
  rw [splitAt_eq_packages, List.map_append, ← List.append_assoc] at hcomponents
  have hlast : IsName (Text.afterLast '.' name) :=
    hsegments _ (by rw [splitAt_eq_packages]; simp)
  have hlead : (registry.base.join (ofDotted name)).lead =
      (start, (body ++ packages name) ++ [Text.afterLast '.' name]) := by
    rw [hjoin, hstem]
    cases hparts : Text.splitAt '.' name with
    | nil => exact absurd hparts (Text.splitAt_ne_nil '.' name)
    | cons first rest =>
      rw [lead_append hbefore (hsegments first (by simp [hparts])), ← hparts, splitAt_eq_packages,
        List.append_assoc]
  have hparent := parent?_of_lead hlead hlast
  have hname : (registry.base.join (ofDotted name)).fileName? = some (Text.afterLast '.' name) := by
    simp [fileName?, hcomponents]
  have hpathOf : registry.pathOf (ofDotted name) =
      (ofLead start (trimEnd (body ++ packages name))).join ⟨[stubFileName name]⟩ := by
    have hslash := absent_stubWay h
    simp only [stubWay, absent_append, absent_cons] at hslash
    simp only [Registry.pathOf, withFileName, hname, hparent, hextension, Option.isSome_some,
      if_true, Option.getD_some]
    rw [String.append_assoc, ← ofString_of_not_mem hslash.2.1]
    rfl
  refine ⟨start.pieces ++ trimEnd (body ++ packages name), ?_, ?_, ?_⟩
  · rw [hpathOf, join_of_isName _ hfile, stem_ofLead_trimEnd]
  · rw [hstem, List.append_assoc]
    exact (trimEnd_isPrefix _).sublist.append_left _
  · obtain ⟨last, hlastParent⟩ := components_of_parent? hparent
    rw [hcomponents] at hlastParent
    rw [hpathOf, components_join _ hfile, ← (List.append_inj' hlastParent rfl).1]
    simp [stubWay, hfile.component?]

end

end Stubs

end JavaStubs
