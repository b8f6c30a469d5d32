import JavaStubs.Proofs.Outcomes
import JavaStubs.Proofs.ShownTree

/-!
# Where stub files belong

A Java class belongs in a directory that is named as its package is and in a file that is named as
the class is. The path of a stub is cut out of the qualified name at the dots, and so are the
package and the file's name. But the name in the header is cut at the last `$` as well, also where
the class is nested in no other. So the rule is kept exactly where the name has no `$` after its
last dot.
-/
namespace JavaStubs

namespace Text

/-- What follows the last separator is the whole text exactly if there is no separator. -/
theorem afterLast_eq_self_iff {sep : Char} {s : String} : afterLast sep s = s ↔ sep ∉ s.toList := by
  constructor
  · intro h
    obtain ⟨last, hlast⟩ := Option.isSome_iff_exists.mp
      (List.getLast?_isSome.mpr (splitAt_ne_nil sep s))
    rw [afterLast, hlast, Option.getD_some] at h
    exact h ▸ not_mem_of_mem_splitAt (List.mem_of_getLast? hlast)
  · intro h
    rw [afterLast, splitAt_of_not_mem h]
    rfl

/-- Another separator between pieces that do not hold the first one. -/
theorem exchange_join (old new : Char) {parts : List String} (h : Absent old parts) :
    exchange old new (join (String.singleton old) parts) = join (String.singleton new) parts := by
  have hkept : ∀ s : String, old ∉ s.toList → exchange old new s = s := by
    intro s hs
    apply String.toList_inj.mp
    rw [toList_exchange]
    refine (List.map_congr_left fun c hc => if_neg ?_).trans (List.map_id' _)
    rintro rfl
    exact hs hc
  have happend : ∀ s t : String,
      exchange old new (s ++ t) = exchange old new s ++ exchange old new t := by
    intro s t
    apply String.toList_inj.mp
    simp
  have hseparator : exchange old new (String.singleton old) = String.singleton new := by
    apply String.toList_inj.mp
    simp
  induction parts with
  | nil => rfl
  | cons part rest ih =>
    rw [absent_cons] at h
    cases rest with
    | nil => exact hkept part h.1
    | cons next others =>
      rw [join_cons_cons, join_cons_cons, happend, happend, hkept part h.1, hseparator, ih h.2]

end Text

namespace Names

theorem not_mem_of_isIdentifier {name : String} (h : isIdentifier name = true) :
    '/' ∉ name.toList := by
  intro hslash
  have hpart : isIdentifierPart '/' = false := by decide +kernel
  exact Bool.false_ne_true (hpart.symm.trans (isIdentifierPart_of_mem h hslash))

/-- A name of identifiers has proper segments. -/
theorem isDotted_of_identifiers {name : String}
    (h : ∀ segment ∈ Text.splitAt '.' name, isIdentifier segment = true) : IsDotted name := by
  intro segment hs
  refine ⟨?_, not_mem_of_isIdentifier (h segment hs)⟩
  rintro rfl
  exact absurd (h "" hs) (by decide)

end Names

namespace Stubs

open JavaStubs.Path

section

variable {name : String}

/-- The directory that a dotted name leads to. -/
def packageDirectory (name : String) : Path := ofLead .nothing (packages name)

theorem lead_names {names : List String} (hne : names ≠ []) (h : ∀ n ∈ names, IsName n) :
    (⟨names⟩ : Path).lead = (.nothing, names) := by
  obtain ⟨first, rest, rfl⟩ := List.exists_cons_of_ne_nil hne
  exact lead_of_isName (h first List.mem_cons_self) rest

theorem parent?_stubWay (h : Names.IsDotted name) :
    (⟨stubWay name⟩ : Path).parent? = some (packageDirectory name) := by
  have hnames : ∀ n ∈ packages name, IsName n :=
    fun n hn => isName_segment h (packages_subset name hn)
  have hlead : (⟨stubWay name⟩ : Path).lead = (.nothing, packages name ++ [stubFileName name]) :=
    lead_names (stubWay_ne_nil name) (isName_stubWay h)
  rw [parent?_of_lead hlead (isName_stubFileName name), trimEnd_of_isName hnames, packageDirectory]

theorem fileName?_stubWay (h : Names.IsDotted name) :
    (⟨stubWay name⟩ : Path).fileName? = some (stubFileName name) := by
  rw [fileName?, components, lead_names (stubWay_ne_nil name) (isName_stubWay h)]
  simp [stubWay, (isName_stubFileName name).component?]

theorem stubFileName_eq (name : String) :
    stubFileName name = Names.withoutPackage name ++ ".java" := by
  have hending : "." ++ stubExtension = ".java" := by decide
  rw [stubFileName, hending, Names.withoutPackage]

theorem beforeLast?_eq_packages (name : String) :
    Text.beforeLast? '.' name =
      if packages name = [] then none else some (Text.join "." (packages name)) := by
  have hparts : (Text.splitAt '.' name).dropLast = packages name := rfl
  rw [Text.beforeLast?, hparts]
  cases packages name <;> rfl

/-- The directory of a stub is written as its package is, with slashes in place of the dots. -/
theorem text_packageDirectory (name : String) :
    (packageDirectory name).text =
      ((Text.beforeLast? '.' name).map (Text.exchange '.' '/')).getD "" := by
  have habsent : Absent '.' (packages name) :=
    fun segment hs => Text.not_mem_of_mem_splitAt (packages_subset name hs)
  rw [packageDirectory, beforeLast?_eq_packages]
  cases hp : packages name with
  | nil => rfl
  | cons first rest =>
    rw [hp] at habsent
    rw [if_neg (List.cons_ne_nil _ _), Option.map_some, Option.getD_some]
    exact (Text.exchange_join '.' '/' habsent).symm

/-- A stub without package lies in the output directory itself. -/
theorem beforeLast?_eq_none_iff (h : Names.IsDotted name) :
    Text.beforeLast? '.' name = none ↔ packageDirectory name = .empty := by
  rw [packageDirectory, beforeLast?_eq_packages]
  cases hp : packages name with
  | nil => simp [ofLead]
  | cons first rest =>
    have hfirst : first ∈ Text.splitAt '.' name := packages_subset name (by simp [hp])
    simp [ofLead, Path.empty, (h first hfirst).1]

end

variable {settings : StubSettings} {decl : ClassDecl}

/-- A class and its constructors are written with the simple name. -/
theorem Printer.shown_simpleName (p : Printer) (rules : List CallRule)
    (h : decl.isAnonymous = false) : ∃ shown,
    p.shown rules decl = [shown] ∧ shown.header.name = decl.simpleName ∧
      ∀ constructor ∈ shown.constructors, constructor.className = decl.simpleName := by
  rw [p.shown_named rules h]
  refine ⟨_, rfl, ?_, ?_⟩
  · dsimp only [Printer.shownHeader]
  · rw [List.forall_mem_map]
    intro constructor _
    dsimp only [Printer.shownConstructor]

/-- Let a class get a stub, have no declared package and a name of identifiers between dots. Then
the directory of the file is the package with slashes in place of dots, and empty exactly if there
is no package clause; and the file's name is what follows the last dot, with the extension. The
class and its constructors are written with that name exactly if there is no `$` in it. -/
theorem stub_placement (index : ClassIndex) (protocol : List MethodDecl) (rules : List CallRule)
    (imports : ImportSet) (hdecision : settings.decision decl = .render)
    (hpackage : decl.package = none)
    (hname : ∀ segment ∈ Text.splitAt '.' decl.name, Names.isIdentifier segment = true) :
    let g := Generator.start settings index (.standard protocol) (rules.map CallRule.strategy)
    let file := (g.stubFile imports decl).1
    ∃ (shown : ShownClass) (directory : Path),
      (g.render imports decl).1 = some file.text ∧
      file.body = (Layout.empty.addAll [shown.fragment g.printer.dialect]).text ∧
      file.relativePath.parent? = some directory ∧
      directory.text = (file.package.map (Text.exchange '.' '/')).getD "" ∧
      (file.package = none ↔ directory = .empty) ∧
      file.relativePath.fileName? = some (decl.nameWithoutPackage ++ ".java") ∧
      ((shown.header.name = decl.nameWithoutPackage ∧
          ∀ constructor ∈ shown.constructors,
            constructor.className = decl.nameWithoutPackage) ↔
        '$' ∉ decl.nameWithoutPackage.toList) := by
  intro g file
  have hdotted := Names.isDotted_of_identifiers hname
  obtain ⟨shown, hshown, hheader, hconstructors⟩ :=
    g.printer.shown_simpleName rules (Generator.isAnonymous_of_render hdecision)
  have hconservative : Conservative g.printer.transform := conservative_standard protocol
  have hpath : file.relativePath = ⟨stubWay decl.name⟩ := by
    rw [StubFile.relativePath, Generator.stubFile_stub hconservative, append_ofDotted hdotted]
  have hclause : file.package = Text.beforeLast? '.' decl.name := by
    simp only [file, Generator.stubFile, Printer.printInto_snd hconservative,
      ClassDecl.packageName?, hpackage]
  refine ⟨shown, packageDirectory decl.name, ?_, ?_, ?_, ?_, ?_, ?_, ?_⟩
  · have hrender : g.decision decl = .render := hdecision
    rw [Generator.render, hrender]
  · change ((g.printer.printInto decl .empty).1).text = _
    rw [Printer.printInto_eq hconservative rfl, hshown, List.map_singleton]
  · rw [hpath, parent?_stubWay hdotted]
  · rw [hclause, text_packageDirectory]
  · rw [hclause, beforeLast?_eq_none_iff hdotted]
  · rw [hpath, fileName?_stubWay hdotted, stubFileName_eq, ClassDecl.nameWithoutPackage]
  · have hsimple : decl.simpleName = decl.nameWithoutPackage ↔
        '$' ∉ decl.nameWithoutPackage.toList := Text.afterLast_eq_self_iff
    rw [← hsimple, hheader]
    exact ⟨fun h => h.1, fun h => ⟨h, fun constructor hc => (hconstructors constructor hc).trans h⟩⟩

/-- A class whose name is an identifier with a `$` at the end. -/
def price : ClassDecl := .ofName "geo.Price$"

/-- The file is named for the class, but the header and the constructor have no name at all. -/
theorem price_misplaced :
    let settings : StubSettings := { outputDirectory := Path.ofString "out" }
    let g := Generator.start settings .empty
    settings.decision price = .render ∧ price.package = none ∧
      (∀ segment ∈ Text.splitAt '.' price.name, Names.isIdentifier segment = true) ∧
      (g.stubFile {} price).1.relativePath.fileName? = some "Price$.java" ∧
      ∀ shown ∈ g.printer.shown CallRule.usual price, shown.header.name = "" ∧
        ∀ constructor ∈ shown.constructors, constructor.className = "" := by
  intro settings g
  obtain ⟨shown, hshown, hheader, hconstructors⟩ :=
    g.printer.shown_simpleName CallRule.usual (rfl : price.isAnonymous = false)
  have hname : price.simpleName = "" := by decide +kernel
  rw [hname] at hheader hconstructors
  refine ⟨by decide +kernel, rfl, by decide +kernel, by decide +kernel, ?_⟩
  rw [hshown, List.forall_mem_singleton]
  exact ⟨hheader, hconstructors⟩

theorem shape_placed :
    let settings : StubSettings := { outputDirectory := Path.ofString "out" }
    let shape := ClassDecl.ofName "geo.Shape"
    let file := ((Generator.start settings .empty).stubFile {} shape).1
    ∃ (shown : ShownClass) (directory : Path),
      file.body = (Layout.empty.addAll [shown.fragment {}]).text ∧
      file.relativePath.parent? = some directory ∧ file.package = some "geo" ∧
      directory.text = "geo" ∧ file.relativePath.fileName? = some "Shape.java" ∧
      shown.header.name = "Shape" ∧ ∀ c ∈ shown.constructors, c.className = "Shape" := by
  intro settings shape file
  obtain ⟨shown, directory, -, hbody, hparent, hdirectory, -, hfile, hnames⟩ :=
    @stub_placement settings shape .empty [] CallRule.usual {} (by decide +kernel) rfl
      (by decide +kernel)
  have hpackage : file.package = some "geo" := by decide +kernel
  have hdollar : '$' ∉ shape.nameWithoutPackage.toList := by decide +kernel
  have hname : shape.nameWithoutPackage = "Shape" := by decide +kernel
  have hkept := hnames.mpr hdollar
  rw [hname] at hkept hfile
  refine ⟨shown, directory, hbody, hparent, hpackage, ?_, hfile, hkept.1, hkept.2⟩
  rw [hdirectory]
  decide +kernel

end Stubs

end JavaStubs
