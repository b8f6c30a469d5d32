import JavaStubs.Proofs.BalancedStubs
import JavaStubs.Proofs.LineText
import JavaStubs.Proofs.ShownCalls

/-!
# The text of nested declarations

The text of a declaration is put together from its own lines and the texts of its nested
declarations, each of them as it would stand alone but four spaces further to the right. Printing at
any depth, after any text, appends just that text behind the spaces of the depth. So no text of a
nested declaration depends on its owner or on its neighbours, and no member gets into the body of
another declaration.
-/
namespace JavaStubs

open Source

namespace Stubs

/-! ### Lines -/

section

variable {c : Char}

theorem not_mem_callText (hc : Foreign c) (target : CallTarget) {arguments : List String}
    (h : Absent c arguments) : c ∉ (callText target arguments).toList := by
  have hkeyword : c ∉ target.keyword.toList := by
    cases target <;> exact hc.not_mem (by decide)
  simp only [callText, String.toList_append, List.mem_append, not_or]
  exact ⟨⟨⟨hkeyword, hc.not_mem (by decide)⟩, Text.not_mem_join (hc.not_mem (by decide)) h⟩,
    hc.not_mem (by decide)⟩

theorem ShownArgument.lineFeed_not_mem_text (dialect : Dialect) {argument : ShownArgument}
    (h : ∀ type, argument = .defaultOf type → Absent '\n' type.names) :
    '\n' ∉ (argument.text dialect).toList := by
  cases argument with
  | defaultOf type => exact Dialect.not_mem_defaultValue foreign_lineFeed dialect (h type rfl)
  | constant value => exact lineFeed_not_mem_literalText value

theorem ShownCall.lineFeed_not_mem_text (dialect : Dialect) {call : ShownCall}
    (h : ∀ type ∈ call.types, Absent '\n' type.names) : '\n' ∉ (call.text dialect).toList := by
  apply not_mem_callText foreign_lineFeed
  intro text ht
  obtain ⟨argument, ha, rfl⟩ := List.mem_map.mp ht
  apply argument.lineFeed_not_mem_text dialect
  rintro type rfl
  exact h type (List.mem_filterMap.mpr ⟨_, ha, rfl⟩)

theorem absent_of_type? {argument : Expression} {type : TypeRef} (h : Absent c argument.names)
    (ht : argument.type? = some type) : Absent c type.names := by
  cases argument with
  | constant value => simp [Expression.type?] at ht
  | reference name own =>
    obtain rfl := Option.some.inj ht
    exact (absent_cons.mp h).2
  | other own =>
    obtain rfl := Option.some.inj ht
    exact h

/-- Whichever of the rules decides, the call is a single line. -/
theorem CallSite.lineFeed_not_mem_chosenCall {site : CallSite}
    (h : Absent '\n' site.constructor.names) (hcall : site.constructor.firstCall = some site.call)
    (hindex : ∀ name known, site.index.get? name = some known → Absent '\n' known.parameterNames)
    (rules : List CallRule) :
    '\n' ∉ (site.chosenCall (rules.map CallRule.strategy)).toList := by
  simp only [ConstructorDecl.names, absent_append, hcall, Option.toList_some,
    List.flatMap_singleton, absent_flatMap] at h
  obtain ⟨⟨hparameters, -⟩, harguments⟩ := h
  rw [chosenCall_eq_text]
  apply ShownCall.lineFeed_not_mem_text
  intro type ht
  rcases site.shownCall_cases rules with ⟨target, htarget, heq⟩ | ⟨-, heq | heq⟩ <;> rw [heq] at ht
  · rw [ShownCall.types_superCall] at ht
    obtain ⟨p, hp, rfl⟩ := List.mem_map.mp ht
    obtain ⟨known, hknown, hfind⟩ :=
      Option.bind_eq_some_iff.mp (accessibleSuper?_of_borrowed? htarget)
    have hnames := absent_flatMap.mp (hindex _ known hknown) target
      (List.mem_of_find?_eq_some hfind)
    exact absent_flatMap.mp hnames p hp
  · simp at ht
  · rcases mem_types_ownShown ht with rfl | ⟨p, hp, rfl⟩ | ⟨argument, ha, htype⟩
    · rw [TypeRef.names_string, absent_cons]
      exact ⟨by decide, absent_nil⟩
    · have hnames := hparameters p hp
      simp only [Parameter.names, absent_cons, absent_append] at hnames
      exact hnames.2.1
    · exact absent_of_type? (harguments argument ha) htype

end

namespace Printer

/-- What the printer knows besides the declaration has no line feeds in its names, and its calls are
chosen by rules. -/
structure KeepsLines (p : Printer) (protocol : List MethodDecl) : Prop where
  transform : p.transform = .standard protocol
  follows : ∃ rules, p.Follows rules
  protocol : Absent '\n' (protocol.flatMap MethodDecl.names)
  index : ∀ name known, p.index.get? name = some known → Absent '\n' known.parameterNames

variable {p : Printer} {protocol : List MethodDecl} {decl : ClassDecl}

theorem KeepsLines.conservative (hp : p.KeepsLines protocol) : Conservative p.transform :=
  hp.transform ▸ conservative_standard protocol

theorem unbroken_method (decl : ClassDecl) {method : MethodDecl} (h : Absent '\n' method.names) :
    Unbroken (p.methodLine decl method).fragment := by
  have hsignature := p.not_mem_methodSignature foreign_lineFeed decl h
  have hresult : Absent '\n' method.returnType.names := by
    simp only [MethodDecl.names, MethodDecl.signatureNames, absent_cons, absent_append] at h
    exact h.2.1.1.1
  have hvalue := Dialect.not_mem_defaultValue foreign_lineFeed p.dialect hresult
  have hbody : '\n' ∉ (p.methodBody decl method).text.toList := by
    unfold methodBody
    split
    · decide
    · split
      · decide
      · simp only [MethodBody.text, String.toList_append, List.mem_append, not_or]
        exact ⟨⟨by decide, hvalue⟩, by decide⟩
  apply Unbroken.line
  rw [MethodLine.text_eq, String.toList_append, List.mem_append, not_or]
  exact ⟨hsignature, hbody⟩

theorem unbroken_constructor (hp : p.KeepsLines protocol) (hd : Absent '\n' decl.ownNames)
    {constructor : ConstructorDecl} (h : Absent '\n' constructor.names) :
    Unbroken (p.constructorText decl constructor).fragment := by
  have hsignature :=
    p.not_mem_constructorSignature foreign_lineFeed (absentIn_of_absent hd).name h
  have hopening : ∀ ending : String, '\n' ∉ ending.toList →
      '\n' ∉ ((p.constructorText decl constructor).signature ++ ending).toList := by
    intro ending he
    rw [String.toList_append, List.mem_append, not_or]
    exact ⟨hsignature, he⟩
  unfold ConstructorText.fragment
  split
  · exact .line (hopening _ (by decide))
  · next call heq =>
    obtain ⟨own, hown, rfl⟩ := Option.map_eq_some_iff.mp heq
    refine .block (hopening _ (by decide)) ?_
    intro fragment hf
    obtain rfl := List.mem_singleton.mp hf
    obtain ⟨rules, hrules⟩ := hp.follows
    exact .line (hrules ▸ CallSite.lineFeed_not_mem_chosenCall h hown hp.index rules)

/-- Every member of a class, declared or made, is made of whole lines. -/
theorem unbroken_ownMembers (hp : p.KeepsLines protocol) (hd : Absent '\n' decl.ownNames) :
    ∀ fragment ∈ p.ownMembers decl (p.made decl), Unbroken fragment := by
  have habsent : AbsentIn '\n' decl := absentIn_of_absent hd
  intro fragment hf
  simp only [ownMembers, List.mem_append] at hf
  rcases hf with ((hf | hf) | hf) | hf
  · unfold constants at hf
    split at hf
    · simp at hf
    · obtain rfl := List.mem_singleton.mp hf
      exact .line (not_mem_constantsText foreign_lineFeed (absent_constantNames habsent))
  · obtain ⟨field, hfield, rfl⟩ := List.mem_map.mp hf
    exact .line (p.not_mem_fieldLine foreign_lineFeed decl
      (habsent.fields field (List.mem_filter.mp hfield).1))
  · obtain ⟨constructor, hc, rfl⟩ := List.mem_map.mp hf
    exact unbroken_constructor hp hd (absent_shownConstructor hp.transform habsent hc)
  · obtain ⟨method, hm, rfl⟩ := List.mem_map.mp hf
    exact unbroken_method decl
      (absent_shownMethod hp.transform foreign_lineFeed habsent (absent_flatMap.mp hp.protocol) hm)

theorem lineFeed_not_mem_header (hd : Absent '\n' decl.ownNames) :
    '\n' ∉ (p.header decl).text.toList := by
  rw [Header.text_eq, String.toList_append, List.mem_append, not_or]
  exact ⟨p.not_mem_opening foreign_lineFeed (absentIn_of_absent hd), by decide⟩

/-! ### The text of a tree -/

/-- The lines that a class has of its own: its header and, further to the right, its constants,
fields, constructors and methods. -/
def ownLines (p : Printer) (decl : ClassDecl) : List String :=
  (p.header decl).text ::
    (Fragment.listLines (p.ownMembers decl (p.made decl))).map (Text.spaces 4 ++ ·)

mutual

/-- The text of a class: its own lines, which do not see the nested classes, then the nested
classes, and a line with a brace. -/
def stubText (p : Printer) (decl : ClassDecl) : String :=
  match decl with
  | { inner, .. } =>
    Text.unlines (p.ownLines { decl with inner := [] }) ++ p.nestedText inner ++ "\x7d\n"

/-- The texts of nested classes, each one further to the right. Anonymous classes have none. -/
def nestedText (p : Printer) : List ClassDecl → String
  | [] => ""
  | decl :: rest =>
    (if decl.isAnonymous then "" else Text.indented 4 (p.stubText decl)) ++ p.nestedText rest

end

/-- The own lines do not depend on the nested classes, since rules do not ask for them. -/
theorem ownLines_inner (hp : p.KeepsLines protocol) (decl : ClassDecl) (inner : List ClassDecl) :
    p.ownLines { decl with inner } = p.ownLines decl := by
  have hmade : p.made { decl with inner } = p.made decl := by
    rw [made, made, hp.transform]
    rfl
  obtain ⟨rules, hrules⟩ := hp.follows
  have hcall : ∀ constructor call,
      CallSite.chosenCall ⟨{ decl with inner }, constructor, call, p.index, p.dialect⟩
          p.strategies =
        CallSite.chosenCall ⟨decl, constructor, call, p.index, p.dialect⟩ p.strategies := by
    intro constructor call
    rw [hrules, CallSite.chosenCall_rules, CallSite.chosenCall_rules]
    rfl
  have hconstructor : ∀ constructor,
      p.constructorText { decl with inner } constructor = p.constructorText decl constructor := by
    intro constructor
    simp only [constructorText, hcall]
    rfl
  rw [ownLines, ownLines, hmade, ownMembers, ownMembers, funext hconstructor]
  rfl

/-- A class whose nested classes are made of whole lines is so itself. -/
theorem unbroken_of_inner (hp : p.KeepsLines protocol) (hd : Absent '\n' decl.ownNames)
    (hinner : ∀ fragment ∈ (p.printAll decl.inner).1, Unbroken fragment) :
    ∀ fragment ∈ (p.print decl).1, Unbroken fragment := by
  intro fragment hf
  cases hanonymous : decl.isAnonymous with
  | true => simp [print_anonymous hanonymous] at hf
  | false =>
    rw [print_named hp.conservative hanonymous] at hf
    obtain rfl := List.mem_singleton.mp hf
    refine .block (lineFeed_not_mem_header hd) ?_
    intro member hm
    rcases List.mem_append.mp hm with hm | hm
    · exact unbroken_ownMembers hp hd member hm
    · exact hinner member hm

mutual

/-- A declaration is made of whole lines: induction over the tree. -/
theorem unbroken_print (hp : p.KeepsLines protocol) : (decl : ClassDecl) →
    Absent '\n' decl.names → ∀ fragment ∈ (p.print decl).1, Unbroken fragment
  | { inner, .. }, h => by
    rw [ClassDecl.names, absent_append] at h
    exact unbroken_of_inner hp h.1 (unbroken_printAll hp inner h.2)

theorem unbroken_printAll (hp : p.KeepsLines protocol) : (decls : List ClassDecl) →
    Absent '\n' (ClassDecl.listNames decls) → ∀ fragment ∈ (p.printAll decls).1, Unbroken fragment
  | [], _ => by simp [printAll]
  | decl :: rest, h => by
    rw [ClassDecl.listNames, absent_append] at h
    have hfirst := unbroken_print hp decl h.1
    have hrest := unbroken_printAll hp rest h.2
    intro fragment hf
    rw [printAll] at hf
    rcases List.mem_append.mp hf with hf | hf
    · exact hfirst fragment hf
    · exact hrest fragment hf

end

/-- The lines of a class that is not anonymous: its own, those of its nested classes further to the
right, and the brace. -/
theorem listLines_print (hp : p.KeepsLines protocol) (hnamed : decl.isAnonymous = false) :
    Fragment.listLines (p.print decl).1 =
      p.ownLines decl ++
        (Fragment.listLines (p.printAll decl.inner).1).map (Text.spaces 4 ++ ·) ++ ["\x7d"] := by
  rw [print_named hp.conservative hnamed, Fragment.listLines, Fragment.listLines, Fragment.lines,
    body, Fragment.listLines_append, List.map_append, ownLines]
  simp only [List.cons_append, List.append_assoc, List.append_nil]

theorem stubText_eq (p : Printer) (decl : ClassDecl) :
    p.stubText decl =
      Text.unlines (p.ownLines { decl with inner := [] }) ++ p.nestedText decl.inner ++
        "\x7d\n" := by
  obtain ⟨⟩ := decl
  rw [stubText]

theorem stubText_of_inner (hp : p.KeepsLines protocol) (hnamed : decl.isAnonymous = false)
    (hinner : p.nestedText decl.inner =
      Text.unlines ((Fragment.listLines (p.printAll decl.inner).1).map (Text.spaces 4 ++ ·))) :
    p.stubText decl = Text.unlines (Fragment.listLines (p.print decl).1) := by
  rw [listLines_print hp hnamed, stubText_eq, hinner, ownLines_inner hp,
    Text.unlines_append, Text.unlines_append]
  rfl

mutual

/-- The text of a class is the text of the lines that are printed for it. Induction over the tree:
the texts of nested classes are indented line by line, which is what indenting them as texts does
because no line of them is broken. -/
theorem stubText_eq_unlines (hp : p.KeepsLines protocol) : (decl : ClassDecl) →
    Absent '\n' decl.names → decl.isAnonymous = false →
      p.stubText decl = Text.unlines (Fragment.listLines (p.print decl).1)
  | { inner, .. }, h, hnamed => by
    rw [ClassDecl.names, absent_append] at h
    exact stubText_of_inner hp hnamed (nestedText_eq_unlines hp inner h.2)

theorem nestedText_eq_unlines (hp : p.KeepsLines protocol) : (decls : List ClassDecl) →
    Absent '\n' (ClassDecl.listNames decls) →
      p.nestedText decls =
        Text.unlines ((Fragment.listLines (p.printAll decls).1).map (Text.spaces 4 ++ ·))
  | [], _ => by rw [nestedText, printAll, Fragment.listLines, List.map_nil, Text.unlines_nil]
  | decl :: rest, h => by
    rw [ClassDecl.listNames, absent_append] at h
    have hrest := nestedText_eq_unlines hp rest h.2
    have hlines := absent_listLines (unbroken_print hp decl h.1)
    have hfirst : (if decl.isAnonymous then "" else Text.indented 4 (p.stubText decl)) =
        Text.unlines ((Fragment.listLines (p.print decl).1).map (Text.spaces 4 ++ ·)) := by
      split
      · next hanonymous =>
        rw [print_anonymous hanonymous, Fragment.listLines, List.map_nil, Text.unlines_nil]
      · next hnamed =>
        rw [stubText_eq_unlines hp decl h.1 (by simpa using hnamed),
          Text.indented_unlines 4 hlines]
    rw [nestedText, hfirst, hrest, printAll, Fragment.listLines_append, List.map_append,
      Text.unlines_append]

end

/-- Whatever was written before and however deep the printing stands, a declaration that is not
anonymous appends its text with every line indented by four spaces for each level, and it leaves the
depth as it was. -/
theorem printInto_nested (dialect : Dialect) (index : ClassIndex) (protocol : List MethodDecl)
    (rules : List CallRule) (decl : ClassDecl) (hnamed : decl.isAnonymous = false)
    (hdecl : Absent '\n' decl.names) (hprotocol : Absent '\n' (protocol.flatMap MethodDecl.names))
    (hindex : ∀ name known, index.get? name = some known → Absent '\n' known.parameterNames)
    (depth : Nat) (written : String) :
    let p := standard dialect index protocol rules
    (p.printInto decl ⟨depth, .standard, written⟩).1 =
      ⟨depth, .standard, written ++ Text.indented (4 * depth) (p.stubText decl)⟩ := by
  intro p
  have hp : p.KeepsLines protocol :=
    ⟨rfl, ⟨rules, follows_standard ..⟩, hprotocol, hindex⟩
  have hunbroken := unbroken_print hp decl hdecl
  have happended := Layout.addAll_eq_addText depth
    (fun f hf => Layout.add_eq_addText (hunbroken f hf) depth) written
  rw [stubText_eq_unlines hp decl hdecl hnamed,
    Text.indented_unlines _ (absent_listLines hunbroken)]
  exact happended

/-- A class with a default argument and two nested classes that would get the same members; the
anonymous one is left out, and the other one has a nested class again. -/
def window : ClassDecl :=
  { name := "geo.Window"
    constructors :=
      [{ parameters :=
          [(Parameter.ofName "title" .string).withDefault (.constant (.string "a\nb")),
           (Parameter.ofName "mark" (.primitive .char)).withDefault (.constant (.char '\n'))] }]
    inner :=
      [{ name := "geo.Window$1", nesting := .anonymous },
       { name := "geo.Window$Pane"
         nesting := .member
         properties := [.ofName "width" .int]
         inner := [{ name := "geo.Window$Pane$Side", kind := .enumeration, nesting := .member }] }] }

theorem window_nested :
    let p := standard {} .empty [.ofName "paint"] CallRule.usual
    (p.printInto window ⟨2, .standard, "// before"⟩).1 =
      ⟨2, .standard, "// before" ++ Text.indented 8 (p.stubText window)⟩ := by
  refine printInto_nested {} .empty [.ofName "paint"] CallRule.usual window rfl ?_ ?_ ?_ 2
    "// before"
  · decide +kernel
  · decide
  · intro name known hknown
    simp at hknown

end Printer

end Stubs

end JavaStubs
