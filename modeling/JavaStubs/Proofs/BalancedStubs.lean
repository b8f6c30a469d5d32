import JavaStubs.Proofs.Grouping
import JavaStubs.Proofs.MemberText
import JavaStubs.Proofs.TreeUses

/-!
# Stubs are balanced

A stub without braces and quotes in its names is balanced text: clauses and imports before the
declaration, and then one group. The declaration is a balanced fragment by induction over its tree.
Constants that a delegation call repeats may be any characters and strings.
-/
namespace JavaStubs

open Source

/-- No name of the list has a brace or a quote. -/
def Undelimited (names : List String) : Prop :=
  ∀ c ∈ delimiters, Absent c names

instance (c : Char) (names : List String) : Decidable (Absent c names) :=
  List.decidableBAll (fun name : String => c ∉ name.toList) names

instance (names : List String) : Decidable (Undelimited names) :=
  List.decidableBAll (fun c => Absent c names) delimiters

theorem Undelimited.quiet {name : String} {names : List String} (h : Undelimited names)
    (hm : name ∈ names) : Quiet name :=
  quiet_of_not_mem fun c hc => h c hc name hm

theorem Source.MethodBody.closed_text (body : MethodBody)
    (h : ∀ value, body = .returning value → Quiet value) : Closed body.text := by
  cases body with
  | absent => exact (quiet_of_signs (by decide)).closed
  | empty => exact closed_braces
  | returning value =>
    have hopens : Opens " \x7b return " := fun _ _ => rfl
    intro depth closed rest
    rw [text, String.toList_append, String.toList_append, List.append_assoc, List.append_assoc,
      hopens, h value rfl]
    rfl

namespace Stubs

theorem quiet_callText (target : CallTarget) {arguments : List String}
    (h : ∀ argument ∈ arguments, Quiet argument) : Quiet (callText target arguments) := by
  have hkeyword : Quiet target.keyword := by
    cases target <;> exact quiet_of_signs (by decide)
  have hjoin : Quiet (Text.join ", " arguments) :=
    Quiet.join (quiet_of_signs (by decide)) h
  exact ((hkeyword.append (quiet_of_signs (by decide))).append hjoin).append
    (quiet_of_signs (by decide))

theorem quiet_defaultValue (dialect : Dialect) {type : TypeRef}
    (h : Undelimited type.names) : Quiet (dialect.defaultValue type) :=
  quiet_of_not_mem fun c hc =>
    Dialect.not_mem_defaultValue (foreign_of_mem_delimiters hc) dialect (h c hc)

namespace CallSite

variable {site : CallSite}

theorem quiet_defaultValues (dialect : Dialect) {parameters : List Parameter}
    (h : Undelimited (parameters.flatMap fun p => p.type.names)) :
    ∀ value ∈ defaultValues dialect parameters, Quiet value := by
  intro value hv
  obtain ⟨parameter, hp, rfl⟩ := List.mem_map.mp hv
  exact quiet_defaultValue dialect fun c hc => absent_flatMap.mp (h c hc) parameter hp

theorem quiet_argumentText (hparameters : Undelimited
      (site.constructor.parameters.flatMap fun p => p.type.names)) {argument : Expression}
    (h : Undelimited argument.names) : Quiet (site.argumentText argument) := by
  cases argument with
  | constant value =>
    cases value with
    | string value =>
      apply quiet_defaultValue
      intro c hc
      have hstring : c ∉ Names.string.toList := (foreign_of_mem_delimiters hc).not_mem (by decide)
      rw [TypeRef.names_string, absent_cons]
      exact ⟨hstring, absent_nil⟩
    | _ => exact quiet_literalText _
  | reference name type =>
    apply quiet_defaultValue
    intro c hc
    cases hp : site.constructor.parameters.find? fun p => p.name == name with
    | none =>
      have hnames := h c hc
      rw [Expression.names, absent_cons] at hnames
      exact hnames.2
    | some parameter =>
      exact absent_flatMap.mp (hparameters c hc) parameter (List.mem_of_find?_eq_some hp)
  | other type => exact quiet_defaultValue _ h

theorem quiet_ownCall (h : Undelimited site.constructor.names)
    (hcall : site.constructor.firstCall = some site.call) : Quiet site.ownCall := by
  have hparameters : Undelimited (site.constructor.parameters.flatMap fun p => p.type.names) := by
    intro c hc
    have hnames := h c hc
    simp only [ConstructorDecl.names, Parameter.names, absent_append, absent_flatMap,
      absent_cons] at hnames ⊢
    exact fun p hp => (hnames.1.1 p hp).2.1
  apply quiet_callText
  intro text ht
  obtain ⟨argument, ha, rfl⟩ := List.mem_map.mp ht
  apply quiet_argumentText hparameters
  intro c hc
  have hnames := h c hc
  simp only [ConstructorDecl.names, absent_append, hcall, Option.toList_some,
    List.flatMap_singleton, absent_flatMap] at hnames
  exact hnames.2 argument ha

/-- Whichever of the rules decides, the call is quiet. -/
theorem quiet_chosenCall (h : Undelimited site.constructor.names)
    (hcall : site.constructor.firstCall = some site.call)
    (hindex : ∀ name known, site.index.get? name = some known → Undelimited known.parameterNames)
    (rules : List CallRule) : Quiet (site.chosenCall (rules.map CallRule.strategy)) := by
  have hown := quiet_ownCall h hcall
  rw [chosenCall_rules]
  cases hf : rules.findSome? site.callOf? with
  | none => exact hown
  | some text =>
    obtain ⟨rule, -, hrule⟩ := List.exists_of_findSome?_eq_some hf
    cases rule with
    | accessibleSuper =>
      obtain ⟨target, htarget, rfl⟩ := Option.map_eq_some_iff.mp hrule
      obtain ⟨known, hknown, hfind⟩ := Option.bind_eq_some_iff.mp htarget
      apply quiet_callText
      apply quiet_defaultValues
      intro c hc
      exact absent_flatMap.mp (hindex _ known hknown c hc) target (List.mem_of_find?_eq_some hfind)
    | implicitSource =>
      simp only [callOf?] at hrule
      split at hrule
      · obtain rfl := Option.some.inj hrule
        exact quiet_callText .superClass (by simp)
      · simp at hrule
    | ownArguments =>
      obtain rfl := Option.some.inj hrule
      exact hown

end CallSite

namespace Printer

/-- What the printer knows besides the declaration has no braces and quotes in its names, and its
calls are chosen by rules. -/
structure IsPlain (p : Printer) (protocol : List MethodDecl) : Prop where
  transform : p.transform = .standard protocol
  follows : ∃ rules, p.Follows rules
  protocol : Undelimited (protocol.flatMap MethodDecl.names)
  index : ∀ name known, p.index.get? name = some known → Undelimited known.parameterNames

variable {p : Printer} {protocol : List MethodDecl} {decl : ClassDecl}

theorem opens_header (h : Undelimited decl.ownNames) : Opens (p.header decl).text := by
  have hopening : Quiet (p.header decl).opening :=
    quiet_of_not_mem fun c hc =>
      p.not_mem_opening (foreign_of_mem_delimiters hc) (absentIn_of_absent (h c hc))
  rw [Header.text_eq]
  exact hopening.append_opens opens_brace

theorem balanced_method (decl : ClassDecl) {method : MethodDecl} (h : Undelimited method.names) :
    Balanced (p.methodLine decl method).fragment := by
  have hsignature : Quiet (p.methodLine decl method).signature :=
    quiet_of_not_mem fun c hc =>
      p.not_mem_methodSignature (foreign_of_mem_delimiters hc) decl (h c hc)
  have hbody : Closed (p.methodBody decl method).text := by
    apply MethodBody.closed_text
    intro value heq
    unfold methodBody at heq
    split at heq
    · simp at heq
    · split at heq
      · simp at heq
      · obtain rfl := MethodBody.returning.inj heq
        apply quiet_defaultValue
        intro c hc
        have hnames := h c hc
        simp only [MethodDecl.names, MethodDecl.signatureNames, absent_cons,
          absent_append] at hnames
        exact hnames.2.1.1.1
  have htext : Closed (p.methodLine decl method).text := hsignature.closed.append hbody
  exact .line htext

theorem balanced_constructor (hp : p.IsPlain protocol) (hd : Undelimited decl.ownNames)
    {constructor : ConstructorDecl} (h : Undelimited constructor.names) :
    Balanced (p.constructorText decl constructor).fragment := by
  have hsignature : Quiet (p.constructorText decl constructor).signature :=
    quiet_of_not_mem fun c hc =>
      p.not_mem_constructorSignature (foreign_of_mem_delimiters hc)
        (absentIn_of_absent (hd c hc)).name (h c hc)
  unfold ConstructorText.fragment
  split
  · exact .line (hsignature.closed.append closed_braces)
  · next call heq =>
    obtain ⟨own, hown, rfl⟩ := Option.map_eq_some_iff.mp heq
    obtain ⟨rules, hrules⟩ := hp.follows
    have hcall :
        Quiet (CallSite.chosenCall ⟨decl, constructor, own, p.index, p.dialect⟩ p.strategies) :=
      hrules ▸ CallSite.quiet_chosenCall h hown hp.index rules
    refine .block (hsignature.append_opens opens_brace) ?_
    intro fragment hf
    obtain rfl := List.mem_singleton.mp hf
    exact .line hcall.closed

/-- The members that a class declares and those that are made for it are balanced. -/
theorem balanced_ownMembers (hp : p.IsPlain protocol) (hd : Undelimited decl.ownNames) :
    ∀ fragment ∈ p.ownMembers decl (p.made decl), Balanced fragment := by
  have habsent : ∀ c ∈ delimiters, AbsentIn c decl := fun c hc => absentIn_of_absent (hd c hc)
  intro fragment hf
  simp only [ownMembers, List.mem_append] at hf
  rcases hf with ((hf | hf) | hf) | hf
  · unfold constants at hf
    split at hf
    · simp at hf
    · obtain rfl := List.mem_singleton.mp hf
      exact .line (quiet_of_not_mem fun c hc =>
        not_mem_constantsText (foreign_of_mem_delimiters hc)
          (absent_constantNames (habsent c hc))).closed
  · obtain ⟨field, hfield, rfl⟩ := List.mem_map.mp hf
    exact .line (quiet_of_not_mem fun c hc =>
      p.not_mem_fieldLine (foreign_of_mem_delimiters hc) decl
        ((habsent c hc).fields field (List.mem_filter.mp hfield).1)).closed
  · obtain ⟨constructor, hc, rfl⟩ := List.mem_map.mp hf
    exact balanced_constructor hp hd fun c hm =>
      absent_shownConstructor hp.transform (habsent c hm) hc
  · obtain ⟨method, hm, rfl⟩ := List.mem_map.mp hf
    exact balanced_method decl fun c hc =>
      absent_shownMethod hp.transform (foreign_of_mem_delimiters hc) (habsent c hc)
        (absent_flatMap.mp (hp.protocol c hc)) hm

/-- A class whose nested classes are balanced is balanced. -/
theorem balanced_of_inner (hp : p.IsPlain protocol) (hd : Undelimited decl.ownNames)
    (hinner : ∀ fragment ∈ (p.printAll decl.inner).1, Balanced fragment) :
    ∀ fragment ∈ (p.print decl).1, Balanced fragment := by
  have hconservative : Conservative p.transform := hp.transform ▸ conservative_standard protocol
  intro fragment hf
  cases hanonymous : decl.isAnonymous with
  | true => simp [print_anonymous hanonymous] at hf
  | false =>
    rw [print_named hconservative hanonymous] at hf
    obtain rfl := List.mem_singleton.mp hf
    refine .block (opens_header hd) ?_
    intro member hm
    rcases List.mem_append.mp hm with hm | hm
    · exact balanced_ownMembers hp hd member hm
    · exact hinner member hm

mutual

/-- A declaration is balanced: induction over the tree, since its block holds the blocks of its
nested declarations. -/
theorem balanced_print (hp : p.IsPlain protocol) : (decl : ClassDecl) → Undelimited decl.names →
    ∀ fragment ∈ (p.print decl).1, Balanced fragment
  | { inner, .. }, h => by
    have hown := fun c hc => (absent_append.mp (h c hc)).1
    have hinner := balanced_printAll hp inner fun c hc => (absent_append.mp (h c hc)).2
    exact balanced_of_inner hp hown hinner

theorem balanced_printAll (hp : p.IsPlain protocol) :
    (decls : List ClassDecl) → Undelimited (ClassDecl.listNames decls) →
      ∀ fragment ∈ (p.printAll decls).1, Balanced fragment
  | [], _ => by simp [printAll]
  | decl :: rest, h => by
    have hfirst := balanced_print hp decl fun c hc => (absent_append.mp (h c hc)).1
    have hrest := balanced_printAll hp rest fun c hc => (absent_append.mp (h c hc)).2
    intro fragment hf
    rw [printAll] at hf
    rcases List.mem_append.mp hf with hf | hf
    · exact hfirst fragment hf
    · exact hrest fragment hf

end

/-- The printed text of a declaration that is not anonymous is one group. -/
theorem printInto_group (hp : p.IsPlain protocol) (h : Undelimited decl.names)
    (hd : decl.isAnonymous = false) :
    ∃ front, (p.printInto decl .empty).1.text = front ++ "\x7d\n" ∧ Opens front := by
  have hconservative : Conservative p.transform := hp.transform ▸ conservative_standard protocol
  have hprint := print_named hconservative hd
  have hbalanced : Balanced (.block (p.header decl).text (p.body decl)) :=
    balanced_print hp decl h _ (hprint ▸ List.mem_singleton_self _)
  cases hbalanced with
  | block hheader hbody =>
    obtain ⟨front, hfront, hopens⟩ :=
      Layout.text_add_block hheader (fun f hf => Layout.appends_closed (hbody f hf)) .empty
    refine ⟨front, ?_, hopens⟩
    have hempty : Layout.empty.text = "" := rfl
    show (Layout.empty.addAll (p.print decl).1).text = _
    rw [hprint, Layout.addAll_cons, Layout.addAll_nil, hfront, hempty, String.empty_append]

end Printer

namespace StubFile

theorem not_mem_trimDots {c : Char} {package : String} (h : c ∉ package.toList) :
    c ∉ (trimDots package).toList := by
  intro hm
  rw [trimDots, String.toList_ofList, List.mem_reverse] at hm
  exact h (List.mem_reverse.mp ((List.dropWhile_sublist _).subset hm))

theorem quiet_importLine {imports : ImportSet} (h : Undelimited imports.names) {line : String}
    (hl : line ∈ importLines imports) : Quiet line := by
  have hstatement : ∀ {name last : String}, (∀ c ∈ delimiters, c ∉ name.toList) → Quiet last →
      Quiet ("import " ++ Names.sourceName name ++ last) := by
    intro name last hname hlast
    have hsource : Quiet (Names.sourceName name) :=
      quiet_of_not_mem fun c hc =>
        (foreign_of_mem_delimiters hc).not_mem_sourceName (hname c hc)
    exact ((quiet_of_signs (by decide)).append hsource).append hlast
  rcases List.mem_append.mp hl with hl | hl
  · obtain ⟨package, hp, rfl⟩ := List.mem_map.mp hl
    apply hstatement
    · intro c hc
      exact not_mem_trimDots ((absent_append.mp (h c hc)).1 package hp)
    · exact quiet_of_signs (by decide)
  · obtain ⟨name, hn, rfl⟩ := List.mem_map.mp hl
    apply hstatement
    · intro c hc
      exact (absent_append.mp (h c hc)).2 name hn
    · exact quiet_of_signs (by decide)

/-- The clauses before the declaration are quiet. -/
theorem quiet_clauses {package : Option String} {imports : ImportSet}
    (hpackage : Undelimited package.toList) (himports : Undelimited imports.names) :
    ∀ fragment ∈ packageFragments package ++ importFragments imports,
      Layout.Appends Quiet fragment := by
  intro fragment hf
  rcases List.mem_append.mp hf with hf | hf
  · cases package with
    | none => simp [packageFragments] at hf
    | some name =>
      have hname : Quiet name := hpackage.quiet (by simp)
      simp only [packageFragments, List.mem_cons, List.not_mem_nil, or_false] at hf
      rcases hf with rfl | rfl
      · exact Layout.appends_quiet_line
          (((quiet_of_signs (by decide)).append hname).append (quiet_of_signs (by decide)))
      · exact Layout.appends_quiet_blank
  · unfold importFragments at hf
    split at hf
    · simp at hf
    · rcases List.mem_append.mp hf with hf | hf
      · obtain ⟨line, hl, rfl⟩ := List.mem_map.mp hf
        exact Layout.appends_quiet_line (quiet_importLine himports hl)
      · obtain rfl := List.mem_singleton.mp hf
        exact Layout.appends_quiet_blank

/-- A file with quiet clauses whose declaration is a group is one group. -/
theorem isGroup_text {file : StubFile} {front : String}
    (hpackage : Undelimited file.package.toList) (himports : Undelimited file.imports.names)
    (hbody : file.body = front ++ "\x7d\n") (hfront : Opens front) : IsGroup file.text := by
  obtain ⟨clauses, hclauses, hquiet⟩ :=
    Layout.text_addAll quiet_empty Quiet.append (quiet_clauses hpackage himports) .empty
  refine ⟨clauses ++ front, ?_, ?_⟩
  · have hempty : Layout.empty.text = "" := rfl
    rw [text, Layout.addText, hclauses, hbody, hempty, String.empty_append, String.append_assoc]
  · exact hquiet.append_opens hfront {}

end StubFile

namespace Generator

theorem undelimited_packageName {decl : ClassDecl} (hdecl : Undelimited decl.names)
    (hpackage : Undelimited decl.package.toList) : Undelimited decl.packageName?.toList := by
  intro c hc name hn
  have hname := Option.mem_toList.mp hn
  unfold ClassDecl.packageName? at hname
  split at hname
  · next package heq =>
    obtain rfl := Option.some.inj hname
    exact hpackage c hc package (by simp [heq])
  · have hdot : c ≠ '.' := (foreign_of_mem_delimiters hc).ne_of_mem_signs (by decide)
    have hdeclared : c ∉ decl.name.toList := by
      obtain ⟨⟩ := decl
      exact (absent_cons.mp (absent_append.mp (hdecl c hc)).1).1
    exact Text.not_mem_of_beforeLast? hdot hdeclared hname

/-- Every class that gets a file gets a balanced one: its braces outside literals balance, and the
last of them closes the only outermost group at the end of the text. -/
theorem render_balanced (settings : StubSettings) (dialect : Dialect) (index : ClassIndex)
    (protocol : List MethodDecl) (rules : List CallRule) (registry : Registry)
    (imports : ImportSet) (decl : ClassDecl) (hrender : settings.decision decl = .render)
    (hdecl : Undelimited decl.names) (hpackage : Undelimited decl.package.toList)
    (himports : Undelimited imports.names)
    (hindex : ∀ name known, index.get? name = some known → Undelimited known.parameterNames)
    (hprotocol : Undelimited (protocol.flatMap MethodDecl.names)) :
    let g : Generator := ⟨settings, .standard dialect index protocol rules, registry⟩
    ∃ text, (g.render imports decl).1 = some text ∧ isBalanced text = true ∧ IsGroup text := by
  intro g
  have hp : g.printer.IsPlain protocol :=
    ⟨rfl, ⟨rules, Printer.follows_standard ..⟩, hprotocol, hindex⟩
  have hnamed := isAnonymous_of_render hrender
  obtain ⟨front, hbody, hfront⟩ := Printer.printInto_group hp hdecl hnamed
  have hsame : (g.stubFile imports decl).1.package = decl.packageName? := by
    show (g.printer.print decl).2.packageName? = decl.packageName?
    rw [Printer.print_snd (conservative_standard protocol)]
  have hclause : Undelimited (g.stubFile imports decl).1.package.toList := by
    rw [hsame]
    exact undelimited_packageName hdecl hpackage
  have hgroup : IsGroup (g.stubFile imports decl).1.text :=
    StubFile.isGroup_text hclause himports hbody hfront
  refine ⟨(g.stubFile imports decl).1.text, ?_, hgroup.isBalanced, hgroup⟩
  unfold render decision
  rw [hrender]

/-- A class that repeats a brace, a quote and a backslash in delegation calls, with a nested class
that calls a known constructor. -/
def label : ClassDecl :=
  { name := "geo.Label"
    constructors :=
      [{ parameters :=
          [.ofName "text" .string,
           (Parameter.ofName "mark" (.primitive .char)).withDefault (.constant (.char '{')),
           (Parameter.ofName "end" (.primitive .char)).withDefault (.constant (.char '\''))]
         firstCall := some (.superCall [.constant (.char '\\'), .constant (.char '}')]) }]
    inner :=
      [{ name := "geo.Label$Tick", nesting := .member, superClass := some (.ofName "geo.Shape") }] }

/-- What is known besides: one class with a protected constructor. -/
def shapes : ClassIndex :=
  ClassIndex.empty.put "geo.Shape"
    ⟨.source, [{ modifiers := .ofList [.protectedAccess], parameters := [.ofName "name" .string] }]⟩

theorem label_balanced :
    let g : Generator :=
      .start { outputDirectory := Path.ofString "out" } shapes (.standard [.ofName "paint"])
    ∃ text, (g.render { imports := ["geo.Shape"] } label).1 = some text ∧
      isBalanced text = true ∧ IsGroup text := by
  intro g
  refine render_balanced g.settings {} shapes [.ofName "paint"] CallRule.usual g.registry
    { imports := ["geo.Shape"] } label rfl ?_ ?_ ?_ ?_ ?_
  · decide +kernel
  · decide
  · decide
  · intro name known hknown
    rw [shapes, ClassIndex.get?_put, ClassIndex.get?_empty] at hknown
    split at hknown
    · obtain rfl := Option.some.inj hknown
      decide
    · simp at hknown
  · decide

end Generator

end Stubs

end JavaStubs
