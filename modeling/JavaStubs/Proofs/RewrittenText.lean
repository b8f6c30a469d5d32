import JavaStubs.Proofs.Rewriting

/-!
# The text of rewritten declarations

If a rewriting exchanges types only for such as are written the same, perhaps in another dialect,
then every line that is printed for a class stays the same: headers, fields, methods, constructors
and the calls in them. The index and the object protocol have to be rewritten as well.
-/
namespace JavaStubs

open Source (Dialect)

/-- The table with every value exchanged. -/
def Table.mapValues {κ ν μ : Type} (f : ν → μ) (table : Table κ ν) : Table κ μ :=
  ⟨table.entries.map fun entry => (entry.1, f entry.2), by
    simpa only [List.map_map, Function.comp_def] using table.distinct⟩

theorem Table.get?_mapValues {κ ν μ : Type} [DecidableEq κ] (f : ν → μ) (table : Table κ ν)
    (key : κ) : (table.mapValues f).get? key = (table.get? key).map f := by
  change (table.entries.map fun entry => (entry.1, f entry.2)).lookup key =
    (table.entries.lookup key).map f
  induction table.entries with
  | nil => rfl
  | cons entry rest ih =>
    rw [List.map_cons, List.lookup_cons, List.lookup_cons, ih]
    cases key == entry.1 <;> rfl

namespace Rewriting

/-- The index with all constructors rewritten. -/
def index (r : Rewriting) (index : ClassIndex) : ClassIndex :=
  ⟨index.known.mapValues r.known⟩

theorem get?_index (r : Rewriting) (index : ClassIndex) (name : String) :
    (r.index index).get? name = (index.get? name).map r.known :=
  index.known.get?_mapValues r.known name

/-- Whether what the rewriting gives is written in one dialect as the original is in another. -/
structure Spells (r : Rewriting) (dialect other : Dialect) : Prop where
  classText : ∀ type, other.classText (r.classType type) = dialect.classText type
  genericsText : ∀ generics, other.genericsText (r.generics generics) =
    dialect.genericsText generics
  placeholder : ∀ name erasure,
    other.typeText (.placeholder (r.typeVariable name erasure) (r.classType erasure)) =
      dialect.typeText (.placeholder name erasure)

namespace Spells

variable {r : Rewriting} {dialect other : Dialect}

theorem typeText : (type : TypeRef) → r.Spells dialect other →
    other.typeText (r.type type) = dialect.typeText type
  | .primitive type, _ => by rw [Rewriting.type, Dialect.typeText, Dialect.typeText]
  | .named type, h => by rw [Rewriting.type, Dialect.typeText, Dialect.typeText, h.classText]
  | .array component, h => by
    rw [Rewriting.type, Dialect.typeText, Dialect.typeText, h.typeText component]
  | .placeholder name erasure, h => h.placeholder name erasure

theorem classTexts (h : r.Spells dialect other) (types : List ClassType) :
    (types.map r.classType).map other.classText = types.map dialect.classText := by
  rw [List.map_map]
  exact List.map_congr_left fun type _ => h.classText type

theorem defaultValue (h : r.Spells dialect other) (type : TypeRef) :
    other.defaultValue (r.type type) = dialect.defaultValue type := by
  simp [Dialect.defaultValue, typeText _ h]

end Spells

end Rewriting

namespace Stubs

namespace CallSite

variable {r : Rewriting} {site other : CallSite}

/-- Whether one call site is another one with its types rewritten, in another dialect and with what
is known of the super class rewritten, too. -/
structure Rewritten (r : Rewriting) (site other : CallSite) : Prop where
  spells : r.Spells site.dialect other.dialect
  superClass : other.superClass? = site.superClass?.map r.known
  constructor : other.constructor = r.constructor site.constructor
  call : other.call = r.call site.call

theorem Rewritten.defaultValues (h : site.Rewritten r other) (parameters : List Parameter) :
    CallSite.defaultValues other.dialect (parameters.map r.parameter) =
      CallSite.defaultValues site.dialect parameters := by
  rw [CallSite.defaultValues, CallSite.defaultValues, List.map_map]
  exact List.map_congr_left fun p _ => h.spells.defaultValue p.type

theorem Rewritten.argumentText (h : site.Rewritten r other) (argument : Expression) :
    other.argumentText (r.expression argument) = site.argumentText argument := by
  cases argument with
  | constant value =>
    cases value with
    | string value =>
      have hstring := h.spells.defaultValue .string
      rwa [Rewriting.type_string] at hstring
    | _ => rfl
  | reference name type =>
    have hparameter : other.constructor.parameters.find? (fun p => p.name == name) =
        (site.constructor.parameters.find? fun p => p.name == name).map r.parameter := by
      rw [h.constructor, Rewriting.constructor, List.find?_map]
      rfl
    simp only [Rewriting.expression, CallSite.argumentText, hparameter]
    cases site.constructor.parameters.find? fun p => p.name == name with
    | none => exact h.spells.defaultValue type
    | some parameter => exact h.spells.defaultValue parameter.type
  | other type => exact h.spells.defaultValue type

theorem Rewritten.ownCall (h : site.Rewritten r other) : other.ownCall = site.ownCall := by
  rw [CallSite.ownCall, CallSite.ownCall, h.call, Rewriting.call, List.map_map]
  exact congrArg _ (List.map_congr_left fun argument _ => h.argumentText argument)

theorem Rewritten.callOf? (h : site.Rewritten r other) (rule : CallRule) :
    other.callOf? rule = site.callOf? rule := by
  cases rule with
  | accessibleSuper =>
    have hsuper : other.accessibleSuper? = site.accessibleSuper?.map r.constructor := by
      rw [accessibleSuper?, accessibleSuper?, h.superClass]
      cases site.superClass? with
      | none => rfl
      | some known => exact List.find?_map
    have htexts : ∀ target : ConstructorDecl,
        callText .superClass
            (CallSite.defaultValues other.dialect (r.constructor target).parameters) =
          callText .superClass (CallSite.defaultValues site.dialect target.parameters) :=
      fun target => congrArg (callText .superClass) (h.defaultValues target.parameters)
    simp only [CallSite.callOf?, hsuper, Option.map_map, Function.comp_def, htexts]
  | implicitSource =>
    rw [CallSite.callOf?, CallSite.callOf?, h.superClass]
    rcases site.superClass? with _ | ⟨_ | _, _ | _⟩ <;> rfl
  | ownArguments => exact congrArg some h.ownCall

/-- The call that is chosen is written the same. -/
theorem Rewritten.chosenCall (h : site.Rewritten r other) (rules : List CallRule) :
    other.chosenCall (rules.map CallRule.strategy) =
      site.chosenCall (rules.map CallRule.strategy) := by
  rw [chosenCall_rules, chosenCall_rules, h.ownCall, funext h.callOf?]

end CallSite

theorem isImplicitInEnum_method (r : Rewriting) (method : MethodDecl) :
    isImplicitInEnum (r.method method) = isImplicitInEnum method := by
  have hsynthetic : (r.method method).isSynthetic = method.isSynthetic := rfl
  have hname : (r.method method).name = method.name := rfl
  have hparameters : (r.method method).parameters = method.parameters.map r.parameter := rfl
  rw [isImplicitInEnum, isImplicitInEnum, hsynthetic, hname, hparameters]
  refine congrArg (method.isSynthetic && ·) ?_
  match method.parameters with
  | [] => rfl
  | [parameter] =>
    have hstring : (r.parameter parameter).type.isString = parameter.type.isString :=
      r.isString_type parameter.type
    by_cases hvalueOf : method.name = "valueOf"
    · rw [hvalueOf]
      exact hstring
    · simp [hvalueOf]
  | _ :: _ :: _ => simp

namespace Printer

variable {r : Rewriting} {p q : Printer} {protocol : List MethodDecl} {rules : List CallRule}

/-- Whether one printer prints what is rewritten as another one prints the original: it has another
dialect, all that it knows of classes and members is rewritten, and the rules are the same. -/
structure Rewritten (r : Rewriting) (protocol : List MethodDecl) (rules : List CallRule)
    (p q : Printer) : Prop where
  spells : r.Spells p.dialect q.dialect
  index : ∀ name, q.index.get? name = (p.index.get? name).map r.known
  transform : p.transform = .standard protocol
  rewritten : q.transform = .standard (protocol.map r.method)
  follows : p.Follows rules
  agrees : q.Follows rules

namespace Rewritten

variable (h : p.Rewritten r protocol rules q) (decl : ClassDecl)

include h

theorem header : (q.header (r.classDecl decl)).text = (p.header decl).text := by
  have hsuper : q.dialect.classText ((decl.superClass.map r.classType).getD ClassType.object) =
      p.dialect.classText (decl.superClass.getD ClassType.object) := by
    cases decl.superClass with
    | none =>
      have hobject := h.spells.classText .object
      rwa [r.classType_object] at hobject
    | some type => exact h.spells.classText type
  rw [Printer.header, Printer.header, Rewriting.classDecl_eq]
  simp only [Rewriting.own, hsuper, h.spells.classTexts, h.spells.genericsText,
    ClassDecl.simpleName]
  rfl

theorem fieldLine (field : FieldDecl) :
    q.fieldLine (r.classDecl decl) (r.field field) = p.fieldLine decl field := by
  simp only [Printer.fieldLine, Rewriting.isInterface_classDecl, Rewriting.field,
    h.spells.typeText, h.spells.defaultValue]

omit decl in
theorem parameterTexts (parameters : List Parameter) :
    (parameters.map r.parameter).map q.parameterText = parameters.map p.parameterText := by
  rw [List.map_map]
  refine List.map_congr_left fun parameter _ => ?_
  simp only [Function.comp_apply, Printer.parameterText, Rewriting.parameter, h.spells.typeText]

theorem chosenCall (constructor : ConstructorDecl) (call : DelegationCall) :
    CallSite.chosenCall
        ⟨r.classDecl decl, r.constructor constructor, r.call call, q.index, q.dialect⟩
        q.strategies =
      CallSite.chosenCall ⟨decl, constructor, call, p.index, p.dialect⟩ p.strategies := by
  let site : CallSite := ⟨decl, constructor, call, p.index, p.dialect⟩
  let other : CallSite :=
    ⟨r.classDecl decl, r.constructor constructor, r.call call, q.index, q.dialect⟩
  have hknown : other.superClass? = site.superClass?.map r.known := by
    change q.index.get? (r.classDecl decl).superName = _
    rw [Rewriting.superName_classDecl]
    exact h.index decl.superName
  have hrewritten : site.Rewritten r other := ⟨h.spells, hknown, rfl, rfl⟩
  rw [h.follows, h.agrees]
  exact hrewritten.chosenCall rules

theorem constructorText (constructor : ConstructorDecl) :
    q.constructorText (r.classDecl decl) (r.constructor constructor) =
      p.constructorText decl constructor := by
  have hcalls : (r.constructor constructor).firstCall.map (fun call =>
        CallSite.chosenCall
          ⟨r.classDecl decl, r.constructor constructor, call, q.index, q.dialect⟩ q.strategies) =
      constructor.firstCall.map fun call =>
        CallSite.chosenCall ⟨decl, constructor, call, p.index, p.dialect⟩ p.strategies := by
    rw [Rewriting.constructor, Option.map_map]
    exact congrArg (constructor.firstCall.map ·) (funext (h.chosenCall decl constructor))
  rw [Printer.constructorText, Printer.constructorText, hcalls]
  simp only [Rewriting.simpleName_classDecl, Rewriting.constructor, h.parameterTexts,
    h.spells.classTexts]

theorem methodLine (method : MethodDecl) :
    q.methodLine (r.classDecl decl) (r.method method) = p.methodLine decl method := by
  have hbodiless : isBodiless (r.classDecl decl) (r.method method) = isBodiless decl method := by
    rw [isBodiless, isBodiless, Rewriting.isInterface_classDecl]
    rfl
  have hbody : q.methodBody (r.classDecl decl) (r.method method) = p.methodBody decl method := by
    rw [Printer.methodBody, Printer.methodBody, hbodiless]
    simp only [Rewriting.method, Rewriting.isVoid_type, h.spells.defaultValue]
  rw [Printer.methodLine, Printer.methodLine, hbody, hbodiless, Rewriting.isInterface_classDecl]
  simp only [Rewriting.method, h.parameterTexts, h.spells.classTexts, h.spells.genericsText,
    h.spells.typeText]

theorem shownConstructors :
    q.shownConstructors (r.classDecl decl) = (p.shownConstructors decl).map r.constructor := by
  have hmade := (r.capture_classDecl protocol decl).2
  unfold Printer.shownConstructors visibleConstructors Printer.made
  rw [Rewriting.isEnum_classDecl, h.transform, h.rewritten, hmade, Rewriting.constructors_classDecl]
  split
  · rfl
  · rw [List.map_append]

theorem shownMethods :
    q.shownMethods (r.classDecl decl) = (p.shownMethods decl).map r.method := by
  have hmade := (r.capture_classDecl protocol decl).1
  unfold Printer.shownMethods visibleMethods Printer.made
  rw [h.transform, h.rewritten, hmade, Rewriting.methods_classDecl, ← List.map_append,
    List.filter_map]
  refine congrArg _ (List.filter_congr fun method _ => ?_)
  simp only [Function.comp_apply, Rewriting.isEnum_classDecl, isImplicitInEnum_method]
  rfl

/-- The members of a class are printed as before. -/
theorem ownMembers :
    q.ownMembers (r.classDecl decl) (q.made (r.classDecl decl)) =
      p.ownMembers decl (p.made decl) := by
  have hconstants : constants (r.classDecl decl) = constants decl := by
    have hnames : constantNames (r.classDecl decl) = constantNames decl := by
      rw [constantNames, constantNames, Rewriting.fields_classDecl, List.filter_map, List.map_map]
      rfl
    rw [constants, constants, hnames, Rewriting.isEnum_classDecl]
  have hfields : visibleFields (r.classDecl decl) = (visibleFields decl).map r.field := by
    rw [visibleFields, Rewriting.fields_classDecl, List.filter_map]
    rfl
  have hconstructors : visibleConstructors (r.classDecl decl) (q.made (r.classDecl decl)) =
      (visibleConstructors decl (p.made decl)).map r.constructor := h.shownConstructors decl
  have hmethods : visibleMethods (r.classDecl decl) (q.made (r.classDecl decl)) =
      (visibleMethods decl (p.made decl)).map r.method := h.shownMethods decl
  simp only [Printer.ownMembers, hconstants, hfields, hconstructors, hmethods, List.map_map,
    Function.comp_def, h.fieldLine, h.constructorText, h.methodLine]

theorem print_of_inner
    (hinner : (q.printAll (r.classDecls decl.inner)).1 = (p.printAll decl.inner).1) :
    (q.print (r.classDecl decl)).1 = (p.print decl).1 := by
  have hp : Conservative p.transform := h.transform ▸ conservative_standard protocol
  have hq : Conservative q.transform := h.rewritten ▸ conservative_standard (protocol.map r.method)
  have hsame : (r.classDecl decl).isAnonymous = decl.isAnonymous := r.isAnonymous_classDecl decl
  cases hd : decl.isAnonymous with
  | true => rw [print_anonymous hd, print_anonymous (hsame.trans hd)]
  | false =>
    rw [print_named hp hd, print_named hq (hsame.trans hd), h.header, Printer.body, Printer.body,
      h.ownMembers, Rewriting.inner_classDecl, hinner]

end Rewritten

mutual

/-- A rewritten tree is printed as the tree was: induction over the tree, since each class in it is
normalized on its own. -/
theorem print_classDecl (h : p.Rewritten r protocol rules q) : (decl : ClassDecl) →
    (q.print (r.classDecl decl)).1 = (p.print decl).1
  | { inner, .. } => h.print_of_inner _ (printAll_classDecls h inner)

theorem printAll_classDecls (h : p.Rewritten r protocol rules q) : (decls : List ClassDecl) →
    (q.printAll (r.classDecls decls)).1 = (p.printAll decls).1
  | [] => by rw [Rewriting.classDecls, printAll, printAll]
  | decl :: rest => by
    simp only [Rewriting.classDecls, printAll, print_classDecl h decl, printAll_classDecls h rest]

end

/-- A rewritten class is printed to the text of the class. -/
theorem printInto_classDecl (h : p.Rewritten r protocol rules q) (decl : ClassDecl) (out : Layout) :
    (q.printInto (r.classDecl decl) out).1 = (p.printInto decl out).1 := by
  have hprint := print_classDecl h decl
  simp only [printInto, hprint]

end Printer

end Stubs

end JavaStubs
