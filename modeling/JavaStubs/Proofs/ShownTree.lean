import JavaStubs.Proofs.Printing
import JavaStubs.Proofs.ShownCalls

/-!
# Stubs as trees

What a stub shows of a declaration tree, with types instead of their texts: headers, constants,
fields, constructors with their calls, methods, and nested classes. `fragments_shown` says that the
printer writes exactly the text of this tree, so what is said of the types in the tree is said of
the types in the stub.
-/
namespace JavaStubs.Stubs

open Source (ConstructorText Dialect FieldLine Header MethodBody MethodLine ParameterText)

/-- The opening line of a class. -/
structure ShownHeader where
  kind : ClassKind
  name : String
  modifiers : Modifiers
  generics : List Generic
  superClass : Option ClassType
  interfaces : List ClassType

def ShownHeader.text (dialect : Dialect) (header : ShownHeader) : String :=
  Header.text
    { kind := header.kind
      name := header.name
      modifiers := header.modifiers
      generics := dialect.genericsText header.generics
      superClass := header.superClass.map dialect.classText
      interfaces := header.interfaces.map dialect.classText }

/-- A field. If it has a value, it is the default value of its type. -/
structure ShownField where
  type : TypeRef
  name : String
  modifiers : Modifiers
  hasValue : Bool

def ShownField.fragment (dialect : Dialect) (field : ShownField) : Fragment :=
  FieldLine.fragment
    { type := dialect.typeText field.type
      name := field.name
      modifiers := field.modifiers
      value := if field.hasValue then some (dialect.defaultValue field.type) else none }

/-- A parameter. -/
structure ShownParameter where
  type : TypeRef
  name : String

def ShownParameter.text (dialect : Dialect) (parameter : ShownParameter) : ParameterText :=
  ⟨dialect.typeText parameter.type, parameter.name⟩

/-- The parameter as it is shown, without its default. -/
def ShownParameter.of (parameter : Parameter) : ShownParameter :=
  ⟨parameter.type, parameter.name⟩

/-- A constructor. -/
structure ShownConstructor where
  className : String
  parameters : List ShownParameter
  exceptions : List ClassType
  call : Option ShownCall

def ShownConstructor.fragment (dialect : Dialect) (constructor : ShownConstructor) : Fragment :=
  ConstructorText.fragment
    { className := constructor.className
      parameters := constructor.parameters.map (ShownParameter.text dialect)
      exceptions := constructor.exceptions.map dialect.classText
      delegation := constructor.call.map (ShownCall.text dialect) }

/-- What follows the signature of a method. -/
inductive ShownBody where
  | absent
  | empty
  /-- Returns the default value of a type. -/
  | returning (type : TypeRef)

def ShownBody.text (dialect : Dialect) : ShownBody → MethodBody
  | .absent => .absent
  | .empty => .empty
  | .returning type => .returning (dialect.defaultValue type)

/-- A method. -/
structure ShownMethod where
  name : String
  modifiers : Modifiers
  generics : List Generic
  returnType : TypeRef
  parameters : List ShownParameter
  exceptions : List ClassType
  body : ShownBody

def ShownMethod.fragment (dialect : Dialect) (method : ShownMethod) : Fragment :=
  MethodLine.fragment
    { name := method.name
      modifiers := method.modifiers
      generics := dialect.genericsText method.generics
      returnType := dialect.typeText method.returnType
      parameters := method.parameters.map (ShownParameter.text dialect)
      exceptions := method.exceptions.map dialect.classText
      body := method.body.text dialect }

/-- A class with its nested classes. -/
structure ShownClass where
  header : ShownHeader
  /-- The names in the list of constants, if there is one. -/
  constants : Option (List String)
  fields : List ShownField
  constructors : List ShownConstructor
  methods : List ShownMethod
  nested : List ShownClass

/-- The members of a class itself, without its nested classes. -/
def ShownClass.ownFragments (dialect : Dialect) (shown : ShownClass) : List Fragment :=
  (shown.constants.map fun names => Fragment.line (Source.constantsText names)).toList ++
    shown.fields.map (ShownField.fragment dialect) ++
    shown.constructors.map (ShownConstructor.fragment dialect) ++
    shown.methods.map (ShownMethod.fragment dialect)

mutual

/-- The block of a class. -/
def ShownClass.fragment (dialect : Dialect) (shown : ShownClass) : Fragment :=
  match shown with
  | { nested, .. } =>
    .block (shown.header.text dialect)
      (shown.ownFragments dialect ++ ShownClass.listFragments dialect nested)

/-- The blocks of classes, one after the other. -/
def ShownClass.listFragments (dialect : Dialect) : List ShownClass → List Fragment
  | [] => []
  | shown :: rest => shown.fragment dialect :: ShownClass.listFragments dialect rest

end

theorem ShownClass.listFragments_eq_map (dialect : Dialect) (classes : List ShownClass) :
    listFragments dialect classes = classes.map (fragment dialect) := by
  induction classes with
  | nil => rw [listFragments, List.map_nil]
  | cons shown rest ih => rw [listFragments, ih, List.map_cons]

namespace Printer

def shownHeader (decl : ClassDecl) : ShownHeader :=
  { kind := decl.kind
    name := decl.simpleName
    modifiers := if decl.kind = .ordinary then decl.modifiers else decl.modifiers.erase .abstract
    generics := decl.generics
    superClass :=
      if decl.kind = .ordinary then some (decl.superClass.getD ClassType.object) else none
    interfaces := decl.interfaces }

def shownConstants (decl : ClassDecl) : Option (List String) :=
  if (constantNames decl).isEmpty && !decl.isEnum then none else some (constantNames decl)

def shownField (decl : ClassDecl) (field : FieldDecl) : ShownField :=
  { type := field.type
    name := field.name
    modifiers := field.modifiers
    hasValue := decl.isInterface }

def shownConstructor (p : Printer) (rules : List CallRule) (decl : ClassDecl)
    (constructor : ConstructorDecl) : ShownConstructor :=
  { className := decl.simpleName
    parameters := constructor.parameters.map .of
    exceptions := constructor.exceptions
    call := constructor.firstCall.map fun call =>
      CallSite.shownCall ⟨decl, constructor, call, p.index, p.dialect⟩ rules }

def shownBody (decl : ClassDecl) (method : MethodDecl) : ShownBody :=
  if isBodiless decl method then .absent
  else if method.returnType.isVoid then .empty
  else .returning method.returnType

def shownMethod (decl : ClassDecl) (method : MethodDecl) : ShownMethod :=
  { name := method.name
    modifiers :=
      if decl.isInterface then {}
      else method.modifiers.set .abstract (isBodiless decl method)
    generics := method.generics
    returnType := method.returnType
    parameters := method.parameters.map .of
    exceptions := method.exceptions
    body := shownBody decl method }

mutual

/-- What the stub shows of a class if the calls are chosen by those rules; nothing if the class is
anonymous. -/
def shown (p : Printer) (rules : List CallRule) (decl : ClassDecl) : List ShownClass :=
  match decl with
  | { inner, .. } =>
    if decl.isAnonymous then []
    else
      [{ header := shownHeader decl
         constants := shownConstants decl
         fields := (visibleFields decl).map (shownField decl)
         constructors := (p.shownConstructors decl).map (p.shownConstructor rules decl)
         methods := (p.shownMethods decl).map (shownMethod decl)
         nested := p.shownAll rules inner }]

/-- What the stub shows of classes one after the other. -/
def shownAll (p : Printer) (rules : List CallRule) : List ClassDecl → List ShownClass
  | [] => []
  | decl :: rest => p.shown rules decl ++ p.shownAll rules rest

end

theorem shown_anonymous (p : Printer) (rules : List CallRule) {decl : ClassDecl}
    (h : decl.isAnonymous = true) : p.shown rules decl = [] := by
  obtain ⟨⟩ := decl
  rw [shown, if_pos h]

theorem shown_named (p : Printer) (rules : List CallRule) {decl : ClassDecl}
    (h : decl.isAnonymous = false) :
    p.shown rules decl =
      [{ header := shownHeader decl
         constants := shownConstants decl
         fields := (visibleFields decl).map (shownField decl)
         constructors := (p.shownConstructors decl).map (p.shownConstructor rules decl)
         methods := (p.shownMethods decl).map (shownMethod decl)
         nested := p.shownAll rules decl.inner }] := by
  obtain ⟨⟩ := decl
  rw [shown, if_neg (by simp [h])]

variable {p : Printer} {rules : List CallRule}

theorem text_shownHeader (decl : ClassDecl) :
    (shownHeader decl).text p.dialect = (p.header decl).text := by
  rw [ShownHeader.text, header, shownHeader]
  congr 2
  split <;> rfl

theorem fragment_shownField (decl : ClassDecl) (field : FieldDecl) :
    (shownField decl field).fragment p.dialect = (p.fieldLine decl field).fragment := rfl

theorem texts_shownParameters (parameters : List Parameter) :
    (parameters.map ShownParameter.of).map (ShownParameter.text p.dialect) =
      parameters.map p.parameterText := by
  rw [List.map_map]
  rfl

theorem fragment_shownConstructor (hrules : p.Follows rules) (decl : ClassDecl)
    (constructor : ConstructorDecl) :
    (p.shownConstructor rules decl constructor).fragment p.dialect =
      (p.constructorText decl constructor).fragment := by
  have hcall : (p.shownConstructor rules decl constructor).call.map (ShownCall.text p.dialect) =
      (p.constructorText decl constructor).delegation := by
    rw [shownConstructor, constructorText, Option.map_map, hrules]
    refine congrArg (constructor.firstCall.map ·) (funext fun call => ?_)
    exact (CallSite.chosenCall_eq_text ⟨decl, constructor, call, p.index, p.dialect⟩ rules).symm
  rw [ShownConstructor.fragment, hcall, shownConstructor, texts_shownParameters]
  rfl

theorem fragment_shownMethod (decl : ClassDecl) (method : MethodDecl) :
    (shownMethod decl method).fragment p.dialect = (p.methodLine decl method).fragment := by
  have hbody : (shownBody decl method).text p.dialect = p.methodBody decl method := by
    unfold shownBody methodBody
    repeat' split
    all_goals rfl
  rw [ShownMethod.fragment, shownMethod, texts_shownParameters, hbody]
  rfl

theorem fragments_ownMembers (hrules : p.Follows rules) (decl : ClassDecl)
    (nested : List ShownClass) :
    ShownClass.ownFragments p.dialect
      { header := shownHeader decl
        constants := shownConstants decl
        fields := (visibleFields decl).map (shownField decl)
        constructors := (p.shownConstructors decl).map (p.shownConstructor rules decl)
        methods := (p.shownMethods decl).map (shownMethod decl)
        nested } = p.ownMembers decl (p.made decl) := by
  have hconstants : ((shownConstants decl).map fun names =>
      Fragment.line (Source.constantsText names)).toList = constants decl := by
    unfold shownConstants constants
    split <;> rfl
  simp only [ShownClass.ownFragments, hconstants, ownMembers, List.map_map, Function.comp_def,
    fragment_shownField, fragment_shownConstructor hrules, fragment_shownMethod,
    shownConstructors, shownMethods]

theorem fragments_shown_of_inner (h : Conservative p.transform) (hrules : p.Follows rules)
    {decl : ClassDecl}
    (hinner : (p.shownAll rules decl.inner).map (ShownClass.fragment p.dialect) =
      (p.printAll decl.inner).1) :
    (p.shown rules decl).map (ShownClass.fragment p.dialect) = (p.print decl).1 := by
  cases hd : decl.isAnonymous with
  | true => rw [p.shown_anonymous rules hd, print_anonymous hd, List.map_nil]
  | false =>
    rw [p.shown_named rules hd, print_named h hd, List.map_singleton, ShownClass.fragment,
      text_shownHeader, fragments_ownMembers hrules, ShownClass.listFragments_eq_map, hinner, body]

mutual

/-- The printer writes the tree that the stub shows. -/
theorem fragments_shown (h : Conservative p.transform) (hrules : p.Follows rules) :
    (decl : ClassDecl) →
      (p.shown rules decl).map (ShownClass.fragment p.dialect) = (p.print decl).1
  | { inner, .. } => fragments_shown_of_inner h hrules (fragments_shownAll h hrules inner)

theorem fragments_shownAll (h : Conservative p.transform) (hrules : p.Follows rules) :
    (decls : List ClassDecl) →
      (p.shownAll rules decls).map (ShownClass.fragment p.dialect) = (p.printAll decls).1
  | [] => by rw [shownAll, printAll, List.map_nil]
  | decl :: rest => by
    rw [shownAll, printAll, List.map_append, fragments_shown h hrules decl,
      fragments_shownAll h hrules rest]

end

/-- Printing a class appends the text of what the stub shows of it, and gives the class back. -/
theorem printInto_eq (h : Conservative p.transform) (hrules : p.Follows rules) (decl : ClassDecl)
    (out : Layout) :
    p.printInto decl out =
      (out.addAll ((p.shown rules decl).map (ShownClass.fragment p.dialect)), decl) := by
  rw [fragments_shown h hrules decl]
  exact Prod.ext rfl (printInto_snd h decl out)

end Printer

end JavaStubs.Stubs
