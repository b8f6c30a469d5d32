import JavaStubs.Model.Index
import JavaStubs.Source.LiteralText
import JavaStubs.Source.TypeText

/-!
# Delegation calls

A stub cannot repeat the arguments with which a constructor calls another one, since they mention
code that the stub does not carry. Strategies are tried in order, and the first one that applies
decides. Anyone may bring strategies of their own. Three rules come with the library: to call a
constructor that is known to exist, with a default value for every parameter, or the one that is
implied; and where nothing is known, to keep the shape of the constructor's own call.
-/
namespace JavaStubs.Stubs

open Source (Dialect)

/-- What a strategy knows of the constructor. -/
structure CallSite where
  /-- The class of the constructor. -/
  decl : ClassDecl
  constructor : ConstructorDecl
  /-- The call that the constructor makes in its source. -/
  call : DelegationCall
  index : ClassIndex
  dialect : Dialect

/-- A way of choosing the call. What it answers depends on the call site and on nothing else. -/
structure CallStrategy where
  name : String
  /-- The call as a statement, if the strategy applies. -/
  callOf? : CallSite → Option String

/-- The strategies that come with the library. -/
inductive CallRule where
  /-- The first public or protected constructor of the super class. -/
  | accessibleSuper
  /-- The constructor without parameters that a source class without constructors has. -/
  | implicitSource
  /-- The constructor's own call, with a default value for every argument that is no constant. -/
  | ownArguments
  deriving DecidableEq, Repr

/-- The name of a rule. -/
def CallRule.name : CallRule → String
  | .accessibleSuper => "accessible-super-constructor"
  | .implicitSource => "implicit-source-constructor"
  | .ownArguments => "original-arguments"

/-- The rules in the order in which they are usually tried. -/
def CallRule.usual : List CallRule :=
  [.accessibleSuper, .implicitSource, .ownArguments]

/-- A call as a statement. -/
def callText (target : CallTarget) (arguments : List String) : String :=
  target.keyword ++ "(" ++ Text.join ", " arguments ++ ");"

theorem callText_sameClass (arguments : List String) :
    callText .sameClass arguments = "this(" ++ Text.join ", " arguments ++ ");" := rfl

theorem callText_superClass (arguments : List String) :
    callText .superClass arguments = "super(" ++ Text.join ", " arguments ++ ");" := rfl

namespace CallSite

/-- The name of the immediate super class. -/
def superName (site : CallSite) : String := site.decl.superName

/-- What is known of the super class. -/
def superClass? (site : CallSite) : Option KnownClass :=
  site.index.get? site.superName

/-- The super class's first constructor that a subclass may call. -/
def accessibleSuper? (site : CallSite) : Option ConstructorDecl :=
  site.superClass?.bind fun known => known.constructors.find? ConstructorDecl.isAccessible

/-- A default value for every parameter. -/
def defaultValues (dialect : Dialect) (parameters : List Parameter) : List String :=
  parameters.map fun p => dialect.defaultValue p.type

/-- One argument of the constructor's own call. A string becomes a default value; a variable has
the type of the parameter of its name, if there is one. -/
def argumentText (site : CallSite) : Expression → String
  | .constant (.string _) => site.dialect.defaultValue .string
  | .constant value => Source.literalText value
  | .reference name type =>
    let parameter := site.constructor.parameters.find? fun p => p.name == name
    site.dialect.defaultValue ((parameter.map Parameter.type).getD type)
  | .other type => site.dialect.defaultValue type

/-- The constructor's own call. -/
def ownCall (site : CallSite) : String :=
  callText site.call.target (site.call.arguments.map site.argumentText)

/-- The call that a rule chooses, if it applies. -/
def callOf? (site : CallSite) : CallRule → Option String
  | .accessibleSuper =>
    site.accessibleSuper?.map fun target =>
      callText .superClass (defaultValues site.dialect target.parameters)
  | .implicitSource =>
    match site.superClass? with
    | some ⟨.source, []⟩ => some (callText .superClass [])
    | _ => none
  | .ownArguments => some site.ownCall

/-- The call that the first applicable strategy chooses, or the constructor's own call. -/
def chosenCall (site : CallSite) (strategies : List CallStrategy) : String :=
  (strategies.findSome? fun strategy => strategy.callOf? site).getD site.ownCall

end CallSite

/-- A rule as a strategy. -/
def CallRule.strategy (rule : CallRule) : CallStrategy where
  name := rule.name
  callOf? site := site.callOf? rule

/-- The strategies that are usually tried. -/
def CallStrategy.usual : List CallStrategy := CallRule.usual.map CallRule.strategy

/-- Rules are tried like any other strategies. -/
theorem CallSite.chosenCall_rules (site : CallSite) (rules : List CallRule) :
    site.chosenCall (rules.map CallRule.strategy) =
      (rules.findSome? site.callOf?).getD site.ownCall := by
  rw [chosenCall, List.findSome?_map]
  rfl

end JavaStubs.Stubs
