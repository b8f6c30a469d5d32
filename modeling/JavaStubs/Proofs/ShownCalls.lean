import JavaStubs.Stubs.Delegation

/-!
# Delegation calls as they are shown

A delegation call is a target and a list of arguments, each a constant of the constructor's own call
or the default value of a type. The types come from three sources only: the constructor's
parameters, the expressions of its own call, and the parameters of the super class's constructor that
the call was chosen for. The text of a call is the text of these parts.
-/
namespace JavaStubs

open Source (Dialect)

/-- The type of an expression that is no constant. -/
def Expression.type? : Expression → Option TypeRef
  | .constant _ => none
  | .reference _ type => some type
  | .other type => some type

/-- The default value of strings, in either dialect. -/
theorem Source.Dialect.defaultValue_string (dialect : Dialect) :
    dialect.defaultValue .string = "(java.lang.String)null" := by
  have htext : dialect.typeText .string = "java.lang.String" := by
    rw [TypeRef.string, typeText, ClassType.string, ClassType.ofName, classText,
      if_pos (by decide)]
    decide +kernel
  rw [defaultValue, htext]
  decide +kernel

namespace Stubs

/-- An argument of a call in a stub. -/
inductive ShownArgument where
  | defaultOf (type : TypeRef)
  | constant (value : Literal)

def ShownArgument.text (dialect : Dialect) : ShownArgument → String
  | .defaultOf type => dialect.defaultValue type
  | .constant value => Source.literalText value

/-- A call in a stub. -/
structure ShownCall where
  target : CallTarget
  arguments : List ShownArgument

namespace ShownCall

def text (dialect : Dialect) (call : ShownCall) : String :=
  callText call.target (call.arguments.map (ShownArgument.text dialect))

/-- The types whose default values are arguments. -/
def types (call : ShownCall) : List TypeRef :=
  call.arguments.filterMap fun
    | .defaultOf type => some type
    | .constant _ => none

/-- The call of a super class constructor with those parameters. -/
def superCall (parameters : List Parameter) : ShownCall :=
  ⟨.superClass, parameters.map fun p => .defaultOf p.type⟩

@[simp] theorem types_superCall (parameters : List Parameter) :
    (superCall parameters).types = parameters.map Parameter.type := by
  rw [superCall, types, List.filterMap_map]
  exact congrFun (List.filterMap_eq_map (f := Parameter.type)) parameters

theorem text_superCall (dialect : Dialect) (parameters : List Parameter) :
    (superCall parameters).text dialect =
      callText .superClass (CallSite.defaultValues dialect parameters) := by
  simp [superCall, text, CallSite.defaultValues, Function.comp_def, ShownArgument.text]

end ShownCall

namespace CallSite

variable (site : CallSite)

/-- One argument of the constructor's own call. -/
def ownArgument : Expression → ShownArgument
  | .constant (.string _) => .defaultOf .string
  | .constant value => .constant value
  | .reference name type =>
    let parameter := site.constructor.parameters.find? fun p => p.name == name
    .defaultOf ((parameter.map Parameter.type).getD type)
  | .other type => .defaultOf type

/-- The constructor's own call. -/
def ownShown : ShownCall := ⟨site.call.target, site.call.arguments.map site.ownArgument⟩

/-- The call that a rule chooses, if it applies. -/
def shownBy? : CallRule → Option ShownCall
  | .accessibleSuper => site.accessibleSuper?.map fun target => .superCall target.parameters
  | .implicitSource =>
    match site.superClass? with
    | some ⟨.source, []⟩ => some (.superCall [])
    | _ => none
  | .ownArguments => some site.ownShown

/-- The call that the first applicable rule chooses, or the constructor's own call. -/
def shownCall (rules : List CallRule) : ShownCall :=
  (rules.findSome? site.shownBy?).getD site.ownShown

theorem text_ownArgument (argument : Expression) :
    (site.ownArgument argument).text site.dialect = site.argumentText argument := by
  cases argument with
  | constant value => cases value <;> rfl
  | reference name type => rfl
  | other type => rfl

theorem text_ownShown : site.ownShown.text site.dialect = site.ownCall := by
  simp only [ownShown, ShownCall.text, List.map_map, Function.comp_def, text_ownArgument, ownCall]

theorem text_shownBy? (rule : CallRule) :
    (site.shownBy? rule).map (ShownCall.text site.dialect) = site.callOf? rule := by
  cases rule with
  | accessibleSuper =>
    simp only [shownBy?, callOf?, Option.map_map, Function.comp_def, ShownCall.text_superCall]
  | implicitSource =>
    simp only [shownBy?, callOf?]
    rcases site.superClass? with _ | ⟨_ | _, _ | _⟩ <;> rfl
  | ownArguments => simp only [shownBy?, callOf?, Option.map_some, text_ownShown]

/-- The text of the call that rules choose is the text of its parts. -/
theorem chosenCall_eq_text (rules : List CallRule) :
    site.chosenCall (rules.map CallRule.strategy) = (site.shownCall rules).text site.dialect := by
  have hrules : rules.findSome? site.callOf? =
      (rules.findSome? site.shownBy?).map (ShownCall.text site.dialect) := by
    rw [List.map_findSome?]
    exact congrArg (rules.findSome? ·) (funext fun rule => (site.text_shownBy? rule).symm)
  rw [chosenCall_rules, shownCall, hrules, ← text_ownShown]
  cases rules.findSome? site.shownBy? <;> rfl

variable {site}

theorem type_of_ownArgument {argument : Expression} {type : TypeRef}
    (h : site.ownArgument argument = .defaultOf type) :
    type = .string ∨ (∃ p ∈ site.constructor.parameters, p.type = type) ∨
      argument.type? = some type := by
  cases argument with
  | constant value =>
    cases value <;> simp only [ownArgument, reduceCtorEq, ShownArgument.defaultOf.injEq] at h
    exact .inl h.symm
  | reference name own =>
    simp only [ownArgument, ShownArgument.defaultOf.injEq] at h
    cases hp : site.constructor.parameters.find? fun p => p.name == name with
    | none =>
      rw [hp] at h
      exact .inr (.inr (congrArg some h))
    | some parameter =>
      rw [hp] at h
      exact .inr (.inl ⟨parameter, List.mem_of_find?_eq_some hp, h⟩)
  | other own => exact .inr (.inr (congrArg some (ShownArgument.defaultOf.inj h)))

/-- The types in the constructor's own call are those of its parameters and of the expressions that
it passes; strings are passed by default values, too. -/
theorem mem_types_ownShown {type : TypeRef} (h : type ∈ site.ownShown.types) :
    type = .string ∨ (∃ p ∈ site.constructor.parameters, p.type = type) ∨
      ∃ argument ∈ site.call.arguments, argument.type? = some type := by
  obtain ⟨shown, hm, hs⟩ := List.mem_filterMap.mp h
  obtain ⟨argument, ha, rfl⟩ := List.mem_map.mp hm
  cases ho : site.ownArgument argument with
  | constant value => simp [ho] at hs
  | defaultOf shownType =>
    obtain rfl : shownType = type := by simpa [ho] using hs
    rcases type_of_ownArgument ho with hstring | hparameter | hargument
    · exact .inl hstring
    · exact .inr (.inl hparameter)
    · exact .inr (.inr ⟨argument, ha, hargument⟩)

/-- The constructor of the super class that a call with these rules is chosen for; none if the call
is the constructor's own one or the one without arguments. -/
def borrowed? (site : CallSite) (rules : List CallRule) : Option ConstructorDecl :=
  match rules.find? fun rule => (site.shownBy? rule).isSome with
  | some .accessibleSuper => site.accessibleSuper?
  | _ => none

theorem accessibleSuper?_of_borrowed? {rules : List CallRule} {target : ConstructorDecl}
    (h : site.borrowed? rules = some target) : site.accessibleSuper? = some target := by
  unfold borrowed? at h
  split at h
  · exact h
  · simp at h

/-- The first answer is that of the first item which has one. -/
theorem findSome?_eq_bind_find? {α β : Type} (answer : α → Option β) (items : List α) :
    items.findSome? answer = (items.find? fun item => (answer item).isSome).bind answer := by
  induction items with
  | nil => rfl
  | cons item rest ih => cases h : answer item <;> simp [h, ih]

/-- The chosen call passes default values to the constructor that it is chosen for. Otherwise it is
the constructor's own one or the call without arguments. -/
theorem shownCall_cases (site : CallSite) (rules : List CallRule) :
    (∃ target, site.borrowed? rules = some target ∧
        site.shownCall rules = .superCall target.parameters) ∨
      site.borrowed? rules = none ∧
        (site.shownCall rules = .superCall [] ∨ site.shownCall rules = site.ownShown) := by
  have hchosen : site.shownCall rules =
      ((rules.find? fun rule => (site.shownBy? rule).isSome).bind site.shownBy?).getD
        site.ownShown := by
    rw [shownCall, findSome?_eq_bind_find?]
  rw [hchosen, borrowed?]
  cases hf : rules.find? fun rule => (site.shownBy? rule).isSome with
  | none => exact .inr ⟨rfl, .inr rfl⟩
  | some rule =>
    obtain ⟨call, hcall⟩ := Option.isSome_iff_exists.mp (by simpa using List.find?_some hf)
    rw [Option.bind_some, hcall, Option.getD_some]
    cases rule with
    | accessibleSuper =>
      obtain ⟨target, htarget, rfl⟩ := Option.map_eq_some_iff.mp hcall
      exact .inl ⟨target, htarget, rfl⟩
    | implicitSource =>
      simp only [shownBy?] at hcall
      split at hcall
      · exact .inr ⟨rfl, .inl (Option.some.inj hcall).symm⟩
      · simp at hcall
    | ownArguments => exact .inr ⟨rfl, .inr (Option.some.inj hcall).symm⟩

end CallSite

end Stubs

end JavaStubs
