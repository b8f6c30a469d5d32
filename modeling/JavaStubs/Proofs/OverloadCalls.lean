import JavaStubs.Proofs.DroppedDefaults
import JavaStubs.Proofs.ShownCalls

/-!
# Calls of overloads

An overload of a constructor calls the constructor itself: it hands on the parameters that it has
and the defaults of those that it leaves out. Parameters are recognized by name, in the list that
the overload keeps and once more where the call is written; when the names are distinct, this comes
to the same as going by place. So each argument is the one that stands for its place, and none is a
stand-in for a default that is not there.
-/
namespace JavaStubs

namespace Normalization

variable {parameters : List Parameter} {places : List Nat}

theorem place_eq_of_name (hnames : (parameters.map Parameter.name).Nodup) {first second : Nat}
    {hf : first < parameters.length} {hs : second < parameters.length}
    (h : parameters[first].name = parameters[second].name) : first = second := by
  have hfirst : first < (parameters.map Parameter.name).length := by rwa [List.length_map]
  refine (List.getElem?_inj hfirst hnames).mp ?_
  rw [List.getElem?_map, List.getElem?_map, List.getElem?_eq_getElem hf,
    List.getElem?_eq_getElem hs, Option.map_some, Option.map_some, h]

/-- Where names are distinct, one is kept exactly if its place is. -/
theorem name_mem_withoutPlaces_iff (hnames : (parameters.map Parameter.name).Nodup) {place : Nat}
    (h : place < parameters.length) :
    (∃ kept ∈ withoutPlaces places parameters, kept.name = parameters[place].name) ↔
      place ∉ places := by
  constructor
  · rintro ⟨kept, hkept, hname⟩
    obtain ⟨other, hother, hfree, rfl⟩ := mem_withoutPlaces.mp hkept
    obtain rfl := place_eq_of_name hnames hname
    exact hfree
  · intro hfree
    exact ⟨_, mem_withoutPlaces.mpr ⟨place, h, hfree, rfl⟩, rfl⟩

theorem any_name_clearDefaults (name : String) :
    ((clearDefaults parameters).any fun kept => kept.name == name) = true ↔
      ∃ kept ∈ parameters, kept.name = name := by
  simp [clearDefaults, Parameter.withoutDefault]

/-- An overload refers to the parameters that it keeps. -/
theorem delegationArgument_of_kept (hnames : (parameters.map Parameter.name).Nodup) {place : Nat}
    (h : place < parameters.length) (hkept : place ∉ places) :
    delegationArgument (clearDefaults (withoutPlaces places parameters)) parameters[place] =
      .reference parameters[place].name parameters[place].type := by
  have hany := (any_name_clearDefaults parameters[place].name).mpr
    ((name_mem_withoutPlaces_iff hnames h).mpr hkept)
  rw [delegationArgument, if_pos hany]

/-- An overload hands on the defaults of the parameters that it leaves out. -/
theorem delegationArgument_of_dropped (hnames : (parameters.map Parameter.name).Nodup)
    {place : Nat} (h : place < parameters.length) (hdropped : place ∈ places)
    (hdefault : parameters[place].hasDefault = true) :
    parameters[place].default =
      some (delegationArgument (clearDefaults (withoutPlaces places parameters))
        parameters[place]) := by
  have hany : ¬ ((clearDefaults (withoutPlaces places parameters)).any fun kept =>
      kept.name == parameters[place].name) = true := by
    rw [any_name_clearDefaults, name_mem_withoutPlaces_iff hnames h]
    exact fun hfree => hfree hdropped
  obtain ⟨value, hvalue⟩ := Option.isSome_iff_exists.mp hdefault
  rw [delegationArgument, if_neg hany, hvalue, Option.getD_some]

/-- What a list without defaults says of a name is said by the parameter at its place. -/
theorem find?_name_clearDefaults (hnames : (parameters.map Parameter.name).Nodup) {place : Nat}
    (h : place < parameters.length) (hkept : place ∉ places) :
    (clearDefaults (withoutPlaces places parameters)).find?
        (fun kept => kept.name == parameters[place].name) =
      some parameters[place].withoutDefault := by
  have hany := (any_name_clearDefaults parameters[place].name).mpr
    ((name_mem_withoutPlaces_iff hnames h).mpr hkept)
  obtain ⟨found, hfound⟩ := Option.isSome_iff_exists.mp
    (List.find?_isSome.mpr (List.any_eq_true.mp hany))
  obtain ⟨kept, hmem, rfl⟩ := List.mem_map.mp (List.mem_of_find?_eq_some hfound)
  obtain ⟨other, hother, hfree, rfl⟩ := mem_withoutPlaces.mp hmem
  have hname : parameters[other].name = parameters[place].name := by
    simpa [Parameter.withoutDefault] using List.find?_some hfound
  obtain rfl := place_eq_of_name hnames hname
  exact hfound

/-- An overload of a constructor which leaves out the parameters at the dropped places. Its call is
one of the constructor, with an argument for each of the constructor's parameters: the parameter
itself if it is kept, and its own default if it is not. -/
structure HandsOn (constructor overload : ConstructorDecl) (dropped : List Nat)
    (arguments : List Expression) : Prop where
  modifiers : overload.modifiers = constructor.modifiers
  exceptions : overload.exceptions = constructor.exceptions
  parameters : overload.parameters = clearDefaults (withoutPlaces dropped constructor.parameters)
  call : overload.firstCall = some (.thisCall arguments)
  length : arguments.length = constructor.parameters.length
  kept : ∀ place parameter, constructor.parameters[place]? = some parameter → place ∉ dropped →
    arguments[place]? = some (.reference parameter.name parameter.type)
  passed : ∀ place parameter, constructor.parameters[place]? = some parameter → place ∈ dropped →
    ∃ value, parameter.default = some value ∧ arguments[place]? = some value

theorem handsOn_constructorOverload {constructor : ConstructorDecl}
    (hnames : (constructor.parameters.map Parameter.name).Nodup)
    (hplaces : places ⊆ defaultedPlaces constructor.parameters) :
    let kept := clearDefaults (withoutPlaces places constructor.parameters)
    HandsOn constructor (constructorOverload constructor kept) places
      (constructor.parameters.map (delegationArgument kept)) := by
  intro kept
  refine ⟨rfl, rfl, rfl, rfl, List.length_map _, ?_, ?_⟩
  · intro place parameter hparameter hfree
    obtain ⟨h, rfl⟩ := List.getElem?_eq_some_iff.mp hparameter
    rw [List.getElem?_map, hparameter, Option.map_some, delegationArgument_of_kept hnames h hfree]
  · intro place parameter hparameter hdropped
    obtain ⟨h, rfl⟩ := List.getElem?_eq_some_iff.mp hparameter
    obtain ⟨_, hdefault⟩ := mem_defaultedPlaces.mp (hplaces hdropped)
    refine ⟨_, delegationArgument_of_dropped hnames h hdropped hdefault, ?_⟩
    rw [List.getElem?_map, hparameter, Option.map_some]

theorem rightmostDefaulted_subset (count : Nat) (parameters : List Parameter) :
    rightmostDefaulted count parameters ⊆ defaultedPlaces parameters :=
  fun _ h => List.mem_of_mem_drop h

theorem getElem?_constructorOverloads {constructor overload : ConstructorDecl} {k : Nat}
    (h : (constructorOverloads constructor)[k]? = some overload) :
    overload = constructorOverload constructor (clearDefaults
      (withoutPlaces (rightmostDefaulted (k + 1) constructor.parameters)
        constructor.parameters)) := by
  rw [constructorOverloads, List.getElem?_map] at h
  obtain ⟨kept, hkept, rfl⟩ := Option.map_eq_some_iff.mp h
  obtain ⟨hk, rfl⟩ := List.getElem?_eq_some_iff.mp hkept
  rw [getElem_overloads_eq_withoutPlaces]

/-- An overload has fewer parameters than the constructor. -/
theorem length_lt_of_mem_constructorOverloads {constructor overload : ConstructorDecl}
    (h : overload ∈ constructorOverloads constructor) :
    overload.parameters.length < constructor.parameters.length := by
  obtain ⟨kept, hkept, rfl⟩ := List.mem_map.mp h
  obtain ⟨k, hk, rfl⟩ := List.mem_iff_getElem.mp hkept
  have hcount : k < defaultedCount constructor.parameters := by rwa [← length_overloads]
  have hlength := length_keepDefaulted
    (show defaultedCount constructor.parameters - (k + 1) ≤
      defaultedCount constructor.parameters by omega)
  change (overloads constructor.parameters)[k].length < _
  rw [getElem_overloads, List.length_map]
  omega

/-- The constructors that are made for a class have the overloads of each declared one in its
place. -/
theorem constructors_capture_split (protocol : List MethodDecl) {decl : ClassDecl}
    {before after : List ConstructorDecl} {constructor : ConstructorDecl}
    (h : decl.constructors = before ++ constructor :: after) :
    (capture (Transform.standard protocol) decl).1.constructors =
      before.flatMap constructorOverloads ++ constructorOverloads constructor ++
        after.flatMap constructorOverloads := by
  have himplicit : implicitConstructors decl = [] := by simp [implicitConstructors, h]
  rw [constructors_capture, himplicit, h, List.flatMap_append, List.flatMap_cons, List.nil_append,
    List.append_assoc]

end Normalization

namespace Stubs

open Normalization
open Source (Dialect)

/-- How a default is written in a call whose constructor has those parameters. A string is written
as the default value of strings and any other constant as it is; whatever else it may be, the
default value of its type is written, where a name means the parameter that has it. -/
inductive DefaultWritten (dialect : Dialect) (parameters : List Parameter) :
    Expression → String → Prop where
  | string (value : String) :
    DefaultWritten dialect parameters (.constant (.string value)) "(java.lang.String)null"
  | constant {value : Literal} (h : value.isString = false) :
    DefaultWritten dialect parameters (.constant value) (Source.literalText value)
  | parameter {name : String} {type : TypeRef} {parameter : Parameter}
    (hmem : parameter ∈ parameters) (hname : parameter.name = name) :
    DefaultWritten dialect parameters (.reference name type) (dialect.defaultValue parameter.type)
  | free {name : String} {type : TypeRef} (h : ∀ parameter ∈ parameters, parameter.name ≠ name) :
    DefaultWritten dialect parameters (.reference name type) (dialect.defaultValue type)
  | other (type : TypeRef) :
    DefaultWritten dialect parameters (.other type) (dialect.defaultValue type)

theorem CallSite.defaultWritten_argumentText (site : CallSite) (value : Expression) :
    DefaultWritten site.dialect site.constructor.parameters value (site.argumentText value) := by
  cases value with
  | constant value =>
    cases value with
    | string value =>
      rw [argumentText, Dialect.defaultValue_string]
      exact .string value
    | _ => exact .constant rfl
  | reference name type =>
    rw [argumentText]
    cases hfound : site.constructor.parameters.find? fun p => p.name == name with
    | none =>
      refine .free fun parameter hparameter hname => ?_
      exact List.find?_eq_none.mp hfound parameter hparameter (by simpa using hname)
    | some parameter =>
      exact .parameter (List.mem_of_find?_eq_some hfound)
        (by simpa using List.find?_some hfound)
  | other type => exact .other type

/-- The arguments of an overload's call as they are written: a default value for each parameter that
it keeps, and for the others their own defaults as far as those can be written. -/
structure WrittenOn (dialect : Dialect) (constructor overload : ConstructorDecl)
    (dropped : List Nat) (texts : List String) : Prop where
  length : texts.length = constructor.parameters.length
  kept : ∀ place parameter, constructor.parameters[place]? = some parameter → place ∉ dropped →
    texts[place]? = some (dialect.defaultValue parameter.type)
  passed : ∀ place parameter, constructor.parameters[place]? = some parameter → place ∈ dropped →
    ∃ value text, parameter.default = some value ∧ texts[place]? = some text ∧
      DefaultWritten dialect overload.parameters value text

theorem writtenOn_argumentTexts (site : CallSite) {constructor : ConstructorDecl}
    (hnames : (constructor.parameters.map Parameter.name).Nodup) {dropped : List Nat}
    {arguments : List Expression}
    (h : HandsOn constructor site.constructor dropped arguments) :
    WrittenOn site.dialect constructor site.constructor dropped
      (arguments.map site.argumentText) := by
  refine ⟨(List.length_map _).trans h.length, ?_, ?_⟩
  · intro place parameter hparameter hfree
    obtain ⟨hplace, rfl⟩ := List.getElem?_eq_some_iff.mp hparameter
    rw [List.getElem?_map, h.kept place _ hparameter hfree, Option.map_some, CallSite.argumentText,
      h.parameters, find?_name_clearDefaults hnames hplace hfree]
    rfl
  · intro place parameter hparameter hdropped
    obtain ⟨value, hvalue, hargument⟩ := h.passed place parameter hparameter hdropped
    refine ⟨value, site.argumentText value, hvalue, ?_, site.defaultWritten_argumentText value⟩
    rw [List.getElem?_map, hargument, Option.map_some]

/-- For each default of a constructor an overload is made, in the place of the constructor among
those of its class. It has the constructor's modifiers and exceptions and calls the constructor with
an argument for every parameter, in the source and, when its own call is written, in the stub. So
the call never means an overload of the constructor. -/
theorem overloads_hand_on (protocol : List MethodDecl) (index : ClassIndex) (dialect : Dialect)
    (decl : ClassDecl) (constructor : ConstructorDecl) (before after : List ConstructorDecl)
    (hdecl : decl.constructors = before ++ constructor :: after)
    (hnames : (constructor.parameters.map Parameter.name).Nodup) :
    (capture (Transform.standard protocol) decl).1.constructors =
        before.flatMap constructorOverloads ++ constructorOverloads constructor ++
          after.flatMap constructorOverloads ∧
      (constructorOverloads constructor).length = defaultedCount constructor.parameters ∧
      ∀ k overload, (constructorOverloads constructor)[k]? = some overload →
        let dropped := rightmostDefaulted (k + 1) constructor.parameters
        ∃ arguments texts, HandsOn constructor overload dropped arguments ∧
          CallSite.ownCall ⟨decl, overload, .thisCall arguments, index, dialect⟩ =
            "this(" ++ Text.join ", " texts ++ ");" ∧
          WrittenOn dialect constructor overload dropped texts ∧
          ∀ other ∈ constructorOverloads constructor,
            other.parameters.length < arguments.length := by
  refine ⟨constructors_capture_split protocol hdecl, ?_, ?_⟩
  · rw [constructorOverloads, List.length_map, length_overloads]
  · intro k overload hoverload dropped
    have hhands := handsOn_constructorOverload hnames
      (rightmostDefaulted_subset (k + 1) constructor.parameters)
    obtain rfl := getElem?_constructorOverloads hoverload
    refine ⟨_, _, hhands, callText_sameClass _, writtenOn_argumentTexts
      ⟨decl, _, .thisCall _, index, dialect⟩ hnames hhands, ?_⟩
    intro other hother
    rw [hhands.length]
    exact length_lt_of_mem_constructorOverloads hother

/-- A constructor with defaults of every sort, and a parameter without one between them. -/
def framed : ConstructorDecl :=
  { modifiers := .ofList [.protectedAccess]
    parameters :=
      [(Parameter.ofName "title" .string).withDefault (.constant (.string "untitled")),
        .ofName "width" .int,
        (Parameter.ofName "height" .long).withDefault (.constant (.int 7)),
        (Parameter.ofName "owner" .object).withDefault (.other .object),
        (Parameter.ofName "border" .int).withDefault (.reference "width" .int)]
    exceptions := [.ofName "java.io.IOException"] }

/-- A class with another constructor before that one. -/
def frame : ClassDecl :=
  { name := "geo.Frame"
    constructors := [.ofModifiers (.ofList [.publicAccess]), framed] }

theorem frame_hands_on :
    frame.constructors = [.ofModifiers (.ofList [.publicAccess])] ++ framed :: [] ∧
      (framed.parameters.map Parameter.name).Nodup ∧
      (capture (Transform.standard []) frame).1.constructors = constructorOverloads framed ∧
      (constructorOverloads framed).length = 4 ∧
      ∃ overload arguments texts, (constructorOverloads framed)[2]? = some overload ∧
        HandsOn framed overload [2, 3, 4] arguments ∧
        CallSite.ownCall ⟨frame, overload, .thisCall arguments, .empty, {}⟩ =
          "this(" ++ Text.join ", " texts ++ ");" ∧
        WrittenOn {} framed overload [2, 3, 4] texts ∧
        ∀ other ∈ constructorOverloads framed, other.parameters.length < arguments.length := by
  have hnames : (framed.parameters.map Parameter.name).Nodup := by decide
  obtain ⟨hcaptured, hlength, hoverloads⟩ :=
    overloads_hand_on [] .empty {} frame framed [.ofModifiers (.ofList [.publicAccess])] [] rfl
      hnames
  have hfour : defaultedCount framed.parameters = 4 := by decide
  rw [hfour] at hlength
  have hthird : 2 < (constructorOverloads framed).length := by omega
  obtain ⟨arguments, texts, hhands, hcall, hwritten, hshorter⟩ :=
    hoverloads 2 _ (List.getElem?_eq_getElem hthird)
  have hdropped : rightmostDefaulted 3 framed.parameters = [2, 3, 4] := by decide
  rw [hdropped] at hhands hwritten
  refine ⟨rfl, hnames, ?_, hlength, _, arguments, texts, List.getElem?_eq_getElem hthird, hhands,
    hcall, hwritten, hshorter⟩
  have hplain : constructorOverloads (.ofModifiers (.ofList [.publicAccess])) = [] := by
    rw [constructorOverloads, overloads_eq_nil rfl, List.map_nil]
  rw [hcaptured, List.flatMap_singleton, hplain, List.nil_append, List.flatMap_nil,
    List.append_nil]

end Stubs

end JavaStubs
