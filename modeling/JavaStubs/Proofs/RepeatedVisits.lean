import JavaStubs.Proofs.MadeMembers

/-!
# Visiting a class again

Let a policy give the same answers for every class and keep no default that was expanded. A visit
then adds a time stamp field and a static initializer, if they are allowed and not there, and clears
the defaults of parameters; nothing else of the class changes. What it added is there when the class
is visited again, and no default is left. So every later visit leaves the class alone and makes the
same members as the first one, but no overloads.
-/
namespace JavaStubs.Normalization

/-- Whether the policy gives those answers for every class and keeps what an expansion leaves. -/
structure Policy.Steady (policy : Policy) (timestamp initializers : Bool) : Prop where
  keepTimestamp : ∀ decl, policy.keepTimestamp decl = timestamp
  keepInitializers : ∀ decl, policy.keepInitializers decl = initializers
  expand : ∀ run parameters, policy.expand run parameters = run parameters

theorem Policy.steady_fixed (timestamp initializers : Bool) :
    (Policy.fixed timestamp initializers).Steady timestamp initializers :=
  ⟨fun _ => rfl, fun _ => rfl, fun _ _ => rfl⟩

/-- The field that a visit adds, if it adds one. -/
def addedFields (timestamp : Bool) (decl : ClassDecl) : List FieldDecl :=
  if timestamp = true ∧ decl.kind = .ordinary ∧ decl.declaresField Names.timestampField = false then
    [timestampField]
  else []

/-- The method that a visit adds, if it adds one. Of the fields only those that were there before
the visit count. -/
def addedMethods (initializers : Bool) (decl : ClassDecl) : List MethodDecl :=
  if initializers = true ∧ decl.fields.any needsInitializer = true ∧
      decl.declaresMethod Names.staticInitializer 0 = false then
    [staticInitializer]
  else []

/-- The method with no defaults left. -/
def clearMethod (method : MethodDecl) : MethodDecl :=
  { method with parameters := clearDefaults method.parameters }

/-- The constructor with no defaults left. -/
def clearConstructor (constructor : ConstructorDecl) : ConstructorDecl :=
  { constructor with parameters := clearDefaults constructor.parameters }

/-- The class with what a visit adds. -/
def equipped (timestamp initializers : Bool) (decl : ClassDecl) : ClassDecl :=
  { decl with
    fields := decl.fields ++ addedFields timestamp decl
    methods := decl.methods ++ addedMethods initializers decl }

/-- The class with no defaults left. -/
def cleared (decl : ClassDecl) : ClassDecl :=
  { decl with
    methods := decl.methods.map clearMethod
    constructors := decl.constructors.map clearConstructor }

/-- The class after a visit. -/
def settled (timestamp initializers : Bool) (decl : ClassDecl) : ClassDecl :=
  cleared (equipped timestamp initializers decl)

/-- The events of a visit that are the same each time: all but those of overloads. -/
def lastingEvents (protocol : List MethodDecl) (decl : ClassDecl) : List Event :=
  [.askedTimestamp decl.name, .askedInitializers decl.name] ++
    (implicitConstructors decl).map .constructor ++
    (accessors decl).map .accessor ++
    (enumHelpers decl).map .method ++
    (protocolMethods protocol decl).map .method

/-- The events of the overloads for the defaults in a class. -/
def overloadEvents (decl : ClassDecl) : List Event :=
  (decl.methods.flatMap methodOverloads).map .method ++
    (decl.constructors.flatMap constructorOverloads).map .constructor

/-- The class is visited again and again: what the visit after so many others comes to. -/
def visitAgain (protocol : List MethodDecl) (policy : Policy) (decl : ClassDecl) : Nat → Visit
  | 0 => visit protocol policy decl
  | count + 1 => visit protocol policy (visitAgain protocol policy decl count).decl

section clearing

variable {parameters : List Parameter}

@[simp] theorem length_clearDefaults (parameters : List Parameter) :
    (clearDefaults parameters).length = parameters.length := List.length_map _

@[simp] theorem any_hasDefault_clearDefaults (parameters : List Parameter) :
    (clearDefaults parameters).any Parameter.hasDefault = false := by
  simp [clearDefaults]

theorem clearDefaults_eq_self (h : parameters.any Parameter.hasDefault = false) :
    clearDefaults parameters = parameters := by
  refine (List.map_congr_left fun parameter hp => ?_).trans (List.map_id _)
  have hnone : parameter.hasDefault = false := by simpa using List.any_eq_false.mp h parameter hp
  obtain ⟨name, type, value⟩ := parameter
  cases value with
  | none => rfl
  | some value => cases hnone

theorem clearMethod_clearMethod (method : MethodDecl) :
    clearMethod (clearMethod method) = clearMethod method := by
  rw [clearMethod, clearMethod, clearDefaults_eq_self (any_hasDefault_clearDefaults _)]

theorem clearConstructor_clearConstructor (constructor : ConstructorDecl) :
    clearConstructor (clearConstructor constructor) = clearConstructor constructor := by
  rw [clearConstructor, clearConstructor, clearDefaults_eq_self (any_hasDefault_clearDefaults _)]

theorem methodOverloads_clearMethod (method : MethodDecl) :
    methodOverloads (clearMethod method) = [] := by
  rw [methodOverloads, clearMethod, overloads_eq_nil (any_hasDefault_clearDefaults _), List.map_nil]

theorem constructorOverloads_clearConstructor (constructor : ConstructorDecl) :
    constructorOverloads (clearConstructor constructor) = [] := by
  rw [constructorOverloads, clearConstructor, overloads_eq_nil (any_hasDefault_clearDefaults _),
    List.map_nil]

/-- Its name and its number of parameters say whether a method is declared. -/
@[simp] theorem declaresMethod_cleared (decl : ClassDecl) (name : String) (arity : Nat) :
    (cleared decl).declaresMethod name arity = decl.declaresMethod name arity := by
  simp [cleared, ClassDecl.declaresMethod, List.any_map, Function.comp_def, clearMethod]

theorem undeclared_cleared (decl : ClassDecl) (methods : List MethodDecl) :
    undeclared (cleared decl) methods = undeclared decl methods := by
  simp only [undeclared, declaresMethod_cleared]

theorem implicitConstructors_cleared (decl : ClassDecl) :
    implicitConstructors (cleared decl) = implicitConstructors decl := by
  simp only [implicitConstructors, cleared, List.isEmpty_map]

/-- Defaults only count for overloads. -/
theorem lastingEvents_cleared (protocol : List MethodDecl) (decl : ClassDecl) :
    lastingEvents protocol (cleared decl) = lastingEvents protocol decl := by
  simp only [lastingEvents, implicitConstructors_cleared, accessors, enumHelpers, protocolMethods,
    undeclared_cleared]
  rfl

theorem overloadEvents_cleared (decl : ClassDecl) : overloadEvents (cleared decl) = [] := by
  simp [overloadEvents, cleared, List.flatMap_map, methodOverloads_clearMethod,
    constructorOverloads_clearConstructor]

theorem cleared_cleared (decl : ClassDecl) : cleared (cleared decl) = cleared decl := by
  simp only [cleared, List.map_map, Function.comp_def, clearMethod_clearMethod,
    clearConstructor_clearConstructor]

end clearing

section steady

variable {policy : Policy} {timestamp initializers : Bool}

theorem Policy.Steady.expandMethod (h : policy.Steady timestamp initializers)
    (method : MethodDecl) :
    expandMethod policy method = (methodOverloads method, clearMethod method) := by
  rw [Normalization.expandMethod]
  split
  · rw [h.expand]
    rfl
  · rename_i hnone
    have hnone : method.parameters.any Parameter.hasDefault = false := by
      simpa [MethodDecl.hasDefaults] using hnone
    rw [methodOverloads, clearMethod, overloads_eq_nil hnone, clearDefaults_eq_self hnone,
      List.map_nil]

theorem Policy.Steady.expandConstructor (h : policy.Steady timestamp initializers)
    (constructor : ConstructorDecl) :
    expandConstructor policy constructor =
      (constructorOverloads constructor, clearConstructor constructor) := by
  rw [Normalization.expandConstructor]
  split
  · rw [h.expand]
    rfl
  · rename_i hnone
    have hnone : constructor.parameters.any Parameter.hasDefault = false := by
      simpa [ConstructorDecl.hasDefaults] using hnone
    rw [constructorOverloads, clearConstructor, overloads_eq_nil hnone,
      clearDefaults_eq_self hnone, List.map_nil]

/-- The time stamp calls for no initializer: it is synthetic. -/
theorem any_needsInitializer_addedFields (timestamp : Bool) (decl : ClassDecl) :
    (addedFields timestamp decl).any needsInitializer = false := by
  have hstamp : needsInitializer timestampField = false := by decide
  rw [addedFields]
  split <;> simp [hstamp]

/-- With no field or no method more, a class is what it was. -/
theorem decl_eq_append_nil (decl : ClassDecl) :
    decl = { decl with fields := decl.fields ++ [] } ∧
      decl = { decl with methods := decl.methods ++ [] } := by
  rw [List.append_nil, List.append_nil]
  cases decl
  exact ⟨rfl, rfl⟩

theorem stamp_eq (timestamp : Bool) (decl : ClassDecl) :
    (if timestamp && decl.kind == .ordinary then withTimestamp decl else decl) =
      { decl with fields := decl.fields ++ addedFields timestamp decl } := by
  rw [addedFields, withTimestamp]
  split <;> rename_i hallowed
  · rw [Bool.and_eq_true, beq_iff_eq] at hallowed
    cases hdeclared : decl.declaresField Names.timestampField with
    | true =>
      rw [if_pos rfl, if_neg (by simp)]
      exact (decl_eq_append_nil decl).1
    | false =>
      rw [if_neg (by simp), if_pos ⟨hallowed.1, hallowed.2, rfl⟩]
      rfl
  · rw [Bool.and_eq_true, beq_iff_eq] at hallowed
    rw [if_neg fun h => hallowed ⟨h.1, h.2.1⟩]
    exact (decl_eq_append_nil decl).1

theorem initialize_eq (initializers : Bool) (decl : ClassDecl) :
    (if initializers then withStaticInitializer decl else decl) =
      { decl with methods := decl.methods ++ addedMethods initializers decl } := by
  rw [addedMethods, withStaticInitializer]
  cases initializers with
  | false =>
    rw [if_neg Bool.false_ne_true, if_neg (by simp)]
    exact (decl_eq_append_nil decl).2
  | true =>
    rw [if_pos rfl]
    split <;> rename_i hneeded <;> rw [Bool.and_eq_true, Bool.not_eq_true'] at hneeded
    · rw [if_pos ⟨rfl, hneeded⟩]
      rfl
    · rw [if_neg fun h => hneeded h.2]
      exact (decl_eq_append_nil decl).2

/-- Whether a static initializer is added does not depend on the time stamp. -/
theorem addedMethods_stamped (timestamp initializers : Bool) (decl : ClassDecl) :
    addedMethods initializers { decl with fields := decl.fields ++ addedFields timestamp decl } =
      addedMethods initializers decl := by
  unfold addedMethods
  rw [List.any_append, any_needsInitializer_addedFields, Bool.or_false]
  rfl

theorem Policy.Steady.prepare (h : policy.Steady timestamp initializers) (decl : ClassDecl) :
    prepare policy decl = equipped timestamp initializers decl := by
  simp only [Normalization.prepare, h.keepTimestamp, h.keepInitializers, stamp_eq, initialize_eq,
    addedMethods_stamped]
  rfl

/-- A static initializer has no overloads. -/
theorem overloadEvents_equipped (timestamp initializers : Bool) (decl : ClassDecl) :
    overloadEvents (equipped timestamp initializers decl) = overloadEvents decl := by
  have hnone : (addedMethods initializers decl).flatMap methodOverloads = [] := by
    rw [addedMethods]
    split <;> rfl
  rw [overloadEvents, equipped, List.flatMap_append, hnone, List.append_nil]
  rfl

/-- What a visit comes to. -/
theorem Policy.Steady.visit (h : policy.Steady timestamp initializers)
    (protocol : List MethodDecl) (decl : ClassDecl) :
    visit protocol policy decl =
      { events := lastingEvents protocol (settled timestamp initializers decl) ++
          overloadEvents decl
        decl := settled timestamp initializers decl } := by
  rw [settled, lastingEvents_cleared, ← overloadEvents_equipped timestamp initializers]
  simp only [Normalization.visit, h.prepare, List.map_map, Function.comp_def, List.flatMap_map,
    h.expandMethod, h.expandConstructor, lastingEvents, overloadEvents, cleared,
    List.append_assoc]
  rfl

/-- The time stamp that the first visit adds is there at the second one. -/
theorem addedFields_settled (timestamp initializers : Bool) (decl : ClassDecl) :
    addedFields timestamp (settled timestamp initializers decl) = [] := by
  rw [addedFields, if_neg]
  rintro ⟨hallowed, hkind, hundeclared⟩
  have hboth : (decl.fields ++ addedFields timestamp decl).any
      (fun field => field.name == Names.timestampField) = false := hundeclared
  rw [List.any_append, Bool.or_eq_false_iff] at hboth
  have hadded : addedFields timestamp decl = [timestampField] := if_pos ⟨hallowed, hkind, hboth.1⟩
  rw [hadded] at hboth
  exact absurd hboth.2 (by decide)

/-- The static initializer that the first visit adds is there at the second one. -/
theorem addedMethods_settled (timestamp initializers : Bool) (decl : ClassDecl) :
    addedMethods initializers (settled timestamp initializers decl) = [] := by
  rw [addedMethods, if_neg]
  rintro ⟨hallowed, hneeded, hundeclared⟩
  have hneeded : (decl.fields ++ addedFields timestamp decl).any needsInitializer = true := hneeded
  rw [List.any_append, any_needsInitializer_addedFields, Bool.or_false] at hneeded
  rw [settled, declaresMethod_cleared] at hundeclared
  have hboth : (decl.methods ++ addedMethods initializers decl).any (fun method =>
      method.name == Names.staticInitializer && method.parameters.length == 0) = false :=
    hundeclared
  rw [List.any_append, Bool.or_eq_false_iff] at hboth
  have hadded : addedMethods initializers decl = [staticInitializer] :=
    if_pos ⟨hallowed, hneeded, hboth.1⟩
  rw [hadded] at hboth
  exact absurd hboth.2 (by decide)

/-- A second visit finds nothing to change. -/
theorem settled_settled (timestamp initializers : Bool) (decl : ClassDecl) :
    settled timestamp initializers (settled timestamp initializers decl) =
      settled timestamp initializers decl := by
  have hequipped : equipped timestamp initializers (settled timestamp initializers decl) =
      settled timestamp initializers decl := by
    rw [equipped, addedFields_settled, addedMethods_settled, List.append_nil, List.append_nil]
    rfl
  calc settled timestamp initializers (settled timestamp initializers decl)
      = cleared (settled timestamp initializers decl) := congrArg cleared hequipped
    _ = settled timestamp initializers decl := cleared_cleared _

theorem Policy.Steady.visit_settled (h : policy.Steady timestamp initializers)
    (protocol : List MethodDecl) (decl : ClassDecl) :
    Normalization.visit protocol policy (settled timestamp initializers decl) =
      { events := lastingEvents protocol (settled timestamp initializers decl)
        decl := settled timestamp initializers decl } := by
  have hnone : overloadEvents (settled timestamp initializers decl) = [] :=
    overloadEvents_cleared _
  rw [h.visit, settled_settled, hnone, List.append_nil]

/-- Each visit after the first one. -/
theorem Policy.Steady.visitAgain_succ (h : policy.Steady timestamp initializers)
    (protocol : List MethodDecl) (decl : ClassDecl) (count : Nat) :
    visitAgain protocol policy decl (count + 1) =
      { events := lastingEvents protocol (settled timestamp initializers decl)
        decl := settled timestamp initializers decl } := by
  induction count with
  | zero => rw [visitAgain, visitAgain, h.visit protocol decl, h.visit_settled]
  | succ count ih => rw [visitAgain, ih, h.visit_settled]

/-- The first visit of a class adds a time stamp field and a static initializer at most and clears
the defaults; each later one leaves the class as the first left it, and its events are those of the
first without the overloads. -/
theorem Policy.Steady.visits_settle (h : policy.Steady timestamp initializers)
    (protocol : List MethodDecl) (decl : ClassDecl) :
    (visitAgain protocol policy decl 0).decl =
        { decl with
          fields := decl.fields ++ addedFields timestamp decl
          methods := decl.methods.map clearMethod ++ addedMethods initializers decl
          constructors := decl.constructors.map clearConstructor } ∧
      ∀ count,
        (visitAgain protocol policy decl (count + 1)).decl =
            (visitAgain protocol policy decl 0).decl ∧
          (visitAgain protocol policy decl 0).events =
            (visitAgain protocol policy decl (count + 1)).events ++ overloadEvents decl := by
  have hfirst := h.visit protocol decl
  refine ⟨?_, fun count => ?_⟩
  · have hkept : (addedMethods initializers decl).map clearMethod =
        addedMethods initializers decl := by
      rw [addedMethods]
      split <;> rfl
    rw [visitAgain, hfirst, settled, cleared, equipped, List.map_append, hkept]
  · rw [h.visitAgain_succ, visitAgain, hfirst]
    exact ⟨rfl, rfl⟩

end steady

/-- A method with a default. -/
def turn : MethodDecl :=
  { name := "turn", parameters := [(Parameter.ofName "by" .int).withDefault (.constant (.int 1))] }

/-- A class with a static field. -/
def turnstile : ClassDecl :=
  { name := "gate.Turnstile"
    fields := [{ name := "total", type := .int, modifiers := .ofList [.static] }]
    methods := [turn] }

theorem turnstile_settles :
    (Policy.fixed true true).Steady true true ∧
      (visitAgain [] (.fixed true true) turnstile 0).decl =
        { turnstile with
          fields := turnstile.fields ++ [timestampField]
          methods := [clearMethod turn, staticInitializer] } ∧
      overloadEvents turnstile = [.method { turn with parameters := [] }] ∧
      ∀ count,
        (visitAgain [] (.fixed true true) turnstile (count + 1)).decl =
            (visitAgain [] (.fixed true true) turnstile 0).decl ∧
          (visitAgain [] (.fixed true true) turnstile 0).events =
            (visitAgain [] (.fixed true true) turnstile (count + 1)).events ++
              overloadEvents turnstile := by
  have hsteady := Policy.steady_fixed true true
  obtain ⟨hfirst, hlater⟩ := Policy.Steady.visits_settle hsteady [] turnstile
  exact ⟨hsteady, hfirst, rfl, hlater⟩

end JavaStubs.Normalization
