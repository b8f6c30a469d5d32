import JavaStubs.Normalization.Capture

/-!
# The members that the standard normalization makes

Captured members come in a fixed order: accessors, helpers of an enum, methods of the object
protocol and overloads of methods; the implicit constructor and overloads of constructors. The lists
of this module say so without events and policies. An overload takes some of the full list's
parameters, in their order and without defaults.
-/
namespace JavaStubs.Normalization

/-- The overloads of a method. -/
def methodOverloads (method : MethodDecl) : List MethodDecl :=
  (overloads method.parameters).map fun parameters => { method with parameters }

/-- The overloads of a constructor, each with its call of the full constructor. -/
def constructorOverloads (constructor : ConstructorDecl) : List ConstructorDecl :=
  (overloads constructor.parameters).map (constructorOverload constructor)

theorem overloads_eq_nil {parameters : List Parameter}
    (h : parameters.any Parameter.hasDefault = false) : overloads parameters = [] := by
  have hcount : defaultedCount parameters = 0 := by
    rw [defaultedCount, List.countP_eq_zero]
    simpa using h
  simp [overloads, hcount]

theorem expandMethod_capturing_fst (method : MethodDecl) :
    (expandMethod Policy.capturing method).1 = methodOverloads method := by
  unfold expandMethod methodOverloads
  split
  · rw [Policy.capturing_expand_expandDefaults]
  · next h => rw [overloads_eq_nil (by simpa [MethodDecl.hasDefaults] using h), List.map_nil]

theorem expandConstructor_capturing_fst (constructor : ConstructorDecl) :
    (expandConstructor Policy.capturing constructor).1 = constructorOverloads constructor := by
  unfold expandConstructor constructorOverloads
  split
  · rw [Policy.capturing_expand_expandDefaults]
  · next h => rw [overloads_eq_nil (by simpa [ConstructorDecl.hasDefaults] using h), List.map_nil]

theorem events_standard (protocol : List MethodDecl) (decl : ClassDecl) :
    (visit protocol Policy.capturing decl).events =
      [.askedTimestamp decl.name, .askedInitializers decl.name] ++
        (implicitConstructors decl).map .constructor ++
        (accessors decl).map .accessor ++
        (enumHelpers decl).map .method ++
        (protocolMethods protocol decl).map .method ++
        (decl.methods.flatMap methodOverloads).map .method ++
        (decl.constructors.flatMap constructorOverloads).map .constructor := by
  simp only [visit, prepare_capturing, List.flatMap_map, expandMethod_capturing_fst,
    expandConstructor_capturing_fst]

@[simp] theorem filterMap_method?_accessor (methods : List MethodDecl) :
    (methods.map Event.accessor).filterMap Event.method? = methods := by
  simp [List.filterMap_map, Function.comp_def, Event.method?]

@[simp] theorem filterMap_method?_method (methods : List MethodDecl) :
    (methods.map Event.method).filterMap Event.method? = methods := by
  simp [List.filterMap_map, Function.comp_def, Event.method?]

@[simp] theorem filterMap_method?_constructor (constructors : List ConstructorDecl) :
    (constructors.map Event.constructor).filterMap Event.method? = [] := by
  simp [List.filterMap_map, Function.comp_def, Event.method?]

@[simp] theorem filterMap_constructor?_accessor (methods : List MethodDecl) :
    (methods.map Event.accessor).filterMap Event.constructor? = [] := by
  simp [List.filterMap_map, Function.comp_def, Event.constructor?]

@[simp] theorem filterMap_constructor?_method (methods : List MethodDecl) :
    (methods.map Event.method).filterMap Event.constructor? = [] := by
  simp [List.filterMap_map, Function.comp_def, Event.constructor?]

@[simp] theorem filterMap_constructor?_constructor (constructors : List ConstructorDecl) :
    (constructors.map Event.constructor).filterMap Event.constructor? = constructors := by
  simp [List.filterMap_map, Function.comp_def, Event.constructor?]

/-- The methods that are made for a class. -/
theorem methods_capture (protocol : List MethodDecl) (decl : ClassDecl) :
    (capture (Transform.standard protocol) decl).1.methods =
      accessors decl ++ enumHelpers decl ++ protocolMethods protocol decl ++
        decl.methods.flatMap methodOverloads := by
  change (visit protocol Policy.capturing decl).events.filterMap Event.method? = _
  rw [events_standard]
  simp only [List.filterMap_append, filterMap_method?_accessor, filterMap_method?_method,
    filterMap_method?_constructor]
  simp [Event.method?]

/-- The constructors that are made for a class. -/
theorem constructors_capture (protocol : List MethodDecl) (decl : ClassDecl) :
    (capture (Transform.standard protocol) decl).1.constructors =
      implicitConstructors decl ++ decl.constructors.flatMap constructorOverloads := by
  change (visit protocol Policy.capturing decl).events.filterMap Event.constructor? = _
  rw [events_standard]
  simp only [List.filterMap_append, filterMap_constructor?_accessor, filterMap_constructor?_method,
    filterMap_constructor?_constructor]
  simp [Event.constructor?]

theorem protocolMethods_sublist (protocol : List MethodDecl) (decl : ClassDecl) :
    (protocolMethods protocol decl).Sublist protocol := by
  unfold protocolMethods
  split
  · exact List.nil_sublist protocol
  · exact List.filter_sublist

theorem enumHelpers_sublist (decl : ClassDecl) :
    (enumHelpers decl).Sublist (helpersOf decl.name) := by
  unfold enumHelpers
  split
  · exact List.filter_sublist
  · exact List.nil_sublist _

theorem keepDefaulted_sublist (count : Nat) (parameters : List Parameter) :
    (keepDefaulted count parameters).Sublist parameters := by
  induction parameters generalizing count with
  | nil => simp [keepDefaulted]
  | cons parameter rest ih =>
    unfold keepDefaulted
    split
    · split
      · exact (ih 0).cons _
      · next count => exact (ih count).cons_cons _
    · exact (ih count).cons_cons _

/-- An overload takes some of the full list's parameters, in their order and without defaults. -/
theorem sublist_of_mem_overloads {parameters kept : List Parameter}
    (h : kept ∈ overloads parameters) : kept.Sublist (clearDefaults parameters) := by
  obtain ⟨count, -, rfl⟩ := List.mem_map.mp h
  exact (keepDefaulted_sublist count parameters).map Parameter.withoutDefault

theorem length_keepDefaulted {count : Nat} {parameters : List Parameter}
    (h : count ≤ defaultedCount parameters) :
    (keepDefaulted count parameters).length + defaultedCount parameters =
      parameters.length + count := by
  induction parameters generalizing count with
  | nil =>
    have hcount : count = 0 := Nat.le_zero.mp h
    subst hcount
    rfl
  | cons parameter rest ih =>
    rw [defaultedCount, List.countP_cons, ← defaultedCount] at h ⊢
    unfold keepDefaulted
    by_cases hd : parameter.hasDefault = true
    · rw [if_pos hd] at h ⊢
      cases count with
      | zero =>
        have hrest := ih (Nat.zero_le (defaultedCount rest))
        simp only [hd, if_true, List.length_cons]
        omega
      | succ count =>
        have hrest := ih (show count ≤ defaultedCount rest by omega)
        simp only [hd, if_true, List.length_cons]
        omega
    · rw [if_neg hd] at h ⊢
      have hrest := ih (show count ≤ defaultedCount rest by omega)
      simp only [hd, Bool.false_eq_true, if_false, List.length_cons]
      omega

/-- Each overload is longer than the ones after it. -/
theorem pairwise_length_overloads (parameters : List Parameter) :
    (overloads parameters).Pairwise fun longer shorter => shorter.length < longer.length := by
  rw [overloads, List.pairwise_map, List.pairwise_reverse]
  refine List.pairwise_lt_range.imp_of_mem ?_
  intro count more hcount hmore hlt
  have hfewer := length_keepDefaulted (Nat.le_of_lt (List.mem_range.mp hcount))
  have hlonger := length_keepDefaulted (Nat.le_of_lt (List.mem_range.mp hmore))
  rw [List.length_map, List.length_map]
  omega

end JavaStubs.Normalization
