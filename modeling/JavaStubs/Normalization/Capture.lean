import JavaStubs.Normalization.Standard

/-!
# Capturing the members that a normalization makes

A stub shows the members that a class gets from its normalization, but the class itself must not
change, since it is compiled later. `capture` runs a visit that may only make members and collects
them; `capture_standard` says that the standard normalization then leaves the class as it was.
-/
namespace JavaStubs.Normalization

/-- The members that a normalization makes for one class. -/
structure Members where
  methods : List MethodDecl := []
  constructors : List ConstructorDecl := []

namespace Members

/-- The members among events, in order. -/
def ofEvents (events : List Event) : Members :=
  ⟨events.filterMap Event.method?, events.filterMap Event.constructor?⟩

def isEmpty (members : Members) : Bool :=
  members.methods.isEmpty && members.constructors.isEmpty

end Members

/-- The members that are made for a class, and the class afterwards. -/
def capture (transform : Transform) (decl : ClassDecl) : Members × ClassDecl :=
  let visit := transform.visit Policy.capturing decl
  (Members.ofEvents visit.events, visit.decl)

theorem inner_capture (transform : Transform) (decl : ClassDecl) :
    (capture transform decl).2.inner = decl.inner :=
  transform.inner_visit Policy.capturing decl

theorem expandMethod_capturing (method : MethodDecl) :
    (expandMethod Policy.capturing method).2 = method := by
  unfold expandMethod
  split <;> simp [Policy.capturing_expand_expandDefaults]

theorem expandConstructor_capturing (constructor : ConstructorDecl) :
    (expandConstructor Policy.capturing constructor).2 = constructor := by
  unfold expandConstructor
  split <;> simp [Policy.capturing_expand_expandDefaults]

theorem prepare_capturing (decl : ClassDecl) : prepare Policy.capturing decl = decl := rfl

/-- Capturing leaves the class as it was. -/
theorem capture_standard (protocol : List MethodDecl) (decl : ClassDecl) :
    (capture (Transform.standard protocol) decl).2 = decl := by
  cases decl
  simp [capture, Transform.standard, visit, prepare_capturing, Function.comp_def,
    expandMethod_capturing, expandConstructor_capturing]

end JavaStubs.Normalization
