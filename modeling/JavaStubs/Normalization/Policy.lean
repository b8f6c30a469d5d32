import JavaStubs.Normalization.Overloads

/-!
# What a normalization may do

Before code is generated, each class is normalized: members that the source leaves implicit are
made, and the class itself may be changed. A `Policy` says which changes are allowed and what
becomes of the defaults that are expanded. A visit reports what it did as a list of events, so that
whoever asked for it decides where the new members go.
-/
namespace JavaStubs.Normalization

/-- The answers that a normalization asks for. -/
structure Policy where
  /-- Whether a class may get a field for its time stamp. -/
  keepTimestamp : ClassDecl → Bool
  /-- Whether a class may get a static initializer. -/
  keepInitializers : ClassDecl → Bool
  /-- Whether a class may get bridges for covariant results. -/
  keepCovariantMethods : ClassDecl → Bool
  /-- Whether a method may get an implicit return. -/
  keepReturnInsertion : MethodDecl → Bool
  /-- Runs an expansion over a parameter list. -/
  expand : (List Parameter → Expansion) → List Parameter → Expansion

namespace Policy

/-- Fixed answers to the questions on time stamps and initializers, and an expansion that clears
the defaults. -/
def fixed (timestamp initializers : Bool) : Policy where
  keepTimestamp _ := timestamp
  keepInitializers _ := initializers
  keepCovariantMethods _ := true
  keepReturnInsertion _ := true
  expand run := run

/-- Allows no change of the class; the defaults are there again after an expansion. -/
def capturing : Policy where
  keepTimestamp _ := false
  keepInitializers _ := false
  keepCovariantMethods _ := false
  keepReturnInsertion _ := false
  expand run parameters :=
    let expansion := run parameters
    { expansion with parameters := restoreDefaults parameters expansion.parameters }

theorem capturing_expand_expandDefaults (parameters : List Parameter) :
    capturing.expand expandDefaults parameters = ⟨overloads parameters, parameters⟩ := by
  simp [capturing, expandDefaults, restoreDefaults_clearDefaults]

end Policy

/-- What a normalization asks or makes, in the order of its work. -/
inductive Event where
  /-- Asked whether the class of that name may get a time stamp. -/
  | askedTimestamp (className : String)
  /-- Asked whether the class of that name may get a static initializer. -/
  | askedInitializers (className : String)
  /-- Made an accessor of a property. -/
  | accessor (method : MethodDecl)
  /-- Made any other method. -/
  | method (method : MethodDecl)
  | constructor (constructor : ConstructorDecl)

namespace Event

/-- The method that was made, if one was. -/
def method? : Event → Option MethodDecl
  | .accessor made => some made
  | .method made => some made
  | _ => none

/-- The constructor that was made, if one was. -/
def constructor? : Event → Option ConstructorDecl
  | .constructor made => some made
  | _ => none

end Event

/-- The outcome of a visit: what was asked and made, and the class as it is afterwards. -/
structure Visit where
  events : List Event
  decl : ClassDecl

/-- A way of normalizing classes. It leaves the nested classes alone; each has a visit of its
own. -/
structure Transform where
  visit : Policy → ClassDecl → Visit
  inner_visit : ∀ policy decl, (visit policy decl).decl.inner = decl.inner

/-- Makes nothing and changes nothing. -/
def Transform.idle : Transform where
  visit _ decl := ⟨[], decl⟩
  inner_visit _ _ := rfl

end JavaStubs.Normalization
