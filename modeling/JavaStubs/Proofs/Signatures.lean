import JavaStubs.Proofs.MadeMembers
import JavaStubs.Proofs.Printing

/-!
# Signatures of members

Two methods of a class are told apart by their names and parameter types, two constructors by their
parameter types, all of them as they are written. Some kinds of members never meet: whatever is made
only if the class does not declare it stays apart from what the class declares, accessors stay apart
from the helpers of an enum, and the overloads of one member are told apart by their lengths.
-/
namespace JavaStubs

/-- No key of the first list is a key of the second. -/
def Apart {α β : Type} (key : α → β) (first second : List α) : Prop :=
  ∀ x ∈ first, ∀ y ∈ second, key x ≠ key y

section

variable {α β γ : Type} {key : α → β} {first second third : List α}

instance [DecidableEq β] : Decidable (Apart key first second) :=
  List.decidableBAll (fun x => ∀ y ∈ second, key x ≠ key y) first

theorem Apart.symm (h : Apart key first second) : Apart key second first :=
  fun x hx y hy heq => h y hy x hx heq.symm

theorem Apart.mono {less fewer : List α} (h : Apart key first second) (hfirst : less ⊆ first)
    (hsecond : fewer ⊆ second) : Apart key less fewer :=
  fun x hx y hy => h x (hfirst hx) y (hsecond hy)

theorem apart_nil_left : Apart key [] second :=
  fun _ hx => absurd hx List.not_mem_nil

theorem apart_append_left :
    Apart key (first ++ second) third ↔ Apart key first third ∧ Apart key second third := by
  simp only [Apart, List.mem_append, or_imp, forall_and]

theorem apart_append_right :
    Apart key first (second ++ third) ↔ Apart key first second ∧ Apart key first third := by
  simp only [Apart, List.mem_append, or_imp, forall_and]

theorem nodup_map_append : ((first ++ second).map key).Nodup ↔
    (first.map key).Nodup ∧ (second.map key).Nodup ∧ Apart key first second := by
  simp only [List.map_append, List.nodup_append, List.forall_mem_map, Apart]

theorem nodup_map_flatMap {items : List γ} {f : γ → List α} :
    ((items.flatMap f).map key).Nodup ↔
      (∀ item ∈ items, ((f item).map key).Nodup) ∧
        items.Pairwise fun x y => Apart key (f x) (f y) := by
  simp only [List.Nodup, List.pairwise_map, List.pairwise_flatMap, Apart]

end

namespace Source.Dialect

/-- The name of a method and the types of its parameters, as they are written. -/
def signature (dialect : Dialect) (method : MethodDecl) : String × List String :=
  (method.name, method.parameters.map fun p => dialect.typeText p.type)

/-- The types of a constructor's parameters, as they are written. -/
def parameterTypes (dialect : Dialect) (constructor : ConstructorDecl) : List String :=
  constructor.parameters.map fun p => dialect.typeText p.type

end Source.Dialect

open Source (Dialect)

variable {dialect : Dialect} {decl : ClassDecl}

theorem name_eq_of_signature {m n : MethodDecl} (h : dialect.signature m = dialect.signature n) :
    m.name = n.name :=
  congrArg Prod.fst h

theorem length_eq_of_signature {m n : MethodDecl} (h : dialect.signature m = dialect.signature n) :
    m.parameters.length = n.parameters.length := by
  have htypes := congrArg (fun s => s.2.length) h
  simpa only [Dialect.signature, List.length_map] using htypes

namespace Normalization

/-- What is made only if the class does not declare it stays apart from what the class declares. -/
theorem apart_undeclared (methods : List MethodDecl) :
    Apart dialect.signature (undeclared decl methods) decl.methods := by
  intro m hm n hn heq
  have hfree := (List.mem_filter.mp hm).2
  have hdeclared : decl.declaresMethod m.name m.parameters.length = true := by
    rw [ClassDecl.declaresMethod, List.any_eq_true]
    refine ⟨n, hn, ?_⟩
    rw [name_eq_of_signature heq, length_eq_of_signature heq]
    simp
  simp [hdeclared] at hfree

/-- The overloads of a method have signatures of their own. -/
theorem nodup_methodOverloads (method : MethodDecl) :
    ((methodOverloads method).map dialect.signature).Nodup := by
  rw [methodOverloads, List.map_map, List.Nodup, List.pairwise_map]
  refine (pairwise_length_overloads method.parameters).imp ?_
  intro longer shorter hlt heq
  have hlength := length_eq_of_signature heq
  simp only at hlength
  omega

theorem nodup_constructorOverloads (constructor : ConstructorDecl) :
    ((constructorOverloads constructor).map dialect.parameterTypes).Nodup := by
  rw [constructorOverloads, List.map_map, List.Nodup, List.pairwise_map]
  refine (pairwise_length_overloads constructor.parameters).imp ?_
  intro longer shorter hlt heq
  have hlength := congrArg List.length heq
  simp only [Function.comp_apply, Dialect.parameterTypes, constructorOverload,
    List.length_map] at hlength
  omega

/-- The accessors of one property differ in their numbers of parameters. -/
theorem nodup_accessorsOf (property : PropertyDecl) :
    ((accessorsOf property).map dialect.signature).Nodup := by
  unfold accessorsOf
  split
  · simp
  · have hne : dialect.signature (getter property) ≠ dialect.signature (setter property) := by
      intro heq
      have hlength := length_eq_of_signature heq
      simp [getter, setter] at hlength
    simpa using hne

/-- Accessors of two properties meet only if the names of the properties have the same capitalized
form. -/
theorem apart_accessorsOf {p q : PropertyDecl}
    (h : Text.capitalize p.name ≠ Text.capitalize q.name) :
    Apart dialect.signature (accessorsOf p) (accessorsOf q) := by
  have hgetters : (getter p).name ≠ (getter q).name := by
    intro heq
    simp only [getter] at heq
    split at heq <;> split at heq
    · exact h ((String.append_right_inj _).mp heq)
    · have hletter := congrArg (fun s => s.toList.head?) heq
      simp at hletter
    · have hletter := congrArg (fun s => s.toList.head?) heq
      simp at hletter
    · exact h ((String.append_right_inj _).mp heq)
  have hsetters : (setter p).name ≠ (setter q).name :=
    fun heq => h ((String.append_right_inj _).mp heq)
  have hsets : ∀ property, (accessorsOf property) ⊆ [getter property, setter property] := by
    intro property
    unfold accessorsOf
    split <;> simp
  intro m hm n hn heq
  have hname := name_eq_of_signature heq
  have hlength := length_eq_of_signature heq
  have hm := hsets p hm
  have hn := hsets q hn
  simp only [List.mem_cons, List.not_mem_nil, or_false] at hm hn
  rcases hm with rfl | rfl <;> rcases hn with rfl | rfl
  · exact hgetters hname
  · simp [getter, setter] at hlength
  · simp [getter, setter] at hlength
  · exact hsetters hname

theorem head?_name_accessor {property : PropertyDecl} {method : MethodDecl}
    (h : method ∈ accessorsOf property) :
    method.name.toList.head? ∈ [some 'g', some 'i', some 's'] := by
  have hgetter : (getter property).name.toList.head? ∈ [some 'g', some 'i', some 's'] := by
    simp only [getter, String.toList_append]
    split <;> simp
  have hsetter : (setter property).name.toList.head? ∈ [some 'g', some 'i', some 's'] := by
    simp [setter]
  unfold accessorsOf at h
  split at h
  · obtain rfl := List.mem_singleton.mp h
    exact hgetter
  · rcases List.mem_cons.mp h with rfl | h
    · exact hgetter
    · obtain rfl := List.mem_singleton.mp h
      exact hsetter

theorem names_helpersOf (name : String) :
    (helpersOf name).map MethodDecl.name = ["values", "valueOf", "next", "previous"] := rfl

theorem nodup_helpersOf (name : String) : ((helpersOf name).map dialect.signature).Nodup := by
  have hnames : ((helpersOf name).map MethodDecl.name).Nodup := by
    rw [names_helpersOf]
    decide
  rw [List.Nodup, List.pairwise_map] at hnames ⊢
  exact hnames.imp fun hne heq => hne (name_eq_of_signature heq)

theorem head?_name_helper {name : String} {method : MethodDecl} (h : method ∈ helpersOf name) :
    method.name.toList.head? ∈ [some 'v', some 'n', some 'p'] := by
  have hname : method.name ∈ ["values", "valueOf", "next", "previous"] := by
    rw [← names_helpersOf name]
    exact List.mem_map_of_mem h
  have hall : ∀ word ∈ ["values", "valueOf", "next", "previous"],
      word.toList.head? ∈ [some 'v', some 'n', some 'p'] := by decide
  exact hall method.name hname

/-- Accessors and helpers begin with different letters. -/
theorem apart_accessors_helpers :
    Apart dialect.signature (accessors decl) (enumHelpers decl) := by
  intro m hm n hn heq
  obtain ⟨property, -, hp⟩ := List.mem_flatMap.mp (List.mem_filter.mp hm).1
  have haccessor := head?_name_accessor hp
  have hhelper := head?_name_helper ((enumHelpers_sublist decl).subset hn)
  rw [name_eq_of_signature heq] at haccessor
  generalize n.name.toList.head? = first at haccessor hhelper
  simp only [List.mem_cons, List.not_mem_nil, or_false] at haccessor hhelper
  rcases haccessor with rfl | rfl | rfl <;> simp at hhelper

end Normalization

end JavaStubs
