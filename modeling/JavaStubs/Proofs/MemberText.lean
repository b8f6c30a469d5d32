import JavaStubs.Proofs.MemberNames

/-!
# The text of headers and members

The line of a member is a signature and what follows it. A foreign character stands in a header, a
field, a list of constants or a signature only if it stands in one of the names.
-/
namespace JavaStubs

variable {c : Char}

namespace Source

/-- The line of a header before its opening brace. -/
def Header.opening (header : Header) : String :=
  modifierText header.modifiers ++ header.kind.keyword ++ " " ++ header.name ++ header.generics ++
    (match header.superClass with
      | some superClass => " extends " ++ superClass
      | none => "") ++
    (if header.interfaces.isEmpty then ""
      else " " ++ header.beforeInterfaces ++ " " ++ Text.join ", " header.interfaces)

theorem Header.text_eq (header : Header) : header.text = header.opening ++ " \x7b" := rfl

/-- The line of a method before its body. -/
def MethodLine.signature (method : MethodLine) : String :=
  modifierText method.modifiers ++
    (if method.generics.isEmpty then "" else method.generics ++ " ") ++
    method.returnType ++ " " ++ method.name ++ parametersText method.parameters ++
    throwsText method.exceptions

theorem MethodLine.text_eq (method : MethodLine) :
    method.text = method.signature ++ method.body.text := rfl

theorem not_mem_modifierText (hc : Foreign c) (modifiers : Modifiers) :
    c ∉ (modifierText modifiers).toList := by
  have hkeyword : ∀ (m : Modifier) (word : String), m.keyword? = some word →
      c ∉ (word ++ " ").toList := by
    intro m word hm
    cases m <;> simp only [Modifier.keyword?, reduceCtorEq, Option.some.injEq] at hm <;>
      subst hm <;> exact hc.not_mem (by decide)
  rw [modifierText, String.toList_join, List.mem_flatMap]
  rintro ⟨text, ht, hmem⟩
  obtain ⟨word, hw, rfl⟩ := List.mem_map.mp ht
  obtain ⟨m, -, hm⟩ := List.mem_filterMap.mp hw
  exact hkeyword m word hm hmem

theorem not_mem_parametersText (hc : Foreign c) {parameters : List ParameterText}
    (h : ∀ p ∈ parameters, c ∉ p.type.toList ∧ c ∉ p.name.toList) :
    c ∉ (parametersText parameters).toList := by
  have htexts : Absent c (parameters.map ParameterText.text) := by
    intro text ht
    obtain ⟨p, hp, rfl⟩ := List.mem_map.mp ht
    simp only [ParameterText.text, String.toList_append, List.mem_append, not_or]
    exact ⟨⟨(h p hp).1, hc.not_mem (by decide)⟩, (h p hp).2⟩
  simp only [parametersText, String.toList_append, List.mem_append, not_or]
  exact ⟨⟨hc.not_mem (by decide), Text.not_mem_join (hc.not_mem (by decide)) htexts⟩,
    hc.not_mem (by decide)⟩

theorem not_mem_throwsText (hc : Foreign c) {exceptions : List String} (h : Absent c exceptions) :
    c ∉ (throwsText exceptions).toList := by
  unfold throwsText
  split
  · simp
  · rw [String.toList_append, List.mem_append, not_or]
    exact ⟨hc.not_mem (by decide), Text.not_mem_join (hc.not_mem (by decide)) h⟩

theorem not_mem_constantsText (hc : Foreign c) {names : List String} (h : Absent c names) :
    c ∉ (constantsText names).toList := by
  rw [constantsText, String.toList_append, List.mem_append, not_or]
  exact ⟨Text.not_mem_join (hc.not_mem (by decide)) h, hc.not_mem (by decide)⟩

theorem Header.not_mem_opening (hc : Foreign c) {header : Header} (hname : c ∉ header.name.toList)
    (hgenerics : c ∉ header.generics.toList)
    (hsuper : ∀ superClass, header.superClass = some superClass → c ∉ superClass.toList)
    (hinterfaces : Absent c header.interfaces) : c ∉ header.opening.toList := by
  have hkeyword : c ∉ header.kind.keyword.toList := by
    cases header.kind <;> exact hc.not_mem (by decide)
  have hbefore : c ∉ header.beforeInterfaces.toList := by
    unfold beforeInterfaces
    split <;> exact hc.not_mem (by decide)
  have hspace : c ∉ " ".toList := hc.not_mem (by decide)
  simp only [opening, String.toList_append, List.mem_append, not_or]
  refine ⟨⟨⟨⟨⟨⟨not_mem_modifierText hc _, hkeyword⟩, hspace⟩, hname⟩, hgenerics⟩, ?_⟩, ?_⟩
  · split
    · next superClass heq =>
      rw [String.toList_append, List.mem_append, not_or]
      exact ⟨hc.not_mem (by decide), hsuper superClass heq⟩
    · simp
  · split
    · simp
    · simp only [String.toList_append, List.mem_append, not_or]
      exact ⟨⟨⟨hspace, hbefore⟩, hspace⟩, Text.not_mem_join (hc.not_mem (by decide)) hinterfaces⟩

theorem FieldLine.not_mem_text (hc : Foreign c) {field : FieldLine} (htype : c ∉ field.type.toList)
    (hname : c ∉ field.name.toList)
    (hvalue : ∀ value, field.value = some value → c ∉ value.toList) : c ∉ field.text.toList := by
  simp only [text, String.toList_append, List.mem_append, not_or]
  refine ⟨⟨⟨⟨⟨not_mem_modifierText hc _, htype⟩, hc.not_mem (by decide)⟩, hname⟩, ?_⟩,
    hc.not_mem (by decide)⟩
  split
  · next value heq =>
    rw [String.toList_append, List.mem_append, not_or]
    exact ⟨hc.not_mem (by decide), hvalue value heq⟩
  · simp

theorem MethodLine.not_mem_signature (hc : Foreign c) {method : MethodLine}
    (hgenerics : c ∉ method.generics.toList) (htype : c ∉ method.returnType.toList)
    (hname : c ∉ method.name.toList) (hparameters : c ∉ (parametersText method.parameters).toList)
    (hexceptions : Absent c method.exceptions) : c ∉ method.signature.toList := by
  have hspace : c ∉ " ".toList := hc.not_mem (by decide)
  simp only [signature, String.toList_append, List.mem_append, not_or]
  refine ⟨⟨⟨⟨⟨⟨not_mem_modifierText hc _, ?_⟩, htype⟩, hspace⟩, hname⟩, hparameters⟩,
    not_mem_throwsText hc hexceptions⟩
  split
  · simp
  · rw [String.toList_append, List.mem_append, not_or]
    exact ⟨hgenerics, hspace⟩

theorem ConstructorText.not_mem_signature (hc : Foreign c) {constructor : ConstructorText}
    (hname : c ∉ constructor.className.toList)
    (hparameters : c ∉ (parametersText constructor.parameters).toList)
    (hexceptions : Absent c constructor.exceptions) : c ∉ constructor.signature.toList := by
  simp only [signature, String.toList_append, List.mem_append, not_or]
  exact ⟨⟨⟨hc.not_mem (by decide), hname⟩, hparameters⟩, not_mem_throwsText hc hexceptions⟩

end Source

theorem not_mem_simpleName (decl : ClassDecl) (h : c ∉ decl.name.toList) :
    c ∉ decl.simpleName.toList :=
  Text.not_mem_afterLast (Text.not_mem_afterLast h)

namespace Stubs.Printer

open Source.Dialect (not_mem_typeText not_mem_classText not_mem_genericsText not_mem_defaultValue)

variable (p : Printer)

theorem name_header (decl : ClassDecl) : (p.header decl).name = decl.simpleName := by rw [header]

theorem className_constructorText (decl : ClassDecl) (constructor : ConstructorDecl) :
    (p.constructorText decl constructor).className = decl.simpleName := by rw [constructorText]

theorem absent_classTexts (hc : Foreign c) {types : List ClassType}
    (h : Absent c (types.flatMap ClassType.names)) : Absent c (types.map p.dialect.classText) := by
  intro text ht
  obtain ⟨type, hm, rfl⟩ := List.mem_map.mp ht
  exact not_mem_classText hc p.dialect type (absent_flatMap.mp h type hm)

theorem not_mem_parameterTexts (hc : Foreign c) {parameters : List Parameter}
    (h : Absent c (parameters.flatMap Parameter.names)) :
    c ∉ (Source.parametersText (parameters.map p.parameterText)).toList := by
  apply Source.not_mem_parametersText hc
  intro text ht
  obtain ⟨parameter, hm, rfl⟩ := List.mem_map.mp ht
  have hnames := absent_flatMap.mp h parameter hm
  simp only [Parameter.names, absent_cons, absent_append] at hnames
  exact ⟨not_mem_typeText hc p.dialect parameter.type hnames.2.1, hnames.1⟩

theorem not_mem_opening (hc : Foreign c) {decl : ClassDecl} (h : AbsentIn c decl) :
    c ∉ (p.header decl).opening.toList := by
  have hname : c ∉ (p.header decl).name.toList := by
    rw [name_header]
    exact not_mem_simpleName decl h.name
  have hgenerics : c ∉ (p.header decl).generics.toList :=
    not_mem_genericsText hc p.dialect decl.generics h.generics
  apply Source.Header.not_mem_opening hc hname hgenerics
  · intro superClass heq
    have hnames : Absent c (decl.superClass.getD ClassType.object).names := by
      cases hd : decl.superClass with
      | none =>
        have hobject : c ∉ Names.object.toList := hc.not_mem (by decide)
        rw [Option.getD_none, ClassType.names_object, absent_cons]
        exact ⟨hobject, absent_nil⟩
      | some type => exact h.superClass type hd
    simp only [header] at heq
    split at heq
    · obtain rfl := Option.some.inj heq
      exact not_mem_classText hc p.dialect _ hnames
    · simp at heq
  · exact p.absent_classTexts hc h.interfaces

theorem not_mem_fieldLine (hc : Foreign c) (decl : ClassDecl) {field : FieldDecl}
    (h : Absent c field.names) : c ∉ (p.fieldLine decl field).text.toList := by
  rw [FieldDecl.names, absent_cons] at h
  have htype : c ∉ (p.fieldLine decl field).type.toList := not_mem_typeText hc p.dialect _ h.2
  apply Source.FieldLine.not_mem_text hc htype h.1
  intro value heq
  simp only [fieldLine] at heq
  split at heq
  · obtain rfl := Option.some.inj heq
    exact not_mem_defaultValue hc p.dialect h.2
  · simp at heq

theorem not_mem_methodSignature (hc : Foreign c) (decl : ClassDecl) {method : MethodDecl}
    (h : Absent c method.names) : c ∉ (p.methodLine decl method).signature.toList := by
  simp only [MethodDecl.names, MethodDecl.signatureNames, absent_cons, absent_append] at h
  obtain ⟨hname, ⟨⟨hresult, hparameters⟩, hgenerics⟩, hexceptions⟩ := h
  rw [← Generic.listNames_eq_flatMap] at hgenerics
  have hlist : c ∉ (p.methodLine decl method).generics.toList :=
    not_mem_genericsText hc p.dialect method.generics hgenerics
  have htype : c ∉ (p.methodLine decl method).returnType.toList :=
    not_mem_typeText hc p.dialect method.returnType hresult
  exact Source.MethodLine.not_mem_signature hc hlist htype hname
    (p.not_mem_parameterTexts hc hparameters) (p.absent_classTexts hc hexceptions)

theorem not_mem_constructorSignature (hc : Foreign c) {decl : ClassDecl} (hd : c ∉ decl.name.toList)
    {constructor : ConstructorDecl} (h : Absent c constructor.names) :
    c ∉ (p.constructorText decl constructor).signature.toList := by
  simp only [ConstructorDecl.names, absent_append] at h
  obtain ⟨⟨hparameters, hexceptions⟩, -⟩ := h
  have hname : c ∉ (p.constructorText decl constructor).className.toList := by
    rw [className_constructorText]
    exact not_mem_simpleName decl hd
  exact Source.ConstructorText.not_mem_signature hc hname
    (p.not_mem_parameterTexts hc hparameters) (p.absent_classTexts hc hexceptions)

theorem absent_constantNames {decl : ClassDecl} (h : AbsentIn c decl) :
    Absent c (constantNames decl) := by
  intro name hn
  obtain ⟨field, hf, rfl⟩ := List.mem_map.mp hn
  have hnames := h.fields field (List.mem_filter.mp hf).1
  rw [FieldDecl.names, absent_cons] at hnames
  exact hnames.1

end Stubs.Printer

end JavaStubs
