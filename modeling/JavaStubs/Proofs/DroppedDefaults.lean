import JavaStubs.Proofs.MadeMembers

/-!
# What overloads leave out

An overload is described by the places of the parameters that it leaves out: the right-most ones
with a default, so many of them as overloads have come before it and one more. Another description
is by steps, each of which drops the right-most default that is left. Both agree with the overloads
that an expansion gives, for any arrangement of parameters with and without defaults.
-/
namespace JavaStubs.Normalization

/-- The places of the parameters with a default, from left to right, if the list begins at that
place. -/
def defaultedPlacesFrom (start : Nat) (parameters : List Parameter) : List Nat :=
  ((parameters.zipIdx start).filter fun entry => entry.1.hasDefault).map Prod.snd

/-- The places of the parameters with a default, from left to right. -/
def defaultedPlaces (parameters : List Parameter) : List Nat :=
  defaultedPlacesFrom 0 parameters

/-- The places of the so many right-most parameters with a default. -/
def rightmostDefaulted (count : Nat) (parameters : List Parameter) : List Nat :=
  (defaultedPlaces parameters).drop (defaultedCount parameters - count)

/-- The parameters that are at none of these places. -/
def withoutPlaces (places : List Nat) (parameters : List Parameter) : List Parameter :=
  (parameters.zipIdx.filter fun entry => !places.contains entry.2).map Prod.fst

theorem mem_defaultedPlaces {parameters : List Parameter} {place : Nat} :
    place ∈ defaultedPlaces parameters ↔
      ∃ h : place < parameters.length, parameters[place].hasDefault = true := by
  simp only [defaultedPlaces, defaultedPlacesFrom, List.mem_map, List.mem_filter, Prod.exists,
    exists_eq_right, List.mem_zipIdx_iff_getElem?, List.getElem?_eq_some_iff]
  constructor
  · rintro ⟨parameter, ⟨h, hp⟩, hd⟩
    exact ⟨h, hp ▸ hd⟩
  · rintro ⟨h, hd⟩
    exact ⟨_, ⟨h, rfl⟩, hd⟩

theorem defaultedPlacesFrom_cons (start : Nat) (parameter : Parameter) (rest : List Parameter) :
    defaultedPlacesFrom start (parameter :: rest) =
      if parameter.hasDefault then start :: defaultedPlacesFrom (start + 1) rest
      else defaultedPlacesFrom (start + 1) rest := by
  rw [defaultedPlacesFrom, List.zipIdx_cons, List.filter_cons]
  split <;> rfl

theorem le_of_mem_defaultedPlacesFrom {start place : Nat} {parameters : List Parameter}
    (h : place ∈ defaultedPlacesFrom start parameters) : start ≤ place := by
  obtain ⟨entry, he, rfl⟩ := List.mem_map.mp h
  exact List.le_snd_of_mem_zipIdx (List.mem_filter.mp he).1

theorem mem_withoutPlaces {places : List Nat} {parameters : List Parameter}
    {parameter : Parameter} : parameter ∈ withoutPlaces places parameters ↔
      ∃ place, ∃ h : place < parameters.length, place ∉ places ∧ parameters[place] = parameter := by
  simp only [withoutPlaces, List.mem_map, List.mem_filter, Prod.exists, exists_and_right,
    exists_eq_right, List.mem_zipIdx_iff_getElem?, List.getElem?_eq_some_iff,
    Bool.not_eq_true', List.contains_eq_mem, decide_eq_false_iff_not]
  constructor
  · rintro ⟨place, ⟨h, hp⟩, hfree⟩
    exact ⟨place, h, hfree, hp⟩
  · rintro ⟨place, h, hfree, hp⟩
    exact ⟨place, ⟨h, hp⟩, hfree⟩

/-- Keeping the first defaults means leaving out the places of the others: induction over the list
with its first place generalized. -/
theorem keepDefaulted_eq_filter (count start : Nat) (parameters : List Parameter) :
    keepDefaulted count parameters =
      ((parameters.zipIdx start).filter fun entry =>
        !((defaultedPlacesFrom start parameters).drop count).contains entry.2).map Prod.fst := by
  induction parameters generalizing count start with
  | nil => rfl
  | cons parameter rest ih =>
    have hfree : ∀ n, start ∉ (defaultedPlacesFrom (start + 1) rest).drop n := by
      intro n hm
      have hle := le_of_mem_defaultedPlacesFrom (List.mem_of_mem_drop hm)
      omega
    have hkept : ∀ n, (!((defaultedPlacesFrom (start + 1) rest).drop n).contains start) = true :=
      fun n => by simpa using hfree n
    rw [List.zipIdx_cons, defaultedPlacesFrom_cons]
    by_cases hd : parameter.hasDefault = true
    · rw [if_pos hd]
      cases count with
      | zero =>
        -- All defaults go, the first one here; its place is none of the rest.
        have hrest : ∀ entry ∈ rest.zipIdx (start + 1),
            (!(start :: defaultedPlacesFrom (start + 1) rest).contains entry.2) =
              !(defaultedPlacesFrom (start + 1) rest).contains entry.2 := by
          intro entry he
          have hlt : start + 1 ≤ entry.2 := List.le_snd_of_mem_zipIdx he
          have hne : (entry.2 == start) = false := by
            rw [beq_eq_false_iff_ne]
            omega
          rw [List.contains_cons, hne, Bool.false_or]
        simp only [keepDefaulted, if_pos hd, List.drop_zero]
        rw [List.filter_cons_of_neg (by simp), List.filter_congr hrest]
        exact ih 0 (start + 1)
      | succ count =>
        simp only [keepDefaulted, if_pos hd, List.drop_succ_cons]
        rw [List.filter_cons, if_pos (hkept count), List.map_cons]
        exact congrArg (parameter :: ·) (ih count (start + 1))
    · rw [if_neg hd]
      simp only [keepDefaulted, if_neg hd]
      rw [List.filter_cons, if_pos (hkept count), List.map_cons]
      exact congrArg (parameter :: ·) (ih count (start + 1))

theorem keepDefaulted_eq_withoutPlaces (count : Nat) (parameters : List Parameter) :
    keepDefaulted count parameters =
      withoutPlaces ((defaultedPlaces parameters).drop count) parameters :=
  keepDefaulted_eq_filter count 0 parameters

@[simp] theorem length_overloads (parameters : List Parameter) :
    (overloads parameters).length = defaultedCount parameters := by
  rw [overloads, List.length_map, List.length_reverse, List.length_range]

/-- The first overload leaves out one parameter, the second one two, and so on. -/
theorem getElem_overloads {parameters : List Parameter} {k : Nat}
    (h : k < (overloads parameters).length) :
    (overloads parameters)[k] =
      (keepDefaulted (defaultedCount parameters - (k + 1)) parameters).map
        Parameter.withoutDefault := by
  simp only [overloads, List.getElem_map, List.getElem_reverse, List.getElem_range,
    List.length_range]
  congr 2
  omega

theorem getElem_overloads_eq_withoutPlaces {parameters : List Parameter} {k : Nat}
    (h : k < (overloads parameters).length) :
    (overloads parameters)[k] =
      clearDefaults (withoutPlaces (rightmostDefaulted (k + 1) parameters) parameters) := by
  rw [getElem_overloads, keepDefaulted_eq_withoutPlaces]
  rfl

theorem keepDefaulted_sublist_of_le {fewer more : Nat} (h : fewer ≤ more)
    (parameters : List Parameter) :
    (keepDefaulted fewer parameters).Sublist (keepDefaulted more parameters) := by
  induction parameters generalizing fewer more with
  | nil => simp [keepDefaulted]
  | cons parameter rest ih =>
    by_cases hd : parameter.hasDefault = true
    · cases fewer with
      | zero =>
        cases more with
        | zero => exact List.Sublist.refl _
        | succ more =>
          simp only [keepDefaulted, if_pos hd]
          exact (ih (Nat.zero_le more)).cons _
      | succ fewer =>
        cases more with
        | zero => exact absurd h (by omega)
        | succ more =>
          simp only [keepDefaulted, if_pos hd]
          exact (ih (Nat.le_of_succ_le_succ h)).cons_cons _
    · simp only [keepDefaulted, if_neg hd]
      exact (ih h).cons_cons _

/-- Parameters without a default are in every overload, in their order. -/
theorem filter_sublist_keepDefaulted (count : Nat) (parameters : List Parameter) :
    (parameters.filter fun p => !p.hasDefault).Sublist (keepDefaulted count parameters) := by
  induction parameters generalizing count with
  | nil => simp [keepDefaulted]
  | cons parameter rest ih =>
    by_cases hd : parameter.hasDefault = true
    · rw [List.filter_cons_of_neg (by simp [hd])]
      cases count with
      | zero =>
        simp only [keepDefaulted, if_pos hd]
        exact ih 0
      | succ count =>
        simp only [keepDefaulted, if_pos hd]
        exact (ih count).cons _
    · rw [List.filter_cons_of_pos (by simp [hd])]
      simp only [keepDefaulted, if_neg hd]
      exact (ih count).cons_cons _

theorem clearDefaults_filter_required (parameters : List Parameter) :
    clearDefaults (parameters.filter fun p => !p.hasDefault) =
      parameters.filter fun p => !p.hasDefault := by
  refine (List.map_congr_left fun parameter hp => ?_).trans (List.map_id _)
  obtain ⟨name, type, value⟩ := parameter
  have hnone : value = none := by simpa [Parameter.hasDefault] using (List.mem_filter.mp hp).2
  rw [hnone]
  rfl

/-- Each overload takes some parameters of the ones before it, and all of them take some of the
full list's. -/
theorem pairwise_sublist_overloads (parameters : List Parameter) :
    (clearDefaults parameters :: overloads parameters).Pairwise
      fun longer shorter => shorter.Sublist longer := by
  rw [List.pairwise_cons]
  refine ⟨fun kept hk => sublist_of_mem_overloads hk, ?_⟩
  rw [overloads, List.pairwise_map, List.pairwise_reverse]
  refine List.pairwise_lt_range.imp fun hlt => ?_
  exact (keepDefaulted_sublist_of_le (Nat.le_of_lt hlt) parameters).map Parameter.withoutDefault

/-- The parameters without the right-most one that has a default, if there is one. -/
def dropRightmost? : List Parameter → Option (List Parameter)
  | [] => none
  | parameter :: rest =>
    match dropRightmost? rest with
    | some shorter => some (parameter :: shorter)
    | none => if parameter.hasDefault then some rest else none

theorem dropRightmost?_eq_none_iff {parameters : List Parameter} :
    dropRightmost? parameters = none ↔ defaultedCount parameters = 0 := by
  induction parameters with
  | nil => simp [dropRightmost?, defaultedCount]
  | cons parameter rest ih =>
    rw [dropRightmost?]
    cases hrest : dropRightmost? rest with
    | some shorter =>
      have hne : defaultedCount rest ≠ 0 := fun h => by simp [ih.mpr h] at hrest
      simp only [reduceCtorEq, false_iff, defaultedCount, List.countP_cons] at hne ⊢
      omega
    | none =>
      have hzero := ih.mp hrest
      rw [defaultedCount] at hzero ⊢
      by_cases hd : parameter.hasDefault = true <;> simp [hd, hzero]

theorem defaultedCount_of_dropRightmost? {parameters shorter : List Parameter}
    (h : dropRightmost? parameters = some shorter) :
    defaultedCount parameters = defaultedCount shorter + 1 := by
  induction parameters generalizing shorter with
  | nil => simp [dropRightmost?] at h
  | cons parameter rest ih =>
    rw [dropRightmost?] at h
    cases hrest : dropRightmost? rest with
    | some fewer =>
      obtain rfl : parameter :: fewer = shorter := by simpa [hrest] using h
      have hcount := ih hrest
      simp only [defaultedCount, List.countP_cons] at hcount ⊢
      omega
    | none =>
      simp only [hrest, Option.ite_none_right_eq_some, Option.some.injEq] at h
      obtain ⟨hd, rfl⟩ := h
      simp [defaultedCount, hd]

/-- The lists that come about when the right-most default is dropped again and again, until there
is none. -/
def droppedInTurn (parameters : List Parameter) : List (List Parameter) :=
  match _h : dropRightmost? parameters with
  | some shorter => shorter :: droppedInTurn shorter
  | none => []
termination_by defaultedCount parameters
decreasing_by
  have := defaultedCount_of_dropRightmost? _h
  omega

theorem keepDefaulted_all (parameters : List Parameter) :
    keepDefaulted (defaultedCount parameters) parameters = parameters := by
  induction parameters with
  | nil => rfl
  | cons parameter rest ih =>
    rw [defaultedCount, List.countP_cons, ← defaultedCount]
    by_cases hd : parameter.hasDefault = true
    · simp only [hd, if_true, keepDefaulted, ih]
    · simp only [hd, Bool.false_eq_true, if_false, keepDefaulted, Nat.add_zero, ih]

/-- The right-most default is one that is not kept if any is left out. -/
theorem keepDefaulted_of_dropRightmost? {count : Nat} {parameters shorter : List Parameter}
    (h : dropRightmost? parameters = some shorter) (hcount : count ≤ defaultedCount shorter) :
    keepDefaulted count parameters = keepDefaulted count shorter := by
  induction parameters generalizing count shorter with
  | nil => simp [dropRightmost?] at h
  | cons parameter rest ih =>
    rw [dropRightmost?] at h
    cases hrest : dropRightmost? rest with
    | some fewer =>
      obtain rfl : parameter :: fewer = shorter := by simpa [hrest] using h
      rw [defaultedCount, List.countP_cons, ← defaultedCount] at hcount
      by_cases hd : parameter.hasDefault = true
      · rw [if_pos hd] at hcount
        cases count with
        | zero => simp only [keepDefaulted, if_pos hd, ih hrest (Nat.zero_le _)]
        | succ count =>
          simp only [keepDefaulted, if_pos hd, ih hrest (Nat.le_of_succ_le_succ hcount)]
      · rw [if_neg hd] at hcount
        simp only [keepDefaulted, if_neg hd, ih hrest hcount]
    | none =>
      simp only [hrest, Option.ite_none_right_eq_some, Option.some.injEq] at h
      obtain ⟨hd, rfl⟩ := h
      obtain rfl : count = 0 := by
        rw [dropRightmost?_eq_none_iff.mp hrest] at hcount
        omega
      rw [keepDefaulted, if_pos hd]

/-- The first overload drops the right-most default, and the others are the overloads of what is
left. -/
theorem overloads_of_dropRightmost? {parameters shorter : List Parameter}
    (h : dropRightmost? parameters = some shorter) :
    overloads parameters = clearDefaults shorter :: overloads shorter := by
  rw [overloads, defaultedCount_of_dropRightmost? h, List.range_succ, List.reverse_append,
    List.reverse_singleton, List.singleton_append, List.map_cons,
    keepDefaulted_of_dropRightmost? h (Nat.le_refl _), keepDefaulted_all, ← clearDefaults]
  congr 1
  refine List.map_congr_left fun count hc => ?_
  have hlt : count < defaultedCount shorter := List.mem_range.mp (List.mem_reverse.mp hc)
  rw [keepDefaulted_of_dropRightmost? h (Nat.le_of_lt hlt)]

/-- Overloads are what is left when the right-most default is dropped again and again. -/
theorem overloads_eq_droppedInTurn (parameters : List Parameter) :
    overloads parameters = (droppedInTurn parameters).map clearDefaults := by
  induction parameters using droppedInTurn.induct with
  | case1 parameters shorter h ih =>
    rw [droppedInTurn, overloads_of_dropRightmost? h, ih]
    split <;> simp_all
  | case2 parameters h =>
    have hzero := dropRightmost?_eq_none_iff.mp h
    rw [droppedInTurn, overloads, hzero]
    split <;> simp_all

/-- What an expansion gives. There is an overload for each default; the first leaves out the
right-most parameter with a default, the next one the two right-most, and so on. The others keep
their order, their names and their types. In the list itself only the defaults are cleared. -/
theorem expandDefaults_drops (parameters : List Parameter) :
    let expansion := expandDefaults parameters
    expansion.overloads.length = defaultedCount parameters ∧
    (∀ k, ∀ h : k < expansion.overloads.length,
      expansion.overloads[k] =
          clearDefaults (withoutPlaces (rightmostDefaulted (k + 1) parameters) parameters) ∧
        expansion.overloads[k].length + (k + 1) = parameters.length ∧
        (parameters.filter fun p => !p.hasDefault).Sublist expansion.overloads[k]) ∧
    (clearDefaults parameters :: expansion.overloads).Pairwise
      (fun longer shorter => shorter.Sublist longer) ∧
    expansion.overloads = (droppedInTurn parameters).map clearDefaults ∧
    expansion.parameters.map (fun p => (p.name, p.type)) =
      parameters.map (fun p => (p.name, p.type)) ∧
    ∀ p ∈ expansion.parameters, p.default = none := by
  intro expansion
  refine ⟨length_overloads parameters, ?_, pairwise_sublist_overloads parameters,
    overloads_eq_droppedInTurn parameters, ?_, ?_⟩
  · intro k h
    have hk : k < defaultedCount parameters := by rwa [← length_overloads]
    have hkept := length_keepDefaulted
      (show defaultedCount parameters - (k + 1) ≤ defaultedCount parameters by omega)
    have hget : expansion.overloads[k] = _ := getElem_overloads h
    refine ⟨getElem_overloads_eq_withoutPlaces h, ?_, ?_⟩
    · rw [hget, List.length_map]
      omega
    · rw [hget, ← clearDefaults_filter_required]
      exact (filter_sublist_keepDefaulted _ parameters).map Parameter.withoutDefault
  · have hparameters : expansion.parameters = parameters.map Parameter.withoutDefault := rfl
    rw [hparameters, List.map_map]
    rfl
  · intro p hp
    obtain ⟨parameter, -, rfl⟩ := List.mem_map.mp hp
    rfl

end JavaStubs.Normalization
