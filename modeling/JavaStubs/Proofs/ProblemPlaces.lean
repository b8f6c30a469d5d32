import JavaStubs.Json.Decode
import JavaStubs.Proofs.ReadingPlaces

/-!
# Places of problems

A decoder that is handed a tree of a text reports a problem at a place within the text. Each
combinator keeps this of the decoders that it is made of; `Decode.run` has it of a whole text.
-/
namespace JavaStubs.Json

/-- The place of a problem is within so many bytes. -/
def Problem.Within (n : Nat) : Problem → Prop
  | .form flaw => flaw.Within n
  | .shape _ (.settled pos) => pos ≤ n
  | .shape _ (.pending after) => after.Within n

/-- A run of a decoder reports no problem but within so many bytes. -/
def Decoded.Within {α : Type} (n : Nat) : Decoded α → Prop :=
  EndsIn (Problem.Within n) fun _ => True

namespace Decoded

variable {n : Nat} {α β : Type} {run : Decoded α}

theorem Within.map (h : Within n run) (f : α → β) : Within n (run.map f) :=
  EndsIn.map h fun _ _ => trivial

theorem Within.bind (h : Within n run) {f : α → Decoded β} (hf : ∀ value, Within n (f value)) :
    Within n (run >>= f) :=
  EndsIn.bind h fun value _ => hf value

end Decoded

namespace Problem.Within

variable {n : Nat} {problem : Problem}

theorem settleInRecord (h : problem.Within n) : problem.settleInRecord.Within n := by
  unfold Problem.settleInRecord
  split
  next after =>
    have hspace := Cursor.Within.skipSpace h
    dsimp only
    split
    next hrest => exact hspace.pos_lt (by simp [hrest])
    next => exact hspace.pos_le
  next => exact h

theorem settleInList (h : problem.Within n) : problem.settleInList.Within n := by
  unfold Problem.settleInList
  split
  next after =>
    have hspace := Cursor.Within.skipSpace h
    dsimp only
    split
    next hrest => exact hspace.pos_lt (by simp [hrest])
    next => exact (hspace.advance 1).skipSpace.pos_le
    next => exact hspace.pos_le
  next => exact h

end Problem.Within

namespace Ending.Within

variable {n : Nat} {ending : Ending}

theorem listFlaw (h : ending.Within n) : ending.listFlaw.Within n := by
  cases ending with
  | comma here =>
    simp only [Ending.listFlaw]
    split <;> exact Flaw.within_flaw h _
  | noKey here => exact Flaw.within_flaw h _
  | closed after => exact Cursor.Within.pos_le h
  | flawed flaw => exact h
  | unreached => exact Nat.zero_le n

theorem recordFlaw (h : ending.Within n) : ending.recordFlaw.Within n := by
  cases ending with
  | comma here =>
    simp only [Ending.recordFlaw]
    split <;> exact Flaw.within_flaw h _
  | noKey here => exact Flaw.within_flaw h _
  | closed after => exact Cursor.Within.pos_le h
  | flawed flaw => exact h
  | unreached => exact Nat.zero_le n

theorem surplusFlaw (h : ending.Within n) : ending.surplusFlaw.Within n := by
  unfold Ending.surplusFlaw
  split
  · split <;> exact Flaw.within_flaw h _
  · exact h
  · exact h.listFlaw

theorem skippedListFlaw (h : ending.Within n) : ending.skippedListFlaw.Within n := by
  unfold Ending.skippedListFlaw
  split
  · exact Flaw.within_flaw h _
  · exact h.listFlaw

theorem skippedRecordFlaw (h : ending.Within n) : ending.skippedRecordFlaw.Within n := by
  unfold Ending.skippedRecordFlaw
  split
  · exact Flaw.within_flaw h _
  · exact Flaw.within_flaw h _
  · exact h.recordFlaw

end Ending.Within

namespace Tree

variable {n : Nat} {tree : Tree}

theorem Within.looked_le (h : tree.Within n) : tree.looked ≤ n := by
  cases h with
  | missing h | stray h | blocked h => exact h
  | leaf h => exact h.start_lt
  | list hstart | record hstart => exact hstart

theorem Within.mismatch (h : tree.Within n) (expected : String) :
    (tree.mismatch expected).Within n := by
  cases h with
  | missing h | stray h | blocked h => exact h
  | list hstart | record hstart => exact Nat.le_of_lt hstart
  | @leaf leaf h =>
    have hstrict := h.strict
    simp only [Tree.mismatch]
    split
    next hread => rwa [hread] at hstrict
    next hread =>
      rw [hread] at hstrict
      exact Cursor.Within.pos_le hstrict

theorem within_skipItems {items : List Tree} (h : ∀ item ∈ items, Decoded.Within n item.skip) :
    Decoded.Within n (skipItems items) := by
  induction items with
  | nil => trivial
  | cons item rest ih =>
    rw [List.forall_mem_cons] at h
    rw [skipItems]
    exact h.1.bind fun _ => ih h.2

theorem within_skipMembers {members : List Member} (hkeys : ∀ member ∈ members, member.key.Within n)
    (h : ∀ member ∈ members, Decoded.Within n member.value.skip) :
    Decoded.Within n (skipMembers members) := by
  induction members with
  | nil => trivial
  | cons member rest ih =>
    obtain ⟨key, value, next⟩ := member
    rw [List.forall_mem_cons] at hkeys h
    have hloose := hkeys.1.loose
    rw [skipMembers]
    split
    next hread => rwa [hread] at hloose
    next => exact h.1.bind fun _ => ih hkeys.2 h.2

/-- The check of the form reports no flaw but within the tree. -/
theorem Within.skip (h : tree.Within n) : Decoded.Within n tree.skip := by
  induction h with
  | missing h | stray h | blocked h => exact h
  | @leaf leaf h =>
    have hloose := h.loose
    rw [Tree.skip]
    split
    next hread => rwa [hread] at hloose
    next => trivial
  | list hstart hitems hending ih =>
    rw [Tree.skip.eq_def]
    refine (within_skipItems ih).bind fun _ => ?_
    split
    · trivial
    · exact hending.skippedListFlaw
  | record hstart hkeys hvalues hnexts hending ih =>
    rw [Tree.skip.eq_def]
    refine (within_skipMembers hkeys ih).bind fun _ => ?_
    split
    · trivial
    · exact hending.skippedRecordFlaw

end Tree

/-- The decoder reports problems of a tree at places within the text of the tree. -/
def KeepsPlaces {α : Type} (read : Tree → Decoded α) : Prop :=
  ∀ ⦃n : Nat⦄ ⦃tree : Tree⦄, tree.Within n → Decoded.Within n (read tree)

namespace Decode

variable {n : Nat} {α β σ : Type} {read : Tree → Decoded α}

@[simp] theorem keepsPlaces_map (h : KeepsPlaces read) (f : α → β) :
    KeepsPlaces fun tree => (read tree).map f :=
  fun _ _ htree => (h htree).map f

/-- A scalar is at fault where it is over. -/
theorem keepsPlaces_scalar (expected : String) {pick : Scalar → Nat → Option (Decoded α)}
    (h : ∀ ⦃n value pos⦄, pos ≤ n → ∀ run ∈ pick value pos, Decoded.Within n run) :
    KeepsPlaces (scalar expected pick) := by
  intro n tree htree
  unfold scalar
  split
  next kind start value after loose =>
    have hafter : after.Within n := (Tree.within_leaf_iff.mp htree).strict
    cases hpick : pick value after.pos with
    | none => exact htree.mismatch expected
    | some run => exact h hafter.pos_le run hpick
  next => exact htree.mismatch expected

theorem keepsPlaces_scalar_of_ok (expected : String) {pick : Scalar → Nat → Option (Decoded α)}
    (h : ∀ value pos, pick value pos = none ∨ ∃ x, pick value pos = some (.ok x)) :
    KeepsPlaces (scalar expected pick) := by
  refine keepsPlaces_scalar expected fun n value pos _ run hrun => ?_
  obtain hnone | ⟨x, hsome⟩ := h value pos
  · exact absurd (hnone.symm.trans hrun) nofun
  · obtain rfl := Option.some.inj (hsome.symm.trans hrun)
    trivial

@[simp] theorem keepsPlaces_text : KeepsPlaces text :=
  keepsPlaces_scalar_of_ok _ fun value _ => by cases value <;> simp

@[simp] theorem keepsPlaces_boolean : KeepsPlaces boolean :=
  keepsPlaces_scalar_of_ok _ fun value _ => by cases value <;> simp

@[simp] theorem keepsPlaces_double : KeepsPlaces double :=
  keepsPlaces_scalar_of_ok _ fun value _ => by cases value <;> simp

@[simp] theorem keepsPlaces_single : KeepsPlaces single :=
  keepsPlaces_scalar_of_ok _ fun value _ => by cases value <;> simp

theorem keepsPlaces_nothing : KeepsPlaces nothing :=
  keepsPlaces_scalar_of_ok _ fun value _ => by cases value <;> simp

@[simp] theorem keepsPlaces_character : KeepsPlaces character := by
  refine keepsPlaces_scalar _ fun n value pos hpos run hrun => ?_
  split at hrun
  · split at hrun <;> cases hrun
    · trivial
    · exact hpos
  · cases hrun

@[simp] theorem keepsPlaces_int64 : KeepsPlaces int64 := by
  refine keepsPlaces_scalar _ fun n value pos hpos run hrun => ?_
  split at hrun
  · split at hrun <;> cases hrun
    · trivial
    · exact hpos
  · cases hrun

@[simp] theorem keepsPlaces_optional (h : KeepsPlaces read) : KeepsPlaces (optional read) := by
  intro n tree htree
  unfold optional
  split
  next => trivial
  next => exact (Tree.within_leaf_iff.mp htree).strict
  next => exact (h htree).map some

theorem within_mapM (h : KeepsPlaces read) {items : List Tree}
    (hitems : ∀ item ∈ items, item.Within n) : Decoded.Within n (items.mapM read) := by
  induction items with
  | nil => trivial
  | cons item rest ih =>
    rw [List.forall_mem_cons] at hitems
    rw [List.mapM_cons]
    exact (h hitems.1).bind fun _ => (ih hitems.2).bind fun _ => trivial

/-- The items need to be decoded only where the list may be entered. -/
theorem keepsPlaces_list {mayEnter : Bool} (h : mayEnter = true → KeepsPlaces read) :
    KeepsPlaces (list mayEnter read) := by
  intro n tree htree
  unfold list
  split
  next start items ending =>
    obtain ⟨hstart, hitems, hending⟩ := Tree.within_list_iff.mp htree
    split
    next henter =>
      have hread := within_mapM (h henter) hitems
      split
      next problem hproblem =>
        rw [hproblem] at hread
        exact Problem.Within.settleInList hread
      next =>
        split
        · trivial
        · exact hending.listFlaw
    next => exact hstart
  next => exact htree.mismatch _

end Decode

namespace Slot

variable {n : Nat} {α σ : Type} {slots : List (Slot σ)}

/-- The decoders of all fields report problems within the text. -/
def AllKeepPlaces (slots : List (Slot σ)) : Prop := ∀ slot ∈ slots, KeepsPlaces slot.read

@[simp] theorem allKeepPlaces_nil : AllKeepPlaces ([] : List (Slot σ)) := by simp [AllKeepPlaces]

@[simp] theorem allKeepPlaces_cons_iff {slot : Slot σ} :
    AllKeepPlaces (slot :: slots) ↔ KeepsPlaces slot.read ∧ AllKeepPlaces slots :=
  List.forall_mem_cons

@[simp] theorem keepsPlaces_needed {name : String} {read : Tree → Decoded α} {put : α → σ → σ}
    (h : KeepsPlaces read) : KeepsPlaces (needed name read put).read :=
  Decode.keepsPlaces_map h put

@[simp] theorem keepsPlaces_defaulted {name : String} {read : Tree → Decoded α} {put : α → σ → σ}
    (h : KeepsPlaces read) : KeepsPlaces (defaulted name read put).read :=
  Decode.keepsPlaces_map h put

theorem within_readMembers (h : AllKeepPlaces slots) {members : List Member}
    (hmembers : ∀ member ∈ members, member.Within n) (seen : List String) (value : σ) :
    Decoded.Within n (readMembers slots members seen value) := by
  induction members generalizing seen value with
  | nil => trivial
  | cons member rest ih =>
    obtain ⟨key, tree, next⟩ := member
    rw [List.forall_mem_cons] at hmembers
    have hstrict := hmembers.1.key.strict
    rw [readMembers]
    split
    next hread => rwa [hread] at hstrict
    next name after hread =>
      rw [hread] at hstrict
      split
      next => exact hmembers.1.value.skip.bind fun _ => ih hmembers.2 _ _
      next slot hslot =>
        split
        · exact hstrict
        · have hread := h slot (List.mem_of_find?_eq_some hslot) hmembers.1.value
          exact hread.bind fun _ => ih hmembers.2 _ _

theorem within_readItems (h : AllKeepPlaces slots) {items : List Tree}
    (hitems : ∀ item ∈ items, item.Within n) {ending : Ending} (hending : ending.Within n)
    (title : String) (count index : Nat) (value : σ) :
    Decoded.Within n (readItems title count ending slots items index value) := by
  fun_induction readItems title count ending slots items index value with
  | case1 item => exact (hitems item List.mem_cons_self).looked_le
  | case2 => trivial
  | case3 => exact hending.surplusFlaw
  | case4 slot slots item items index value ih =>
    rw [allKeepPlaces_cons_iff] at h
    rw [List.forall_mem_cons] at hitems
    exact (h.1 hitems.1).bind fun put => ih put h.2 hitems.2
  | case5 slot slots index value after hclosed =>
    rw [hclosed] at hending
    exact Cursor.Within.pos_le hending
  | case6 slot slots index value after hclosed hrequired ih =>
    rw [← hclosed]
    exact ih (allKeepPlaces_cons_iff.mp h).2 hitems
  | case7 => exact hending.listFlaw

end Slot

theorem Decode.keepsPlaces_record {σ : Type} {mayEnter : Bool} {title : String} {initial : σ}
    {slots : List (Slot σ)} (h : mayEnter = true → Slot.AllKeepPlaces slots) :
    KeepsPlaces (record mayEnter title initial slots) := by
  intro n tree htree
  unfold record
  split
  next start members ending =>
    obtain ⟨hstart, hmembers, hending⟩ := Tree.within_record_iff.mp htree
    split
    next henter =>
      have hread := Slot.within_readMembers (h henter) hmembers [] initial
      split
      next problem hproblem =>
        rw [hproblem] at hread
        exact Problem.Within.settleInRecord hread
      next =>
        split
        · split
          · exact Cursor.Within.pos_le hending
          · trivial
        · exact hending.recordFlaw
    next => exact hstart
  next start items ending =>
    obtain ⟨hstart, hitems, hending⟩ := Tree.within_list_iff.mp htree
    split
    next henter =>
      have hread := Slot.within_readItems (h henter) hitems hending title slots.length 0 initial
      split
      next problem hproblem =>
        rw [hproblem] at hread
        exact Problem.Within.settleInList hread
      next => trivial
    next => exact hstart
  next => exact htree.mismatch _

namespace Variant

variable {n : Nat} {α : Type} {variants : List (Variant α)}

/-- The decoder of the contents reports problems within the text. -/
def KeepsPlaces (variant : Variant α) : Prop :=
  match variant.contents with
  | .none _ => True
  | .value read | .fields read => Json.KeepsPlaces read

@[simp] theorem keepsPlaces_none (name : String) (value : α) :
    (Variant.mk name (.none value)).KeepsPlaces := trivial

@[simp] theorem keepsPlaces_value_iff {name : String} {read : Tree → Decoded α} :
    (Variant.mk name (.value read)).KeepsPlaces ↔ Json.KeepsPlaces read := Iff.rfl

@[simp] theorem keepsPlaces_fields_iff {name : String} {read : Tree → Decoded α} :
    (Variant.mk name (.fields read)).KeepsPlaces ↔ Json.KeepsPlaces read := Iff.rfl

theorem within_readBare (variant : Variant α) {after : Cursor} (h : after.Within n) :
    Decoded.Within n (variant.readBare after) := by
  unfold readBare
  split
  · trivial
  · exact h
  · exact h

theorem KeepsPlaces.readContents {variant : Variant α} (h : variant.KeepsPlaces) :
    Json.KeepsPlaces variant.readContents := by
  intro n tree htree
  unfold KeepsPlaces at h
  unfold Variant.readContents
  split <;> simp only [*] at h
  · exact (Decode.keepsPlaces_nothing htree).map _
  · exact h htree
  · exact h htree

theorem choose_endsIn {name : String} {pos : Nat} (h : pos ≤ n) :
    EndsIn (Problem.Within n) (· ∈ variants) (choose variants name pos) := by
  unfold choose
  split
  next variant hvariant => exact List.mem_of_find?_eq_some hvariant
  next => exact h

end Variant

theorem Decode.keepsPlaces_oneOf {α : Type} {mayEnter : Bool} {variants : List (Variant α)}
    (h : mayEnter = true → ∀ variant ∈ variants, variant.KeepsPlaces) :
    KeepsPlaces (oneOf mayEnter variants) := by
  intro n tree htree
  unfold oneOf
  split
  next => exact htree.looked_le
  next => exact htree.looked_le
  next => exact (Tree.within_leaf_iff.mp htree).strict
  next =>
    have hafter : Cursor.Within n _ := (Tree.within_leaf_iff.mp htree).strict
    exact (Variant.choose_endsIn hafter.pos_le).bind fun variant _ => variant.within_readBare hafter
  next start members ending =>
    obtain ⟨hstart, hmembers, hending⟩ := Tree.within_record_iff.mp htree
    split
    next henter =>
      split
      next => exact Cursor.Within.pos_le hending
      next =>
        split
        · exact Cursor.Within.pos_le hending
        · exact (Tree.within_readAt hending).mismatch _
      next => exact hending.recordFlaw
      next key value next rest ending =>
        have hmember := hmembers _ List.mem_cons_self
        have hstrict := hmember.key.strict
        split
        next hread => rwa [hread] at hstrict
        next name after hread =>
          rw [hread] at hstrict
          refine (Variant.choose_endsIn hstrict.pos_le).bind fun variant hvariant => ?_
          refine ((h henter variant hvariant).readContents hmember.value).bind fun _ => ?_
          split
          · trivial
          · split <;> exact Cursor.Within.pos_le hmember.next
    next => exact hstart
  next => exact htree.looked_le

/-- A problem of a whole text has a place in the text. -/
theorem Decode.within_run {α : Type} {read : Tree → Decoded α} (h : KeepsPlaces read)
    (text : String) : Decoded.Within text.utf8ByteSize (run read text) := by
  obtain ⟨htree, hafter⟩ := Tree.within_read text
  rw [run]
  refine (h htree).bind fun value => ?_
  split
  next => trivial
  next after hread =>
    have hspace := (hafter after hread).skipSpace
    dsimp only
    split
    · trivial
    · exact Flaw.within_flaw hspace _

end JavaStubs.Json
