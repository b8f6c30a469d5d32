import Mathlib.Data.List.Nodup
import JavaStubs.Model.Decode
import JavaStubs.Proofs.ModifierText
import JavaStubs.Proofs.Trimming

/-!
# Getting values back

A decoder recovers a value from its JSON form if it makes that value, and no other, of every trimming
of the form that is not nested too deeply, and makes nothing of the others. Lists, records and
variants recover their contents if the decoders of their parts do.
-/
namespace JavaStubs

open Json (Trims AllTrim MembersTrim Represents AllRepresent MembersRepresent Tree Member Decoded Slot
  Variant Contents Problem nestingAll nestingMembers)

/-- Of a trimming of the JSON form the decoder makes the value where the nesting is allowed, and
nothing elsewhere. -/
structure Recovers {α : Type} (kind : Kind) (json : Json) (read : Nat → Tree → Decoded α) (x : α) :
    Prop where
  exact : json.IsExact
  reads : ∀ trimmed, Trims kind json trimmed → ∀ tree, Represents trimmed tree → ∀ depth y,
    read depth tree = .ok y ↔ trimmed.nesting ≤ depth ∧ y = x

namespace Json

variable {α β : Type}

theorem map_eq_ok {run : Decoded α} {f : α → β} {y : β} :
    run.map f = .ok y ↔ ∃ value, run = .ok value ∧ y = f value := by
  cases run with
  | error problem => simp [Except.map]
  | ok value => simp [Except.map, eq_comm]

theorem bind_eq_ok {run : Decoded α} {f : α → Decoded β} {y : β} :
    run >>= f = .ok y ↔ ∃ value, run = .ok value ∧ f value = .ok y := by
  cases run with
  | error problem => simp [bind, Except.bind]
  | ok value => simp [bind, Except.bind]

end Json

section

variable {α β : Type} {kind : Kind} {json : Json} {read : Nat → Tree → Decoded α} {x : α}

/-- A JSON form is the form of one value only. -/
theorem Recovers.unique {y : α} (hx : Recovers kind json read x) (hy : Recovers kind json read y) :
    x = y := by
  obtain ⟨tree, -, -, htree⟩ := Tree.read_render hx.exact
  have hread := (hx.reads json (.same kind json) tree htree json.nesting x).mpr ⟨Nat.le_refl _, rfl⟩
  exact ((hy.reads json (.same kind json) tree htree json.nesting x).mp hread).2

/-- What is made of a value is recovered if the value is. -/
theorem Recovers.map (f : α → β) (h : Recovers kind json read x) :
    Recovers kind json (fun depth tree => (read depth tree).map f) (f x) where
  exact := h.exact
  reads trimmed htrim tree htree depth y := by
    rw [Json.map_eq_ok]
    constructor
    · rintro ⟨value, hvalue, rfl⟩
      obtain ⟨hdepth, rfl⟩ := (h.reads trimmed htrim tree htree depth value).mp hvalue
      exact ⟨hdepth, rfl⟩
    · rintro ⟨hdepth, rfl⟩
      exact ⟨x, (h.reads trimmed htrim tree htree depth x).mpr ⟨hdepth, rfl⟩, rfl⟩

end

/-! ## Scalars -/

section

variable {α : Type} {kind : Kind} {json : Json} {read : Nat → Tree → Decoded α} {x : α}

/-- Nothing can be left out of a scalar, and it may stand at any depth. -/
theorem Recovers.of_scalar (hlist : ∀ items, json ≠ .list items)
    (hrecord : ∀ members, json ≠ .record members) (hexact : json.IsExact)
    (hread : ∀ tree, Represents json tree → ∀ depth, read depth tree = .ok x) :
    Recovers kind json read x where
  exact := hexact
  reads trimmed htrim tree htree depth y := by
    have hnesting : json.nesting = 0 := by cases json <;> first | rfl | simp_all
    cases htrim with
    | list => exact absurd rfl (hlist _)
    | record => exact absurd rfl (hrecord _)
    | same => simp [hread tree htree depth, hnesting, eq_comm]

theorem Recovers.of_text {s : String} (h : ∀ start after loose depth,
    read depth (.leaf ⟨.text, start, .ok (.text s, after), loose⟩) = .ok x) :
    Recovers kind (.text s) read x :=
  .of_scalar (by simp) (by simp) trivial fun tree htree depth => by
    cases htree with
    | text s start after loose => exact h start after loose depth

theorem recovers_text (s : String) : Recovers kind (.text s) (fun _ => Json.Decode.text) s :=
  .of_text fun _ _ _ _ => rfl

theorem recovers_boolean (b : Bool) :
    Recovers kind (.boolean b) (fun _ => Json.Decode.boolean) b :=
  .of_scalar (by simp) (by simp) trivial fun tree htree depth => by
    cases htree with
    | boolean b start after loose => rfl

theorem recovers_character (c : Char) :
    Recovers kind (.text (String.singleton c)) (fun _ => Json.Decode.character) c :=
  .of_text fun start after loose _ => by
    simp [Json.Decode.character, Json.Decode.scalar]

theorem recovers_int64 (n : Int64) :
    Recovers kind (.integer n.toInt) (fun _ => Json.Decode.int64) n :=
  have hlow := Int64.le_toInt n
  have hhigh := Int64.toInt_lt n
  .of_scalar (by simp) (by simp) ⟨by omega, by omega⟩ fun tree htree depth => by
    cases htree with
    | integer _ start after loose =>
      have hrange : -Int.pow 2 63 ≤ n.toInt ∧ n.toInt < Int.pow 2 63 := ⟨hlow, hhigh⟩
      simp only [Json.Decode.int64, Json.Decode.scalar, if_pos hrange, Option.getD_some,
        Int64.ofInt_toInt]

theorem Modifiers.recovers (modifiers : Modifiers) :
    Recovers kind modifiers.toJson (fun _ => Decode.modifiers) modifiers :=
  .of_text fun start after loose _ => by
    simp [Decode.modifiers, Json.Decode.scalar, Modifiers.parse_text]

/-- A variant without contents is recovered from its name. -/
theorem recovers_bare {variants : Nat → List (Variant α)} {name : String}
    (hfind : ∀ depth, (variants depth).find? (·.name == name) = some ⟨name, .none x⟩) :
    Recovers kind (.text name) (Decode.oneOf variants) x :=
  .of_text fun start after loose depth => by
    cases depth <;> simp only [Decode.oneOf, Json.Decode.oneOf, Variant.choose, hfind] <;> rfl

theorem recovers_choice {named : List (String × α)} {name : String}
    (hfind : named.find? (·.1 == name) = some (name, x)) :
    Recovers kind (.text name) (Decode.choice named) x :=
  recovers_bare fun _ => by
    rw [List.find?_map]
    exact congrArg _ hfind

end

/-! ## Options and lists -/

section

variable {α : Type} {kind : Kind} {write : α → Json} {read : Nat → Tree → Decoded α}

theorem recovers_none :
    Recovers kind .null (fun depth => Json.Decode.optional (read depth)) none :=
  .of_scalar (by simp) (by simp) trivial fun tree htree depth => by
    cases htree with
    | null start after loose => rfl

/-- What does not begin like null is not taken for null. -/
theorem recovers_some {json : Json} {x : α} (hnull : json ≠ .null)
    (h : Recovers kind json read x) :
    Recovers kind json (fun depth => Json.Decode.optional (read depth)) (some x) where
  exact := h.exact
  reads trimmed htrim tree htree depth y := by
    have hvalue : trimmed ≠ .null := by cases htrim <;> simp_all
    have hoptional : Json.Decode.optional (read depth) tree = (read depth tree).map some := by
      cases htree <;> first | rfl | exact absurd rfl hvalue
    rw [hoptional]
    exact (h.map some).reads trimmed htrim tree htree depth y

theorem recovers_option {value : Option α} (hnull : ∀ x, write x ≠ .null)
    (h : ∀ x ∈ value, Recovers kind (write x) read x) :
    Recovers kind (.ofOption (value.map write))
      (fun depth => Json.Decode.optional (read depth)) value := by
  cases value with
  | none => exact recovers_none
  | some x => exact recovers_some (hnull x) (h x rfl)

theorem recovers_option_of_any {value : Option α} {p : α → Bool} (hany : value.any p = false)
    (hnull : ∀ x, write x ≠ .null) (h : ∀ x, p x = false → Recovers kind (write x) read x) :
    Recovers kind (.ofOption (value.map write))
      (fun depth => Json.Decode.optional (read depth)) value :=
  recovers_option hnull fun x hx => h x (Option.any_eq_false p value |>.mp hany x hx)

/-- Items are read one by one: induction over the items. -/
theorem mapM_eq_ok {xs : List α} (h : ∀ x ∈ xs, Recovers kind (write x) read x)
    {left : List Json} (htrim : AllTrim kind (xs.map write) left) {trees : List Tree}
    (htrees : AllRepresent left trees) (depth : Nat) (ys : List α) :
    trees.mapM (read depth) = .ok ys ↔ nestingAll left ≤ depth ∧ ys = xs := by
  induction xs generalizing left trees ys with
  | nil =>
    cases htrim
    cases htrees
    simp [nestingAll, pure, Except.pure, eq_comm]
  | cons x xs ih =>
    rw [List.forall_mem_cons] at h
    cases htrim with
    | cons hitem hrest =>
      cases htrees with
      | cons htree htrees =>
        have hx := h.1.reads _ hitem _ htree depth
        have hxs := ih h.2 hrest htrees
        rw [List.mapM_cons, Json.bind_eq_ok, nestingAll, Nat.max_le]
        constructor
        · rintro ⟨y, hy, hmore⟩
          obtain ⟨zs, hzs, hdone⟩ := Json.bind_eq_ok.mp hmore
          obtain ⟨hdepth, rfl⟩ := (hx y).mp hy
          obtain ⟨hdepths, rfl⟩ := (hxs zs).mp hzs
          cases hdone
          exact ⟨⟨hdepth, hdepths⟩, rfl⟩
        · rintro ⟨⟨hdepth, hdepths⟩, rfl⟩
          exact ⟨x, (hx x).mpr ⟨hdepth, rfl⟩,
            Json.bind_eq_ok.mpr ⟨xs, (hxs xs).mpr ⟨hdepths, rfl⟩, rfl⟩⟩

theorem list_closed_eq_ok {items : Tree → Decoded α} {start : Nat} {trees : List Tree}
    {after : Cursor} {ys : List α} :
    Json.Decode.list true items (.list start trees (.closed after)) = .ok ys ↔
      trees.mapM items = .ok ys := by
  rw [Json.Decode.list, if_pos rfl]
  cases trees.mapM items <;> simp

theorem recovers_list {xs : List α} (h : ∀ x ∈ xs, Recovers kind (write x) read x) :
    Recovers kind (.list (xs.map write)) (Decode.listOf read) xs where
  exact := Json.areExact_iff.mpr (List.forall_mem_map.mpr fun x hx => (h x hx).exact)
  reads trimmed htrim tree htree depth ys := by
    obtain ⟨left, rfl, hleft⟩ := htrim.of_list
    cases htree with
    | list start after htrees =>
      rw [Json.nesting]
      cases depth with
      | zero => simp [Decode.listOf, Json.Decode.list, Problem.flawed]
      | succ depth =>
        rw [Decode.listOf, list_closed_eq_ok, mapM_eq_ok h hleft htrees, Nat.add_le_add_iff_right]

theorem recovers_list_of_any {xs : List α} {p : α → Bool} (hany : xs.any p = false)
    (h : ∀ x, p x = false → Recovers kind (write x) read x) :
    Recovers kind (.list (xs.map write)) (Decode.listOf read) xs :=
  recovers_list fun x hx => h x (eq_false_of_ne_true (List.any_eq_false.mp hany x hx))

theorem recovers_nil : Recovers kind (.list []) (Decode.listOf read) [] :=
  @recovers_list α kind (fun _ => .null) read [] (by simp)

end

/-! ## Variants -/

section

variable {α : Type} {kind : Kind} {json : Json} {x : α}

theorem Json.nesting_variant (name : String) (json : Json) :
    (Json.variant name json).nesting = json.nesting + 1 := by
  simp [Json.variant, Json.nesting, nestingMembers]

/-- A variant is recovered if its contents are. -/
theorem recovers_variant {variants : Nat → List (Variant α)} {name : String}
    {contents : Nat → Contents α}
    (hfind : ∀ depth, (variants depth).find? (·.name == name) = some ⟨name, contents depth⟩)
    (hneeded : kind.default? name = none)
    (h : Recovers (kind.inside name) json
      (fun depth => (Variant.mk name (contents depth)).readContents) x) :
    Recovers kind (.variant name json) (Decode.oneOf variants) x where
  exact := ⟨h.exact, trivial⟩
  reads trimmed htrim tree htree depth y := by
    obtain ⟨left, rfl, hleft⟩ := htrim.of_variant hneeded
    cases htree with
    | record start last hmembers =>
      cases hmembers with
      | cons after next loose hvalue hrest =>
        cases hrest
        rw [Json.nesting_variant]
        cases depth with
        | zero => simp [Decode.oneOf, Json.Decode.oneOf, Problem.flawed]
        | succ depth =>
          rw [Nat.add_le_add_iff_right, ← h.reads left hleft _ hvalue depth y, Decode.oneOf,
            Json.Decode.oneOf, if_pos rfl]
          simp only [Variant.choose, hfind, Json.bind_eq_ok]
          simp

end

/-! ## Records -/

/-- The slots make `t` of `s` with the members, in the order of the slots. A member that the record
needs has no default; one that has its default changes nothing. -/
inductive Fills {σ : Type} (kind : Kind) :
    (Nat → List (Slot σ)) → σ → List (String × Json) → σ → Prop where
  | nil (s : σ) : Fills kind (fun _ => []) s [] s
  | cons {α : Type} {slots : Nat → List (Slot σ)} {s t : σ} {name : String} {required : Bool}
      {json : Json} {members : List (String × Json)} {read : Nat → Tree → Decoded α} {x : α}
      {put : α → σ → σ} (hrequired : required = true → kind.default? name = none)
      (hdefault : kind.default? name = some json → put x s = s)
      (h : Recovers (kind.inside name) json read x)
      (hrest : Fills kind slots (put x s) members t) :
      Fills kind
        (fun depth => ⟨name, required, fun tree => (read depth tree).map put⟩ :: slots depth) s
        ((name, json) :: members) t

namespace Fills

variable {σ : Type} {kind : Kind} {slots : Nat → List (Slot σ)} {s t : σ}
  {members : List (String × Json)}

section

variable {α : Type} {name : String} {json : Json} {read : Nat → Tree → Decoded α} {x : α}
  {put : α → σ → σ}

theorem needed (hneeded : kind.default? name = none) (h : Recovers (kind.inside name) json read x)
    (hrest : Fills kind slots (put x s) members t) :
    Fills kind (fun depth => .needed name (read depth) put :: slots depth) s
      ((name, json) :: members) t :=
  .cons (fun _ => hneeded) (fun hdefault => absurd (hneeded.symm.trans hdefault) (by simp)) h hrest

/-- The default is the form of a value that the record has already. -/
theorem defaulted {default : Json} {d : α} (hdefault : kind.default? name = some default)
    (hd : Recovers (kind.inside name) default read d) (hput : put d s = s)
    (h : Recovers (kind.inside name) json read x) (hrest : Fills kind slots (put x s) members t) :
    Fills kind (fun depth => .defaulted name (read depth) put :: slots depth) s
      ((name, json) :: members) t := by
  refine .cons (by simp) (fun hjson => ?_) h hrest
  obtain rfl : default = json := Option.some.inj (hdefault.symm.trans hjson)
  rw [h.unique hd, hput]

end

theorem membersExact (h : Fills kind slots s members t) : Json.MembersExact members := by
  induction h with
  | nil => trivial
  | cons _ _ h _ ih => exact ⟨h.exact, ih⟩

theorem names (h : Fills kind slots s members t) (depth : Nat) :
    (slots depth).map (·.name) = members.map (·.1) := by
  induction h with
  | nil => rfl
  | cons _ _ _ _ ih => exact congrArg (_ :: ·) ih

/-- What the record needs has no default, so it is not left out. -/
theorem mem_of_required (h : Fills kind slots s members t) {left : List (String × Json)}
    (htrim : MembersTrim kind members left) {depth : Nat} {slot : Slot σ}
    (hslot : slot ∈ slots depth) (hneeded : slot.required = true) :
    slot.name ∈ left.map (·.1) := by
  induction h generalizing left with
  | nil => cases hslot
  | cons hrequired _ _ _ ih =>
    rcases List.mem_cons.mp hslot with rfl | hslot
    · cases htrim with
      | keep _ hrest => exact List.mem_cons_self
      | drop hdefault _ =>
        exact absurd ((hrequired hneeded).symm.trans hdefault) (by simp)
    · cases htrim with
      | keep _ hrest => exact List.mem_cons_of_mem _ (ih hrest hslot)
      | drop _ hrest => exact ih hrest hslot

/-- A member of a slot's name is read and put into the record. -/
theorem readMembers_cons {α : Type} {all : List (Slot σ)} {name : String} {required : Bool}
    {read : Tree → Decoded α} {put : α → σ → σ} {after next : Cursor} {loose : Except Json.Flaw Cursor}
    {tree : Tree} {found : List Member} {seen : List String} {r : List String × σ}
    (hfind : all.find? (·.name == name) = some ⟨name, required, fun tree => (read tree).map put⟩)
    (hseen : name ∉ seen) :
    Slot.readMembers all (⟨⟨.ok (name, after), loose⟩, tree, next⟩ :: found) seen s = .ok r ↔
      ∃ x, read tree = .ok x ∧ Slot.readMembers all found (name :: seen) (put x s) = .ok r := by
  have hnew : seen.contains name = false := by simpa using hseen
  rw [Slot.readMembers]
  simp only [hfind, hnew, Bool.false_eq_true, if_false]
  rw [Json.bind_eq_ok]
  simp only [Json.map_eq_ok]
  constructor
  · rintro ⟨_, ⟨x, hx, rfl⟩, hrest⟩
    exact ⟨x, hx, hrest⟩
  · rintro ⟨x, hx, hrest⟩
    exact ⟨_, ⟨x, hx, rfl⟩, hrest⟩

/-- Members are put into the record one by one: induction over the slots. A member that is left out
would have changed nothing. -/
theorem readMembers_eq_ok (h : Fills kind slots s members t) {all : List (Slot σ)} {depth : Nat}
    (hfind : ∀ slot ∈ slots depth, all.find? (·.name == slot.name) = some slot)
    (hnodup : (members.map (·.1)).Nodup) {left : List (String × Json)}
    (htrim : MembersTrim kind members left) {found : List Member}
    (hfound : MembersRepresent left found) {seen : List String}
    (hseen : ∀ name ∈ members.map (·.1), name ∉ seen) (r : List String × σ) :
    Slot.readMembers all found seen s = .ok r ↔
      nestingMembers left ≤ depth ∧ r = ((left.map (·.1)).reverse ++ seen, t) := by
  induction h generalizing left found seen with
  | nil s =>
    cases htrim
    cases hfound
    simp [Slot.readMembers, nestingMembers, eq_comm]
  | cons _ hdefault h _ ih =>
    rw [List.map_cons, List.nodup_cons] at hnodup
    rw [List.map_cons, List.forall_mem_cons] at hseen
    rw [List.forall_mem_cons] at hfind
    cases htrim with
    -- The record has the default already: it is the one that the others are put into.
    | drop hdropped hrest =>
      rw [hdefault hdropped] at ih
      exact ih hfind.2 hnodup.2 hrest hfound hseen.2
    | keep hvalue hrest =>
      cases hfound with
      | cons after next loose htree hfound =>
        have hothers := @ih hfind.2 hnodup.2 _ hrest _ hfound (_ :: seen) fun name hname hmem => by
          rcases List.mem_cons.mp hmem with rfl | hmem
          · exact hnodup.1 hname
          · exact hseen.2 name hname hmem
        rw [readMembers_cons hfind.1 hseen.1, nestingMembers, Nat.max_le]
        simp only [h.reads _ hvalue _ htree]
        constructor
        · rintro ⟨x, ⟨hdepth, rfl⟩, hread⟩
          obtain ⟨hdepths, rfl⟩ := hothers.mp hread
          exact ⟨⟨hdepth, hdepths⟩, by simp⟩
        · rintro ⟨⟨hdepth, hdepths⟩, rfl⟩
          exact ⟨_, ⟨hdepth, rfl⟩, hothers.mpr ⟨hdepths, by simp⟩⟩

end Fills

/-- Slots of different names are found by their names. -/
theorem find?_name {σ : Type} {slots : List (Slot σ)} (h : (slots.map (·.name)).Nodup)
    {slot : Slot σ} (hslot : slot ∈ slots) :
    slots.find? (·.name == slot.name) = some slot := by
  obtain ⟨front, back, rfl⟩ := List.append_of_mem hslot
  refine List.find?_eq_some_iff_append.mpr ⟨by simp, front, back, rfl, fun other hother => ?_⟩
  rw [List.map_append, List.nodup_append] at h
  have hne := h.2.2 other.name (List.mem_map_of_mem hother) slot.name (by simp)
  simpa using hne

theorem record_closed_eq_ok {σ : Type} {title : String} {initial : σ} {slots : List (Slot σ)}
    {start : Nat} {members : List Member} {after : Cursor} {y : σ} :
    Json.Decode.record true title initial slots (.record start members (.closed after)) = .ok y ↔
      ∃ seen, Slot.readMembers slots members [] initial = .ok (seen, y) ∧
        Slot.missing? slots seen = none := by
  rw [Json.Decode.record, if_pos rfl]
  cases hread : Slot.readMembers slots members [] initial with
  | error problem => simp
  | ok result =>
    obtain ⟨seen, value⟩ := result
    cases hmissing : Slot.missing? slots seen with
    | none => simp [hmissing]
    | some name => simp [hmissing, Problem.complain]

theorem Kind.nodup_names (kind : Kind) : (kind.parts.map (·.name)).Nodup := by
  cases kind <;> decide

/-- A record is recovered if its slots recover its members. -/
theorem recovers_record {σ : Type} {kind : Kind} {title : String} {initial t : σ}
    {slots : Nat → List (Slot σ)} {members : List (String × Json)}
    (hnames : members.map (·.1) = kind.parts.map (·.name))
    (h : Fills kind slots initial members t) :
    Recovers kind (.record members) (Decode.recordOf title initial slots) t where
  exact := h.membersExact
  reads trimmed htrim tree htree depth y := by
    obtain ⟨left, rfl, hleft⟩ := htrim.of_record
    have hnodup : (members.map (·.1)).Nodup := hnames ▸ kind.nodup_names
    cases htree with
    | record start after hfound =>
      rw [Json.nesting]
      cases depth with
      | zero => simp [Decode.recordOf, Json.Decode.record, Problem.flawed]
      | succ depth =>
        have hfind : ∀ slot ∈ slots depth, (slots depth).find? (·.name == slot.name) = some slot :=
          fun slot hslot => find?_name (by rwa [h.names]) hslot
        have hread := h.readMembers_eq_ok hfind hnodup hleft hfound
          (show ∀ name ∈ members.map (·.1), name ∉ [] by simp)
        -- Of the slots that were not met none is needed.
        have hmissing : Slot.missing? (slots depth) ((left.map (·.1)).reverse ++ []) = none := by
          rw [Slot.missing?, Option.map_eq_none_iff, List.find?_eq_none]
          intro slot hslot
          have hmem := h.mem_of_required hleft hslot
          simp_all
        rw [Decode.recordOf, record_closed_eq_ok, Nat.add_le_add_iff_right]
        constructor
        · rintro ⟨seen, hmembers, -⟩
          obtain ⟨hdepth, hresult⟩ := (hread _).mp hmembers
          exact ⟨hdepth, (Prod.mk.inj hresult).2⟩
        · rintro ⟨hdepth, rfl⟩
          exact ⟨_, (hread _).mpr ⟨hdepth, rfl⟩, hmissing⟩

end JavaStubs
