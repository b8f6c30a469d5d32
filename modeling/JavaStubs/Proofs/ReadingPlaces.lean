import JavaStubs.Json.Tree
import JavaStubs.Proofs.LinesAndColumns

/-!
# Places that reading meets

A cursor is within a text when the bytes read and those that remain are no more than the text has.
Reading begins within the text and stays there, so each place that is kept in a tree is within it:
those of its brackets, of its leaves, and of all flaws.
-/
namespace JavaStubs

/-- How a run ends: in an error of one sort or in a value of another. -/
def EndsIn {ε α : Type} (bad : ε → Prop) (good : α → Prop) : Except ε α → Prop
  | .error error => bad error
  | .ok value => good value

namespace EndsIn

variable {ε α β : Type} {bad : ε → Prop} {good : α → Prop} {run : Except ε α}

@[simp, grind =] theorem error_iff {error : ε} : EndsIn bad good (.error error) ↔ bad error :=
  Iff.rfl

@[simp, grind =] theorem ok_iff {value : α} : EndsIn bad good (.ok value) ↔ good value := Iff.rfl

theorem bind {f : α → Except ε β} {fine : β → Prop} (h : EndsIn bad good run)
    (hf : ∀ value, good value → EndsIn bad fine (f value)) : EndsIn bad fine (run >>= f) := by
  cases run with
  | error error => exact h
  | ok value => exact hf value h

theorem map {f : α → β} {fine : β → Prop} (h : EndsIn bad good run)
    (hf : ∀ value, good value → fine (f value)) : EndsIn bad fine (run.map f) := by
  cases run with
  | error error => exact h
  | ok value => exact hf value h

end EndsIn

namespace Text

theorem length_le_byteLength (s : List Char) : s.length ≤ byteLength s := by
  induction s with
  | nil => simp
  | cons c rest ih =>
    have := Char.utf8Size_pos c
    rw [List.length_cons, byteLength_cons]
    omega

theorem byteLength_pos {s : List Char} (h : s ≠ []) : 0 < byteLength s :=
  Nat.lt_of_lt_of_le (List.length_pos_iff.mpr h) (length_le_byteLength s)

end Text

namespace Cursor

open Text (byteLength)

/-- What was read and what remains are together no more than so many bytes. -/
def Within (n : Nat) (here : Cursor) : Prop := here.pos + byteLength here.rest ≤ n

variable {n : Nat} {here : Cursor}

theorem within_start (text : String) : (start text).Within text.utf8ByteSize := by
  rw [Within, start, Nat.zero_add, Text.byteLength_toList]

namespace Within

theorem pos_le (h : here.Within n) : here.pos ≤ n := Nat.le_of_add_right_le h

theorem pos_lt (h : here.Within n) (hrest : here.rest ≠ []) : here.pos < n :=
  Nat.lt_of_lt_of_le (Nat.lt_add_of_pos_right (Text.byteLength_pos hrest)) h

theorem advance (h : here.Within n) (count : Nat) : (here.advance count).Within n := by
  rw [Within, pos_add_byteLength_advance]
  exact h

theorem span (h : here.Within n) (belongs : Char → Bool) : (here.span belongs).2.Within n :=
  h.advance _

theorem span_le (h : here.Within n) (belongs : Char → Bool) :
    here.pos + (here.span belongs).1.length ≤ n := by
  have hrun := (List.takeWhile_sublist belongs (l := here.rest)).length_le
  have hrest := Text.length_le_byteLength here.rest
  unfold Within at h
  simp only [Cursor.span]
  omega

theorem skipSpace (h : here.Within n) : here.skipSpace.Within n := by
  have hspaces := Text.length_le_byteLength (here.rest.takeWhile isSpace)
  have hboth : byteLength (here.rest.takeWhile isSpace) + byteLength (here.rest.dropWhile isSpace) =
      byteLength here.rest := by
    rw [← Text.byteLength_append, List.takeWhile_append_dropWhile]
  unfold Within at h ⊢
  simp only [Cursor.skipSpace]
  omega

theorem looked_le (h : here.Within n) : here.looked ≤ n := by
  rw [looked]
  split
  case isTrue => exact h.pos_le
  case isFalse hrest => exact h.pos_lt (by simpa using hrest)

end Within

end Cursor

namespace Json

open JavaStubs.Text (byteLength)

/-- The flaw is within so many bytes. -/
def Flaw.Within (n : Nat) (flaw : Flaw) : Prop := flaw.pos ≤ n

theorem Flaw.within_flaw {n : Nat} {here : Cursor} (h : here.Within n) (fault : Fault) :
    (here.flaw fault).Within n := h.looked_le

namespace Text

variable {n pos : Nat} {rest : List Char}

/-- A text that is skipped is counted by its characters, each of which has a byte at least. -/
theorem within_skip (h : pos + byteLength rest ≤ n) :
    EndsIn (Flaw.Within n) (Cursor.Within n) (skip pos rest) := by
  fun_induction skip pos rest <;>
    grind [Flaw.Within, Cursor.Within, Char.utf8Size_pos, JavaStubs.Text.byteLength_cons,
      unitFlaw]

theorem within_readFrom (h : pos + byteLength rest ≤ n) (done : List Char) :
    EndsIn (Flaw.Within n) (fun read => read.2.Within n) (readFrom done pos rest) := by
  fun_induction readFrom done pos rest <;>
    grind [Flaw.Within, Cursor.Within, Char.utf8Size_pos, JavaStubs.Text.byteLength_cons,
      JavaStubs.Text.byteLength_pos, unitFlaw]

theorem within_read {here : Cursor} (h : here.Within n) :
    EndsIn (Flaw.Within n) (fun read => read.2.Within n) (read here) :=
  within_readFrom h []

end Text

/-- The place of the flaw is within so many bytes. -/
def NumberFlaw.Within (n : Nat) (flaw : NumberFlaw) : Prop := flaw.pos ≤ n

namespace Numeral

variable {n : Nat} {here after : Cursor} {run : List Char}

/-- Reading a part of a numeral stays within so many bytes. -/
def Reads {α : Type} (n : Nat) : Except NumberFlaw (α × Cursor) → Prop :=
  EndsIn (NumberFlaw.Within n) fun read => read.2.Within n

theorem within_digits (h : here.Within n) (hdigits : digits here = (run, after)) :
    after.Within n := by
  have hafter : (digits here).2.Within n := h.span Char.isDigit
  rwa [hdigits] at hafter

theorem within_readExponent (h : here.Within n) : Reads n (readExponent here) := by
  rw [readExponent]
  split
  next negative signed hsign =>
  have hsigned : signed.Within n := by
    split at hsign <;> cases hsign
    · exact h.advance 1
    · exact h.advance 1
    · exact h
  split
  next => exact hsigned.looked_le
  next hdigits => exact within_digits hsigned hdigits

theorem within_readExponent? (h : here.Within n) : Reads n (readExponent? here) := by
  rw [readExponent?]
  split
  · exact (within_readExponent (h.advance 1)).bind fun read hread => hread
  · exact (within_readExponent (h.advance 1)).bind fun read hread => hread
  · exact h

theorem within_readFraction? (h : here.Within n) : Reads n (readFraction? here) := by
  rw [readFraction?]
  split
  · dsimp only
    split
    next => exact (h.advance 1).looked_le
    next hdigits => exact within_digits (h.advance 1) hdigits
  · exact h

theorem within_readWhole (h : here.Within n) : Reads n (readWhole here) := by
  rw [readWhole]
  split
  next => exact h.looked_le
  next hdigits =>
    have hrun : here.pos + (digits here).1.length ≤ n := h.span_le Char.isDigit
    rw [hdigits] at hrun
    simp only [List.length_cons] at hrun
    exact Nat.le_trans (by simp only; omega) hrun
  next hdigits => exact within_digits h hdigits

theorem within_read (h : here.Within n) : Reads n (Numeral.read here) := by
  rw [Numeral.read]
  split
  next negative unsigned hsign =>
  have hunsigned : unsigned.Within n := by
    split at hsign <;> cases hsign
    · exact h.advance 1
    · exact h
  refine (within_readWhole hunsigned).bind fun whole hwhole => ?_
  refine (within_readFraction? hwhole).bind fun fraction hfraction => ?_
  exact (within_readExponent? hfraction).bind fun exponent hexponent => hexponent

/-- Only a number out of range is at fault, and that where its numeral or its exponent is read. -/
theorem within_value {after : Nat} (h : after ≤ n) (numeral : Numeral) :
    EndsIn (Flaw.Within n) (fun _ => True) (numeral.value after) := by
  unfold value
  dsimp only
  split
  case h_1 =>
    split
    · split
      · trivial
      · exact h
    · repeat' split
      all_goals trivial
  case h_2 =>
    split
    · trivial
    · exact h
  case h_3 =>
    split
    · split
      · exact Nat.le_trans (Nat.sub_le _ _) h
      · trivial
    · split
      · trivial
      · exact h

end Numeral

/-- The places of a leaf are within so many bytes. -/
structure Leaf.Within (n : Nat) (leaf : Leaf) : Prop where
  start_lt : leaf.start < n
  strict : EndsIn (Flaw.Within n) (fun read => read.2.Within n) leaf.strict
  loose : EndsIn (Flaw.Within n) (Cursor.Within n) leaf.loose

/-- The places of a name are within so many bytes. -/
structure Key.Within (n : Nat) (key : Key) : Prop where
  strict : EndsIn (Flaw.Within n) (fun read => read.2.Within n) key.strict
  loose : EndsIn (Flaw.Within n) (Cursor.Within n) key.loose

/-- The place where a list or an object ends is within so many bytes. -/
def Ending.Within (n : Nat) : Ending → Prop
  | .closed here | .comma here | .noKey here => here.Within n
  | .flawed flaw => flaw.Within n
  | .unreached => True

theorem Ending.Within.after {n : Nat} {ending : Ending} (h : ending.Within n) :
    ∀ after ∈ ending.after?, after.Within n := by
  cases ending with
  | closed after => exact fun _ hafter => Option.some.inj hafter ▸ h
  | _ => exact fun _ hafter => nomatch hafter

/-- The places of a tree and of all trees in it are within so many bytes. -/
inductive Tree.Within (n : Nat) : Tree → Prop where
  | missing {pos : Nat} (hpos : pos ≤ n) : Within n (.missing pos)
  | stray {pos : Nat} (hpos : pos < n) : Within n (.stray pos)
  | blocked {flaw : Flaw} (hflaw : flaw.Within n) : Within n (.blocked flaw)
  | leaf {leaf : Leaf} (hleaf : leaf.Within n) : Within n (.leaf leaf)
  | list {start : Nat} {items : List Tree} {ending : Ending} (hstart : start < n)
      (hitems : ∀ item ∈ items, Within n item) (hending : ending.Within n) :
      Within n (.list start items ending)
  | record {start : Nat} {members : List Member} {ending : Ending} (hstart : start < n)
      (hkeys : ∀ member ∈ members, member.key.Within n)
      (hvalues : ∀ member ∈ members, Within n member.value)
      (hnexts : ∀ member ∈ members, member.next.Within n) (hending : ending.Within n) :
      Within n (.record start members ending)

/-- The places of a member are within so many bytes. -/
structure Member.Within (n : Nat) (member : Member) : Prop where
  key : member.key.Within n
  value : member.value.Within n
  next : member.next.Within n

namespace Tree

variable {n fuel : Nat} {here : Cursor}

theorem within_spell {pos : Nat} {expected left : List Char} (h : pos + byteLength left ≤ n) :
    EndsIn (Flaw.Within n) (Cursor.Within n) (word.spell pos expected left) := by
  fun_induction word.spell pos expected left <;>
    grind [Flaw.Within, Cursor.Within, Char.utf8Size_pos, JavaStubs.Text.byteLength_cons]

theorem within_word (h : here.Within n) (hrest : here.rest ≠ []) (kind : LeafKind)
    (rest : List Char) (scalar : Scalar) : (word kind here rest scalar).Within n := by
  obtain ⟨c, left, hleft⟩ := List.exists_cons_of_ne_nil hrest
  have hspelt : EndsIn (Flaw.Within n) (Cursor.Within n)
      (word.spell (here.pos + 1) rest (here.rest.drop 1)) := by
    apply within_spell
    have hsize := Char.utf8Size_pos c
    rw [Cursor.Within, hleft, JavaStubs.Text.byteLength_cons] at h
    rw [hleft, List.drop_one, List.tail_cons]
    omega
  exact
    { start_lt := h.pos_lt hrest
      strict := hspelt.map fun _ hafter => hafter
      loose := hspelt }

theorem within_numeral (h : here.Within n) (hrest : here.rest ≠ []) : (numeral here).Within n := by
  have hread := Numeral.within_read h
  rw [numeral]
  split
  next hflaw =>
    rw [hflaw] at hread
    exact { start_lt := h.pos_lt hrest, strict := hread, loose := hread }
  next numeral after hnumeral =>
    rw [hnumeral] at hread
    have hafter : after.Within n := hread
    exact
      { start_lt := h.pos_lt hrest
        strict := (Numeral.within_value hafter.pos_le numeral).map fun _ _ => hafter
        loose := hafter }

theorem within_quoted (h : here.Within n) (hrest : here.rest ≠ []) : (quoted here).Within n where
  start_lt := h.pos_lt hrest
  strict := (Text.within_read (h.advance 1)).map fun _ hread => hread
  loose := Text.within_skip (h.advance 1)

theorem within_key (h : here.Within n) : (key here).Within n where
  strict := Text.within_read (h.advance 1)
  loose := Text.within_skip (h.advance 1)

theorem within_leaf_iff {leaf : Leaf} : (Tree.leaf leaf).Within n ↔ leaf.Within n :=
  ⟨fun | .leaf hleaf => hleaf, .leaf⟩

theorem within_list_iff {start : Nat} {items : List Tree} {ending : Ending} :
    (Tree.list start items ending).Within n ↔
      start < n ∧ (∀ item ∈ items, item.Within n) ∧ ending.Within n :=
  ⟨fun | .list hstart hitems hending => ⟨hstart, hitems, hending⟩,
    fun ⟨hstart, hitems, hending⟩ => .list hstart hitems hending⟩

theorem within_record_iff {start : Nat} {members : List Member} {ending : Ending} :
    (Tree.record start members ending).Within n ↔
      start < n ∧ (∀ member ∈ members, member.Within n) ∧ ending.Within n := by
  constructor
  · rintro ⟨⟩
    next hstart hkeys hvalues hnexts hending =>
    exact ⟨hstart, fun member hmember => ⟨hkeys member hmember, hvalues member hmember,
      hnexts member hmember⟩, hending⟩
  · rintro ⟨hstart, hmembers, hending⟩
    exact .record hstart (fun member hmember => (hmembers member hmember).key)
      (fun member hmember => (hmembers member hmember).value)
      (fun member hmember => (hmembers member hmember).next) hending

/-- A value that was read, and the place after it, are within so many bytes. -/
def ValueWithin (n : Nat) (read : Tree × Option Cursor) : Prop :=
  read.1.Within n ∧ ∀ after ∈ read.2, after.Within n

/-- Items that were read, and their ending, are within so many bytes. -/
def ItemsWithin (n : Nat) (read : List Tree × Ending) : Prop :=
  (∀ item ∈ read.1, item.Within n) ∧ read.2.Within n

/-- Members that were read, and their ending, are within so many bytes. -/
def MembersWithin (n : Nat) (read : List Member × Ending) : Prop :=
  (∀ member ∈ read.1, member.Within n) ∧ read.2.Within n

/-- With so much fuel, reading stays within so many bytes. -/
structure ReadsWithin (n fuel : Nat) : Prop where
  value {here : Cursor} (h : here.Within n) : ValueWithin n (value fuel here)
  listItems {here : Cursor} (h : here.Within n) (first : Bool) :
    ItemsWithin n (listItems fuel here first)
  listItem {here : Cursor} (h : here.Within n) : ItemsWithin n (listItem fuel here)
  objectMembers {here : Cursor} (h : here.Within n) (first : Bool) :
    MembersWithin n (objectMembers fuel here first)
  objectMember {here : Cursor} (h : here.Within n) : MembersWithin n (objectMember fuel here)

theorem valueWithin_leaf {leaf : Leaf} (h : leaf.Within n) :
    ValueWithin n (.leaf leaf, leaf.loose.toOption) := by
  refine ⟨.leaf h, fun after hafter => ?_⟩
  have hloose := h.loose
  cases hread : leaf.loose <;> simp_all [Except.toOption]

theorem itemsWithin_nil {ending : Ending} (h : ending.Within n) : ItemsWithin n ([], ending) :=
  ⟨by simp, h⟩

theorem membersWithin_nil {ending : Ending} (h : ending.Within n) : MembersWithin n ([], ending) :=
  ⟨by simp, h⟩

theorem membersWithin_singleton {member : Member} (h : member.Within n) :
    MembersWithin n ([member], .unreached) := ⟨by simpa using h, trivial⟩

theorem within_value_succ (ih : ReadsWithin n fuel) (h : here.Within n) :
    ValueWithin n (value (fuel + 1) here) := by
  have hspace := h.skipSpace
  rw [value]
  dsimp only
  generalize here.skipSpace = here at hspace
  have hstart {c : Char} {rest : List Char} (hrest : here.rest = c :: rest) : here.pos < n :=
    hspace.pos_lt (by simp [hrest])
  have hfilled {c : Char} {rest : List Char} (hrest : here.rest = c :: rest) : here.rest ≠ [] := by
    simp [hrest]
  split
  case h_1 => exact ⟨.missing hspace.pos_le, by simp⟩
  case h_2 hrest =>
    have hitems := ih.listItems (hspace.advance 1) true
    exact ⟨.list (hstart hrest) hitems.1 hitems.2, hitems.2.after⟩
  case h_3 hrest =>
    have hmembers := ih.objectMembers (hspace.advance 1) true
    exact ⟨within_record_iff.mpr ⟨hstart hrest, hmembers⟩, hmembers.2.after⟩
  case h_4 hrest => exact valueWithin_leaf (within_quoted hspace (hfilled hrest))
  case h_8 hrest =>
    split
    · exact valueWithin_leaf (within_numeral hspace (hfilled hrest))
    · exact ⟨.stray (hstart hrest), by simp⟩
  all_goals exact valueWithin_leaf (within_word hspace (hfilled (by assumption)) _ _ _)

theorem within_listItems_succ (ih : ReadsWithin n fuel) (h : here.Within n) (first : Bool) :
    ItemsWithin n (listItems (fuel + 1) here first) := by
  have hspace := h.skipSpace
  rw [listItems]
  dsimp only
  generalize here.skipSpace = here at hspace
  split
  case h_1 => exact itemsWithin_nil (Flaw.within_flaw hspace _)
  case h_2 => exact itemsWithin_nil (hspace.advance 1)
  case h_3 =>
    split
    · exact ih.listItem hspace
    split
    · have hcomma := (hspace.advance 1).skipSpace
      split
      · exact itemsWithin_nil hcomma
      · exact itemsWithin_nil hcomma
      · exact ih.listItem hcomma
    · exact itemsWithin_nil (Flaw.within_flaw hspace _)

theorem within_listItem_succ (ih : ReadsWithin n fuel) (h : here.Within n) :
    ItemsWithin n (listItem (fuel + 1) here) := by
  have hvalue := ih.value h
  rw [listItem]
  split
  next item hitem =>
    rw [hitem] at hvalue
    exact ⟨by simpa using hvalue.1, trivial⟩
  next item after hitem =>
    rw [hitem] at hvalue
    have hitems := ih.listItems (hvalue.2 after rfl) false
    exact ⟨List.forall_mem_cons.mpr ⟨hvalue.1, hitems.1⟩, hitems.2⟩

theorem within_objectMembers_succ (ih : ReadsWithin n fuel) (h : here.Within n) (first : Bool) :
    MembersWithin n (objectMembers (fuel + 1) here first) := by
  have hspace := h.skipSpace
  rw [objectMembers]
  dsimp only
  generalize here.skipSpace = here at hspace
  have hflawed (fault : Fault) : MembersWithin n ([], .flawed (here.flaw fault)) :=
    membersWithin_nil (Flaw.within_flaw hspace fault)
  have hnone : MembersWithin n ([], .noKey here) := membersWithin_nil hspace
  split
  case h_1 => exact membersWithin_nil (hspace.advance 1)
  case h_2 =>
    split
    · exact ih.objectMember hspace
    · exact hflawed _
  case h_3 =>
    split
    · exact hnone
    split
    · have hcomma := (hspace.advance 1).skipSpace
      split
      · exact ih.objectMember hcomma
      · exact membersWithin_nil hcomma
    · exact hflawed _
  case h_4 =>
    split
    · exact hnone
    · exact hflawed _

theorem within_objectMember_succ (ih : ReadsWithin n fuel) (h : here.Within n) :
    MembersWithin n (objectMember (fuel + 1) here) := by
  have hkey := within_key h
  have hloose := hkey.loose
  rw [objectMember]
  dsimp only
  split
  next flaw hread =>
    rw [hread] at hloose
    exact membersWithin_singleton ⟨hkey, .blocked hloose, h⟩
  next after hread =>
    rw [hread] at hloose
    have hcolon : after.skipSpace.Within n := Cursor.Within.skipSpace hloose
    have hblocked (fault : Fault) :
        MembersWithin n ([⟨key here, .blocked (after.skipSpace.flaw fault), here⟩], .unreached) :=
      membersWithin_singleton ⟨hkey, .blocked (Flaw.within_flaw hcolon fault), h⟩
    split
    · have hvalue := ih.value (hcolon.advance 1)
      split
      next item hitem =>
        rw [hitem] at hvalue
        exact membersWithin_singleton ⟨hkey, hvalue.1, h⟩
      next item next hitem =>
        rw [hitem] at hvalue
        have hnext := hvalue.2 next rfl
        have hmembers := ih.objectMembers hnext false
        have hmember : Member.Within n ⟨key here, item, next.skipSpace⟩ :=
          ⟨hkey, hvalue.1, hnext.skipSpace⟩
        exact ⟨List.forall_mem_cons.mpr ⟨hmember, hmembers.1⟩, hmembers.2⟩
    · exact hblocked _
    · exact hblocked _

/-- Reading stays within the text: induction on the fuel, since each of the five functions calls the
others with less of it. -/
theorem readsWithin (n fuel : Nat) : ReadsWithin n fuel := by
  induction fuel with
  | zero =>
    exact
      { value := fun h => ⟨.missing h.pos_le, by simp [value]⟩
        listItems := fun _ _ => itemsWithin_nil trivial
        listItem := fun _ => itemsWithin_nil trivial
        objectMembers := fun _ _ => membersWithin_nil trivial
        objectMember := fun _ => membersWithin_nil trivial }
  | succ fuel ih =>
    exact
      { value := within_value_succ ih
        listItems := within_listItems_succ ih
        listItem := within_listItem_succ ih
        objectMembers := within_objectMembers_succ ih
        objectMember := within_objectMember_succ ih }

/-- All places of the tree of a text are within the text. -/
theorem within_read (text : String) : ValueWithin text.utf8ByteSize (read text) :=
  (readsWithin _ _).value (Cursor.within_start text)

theorem within_readAt (h : here.Within n) : (readAt here).Within n :=
  ((readsWithin _ _).value h).1

end Tree

end Json

end JavaStubs
