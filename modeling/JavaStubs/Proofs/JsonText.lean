import JavaStubs.Json.Tree
import JavaStubs.Proofs.NumberText

/-!
# Reading JSON texts back

Reading the compact text of a JSON value gives a tree that says what the value says, as long as all
numbers in it are integers of 64 bits. Quoted texts are read back character by character; lists and
objects are read item by item, where the fuel is counted against the length of the text.
-/
namespace JavaStubs

theorem Cursor.skipSpace_of_head {pos : Nat} {rest : List Char}
    (h : ∀ c ∈ rest.head?, isSpace c = false) : skipSpace ⟨pos, rest⟩ = ⟨pos, rest⟩ := by
  cases rest with
  | nil => rfl
  | cons c rest => simp [skipSpace, h c rfl]

namespace Json

namespace Text

/-- An escaped character is read as the character, and skipped as well. -/
theorem readFrom_escapeChar (c : Char) (pos : Nat) (rest : List Char) : ∃ after,
    (∀ done, readFrom done pos ((escapeChar c).toList ++ rest) = readFrom (c :: done) after rest) ∧
      skip pos ((escapeChar c).toList ++ rest) = skip after rest := by
  unfold escapeChar
  split
  iterate 7 exact ⟨pos + 2, by simp [readFrom, simpleEscape?], by simp [skip, simpleEscape?]⟩
  rename_i hquote hslash _ _ _ _ _
  split <;> rename_i hcontrol
  · have hdigits : ∀ n < 32, Text.padded 16 4 n =
          ['0', '0', Nat.digitChar (n / 16), Nat.digitChar (n % 16)] ∧
        unit? '0' '0' (Nat.digitChar (n / 16)) (Nat.digitChar (n % 16)) = some n ∧
        isTrailing n = false ∧ isLeading n = false := by
      decide
    obtain ⟨hpadded, hunit, htrailing, hleading⟩ := hdigits c.toNat hcontrol
    refine ⟨pos + 6, ?_, ?_⟩
    · simp [hpadded, readFrom, hunit, htrailing, hleading, Char.ofNat_toNat]
    · simp [hpadded, skip, hunit]
  · rw [String.toList_singleton, List.singleton_append]
    refine ⟨pos + c.utf8Size, ?_, ?_⟩
    · intro done
      rw [readFrom, if_neg hcontrol]
      all_goals simp_all
    · rw [skip, if_neg hcontrol]
      all_goals simp_all

/-- The escaped characters of a text are read as the text: induction over the characters. -/
theorem readFrom_escaped (s : List Char) (pos : Nat) (rest : List Char) : ∃ after,
    (∀ done, readFrom done pos (s.flatMap (fun c => (escapeChar c).toList) ++ '"' :: rest) =
        .ok (String.ofList (done.reverse ++ s), ⟨after, rest⟩)) ∧
      skip pos (s.flatMap (fun c => (escapeChar c).toList) ++ '"' :: rest) =
        .ok ⟨after, rest⟩ := by
  induction s generalizing pos with
  | nil => exact ⟨pos + 1, fun done => by simp [readFrom], by simp [skip]⟩
  | cons c s ih =>
    rw [List.flatMap_cons, List.append_assoc]
    obtain ⟨next, hread, hskip⟩ := readFrom_escapeChar c pos
      (s.flatMap (fun c => (escapeChar c).toList) ++ '"' :: rest)
    obtain ⟨after, hreads, hskips⟩ := ih next
    refine ⟨after, fun done => ?_, hskip.trans hskips⟩
    rw [hread, hreads, List.reverse_cons, List.append_assoc, List.singleton_append]

end Text

theorem toList_quote (s : String) :
    (quote s).toList = '"' :: (s.toList.flatMap (fun c => (escapeChar c).toList) ++ ['"']) := by
  simp [quote, String.toList_join, List.flatMap_map]

/-- A quoted text is read as the text, and skipped as well. -/
theorem read_quote (s : String) (pos : Nat) (rest : List Char) : ∃ after,
    Text.read (Cursor.advance ⟨pos, (quote s).toList ++ rest⟩ 1) = .ok (s, ⟨after, rest⟩) ∧
      Text.skip (Cursor.advance ⟨pos, (quote s).toList ++ rest⟩ 1).pos
        (Cursor.advance ⟨pos, (quote s).toList ++ rest⟩ 1).rest = .ok ⟨after, rest⟩ := by
  obtain ⟨after, hread, hskip⟩ := Text.readFrom_escaped s.toList (pos + 1) rest
  rw [toList_quote, List.cons_append, List.append_assoc, List.singleton_append]
  refine ⟨after, ?_, hskip⟩
  have hwhole := hread []
  rw [List.reverse_nil, List.nil_append, String.ofList_toList] at hwhole
  exact hwhole

mutual

/-- Whether all numbers of a value are integers of 64 bits, with or without a sign. -/
def IsExact : Json → Prop
  | .fraction _ => False
  | .integer n => -2 ^ 63 ≤ n ∧ n < 2 ^ 64
  | .list items => AreExact items
  | .record members => MembersExact members
  | _ => True

def AreExact : List Json → Prop
  | [] => True
  | item :: rest => item.IsExact ∧ AreExact rest

def MembersExact : List (String × Json) → Prop
  | [] => True
  | (_, value) :: rest => value.IsExact ∧ MembersExact rest

end

theorem areExact_iff {items : List Json} : AreExact items ↔ ∀ item ∈ items, item.IsExact := by
  induction items with
  | nil => simp [AreExact]
  | cons item rest ih => simp [AreExact, ih]

namespace Tree

section

variable (fuel pos : Nat) (rest : List Char)

theorem value_list : value (fuel + 1) ⟨pos, '[' :: rest⟩ =
    (.list pos (listItems fuel ⟨pos + 1, rest⟩ true).1 (listItems fuel ⟨pos + 1, rest⟩ true).2,
      (listItems fuel ⟨pos + 1, rest⟩ true).2.after?) := by
  have hspace : Cursor.skipSpace ⟨pos, '[' :: rest⟩ = ⟨pos, '[' :: rest⟩ :=
    Cursor.skipSpace_of_head (by simp [Cursor.isSpace])
  rw [value, hspace]
  rfl

theorem listItems_end (first : Bool) :
    listItems (fuel + 1) ⟨pos, ']' :: rest⟩ first = ([], .closed ⟨pos + 1, rest⟩) := by
  have hspace : Cursor.skipSpace ⟨pos, ']' :: rest⟩ = ⟨pos, ']' :: rest⟩ :=
    Cursor.skipSpace_of_head (by simp [Cursor.isSpace])
  rw [listItems, hspace]
  rfl

theorem value_record : value (fuel + 1) ⟨pos, '{' :: rest⟩ =
    (.record pos (objectMembers fuel ⟨pos + 1, rest⟩ true).1
        (objectMembers fuel ⟨pos + 1, rest⟩ true).2,
      (objectMembers fuel ⟨pos + 1, rest⟩ true).2.after?) := by
  have hspace : Cursor.skipSpace ⟨pos, '{' :: rest⟩ = ⟨pos, '{' :: rest⟩ :=
    Cursor.skipSpace_of_head (by simp [Cursor.isSpace])
  rw [value, hspace]
  rfl

theorem objectMembers_end (first : Bool) :
    objectMembers (fuel + 1) ⟨pos, '}' :: rest⟩ first = ([], .closed ⟨pos + 1, rest⟩) := by
  have hspace : Cursor.skipSpace ⟨pos, '}' :: rest⟩ = ⟨pos, '}' :: rest⟩ :=
    Cursor.skipSpace_of_head (by simp [Cursor.isSpace])
  rw [objectMembers, hspace]
  rfl

end

end Tree

mutual

/-- A tree says what a value says. -/
inductive Represents : Json → Tree → Prop where
  | null (start : Nat) (after : Cursor) (loose : Except Flaw Cursor) :
      Represents .null (.leaf ⟨.null, start, .ok (.null, after), loose⟩)
  | boolean (value : Bool) (start : Nat) (after : Cursor) (loose : Except Flaw Cursor) :
      Represents (.boolean value) (.leaf ⟨.boolean, start, .ok (.boolean value, after), loose⟩)
  | integer (n : Int) (start : Nat) (after : Cursor) (loose : Except Flaw Cursor) :
      Represents (.integer n)
        (.leaf ⟨.number, start, .ok (.number (.integer n), after), loose⟩)
  | text (s : String) (start : Nat) (after : Cursor) (loose : Except Flaw Cursor) :
      Represents (.text s) (.leaf ⟨.text, start, .ok (.text s, after), loose⟩)
  | list {items : List Json} {trees : List Tree} (start : Nat) (after : Cursor)
      (h : AllRepresent items trees) : Represents (.list items) (.list start trees (.closed after))
  | record {members : List (String × Json)} {found : List Member} (start : Nat) (after : Cursor)
      (h : MembersRepresent members found) :
      Represents (.record members) (.record start found (.closed after))

inductive AllRepresent : List Json → List Tree → Prop where
  | nil : AllRepresent [] []
  | cons {item : Json} {items : List Json} {tree : Tree} {trees : List Tree}
      (h : Represents item tree) (hrest : AllRepresent items trees) :
      AllRepresent (item :: items) (tree :: trees)

inductive MembersRepresent : List (String × Json) → List Member → Prop where
  | nil : MembersRepresent [] []
  | cons {name : String} {value : Json} {members : List (String × Json)} {tree : Tree}
      {found : List Member} (after next : Cursor) (loose : Except Flaw Cursor)
      (h : Represents value tree) (hrest : MembersRepresent members found) :
      MembersRepresent ((name, value) :: members)
        (⟨⟨.ok (name, after), loose⟩, tree, next⟩ :: found)

end

namespace Tree

/-- The characters that a value begins with. -/
def opens (c : Char) : Bool :=
  ['n', 't', 'f', '"', '[', '{', '-'].contains c || c.isDigit

/-- The text of an integer begins with a digit or a sign. -/
theorem head_toString (n : Int) : ∃ c rest, (toString n).toList = c :: rest ∧
    (c = '-' || c.isDigit) = true := by
  have hdigits : ∀ m, ∃ c rest, Nat.toDigits 10 m = c :: rest ∧
      (c = '-' || c.isDigit) = true := by
    intro m
    obtain ⟨c, rest, hm⟩ := List.exists_cons_of_ne_nil (Nat.toDigits_ne_nil (n := m) (b := 10))
    have hdigit := Nat.isDigit_of_mem_toDigits (by decide : 0 < 10) (by decide)
      (hm ▸ List.mem_cons_self : c ∈ Nat.toDigits 10 m)
    exact ⟨c, rest, hm, by simp [hdigit]⟩
  rw [Int.toString_eq_repr, Int.repr_eq_if]
  split
  · rw [Nat.toList_repr]
    exact hdigits n.toNat
  · exact ⟨'-', _, by rw [String.toList_append]; rfl, by decide⟩

theorem opens_of_numeral {c : Char} (h : (c = '-' || c.isDigit) = true) : opens c = true := by
  rw [Bool.or_eq_true] at h
  rcases h with h | h
  · rw [of_decide_eq_true h]
    decide
  · simp [opens, h]

/-- The text of a value begins like a value. -/
theorem head_render (json : Json) (h : json.IsExact) : ∃ c rest,
    json.render.toList = c :: rest ∧ opens c = true := by
  cases json with
  | null => exact ⟨'n', _, rfl, by decide⟩
  | boolean value => cases value <;> exact ⟨_, _, rfl, by decide⟩
  | integer n =>
    obtain ⟨c, rest, hn, hc⟩ := head_toString n
    exact ⟨c, rest, hn, opens_of_numeral hc⟩
  | fraction bits => exact h.elim
  | text s => exact ⟨'"', _, toList_quote s, by decide⟩
  | list items =>
    refine ⟨'[', (renderItems items ++ "]").toList, ?_, by decide⟩
    rw [render, String.append_assoc, String.toList_append]
    rfl
  | record members =>
    refine ⟨'{', (renderMembers members ++ "\x7d").toList, ?_, by decide⟩
    rw [render, String.append_assoc, String.toList_append]
    rfl

/-- The text of items begins like a value. -/
theorem head_renderItems {item : Json} (h : item.IsExact) (others : List Json) : ∃ c rest,
    (renderItems (item :: others)).toList = c :: rest ∧ opens c = true := by
  obtain ⟨c, rest, hitem, hc⟩ := head_render item h
  cases others with
  | nil =>
    rw [renderItems]
    exact ⟨c, rest, hitem, hc⟩
  | cons next others =>
    refine ⟨c, rest ++ ',' :: (renderItems (next :: others)).toList, ?_, hc⟩
    rw [renderItems, String.append_assoc, String.toList_append, hitem, String.toList_append]
    rfl

/-- The text of members begins with the quote of a name. -/
theorem head_renderMembers (member : String × Json) (others : List (String × Json)) : ∃ rest,
    (renderMembers (member :: others)).toList = '"' :: rest := by
  obtain ⟨name, value⟩ := member
  cases others with
  | nil =>
    rw [renderMembers, String.append_assoc, String.toList_append, toList_quote]
    exact ⟨_, rfl⟩
  | cons next others =>
    rw [renderMembers]
    simp only [String.append_assoc]
    rw [String.toList_append, toList_quote]
    exact ⟨_, rfl⟩

theorem isSpace_of_opens {c : Char} (h : opens c = true) : Cursor.isSpace c = false := by
  have hspaces : ∀ d, Cursor.isSpace d = true → d = ' ' ∨ d = '\n' ∨ d = '\t' ∨ d = '\r' := by
    intro d hd
    simpa [Cursor.isSpace, or_assoc] using hd
  cases hc : Cursor.isSpace c with
  | false => rfl
  | true => rcases hspaces c hc with rfl | rfl | rfl | rfl <;> exact absurd h (by decide)

section

variable (fuel pos : Nat) (rest : List Char)

theorem value_null :
    value (fuel + 1) ⟨pos, "null".toList ++ rest⟩ =
      (.leaf ⟨.null, pos, .ok (.null, ⟨pos + 4, rest⟩), .ok ⟨pos + 4, rest⟩⟩,
        some ⟨pos + 4, rest⟩) := by
  have hspace : Cursor.skipSpace ⟨pos, "null".toList ++ rest⟩ =
      ⟨pos, 'n' :: 'u' :: 'l' :: 'l' :: rest⟩ := Cursor.skipSpace_of_head (by simp [Cursor.isSpace])
  rw [value, hspace]
  simp only [word, word.spell, List.drop_succ_cons, List.drop_zero, if_true]
  rfl

theorem value_true :
    value (fuel + 1) ⟨pos, "true".toList ++ rest⟩ =
      (.leaf ⟨.boolean, pos, .ok (.boolean true, ⟨pos + 4, rest⟩), .ok ⟨pos + 4, rest⟩⟩,
        some ⟨pos + 4, rest⟩) := by
  have hspace : Cursor.skipSpace ⟨pos, "true".toList ++ rest⟩ =
      ⟨pos, 't' :: 'r' :: 'u' :: 'e' :: rest⟩ := Cursor.skipSpace_of_head (by simp [Cursor.isSpace])
  rw [value, hspace]
  simp only [word, word.spell, List.drop_succ_cons, List.drop_zero, if_true]
  rfl

theorem value_false :
    value (fuel + 1) ⟨pos, "false".toList ++ rest⟩ =
      (.leaf ⟨.boolean, pos, .ok (.boolean false, ⟨pos + 5, rest⟩), .ok ⟨pos + 5, rest⟩⟩,
        some ⟨pos + 5, rest⟩) := by
  have hspace : Cursor.skipSpace ⟨pos, "false".toList ++ rest⟩ =
      ⟨pos, 'f' :: 'a' :: 'l' :: 's' :: 'e' :: rest⟩ :=
    Cursor.skipSpace_of_head (by simp [Cursor.isSpace])
  rw [value, hspace]
  simp only [word, word.spell, List.drop_succ_cons, List.drop_zero, if_true]
  rfl

theorem value_quote (s : String) : ∃ after,
    value (fuel + 1) ⟨pos, (quote s).toList ++ rest⟩ =
      (.leaf ⟨.text, pos, .ok (.text s, ⟨after, rest⟩), .ok ⟨after, rest⟩⟩,
        some ⟨after, rest⟩) := by
  obtain ⟨after, hread, hskip⟩ := read_quote s pos rest
  refine ⟨after, ?_⟩
  rw [toList_quote, List.cons_append] at hread hskip ⊢
  have hspace : ∀ rest, Cursor.skipSpace ⟨pos, '"' :: rest⟩ = ⟨pos, '"' :: rest⟩ := fun _ =>
    Cursor.skipSpace_of_head (by simp [Cursor.isSpace])
  rw [value, hspace]
  simp only [quoted, hread, hskip]
  rfl

theorem value_numeral {c : Char} (h : (c = '-' || c.isDigit) = true) :
    value (fuel + 1) ⟨pos, c :: rest⟩ =
      (.leaf (numeral ⟨pos, c :: rest⟩), (numeral ⟨pos, c :: rest⟩).loose.toOption) := by
  have hspace : Cursor.skipSpace ⟨pos, c :: rest⟩ = ⟨pos, c :: rest⟩ :=
    Cursor.skipSpace_of_head fun d hd => by
      obtain rfl : c = d := by simpa using hd
      exact isSpace_of_opens (opens_of_numeral h)
  rw [value, hspace]
  simp only
  split <;> rename_i heq
  · cases heq
  iterate 6
    obtain ⟨rfl, -⟩ := List.cons.inj heq
    exact absurd h (by decide)
  · obtain ⟨rfl, -⟩ := List.cons.inj heq
    rw [if_pos h]

theorem value_integer {n : Int} (hlow : -2 ^ 63 ≤ n) (hhigh : n < 2 ^ 64) (hrest : Follows rest) :
    ∃ after, value (fuel + 1) ⟨pos, (toString n).toList ++ rest⟩ =
      (.leaf ⟨.number, pos, .ok (.number (.integer n), ⟨after, rest⟩), .ok ⟨after, rest⟩⟩,
        some ⟨after, rest⟩) := by
  obtain ⟨numeral, after, hread, hvalue⟩ := Numeral.value_read_toString hlow hhigh pos hrest
  have hnumeral : Tree.numeral ⟨pos, (toString n).toList ++ rest⟩ =
      ⟨.number, pos, .ok (.number (.integer n), ⟨after, rest⟩), .ok ⟨after, rest⟩⟩ := by
    simp only [Tree.numeral, hread, hvalue]
    rfl
  obtain ⟨c, others, hn, hc⟩ := head_toString n
  rw [hn, List.cons_append] at hnumeral ⊢
  exact ⟨after, (value_numeral fuel pos _ hc).trans (by rw [hnumeral]; rfl)⟩

theorem listItems_first {c : Char} (h : opens c = true) :
    listItems (fuel + 1) ⟨pos, c :: rest⟩ true = listItem fuel ⟨pos, c :: rest⟩ := by
  have hspace : Cursor.skipSpace ⟨pos, c :: rest⟩ = ⟨pos, c :: rest⟩ :=
    Cursor.skipSpace_of_head (by simpa using isSpace_of_opens h)
  rw [listItems, hspace]
  simp only
  split <;> rename_i heq
  · cases heq
  · obtain ⟨rfl, -⟩ := List.cons.inj heq
    exact absurd h (by decide)
  · rfl

theorem listItems_comma {c : Char} (h : opens c = true) :
    listItems (fuel + 1) ⟨pos, ',' :: c :: rest⟩ false = listItem fuel ⟨pos + 1, c :: rest⟩ := by
  have hspace : Cursor.skipSpace ⟨pos, ',' :: c :: rest⟩ = ⟨pos, ',' :: c :: rest⟩ :=
    Cursor.skipSpace_of_head (by simp [Cursor.isSpace])
  have hafter : Cursor.skipSpace ⟨pos + 1, c :: rest⟩ = ⟨pos + 1, c :: rest⟩ :=
    Cursor.skipSpace_of_head (by simpa using isSpace_of_opens h)
  have hadvance : Cursor.advance ⟨pos, ',' :: c :: rest⟩ 1 = ⟨pos + 1, c :: rest⟩ := rfl
  rw [listItems, hspace]
  simp only [Bool.false_eq_true, if_false, hadvance, hafter]
  split <;> rename_i heq
  · cases heq
  · exact absurd (List.cons.inj heq).1 (by decide)
  · obtain ⟨rfl, -⟩ := List.cons.inj heq
    rw [if_pos rfl]
    split <;> rename_i hnext
    · cases hnext
    · obtain ⟨rfl, -⟩ := List.cons.inj hnext
      exact absurd h (by decide)
    · rfl

theorem objectMembers_first :
    objectMembers (fuel + 1) ⟨pos, '"' :: rest⟩ true = objectMember fuel ⟨pos, '"' :: rest⟩ := by
  have hspace : Cursor.skipSpace ⟨pos, '"' :: rest⟩ = ⟨pos, '"' :: rest⟩ :=
    Cursor.skipSpace_of_head (by simp [Cursor.isSpace])
  rw [objectMembers, hspace]
  rfl

theorem objectMembers_comma :
    objectMembers (fuel + 1) ⟨pos, ',' :: '"' :: rest⟩ false =
      objectMember fuel ⟨pos + 1, '"' :: rest⟩ := by
  have hspace : Cursor.skipSpace ⟨pos, ',' :: '"' :: rest⟩ = ⟨pos, ',' :: '"' :: rest⟩ :=
    Cursor.skipSpace_of_head (by simp [Cursor.isSpace])
  have hafter : Cursor.skipSpace (Cursor.advance ⟨pos, ',' :: '"' :: rest⟩ 1) =
      ⟨pos + 1, '"' :: rest⟩ := Cursor.skipSpace_of_head (by simp [Cursor.isSpace])
  rw [objectMembers, hspace]
  simp only [hafter]
  rfl

theorem strict_key (here : Cursor) : (key here).strict = Text.read (here.advance 1) := rfl

theorem loose_key (here : Cursor) :
    (key here).loose = Text.skip (here.advance 1).pos (here.advance 1).rest := rfl

/-- After the name of a member and its colon comes the value. -/
theorem objectMember_quote (name : String) : ∃ (key : Key) (keyAfter : Cursor) (valuePos : Nat),
    key.strict = .ok (name, keyAfter) ∧
    ∀ {tree : Tree} {after : Cursor}, value fuel ⟨valuePos, rest⟩ = (tree, some after) →
      objectMember (fuel + 1) ⟨pos, (quote name).toList ++ ':' :: rest⟩ =
        (⟨key, tree, after.skipSpace⟩ :: (objectMembers fuel after false).1,
          (objectMembers fuel after false).2) := by
  obtain ⟨after, hread, hskip⟩ := read_quote name pos (':' :: rest)
  refine ⟨key ⟨pos, (quote name).toList ++ ':' :: rest⟩, ⟨after, ':' :: rest⟩, after + 1,
    (strict_key _).trans hread, ?_⟩
  intro tree next hvalue
  have hloose : (key ⟨pos, (quote name).toList ++ ':' :: rest⟩).loose =
      .ok ⟨after, ':' :: rest⟩ := (loose_key _).trans hskip
  have hspace : Cursor.skipSpace ⟨after, ':' :: rest⟩ = ⟨after, ':' :: rest⟩ :=
    Cursor.skipSpace_of_head (by simp [Cursor.isSpace])
  have hadvance : Cursor.advance ⟨after, ':' :: rest⟩ 1 = ⟨after + 1, rest⟩ := rfl
  simp only [objectMember, hloose, hspace, hadvance, hvalue]

end

section

variable {rest : List Char}

theorem follows_comma : Follows (',' :: rest) := by simp [Follows]

theorem follows_list : Follows (']' :: rest) := by simp [Follows]

theorem follows_record : Follows ('}' :: rest) := by simp [Follows]

end

theorem length_comma : ",".length = 1 := by decide

/-- Reading the text of a value, with enough fuel, gives a tree that says what the value says, and
leaves what follows. -/
def IsReadBack (json : Json) : Prop :=
  ∀ (fuel : Nat), 4 * json.render.length ≤ fuel → ∀ (pos : Nat) (rest : List Char), Follows rest →
    ∃ tree after, value fuel ⟨pos, json.render.toList ++ rest⟩ = (tree, some ⟨after, rest⟩) ∧
      Represents json tree

/-- An item is read, then those after it. -/
theorem listItem_value {item : Json} (h : IsReadBack item) {fuel : Nat}
    (hfuel : 4 * item.render.length ≤ fuel) (pos : Nat) {rest : List Char} (hrest : Follows rest) :
    ∃ tree after, Represents item tree ∧
      listItem (fuel + 1) ⟨pos, item.render.toList ++ rest⟩ =
        (tree :: (listItems fuel ⟨after, rest⟩ false).1, (listItems fuel ⟨after, rest⟩ false).2) := by
  obtain ⟨tree, after, hvalue, htree⟩ := h fuel hfuel pos rest hrest
  refine ⟨tree, after, htree, ?_⟩
  simp only [listItem, hvalue]

/-- Items that are read back are read back one after the other, up to the bracket of their list. -/
theorem listItem_render {items : List Json} (hne : items ≠ [])
    (hexact : ∀ item ∈ items, item.IsExact) (hitems : ∀ item ∈ items, IsReadBack item)
    {fuel : Nat} (hfuel : 4 * (renderItems items).length + 2 ≤ fuel) (pos : Nat)
    (rest : List Char) : ∃ trees after,
      listItem fuel ⟨pos, (renderItems items).toList ++ ']' :: rest⟩ =
        (trees, .closed ⟨after, rest⟩) ∧ AllRepresent items trees := by
  induction items generalizing fuel pos with
  | nil => exact absurd rfl hne
  | cons item others ih =>
    rw [List.forall_mem_cons] at hitems hexact
    obtain ⟨fuel, rfl⟩ : ∃ n, fuel = n + 2 := ⟨fuel - 2, by omega⟩
    cases others with
    | nil =>
      have hrender : renderItems [item] = item.render := by rw [renderItems]
      rw [hrender] at hfuel ⊢
      obtain ⟨tree, after, htree, hread⟩ :=
        @listItem_value item hitems.1 (fuel + 1) (by omega) pos (']' :: rest) follows_list
      refine ⟨[tree], after + 1, ?_, .cons htree .nil⟩
      rw [hread, listItems_end]
    | cons next others =>
      have hrender : renderItems (item :: next :: others) =
          item.render ++ "," ++ renderItems (next :: others) := by rw [renderItems]
      have htext : (item.render ++ "," ++ renderItems (next :: others)).toList ++ ']' :: rest =
          item.render.toList ++ ',' :: ((renderItems (next :: others)).toList ++ ']' :: rest) := by
        simp [String.toList_append]
      rw [hrender] at hfuel ⊢
      simp only [String.length_append, length_comma] at hfuel
      obtain ⟨tree, after, htree, hread⟩ := @listItem_value item hitems.1 (fuel + 1) (by omega) pos
        (',' :: ((renderItems (next :: others)).toList ++ ']' :: rest)) follows_comma
      -- The comma alone pays for the two calls that lead to the next item.
      obtain ⟨trees, last, hothers, htrees⟩ :=
        @ih (by simp) hexact.2 hitems.2 fuel (by omega) (after + 1)
      refine ⟨tree :: trees, last, ?_, .cons htree htrees⟩
      obtain ⟨c, front, hhead, hc⟩ := head_renderItems (hexact.2 next List.mem_cons_self) others
      rw [htext, hread]
      rw [hhead, List.cons_append] at hothers ⊢
      rw [listItems_comma fuel after _ hc, hothers]

/-- A member is read, then those after it. -/
theorem objectMember_value {json : Json} (h : IsReadBack json) (name : String) {fuel : Nat}
    (hfuel : 4 * json.render.length ≤ fuel) (pos : Nat) {rest : List Char} (hrest : Follows rest) :
    ∃ member after,
      (∀ {members : List (String × Json)} {found : List Member}, MembersRepresent members found →
        MembersRepresent ((name, json) :: members) (member :: found)) ∧
      objectMember (fuel + 1) ⟨pos, (quote name).toList ++ ':' :: (json.render.toList ++ rest)⟩ =
        (member :: (objectMembers fuel ⟨after, rest⟩ false).1,
          (objectMembers fuel ⟨after, rest⟩ false).2) := by
  obtain ⟨⟨strict, loose⟩, keyAfter, valuePos, hkey, hmember⟩ :=
    objectMember_quote fuel pos (json.render.toList ++ rest) name
  obtain ⟨tree, after, hvalue, htree⟩ := h fuel hfuel valuePos rest hrest
  obtain rfl : strict = _ := hkey
  exact ⟨_, after, .cons _ _ _ htree, hmember hvalue⟩

/-- Members whose values are read back are read back one after the other, up to the bracket of
their object. -/
theorem objectMember_render {members : List (String × Json)} (hne : members ≠ [])
    (hvalues : ∀ member ∈ members, IsReadBack member.2)
    {fuel : Nat} (hfuel : 4 * (renderMembers members).length + 2 ≤ fuel) (pos : Nat)
    (rest : List Char) : ∃ found after,
      objectMember fuel ⟨pos, (renderMembers members).toList ++ '}' :: rest⟩ =
        (found, .closed ⟨after, rest⟩) ∧ MembersRepresent members found := by
  induction members generalizing fuel pos with
  | nil => exact absurd rfl hne
  | cons member others ih =>
    obtain ⟨name, json⟩ := member
    obtain ⟨hjson, hvalues⟩ : IsReadBack json ∧ ∀ member ∈ others, IsReadBack member.2 :=
      List.forall_mem_cons.mp hvalues
    obtain ⟨fuel, rfl⟩ : ∃ n, fuel = n + 2 := ⟨fuel - 2, by omega⟩
    cases others with
    | nil =>
      have hrender : renderMembers [(name, json)] = quote name ++ ":" ++ json.render := by
        rw [renderMembers]
      have htext : (quote name ++ ":" ++ json.render).toList ++ '}' :: rest =
          (quote name).toList ++ ':' :: (json.render.toList ++ '}' :: rest) := by
        simp [String.toList_append]
      rw [hrender] at hfuel ⊢
      simp only [String.length_append] at hfuel
      obtain ⟨member, after, hmember, hread⟩ := @objectMember_value json hjson name (fuel + 1)
        (by omega) pos ('}' :: rest) follows_record
      refine ⟨[member], after + 1, ?_, hmember .nil⟩
      rw [htext, hread, objectMembers_end]
    | cons next others =>
      have hrender : renderMembers ((name, json) :: next :: others) =
          quote name ++ ":" ++ json.render ++ "," ++ renderMembers (next :: others) := by
        rw [renderMembers]
      have htext : (quote name ++ ":" ++ json.render ++ "," ++
            renderMembers (next :: others)).toList ++ '}' :: rest =
          (quote name).toList ++ ':' :: (json.render.toList ++
            ',' :: ((renderMembers (next :: others)).toList ++ '}' :: rest)) := by
        simp [String.toList_append]
      rw [hrender] at hfuel ⊢
      simp only [String.length_append, length_comma] at hfuel
      obtain ⟨member, after, hmember, hread⟩ := @objectMember_value json hjson name (fuel + 1)
        (by omega) pos (',' :: ((renderMembers (next :: others)).toList ++ '}' :: rest))
        follows_comma
      obtain ⟨found, last, hothers, hfound⟩ :=
        @ih (by simp) hvalues fuel (by omega) (after + 1)
      refine ⟨member :: found, last, ?_, hmember hfound⟩
      obtain ⟨front, hhead⟩ := head_renderMembers next others
      rw [htext, hread]
      rw [hhead, List.cons_append] at hothers ⊢
      rw [objectMembers_comma fuel after, hothers]

theorem isReadBack_list {items : List Json} (hexact : ∀ item ∈ items, item.IsExact)
    (hitems : ∀ item ∈ items, IsReadBack item) : IsReadBack (.list items) := by
  intro fuel hfuel pos rest hrest
  have htext : (Json.list items).render.toList ++ rest =
      '[' :: ((renderItems items).toList ++ ']' :: rest) := by
    rw [render]
    simp [String.toList_append]
  have hlength : (Json.list items).render.length = (renderItems items).length + 2 := by
    rw [render]
    simp only [String.length_append]
    have hbracket : "[".length = 1 ∧ "]".length = 1 := by decide
    omega
  obtain ⟨fuel, rfl⟩ : ∃ n, fuel = n + 2 := ⟨fuel - 2, by omega⟩
  rw [htext, value_list]
  cases items with
  | nil =>
    have hempty : (renderItems []).toList = [] := by
      rw [renderItems]
      rfl
    rw [hempty, List.nil_append, listItems_end]
    exact ⟨_, pos + 1 + 1, rfl, .list pos _ .nil⟩
  | cons item others =>
    obtain ⟨trees, after, hfound, htrees⟩ := listItem_render (List.cons_ne_nil item others) hexact
      hitems (show 4 * _ + 2 ≤ fuel by omega) (pos + 1) rest
    obtain ⟨c, front, hhead, hc⟩ := head_renderItems (hexact item List.mem_cons_self) others
    rw [hhead, List.cons_append] at hfound ⊢
    rw [listItems_first fuel (pos + 1) _ hc, hfound]
    exact ⟨_, after, rfl, .list pos _ htrees⟩

theorem isReadBack_record {members : List (String × Json)}
    (hvalues : ∀ member ∈ members, IsReadBack member.2) : IsReadBack (.record members) := by
  intro fuel hfuel pos rest hrest
  have htext : (Json.record members).render.toList ++ rest =
      '{' :: ((renderMembers members).toList ++ '}' :: rest) := by
    rw [render]
    simp [String.toList_append]
  have hlength : (Json.record members).render.length = (renderMembers members).length + 2 := by
    rw [render]
    simp only [String.length_append]
    have hbracket : "\x7b".length = 1 ∧ "\x7d".length = 1 := by decide
    omega
  obtain ⟨fuel, rfl⟩ : ∃ n, fuel = n + 2 := ⟨fuel - 2, by omega⟩
  rw [htext, value_record]
  cases members with
  | nil =>
    have hempty : (renderMembers []).toList = [] := by
      rw [renderMembers]
      rfl
    rw [hempty, List.nil_append, objectMembers_end]
    exact ⟨_, pos + 1 + 1, rfl, .record pos _ .nil⟩
  | cons member others =>
    obtain ⟨found, after, hread, hfound⟩ := objectMember_render (List.cons_ne_nil member others)
      hvalues (show 4 * _ + 2 ≤ fuel by omega) (pos + 1) rest
    obtain ⟨front, hhead⟩ := head_renderMembers member others
    rw [hhead, List.cons_append] at hread ⊢
    rw [objectMembers_first, hread]
    exact ⟨_, after, rfl, .record pos _ hfound⟩

/-- The fuel for a text is not used up at its beginning. -/
theorem exists_fuel {json : Json} (h : json.IsExact) {fuel : Nat}
    (hfuel : 4 * json.render.length ≤ fuel) : ∃ n, fuel = n + 1 := by
  obtain ⟨c, rest, hhead, -⟩ := head_render json h
  have hlength : 0 < json.render.length := by simp [← String.length_toList, hhead]
  exact ⟨fuel - 1, by omega⟩

mutual

/-- A value without fractions is read back: along the value, whose parts are read back. -/
theorem isReadBack : (json : Json) → json.IsExact → IsReadBack json
  | .null, h => fun fuel hfuel pos rest _ => by
    obtain ⟨fuel, rfl⟩ := exists_fuel h hfuel
    exact ⟨_, _, value_null fuel pos rest, .null ..⟩
  | .boolean false, h => fun fuel hfuel pos rest _ => by
    obtain ⟨fuel, rfl⟩ := exists_fuel h hfuel
    exact ⟨_, _, value_false fuel pos rest, .boolean ..⟩
  | .boolean true, h => fun fuel hfuel pos rest _ => by
    obtain ⟨fuel, rfl⟩ := exists_fuel h hfuel
    exact ⟨_, _, value_true fuel pos rest, .boolean ..⟩
  | .integer n, h => fun fuel hfuel pos rest hrest => by
    obtain ⟨fuel, rfl⟩ := exists_fuel h hfuel
    obtain ⟨after, hvalue⟩ := value_integer fuel pos rest h.1 h.2 hrest
    exact ⟨_, _, hvalue, .integer ..⟩
  | .fraction _, h => h.elim
  | .text s, h => fun fuel hfuel pos rest _ => by
    obtain ⟨fuel, rfl⟩ := exists_fuel h hfuel
    obtain ⟨after, hvalue⟩ := value_quote fuel pos rest s
    exact ⟨_, _, hvalue, .text ..⟩
  | .list items, h => isReadBack_list (areExact_iff.mp h) (forall_isReadBack items h)
  | .record members, h => isReadBack_record (forall_values_isReadBack members h)

theorem forall_isReadBack : (items : List Json) → AreExact items →
    ∀ item ∈ items, IsReadBack item
  | [], _ => by simp
  | item :: rest, h => by
    rw [List.forall_mem_cons]
    exact ⟨isReadBack item h.1, forall_isReadBack rest h.2⟩

theorem forall_values_isReadBack : (members : List (String × Json)) → MembersExact members →
    ∀ member ∈ members, IsReadBack member.2
  | [], _ => by simp
  | (name, value) :: rest, h => by
    rw [List.forall_mem_cons]
    exact ⟨isReadBack value h.1, forall_values_isReadBack rest h.2⟩

end

/-- The text of a value without fractions is read as a tree that says what the value says, and
nothing is left. -/
theorem read_render {json : Json} (h : json.IsExact) : ∃ tree after,
    read json.render = (tree, some ⟨after, []⟩) ∧ Represents json tree := by
  obtain ⟨tree, after, hread, htree⟩ := isReadBack json h (4 * json.render.length + 4) (by omega) 0
    [] (by simp [Follows])
  rw [List.append_nil] at hread
  exact ⟨tree, after, hread, htree⟩

end Tree

end Json

end JavaStubs
