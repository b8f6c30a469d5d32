import JavaStubs.Source.Balance
import Mathlib.Data.List.DropRight

/-!
# What the check for balanced braces accepts

The literals of a text and the groups that braces form have a grammar of their own, which knows no
modes and no counts. A text whose groups the check can count passes it exactly if it is one group by
this grammar, or if a literal begins after one group, never ends, and has a closing brace as its
last character that is not blank: the check looks at the last character of the text without asking
where it stands.
-/
namespace JavaStubs.Source

/-- A character that begins a literal, and ends the literal that it begins. -/
def IsQuote (c : Char) : Prop := c = '"' ∨ c = '\''

/-- What a literal holds: not its quote, unless a backslash escapes it. -/
inductive LiteralBody (quote : Char) : List Char → Prop where
  | nil : LiteralBody quote []
  | char {c : Char} {rest : List Char} (hquote : c ≠ quote) (hescape : c ≠ '\\')
      (hrest : LiteralBody quote rest) : LiteralBody quote (c :: rest)
  | escape (c : Char) {rest : List Char} (hrest : LiteralBody quote rest) :
      LiteralBody quote ('\\' :: c :: rest)

/-- A text in which every literal ends, and what stands outside its literals. -/
inductive Outside : List Char → List Char → Prop where
  | nil : Outside [] []
  | char {c : Char} {text code : List Char} (h : ¬ IsQuote c) (hrest : Outside text code) :
      Outside (c :: text) (c :: code)
  | literal {quote : Char} {body text code : List Char} (hquote : IsQuote quote)
      (hbody : LiteralBody quote body) (hrest : Outside text code) :
      Outside (quote :: body ++ quote :: text) code

/-- A literal that begins and does not end. -/
inductive OpenLiteral : List Char → Prop where
  | body {quote : Char} {body : List Char} (hquote : IsQuote quote)
      (hbody : LiteralBody quote body) : OpenLiteral (quote :: body)
  | escape {quote : Char} {body : List Char} (hquote : IsQuote quote)
      (hbody : LiteralBody quote body) : OpenLiteral (quote :: body ++ ['\\'])

/-- A text without braces. -/
def Braceless (code : List Char) : Prop := ∀ c ∈ code, c ≠ '{' ∧ c ≠ '}'

/-- A text whose braces form groups. -/
inductive Nested : List Char → Prop where
  | nil : Nested []
  | char {c : Char} {rest : List Char} (hopen : c ≠ '{') (hclose : c ≠ '}')
      (hrest : Nested rest) : Nested (c :: rest)
  | group {inner rest : List Char} (hinner : Nested inner) (hrest : Nested rest) :
      Nested ('{' :: inner ++ '}' :: rest)

/-- A text with exactly one outermost group. -/
def SingleGroup (code : List Char) : Prop :=
  ∃ before inner after, code = before ++ '{' :: inner ++ '}' :: after ∧
    Braceless before ∧ Nested inner ∧ Braceless after

/-- Every literal of the text ends, and outside of them its braces form exactly one outermost group,
whose closing brace is the last character that is not blank. -/
def OneGroup (text : List Char) : Prop :=
  ∃ front blanks before inner, text = front ++ '}' :: blanks ∧
    (∀ c ∈ blanks, Text.isBlank c = true) ∧ Outside front (before ++ '{' :: inner) ∧
    Braceless before ∧ Nested inner

/-- After exactly one outermost group a literal begins that does not end, and its last character
that is not blank is a closing brace. -/
def EndsInLiteral (text : List Char) : Prop :=
  ∃ front literal blanks code, text = front ++ literal ++ '}' :: blanks ∧
    (∀ c ∈ blanks, Text.isBlank c = true) ∧ Outside front code ∧ SingleGroup code ∧
    OpenLiteral literal

/-! ### Literals -/

section literals

variable {quote c : Char} {text rest code body literal : List Char} {count : BraceCount}

theorem IsQuote.ne_backslash (h : IsQuote quote) : quote ≠ '\\' := by
  rcases h with rfl | rfl <;> decide

theorem IsQuote.not_blank (h : IsQuote quote) : Text.isBlank quote = false := by
  rcases h with rfl | rfl <;> decide

/-- What stands outside literals is no longer than the text. -/
theorem Outside.length_le (h : Outside text code) : code.length ≤ text.length := by
  induction h with
  | nil => exact Nat.le_refl _
  | char _ _ ih => exact Nat.succ_le_succ ih
  | literal _ _ _ ih =>
    simp only [List.length_append, List.length_cons]
    omega

theorem LiteralBody.append (h : LiteralBody quote body) (hrest : LiteralBody quote rest) :
    LiteralBody quote (body ++ rest) := by
  induction h with
  | nil => exact hrest
  | char hquote hescape _ ih => exact .char hquote hescape ih
  | escape c _ ih => exact .escape c ih

/-- From a quote on, a text ends the literal or leaves it open. -/
theorem exists_literal (hquote : IsQuote quote) (text : List Char) :
    (∃ body rest, text = body ++ quote :: rest ∧ LiteralBody quote body) ∨
      OpenLiteral (quote :: text) := by
  induction hlength : text.length using Nat.strongRecOn generalizing text with
  | ind length ih =>
    cases text with
    | nil => exact .inr (.body hquote .nil)
    | cons c rest =>
      by_cases hc : c = quote
      · exact .inl ⟨[], rest, by rw [hc, List.nil_append], .nil⟩
      · by_cases hescape : c = '\\'
        · subst hescape
          cases rest with
          | nil => exact .inr (.escape hquote .nil)
          | cons next rest =>
            rcases ih rest.length (by simp only [← hlength, List.length_cons]; omega) rest rfl with
              ⟨body, rest, rfl, hbody⟩ | hopen
            · exact .inl ⟨_, rest, rfl, .escape next hbody⟩
            · cases hopen with
              | body _ hbody => exact .inr (.body hquote (.escape next hbody))
              | escape _ hbody => exact .inr (.escape hquote (.escape next hbody))
        · rcases ih rest.length (by simp [← hlength]) rest rfl with
            ⟨body, rest, rfl, hbody⟩ | hopen
          · exact .inl ⟨_, rest, rfl, .char hc hescape hbody⟩
          · cases hopen with
            | body _ hbody => exact .inr (.body hquote (.char hc hescape hbody))
            | escape _ hbody => exact .inr (.escape hquote (.char hc hescape hbody))

/-- In a text every literal ends, or the last one is left open. -/
theorem exists_outside (text : List Char) :
    (∃ code, Outside text code) ∨
      ∃ front literal code, text = front ++ literal ∧ Outside front code ∧
        OpenLiteral literal := by
  induction hlength : text.length using Nat.strongRecOn generalizing text with
  | ind length ih =>
    cases text with
    | nil => exact .inl ⟨[], .nil⟩
    | cons c text =>
      by_cases hc : IsQuote c
      · rcases exists_literal hc text with ⟨body, rest, rfl, hbody⟩ | hopen
        · have hshorter : rest.length < length := by
            simp only [← hlength, List.length_cons, List.length_append]
            omega
          rcases ih rest.length hshorter rest rfl with
            ⟨code, hcode⟩ | ⟨front, literal, code, rfl, hfront, hopen⟩
          · exact .inl ⟨code, .literal hc hbody hcode⟩
          · exact .inr ⟨c :: body ++ c :: front, literal, code, by simp,
              .literal hc hbody hfront, hopen⟩
        · exact .inr ⟨[], c :: text, [], rfl, .nil, hopen⟩
      · rcases ih text.length (by simp [← hlength]) text rfl with
          ⟨code, hcode⟩ | ⟨front, literal, code, rfl, hfront, hopen⟩
        · exact .inl ⟨c :: code, .char hc hcode⟩
        · exact .inr ⟨c :: front, literal, c :: code, rfl, .char hc hfront, hopen⟩

theorem countBraces?_literalBody (h : LiteralBody quote body) (count : BraceCount)
    (rest : List Char) : countBraces? (.literal quote) count (body ++ rest) =
      countBraces? (.literal quote) count rest := by
  induction h with
  | nil => rfl
  | char hquote hescape _ ih =>
    rw [List.cons_append, countBraces?, if_neg hescape, if_neg hquote, ih]
  | escape c _ ih =>
    rw [List.cons_append, List.cons_append, countBraces?, if_pos rfl, countBraces?, ih]

theorem countBraces?_quote (h : IsQuote quote) (count : BraceCount) (rest : List Char) :
    countBraces? .code count (quote :: rest) = countBraces? (.literal quote) count rest := by
  rw [countBraces?, if_pos]
  simpa [IsQuote] using h

theorem countBraces?_openLiteral (h : OpenLiteral literal) (count : BraceCount) :
    countBraces? .code count literal = some count := by
  cases h with
  | @body quote body hquote hbody =>
    have hend := countBraces?_literalBody hbody count []
    rw [List.append_nil] at hend
    rw [countBraces?_quote hquote, hend, countBraces?]
  | @escape quote body hquote hbody =>
    rw [List.cons_append, countBraces?_quote hquote, countBraces?_literalBody hbody, countBraces?,
      if_pos rfl, countBraces?]

end literals

/-! ### Groups -/

/-- The count after a text without literals, unless it closes a group that is not open. -/
def BraceCount.after? : BraceCount → List Char → Option BraceCount
  | count, [] => some count
  | count, c :: rest =>
    if c = '{' then BraceCount.after? { count with depth := count.depth + 1 } rest
    else if c = '}' then count.close?.bind fun count => count.after? rest
    else count.after? rest

namespace BraceCount

variable {count final : BraceCount} {depth : Nat} {closed : Int32} {code before inner : List Char}

theorem after?_open (count : BraceCount) (rest : List Char) :
    count.after? ('{' :: rest) = after? ⟨count.depth + 1, count.closed⟩ rest := by
  rw [after?, if_pos rfl]

theorem after?_close (count : BraceCount) (rest : List Char) :
    count.after? ('}' :: rest) = count.close?.bind fun count => count.after? rest := by
  rw [after?, if_neg (by decide), if_pos rfl]

theorem after?_char {c : Char} (hopen : c ≠ '{') (hclose : c ≠ '}') (count : BraceCount)
    (rest : List Char) : count.after? (c :: rest) = count.after? rest := by
  rw [after?, if_neg hopen, if_neg hclose]

theorem after?_braceless (h : Braceless before) (count : BraceCount) (rest : List Char) :
    count.after? (before ++ rest) = count.after? rest := by
  induction before with
  | nil => rfl
  | cons c before ih =>
    rw [Braceless, List.forall_mem_cons] at h
    rw [List.cons_append, after?_char h.1.1 h.1.2, ih h.2]

/-- Groups inside a group leave the count as it is. -/
theorem after?_nested (h : Nested inner) (depth : Nat) (closed : Int32) (rest : List Char) :
    after? ⟨depth + 1, closed⟩ (inner ++ rest) = after? ⟨depth + 1, closed⟩ rest := by
  induction h generalizing depth rest with
  | nil => rfl
  | char hopen hclose _ ih => rw [List.cons_append, after?_char hopen hclose, ih]
  | group _ _ ihInner ihRest =>
    rw [List.append_assoc, List.cons_append, after?_open, ihInner, List.cons_append, after?_close]
    exact ihRest depth rest

theorem closed_of_close? (h : count.close? = some final) :
    final.closed = count.closed ∨ final.closed = count.closed + 1 := by
  unfold close? at h
  split at h
  · cases h
  · obtain rfl := Option.some.inj h
    exact .inr rfl
  · obtain rfl := Option.some.inj h
    exact .inl rfl

/-- Closed groups are counted one by one, no more of them than there are characters. -/
theorem exists_closed_of_after? (h : count.after? code = some final) :
    ∃ n ≤ code.length, final.closed = count.closed + Int32.ofNat n := by
  induction code generalizing count with
  | nil =>
    obtain rfl := Option.some.inj h
    exact ⟨0, Nat.le_refl _, (Int32.add_zero _).symm⟩
  | cons c rest ih =>
    unfold after? at h
    split at h
    · obtain ⟨n, hn, hclosed⟩ := ih h
      exact ⟨n, Nat.le_succ_of_le hn, hclosed⟩
    · split at h
      · obtain ⟨next, hnext, hrest⟩ := Option.bind_eq_some_iff.mp h
        obtain ⟨n, hn, hclosed⟩ := ih hrest
        rcases closed_of_close? hnext with hsame | hsucc
        · exact ⟨n, Nat.le_succ_of_le hn, hsame ▸ hclosed⟩
        · refine ⟨n + 1, Nat.succ_le_succ hn, ?_⟩
          rw [hclosed, hsucc, Int32.add_assoc, Nat.add_comm n, Int32.ofNat_add]
          rfl
      · obtain ⟨n, hn, hclosed⟩ := ih h
        exact ⟨n, Nat.le_succ_of_le hn, hclosed⟩

/-- A count that grows does not come back to where it was before it leaves the word. -/
theorem add_ofNat_ne (closed : Int32) {n : Nat} (hpos : 0 < n) (hn : n < Nat.pow 2 32) :
    closed + Int32.ofNat n ≠ closed := by
  intro heq
  have hzero : Int32.ofNat n = 0 := Int32.add_eq_left.mp heq
  have hbits : n % 4294967296 = 0 := by
    simpa using congrArg (fun k : Int32 => k.toBitVec.toNat) hzero
  have hn : n < 4294967296 := hn
  omega

/-- After another group that is closed, the count of closed groups is another one. -/
theorem closed_ne_of_after? {next : Int32} (h : after? ⟨depth, next + 1⟩ code = some final)
    (hsize : code.length + 1 < Nat.pow 2 32) : final.closed ≠ next := by
  obtain ⟨n, hn, hclosed⟩ := exists_closed_of_after? h
  have hsum : final.closed = next + Int32.ofNat (n + 1) := by
    rw [hclosed, Int32.add_assoc, Nat.add_comm n, Int32.ofNat_add]
    rfl
  rw [hsum]
  exact add_ofNat_ne next (Nat.succ_pos n) (by omega)

/-- Inside a group, a text goes on to the brace that closes the group, or the group stays open; if
no other one stays open in it, the text consists of groups. Induction over the length, since what
follows a group inside is shorter than the text from the group on. -/
theorem after?_cases (h : after? ⟨depth + 1, closed⟩ code = some final) :
    (∃ inner rest, code = inner ++ '}' :: rest ∧ Nested inner ∧
      (close? ⟨depth + 1, closed⟩).bind (fun count => count.after? rest) = some final) ∨
    (depth + 1 ≤ final.depth ∧ (final.depth = depth + 1 → Nested code)) := by
  induction hlength : code.length using Nat.strongRecOn generalizing code depth with
  | ind length ih =>
    cases code with
    | nil =>
      obtain rfl := Option.some.inj h
      exact .inr ⟨Nat.le_refl _, fun _ => .nil⟩
    | cons c rest =>
      have hshorter : rest.length < length := by simp [← hlength]
      by_cases hopen : c = '{'
      · subst hopen
        rw [after?_open] at h
        rcases ih _ hshorter h rfl with ⟨inner, others, rfl, hinner, hafter⟩ | ⟨hdepth, -⟩
        · have hafter : after? ⟨depth + 1, closed⟩ others = some final := hafter
          have hothers : others.length < length := by
            simp only [List.length_append, List.length_cons] at hshorter
            omega
          rcases ih _ hothers hafter rfl with
            ⟨inside, outside, rfl, hinside, hclosed⟩ | ⟨hdepth, hnested⟩
          · exact .inl ⟨'{' :: inner ++ '}' :: inside, outside, by simp,
              .group hinner hinside, hclosed⟩
          · exact .inr ⟨hdepth, fun hsame => .group hinner (hnested hsame)⟩
        · have hdepth : depth + 2 ≤ final.depth := hdepth
          exact .inr ⟨by omega, fun hsame => by omega⟩
      · by_cases hclose : c = '}'
        · subst hclose
          rw [after?_close] at h
          exact .inl ⟨[], rest, rfl, .nil, h⟩
        · rw [after?_char hopen hclose] at h
          rcases ih _ hshorter h rfl with ⟨inner, others, rfl, hinner, hafter⟩ | ⟨hdepth, hnested⟩
          · exact .inl ⟨c :: inner, others, rfl, .char hopen hclose hinner, hafter⟩
          · exact .inr ⟨hdepth, fun hsame => .char hopen hclose (hnested hsame)⟩

/-- Outside of groups, a text has no braces, or its first brace begins a group. -/
theorem after?_start (h : after? ⟨0, closed⟩ code = some final) :
    (Braceless code ∧ final = ⟨0, closed⟩) ∨
      ∃ before rest, code = before ++ '{' :: rest ∧ Braceless before ∧
        after? ⟨1, closed⟩ rest = some final := by
  induction code with
  | nil => exact .inl ⟨by simp [Braceless], (Option.some.inj h).symm⟩
  | cons c rest ih =>
    by_cases hopen : c = '{'
    · subst hopen
      rw [after?_open] at h
      exact .inr ⟨[], rest, rfl, by simp [Braceless], h⟩
    · by_cases hclose : c = '}'
      · subst hclose
        rw [after?_close] at h
        cases h
      · have hchar : ∀ before, Braceless before → Braceless (c :: before) := fun before hbefore =>
          List.forall_mem_cons.mpr ⟨⟨hopen, hclose⟩, hbefore⟩
        rw [after?_char hopen hclose] at h
        rcases ih h with ⟨hrest, hfinal⟩ | ⟨before, others, rfl, hbefore, hafter⟩
        · exact .inl ⟨hchar rest hrest, hfinal⟩
        · exact .inr ⟨c :: before, others, rfl, hchar before hbefore, hafter⟩

theorem after?_eq_open (hbefore : Braceless before) (hinner : Nested inner) :
    after? {} (before ++ '{' :: inner) = some ⟨1, 0⟩ := by
  have hend := after?_nested hinner 0 0 []
  rw [List.append_nil] at hend
  rw [after?_braceless hbefore, after?_open, hend]
  rfl

theorem after?_eq_open_iff (hsize : code.length < Nat.pow 2 32) :
    after? {} code = some ⟨1, 0⟩ ↔
      ∃ before inner, code = before ++ '{' :: inner ∧ Braceless before ∧ Nested inner := by
  constructor
  · intro h
    rcases after?_start h with ⟨-, hfinal⟩ | ⟨before, rest, rfl, hbefore, hrest⟩
    · cases hfinal
    · rcases after?_cases hrest with ⟨inner, others, rfl, -, hclosed⟩ | ⟨-, hnested⟩
      · have hclosed : after? ⟨0, 0 + 1⟩ others = some ⟨1, 0⟩ := hclosed
        have hothers : others.length + 1 < Nat.pow 2 32 := by
          simp only [List.length_append, List.length_cons] at hsize
          omega
        have hne := closed_ne_of_after? hclosed hothers
        exact absurd rfl hne
      · exact ⟨before, rest, rfl, hbefore, hnested rfl⟩
  · rintro ⟨before, inner, rfl, hbefore, hinner⟩
    exact after?_eq_open hbefore hinner

theorem after?_eq_closed_iff (hsize : code.length < Nat.pow 2 32) :
    after? {} code = some ⟨0, 1⟩ ↔ SingleGroup code := by
  constructor
  · intro h
    rcases after?_start h with ⟨-, hfinal⟩ | ⟨before, rest, rfl, hbefore, hrest⟩
    · cases hfinal
    · rcases after?_cases hrest with ⟨inner, others, rfl, hinner, hclosed⟩ | ⟨hdepth, -⟩
      · have hothers : after? ⟨0, 1⟩ others = some ⟨0, 1⟩ := hclosed
        rcases after?_start hothers with ⟨hafter, -⟩ | ⟨_, more, rfl, -, hmore⟩
        · exact ⟨before, inner, others, by simp, hbefore, hinner, hafter⟩
        · -- A second outermost group would be closed, too.
          rcases after?_cases hmore with ⟨_, last, rfl, -, hlast⟩ | ⟨hdepth, -⟩
          · have hlast : after? ⟨0, 1 + 1⟩ last = some ⟨0, 1⟩ := hlast
            have hshort : last.length + 1 < Nat.pow 2 32 := by
              simp only [List.length_append, List.length_cons] at hsize
              omega
            have hne := closed_ne_of_after? hlast hshort
            exact absurd rfl hne
          · cases hdepth
      · cases hdepth
  · rintro ⟨before, inner, after, rfl, hbefore, hinner, hafter⟩
    have hend := after?_braceless hafter ⟨0, 1⟩ []
    rw [List.append_nil] at hend
    rw [List.append_assoc, after?_braceless hbefore, List.cons_append, after?_open,
      after?_nested hinner, after?_close]
    exact hend

end BraceCount

/-! ### The check -/

section check

variable {text code blanks front literal : List Char} {count : BraceCount}

/-- The scanner counts the braces outside literals. -/
theorem countBraces?_outside (h : Outside text code) (count : BraceCount) (rest : List Char) :
    countBraces? .code count (text ++ rest) =
      (count.after? code).bind fun count => countBraces? .code count rest := by
  induction h generalizing count with
  | nil => rfl
  | @char c text code hc _ ih =>
    have hplain : (c = '"' || c = '\'') = false := by
      simpa [IsQuote] using hc
    rw [List.cons_append, countBraces?, hplain, BraceCount.after?]
    simp only [Bool.false_eq_true, if_false]
    split
    · exact ih _
    · split
      · cases count.close? with
        | none => rfl
        | some closed => exact ih closed
      · exact ih count
  | @literal quote body text code hquote hbody _ ih =>
    rw [List.append_assoc, List.cons_append, countBraces?_quote hquote,
      countBraces?_literalBody hbody, List.cons_append, countBraces?, if_neg hquote.ne_backslash,
      if_pos rfl, ih]

theorem outside_blanks (h : ∀ c ∈ blanks, Text.isBlank c = true) : Outside blanks blanks := by
  induction blanks with
  | nil => exact .nil
  | cons c rest ih =>
    rw [List.forall_mem_cons] at h
    refine .char (fun hquote => ?_) (ih h.2)
    rw [hquote.not_blank] at h
    exact Bool.false_ne_true h.1

theorem braceless_blanks (h : ∀ c ∈ blanks, Text.isBlank c = true) : Braceless blanks := by
  intro c hc
  have hblank := h c hc
  constructor
  · rintro rfl
    exact absurd hblank (by decide)
  · rintro rfl
    exact absurd hblank (by decide)

theorem literalBody_blanks {quote : Char} (hquote : IsQuote quote)
    (h : ∀ c ∈ blanks, Text.isBlank c = true) : LiteralBody quote blanks := by
  induction blanks with
  | nil => exact .nil
  | cons c rest ih =>
    rw [List.forall_mem_cons] at h
    refine .char ?_ ?_ (ih h.2)
    · rintro rfl
      exact Bool.false_ne_true (hquote.not_blank.symm.trans h.1)
    · rintro rfl
      exact absurd h.1 (by decide)

/-- A brace and blanks do not end a literal. -/
theorem OpenLiteral.append_brace (h : OpenLiteral literal)
    (hblanks : ∀ c ∈ blanks, Text.isBlank c = true) :
    OpenLiteral (literal ++ '}' :: blanks) := by
  cases h with
  | body hquote hbody =>
    refine .body hquote (hbody.append (.char ?_ (by decide) (literalBody_blanks hquote hblanks)))
    rcases hquote with rfl | rfl <;> decide
  | @escape quote body hquote hbody =>
    have hend := hbody.append (.escape '}' (literalBody_blanks hquote hblanks))
    rw [List.append_assoc]
    exact .body hquote hend

/-- Where literals end before the last brace, the scanner finds one group exactly if that brace
closes it. -/
theorem countBraces?_brace_iff (h : Outside front code)
    (hblanks : ∀ c ∈ blanks, Text.isBlank c = true) :
    countBraces? .code {} (front ++ '}' :: blanks) = some ⟨0, 1⟩ ↔
      BraceCount.after? {} code = some ⟨1, 0⟩ := by
  have hend : ∀ count : BraceCount,
      countBraces? .code count ('}' :: blanks) = count.close? := by
    intro count
    have hbrace : Outside ('}' :: blanks) ('}' :: blanks) :=
      .char (by simp [IsQuote]) (outside_blanks hblanks)
    have hcount := countBraces?_outside hbrace count []
    rw [List.append_nil, BraceCount.after?_close] at hcount
    rw [hcount]
    cases count.close? with
    | none => rfl
    | some closed =>
      have hsame := BraceCount.after?_braceless (braceless_blanks hblanks) closed []
      rw [List.append_nil] at hsame
      simp [hsame, BraceCount.after?, countBraces?]
  rw [countBraces?_outside h]
  simp only [hend]
  cases BraceCount.after? {} code with
  | none => simp
  | some count =>
    obtain ⟨depth, closed⟩ := count
    rcases depth with _ | _ | depth <;> simp [BraceCount.close?]

/-- Where a literal is left open, the scanner finds what was there before it. -/
theorem countBraces?_openLiteral_iff (h : Outside front code) (hliteral : OpenLiteral literal)
    (hsize : front.length < Nat.pow 2 32) :
    countBraces? .code {} (front ++ literal) = some ⟨0, 1⟩ ↔ SingleGroup code := by
  rw [countBraces?_outside h,
    ← BraceCount.after?_eq_closed_iff (Nat.lt_of_le_of_lt h.length_le hsize)]
  simp only [countBraces?_openLiteral hliteral]
  cases BraceCount.after? {} code <;> simp

theorem getLast?_trimEnd_iff {last : Char} (hlast : Text.isBlank last = false) :
    (Text.trimEnd text).getLast? = some last ↔
      ∃ front blanks, text = front ++ last :: blanks ∧
        ∀ c ∈ blanks, Text.isBlank c = true := by
  have htrim : Text.trimEnd text = text.rdropWhile Text.isBlank := rfl
  rw [htrim]
  constructor
  · intro h
    obtain ⟨front, hfront⟩ := List.getLast?_eq_some_iff.mp h
    have hsplit : text.rdropWhile Text.isBlank ++ text.rtakeWhile Text.isBlank = text :=
      List.rdropWhile_append_rtakeWhile
    rw [hfront, List.append_assoc] at hsplit
    exact ⟨front, _, hsplit.symm, fun c hc => List.mem_rtakeWhile_imp hc⟩
  · rintro ⟨front, blanks, rfl, hblanks⟩
    have hreverse : ∀ c ∈ blanks.reverse, Text.isBlank c = true := fun c hc =>
      hblanks c (List.mem_reverse.mp hc)
    rw [List.rdropWhile, List.reverse_append, List.reverse_cons, List.append_assoc,
      List.dropWhile_append_of_pos hreverse]
    simp [hlast]

theorem isBalanced_iff_count (source : String) :
    isBalanced source = true ↔ countBraces? .code {} source.toList = some ⟨0, 1⟩ ∧
      ∃ front blanks, source.toList = front ++ '}' :: blanks ∧
        ∀ c ∈ blanks, Text.isBlank c = true := by
  rw [isBalanced, Bool.and_eq_true, beq_iff_eq, beq_iff_eq, getLast?_trimEnd_iff (by decide)]

end check

/-- Let a text be so short that the count of its outermost groups cannot wrap around. It passes the
check exactly if its literals end and it is one group, or if a literal is left open after one group
and the text ends with a closing brace in this literal. -/
theorem isBalanced_iff (source : String) (hsize : source.length < Nat.pow 2 32) :
    isBalanced source = true ↔ OneGroup source.toList ∨ EndsInLiteral source.toList := by
  rw [← String.length_toList] at hsize
  have hfront : ∀ {front blanks : List Char}, source.toList = front ++ '}' :: blanks →
      front.length < Nat.pow 2 32 := by
    intro front blanks htext
    rw [htext, List.length_append] at hsize
    omega
  rw [isBalanced_iff_count]
  constructor
  · rintro ⟨hcount, front, blanks, htext, hblanks⟩
    have hshort := hfront htext
    rw [htext] at hcount
    rcases exists_outside front with ⟨code, hcode⟩ | ⟨before, literal, code, rfl, hcode, hopen⟩
    · obtain ⟨before, inner, rfl, hbefore, hinner⟩ :=
        (BraceCount.after?_eq_open_iff (Nat.lt_of_le_of_lt hcode.length_le hshort)).mp
          ((countBraces?_brace_iff hcode hblanks).mp hcount)
      exact .inl ⟨front, blanks, before, inner, htext, hblanks, hcode, hbefore, hinner⟩
    · rw [List.length_append] at hshort
      rw [List.append_assoc] at hcount
      have hgroup := (countBraces?_openLiteral_iff hcode (hopen.append_brace hblanks)
        (Nat.lt_of_add_right_lt hshort)).mp hcount
      exact .inr ⟨before, literal, blanks, code, htext, hblanks, hcode, hgroup, hopen⟩
  · rintro (⟨front, blanks, before, inner, htext, hblanks, hcode, hbefore, hinner⟩ |
      ⟨front, literal, blanks, code, htext, hblanks, hcode, hgroup, hopen⟩)
    · refine ⟨?_, front, blanks, htext, hblanks⟩
      rw [htext, countBraces?_brace_iff hcode hblanks]
      exact BraceCount.after?_eq_open hbefore hinner
    · have hshort := hfront htext
      rw [List.length_append] at hshort
      refine ⟨?_, front ++ literal, blanks, htext, hblanks⟩
      rw [htext, List.append_assoc, countBraces?_openLiteral_iff hcode
        (hopen.append_brace hblanks) (Nat.lt_of_add_right_lt hshort)]
      exact hgroup

/-- A class with a brace in a string is one group, as the check finds. -/
theorem braceInString_oneGroup :
    let source := "class A \x7b\n    String s() \x7b return \"\x7d\"; \x7d\n\x7d\n"
    source.length < Nat.pow 2 32 ∧ isBalanced source = true ∧
      (OneGroup source.toList ∨ EndsInLiteral source.toList) := by
  intro source
  have hsize : source.length < Nat.pow 2 32 := by decide +kernel
  have hbalanced : isBalanced source = true := by decide +kernel
  exact ⟨hsize, hbalanced, (isBalanced_iff source hsize).mp hbalanced⟩

/-- After a group that is closed, the brace in an open literal passes for the end. -/
theorem braceInLiteral_isBalanced :
    isBalanced "\x7b\x7d'\x7d" = true ∧ ¬ OneGroup "\x7b\x7d'\x7d".toList := by
  refine ⟨by decide +kernel, ?_⟩
  rintro ⟨front, blanks, before, inner, htext, hblanks, hfront, hbefore, hinner⟩
  have hopen := BraceCount.after?_eq_open hbefore hinner
  have hcount := countBraces?_outside hfront {} []
  rw [List.append_nil, hopen] at hcount
  have htext : ['{', '}', '\''] ++ ['}'] = front ++ '}' :: blanks := htext
  rcases List.eq_nil_or_concat' blanks with rfl | ⟨others, last, rfl⟩
  · obtain ⟨rfl, -⟩ := List.append_inj' htext rfl
    cases hcount
  · rw [← List.cons_append, ← List.append_assoc] at htext
    obtain ⟨-, hlast⟩ := List.append_inj' htext rfl
    obtain rfl := (List.cons.inj hlast).1
    exact absurd (hblanks _ List.mem_concat_self) (by decide)

end JavaStubs.Source
