import JavaStubs.Text.Blank
import JavaStubs.Text.Digit
import JavaStubs.Text.Split

/-!
# Modifiers

Access and storage modifiers form a set, held as the bits of a 32-bit word. Eleven bits have names;
the others are kept as they are, so that a set that was read can be written back without loss.

The text of a set is its names in the order of their bits, then the rest as one hexadecimal number,
with ` | ` between the parts. `Modifiers.parse` reads that text and any other order of the parts.
-/
namespace JavaStubs

/-- A modifier that has a name. -/
inductive Modifier where
  | publicAccess
  | protectedAccess
  | privateAccess
  | static
  | final
  | synchronized
  | volatile
  | transient
  | native
  | abstract
  | synthetic
  deriving DecidableEq, Repr

namespace Modifier

/-- Every modifier, in the order of the bits. -/
def all : List Modifier :=
  [.publicAccess, .protectedAccess, .privateAccess, .static, .final, .synchronized, .volatile,
   .transient, .native, .abstract, .synthetic]

theorem mem_all (m : Modifier) : m ∈ all := by
  cases m <;> decide

/-- The bit that stands for the modifier. -/
def bit : Modifier → Nat
  | .publicAccess => 0
  | .protectedAccess => 1
  | .privateAccess => 2
  | .static => 3
  | .final => 4
  | .synchronized => 5
  | .volatile => 6
  | .transient => 7
  | .native => 8
  | .abstract => 9
  | .synthetic => 10

theorem bit_injective {m n : Modifier} (h : m.bit = n.bit) : m = n := by
  cases m <;> cases n <;> first | rfl | exact absurd h (by decide)

theorem bit_lt (m : Modifier) : m.bit < 11 := by
  cases m <;> decide

/-- The name of the modifier in the text of a set. -/
def name : Modifier → String
  | .publicAccess => "PUBLIC"
  | .protectedAccess => "PROTECTED"
  | .privateAccess => "PRIVATE"
  | .static => "STATIC"
  | .final => "FINAL"
  | .synchronized => "SYNCHRONIZED"
  | .volatile => "VOLATILE"
  | .transient => "TRANSIENT"
  | .native => "NATIVE"
  | .abstract => "ABSTRACT"
  | .synthetic => "SYNTHETIC"

/-- The modifier of that name. -/
def ofName? (text : String) : Option Modifier :=
  all.find? fun m => m.name == text

@[simp] theorem ofName?_name (m : Modifier) : ofName? m.name = some m := by
  cases m <;> decide

/-- The keyword a stub prints for the modifier. The others change nothing for a caller. -/
def keyword? : Modifier → Option String
  | .publicAccess => some "public"
  | .protectedAccess => some "protected"
  | .privateAccess => some "private"
  | .static => some "static"
  | .synchronized => some "synchronized"
  | .abstract => some "abstract"
  | _ => none

end Modifier

/-- A set of modifiers, with bits that have no name. -/
structure Modifiers where
  bits : BitVec 32
  deriving DecidableEq, Repr

namespace Modifiers

/-- The set without modifiers. -/
def empty : Modifiers := ⟨0⟩

instance : EmptyCollection Modifiers := ⟨empty⟩

instance : Inhabited Modifiers := ⟨empty⟩

/-- Whether the set has the modifier. -/
def contains (s : Modifiers) (m : Modifier) : Bool :=
  s.bits.getLsbD m.bit

/-- The set with the modifier. -/
def insert (s : Modifiers) (m : Modifier) : Modifiers :=
  ⟨s.bits ||| BitVec.twoPow 32 m.bit⟩

/-- The set without the modifier. -/
def erase (s : Modifiers) (m : Modifier) : Modifiers :=
  ⟨s.bits &&& ~~~(BitVec.twoPow 32 m.bit)⟩

/-- The modifiers and bits of both sets. -/
def union (s t : Modifiers) : Modifiers :=
  ⟨s.bits ||| t.bits⟩

/-- The set of the modifiers of a list. -/
def ofList (ms : List Modifier) : Modifiers :=
  ms.foldl insert empty

/-- The set with the modifier exactly if `present`. -/
def set (s : Modifiers) (m : Modifier) (present : Bool) : Modifiers :=
  if present then s.insert m else s.erase m

@[simp] theorem contains_empty (m : Modifier) : contains empty m = false := by
  simp [contains, empty]

theorem contains_insert (s : Modifiers) (m n : Modifier) :
    (s.insert m).contains n = (s.contains n || decide (m = n)) := by
  have hm : m.bit < 32 := by have := m.bit_lt; omega
  by_cases hmn : m = n
  · subst hmn
    simp [contains, insert, hm]
  · have hne : m.bit ≠ n.bit := fun hb => hmn (Modifier.bit_injective hb)
    simp [contains, insert, BitVec.getLsbD_or, BitVec.getLsbD_twoPow, hmn, hne]

@[simp] theorem contains_insert_self (s : Modifiers) (m : Modifier) :
    (s.insert m).contains m = true := by
  simp [contains_insert]

theorem contains_erase (s : Modifiers) (m n : Modifier) :
    (s.erase m).contains n = (s.contains n && !decide (m = n)) := by
  have hn : n.bit < 32 := by have := n.bit_lt; omega
  by_cases hmn : m = n
  · subst hmn
    simp [contains, erase, hn]
  · have hne : n.bit ≠ m.bit := fun hb => hmn (Modifier.bit_injective hb.symm)
    simp [contains, erase, hmn, hn, hne]

@[simp] theorem contains_erase_self (s : Modifiers) (m : Modifier) :
    (s.erase m).contains m = false := by
  simp [contains_erase]

@[simp] theorem contains_set_self (s : Modifiers) (m : Modifier) (present : Bool) :
    (s.set m present).contains m = present := by
  cases present <;> simp [set]

/-- The keywords of the set, in the order in which Java code has them. -/
def keywords (s : Modifiers) : List String :=
  (Modifier.all.filter s.contains).filterMap Modifier.keyword?

/-- The bits that have no name. -/
def unnamed (s : Modifiers) : BitVec 32 :=
  s.bits >>> 11 <<< 11

/-- The parts of the set's text. -/
def parts (s : Modifiers) : List String :=
  (Modifier.all.filter s.contains).map Modifier.name ++
    if s.unnamed = 0 then [] else ["0x" ++ String.ofList (Nat.toDigits 16 s.unnamed.toNat)]

/-- The text of the set. -/
def text (s : Modifiers) : String :=
  Text.join " | " s.parts

/-- What can be wrong with the text of a set. -/
inductive Problem where
  /-- Nothing stands before, between or after the bars. -/
  | emptyFlag
  /-- A number has a bad digit, no digit, or more than 32 bits. -/
  | invalidHex (digits : String)
  /-- A part is neither a name nor a number. -/
  | unknownName (name : String)
  deriving DecidableEq, Repr

/-- The wording of a problem. -/
def Problem.message : Problem → String
  | .emptyFlag => "encountered empty flag"
  | .invalidHex digits => "invalid hex flag `" ++ digits ++ "`"
  | .unknownName name => "unrecognized named flag `" ++ name ++ "`"

/-- The bits of a number after `0x`; a plus sign may stand before the digits. -/
def hexBits? (digits : String) : Option (BitVec 32) :=
  let plain := match digits.toList with
    | '+' :: rest => rest
    | all => all
  match Text.number? 16 plain with
  | some value => if value < Nat.pow 2 32 then some (BitVec.ofNat 32 value) else none
  | none => none

/-- The set that one part of a text stands for. -/
def parsePart (part : String) : Except Problem Modifiers :=
  let part := Text.trim part
  match part.toList with
  | [] => .error .emptyFlag
  | '0' :: 'x' :: digits =>
    match hexBits? (String.ofList digits) with
    | some bits => .ok ⟨bits⟩
    | none => .error (.invalidHex (String.ofList digits))
  | _ =>
    match Modifier.ofName? part with
    | some m => .ok (empty.insert m)
    | none => .error (.unknownName part)

/-- The union of the sets that the parts stand for; the first bad part decides. -/
def parseParts : List String → Except Problem Modifiers
  | [] => .ok empty
  | part :: rest => do
    let first ← parsePart part
    let others ← parseParts rest
    return first.union others

/-- Reads the text of a set; a blank text is the empty set. -/
def parse (text : String) : Except Problem Modifiers :=
  if (Text.trim text).isEmpty then .ok empty
  else parseParts (Text.splitAt '|' text)

/-- Whether the set has `public`. -/
def isPublic (s : Modifiers) : Bool := s.contains .publicAccess

/-- Whether the set has `protected`. -/
def isProtected (s : Modifiers) : Bool := s.contains .protectedAccess

/-- Whether the set has `private`. -/
def isPrivate (s : Modifiers) : Bool := s.contains .privateAccess

/-- Whether the set has `static`. -/
def isStatic (s : Modifiers) : Bool := s.contains .static

/-- Whether the set has `abstract`. -/
def isAbstract (s : Modifiers) : Bool := s.contains .abstract

/-- Whether the set marks a member that no source declares. -/
def isSynthetic (s : Modifiers) : Bool := s.contains .synthetic

end Modifiers

end JavaStubs
