/-!
# UTF-16 units

The 16-bit units that a text is made of where characters are UTF-16: one for a character of the
basic plane, a leading and a trailing surrogate for any other.
-/
namespace JavaStubs.Text

/-- The units of a character. -/
def unitsOf (c : Char) : List Nat :=
  if c.toNat < 0x10000 then [c.toNat]
  else
    let offset := c.toNat - 0x10000
    [0xD800 + offset / 0x400, 0xDC00 + offset % 0x400]

/-- The units of a text. -/
def units (s : List Char) : List Nat :=
  s.flatMap unitsOf

theorem lt_of_mem_unitsOf {c : Char} {unit : Nat} (h : unit ∈ unitsOf c) : unit < 0x10000 := by
  have hc : c.toNat < 0x110000 := by
    have := c.valid
    simp only [UInt32.isValidChar, Nat.isValidChar] at this
    simp only [Char.toNat]
    omega
  unfold unitsOf at h
  split at h
  · simp_all
  · simp only [List.mem_cons, List.not_mem_nil, or_false] at h
    omega

@[simp] theorem units_nil : units [] = [] := rfl

@[simp] theorem units_cons (c : Char) (s : List Char) : units (c :: s) = unitsOf c ++ units s := by
  simp [units]

end JavaStubs.Text
