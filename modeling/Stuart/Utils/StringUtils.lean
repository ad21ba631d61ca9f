/-
Strings, and the test for a blank one.

A Java string is taken as the list of its characters, that is of its code points; where its length
counts, it is that in units of UTF-16.
-/
import Mathlib.Data.Nat.Notation

namespace Stuart

abbrev Str := List Char

instance : LawfulBEq Str := inferInstanceAs (LawfulBEq (List Char))

namespace StringUtils

/-- `Character.isWhitespace`: the separators of Unicode but for the ones that do not break a line,
and some control characters. -/
def isWhitespace (c : Char) : Bool :=
  let n := c.toNat
  decide (0x9 ≤ n ∧ n ≤ 0xd) || decide (0x1c ≤ n ∧ n ≤ 0x20) || decide (n = 0x1680) ||
    decide (0x2000 ≤ n ∧ n ≤ 0x200a ∧ n ≠ 0x2007) || decide (n = 0x2028) || decide (n = 0x2029) ||
    decide (n = 0x205f) || decide (n = 0x3000)

def isBlank : Option Str → Bool
  | none => true
  | some s => s.all isWhitespace

/-- `String.length`: a character beyond the first 65536 counts twice. -/
def utf16Length (s : Str) : ℕ := s.length + s.countP fun c => decide (0x10000 ≤ c.toNat)

end StringUtils

end Stuart
