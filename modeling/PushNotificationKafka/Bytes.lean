import Mathlib.Data.List.Basic

/-! Byte strings and their ASCII literals. A C string is the list of its bytes
before the terminating NUL; no encoding of the bytes is assumed. -/

abbrev Bytes := List UInt8

namespace Bytes

def ascii (c : Char) : UInt8 := c.toNat.toUInt8

/-- The bytes of an ASCII literal. -/
def lit (text : String) : Bytes := text.toList.map ascii

/-- A byte that a JSON string shows as itself: no quote, backslash or control. -/
def plainByte (c : UInt8) : Bool := 0x20 ≤ c && c != 0x22 && c != 0x5c

def Plain (text : Bytes) : Prop := ∀ c ∈ text, plainByte c = true

instance (text : Bytes) : Decidable (Plain text) :=
  decidable_of_iff (text.all plainByte = true) List.all_eq_true

theorem plain_cons : Plain (c :: text) ↔ plainByte c = true ∧ Plain text := by
  simp [Plain]

theorem plain_append : Plain (left ++ right) ↔ Plain left ∧ Plain right := by
  simp [Plain, or_imp, forall_and]

end Bytes
