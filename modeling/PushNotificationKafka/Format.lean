import PushNotificationKafka.Json.Writer

/-! Text formats. A format is a printer together with a reader that takes back what was
printed, whatever text comes after it; formats are put together from smaller ones. -/
open Bytes Json

structure Format (α : Type) where
  Fits : α → Prop
  print : α → Bytes
  read : Bytes → Option (α × Bytes)
  reads : Fits a → read (print a ++ rest) = some (a, rest)

namespace Format

/-- Reads a text that holds nothing else. -/
def readAll (f : Format α) (text : Bytes) : Option α :=
  match f.read text with
  | some (a, []) => some a
  | _ => none

theorem readAll_print (f : Format α) (fits : f.Fits a) : f.readAll (f.print a) = some a := by
  have read : f.read (f.print a ++ []) = some (a, []) := f.reads fits
  rw [List.append_nil] at read
  rw [readAll, read]

/-- Every text of the format may stand in a JSON string as it is. -/
def AlwaysPlain (f : Format α) : Prop := ∀ a, Plain (f.print a)

/-- A format that follows a fixed byte. -/
def after (c : UInt8) (f : Format α) : Format α where
  Fits := f.Fits
  print a := c :: f.print a
  read
    | [] => none
    | b :: text => if b = c then f.read text else none
  reads fits := by simp only [List.cons_append, if_true, f.reads fits]

theorem AlwaysPlain.after (plain : AlwaysPlain f) (byte : plainByte c = true) : AlwaysPlain (f.after c) :=
  fun a => plain_cons.mpr ⟨byte, plain a⟩

def pair (f : Format α) (g : Format β) : Format (α × β) where
  Fits p := f.Fits p.1 ∧ g.Fits p.2
  print p := f.print p.1 ++ g.print p.2
  read text := do
    let (a, text) ← f.read text
    let (b, text) ← g.read text
    return ((a, b), text)
  reads := by
    rintro ⟨a, b⟩ rest ⟨first, last⟩
    rw [List.append_assoc, f.reads first]
    simp only [Option.bind_eq_bind, Option.bind_some, g.reads last]
    rfl

theorem AlwaysPlain.pair (first : AlwaysPlain f) (last : AlwaysPlain g) : AlwaysPlain (f.pair g) :=
  fun p => plain_append.mpr ⟨first p.1, last p.2⟩

/-- Prints a value as another one, from which it is got back. -/
def via (f : Format α) (Fits : β → Prop) (parts : β → α) (of : α → Option β)
    (inner : ∀ b, Fits b → f.Fits (parts b)) (back : ∀ b, Fits b → of (parts b) = some b) : Format β where
  Fits := Fits
  print b := f.print (parts b)
  read text := do
    let (a, text) ← f.read text
    let b ← of a
    return (b, text)
  reads := by
    intro b rest fits
    rw [f.reads (inner b fits)]
    simp only [Option.bind_eq_bind, Option.bind_some, back b fits]
    rfl

theorem AlwaysPlain.via {f : Format α} {Fits : β → Prop} {parts : β → α} {of : α → Option β}
    {inner : ∀ b, Fits b → f.Fits (parts b)} {back : ∀ b, Fits b → of (parts b) = some b}
    (plain : AlwaysPlain f) : AlwaysPlain (f.via Fits parts of inner back) :=
  fun b => plain (parts b)

/-- The last digits of a number. -/
def digits : Nat → Nat → Bytes
  | 0, _ => []
  | width + 1, n => digits width (n / 10) ++ [digitByte (n % 10)]

theorem digits_length (width n : Nat) : (digits width n).length = width := by
  induction width generalizing n with
  | zero => rfl
  | succ width ih => rw [digits, List.length_append, ih, List.length_singleton]

theorem digits_isDigit (width n : Nat) : ∀ c ∈ digits width n, isDigit c = true := by
  induction width generalizing n with
  | zero => simp [digits]
  | succ width ih =>
    intro c member
    rw [digits, List.mem_append, List.mem_singleton] at member
    rcases member with higher | rfl
    · exact ih (n / 10) c higher
    · exact (digitByte_spec (Nat.mod_lt n (by decide))).1

theorem digits_value (fits : n < 10 ^ width) : digitsValue (digits width n) = n := by
  induction width generalizing n with
  | zero =>
    obtain rfl : n = 0 := by simpa using fits
    rfl
  | succ width ih =>
    have higher : n / 10 < 10 ^ width := by
      rw [Nat.div_lt_iff_lt_mul (by decide), ← Nat.pow_succ]
      exact fits
    have last := (digitByte_spec (Nat.mod_lt n (by decide : 0 < 10))).2.1
    rw [digits, digitsValue_append, ih higher, last]
    exact Nat.div_add_mod n 10

/-- A number of a fixed width, with leading zeros. -/
def number (width : Nat) : Format Nat where
  Fits n := n < 10 ^ width
  print := digits width
  read text :=
    if width ≤ text.length ∧ (text.take width).all isDigit = true then
      some (digitsValue (text.take width), text.drop width)
    else none
  reads := by
    intro n rest fits
    have wide := digits_length width n
    rw [List.take_left' wide, List.drop_left' wide, digits_value fits]
    apply if_pos
    refine ⟨?_, List.all_eq_true.mpr (digits_isDigit width n)⟩
    rw [List.length_append, wide]
    exact Nat.le_add_right width rest.length

theorem digit_plain (digit : isDigit c = true) : plainByte c = true := by
  simp only [isDigit, Bool.and_eq_true, decide_eq_true_eq] at digit
  obtain ⟨low, high⟩ := digit
  have printable : (0x20 : UInt8) ≤ c := UInt8.le_trans (by decide) low
  have noQuote : c ≠ 0x22 := by
    rintro rfl
    exact absurd low (by decide)
  have noBackslash : c ≠ 0x5c := by
    rintro rfl
    exact absurd high (by decide)
  simp [plainByte, printable, noQuote, noBackslash]

theorem number_plain (width : Nat) : AlwaysPlain (number width) :=
  fun n c member => digit_plain (digits_isDigit width n c member)

/-- A sign, which is a minus for `true`. -/
def sign : Format Bool where
  Fits _ := True
  print negative := [if negative then minus else plus]
  read
    | [] => none
    | c :: text =>
      if c = minus then some (true, text) else if c = plus then some (false, text) else none
  reads := by
    intro negative rest _
    cases negative <;> rfl

theorem sign_plain : AlwaysPlain sign := by
  intro negative
  cases negative <;> decide

end Format
