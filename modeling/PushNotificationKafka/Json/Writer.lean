import PushNotificationKafka.Json.Completeness

/-! Building a text from left to right. An object or an array under
construction is its text without the closing bracket; every step of a writer
keeps the grammar derivation of what it has written so far. -/
namespace Json
open Bytes

theorem StringBody.append (first : StringBody left s) (last : StringBody right t) :
    StringBody (left ++ right) (s ++ t) := by
  induction first with
  | nil => exact last
  | plain plain _ ih => exact .plain plain ih
  | escape short _ ih => exact .escape short ih
  | unicode hex notHigh notLow _ ih =>
    simpa only [List.append_assoc, List.cons_append] using StringBody.unicode hex notHigh notLow ih
  | pair highHex isHigh lowHex isLow _ ih =>
    simpa only [List.append_assoc, List.cons_append] using
      StringBody.pair highHex isHigh lowHex isLow ih

theorem StringBody.of_plain (plain : Plain s) : StringBody s s := by
  induction s with
  | nil => exact .nil
  | cons c s ih =>
    obtain ⟨head, tail⟩ := plain_cons.mp plain
    exact .plain head (ih tail)

/-- `escape s` may stand between quotes for `s`, whatever the bytes of `s`. -/
def Escapes (escape : Bytes → Bytes) : Prop := ∀ s, StringBody (escape s) s

def hexByte (d : Nat) : UInt8 := (if d < 10 then 0x30 + d else 0x61 + (d - 10)).toUInt8

/-- The escaped form of one byte: a short escape where JSON has one, `\u00xx` for
the other control bytes, and the byte itself otherwise. -/
def escapeByte (c : UInt8) : Bytes :=
  if c = quote then [backslash, quote]
  else if c = backslash then [backslash, backslash]
  else if c = 0x08 then [backslash, ascii 'b']
  else if c = 0x0c then [backslash, ascii 'f']
  else if c = 0x0a then [backslash, ascii 'n']
  else if c = 0x0d then [backslash, ascii 'r']
  else if c = 0x09 then [backslash, ascii 't']
  else if c < 0x20 then
    [backslash, lowerU, zero, zero, hexByte (c.toNat / 16), hexByte (c.toNat % 16)]
  else [c]

def escape (s : Bytes) : Bytes := s.flatMap escapeByte

theorem hex4_control : ∀ n < 0x20, hex4 zero zero (hexByte (n / 16)) (hexByte (n % 16)) = some n ∧
    highSurrogate n = false ∧ lowSurrogate n = false ∧ utf8 n = [n.toUInt8] := by decide

theorem escapeByte_body (c : UInt8) : StringBody (escapeByte c) [c] := by
  have short {d e : UInt8} (same : c = d) (found : unescape e = some d) :
      StringBody [backslash, e] [c] := by
    rw [same]
    exact .escape found .nil
  unfold escapeByte
  split
  · rename_i same; exact short same rfl
  split
  · rename_i same; exact short same rfl
  split
  · rename_i same; exact short same rfl
  split
  · rename_i same; exact short same rfl
  split
  · rename_i same; exact short same rfl
  split
  · rename_i same; exact short same rfl
  split
  · rename_i same; exact short same rfl
  split
  · rename_i control
    obtain ⟨hex, notHigh, notLow, encoded⟩ := hex4_control c.toNat (UInt8.lt_iff_toNat_lt.mp control)
    have body := StringBody.unicode hex notHigh notLow .nil
    rw [encoded, Nat.toUInt8_eq, UInt8.ofNat_toNat] at body
    exact body
  · rename_i notQuote notBackslash _ _ _ _ _ printable
    have plain : plainByte c = true := by
      simp only [plainByte, Bool.and_eq_true, decide_eq_true_eq, bne_iff_ne, ne_eq]
      exact ⟨⟨UInt8.not_lt.mp printable, notQuote⟩, notBackslash⟩
    exact .plain plain .nil

theorem escape_escapes : Escapes escape := by
  intro s
  induction s with
  | nil => exact .nil
  | cons c s ih => exact (escapeByte_body c).append ih

def digitByte (d : Nat) : UInt8 := (0x30 + d).toUInt8

/-- The digits of `n` without leading zeros, as `%u` prints them. -/
def decimal (n : Nat) : Bytes :=
  if n = 0 then [zero] else (Nat.digits 10 n).reverse.map digitByte

theorem digitByte_spec (small : d < 10) :
    isDigit (digitByte d) = true ∧ (digitByte d).toNat - 0x30 = d ∧ (digitByte d = zero → d = 0) := by
  have all : ∀ d < 10, isDigit (digitByte d) = true ∧ (digitByte d).toNat - 0x30 = d ∧
      (digitByte d = zero → d = 0) := by decide
  exact all d small

theorem digitsValue_append (left : Bytes) (c : UInt8) :
    digitsValue (left ++ [c]) = 10 * digitsValue left + (c.toNat - 0x30) := by
  simp [digitsValue]

theorem digitsValue_digits (small : ∀ d ∈ ds, d < 10) :
    digitsValue (ds.reverse.map digitByte) = Nat.ofDigits 10 ds := by
  induction ds with
  | nil => rfl
  | cons d ds ih =>
    have value := ih (fun e member => small e (List.mem_cons_of_mem d member))
    have digit := (digitByte_spec (small d List.mem_cons_self)).2.1
    rw [List.reverse_cons, List.map_append, List.map_singleton, digitsValue_append, value, digit,
      Nat.ofDigits_cons]
    omega

theorem decimal_value (n : Nat) : digitsValue (decimal n) = n := by
  unfold decimal
  split
  · rename_i none
    rw [none]
    rfl
  · rw [digitsValue_digits (fun d member => Nat.digits_lt_base (by decide) member)]
    exact Nat.ofDigits_digits 10 n

theorem decimal_intPart (n : Nat) : IntPart (decimal n) := by
  unfold decimal
  split
  · decide
  · rename_i positive
    have small : ∀ d ∈ Nat.digits 10 n, d < 10 :=
      fun d member => Nat.digits_lt_base (by decide) member
    have nonempty : Nat.digits 10 n ≠ [] := Nat.digits_ne_nil_iff_ne_zero.mpr positive
    refine ⟨⟨by simpa using nonempty, ?_⟩, ?_⟩
    · intro c member
      simp only [List.mem_map, List.mem_reverse] at member
      obtain ⟨d, digit, rfl⟩ := member
      exact (digitByte_spec (small d digit)).1
    · -- The first byte printed is the last digit, which is not zero.
      intro head
      rw [List.head?_map, List.head?_reverse, List.getLast?_eq_getLast_of_ne_nil nonempty] at head
      have last := Nat.getLast_digit_ne_zero 10 positive
      have leading := small _ (List.getLast_mem nonempty)
      exact absurd ((digitByte_spec leading).2.2 (Option.some.inj head)) last

theorem decimal_denotes (n : Nat) : Denotes (decimal n) (.ofNat n) := by
  have whole : Unsigned (decimal n ++ ([] ++ [])) ⟨digitsValue (decimal n ++ []), 0 - ([] : Bytes).length⟩ :=
    .mk (decimal_intPart n) .absent .absent
  simp only [List.append_nil, decimal_value] at whole
  exact .num (.unsigned whole)

theorem space_nil : Space [] := fun _ member => (List.not_mem_nil member).elim

theorem Element.of_denotes (derived : Denotes text v) : Element text v := by
  simpa only [List.nil_append, List.append_nil] using Element.mk space_nil derived space_nil

theorem Member.of_parts (body : StringBody name key) (derived : Denotes text v) :
    Member (quote :: (name ++ quote :: colon :: text)) (key, v) := by
  simpa only [List.nil_append] using Member.mk space_nil body space_nil (.of_denotes derived)

theorem Members.snoc (first : Members text ms) (last : Member other m) :
    Members (text ++ comma :: other) (ms ++ [m]) := by
  induction ms generalizing text with
  | nil => cases first
  | cons _ ms ih =>
    cases first with
    | last member => exact .next member (.last last)
    | next member others =>
      rw [List.append_assoc, List.cons_append, List.cons_append]
      exact .next member (ih others)

theorem Elements.snoc (first : Elements text vs) (last : Element other v) :
    Elements (text ++ comma :: other) (vs ++ [v]) := by
  induction vs generalizing text with
  | nil => cases first
  | cons _ vs ih =>
    cases first with
    | last element => exact .next element (.last last)
    | next element others =>
      rw [List.append_assoc, List.cons_append, List.cons_append]
      exact .next element (ih others)

/-- An object text up to its last member, without the closing brace. -/
def OpenObject (text : Bytes) (ms : List (Bytes × Value)) : Prop :=
  ∃ tail, text = lbrace :: tail ∧ Members tail ms

namespace OpenObject

theorem first (member : Member text m) : OpenObject (lbrace :: text) [m] :=
  ⟨text, rfl, .last member⟩

theorem add (opened : OpenObject text ms) (member : Member other m) :
    OpenObject (text ++ comma :: other) (ms ++ [m]) := by
  obtain ⟨tail, rfl, members⟩ := opened
  exact ⟨_, List.cons_append, members.snoc member⟩

theorem close (opened : OpenObject text ms) : Denotes (text ++ [rbrace]) (.obj ms) := by
  obtain ⟨tail, rfl, members⟩ := opened
  exact .obj members

end OpenObject

/-- An array text up to its last element, without the closing bracket. -/
def OpenArray (text : Bytes) (vs : List Value) : Prop :=
  (text = [lbracket] ∧ vs = []) ∨ ∃ tail, text = lbracket :: tail ∧ Elements tail vs

namespace OpenArray

theorem empty : OpenArray [lbracket] [] := .inl ⟨rfl, rfl⟩

/-- A comma goes before every element but the first. -/
theorem add (opened : OpenArray text vs) (derived : Denotes other v) :
    OpenArray (text ++ (if vs = [] then other else comma :: other)) (vs ++ [v]) := by
  have element := Element.of_denotes derived
  rcases opened with ⟨rfl, rfl⟩ | ⟨tail, rfl, elements⟩
  · exact .inr ⟨other, rfl, .last element⟩
  · have nonempty : vs ≠ [] := by rintro rfl; cases elements
    rw [if_neg nonempty]
    exact .inr ⟨_, List.cons_append, elements.snoc element⟩

theorem close (opened : OpenArray text vs) : Denotes (text ++ [rbracket]) (.arr vs) := by
  rcases opened with ⟨rfl, rfl⟩ | ⟨tail, rfl, elements⟩
  · exact Denotes.emptyArr space_nil
  · exact .arr elements

end OpenArray

/-- `,"key":` -/
def opening (key : Bytes) : Bytes := comma :: quote :: (key ++ [quote, colon])

namespace OpenObject

theorem addValue (opened : OpenObject text ms) (key : Bytes) (derived : Element value v)
    (plain : Plain key := by decide) :
    OpenObject (text ++ (opening key ++ value)) (ms ++ [(key, v)]) := by
  have member := opened.add (.mk space_nil (.of_plain plain) space_nil derived)
  simpa only [opening, List.append_assoc, List.cons_append, List.nil_append] using member

theorem addText (opened : OpenObject text ms) (key : Bytes) {inner : Bytes} (body : StringBody inner s)
    (plain : Plain key := by decide) :
    OpenObject (text ++ (opening key ++ quote :: (inner ++ [quote]))) (ms ++ [(key, .str s)]) :=
  opened.addValue key (.of_denotes (.str body)) plain

theorem addArray (opened : OpenObject text ms) (key : Bytes) {inner : Bytes}
    (array : OpenArray (lbracket :: inner) vs) (plain : Plain key := by decide) :
    OpenObject (text ++ (opening key ++ lbracket :: (inner ++ [rbracket]))) (ms ++ [(key, .arr vs)]) :=
  opened.addValue key (.of_denotes array.close) plain

theorem unterminated (opened : OpenObject text ms) (key : Bytes) {inner : Bytes} (inside : Plain inner)
    (plain : Plain key := by decide) :
    decode (text ++ (opening key ++ quote :: inner)) = none := by
  obtain ⟨tail, rfl, members⟩ := opened
  have none := decode_unterminated members (.of_plain plain) inside
  simpa only [opening, List.append_assoc, List.cons_append, List.nil_append] using none

end OpenObject
end Json
