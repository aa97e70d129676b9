import PushNotificationKafka.Bytes
import Mathlib.Data.Nat.Digits.Lemmas

/-! JSON values and the RFC 8259 grammar, as a relation between the bytes of a
text and the value it denotes. Members of an object keep their order and their
duplicates. Bytes from 0x80 on stand for themselves; a surrogate half without
its partner denotes no Unicode text and has no derivation. -/
namespace Json
open Bytes

/-- `mantissa * 10 ^ exponent`, as the digits of the text spell it. -/
structure Decimal where
  mantissa : Int
  exponent : Int
deriving DecidableEq, Repr

inductive Value where
  | null
  | bool (value : Bool)
  | num (value : Decimal)
  | str (text : Bytes)
  | arr (elements : List Value)
  | obj (members : List (Bytes × Value))

namespace Value
def ofNat (n : Nat) : Value := .num ⟨n, 0⟩
end Value

abbrev quote : UInt8 := 0x22
abbrev backslash : UInt8 := 0x5c
abbrev comma : UInt8 := 0x2c
abbrev colon : UInt8 := 0x3a
abbrev lbracket : UInt8 := 0x5b
abbrev rbracket : UInt8 := 0x5d
abbrev lbrace : UInt8 := 0x7b
abbrev rbrace : UInt8 := 0x7d
abbrev minus : UInt8 := 0x2d
abbrev plus : UInt8 := 0x2b
abbrev dot : UInt8 := 0x2e
abbrev zero : UInt8 := 0x30
abbrev lowerU : UInt8 := 0x75

def isSpace (c : UInt8) : Bool := c == 0x20 || c == 0x09 || c == 0x0a || c == 0x0d

def isDigit (c : UInt8) : Bool := 0x30 ≤ c && c ≤ 0x39

/-- The `e` that opens an exponent, in either case. -/
def isE (c : UInt8) : Bool := c == 0x65 || c == 0x45

def Space (text : Bytes) : Prop := ∀ c ∈ text, isSpace c = true

def digitsValue (digits : Bytes) : Nat :=
  digits.foldl (fun n c => 10 * n + (c.toNat - 0x30)) 0

def Digits (text : Bytes) : Prop := text ≠ [] ∧ ∀ c ∈ text, isDigit c = true

/-- A leading zero stands alone. -/
def IntPart (text : Bytes) : Prop := Digits text ∧ (text.head? = some zero → text.length = 1)

instance (text : Bytes) : Decidable (Digits text) :=
  decidable_of_iff ((!text.isEmpty && text.all isDigit) = true) (by simp [Digits])

instance (text : Bytes) : Decidable (IntPart text) :=
  decidable_of_iff (Digits text ∧ (text.head? = some zero → text.length = 1)) Iff.rfl

inductive Frac : Bytes → Bytes → Prop where
  | absent : Frac [] []
  | digits : Digits ds → Frac (dot :: ds) ds

inductive Exponent : Bytes → Int → Prop where
  | absent : Exponent [] 0
  | unsigned : isE e = true → Digits ds → Exponent (e :: ds) (digitsValue ds)
  | plus : isE e = true → Digits ds → Exponent (e :: plus :: ds) (digitsValue ds)
  | minus : isE e = true → Digits ds → Exponent (e :: minus :: ds) (-digitsValue ds)

inductive Unsigned : Bytes → Decimal → Prop where
  | mk : IntPart i → Frac f ds → Exponent x e →
      Unsigned (i ++ (f ++ x)) ⟨digitsValue (i ++ ds), e - ds.length⟩

def Decimal.negate (d : Decimal) : Decimal := ⟨-d.mantissa, d.exponent⟩

inductive Number : Bytes → Decimal → Prop where
  | unsigned : Unsigned text d → Number text d
  | negative : Unsigned text d → Number (minus :: text) d.negate

def unescape (c : UInt8) : Option UInt8 :=
  if c = quote then some quote
  else if c = backslash then some backslash
  else if c = ascii '/' then some (ascii '/')
  else if c = ascii 'b' then some 0x08
  else if c = ascii 'f' then some 0x0c
  else if c = ascii 'n' then some 0x0a
  else if c = ascii 'r' then some 0x0d
  else if c = ascii 't' then some 0x09
  else none

def hexDigit (c : UInt8) : Option Nat :=
  if isDigit c then some (c.toNat - 0x30)
  else if 0x61 ≤ c ∧ c ≤ 0x66 then some (c.toNat - 0x61 + 10)
  else if 0x41 ≤ c ∧ c ≤ 0x46 then some (c.toNat - 0x41 + 10)
  else none

def hex4 (a b c d : UInt8) : Option Nat := do
  let a ← hexDigit a
  let b ← hexDigit b
  let c ← hexDigit c
  let d ← hexDigit d
  return ((a * 16 + b) * 16 + c) * 16 + d

def highSurrogate (n : Nat) : Bool := 0xd800 ≤ n && n < 0xdc00
def lowSurrogate (n : Nat) : Bool := 0xdc00 ≤ n && n < 0xe000

def combine (high low : Nat) : Nat := 0x10000 + (high - 0xd800) * 0x400 + (low - 0xdc00)

def utf8 (n : Nat) : Bytes := String.utf8EncodeChar (Char.ofNat n)

/-- `StringBody body s`: what stands between the quotes, and what it decodes to. -/
inductive StringBody : Bytes → Bytes → Prop where
  | nil : StringBody [] []
  | plain : plainByte c = true → StringBody body s → StringBody (c :: body) (c :: s)
  | escape : unescape e = some c → StringBody body s →
      StringBody (backslash :: e :: body) (c :: s)
  | unicode : hex4 a b c d = some n → highSurrogate n = false → lowSurrogate n = false →
      StringBody body s → StringBody (backslash :: lowerU :: a :: b :: c :: d :: body) (utf8 n ++ s)
  | pair : hex4 a b c d = some high → highSurrogate high = true →
      hex4 e f g h = some low → lowSurrogate low = true → StringBody body s →
      StringBody (backslash :: lowerU :: a :: b :: c :: d ::
        backslash :: lowerU :: e :: f :: g :: h :: body) (utf8 (combine high low) ++ s)

mutual
inductive Denotes : Bytes → Value → Prop where
  | null : Denotes (lit "null") .null
  | true : Denotes (lit "true") (.bool true)
  | false : Denotes (lit "false") (.bool false)
  | num : Number text d → Denotes text (.num d)
  | str : StringBody body s → Denotes (quote :: (body ++ [quote])) (.str s)
  | emptyArr : Space w → Denotes (lbracket :: (w ++ [rbracket])) (.arr [])
  | arr : Elements text vs → Denotes (lbracket :: (text ++ [rbracket])) (.arr vs)
  | emptyObj : Space w → Denotes (lbrace :: (w ++ [rbrace])) (.obj [])
  | obj : Members text ms → Denotes (lbrace :: (text ++ [rbrace])) (.obj ms)

inductive Element : Bytes → Value → Prop where
  | mk : Space w → Denotes text v → Space w' → Element (w ++ (text ++ w')) v

inductive Elements : Bytes → List Value → Prop where
  | last : Element text v → Elements text [v]
  | next : Element text v → Elements rest vs → Elements (text ++ comma :: rest) (v :: vs)

inductive Member : Bytes → Bytes × Value → Prop where
  | mk : Space w → StringBody body key → Space w' → Element text v →
      Member (w ++ quote :: (body ++ quote :: (w' ++ colon :: text))) (key, v)

inductive Members : Bytes → List (Bytes × Value) → Prop where
  | last : Member text m → Members text [m]
  | next : Member text m → Members rest ms → Members (text ++ comma :: rest) (m :: ms)
end

/-- A whole JSON text: one value, with nothing but white space around it. -/
def Document (text : Bytes) (v : Value) : Prop := Element text v

end Json
