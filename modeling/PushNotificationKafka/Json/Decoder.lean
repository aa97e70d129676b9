import PushNotificationKafka.Json.Syntax

/-! A JSON decoder over bytes. Every reader consumes a prefix of its input and
returns what follows it. The value readers share one fuel argument that bounds
their nesting; `decode` supplies enough of it for the whole text. -/
namespace Json
open Bytes

/-- A reader's result under `f`, with the same rest. -/
def mapRest (f : α → β) (read : Option (α × Bytes)) : Option (β × Bytes) :=
  read.map fun (a, rest) => (f a, rest)

def skipSpace (s : Bytes) : Bytes := s.dropWhile isSpace

def readFrac : Bytes → Option (Bytes × Bytes)
  | [] => some ([], [])
  | c :: rest =>
    if c = dot then
      let ds := rest.takeWhile isDigit
      if Digits ds then some (ds, rest.dropWhile isDigit) else none
    else some ([], c :: rest)

/-- The digits of an exponent, of which there must be some. -/
def readExponentDigits (rest : Bytes) : Option (Nat × Bytes) :=
  let ds := rest.takeWhile isDigit
  if Digits ds then some (digitsValue ds, rest.dropWhile isDigit) else none

def readExponent : Bytes → Option (Int × Bytes)
  | [] => some (0, [])
  | c :: rest =>
    if isE c then
      match rest with
      | [] => none
      | sign :: digits =>
        if sign = plus then mapRest (fun n : Nat => (n : Int)) (readExponentDigits digits)
        else if sign = minus then mapRest (fun n : Nat => -(n : Int)) (readExponentDigits digits)
        else mapRest (fun n : Nat => (n : Int)) (readExponentDigits rest)
    else some (0, c :: rest)

def readUnsigned (s : Bytes) : Option (Decimal × Bytes) :=
  let i := s.takeWhile isDigit
  if IntPart i then
    match readFrac (s.dropWhile isDigit) with
    | none => none
    | some (ds, rest) =>
      mapRest (fun e => ⟨digitsValue (i ++ ds), e - ds.length⟩) (readExponent rest)
  else none

def readNumber : Bytes → Option (Decimal × Bytes)
  | [] => none
  | c :: rest =>
    if c = minus then mapRest Decimal.negate (readUnsigned rest)
    else readUnsigned (c :: rest)

/-- Reads up to and including the closing quote. -/
def readBody : Bytes → Option (Bytes × Bytes)
  | [] => none
  | c :: rest =>
    if c = quote then some ([], rest)
    else if c = backslash then
      match rest with
      | [] => none
      | e :: rest =>
        if e = lowerU then
          match rest with
          | a :: b :: c :: d :: rest =>
            match hex4 a b c d with
            | none => none
            | some high =>
              if highSurrogate high then
                match rest with
                | b₁ :: b₂ :: e :: f :: g :: h :: rest =>
                  if b₁ = backslash ∧ b₂ = lowerU then
                    match hex4 e f g h with
                    | none => none
                    | some low =>
                      if lowSurrogate low then
                        mapRest (utf8 (combine high low) ++ ·) (readBody rest)
                      else none
                  else none
                | _ => none
              else if lowSurrogate high then none
              else mapRest (utf8 high ++ ·) (readBody rest)
          | _ => none
        else
          match unescape e with
          | none => none
          | some c => mapRest (c :: ·) (readBody rest)
    else if plainByte c then mapRest (c :: ·) (readBody rest)
    else none

def readString : Bytes → Option (Bytes × Bytes)
  | [] => none
  | c :: rest => if c = quote then readBody rest else none

/-- One of the three literal names, whatever follows it. -/
def readName (s : Bytes) : Option (Value × Bytes) :=
  if lit "null" <+: s then some (.null, s.drop 4)
  else if lit "true" <+: s then some (.bool true, s.drop 4)
  else if lit "false" <+: s then some (.bool false, s.drop 5)
  else none

mutual
def readValue : Nat → Bytes → Option (Value × Bytes)
  | 0, _ => none
  | _ + 1, [] => none
  | fuel + 1, c :: rest =>
    if c = quote then mapRest .str (readBody rest)
    else if c = lbracket then
      match skipSpace rest with
      | [] => none
      | d :: after =>
        if d = rbracket then some (.arr [], after)
        else mapRest .arr (readElements fuel rest)
    else if c = lbrace then
      match skipSpace rest with
      | [] => none
      | d :: after =>
        if d = rbrace then some (.obj [], after)
        else mapRest .obj (readMembers fuel rest)
    else
      match readNumber (c :: rest) with
      | some (d, rest) => some (.num d, rest)
      | none => readName (c :: rest)

/-- A value with the white space around it. -/
def readElement : Nat → Bytes → Option (Value × Bytes)
  | 0, _ => none
  | fuel + 1, s => (readValue fuel (skipSpace s)).map fun (v, rest) => (v, skipSpace rest)

def readElements : Nat → Bytes → Option (List Value × Bytes)
  | 0, _ => none
  | fuel + 1, s =>
    match readElement fuel s with
    | none => none
    | some (_, []) => none
    | some (v, c :: rest) =>
      if c = comma then mapRest (v :: ·) (readElements fuel rest)
      else if c = rbracket then some ([v], rest)
      else none

def readMember : Nat → Bytes → Option ((Bytes × Value) × Bytes)
  | 0, _ => none
  | fuel + 1, s =>
    match readString (skipSpace s) with
    | none => none
    | some (key, rest) =>
      match skipSpace rest with
      | [] => none
      | c :: rest =>
        if c = colon then mapRest (key, ·) (readElement fuel rest) else none

def readMembers : Nat → Bytes → Option (List (Bytes × Value) × Bytes)
  | 0, _ => none
  | fuel + 1, s =>
    match readMember fuel s with
    | none => none
    | some (_, []) => none
    | some (m, c :: rest) =>
      if c = comma then mapRest (m :: ·) (readMembers fuel rest)
      else if c = rbrace then some ([m], rest)
      else none
end

/-- Four levels of readers per byte are more than any text can need. -/
def decode (s : Bytes) : Option Value :=
  match readElement (4 * s.length + 2) s with
  | some (v, []) => some v
  | _ => none

end Json
