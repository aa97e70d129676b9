import PushNotificationKafka.Json.Soundness

/-! What the grammar derives, the decoder reads, whatever follows the text. Only
a number needs to know that it ends: its readers take the longest match. -/
namespace Json
open Bytes

/-- No number text can go on with `rest`. -/
def NumberEnd (rest : Bytes) : Prop :=
  ∀ c, rest.head? = some c → isDigit c = false ∧ c ≠ dot ∧ isE c = false

theorem numberEnd_nil : NumberEnd [] := by
  intro c head
  cases head

theorem numberEnd_cons (other : isDigit c = false ∧ c ≠ dot ∧ isE c = false) :
    NumberEnd (c :: rest) := by
  intro d head
  obtain rfl := Option.some.inj head
  exact other

theorem numberEnd_space (white : Space w) (ends : NumberEnd rest) : NumberEnd (w ++ rest) := by
  cases w with
  | nil => exact ends
  | cons c w =>
    have space := white c List.mem_cons_self
    apply numberEnd_cons
    simp only [isSpace, Bool.or_eq_true, beq_iff_eq] at space
    rcases space with ((rfl | rfl) | rfl) | rfl <;> decide

/-- A run of `p` bytes that `rest` does not go on with is all the span reads. -/
theorem span_run {p : UInt8 → Bool} {run rest : Bytes} (inside : ∀ c ∈ run, p c = true)
    (stops : ∀ c, rest.head? = some c → p c = false) :
    (run ++ rest).takeWhile p = run ∧ (run ++ rest).dropWhile p = rest := by
  induction run with
  | nil =>
    cases rest with
    | nil => simp
    | cons c rest => simp [stops c rfl]
  | cons c run ih =>
    obtain ⟨taken, left⟩ := ih (fun d member => inside d (List.mem_cons_of_mem c member))
    simp [inside c List.mem_cons_self, taken, left]

theorem skipSpace_run {rest : Bytes} (white : Space w)
    (stops : ∀ c, rest.head? = some c → isSpace c = false) : skipSpace (w ++ rest) = rest :=
  (span_run white stops).2

theorem skipSpace_cons (other : isSpace c = false) : skipSpace (c :: rest) = c :: rest := by
  simp [skipSpace, other]

theorem skipSpace_before (white : Space w) (other : isSpace c = false) :
    skipSpace (w ++ c :: rest) = c :: rest := by
  apply skipSpace_run white
  intro d head
  obtain rfl := Option.some.inj head
  exact other

theorem mapRest_read (read : result = some (a, rest)) : mapRest f result = some (f a, rest) := by
  rw [read]
  rfl

theorem readExponentDigits_complete (digits : Digits ds) (ends : NumberEnd rest) :
    readExponentDigits (ds ++ rest) = some (digitsValue ds, rest) := by
  obtain ⟨taken, left⟩ := span_run digits.2 (fun c head => (ends c head).1)
  simp only [readExponentDigits, taken, left, if_pos digits]

theorem digits_head (digits : Digits ds) : ∃ c tail, ds = c :: tail ∧ isDigit c = true := by
  cases ds with
  | nil => exact absurd rfl digits.1
  | cons c tail => exact ⟨c, tail, rfl, digits.2 c List.mem_cons_self⟩

theorem readExponent_complete (derived : Exponent text e) (ends : NumberEnd rest) :
    readExponent (text ++ rest) = some (e, rest) := by
  cases derived with
  | absent =>
    cases rest with
    | nil => rfl
    | cons c rest => simp [readExponent, (ends c rfl).2.2]
  | @unsigned e ds opens digits =>
    obtain ⟨c, tail, rfl, digit⟩ := digits_head digits
    have noSign : c ≠ plus ∧ c ≠ minus := by
      constructor <;> (rintro rfl; exact absurd digit (by decide))
    have whole := readExponentDigits_complete digits ends
    simp only [List.cons_append] at whole
    simp only [List.cons_append, readExponent, opens, if_true, noSign.1, noSign.2, if_false, whole]
    rfl
  | plus opens digits =>
    simp only [List.cons_append, readExponent, opens, if_true,
      readExponentDigits_complete digits ends]
    rfl
  | minus opens digits =>
    have noPlus : minus ≠ plus := by decide
    simp only [List.cons_append, readExponent, opens, if_true, noPlus, if_false,
      readExponentDigits_complete digits ends]
    rfl

/-- An exponent starts with no digit and no point. -/
theorem exponent_end (derived : Exponent text e) (ends : NumberEnd rest) :
    ∀ c, (text ++ rest).head? = some c → isDigit c = false ∧ c ≠ dot := by
  intro c head
  have letter : isE c = true → isDigit c = false ∧ c ≠ dot := by
    intro opens
    simp only [isE, Bool.or_eq_true, beq_iff_eq] at opens
    rcases opens with rfl | rfl <;> decide
  cases derived with
  | absent => exact ⟨(ends c head).1, (ends c head).2.1⟩
  | unsigned opens | plus opens | minus opens =>
    obtain rfl := Option.some.inj head
    exact letter opens

theorem readFrac_complete {rest : Bytes} (derived : Frac text ds)
    (ends : ∀ c, rest.head? = some c → isDigit c = false ∧ c ≠ dot) :
    readFrac (text ++ rest) = some (ds, rest) := by
  cases derived with
  | absent =>
    cases rest with
    | nil => rfl
    | cons c rest => simp [readFrac, (ends c rfl).2]
  | digits digits =>
    obtain ⟨taken, left⟩ := span_run digits.2 (fun c head => (ends c head).1)
    simp only [List.cons_append, readFrac, if_true, taken, left, if_pos digits]

theorem frac_end {rest : Bytes} (derived : Frac text ds)
    (ends : ∀ c, rest.head? = some c → isDigit c = false ∧ c ≠ dot) :
    ∀ c, (text ++ rest).head? = some c → isDigit c = false := by
  intro c head
  cases derived with
  | absent => exact (ends c head).1
  | digits digits =>
    obtain rfl := Option.some.inj head
    decide

theorem readUnsigned_complete (derived : Unsigned text d) (ends : NumberEnd rest) :
    readUnsigned (text ++ rest) = some (d, rest) := by
  obtain ⟨whole, frac, exponent⟩ := derived
  have afterFrac := exponent_end exponent ends
  obtain ⟨taken, left⟩ := span_run whole.1.2 (frac_end frac afterFrac)
  simp only [readUnsigned, List.append_assoc, taken, left, if_pos whole,
    readFrac_complete frac afterFrac]
  exact mapRest_read (readExponent_complete exponent ends)

theorem unsigned_head (derived : Unsigned text d) :
    ∃ c tail, text = c :: tail ∧ isDigit c = true := by
  obtain ⟨whole, _, _⟩ := derived
  obtain ⟨c, tail, rfl, digit⟩ := digits_head whole.1
  exact ⟨c, _, rfl, digit⟩

theorem readNumber_complete (derived : Number text d) (ends : NumberEnd rest) :
    readNumber (text ++ rest) = some (d, rest) := by
  cases derived with
  | unsigned unsigned =>
    obtain ⟨c, tail, rfl, digit⟩ := unsigned_head unsigned
    have noSign : c ≠ minus := by rintro rfl; exact absurd digit (by decide)
    have whole := readUnsigned_complete unsigned ends
    simp only [List.cons_append] at whole
    simp only [List.cons_append, readNumber, noSign, if_false, whole]
  | negative unsigned =>
    simp only [List.cons_append, readNumber, if_true]
    exact mapRest_read (readUnsigned_complete unsigned ends)

theorem plain_distinct (plain : plainByte c = true) : c ≠ quote ∧ c ≠ backslash := by
  simp only [plainByte, Bool.and_eq_true, bne_iff_ne, ne_eq] at plain
  exact ⟨plain.1.2, plain.2⟩

theorem unescape_lowerU : unescape lowerU = none := by decide

theorem readBody_complete (derived : StringBody body s) :
    readBody (body ++ quote :: rest) = some (s, rest) := by
  have different : backslash ≠ quote := by decide
  induction derived with
  | nil =>
    rw [List.nil_append, readBody.eq_def]
    exact if_pos rfl
  | plain plain derived ih =>
    obtain ⟨notQuote, notBackslash⟩ := plain_distinct plain
    rw [List.cons_append, readBody.eq_def]
    simp only [notQuote, notBackslash, plain, if_true, if_false]
    exact mapRest_read ih
  | @escape e c body s short derived ih =>
    have notU : e ≠ lowerU := by
      rintro rfl
      rw [unescape_lowerU] at short
      contradiction
    rw [List.cons_append, List.cons_append, readBody.eq_def]
    simp only [different, notU, short, if_true, if_false]
    exact mapRest_read ih
  | unicode hex notHigh notLow derived ih =>
    simp only [List.cons_append]
    rw [readBody.eq_def]
    simp only [different, hex, notHigh, notLow, Bool.false_eq_true, if_true, if_false]
    exact mapRest_read ih
  | pair highHex isHigh lowHex isLow derived ih =>
    simp only [List.cons_append]
    rw [readBody.eq_def]
    simp only [different, highHex, isHigh, lowHex, isLow, and_self, if_true, if_false]
    exact mapRest_read ih

theorem readString_complete (derived : StringBody body s) :
    readString (quote :: (body ++ quote :: rest)) = some (s, rest) := by
  rw [readString, if_pos rfl]
  exact readBody_complete derived

/-- The first byte of a value tells it from white space and from a closing
bracket. -/
theorem denotes_head (derived : Denotes text v) :
    ∃ c tail, text = c :: tail ∧ isSpace c = false ∧ c ≠ rbracket := by
  cases derived with
  | num number =>
    cases number with
    | unsigned unsigned =>
      obtain ⟨c, tail, rfl, digit⟩ := unsigned_head unsigned
      refine ⟨c, tail, rfl, ?_, ?_⟩
      · by_contra space
        simp only [Bool.not_eq_false, isSpace, Bool.or_eq_true, beq_iff_eq] at space
        rcases space with ((rfl | rfl) | rfl) | rfl <;> exact absurd digit (by decide)
      · rintro rfl
        exact absurd digit (by decide)
    | negative unsigned => exact ⟨minus, _, rfl, by decide, by decide⟩
  | null | true | false => exact ⟨_, _, rfl, by decide, by decide⟩
  | str => exact ⟨quote, _, rfl, by decide, by decide⟩
  | emptyArr | arr => exact ⟨lbracket, _, rfl, by decide, by decide⟩
  | emptyObj | obj => exact ⟨lbrace, _, rfl, by decide, by decide⟩

theorem element_head (derived : Element text v) :
    ∃ w c tail, text = w ++ c :: tail ∧ Space w ∧ isSpace c = false ∧ c ≠ rbracket := by
  obtain ⟨white, derived, _⟩ := derived
  obtain ⟨c, tail, rfl, other, open_ne⟩ := denotes_head derived
  exact ⟨_, c, _, rfl, white, other, open_ne⟩

theorem elements_head (derived : Elements text vs) :
    ∃ w c tail, text = w ++ c :: tail ∧ Space w ∧ isSpace c = false ∧ c ≠ rbracket := by
  cases derived with
  | last first => exact element_head first
  | next first others =>
    obtain ⟨w, c, tail, rfl, white, other, open_ne⟩ := element_head first
    exact ⟨w, c, _, by rw [List.append_assoc, List.cons_append], white, other, open_ne⟩

theorem members_head (derived : Members text ms) :
    ∃ w tail, text = w ++ quote :: tail ∧ Space w := by
  cases derived with
  | last first =>
    obtain ⟨white, _, _, _⟩ := first
    exact ⟨_, _, rfl, white⟩
  | next first others =>
    obtain ⟨white, _, _, _⟩ := first
    exact ⟨_, _, List.append_assoc .., white⟩

/-- No reader of a literal name or of a string starts like a number. -/
theorem readNumber_none (noSign : c ≠ minus) (noDigit : isDigit c = false) :
    readNumber (c :: rest) = none := by
  have empty : ¬ IntPart ((c :: rest).takeWhile isDigit) := by
    rw [List.takeWhile_cons_of_neg (by simp [noDigit])]
    exact fun whole => whole.1.1 rfl
  simp only [readNumber, if_neg noSign, readUnsigned, if_neg empty]

theorem not_prefix (different : c ≠ d) : ¬ c :: left <+: d :: right :=
  fun starts => different (List.cons_prefix_cons.mp starts).1

theorem readValue_name (letter : c ≠ quote ∧ c ≠ lbracket ∧ c ≠ lbrace ∧ c ≠ minus ∧ isDigit c = false) :
    readValue (fuel + 1) (c :: rest) = readName (c :: rest) := by
  obtain ⟨notQuote, notBracket, notBrace, noSign, noDigit⟩ := letter
  rw [readValue, if_neg notQuote, if_neg notBracket, if_neg notBrace, readNumber_none noSign noDigit]

theorem readValue_null : readValue (fuel + 1) (lit "null" ++ rest) = some (.null, rest) := by
  change readValue (fuel + 1) (ascii 'n' :: (lit "ull" ++ rest)) = _
  rw [readValue_name (by decide)]
  exact if_pos ⟨rest, rfl⟩

theorem readValue_true : readValue (fuel + 1) (lit "true" ++ rest) = some (.bool true, rest) := by
  have notNull : ¬ ascii 'n' :: lit "ull" <+: ascii 't' :: (lit "rue" ++ rest) :=
    not_prefix (by decide)
  change readValue (fuel + 1) (ascii 't' :: (lit "rue" ++ rest)) = _
  rw [readValue_name (by decide)]
  exact (if_neg notNull).trans (if_pos ⟨rest, rfl⟩)

theorem readValue_false : readValue (fuel + 1) (lit "false" ++ rest) = some (.bool false, rest) := by
  have notNull : ¬ ascii 'n' :: lit "ull" <+: ascii 'f' :: (lit "alse" ++ rest) :=
    not_prefix (by decide)
  have notTrue : ¬ ascii 't' :: lit "rue" <+: ascii 'f' :: (lit "alse" ++ rest) :=
    not_prefix (by decide)
  change readValue (fuel + 1) (ascii 'f' :: (lit "alse" ++ rest)) = _
  rw [readValue_name (by decide)]
  exact (if_neg notNull).trans ((if_neg notTrue).trans (if_pos ⟨rest, rfl⟩))

theorem readValue_num (number : Number text d) (ends : NumberEnd rest) :
    readValue (fuel + 1) (text ++ rest) = some (.num d, rest) := by
  have read := readNumber_complete number ends
  have first : ∃ c tail, text = c :: tail ∧ (isDigit c = true ∨ c = minus) := by
    cases number with
    | unsigned unsigned =>
      obtain ⟨c, tail, rfl, digit⟩ := unsigned_head unsigned
      exact ⟨c, tail, rfl, .inl digit⟩
    | negative unsigned => exact ⟨minus, _, rfl, .inr rfl⟩
  obtain ⟨c, tail, rfl, starts⟩ := first
  have other : c ≠ quote ∧ c ≠ lbracket ∧ c ≠ lbrace := by
    refine ⟨?_, ?_, ?_⟩ <;>
      (rintro rfl; rcases starts with digit | sign <;> exact absurd ‹_› (by decide))
  rw [List.cons_append] at read ⊢
  rw [readValue, if_neg other.1, if_neg other.2.1, if_neg other.2.2, read]

theorem readValue_str (derived : StringBody body s) :
    readValue (fuel + 1) (quote :: (body ++ [quote]) ++ rest) = some (.str s, rest) := by
  rw [List.cons_append, List.append_assoc, readValue, if_pos rfl]
  exact mapRest_read (readBody_complete derived)

theorem readValue_emptyArr (white : Space w) :
    readValue (fuel + 1) (lbracket :: (w ++ [rbracket]) ++ rest) = some (.arr [], rest) := by
  have skipped : skipSpace (w ++ rbracket :: rest) = rbracket :: rest :=
    skipSpace_before white (by decide)
  rw [List.cons_append, List.append_assoc, readValue, if_neg (by decide), if_pos rfl]
  simp only [List.singleton_append, skipped, if_true]

theorem readValue_emptyObj (white : Space w) :
    readValue (fuel + 1) (lbrace :: (w ++ [rbrace]) ++ rest) = some (.obj [], rest) := by
  have skipped : skipSpace (w ++ rbrace :: rest) = rbrace :: rest :=
    skipSpace_before white (by decide)
  rw [List.cons_append, List.append_assoc, readValue, if_neg (by decide), if_neg (by decide),
    if_pos rfl]
  simp only [List.singleton_append, skipped, if_true]

theorem readValue_arr (derived : Elements text vs)
    (elements : readElements fuel (text ++ rbracket :: rest) = some (vs, rest)) :
    readValue (fuel + 1) (lbracket :: (text ++ [rbracket]) ++ rest) = some (.arr vs, rest) := by
  obtain ⟨w, c, tail, rfl, white, other, open_ne⟩ := elements_head derived
  have skipped : skipSpace (w ++ c :: tail ++ rbracket :: rest) = c :: (tail ++ rbracket :: rest) := by
    rw [List.append_assoc, List.cons_append, skipSpace_before white other]
  rw [List.cons_append, List.append_assoc, readValue, if_neg (by decide), if_pos rfl]
  simp only [List.singleton_append, skipped, open_ne, if_false]
  exact mapRest_read elements

theorem readValue_obj (derived : Members text ms)
    (members : readMembers fuel (text ++ rbrace :: rest) = some (ms, rest)) :
    readValue (fuel + 1) (lbrace :: (text ++ [rbrace]) ++ rest) = some (.obj ms, rest) := by
  obtain ⟨w, tail, rfl, white⟩ := members_head derived
  have skipped : skipSpace (w ++ quote :: tail ++ rbrace :: rest) = quote :: (tail ++ rbrace :: rest) := by
    rw [List.append_assoc, List.cons_append, skipSpace_before white (by decide)]
  have different : quote ≠ rbrace := by decide
  rw [List.cons_append, List.append_assoc, readValue, if_neg (by decide), if_neg (by decide),
    if_pos rfl]
  simp only [List.singleton_append, skipped, different, if_false]
  exact mapRest_read members

theorem readElement_complete {rest : Bytes} (white : Space w) (derived : Denotes text v)
    (white' : Space w') (value : readValue fuel (text ++ (w' ++ rest)) = some (v, w' ++ rest))
    (stops : ∀ c, rest.head? = some c → isSpace c = false) :
    readElement (fuel + 1) (w ++ (text ++ w') ++ rest) = some (v, rest) := by
  obtain ⟨c, tail, rfl, other, _⟩ := denotes_head derived
  simp only [List.append_assoc, List.cons_append] at value ⊢
  rw [readElement, skipSpace_before white other, value]
  simp only [Option.map_some, skipSpace_run white' stops]

theorem readMember_complete (white : Space w) (derived : StringBody body key) (white' : Space w')
    (element : readElement fuel (text ++ rest) = some (v, rest)) :
    readMember (fuel + 1) (w ++ quote :: (body ++ quote :: (w' ++ colon :: text)) ++ rest) =
      some ((key, v), rest) := by
  have skipped : skipSpace (w' ++ colon :: (text ++ rest)) = colon :: (text ++ rest) :=
    skipSpace_before white' (by decide)
  simp only [List.append_assoc, List.cons_append]
  rw [readMember, skipSpace_before white (by decide), readString_complete derived]
  simp only [skipped, if_true]
  exact mapRest_read element

/-- What follows an element or a member inside its brackets. -/
def Separator (rest : Bytes) : Prop :=
  ∃ c tail, rest = c :: tail ∧ (c = comma ∨ c = rbracket ∨ c = rbrace)

theorem separator_ends (sep : Separator rest) :
    NumberEnd rest ∧ ∀ c, rest.head? = some c → isSpace c = false := by
  obtain ⟨c, tail, rfl, closing⟩ := sep
  have other : (isDigit c = false ∧ c ≠ dot ∧ isE c = false) ∧ isSpace c = false := by
    rcases closing with rfl | rfl | rfl <;> decide
  refine ⟨numberEnd_cons other.1, ?_⟩
  intro d head
  obtain rfl := Option.some.inj head
  exact other.2

theorem document_ends :
    NumberEnd [] ∧ ∀ c, ([] : Bytes).head? = some c → isSpace c = false :=
  ⟨numberEnd_nil, fun _ head => by cases head⟩

mutual
/-- Four units of fuel per byte of the text are enough at every level. -/
theorem denotes_complete : Denotes text v → 4 * text.length ≤ fuel → NumberEnd rest →
    readValue fuel (text ++ rest) = some (v, rest) := by
  intro derived bound ends
  obtain ⟨first, tail, headed, _⟩ := denotes_head derived
  have positive : 0 < text.length := by rw [headed]; exact Nat.succ_pos _
  obtain ⟨fuel, rfl⟩ : ∃ n, fuel = n + 1 := ⟨fuel - 1, by omega⟩
  match derived with
  | .null => exact readValue_null
  | .true => exact readValue_true
  | .false => exact readValue_false
  | .num number => exact readValue_num number ends
  | .str body => exact readValue_str body
  | .emptyArr white => exact readValue_emptyArr white
  | .emptyObj white => exact readValue_emptyObj white
  | .arr elements =>
    simp only [List.length_cons, List.length_append, List.length_nil] at bound
    exact readValue_arr elements (elements_complete elements (by omega))
  | .obj members =>
    simp only [List.length_cons, List.length_append, List.length_nil] at bound
    exact readValue_obj members (members_complete members (by omega))

theorem element_complete : Element text v → 4 * text.length + 1 ≤ fuel →
    (NumberEnd rest ∧ ∀ c, rest.head? = some c → isSpace c = false) →
    readElement fuel (text ++ rest) = some (v, rest)
  | .mk white derived white', bound, ends => by
    obtain ⟨fuel, rfl⟩ : ∃ n, fuel = n + 1 := ⟨fuel - 1, by omega⟩
    simp only [List.length_append] at bound
    exact readElement_complete white derived white'
      (denotes_complete derived (by omega) (numberEnd_space white' ends.1)) ends.2

theorem elements_complete : Elements text vs → 4 * text.length + 2 ≤ fuel →
    readElements fuel (text ++ rbracket :: rest) = some (vs, rest)
  | .last element, bound => by
    obtain ⟨fuel, rfl⟩ : ∃ n, fuel = n + 1 := ⟨fuel - 1, by omega⟩
    have sep : Separator (rbracket :: rest) := ⟨_, _, rfl, .inr (.inl rfl)⟩
    rw [readElements, element_complete element (by omega) (separator_ends sep)]
    rfl
  | .next element others, bound => by
    obtain ⟨fuel, rfl⟩ : ∃ n, fuel = n + 1 := ⟨fuel - 1, by omega⟩
    simp only [List.length_append, List.length_cons] at bound
    have sep (tail : Bytes) : Separator (comma :: tail) := ⟨_, _, rfl, .inl rfl⟩
    rw [List.append_assoc, List.cons_append, readElements,
      element_complete element (by omega) (separator_ends (sep _))]
    exact mapRest_read (elements_complete others (by omega))

theorem member_complete : Member text m → 4 * text.length + 2 ≤ fuel → Separator rest →
    readMember fuel (text ++ rest) = some (m, rest)
  | .mk white body white' element, bound, sep => by
    obtain ⟨fuel, rfl⟩ : ∃ n, fuel = n + 1 := ⟨fuel - 1, by omega⟩
    simp only [List.length_append, List.length_cons] at bound
    exact readMember_complete white body white'
      (element_complete element (by omega) (separator_ends sep))

theorem members_complete : Members text ms → 4 * text.length + 3 ≤ fuel →
    readMembers fuel (text ++ rbrace :: rest) = some (ms, rest)
  | .last member, bound => by
    obtain ⟨fuel, rfl⟩ : ∃ n, fuel = n + 1 := ⟨fuel - 1, by omega⟩
    have sep : Separator (rbrace :: rest) := ⟨_, _, rfl, .inr (.inr rfl)⟩
    rw [readMembers, member_complete member (by omega) sep]
    rfl
  | .next member others, bound => by
    obtain ⟨fuel, rfl⟩ : ∃ n, fuel = n + 1 := ⟨fuel - 1, by omega⟩
    simp only [List.length_append, List.length_cons] at bound
    have sep (tail : Bytes) : Separator (comma :: tail) := ⟨_, _, rfl, .inl rfl⟩
    rw [List.append_assoc, List.cons_append, readMembers,
      member_complete member (by omega) (sep _)]
    exact mapRest_read (members_complete others (by omega))
end

theorem decode_complete (derived : Document text v) : decode text = some v := by
  have read : readElement (4 * text.length + 2) (text ++ []) = some (v, []) :=
    element_complete derived (Nat.le_succ _) document_ends
  rw [List.append_nil] at read
  simp only [decode, read]

/-- The decoder decides the grammar: it accepts the texts that denote a value,
with that value and no other. -/
theorem decode_iff (text : Bytes) (v : Value) : decode text = some v ↔ Document text v :=
  ⟨decode_sound, decode_complete⟩

theorem readBody_unterminated (plain : Plain text) : readBody text = none := by
  induction text with
  | nil => rfl
  | cons c text ih =>
    obtain ⟨head, tail⟩ := plain_cons.mp plain
    obtain ⟨notQuote, notBackslash⟩ := plain_distinct head
    rw [readBody.eq_def]
    simp only [notQuote, notBackslash, head, ih tail, if_true, if_false]
    rfl

theorem readMember_unterminated (body : StringBody name key) (plain : Plain text) :
    readMember fuel (quote :: (name ++ quote :: colon :: quote :: text)) = none := by
  have value (fuel : Nat) : readValue fuel (quote :: text) = none := by
    cases fuel with
    | zero => rfl
    | succ fuel =>
      rw [readValue, if_pos rfl, readBody_unterminated plain]
      rfl
  have element (fuel : Nat) : readElement fuel (quote :: text) = none := by
    cases fuel with
    | zero => rfl
    | succ fuel =>
      rw [readElement, skipSpace_cons (by decide), value]
      rfl
  cases fuel with
  | zero => rfl
  | succ fuel =>
    rw [readMember, skipSpace_cons (by decide), readString_complete body]
    simp only [skipSpace_cons (show isSpace colon = false by decide), if_true, element]
    rfl

theorem readMembers_broken (first : Members text ms) (broken : ∀ fuel, readMember fuel other = none) :
    4 * text.length + 3 ≤ fuel → readMembers fuel (text ++ comma :: other) = none := by
  intro bound
  have stops (fuel : Nat) : readMembers fuel other = none := by
    cases fuel with
    | zero => rfl
    | succ fuel => rw [readMembers, broken]
  have sep (tail : Bytes) : Separator (comma :: tail) := ⟨_, _, rfl, .inl rfl⟩
  induction ms generalizing text fuel with
  | nil => cases first
  | cons _ ms ih =>
    obtain ⟨fuel, rfl⟩ : ∃ n, fuel = n + 1 := ⟨fuel - 1, by omega⟩
    cases first with
    | last member =>
      rw [readMembers, member_complete member (by omega) (sep _)]
      simp only [stops, if_true]
      rfl
    | next member others =>
      simp only [List.length_append, List.length_cons] at bound
      have tail : readMembers fuel (_ ++ comma :: other) = none := ih others (by omega)
      rw [List.append_assoc, List.cons_append, readMembers,
        member_complete member (by omega) (sep _)]
      simp only [tail, if_true]
      rfl

/-- No value is denoted by an object whose last member never closes its string. -/
theorem decode_unterminated (first : Members text ms) (body : StringBody name key)
    (plain : Plain last) :
    decode (lbrace :: (text ++ comma :: quote :: (name ++ quote :: colon :: quote :: last))) = none := by
  obtain ⟨w, tail, split, white⟩ := members_head first
  have skipped (rest : Bytes) : skipSpace (text ++ rest) = quote :: (tail ++ rest) := by
    rw [split, List.append_assoc, List.cons_append, skipSpace_before white (by decide)]
  have different : quote ≠ rbrace := by decide
  have members (fuel : Nat) (bound : 4 * text.length + 3 ≤ fuel) :
      readMembers fuel (text ++ comma :: quote :: (name ++ quote :: colon :: quote :: last)) = none :=
    readMembers_broken first (fun _ => readMember_unterminated body plain) bound
  have value (fuel : Nat) (bound : 4 * text.length + 3 ≤ fuel) : readValue (fuel + 1)
      (lbrace :: (text ++ comma :: quote :: (name ++ quote :: colon :: quote :: last))) = none := by
    rw [readValue, if_neg (by decide), if_neg (by decide), if_pos rfl]
    simp only [skipped, different, if_false, members fuel bound]
    rfl
  simp only [decode, List.length_cons, List.length_append]
  rw [readElement, skipSpace_cons (by decide)]
  rw [value _ (by omega)]
  rfl

end Json
