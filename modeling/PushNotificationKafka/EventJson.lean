import PushNotificationKafka.Event

/-! What the rendered events say: the ordered members of each, and that the text
of a message event is one JSON object with exactly these members. -/
namespace PushNotificationKafka
open Bytes Json

def flagNames : List (UInt32 × CStr) :=
  [(mailAnswered, lit "\\Answered"), (mailFlagged, lit "\\Flagged"), (mailDeleted, lit "\\Deleted"),
    (mailSeen, lit "\\Seen"), (mailDraft, lit "\\Draft")]

def hasFlag (flags : UInt32) (flag : UInt32 × CStr) : Bool := flags &&& flag.1 != 0

/-- The names of the flags of a word, in the order of `flagNames`. -/
def flagValues (flags : UInt32) : List Value :=
  (flagNames.filter (hasFlag flags)).map fun flag => .str flag.2

def keywordValues (renderCtx : RenderContext) (keywords : List CStr) : List Value :=
  (keywords.filter (renderCtx.keywordPrefix.isPrefixOf ·)).map .str

def flagsMember (renderCtx : RenderContext) (key : CStr) (flags : UInt32) : List (Bytes × Value) :=
  if renderCtx.sendFlags ∧ flags ≠ 0 then [(key, .arr (flagValues flags))] else []

def keywordsMember (renderCtx : RenderContext) (key : CStr) :
    Option (List CStr) → List (Bytes × Value)
  | none | some [] => []
  | some (keyword :: keywords) => [(key, .arr (keywordValues renderCtx (keyword :: keywords)))]

def textMember (key : CStr) : Option CStr → List (Bytes × Value)
  | none => []
  | some text => [(key, .str text)]

def dateMember (dovecot : Dovecot) (data : MessagenewData) : List (Bytes × Value) :=
  if data.date = -1 then []
  else [(lit "date", .str (dovecot.iso8601DateCreateTm (dovecot.gmtime data.date) data.dateTz))]

/-- What an event adds to the members that all message events share. -/
def eventMembers (dovecot : Dovecot) (renderCtx : RenderContext) : TxnEvent → List (Bytes × Value)
  | .flagsset data =>
    flagsMember renderCtx (lit "flags") data.flagsSet ++
      keywordsMember renderCtx (lit "keywords") data.keywordsSet
  | .flagsclear data =>
    flagsMember renderCtx (lit "flags") data.flagsClear ++
      flagsMember renderCtx (lit "oldFlags") data.flagsOld ++
      keywordsMember renderCtx (lit "keywords") data.keywordsClear ++
      keywordsMember renderCtx (lit "oldKeywords") data.keywordsOld
  | .messagenew data =>
    dateMember dovecot data ++ textMember (lit "from") data.from_ ++
      textMember (lit "snippet") data.snippet ++ textMember (lit "subject") data.subject ++
      textMember (lit "to") data.to_
  | .messageappend data =>
    textMember (lit "from") data.from_ ++ textMember (lit "snippet") data.snippet ++
      textMember (lit "subject") data.subject ++ textMember (lit "to") data.to_
  | _ => []

/-- The members that all message events share. -/
def msgPrefixMembers (dtxn : DriverTxn) (userdb : List (Bytes × Value)) (eventName : CStr)
    (msg : TxnMsg) : List (Bytes × Value) :=
  [(lit "user", .str dtxn.user.username)] ++ userdb ++
    [(lit "mailbox", .str msg.mailbox), (lit "event", .str eventName),
      (lit "uidvalidity", .ofNat msg.uidValidity.toNat), (lit "uid", .ofNat msg.uid.toNat)]

/-- All members of a message event, in order. -/
def msgMembers (dovecot : Dovecot) (dtxn : DriverTxn) (renderCtx : RenderContext)
    (userdb : List (Bytes × Value)) (msg : TxnMsg) (event : TxnEvent) : List (Bytes × Value) :=
  msgPrefixMembers dtxn userdb event.name msg ++ eventMembers dovecot renderCtx event

/-- A `userdb_json` that may stand between two members: none, or one member whose
value is an object, with a comma after it. -/
inductive UserdbFragment : Option CStr → List (Bytes × Value) → Prop where
  | absent : UserdbFragment none []
  | object : Document text (.obj fields) →
      UserdbFragment (some (lit "\"userdb\":" ++ text ++ lit ",")) [(lit "userdb", .obj fields)]

/-- `str_starts_with` decides whether its second argument begins the first. -/
theorem strStartsWith_spec (str start : CStr) :
    strStartsWith (some str) (some start) = start.isPrefixOf str := by
  induction start generalizing str with
  | nil => simp [strStartsWith]
  | cons p start ih =>
    cases str with
    | nil => simp [strStartsWith]
    | cons c str =>
      rw [strStartsWith, List.isPrefixOf_cons_cons]
      by_cases same : c = p
      · simp [same, ih]
      · simp [same, Ne.symm same]

/-- A writer of array elements that started on `str` has written the elements `vs`
of an open array, and knows whether there are any. -/
def Wrote (str : CStr) (vs : List Value) (result : Bool × CStr) : Prop :=
  result.1 = !vs.isEmpty ∧ ∃ inner, result.2 = str ++ inner ∧ OpenArray (lbracket :: inner) vs

theorem Wrote.start (str : CStr) : Wrote str [] (false, str) :=
  ⟨rfl, [], (List.append_nil str).symm, .empty⟩

theorem Wrote.add (wrote : Wrote str vs (written, result)) (derived : Denotes text v) :
    Wrote str (vs ++ [v]) (true, (if written then result ++ lit "," else result) ++ text) := by
  obtain ⟨same, inner, split, array⟩ := wrote
  have added := array.add derived
  refine ⟨by simp, _, ?_, added⟩
  cases vs with
  | nil => simp_all
  | cons v vs =>
    have separator : lit "," = [comma] := rfl
    simp_all

/-- The literal of a flag name in the source. -/
def flagLiteral (name : CStr) : CStr := quote :: (escape name ++ [quote])

theorem writeFlag_spec (flags : UInt32) (flag : UInt32 × CStr) (wrote : Wrote str vs result) :
    Wrote str (vs ++ if hasFlag flags flag then [.str flag.2] else [])
      (writeFlag flags flag.1 (flagLiteral flag.2) result) := by
  obtain ⟨written, result⟩ := result
  have derived : Denotes (flagLiteral flag.2) (.str flag.2) := .str (escape_escapes flag.2)
  by_cases set : hasFlag flags flag = true
  · have bit : flags &&& flag.1 ≠ 0 := by simpa [hasFlag] using set
    simp only [writeFlag, if_pos bit, if_pos set]
    exact wrote.add derived
  · have bit : ¬ flags &&& flag.1 ≠ 0 := by simpa [hasFlag] using set
    simp only [writeFlag, if_neg bit, if_neg set, List.append_nil]
    exact wrote

theorem writeFlag_loop (flags : UInt32) (names : List (UInt32 × CStr)) (wrote : Wrote str vs result) :
    Wrote str (vs ++ (names.filter (hasFlag flags)).map fun flag => .str flag.2)
      (names.foldl (fun state flag => writeFlag flags flag.1 (flagLiteral flag.2) state) result) := by
  induction names generalizing vs result with
  | nil => simpa using wrote
  | cons flag names ih =>
    have rest := ih (writeFlag_spec flags flag wrote)
    rw [List.foldl_cons, List.filter_cons]
    by_cases set : hasFlag flags flag = true
    · simpa only [set, if_true, List.append_assoc, List.map_cons, List.singleton_append] using rest
    · simpa only [set, if_false, List.append_nil, Bool.false_eq_true] using rest

theorem writeFlags_spec (flags : UInt32) (str : CStr) :
    Wrote str (flagValues flags) (writeFlags flags str) :=
  writeFlag_loop flags flagNames (.start str)

/-- The invariant of the keyword loops. Sections share `keywordWritten`, which was
`written` when this one began. -/
def WroteKeywords (str : CStr) (written : Bool) (vs : List Value) (state : Nat × Bool × CStr) : Prop :=
  Wrote str vs (decide (state.1 > 0), state.2.2) ∧ state.2.1 = (written || !vs.isEmpty)

theorem writeKeyword_spec (escapes : Escapes dovecot.jsonAppendEscaped) (renderCtx : RenderContext)
    (keyword : CStr) (wrote : WroteKeywords str written vs state) :
    WroteKeywords str written (vs ++ keywordValues renderCtx [keyword])
      (writeKeyword dovecot renderCtx state keyword) := by
  obtain ⟨i, keywordWritten, result⟩ := state
  obtain ⟨wrote, same⟩ := wrote
  have derived : Denotes (quote :: (dovecot.jsonAppendEscaped keyword ++ [quote])) (.str keyword) :=
    .str (escapes keyword)
  simp only [writeKeyword, strStartsWith_spec]
  by_cases starts : renderCtx.keywordPrefix.isPrefixOf keyword = true
  · have added := wrote.add derived
    have first : lit "\"" = [quote] := rfl
    have next : lit ",\"" = lit "," ++ [quote] := rfl
    have kept : keywordValues renderCtx [keyword] = [.str keyword] := by simp [keywordValues, starts]
    simp only [starts, if_true, kept]
    refine ⟨?_, by simp⟩
    by_cases some : i > 0
    · simpa [some, first, next] using added
    · simpa [some, first] using added
  · have dropped : keywordValues renderCtx [keyword] = [] := by simp [keywordValues, starts]
    simp only [starts, if_false, Bool.false_eq_true, dropped, List.append_nil]
    exact ⟨wrote, same⟩

theorem writeKeyword_loop (escapes : Escapes dovecot.jsonAppendEscaped) (renderCtx : RenderContext)
    (keywords : List CStr) (wrote : WroteKeywords str written vs state) :
    WroteKeywords str written (vs ++ keywordValues renderCtx keywords)
      (keywords.foldl (writeKeyword dovecot renderCtx) state) := by
  induction keywords generalizing vs state with
  | nil => simpa [keywordValues] using wrote
  | cons keyword keywords ih =>
    have rest := ih (writeKeyword_spec escapes renderCtx keyword wrote)
    have split : keywordValues renderCtx (keyword :: keywords) =
        keywordValues renderCtx [keyword] ++ keywordValues renderCtx keywords := by
      rw [← List.singleton_append]
      simp only [keywordValues, List.filter_append, List.map_append]
    rw [split, ← List.append_assoc]
    exact rest

theorem writeFlagsSection_open (renderCtx : RenderContext) (key : CStr) (flags : UInt32)
    (state : Bool × CStr) (opened : OpenObject state.2 ms) (plain : Plain key := by decide) :
    OpenObject (writeFlagsSection renderCtx (opening key ++ [lbracket]) flags state).2
      (ms ++ flagsMember renderCtx key flags) := by
  obtain ⟨written, str⟩ := state
  by_cases sent : renderCtx.sendFlags = true ∧ flags ≠ 0
  · have positive : renderCtx.sendFlags = true ∧ flags > 0 := ⟨sent.1, UInt32.pos_iff_ne_zero.mpr sent.2⟩
    obtain ⟨-, inner, split, array⟩ := writeFlags_spec flags (str ++ (opening key ++ [lbracket]))
    have added := opened.addArray key array plain
    have close : lit "]" = [rbracket] := rfl
    simp only [writeFlagsSection, flagsMember, if_pos sent, if_pos positive, split]
    simpa only [close, List.append_assoc, List.cons_append, List.nil_append] using added
  · have none : ¬ (renderCtx.sendFlags = true ∧ flags > 0) :=
      fun positive => sent ⟨positive.1, UInt32.pos_iff_ne_zero.mp positive.2⟩
    simp only [writeFlagsSection, flagsMember, if_neg sent, if_neg none, List.append_nil]
    exact opened

/-- A section of flags counts as written when it names a flag. -/
theorem writeFlagsSection_written (renderCtx : RenderContext) (name : CStr) (flags : UInt32)
    (state : Bool × CStr) :
    (writeFlagsSection renderCtx name flags state).1 =
      (state.1 || (renderCtx.sendFlags && !(flagValues flags).isEmpty)) := by
  obtain ⟨written, str⟩ := state
  by_cases on : renderCtx.sendFlags = true
  · by_cases zero : flags = 0
    · have empty : flagValues 0 = [] := rfl
      simp [writeFlagsSection, zero, empty]
    · have positive : flags > 0 := UInt32.pos_iff_ne_zero.mpr zero
      have some := (writeFlags_spec flags (str ++ name)).1
      simp [writeFlagsSection, on, positive, some]
  · simp [writeFlagsSection, on]

theorem writeKeywordsSection_open (escapes : Escapes dovecot.jsonAppendEscaped)
    (renderCtx : RenderContext) (key : CStr) (keywords : Option (List CStr)) (state : Bool × CStr)
    (opened : OpenObject state.2 ms) (plain : Plain key := by decide) :
    OpenObject (writeKeywordsSection dovecot renderCtx (opening key ++ [lbracket]) keywords state).2
      (ms ++ keywordsMember renderCtx key keywords) := by
  obtain ⟨written, str⟩ := state
  match keywords with
  | none | some [] => simpa [writeKeywordsSection, keywordsMember] using opened
  | some (keyword :: keywords) =>
    have start : WroteKeywords (str ++ (opening key ++ [lbracket])) written []
        (0, written, str ++ (opening key ++ [lbracket])) := ⟨.start _, by simp⟩
    obtain ⟨⟨-, inner, split, array⟩, -⟩ :=
      writeKeyword_loop escapes renderCtx (keyword :: keywords) start
    have added := opened.addArray key array plain
    have close : lit "]" = [rbracket] := rfl
    simp only [writeKeywordsSection, keywordsMember]
    rw [split]
    simpa only [close, List.append_assoc, List.cons_append, List.nil_append] using added

theorem writeText_open (escapes : Escapes dovecot.jsonAppendEscaped) (key : CStr) (text : Option CStr)
    (opened : OpenObject str ms) (plain : Plain key := by decide) :
    OpenObject (writeText dovecot (opening key ++ [quote]) text str) (ms ++ textMember key text) := by
  cases text with
  | none => simpa only [writeText, textMember, List.append_nil] using opened
  | some text =>
    have added := opened.addText key (escapes text) plain
    have close : lit "\"" = [quote] := rfl
    simpa only [writeText, textMember, close, List.append_assoc, List.cons_append, List.nil_append]
      using added

/-- The start that the documentation gives for all events: the user, the fields
from the userdb configuration, the mailbox and the event. -/
def invariantPrefix (dovecot : Dovecot) (dtxn : DriverTxn) (mailbox eventName : CStr) : CStr :=
  lit "\x7b\"user\":\"" ++ dovecot.jsonAppendEscaped dtxn.user.username ++ lit "\"," ++
    dtxn.context.userdbJson.getD [] ++ lit "\"mailbox\":\"" ++
    dovecot.jsonAppendEscaped mailbox ++ lit "\",\"event\":\"" ++ eventName ++ lit "\""

theorem writeMsgPrefix_eq (dovecot : Dovecot) (dtxn : DriverTxn) (eventName : CStr) (msg : TxnMsg) :
    writeMsgPrefix dovecot dtxn eventName msg =
      invariantPrefix dovecot dtxn msg.mailbox eventName ++
        (opening (lit "uidvalidity") ++ decimal msg.uidValidity.toNat) ++
        (opening (lit "uid") ++ decimal msg.uid.toNat) := by
  have uidValidity : lit "\",\"uidvalidity\":" = lit "\"" ++ opening (lit "uidvalidity") := rfl
  have uid : lit ",\"uid\":" = opening (lit "uid") := rfl
  simp only [writeMsgPrefix, invariantPrefix, uidValidity, uid, List.append_assoc]
  cases dtxn.context.userdbJson with
  | none => simp only [Option.getD_none, List.nil_append, List.append_assoc]
  | some userdbJson => simp only [Option.getD_some, List.append_assoc]

theorem user_open (dovecot : Dovecot) (escapes : Escapes dovecot.jsonAppendEscaped) (username : CStr) :
    OpenObject (lit "\x7b\"user\":\"" ++ (dovecot.jsonAppendEscaped username ++ [quote]))
      [(lit "user", .str username)] := by
  have user : Plain (lit "user") := by decide
  have first := OpenObject.first (.of_parts (.of_plain user) (.str (escapes username)))
  have shape : lit "\x7b\"user\":\"" = lbrace :: quote :: (lit "user" ++ [quote, colon, quote]) := rfl
  simpa only [shape, List.append_assoc, List.cons_append, List.nil_append] using first

/-- The `userdb_json` and the mailbox after the user and its comma. -/
theorem userdb_open (fragment : UserdbFragment userdbJson userdb) (opened : OpenObject str ms)
    {inner : Bytes} (body : StringBody inner mailbox) :
    OpenObject (str ++ comma :: (userdbJson.getD [] ++ (lit "\"mailbox\":\"" ++ (inner ++ [quote]))))
      (ms ++ userdb ++ [(lit "mailbox", .str mailbox)]) := by
  have start : lit "\"mailbox\":\"" = quote :: (lit "mailbox" ++ [quote, colon, quote]) := rfl
  cases fragment with
  | absent =>
    have added := opened.addText (lit "mailbox") body
    simpa [start, opening] using added
  | object document =>
    have added := (opened.addValue (lit "userdb") document).addText (lit "mailbox") body
    have shape : lit "\"userdb\":" = quote :: (lit "userdb" ++ [quote, colon]) := rfl
    have close : lit "," = [comma] := rfl
    simpa [start, shape, close, opening] using added

theorem invariantPrefix_open (escapes : Escapes dovecot.jsonAppendEscaped) (dtxn : DriverTxn)
    (fragment : UserdbFragment dtxn.context.userdbJson userdb) (mailbox : CStr) (named : Plain eventName) :
    OpenObject (invariantPrefix dovecot dtxn mailbox eventName)
      ([(lit "user", .str dtxn.user.username)] ++ userdb ++
        [(lit "mailbox", .str mailbox)] ++ [(lit "event", .str eventName)]) := by
  have opened := userdb_open fragment (user_open dovecot escapes dtxn.user.username) (escapes mailbox)
  have opened := opened.addText (lit "event") (.of_plain named)
  have user : lit "\"," = [quote, comma] := rfl
  have event : lit "\",\"event\":\"" = quote :: (opening (lit "event") ++ [quote]) := rfl
  have close : lit "\"" = [quote] := rfl
  simpa only [invariantPrefix, user, event, close, List.append_assoc, List.cons_append,
    List.nil_append] using opened

theorem writeMsgPrefix_open (escapes : Escapes dovecot.jsonAppendEscaped)
    (fragment : UserdbFragment dtxn.context.userdbJson userdb) (named : Plain eventName) (msg : TxnMsg) :
    OpenObject (writeMsgPrefix dovecot dtxn eventName msg) (msgPrefixMembers dtxn userdb eventName msg) := by
  have opened := invariantPrefix_open escapes dtxn fragment msg.mailbox named
  have opened := opened.addValue (lit "uidvalidity")
    (.of_denotes (decimal_denotes msg.uidValidity.toNat))
  have opened := opened.addValue (lit "uid") (.of_denotes (decimal_denotes msg.uid.toNat))
  rw [writeMsgPrefix_eq]
  simpa only [msgPrefixMembers, List.append_assoc, List.singleton_append, List.cons_append,
    List.nil_append] using opened

/-- What a flags event says of its word, its keywords and the old ones. -/
def flagsEventMembers (renderCtx : RenderContext) (flags : UInt32) (keywords : Option (List CStr))
    (flagsOld : UInt32) (keywordsOld : Option (List CStr)) : List (Bytes × Value) :=
  flagsMember renderCtx (lit "flags") flags ++ flagsMember renderCtx (lit "oldFlags") flagsOld ++
    keywordsMember renderCtx (lit "keywords") keywords ++
    keywordsMember renderCtx (lit "oldKeywords") keywordsOld

/-- The sections of a flags event, one after the other. -/
def flagSections (renderCtx : RenderContext) (flags flagsOld : UInt32) (str : CStr) : Bool × CStr :=
  writeFlagsSection renderCtx (opening (lit "oldFlags") ++ [lbracket]) flagsOld
    (writeFlagsSection renderCtx (opening (lit "flags") ++ [lbracket]) flags (false, str))

def keywordSections (dovecot : Dovecot) (renderCtx : RenderContext)
    (keywords keywordsOld : Option (List CStr)) (str : CStr) : Bool × CStr :=
  writeKeywordsSection dovecot renderCtx (opening (lit "oldKeywords") ++ [lbracket]) keywordsOld
    (writeKeywordsSection dovecot renderCtx (opening (lit "keywords") ++ [lbracket]) keywords
      (false, str))

theorem writeFlagsEvent_eq (dovecot : Dovecot) (dtxn : DriverTxn) (renderCtx : RenderContext)
    (eventName : CStr) (msg : TxnMsg) (flags flagsOld : UInt32) (keywords keywordsOld : Option (List CStr)) :
    writeFlagsEvent dovecot dtxn renderCtx eventName msg flags keywords flagsOld keywordsOld =
      let flag := flagSections renderCtx flags flagsOld (writeMsgPrefix dovecot dtxn eventName msg)
      let keyword := keywordSections dovecot renderCtx keywords keywordsOld flag.2
      if flag.1 || keyword.1 then some (keyword.2 ++ [rbrace]) else none := rfl

theorem flagSections_open (renderCtx : RenderContext) (flags flagsOld : UInt32)
    (opened : OpenObject str ms) :
    OpenObject (flagSections renderCtx flags flagsOld str).2
      (ms ++ flagsMember renderCtx (lit "flags") flags ++
        flagsMember renderCtx (lit "oldFlags") flagsOld) := by
  have first := writeFlagsSection_open renderCtx (lit "flags") flags (false, str) opened
  exact writeFlagsSection_open renderCtx (lit "oldFlags") flagsOld _ first

theorem keywordSections_open (escapes : Escapes dovecot.jsonAppendEscaped) (renderCtx : RenderContext)
    (keywords keywordsOld : Option (List CStr)) (opened : OpenObject str ms) :
    OpenObject (keywordSections dovecot renderCtx keywords keywordsOld str).2
      (ms ++ keywordsMember renderCtx (lit "keywords") keywords ++
        keywordsMember renderCtx (lit "oldKeywords") keywordsOld) := by
  have first := writeKeywordsSection_open escapes renderCtx (lit "keywords") keywords
    (false, str) opened
  exact writeKeywordsSection_open escapes renderCtx (lit "oldKeywords") keywordsOld _ first

theorem writeFlagsEvent_open (escapes : Escapes dovecot.jsonAppendEscaped)
    (fragment : UserdbFragment dtxn.context.userdbJson userdb) (named : Plain eventName)
    (rendered : writeFlagsEvent dovecot dtxn renderCtx eventName msg flags keywords flagsOld keywordsOld =
      some str) :
    ∃ inner, str = inner ++ [rbrace] ∧ OpenObject inner (msgPrefixMembers dtxn userdb eventName msg ++
      flagsEventMembers renderCtx flags keywords flagsOld keywordsOld) := by
  have start := writeMsgPrefix_open escapes fragment named msg
  have opened := keywordSections_open escapes renderCtx keywords keywordsOld
    (flagSections_open renderCtx flags flagsOld start)
  simp only [writeFlagsEvent_eq] at rendered
  split at rendered
  · refine ⟨_, (Option.some.inj rendered).symm, ?_⟩
    simpa only [flagsEventMembers, List.append_assoc] using opened
  · contradiction

theorem writeTexts_open (escapes : Escapes dovecot.jsonAppendEscaped)
    (from_ snippet subject to_ : Option CStr) (opened : OpenObject str ms) :
    OpenObject
      (writeText dovecot (lit ",\"to\":\"") to_ (writeText dovecot (lit ",\"subject\":\"") subject
        (writeText dovecot (lit ",\"snippet\":\"") snippet
          (writeText dovecot (lit ",\"from\":\"") from_ str))))
      (ms ++ (textMember (lit "from") from_ ++ textMember (lit "snippet") snippet ++
        textMember (lit "subject") subject ++ textMember (lit "to") to_)) := by
  have from' : lit ",\"from\":\"" = opening (lit "from") ++ [quote] := rfl
  have snippet' : lit ",\"snippet\":\"" = opening (lit "snippet") ++ [quote] := rfl
  have subject' : lit ",\"subject\":\"" = opening (lit "subject") ++ [quote] := rfl
  have to' : lit ",\"to\":\"" = opening (lit "to") ++ [quote] := rfl
  have opened := writeText_open escapes (lit "from") from_ opened
  have opened := writeText_open escapes (lit "snippet") snippet opened
  have opened := writeText_open escapes (lit "subject") subject opened
  have opened := writeText_open escapes (lit "to") to_ opened
  rw [from', snippet', subject', to']
  simpa only [List.append_assoc] using opened

theorem writeEventMessagenew_open (escapes : Escapes dovecot.jsonAppendEscaped)
    (dates : ∀ tm tz, Plain (dovecot.iso8601DateCreateTm tm tz)) (renderCtx : RenderContext)
    (fragment : UserdbFragment dtxn.context.userdbJson userdb) (msg : TxnMsg) (data : MessagenewData) :
    ∃ inner, writeEventMessagenew dovecot dtxn msg data = inner ++ [rbrace] ∧
      OpenObject inner (msgPrefixMembers dtxn userdb messagenewName msg ++
        eventMembers dovecot renderCtx (.messagenew data)) := by
  have named : Plain messagenewName := by decide
  have start := writeMsgPrefix_open escapes fragment named msg
  refine ⟨_, rfl, ?_⟩
  by_cases absent : data.date = -1
  · have opened := writeTexts_open escapes data.from_ data.snippet data.subject data.to_ start
    simpa [eventMembers, dateMember, absent] using opened
  · have date := start.addText (lit "date")
      (.of_plain (dates (dovecot.gmtime data.date) data.dateTz))
    have opened := writeTexts_open escapes data.from_ data.snippet data.subject data.to_ date
    have shape : lit ",\"date\":\"" = opening (lit "date") ++ [quote] := rfl
    have close : lit "\"" = [quote] := rfl
    simpa [eventMembers, dateMember, absent, shape, close] using opened

theorem renderMsg_open (escapes : Escapes dovecot.jsonAppendEscaped)
    (dates : ∀ tm tz, Plain (dovecot.iso8601DateCreateTm tm tz))
    (fragment : UserdbFragment dtxn.context.userdbJson userdb) (named : Plain event.name)
    (rendered : renderMsg dovecot dtxn renderCtx msg event = some str) :
    ∃ inner, str = inner ++ [rbrace] ∧
      OpenObject inner (msgMembers dovecot dtxn renderCtx userdb msg event) := by
  have start := writeMsgPrefix_open escapes fragment named msg
  cases event with
  | flagsset data =>
    have rendered : writeFlagsEvent dovecot dtxn renderCtx _ msg data.flagsSet data.keywordsSet 0 none =
      some str := rendered
    obtain ⟨inner, split, opened⟩ := writeFlagsEvent_open escapes fragment named rendered
    refine ⟨inner, split, ?_⟩
    have noOld : flagsMember renderCtx (lit "oldFlags") 0 = [] := by simp [flagsMember]
    have noOldKeywords : keywordsMember renderCtx (lit "oldKeywords") none = [] := rfl
    simpa only [flagsEventMembers, msgMembers, eventMembers, noOld, noOldKeywords, List.append_nil] using opened
  | flagsclear data =>
    exact writeFlagsEvent_open escapes fragment named rendered
  | messagenew data =>
    obtain rfl := Option.some.inj rendered
    exact writeEventMessagenew_open escapes dates renderCtx fragment msg data
  | messageappend data =>
    obtain rfl := Option.some.inj rendered
    exact ⟨_, rfl, writeTexts_open escapes data.from_ data.snippet data.subject data.to_ start⟩
  | mailboxcreate | mailboxrename | other =>
    obtain rfl := Option.some.inj rendered
    exact ⟨_, rfl, by simpa [msgMembers, eventMembers] using start⟩

/-- A message event that is rendered at all is rendered as one JSON object with
exactly its members, whatever stands in its strings. -/
theorem renderMsg_denotes (escapes : Escapes dovecot.jsonAppendEscaped)
    (dates : ∀ tm tz, Plain (dovecot.iso8601DateCreateTm tm tz))
    (fragment : UserdbFragment dtxn.context.userdbJson userdb) (named : Plain event.name)
    (rendered : renderMsg dovecot dtxn renderCtx msg event = some str) :
    Denotes str (.obj (msgMembers dovecot dtxn renderCtx userdb msg event)) ∧
      decode str = some (.obj (msgMembers dovecot dtxn renderCtx userdb msg event)) := by
  obtain ⟨inner, rfl, opened⟩ := renderMsg_open escapes dates fragment named rendered
  exact ⟨opened.close, decode_complete (.of_denotes opened.close)⟩

namespace Sample

/-- Default events that Dovecot knows. -/
def registry : Registry where
  message event := event ∈ [flagsclearName, flagssetName, messagenewName, messageappendName]
  mailbox event := event ∈ [mailboxcreateName, mailboxrenameName, lit "MailboxDelete"]

/-- A decimal number with an optional minus sign and nothing else, in the range of an `int`. -/
def strToInt (text : CStr) : Option CInt :=
  let negative := text.head? = some (ascii '-')
  let digits := if negative then text.tail else text
  let magnitude : Int := Json.digitsValue digits
  let n := if negative then -magnitude else magnitude
  if Json.Digits digits then
    if h : -2 ^ 31 ≤ n ∧ n < 2 ^ 31 then some ⟨n, h⟩ else none
  else none

/-- Dovecot on ASCII text, at the one instant below and with these events. -/
def dovecot : Dovecot where
  jsonAppendEscaped := escape
  gmtime _ := ⟨118, 6, 11, 8, 59, 24⟩
  iso8601DateCreateTm _ _ := lit "2018-07-11T08:59:24+00:00"
  pStrsplit text separators := if text = [] then [] else text.splitOnP separators.contains
  strToInt := strToInt
  mailUserRef user refcount other := refcount other + if user = other then 1 else 0
  mailUserUnref user refcount other := refcount other - if user = other then 1 else 0
  pushNotificationEventInit event config events :=
    if registry.known event then events ++ [⟨event, config⟩] else events

theorem dovecot_splits : SplitsAtCommas dovecot.pStrsplit := by
  intro text
  have separators : (lit ",").contains = (· == ascii ',') := by
    funext c
    have comma : lit "," = [ascii ','] := rfl
    rw [comma, List.contains_cons, List.contains_nil, Bool.or_false]
  simp only [dovecot, atCommas, List.splitOn, separators]

theorem dovecot_counts : CountsReferences dovecot := ⟨fun _ _ _ => rfl, fun _ _ _ => rfl⟩

theorem dovecot_adds : AddsKnown dovecot registry := fun _ _ _ => rfl

def alice : MailUser where
  username := lit "alice"
  getenv _ := none
  pluginEnvs := none

def userdbJson : CStr := lit "\"userdb\":" ++ lit "\x7b\"k1\":\"v1\"\x7d" ++ lit ","

def context : Context where
  topic := lit "expunge"
  events := [flagsclearName]
  userdbJson := some userdbJson
  enabled := true
  renderCtx := ⟨true, defaultPrefix⟩
  rkt := none

def dtxn : DriverTxn := ⟨alice, context⟩

def msg (eventdata : List TxnEvent) : TxnMsg := ⟨lit "INBOX", 1531299564, 13, some eventdata⟩

def mbox (eventdata : List TxnEvent) : TxnMbox := ⟨lit "INBOX/old", some eventdata⟩

def flagsclear : TxnEvent :=
  .flagsclear ⟨mailSeen, some [lit "hidden", lit "$label1"], mailSeen ||| mailFlagged, none⟩

theorem userdb_fragment : UserdbFragment (some userdbJson)
    [(lit "userdb", .obj [(lit "k1", .str (lit "v1"))])] := by
  have key : Plain (lit "k1") := by decide
  have value : Plain (lit "v1") := by decide
  have opened := OpenObject.first (.of_parts (.of_plain key) (.str (.of_plain value)))
  exact .object (.of_denotes opened.close)

end Sample

theorem renderMsg_denotes_flagsclear :
    ∃ str, renderMsg Sample.dovecot Sample.dtxn Sample.context.renderCtx (Sample.msg []) Sample.flagsclear =
        some str ∧
      decode str = some (.obj [(lit "user", .str (lit "alice")),
        (lit "userdb", .obj [(lit "k1", .str (lit "v1"))]), (lit "mailbox", .str (lit "INBOX")),
        (lit "event", .str flagsclearName), (lit "uidvalidity", .ofNat 1531299564),
        (lit "uid", .ofNat 13), (lit "flags", .arr [.str (lit "\\Seen")]),
        (lit "oldFlags", .arr [.str (lit "\\Flagged"), .str (lit "\\Seen")]),
        (lit "keywords", .arr [.str (lit "$label1")])]) := by
  have date : Plain (lit "2018-07-11T08:59:24+00:00") := by decide
  have named : Plain Sample.flagsclear.name := by decide
  obtain ⟨str, rendered⟩ : ∃ str, renderMsg Sample.dovecot Sample.dtxn Sample.context.renderCtx
    (Sample.msg []) Sample.flagsclear = some str := ⟨_, rfl⟩
  have decoded := renderMsg_denotes escape_escapes (fun _ _ => date) Sample.userdb_fragment named rendered
  exact ⟨str, rendered, decoded.2⟩

end PushNotificationKafka
