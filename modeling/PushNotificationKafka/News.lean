import PushNotificationKafka.Fields
import PushNotificationKafka.Userdb
import PushNotificationKafka.Visibility

/-! What the events of a driver tell a consumer, and how a consumer reads it back from
the text of a message. The options of the driver decide what it is told: of the flags and
keywords only what gets through. The text of a mailbox event can only be read where the
renderer closes the name of the event. -/
namespace PushNotificationKafka
open Bytes Json

/-- All members that events have, in the order in which they stand. -/
inductive Key where
  | user | userdb | mailbox | event | uidvalidity | uid | oldMailbox
  | flags | oldFlags | keywords | oldKeywords
  | date | from_ | snippet | subject | to_
deriving DecidableEq, Repr

namespace Key

def name : Key → CStr
  | user => lit "user"
  | userdb => lit "userdb"
  | mailbox => lit "mailbox"
  | event => lit "event"
  | uidvalidity => lit "uidvalidity"
  | uid => lit "uid"
  | oldMailbox => lit "oldMailbox"
  | flags => lit "flags"
  | oldFlags => lit "oldFlags"
  | keywords => lit "keywords"
  | oldKeywords => lit "oldKeywords"
  | date => lit "date"
  | from_ => lit "from"
  | snippet => lit "snippet"
  | subject => lit "subject"
  | to_ => lit "to"

def order : List Key :=
  [user, userdb, mailbox, event, uidvalidity, uid, oldMailbox, flags, oldFlags, keywords, oldKeywords,
    date, from_, snippet, subject, to_]

theorem listed (key : Key) : key ∈ order := by cases key <;> decide

theorem distinct : (order.map name).Nodup := by decide

end Key

/-- What the options of a driver mean to a consumer, with the fields that its user has a
value for. -/
structure Profile where
  topic : CStr
  userdb : List (CStr × CStr)
  renderCtx : RenderContext

def profileOf (config : DriverConfig) (user : MailUser) : Profile where
  topic := (config (lit "topic")).getD defaultTopic
  userdb := userdbPairs user (config (lit "userdb"))
  renderCtx := {
    sendFlags := (config (lit "send_flags")).elim true (strcasecmp · (lit "on"))
    keywordPrefix := (config (lit "keyword_prefix")).getD defaultPrefix }

/-- The flags that have a name. -/
def namedFlags : UInt32 := mailAnswered ||| mailFlagged ||| mailDeleted ||| mailSeen ||| mailDraft

structure News where
  user : CStr
  userdb : List (CStr × CStr) := []
  mailbox : CStr
  event : CStr
  uidvalidity : Option Nat := none
  uid : Option Nat := none
  oldMailbox : Option CStr := none
  flags : UInt32 := 0
  oldFlags : UInt32 := 0
  keywords : List CStr := []
  oldKeywords : List CStr := []
  date : Option CStr := none
  from_ : Option CStr := none
  snippet : Option CStr := none
  subject : Option CStr := none
  to_ : Option CStr := none
deriving DecidableEq

namespace Profile

/-- The flags of a word that get through. -/
def flags (profile : Profile) (flags : UInt32) : UInt32 :=
  if profile.renderCtx.sendFlags then flags &&& namedFlags else 0

def keywords (profile : Profile) (keywords : Option (List CStr)) : List CStr :=
  visible profile.renderCtx keywords

/-- A flags event of which nothing gets through. -/
def silent (profile : Profile) (change : FlagsChange) : Bool :=
  profile.flags change.flags == 0 && profile.flags change.flagsOld == 0 &&
    (profile.keywords change.keywords).isEmpty && (profile.keywords change.keywordsOld).isEmpty

/-- What a message event adds to what all message events tell. -/
def tell (profile : Profile) (dovecot : Dovecot) (news : News) : TxnEvent → News
  | .flagsset data =>
    { news with flags := profile.flags data.flagsSet, keywords := profile.keywords data.keywordsSet }
  | .flagsclear data =>
    { news with
      flags := profile.flags data.flagsClear
      oldFlags := profile.flags data.flagsOld
      keywords := profile.keywords data.keywordsClear
      oldKeywords := profile.keywords data.keywordsOld }
  | .messagenew data =>
    { news with
      date := if data.date = -1 then none
        else some (dovecot.iso8601DateCreateTm (dovecot.gmtime data.date) data.dateTz)
      from_ := data.from_
      snippet := data.snippet
      subject := data.subject
      to_ := data.to_ }
  | .messageappend data =>
    { news with from_ := data.from_, snippet := data.snippet, subject := data.subject, to_ := data.to_ }
  | .mailboxcreate _ | .mailboxrename _ | .other _ _ => news

def tellMbox (news : News) : TxnEvent → Option News
  | .mailboxcreate data => some { news with uidvalidity := some data.uidValidity.toNat }
  | .mailboxrename data => some { news with oldMailbox := some data.oldMbox }
  | _ => none

/-- What an event of a target tells a consumer. -/
def news (profile : Profile) (dovecot : Dovecot) (username : CStr) : Target → TxnEvent → Option News
  | .msg message, event =>
    some (profile.tell dovecot
      { user := username, userdb := profile.userdb, mailbox := message.mailbox, event := event.name,
        uidvalidity := some message.uidValidity.toNat, uid := some message.uid.toNat } event)
  | .mbox box, event => tellMbox { user := username, mailbox := box.mailbox, event := event.name } event

/-- The event is worth a message. -/
def announces (profile : Profile) : Target → TxnEvent → Bool
  | .msg _, event => (event.change.map profile.silent) != some true
  | .mbox _, _ => true

/-- The messages about a target, with what a consumer gets to know from each. -/
def posts (profile : Profile) (dovecot : Dovecot) (username : CStr) (target : Target) : List (Option News) :=
  ((target.eventdata.getD []).filter (profile.announces target)).map (profile.news dovecot username target)

end Profile

def asText : Value → Option CStr
  | .str text => some text
  | _ => none

def asNat : Value → Option Nat
  | .num d => if d.exponent = 0 then d.mantissa.toNat? else none
  | _ => none

def asTexts : Value → List CStr
  | .arr vs => vs.filterMap asText
  | _ => []

def asPairs : Value → List (CStr × CStr)
  | .obj ms => ms.filterMap fun m => (asText m.2).map (m.1, ·)
  | _ => []

/-- The word of the flags with these names. -/
def flagsOf (names : List CStr) : UInt32 :=
  flagNames.foldl (fun flags flag => if names.contains flag.2 then flags ||| flag.1 else flags) 0

def newsOf (value : Key → Option Value) : Option News := do
  let user ← (value .user).bind asText
  let mailbox ← (value .mailbox).bind asText
  let event ← (value .event).bind asText
  let texts (key : Key) : List CStr := ((value key).map asTexts).getD []
  some {
    user, mailbox, event
    userdb := ((value .userdb).map asPairs).getD []
    uidvalidity := (value .uidvalidity).bind asNat
    uid := (value .uid).bind asNat
    oldMailbox := (value .oldMailbox).bind asText
    flags := flagsOf (texts .flags)
    oldFlags := flagsOf (texts .oldFlags)
    keywords := texts .keywords
    oldKeywords := texts .oldKeywords
    date := (value .date).bind asText
    from_ := (value .from_).bind asText
    snippet := (value .snippet).bind asText
    subject := (value .subject).bind asText
    to_ := (value .to_).bind asText }

/-- What a consumer makes of a text: it looks for the members by their names. -/
def readNews (text : CStr) : Option News :=
  match decode text with
  | some (.obj ms) => newsOf fun key => ms.lookup key.name
  | _ => none

/-- A flag is one bit: a word has it or has nothing of it. -/
theorem oneBit (flags : UInt32) (single : bit.toNat = 2 ^ i) : flags &&& bit = 0 ∨ flags &&& bit = bit := by
  have word (j : Nat) : (flags &&& bit).toNat.testBit j = (flags.toNat.testBit i && decide (i = j)) := by
    rw [UInt32.toNat_and, single, Nat.testBit_and, Nat.testBit_two_pow]
    by_cases same : i = j <;> simp [same]
  cases set : flags.toNat.testBit i with
  | false =>
    refine .inl (UInt32.toNat_inj.mp (Nat.eq_of_testBit_eq fun j => ?_))
    rw [word, set, Bool.false_and]
    simp
  | true =>
    refine .inr (UInt32.toNat_inj.mp (Nat.eq_of_testBit_eq fun j => ?_))
    rw [word, set, single, Nat.testBit_two_pow, Bool.true_and]

theorem flagNames_oneBit (flags : UInt32) (member : flag ∈ flagNames) :
    flags &&& flag.1 = 0 ∨ flags &&& flag.1 = flag.1 := by
  simp only [flagNames, List.mem_cons, List.not_mem_nil, or_false] at member
  rcases member with rfl | rfl | rfl | rfl | rfl
  · exact oneBit (i := 0) flags rfl
  · exact oneBit (i := 1) flags rfl
  · exact oneBit (i := 2) flags rfl
  · exact oneBit (i := 3) flags rfl
  · exact oneBit (i := 4) flags rfl

theorem mem_setNames (flags : UInt32) (member : flag ∈ flagNames) :
    ((flagNames.filter (hasFlag flags)).map Prod.snd).contains flag.2 = true ↔ hasFlag flags flag = true := by
  rw [List.contains_iff_mem]
  have distinct : (flagNames.map Prod.snd).Nodup := by decide
  constructor
  · intro named
    obtain ⟨other, chosen, same⟩ := List.mem_map.mp named
    obtain ⟨member', set⟩ := List.mem_filter.mp chosen
    rwa [← List.inj_on_of_nodup_map distinct member' member same]
  · intro set
    exact List.mem_map_of_mem (List.mem_filter.mpr ⟨member, set⟩)

/-- The names of the flags of a word give back its flags that have a name. -/
theorem flagsOf_names (flags : UInt32) :
    flagsOf ((flagNames.filter (hasFlag flags)).map Prod.snd) = flags &&& namedFlags := by
  have turn : ∀ flag ∈ flagNames, ∀ word : UInt32,
      (if ((flagNames.filter (hasFlag flags)).map Prod.snd).contains flag.2 then word ||| flag.1 else word) =
        word ||| (flags &&& flag.1) := by
    intro flag member word
    have named := mem_setNames flags member
    rcases flagNames_oneBit flags member with unset | set
    · have no : hasFlag flags flag = false := by simp [hasFlag, unset]
      rw [if_neg (by rw [named, no]; decide), unset, UInt32.or_zero]
    · by_cases yes : hasFlag flags flag = true
      · rw [if_pos (named.mpr yes), set]
      · have unset : flags &&& flag.1 = 0 := by simpa [hasFlag] using yes
        rw [if_neg (mt named.mp yes), unset, UInt32.or_zero]
  rw [flagsOf, List.foldl_ext _ _ _ fun word flag member => turn flag member word]
  apply UInt32.toNat_inj.mp
  simp only [flagNames, namedFlags, List.foldl_cons, List.foldl_nil, UInt32.zero_or, UInt32.toNat_or,
    UInt32.toNat_and, Nat.and_or_distrib_left]

def userdbValue (userdb : List (CStr × CStr)) : Option Value :=
  if userdb = [] then none else some (.obj (userdbMembers userdb))

def flagsValue (renderCtx : RenderContext) (flags : UInt32) : Option Value :=
  if renderCtx.sendFlags ∧ flags ≠ 0 then some (.arr (flagValues flags)) else none

def keywordsValue (renderCtx : RenderContext) : Option (List CStr) → Option Value
  | none | some [] => none
  | some (keyword :: keywords) => some (.arr (keywordValues renderCtx (keyword :: keywords)))

def dateValue (dovecot : Dovecot) (data : MessagenewData) : Option Value :=
  if data.date = -1 then none
  else some (.str (dovecot.iso8601DateCreateTm (dovecot.gmtime data.date) data.dateTz))

/-- What an event adds to the members that all message events share. -/
def eventValue (dovecot : Dovecot) (renderCtx : RenderContext) : TxnEvent → Key → Option Value
  | .flagsset data, .flags => flagsValue renderCtx data.flagsSet
  | .flagsset data, .keywords => keywordsValue renderCtx data.keywordsSet
  | .flagsclear data, .flags => flagsValue renderCtx data.flagsClear
  | .flagsclear data, .oldFlags => flagsValue renderCtx data.flagsOld
  | .flagsclear data, .keywords => keywordsValue renderCtx data.keywordsClear
  | .flagsclear data, .oldKeywords => keywordsValue renderCtx data.keywordsOld
  | .messagenew data, .date => dateValue dovecot data
  | .messagenew data, .from_ => data.from_.map .str
  | .messagenew data, .snippet => data.snippet.map .str
  | .messagenew data, .subject => data.subject.map .str
  | .messagenew data, .to_ => data.to_.map .str
  | .messageappend data, .from_ => data.from_.map .str
  | .messageappend data, .snippet => data.snippet.map .str
  | .messageappend data, .subject => data.subject.map .str
  | .messageappend data, .to_ => data.to_.map .str
  | _, _ => none

def msgValue (dovecot : Dovecot) (dtxn : DriverTxn) (renderCtx : RenderContext) (userdb : List (CStr × CStr))
    (msg : TxnMsg) (event : TxnEvent) : Key → Option Value
  | .user => some (.str dtxn.user.username)
  | .userdb => userdbValue userdb
  | .mailbox => some (.str msg.mailbox)
  | .event => some (.str event.name)
  | .uidvalidity => some (.ofNat msg.uidValidity.toNat)
  | .uid => some (.ofNat msg.uid.toNat)
  | key => eventValue dovecot renderCtx event key

def mboxValue (dtxn : DriverTxn) (mbox : TxnMbox) (event : TxnEvent) : Key → Option Value
  | .user => some (.str dtxn.user.username)
  | .mailbox => some (.str mbox.mailbox)
  | .event => some (.str event.name)
  | .uidvalidity =>
    match event with
    | .mailboxcreate data => some (.ofNat data.uidValidity.toNat)
    | _ => none
  | .oldMailbox =>
    match event with
    | .mailboxrename data => some (.str data.oldMbox)
    | _ => none
  | _ => none

def userdbMember (userdb : List (CStr × CStr)) : List (Bytes × Value) :=
  ((userdbValue userdb).map (lit "userdb", ·)).toList

theorem userdbMember_some (valued : userdb ≠ []) :
    userdbMember userdb = [(lit "userdb", .obj (userdbMembers userdb))] := by
  rw [userdbMember, userdbValue, if_neg valued]
  rfl

theorem flagsMember_eq (renderCtx : RenderContext) (key : CStr) (flags : UInt32) :
    flagsMember renderCtx key flags = ((flagsValue renderCtx flags).map (key, ·)).toList := by
  unfold flagsMember flagsValue
  split <;> rfl

theorem keywordsMember_eq (renderCtx : RenderContext) (key : CStr) (keywords : Option (List CStr)) :
    keywordsMember renderCtx key keywords = ((keywordsValue renderCtx keywords).map (key, ·)).toList := by
  match keywords with
  | none | some [] | some (_ :: _) => rfl

theorem textMember_eq (key : CStr) (text : Option CStr) :
    textMember key text = ((text.map Value.str).map (key, ·)).toList := by
  cases text <;> rfl

theorem dateMember_eq (dovecot : Dovecot) (data : MessagenewData) :
    dateMember dovecot data = ((dateValue dovecot data).map (lit "date", ·)).toList := by
  unfold dateMember dateValue
  split <;> rfl

/-- The members of a message event are those keys that have a value. -/
theorem msgMembers_eq (dovecot : Dovecot) (dtxn : DriverTxn) (renderCtx : RenderContext)
    (userdb : List (CStr × CStr)) (msg : TxnMsg) (event : TxnEvent) :
    msgMembers dovecot dtxn renderCtx (userdbMember userdb) msg event =
      Fields.members Key.name Key.order (msgValue dovecot dtxn renderCtx userdb msg event) := by
  cases event with
  | flagsset | flagsclear | messagenew | messageappend | mailboxcreate | mailboxrename | other =>
    simp [msgMembers, msgPrefixMembers, eventMembers, userdbMember, Key.order, Key.name, Fields.members_cons,
      msgValue, eventValue, flagsMember_eq, keywordsMember_eq, textMember_eq, dateMember_eq]

theorem mboxMembers_eq (dtxn : DriverTxn) (mbox : TxnMbox) (closes : ClosesName event) :
    mboxMembers dtxn mbox event = Fields.members Key.name Key.order (mboxValue dtxn mbox event) := by
  rcases closesName_cases closes with ⟨data, rfl⟩ | ⟨data, rfl⟩
  · rfl
  · rfl

/-- Every key finds its value among the members. -/
theorem readNews_members {value : Key → Option Value}
    (decoded : decode text = some (.obj (Fields.members Key.name Key.order value))) :
    readNews text = newsOf value := by
  have found : (fun key : Key => (Fields.members Key.name Key.order value).lookup key.name) = value := by
    funext key
    exact Fields.lookup_members Key.distinct value key.listed
  simp only [readNews, decoded, found]

/-- What can be read is an object. -/
theorem readNews_decodes (read : readNews text = some news) : ∃ ms, decode text = some (.obj ms) := by
  unfold readNews at read
  split at read
  · exact ⟨_, by assumption⟩
  · contradiction

theorem asTexts_strings (texts : List CStr) : asTexts (.arr (texts.map .str)) = texts := by
  induction texts with
  | nil => rfl
  | cons text texts ih => exact congrArg (text :: ·) ih

theorem asPairs_userdb (userdb : List (CStr × CStr)) : asPairs (.obj (userdbMembers userdb)) = userdb := by
  induction userdb with
  | nil => rfl
  | cons pair userdb ih => exact congrArg (pair :: ·) ih

@[simp] theorem asNat_ofNat (n : Nat) : asNat (.ofNat n) = some n := rfl

@[simp] theorem asText_map (text : Option CStr) : (text.map Value.str).bind asText = text := by
  cases text <;> rfl

@[simp] theorem userdbValue_read (userdb : List (CStr × CStr)) :
    ((userdbValue userdb).map asPairs).getD [] = userdb := by
  unfold userdbValue
  split
  · rename_i nothing
    exact nothing.symm
  · exact asPairs_userdb userdb

@[simp] theorem keywordsValue_read (renderCtx : RenderContext) (keywords : Option (List CStr)) :
    ((keywordsValue renderCtx keywords).map asTexts).getD [] = visible renderCtx keywords := by
  match keywords with
  | none | some [] => rfl
  | some (keyword :: keywords) => exact asTexts_strings _

@[simp] theorem flagsValue_read (profile : Profile) (flags : UInt32) :
    flagsOf (((flagsValue profile.renderCtx flags).map asTexts).getD []) = profile.flags flags := by
  have names : flagValues flags = ((flagNames.filter (hasFlag flags)).map Prod.snd).map .str := by
    rw [flagValues, List.map_map]
    rfl
  have none : flagsOf [] = 0 := by decide
  unfold flagsValue Profile.flags
  by_cases sent : profile.renderCtx.sendFlags = true
  · by_cases zero : flags = 0
    · simp [zero, none]
    · rw [if_pos ⟨sent, zero⟩, if_pos sent, Option.map_some, Option.getD_some, names, asTexts_strings,
        flagsOf_names]
  · simp [sent, none]

@[simp] theorem dateValue_read (dovecot : Dovecot) (data : MessagenewData) :
    (dateValue dovecot data).bind asText =
      if data.date = -1 then none
      else some (dovecot.iso8601DateCreateTm (dovecot.gmtime data.date) data.dateTz) := by
  unfold dateValue
  split <;> rfl

theorem newsOf_msg (profile : Profile) (dovecot : Dovecot) (dtxn : DriverTxn) (msg : TxnMsg)
    (event : TxnEvent) :
    newsOf (msgValue dovecot dtxn profile.renderCtx profile.userdb msg event) =
      profile.news dovecot dtxn.user.username (.msg msg) event := by
  have none : flagsOf [] = 0 := by decide
  cases event with
  | flagsset | flagsclear | messagenew | messageappend | mailboxcreate | mailboxrename | other =>
    simp [newsOf, msgValue, eventValue, Profile.news, Profile.tell, Profile.keywords, asText, none]

theorem newsOf_mbox (profile : Profile) (dovecot : Dovecot) (dtxn : DriverTxn) (mbox : TxnMbox)
    (closes : ClosesName event) :
    newsOf (mboxValue dtxn mbox event) = profile.news dovecot dtxn.user.username (.mbox mbox) event := by
  have none : flagsOf [] = 0 := by decide
  rcases closesName_cases closes with ⟨data, rfl⟩ | ⟨data, rfl⟩
  · simp [newsOf, mboxValue, Profile.news, Profile.tellMbox, asText, none]
  · simp [newsOf, mboxValue, Profile.news, Profile.tellMbox, asText, none]

/-- A context has the options that the profile is made of. -/
structure Reflects (profile : Profile) (ctx : Context) : Prop where
  topic : ctx.topic = profile.topic
  renderCtx : ctx.renderCtx = profile.renderCtx
  userdb : UserdbFragment ctx.userdbJson (userdbMember profile.userdb)

theorem init_reflects (escapes : Escapes dovecot.jsonAppendEscaped) (splits : SplitsAtCommas dovecot.pStrsplit)
    (config : DriverConfig) (user : MailUser) :
    Reflects (profileOf config user) (initContext dovecot config user) := by
  refine ⟨rfl, ?_, ?_⟩
  · simp only [initContext, profileOf]
    cases config (lit "send_flags") <;> rfl
  · change UserdbFragment (initUserdbJson dovecot user (config (lit "userdb")))
      (userdbMember (userdbPairs user (config (lit "userdb"))))
    rcases initUserdbJson_spec escapes splits user (config (lit "userdb")) with
      ⟨valueless, absent⟩ | ⟨object, present, denotes, valued⟩
    · rw [absent, valueless]
      exact .absent
    · rw [present, userdbMember_some valued]
      exact .object (.of_denotes denotes)

theorem flagValues_named (flags : UInt32) : (flagValues flags).isEmpty = true ↔ flags &&& namedFlags = 0 := by
  rw [flagValues_nil, ← UInt32.toNat_inj]
  simp [flagNames, namedFlags, Nat.and_or_distrib_left, ← UInt32.toNat_inj, and_assoc]

theorem silent_iff (profile : Profile) (change : FlagsChange) :
    profile.silent change = true ↔ change.Suppressed profile.renderCtx := by
  have flags : (profile.flags change.flags = 0 ∧ profile.flags change.flagsOld = 0) ↔
      (profile.renderCtx.sendFlags = false ∨
        ∀ flag ∈ flagNames, change.flags &&& flag.1 = 0 ∧ change.flagsOld &&& flag.1 = 0) := by
    simp only [forall₂_and, ← flagValues_nil, flagValues_named, Profile.flags]
    cases profile.renderCtx.sendFlags <;> simp
  have keywords : (profile.keywords change.keywords).isEmpty = true ∧
      (profile.keywords change.keywordsOld).isEmpty = true ↔
        ∀ keyword ∈ change.keywords.getD [] ++ change.keywordsOld.getD [],
          ¬ profile.renderCtx.keywordPrefix <+: keyword := by
    simp only [Profile.keywords, visible_nil, List.mem_append, or_imp, forall_and]
  rw [FlagsChange.Suppressed, ← flags, ← keywords]
  simp [Profile.silent, and_assoc]

section
variable {dovecot : Dovecot} {dtxn : DriverTxn} {profile : Profile}

theorem renderMsg_announced (reflects : Reflects profile dtxn.context) (msg : TxnMsg) (event : TxnEvent) :
    (renderMsg dovecot dtxn dtxn.context.renderCtx msg event).isSome = profile.announces (.msg msg) event := by
  cases changed : event.change with
  | none =>
    have announced : profile.announces (.msg msg) event = true := by simp [Profile.announces, changed]
    rw [announced]
    cases event with
    | flagsset | flagsclear => contradiction
    | messagenew | messageappend | mailboxcreate | mailboxrename | other => rfl
  | some change =>
    have silent := (change.write_none dovecot dtxn dtxn.context.renderCtx event.name msg).trans
      (reflects.renderCtx ▸ (silent_iff profile change).symm)
    rw [renderMsg_change changed, Bool.eq_iff_iff, Option.isSome_iff_ne_none, Ne, silent]
    simp [Profile.announces, changed]

/-- The text of an event has the members that tell its news, or it has no news and its text
is no JSON: the renderer leaves the name of the event open. -/
theorem render_decode (escapes : Escapes dovecot.jsonAppendEscaped)
    (dates : ∀ tm tz, Plain (dovecot.iso8601DateCreateTm tm tz)) (reflects : Reflects profile dtxn.context)
    {target : Target} (named : Plain event.name) (rendered : target.render dovecot dtxn event = some str) :
    (∃ value, decode str = some (.obj (Fields.members Key.name Key.order value)) ∧
      newsOf value = profile.news dovecot dtxn.user.username target event) ∨
    (decode str = none ∧ profile.news dovecot dtxn.user.username target event = none) := by
  cases target with
  | msg msg =>
    obtain ⟨inner, rfl, opened⟩ := renderMsg_open escapes dates reflects.userdb named rendered
    have decoded := decode_complete (.of_denotes opened.close)
    rw [msgMembers_eq] at decoded
    refine .inl ⟨_, decoded, ?_⟩
    rw [reflects.renderCtx, newsOf_msg]
  | mbox mbox =>
    obtain rfl := Option.some.inj rendered
    by_cases closes : ClosesName event
    · have closed := (mboxEnd_open escapes dtxn mbox closes).close
      rw [← renderMbox_eq, mboxMembers_eq dtxn mbox closes] at closed
      exact .inl ⟨_, decode_complete (.of_denotes closed), newsOf_mbox profile dovecot dtxn mbox closes⟩
    · refine .inr ⟨renderMbox_unterminated dovecot escapes dtxn mbox named closes, ?_⟩
      cases event with
      | mailboxcreate => exact absurd (.inl rfl) closes
      | mailboxrename => exact absurd (.inr rfl) closes
      | flagsset | flagsclear | messagenew | messageappend | other => rfl

/-- What a consumer reads of an event is what the event tells: nothing where the event is
suppressed, and a text that cannot be read where it has no news. -/
theorem render_read (dtxn : DriverTxn) (escapes : Escapes dovecot.jsonAppendEscaped)
    (dates : ∀ tm tz, Plain (dovecot.iso8601DateCreateTm tm tz)) (reflects : Reflects profile dtxn.context)
    (target : Target) (named : Plain event.name) :
    (target.render dovecot dtxn event).map readNews =
      if profile.announces target event then some (profile.news dovecot dtxn.user.username target event)
      else none := by
  have announced : (target.render dovecot dtxn event).isSome = profile.announces target event := by
    cases target with
    | msg msg => exact renderMsg_announced reflects msg event
    | mbox mbox => rfl
  rw [← announced]
  cases rendered : target.render dovecot dtxn event with
  | none => rfl
  | some str =>
    rw [Option.isSome_some, if_pos rfl, Option.map_some]
    congr 1
    rcases render_decode escapes dates reflects named rendered with ⟨value, decoded, news⟩ | ⟨broken, news⟩
    · rw [readNews_members decoded, news]
    · rw [readNews, broken, news]

theorem posts_read (dtxn : DriverTxn) (escapes : Escapes dovecot.jsonAppendEscaped)
    (dates : ∀ tm tz, Plain (dovecot.iso8601DateCreateTm tm tz)) (reflects : Reflects profile dtxn.context)
    (target : Target) (named : ∀ event ∈ target.eventdata.getD [], Plain event.name) :
    ((target.eventdata.getD []).filterMap (target.render dovecot dtxn)).map readNews =
      profile.posts dovecot dtxn.user.username target := by
  unfold Profile.posts
  generalize target.eventdata.getD [] = events at named ⊢
  induction events with
  | nil => rfl
  | cons event events ih =>
    obtain ⟨first, rest⟩ := List.forall_mem_cons.mp named
    have read := render_read dtxn escapes dates reflects target first
    rw [List.filterMap_cons, List.filter_cons]
    by_cases announced : profile.announces target event = true
    · rw [if_pos announced] at read
      obtain ⟨str, rendered, same⟩ := Option.map_eq_some_iff.mp read
      simp only [rendered, List.map_cons, same, ih rest, if_pos announced]
    · rw [if_neg announced, Option.map_eq_none_iff] at read
      simp only [read, ih rest, if_neg announced]

end
end PushNotificationKafka
