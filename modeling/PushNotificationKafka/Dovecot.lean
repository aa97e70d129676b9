import PushNotificationKafka.Json.Writer

/-! What the plugin uses of C and of Dovecot: strings, users, the events of the push
notification framework with their payloads, and the functions of Dovecot. Their source is not
part of the repository: they are parameters, and what the plugin relies on is assumed of them
by name. -/
namespace PushNotificationKafka
open Bytes

abbrev CStr := Bytes

def toLower (c : UInt8) : UInt8 := if ascii 'A' ≤ c ∧ c ≤ ascii 'Z' then c + 0x20 else c

/-- `strcasecmp(left, right) == 0`. -/
def strcasecmp (left right : CStr) : Bool := left.map toLower == right.map toLower

abbrev CInt := {n : Int // -2 ^ 31 ≤ n ∧ n < 2 ^ 31}

/-- A `struct mail_user` pointer. -/
structure UserId where
  id : Nat
deriving DecidableEq, Repr

/-- What the plugin reads of a `struct mail_user`: its name, what
`mail_user_plugin_getenv` finds for it, and the name/value pairs of
`set->plugin_envs`, absent when that array does not exist. -/
structure MailUser where
  username : CStr
  getenv : CStr → Option CStr
  pluginEnvs : Option (List (CStr × CStr))

structure Tm where
  year : Int
  mon : Int
  mday : Int
  hour : Int
  min : Int
  sec : Int
deriving DecidableEq, Repr

/-- The bits of `enum mail_flags`. -/
def mailAnswered : UInt32 := 0x01
def mailFlagged : UInt32 := 0x02
def mailDeleted : UInt32 := 0x04
def mailSeen : UInt32 := 0x08
def mailDraft : UInt32 := 0x10

structure MailboxcreateData where
  uidValidity : UInt32

structure MailboxrenameData where
  oldMbox : CStr

/-- A keyword list is absent when its pointer is NULL or its array was never created. -/
structure FlagssetData where
  flagsSet : UInt32
  keywordsSet : Option (List CStr)

structure FlagsclearData where
  flagsClear : UInt32
  keywordsClear : Option (List CStr)
  flagsOld : UInt32
  keywordsOld : Option (List CStr)

structure MessagenewData where
  date : Int
  dateTz : Int
  from_ : Option CStr
  snippet : Option CStr
  subject : Option CStr
  to_ : Option CStr

structure MessageappendData where
  from_ : Option CStr
  snippet : Option CStr
  subject : Option CStr
  to_ : Option CStr

def mailboxcreateName : CStr := lit "MailboxCreate"
def mailboxrenameName : CStr := lit "MailboxRename"
def flagssetName : CStr := lit "FlagsSet"
def flagsclearName : CStr := lit "FlagsClear"
def messagenewName : CStr := lit "MessageNew"
def messageappendName : CStr := lit "MessageAppend"

/-- The events whose payload the plugin reads. -/
def payloadNames : List CStr :=
  [mailboxcreateName, mailboxrenameName, flagssetName, flagsclearName, messagenewName,
    messageappendName]

/-- A `struct push_notification_txn_event`. The name of an event determines the
type of its payload, so that comparing names is matching on constructors; `other`
is every event whose payload the plugin never looks at. -/
inductive TxnEvent where
  | mailboxcreate (data : MailboxcreateData)
  | mailboxrename (data : MailboxrenameData)
  | flagsset (data : FlagssetData)
  | flagsclear (data : FlagsclearData)
  | messagenew (data : MessagenewData)
  | messageappend (data : MessageappendData)
  | other (name : CStr) (untyped : name ∉ payloadNames)

/-- `(*event)->event->event->name`. -/
def TxnEvent.name : TxnEvent → CStr
  | .mailboxcreate _ => mailboxcreateName
  | .mailboxrename _ => mailboxrenameName
  | .flagsset _ => flagssetName
  | .flagsclear _ => flagsclearName
  | .messagenew _ => messagenewName
  | .messageappend _ => messageappendName
  | .other name _ => name

/-- The event data of a mailbox, absent when its array was never created. -/
structure TxnMbox where
  mailbox : CStr
  eventdata : Option (List TxnEvent)

structure TxnMsg where
  mailbox : CStr
  uidValidity : UInt32
  uid : UInt32
  eventdata : Option (List TxnEvent)

/-- The `PUSH_NOTIFICATION_MESSAGE_*` flags of an event configuration. -/
inductive MessageFlag where
  | hdrFrom
  | hdrSubject
  | hdrTo
  | hdrDate
  | bodySnippet
deriving DecidableEq, Repr

/-- An event of a transaction with the configuration that was passed for it, which may be
NULL. -/
structure Subscription where
  event : CStr
  config : Option (List MessageFlag)

/-- The events that Dovecot knows by name, and what triggers them. -/
structure Registry where
  message : CStr → Bool
  mailbox : CStr → Bool

def Registry.known (registry : Registry) (event : CStr) : Bool :=
  registry.message event || registry.mailbox event

/-- The references on users, and the events of one transaction. All drivers of the
transaction share the events. -/
structure Framework where
  refcount : UserId → Int
  events : List Subscription

/-- Functions of Dovecot and of the C library that the plugin calls. -/
structure Dovecot where
  /-- What is appended for a string. -/
  jsonAppendEscaped : CStr → CStr
  gmtime : Int → Tm
  iso8601DateCreateTm : Tm → Int → CStr
  /-- The pieces of a text between the separators. -/
  pStrsplit : CStr → CStr → List CStr
  /-- `none` is the return value -1. -/
  strToInt : CStr → Option CInt
  /-- The references on all users after the call. -/
  mailUserRef : UserId → (UserId → Int) → UserId → Int
  mailUserUnref : UserId → (UserId → Int) → UserId → Int
  /-- The events of the transaction after the call. -/
  pushNotificationEventInit : CStr → Option (List MessageFlag) → List Subscription → List Subscription

/-- The pieces of a text between its commas, of which the empty text has none. -/
def atCommas (text : CStr) : List CStr := if text = [] then [] else text.splitOn (ascii ',')

/-- `p_strsplit` cuts at every comma. -/
def SplitsAtCommas (pStrsplit : CStr → CStr → List CStr) : Prop :=
  ∀ text, pStrsplit text (lit ",") = atCommas text

/-- `mail_user_ref` and `mail_user_unref` count the references on each user. -/
structure CountsReferences (dovecot : Dovecot) : Prop where
  ref : ∀ user refcount other, dovecot.mailUserRef user refcount other =
    refcount other + if user = other then 1 else 0
  unref : ∀ user refcount other, dovecot.mailUserUnref user refcount other =
    refcount other - if user = other then 1 else 0

/-- `push_notification_event_init` adds an event whose name is known, with its configuration,
and does nothing for other names. -/
def AddsKnown (dovecot : Dovecot) (registry : Registry) : Prop :=
  ∀ event config events, dovecot.pushNotificationEventInit event config events =
    if registry.known event then events ++ [⟨event, config⟩] else events

end PushNotificationKafka
