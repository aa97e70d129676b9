import PushNotificationKafka.Context

/-! Rendering of events as JSON text (push-notification-kafka-event.c). A
`string_t` is the bytes appended to it so far. -/
namespace PushNotificationKafka
open Bytes Json

/-- `none` is a NULL pointer. -/
def strStartsWith : Option CStr → Option CStr → Bool
  | some _, some [] => true
  | some (c :: str), some (p :: start) =>
    if c ≠ p then false else strStartsWith (some str) (some start)
  | _, _ => false

section
variable (dovecot : Dovecot)

def renderMbox (dtxn : DriverTxn) (mbox : TxnMbox) (event : TxnEvent) : CStr :=
  let eventName := event.name
  let str := lit "\x7b\"user\":\""
  let str := str ++ dovecot.jsonAppendEscaped dtxn.user.username
  let str := str ++ lit "\",\"mailbox\":\""
  let str := str ++ dovecot.jsonAppendEscaped mbox.mailbox
  let str := str ++ (lit "\",\"event\":\"" ++ eventName)
  let str := match event with
    | .mailboxcreate data => str ++ (lit "\",\"uidvalidity\":" ++ decimal data.uidValidity.toNat)
    | .mailboxrename data =>
      let str := str ++ lit "\",\"oldMailbox\":\""
      let str := str ++ dovecot.jsonAppendEscaped data.oldMbox
      str ++ lit "\""
    | _ => str
  str ++ lit "\x7d"

/-- One block of `write_flags`: the flags after the first put a comma between. -/
def writeFlag (flags bit : UInt32) (name : CStr) : Bool × CStr → Bool × CStr
  | (flagWritten, str) =>
    if flags &&& bit ≠ 0 then
      let str := if flagWritten then str ++ lit "," else str
      (true, str ++ name)
    else (flagWritten, str)

/-- The string is never NULL where `write_flags` is called. -/
def writeFlags (flags : UInt32) (str : CStr) : Bool × CStr :=
  let (flagWritten, str) :=
    if flags &&& mailAnswered ≠ 0 then (true, str ++ lit "\"\\\\Answered\"") else (false, str)
  let (flagWritten, str) := writeFlag flags mailFlagged (lit "\"\\\\Flagged\"") (flagWritten, str)
  let (flagWritten, str) := writeFlag flags mailDeleted (lit "\"\\\\Deleted\"") (flagWritten, str)
  let (flagWritten, str) := writeFlag flags mailSeen (lit "\"\\\\Seen\"") (flagWritten, str)
  writeFlag flags mailDraft (lit "\"\\\\Draft\"") (flagWritten, str)

def writeMsgPrefix (dtxn : DriverTxn) (eventName : CStr) (msg : TxnMsg) : CStr :=
  let str := lit "\x7b\"user\":\""
  let str := str ++ dovecot.jsonAppendEscaped dtxn.user.username
  let str := str ++ lit "\","
  let str := match dtxn.context.userdbJson with
    | some userdbJson => str ++ userdbJson
    | none => str
  let str := str ++ lit "\"mailbox\":\""
  let str := str ++ dovecot.jsonAppendEscaped msg.mailbox
  str ++ (lit "\",\"event\":\"" ++ eventName ++ lit "\",\"uidvalidity\":" ++
    decimal msg.uidValidity.toNat ++ lit ",\"uid\":" ++ decimal msg.uid.toNat)

/-- One section of flags: `send_flags` and any bit at all open it, written or not. -/
def writeFlagsSection (renderCtx : RenderContext) (name : CStr) (flags : UInt32) :
    Bool × CStr → Bool × CStr
  | (flagWritten, str) =>
    if renderCtx.sendFlags ∧ flags > 0 then
      let str := str ++ name
      let (written, str) := writeFlags flags str
      (flagWritten || written, str ++ lit "]")
    else (flagWritten, str)

/-- The body of the keyword loops: `i` counts the keywords written. -/
def writeKeyword (renderCtx : RenderContext) : Nat × Bool × CStr → CStr → Nat × Bool × CStr
  | (i, keywordWritten, str), keyword =>
    if strStartsWith (some keyword) (some renderCtx.keywordPrefix) then
      let str := if i > 0 then str ++ lit ",\"" else str ++ lit "\""
      let str := str ++ dovecot.jsonAppendEscaped keyword
      (i + 1, true, str ++ lit "\"")
    else (i, keywordWritten, str)

def writeKeywordsSection (renderCtx : RenderContext) (name : CStr) (keywords : Option (List CStr)) :
    Bool × CStr → Bool × CStr
  | (keywordWritten, str) =>
    match keywords with
    | none | some [] => (keywordWritten, str)
    | some keywords =>
      let str := str ++ name
      let (_, keywordWritten, str) :=
        keywords.foldl (writeKeyword dovecot renderCtx) (0, keywordWritten, str)
      (keywordWritten, str ++ lit "]")

def writeFlagsEvent (dtxn : DriverTxn) (renderCtx : RenderContext) (eventName : CStr) (msg : TxnMsg)
    (flags : UInt32) (keywords : Option (List CStr)) (flagsOld : UInt32)
    (keywordsOld : Option (List CStr)) : Option CStr :=
  let str := writeMsgPrefix dovecot dtxn eventName msg
  let (flagWritten, str) := writeFlagsSection renderCtx (lit ",\"flags\":[") flags (false, str)
  let (flagWritten, str) :=
    writeFlagsSection renderCtx (lit ",\"oldFlags\":[") flagsOld (flagWritten, str)
  let (keywordWritten, str) :=
    writeKeywordsSection dovecot renderCtx (lit ",\"keywords\":[") keywords (false, str)
  let (keywordWritten, str) :=
    writeKeywordsSection dovecot renderCtx (lit ",\"oldKeywords\":[") keywordsOld (keywordWritten, str)
  let str := str ++ lit "\x7d"
  -- nothing written, send no event
  if flagWritten || keywordWritten then some str else none

/-- One text member of the message events, present when its pointer is not NULL. -/
def writeText (name : CStr) (text : Option CStr) (str : CStr) : CStr :=
  match text with
  | none => str
  | some text =>
    let str := str ++ name
    let str := str ++ dovecot.jsonAppendEscaped text
    str ++ lit "\""

def writeEventMessagenew (dtxn : DriverTxn) (msg : TxnMsg) (data : MessagenewData) : CStr :=
  let str := writeMsgPrefix dovecot dtxn messagenewName msg
  let str :=
    if data.date ≠ -1 then
      let tm := dovecot.gmtime data.date
      str ++ (lit ",\"date\":\"" ++ dovecot.iso8601DateCreateTm tm data.dateTz ++ lit "\"")
    else str
  let str := writeText dovecot (lit ",\"from\":\"") data.from_ str
  let str := writeText dovecot (lit ",\"snippet\":\"") data.snippet str
  let str := writeText dovecot (lit ",\"subject\":\"") data.subject str
  let str := writeText dovecot (lit ",\"to\":\"") data.to_ str
  str ++ lit "\x7d"

def writeEventMessageappend (dtxn : DriverTxn) (msg : TxnMsg) (data : MessageappendData) : CStr :=
  let str := writeMsgPrefix dovecot dtxn messageappendName msg
  let str := writeText dovecot (lit ",\"from\":\"") data.from_ str
  let str := writeText dovecot (lit ",\"snippet\":\"") data.snippet str
  let str := writeText dovecot (lit ",\"subject\":\"") data.subject str
  let str := writeText dovecot (lit ",\"to\":\"") data.to_ str
  str ++ lit "\x7d"

def renderMsg (dtxn : DriverTxn) (renderCtx : RenderContext) (msg : TxnMsg) (event : TxnEvent) :
    Option CStr :=
  match event with
  | .flagsset data =>
    writeFlagsEvent dovecot dtxn renderCtx event.name msg data.flagsSet data.keywordsSet 0 none
  | .flagsclear data =>
    writeFlagsEvent dovecot dtxn renderCtx event.name msg data.flagsClear data.keywordsClear
      data.flagsOld data.keywordsOld
  | .messagenew data => some (writeEventMessagenew dovecot dtxn msg data)
  | .messageappend data => some (writeEventMessageappend dovecot dtxn msg data)
  | _ => some (writeMsgPrefix dovecot dtxn event.name msg ++ lit "\x7d")

end
end PushNotificationKafka
