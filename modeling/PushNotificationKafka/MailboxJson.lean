import PushNotificationKafka.EventJson

/-! What the renderer of mailbox events makes of each event. It opens the string of
the event name and leaves it to the branch of the event to close it. -/
namespace PushNotificationKafka
open Bytes Json

def mboxEventMembers : TxnEvent → List (Bytes × Value)
  | .mailboxcreate data => [(lit "uidvalidity", .ofNat data.uidValidity.toNat)]
  | .mailboxrename data => [(lit "oldMailbox", .str data.oldMbox)]
  | _ => []

/-- All members that a mailbox event should have, in order. -/
def mboxMembers (dtxn : DriverTxn) (mbox : TxnMbox) (event : TxnEvent) : List (Bytes × Value) :=
  [(lit "user", .str dtxn.user.username), (lit "mailbox", .str mbox.mailbox),
    (lit "event", .str event.name)] ++ mboxEventMembers event

/-- The text up to the event name, whose string is open at its end. -/
def mboxStart (dovecot : Dovecot) (dtxn : DriverTxn) (mbox : TxnMbox) : CStr :=
  lit "\x7b\"user\":\"" ++ (dovecot.jsonAppendEscaped dtxn.user.username ++ [quote]) ++
    (opening (lit "mailbox") ++ quote :: (dovecot.jsonAppendEscaped mbox.mailbox ++ [quote]))

/-- What follows the event name: only two events close its string. -/
def mboxEnd (dovecot : Dovecot) : TxnEvent → CStr
  | .mailboxcreate data => quote :: (opening (lit "uidvalidity") ++ decimal data.uidValidity.toNat)
  | .mailboxrename data =>
    quote :: (opening (lit "oldMailbox") ++ quote :: (dovecot.jsonAppendEscaped data.oldMbox ++ [quote]))
  | _ => []

theorem renderMbox_eq (dovecot : Dovecot) (dtxn : DriverTxn) (mbox : TxnMbox) (event : TxnEvent) :
    renderMbox dovecot dtxn mbox event =
      mboxStart dovecot dtxn mbox ++ (opening (lit "event") ++ quote :: event.name) ++
        mboxEnd dovecot event ++ [rbrace] := by
  have mailbox : lit "\",\"mailbox\":\"" = quote :: (opening (lit "mailbox") ++ [quote]) := rfl
  have event' : lit "\",\"event\":\"" = quote :: (opening (lit "event") ++ [quote]) := rfl
  have uidValidity : lit "\",\"uidvalidity\":" = quote :: opening (lit "uidvalidity") := rfl
  have oldMailbox : lit "\",\"oldMailbox\":\"" = quote :: (opening (lit "oldMailbox") ++ [quote]) := rfl
  have close : lit "\"" = [quote] := rfl
  have brace : lit "\x7d" = [rbrace] := rfl
  cases event with
  | mailboxcreate | mailboxrename | flagsset | flagsclear | messagenew | messageappend | other =>
    simp only [renderMbox, mboxStart, mboxEnd, mailbox, event', uidValidity, oldMailbox, close, brace,
      List.append_assoc, List.cons_append, List.nil_append]

theorem mboxStart_open (dovecot : Dovecot) (escapes : Escapes dovecot.jsonAppendEscaped)
    (dtxn : DriverTxn) (mbox : TxnMbox) :
    OpenObject (mboxStart dovecot dtxn mbox)
      [(lit "user", .str dtxn.user.username), (lit "mailbox", .str mbox.mailbox)] :=
  (user_open dovecot escapes dtxn.user.username).addText (lit "mailbox") (escapes mbox.mailbox)

/-- `push_notification_driver_kafka_render_mbox` has a branch for the event. -/
def ClosesName (event : TxnEvent) : Prop :=
  event.name = mailboxcreateName ∨ event.name = mailboxrenameName

theorem closesName_cases (closes : ClosesName event) :
    (∃ data, event = .mailboxcreate data) ∨ ∃ data, event = .mailboxrename data := by
  cases event with
  | mailboxcreate data => exact .inl ⟨data, rfl⟩
  | mailboxrename data => exact .inr ⟨data, rfl⟩
  | flagsset | flagsclear | messagenew | messageappend =>
    exact absurd closes (by simp only [ClosesName, TxnEvent.name]; decide)
  | other name untyped =>
    rcases closes with rfl | rfl <;> exact absurd (by decide) untyped

theorem mboxEnd_nil (dovecot : Dovecot) (leaves : ¬ ClosesName event) : mboxEnd dovecot event = [] := by
  cases event with
  | mailboxcreate => exact absurd (.inl rfl) leaves
  | mailboxrename => exact absurd (.inr rfl) leaves
  | _ => rfl

theorem mboxEnd_open (escapes : Escapes dovecot.jsonAppendEscaped) (dtxn : DriverTxn) (mbox : TxnMbox)
    (closes : ClosesName event) :
    OpenObject (mboxStart dovecot dtxn mbox ++ (opening (lit "event") ++ quote :: event.name) ++
      mboxEnd dovecot event) (mboxMembers dtxn mbox event) := by
  have start := mboxStart_open dovecot escapes dtxn mbox
  rcases closesName_cases closes with ⟨data, rfl⟩ | ⟨data, rfl⟩
  · have name : Plain mailboxcreateName := by decide
    have opened := (start.addText (lit "event") (.of_plain name)).addValue
      (lit "uidvalidity") (.of_denotes (decimal_denotes data.uidValidity.toNat))
    simpa [mboxEnd, mboxMembers, mboxEventMembers, TxnEvent.name] using opened
  · have name : Plain mailboxrenameName := by decide
    have opened := (start.addText (lit "event") (.of_plain name)).addText
      (lit "oldMailbox") (escapes data.oldMbox)
    simpa [mboxEnd, mboxMembers, mboxEventMembers, TxnEvent.name] using opened

/-- Without a branch for the event the string of its name runs to the end of the
text. -/
theorem renderMbox_unterminated (dovecot : Dovecot) (escapes : Escapes dovecot.jsonAppendEscaped)
    (dtxn : DriverTxn) (mbox : TxnMbox) (named : Plain event.name) (leaves : ¬ ClosesName event) :
    decode (renderMbox dovecot dtxn mbox event) = none := by
  have start := mboxStart_open dovecot escapes dtxn mbox
  have inside : Plain (event.name ++ [rbrace]) := plain_append.mpr ⟨named, by decide⟩
  have broken := start.unterminated (lit "event") inside
  rw [renderMbox_eq, mboxEnd_nil dovecot leaves]
  simpa only [List.append_assoc, List.cons_append, List.nil_append] using broken

/-- A mailbox event is rendered as one JSON object with exactly its members when,
and only when, it is one of the two events that the renderer closes the name of. -/
theorem renderMbox_denotes_iff (dovecot : Dovecot) (escapes : Escapes dovecot.jsonAppendEscaped)
    (dtxn : DriverTxn) (mbox : TxnMbox) (named : Plain event.name) :
    (Denotes (renderMbox dovecot dtxn mbox event) (.obj (mboxMembers dtxn mbox event)) ∧
      decode (renderMbox dovecot dtxn mbox event) = some (.obj (mboxMembers dtxn mbox event))) ↔
    event.name = mailboxcreateName ∨ event.name = mailboxrenameName := by
  constructor
  · rintro ⟨-, decoded⟩
    by_contra leaves
    rw [renderMbox_unterminated dovecot escapes dtxn mbox named leaves] at decoded
    contradiction
  · intro closes
    have closed := (mboxEnd_open escapes dtxn mbox closes).close
    rw [← renderMbox_eq] at closed
    exact ⟨closed, decode_complete (.of_denotes closed)⟩

namespace Sample

def mailboxcreate : TxnEvent := .mailboxcreate ⟨1531299564⟩

def mailboxdelete : TxnEvent := .other (lit "MailboxDelete") (by decide)

end Sample

theorem renderMbox_denotes_iff_mailboxcreate :
    decode (renderMbox Sample.dovecot Sample.dtxn (Sample.mbox []) Sample.mailboxcreate) =
      some (.obj [(lit "user", .str (lit "alice")), (lit "mailbox", .str (lit "INBOX/old")),
        (lit "event", .str mailboxcreateName), (lit "uidvalidity", .ofNat 1531299564)]) := by
  have named : Plain Sample.mailboxcreate.name := by decide
  have created := renderMbox_denotes_iff Sample.dovecot escape_escapes Sample.dtxn (Sample.mbox []) named
  exact (created.mpr (.inl rfl)).2

theorem renderMbox_mailboxdelete :
    ¬ (Denotes (renderMbox Sample.dovecot Sample.dtxn (Sample.mbox []) Sample.mailboxdelete)
        (.obj (mboxMembers Sample.dtxn (Sample.mbox []) Sample.mailboxdelete)) ∧
      decode (renderMbox Sample.dovecot Sample.dtxn (Sample.mbox []) Sample.mailboxdelete) =
        some (.obj (mboxMembers Sample.dtxn (Sample.mbox []) Sample.mailboxdelete))) := by
  rintro ⟨-, decoded⟩
  have named : Plain Sample.mailboxdelete.name := by decide
  have leaves : ¬ ClosesName Sample.mailboxdelete := by unfold ClosesName; decide
  rw [renderMbox_unterminated Sample.dovecot escape_escapes _ _ named leaves] at decoded
  contradiction

end PushNotificationKafka
