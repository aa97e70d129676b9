import PushNotificationKafka.Lifecycle
import PushNotificationKafka.MailboxJson

/-! Both kinds of notifications side by side, and the start that they should share.
The renderer of mailbox events leaves the userdb fields out of it. -/
namespace PushNotificationKafka
open Bytes Json Transition

/-- What the framework hands to a driver: a message or a mailbox with its events. -/
inductive Target where
  | msg (msg : TxnMsg)
  | mbox (mbox : TxnMbox)

namespace Target

def isMsg : Target → Bool
  | .msg _ => true
  | .mbox _ => false

def mailbox : Target → CStr
  | .msg message => message.mailbox
  | .mbox box => box.mailbox

def eventdata : Target → Option (List TxnEvent)
  | .msg message => message.eventdata
  | .mbox box => box.eventdata

def render (dovecot : Dovecot) (dtxn : DriverTxn) : Target → TxnEvent → Option CStr
  | .msg message, event => renderMsg dovecot dtxn dtxn.context.renderCtx message event
  | .mbox box, event => some (renderMbox dovecot dtxn box event)

def process (env : Env) (dtxn : DriverTxn) : Target → Kafka → Context × Kafka
  | .msg message => processMsg env dtxn message
  | .mbox box => processMbox env dtxn box

/-- Both callbacks go through the events in the same way. -/
theorem process_eq (env : Env) (dtxn : DriverTxn) (target : Target) (kafka : Kafka) :
    target.process env dtxn kafka =
      processEvents env (target.render env.dovecot dtxn) dtxn.user.username
        (target.eventdata.getD []) (dtxn.context, kafka) := by
  cases target with
  | msg message =>
    simp only [process, processMsg, eventdata]
    cases message.eventdata <;> rfl
  | mbox box =>
    simp only [process, processMbox, eventdata]
    cases box.eventdata <;> rfl

end Target

/-- A context as `init` fills it and the driver keeps it: only its topic changes. -/
def Built (dovecot : Dovecot) (context : Context) : Prop :=
  ∃ config user rkt, context = { initContext dovecot config user with rkt }

theorem init_built (dovecot : Dovecot) (config : DriverConfig) (user : MailUser) :
    Built dovecot (initContext dovecot config user) := ⟨config, user, none, rfl⟩

theorem Built.calls (built : Built dovecot ctx) (calls : Calls (ctx, kafka) (ctx', kafka')) :
    Built dovecot ctx' := by
  obtain ⟨config, user, rkt, rfl⟩ := built
  exact ⟨config, user, ctx'.rkt, calls.frame.1⟩

theorem Effect.built (effect : Effect env s op t) (built : ∀ inst ∈ s.instances, Built env.dovecot inst.ctx) :
    ∀ inst ∈ t.instances, Built env.dovecot inst.ctx := by
  have replaced {before after : List Instance} {inst inst' : Instance}
      (split : s.instances = before ++ inst :: after) (own : Built env.dovecot inst'.ctx) :
      ∀ i ∈ before ++ inst' :: after, Built env.dovecot i.ctx := by
    intro i member
    rcases List.mem_append.mp member with early | member
    · exact built i (by rw [split]; exact List.mem_append_left _ early)
    · rcases List.mem_cons.mp member with rfl | late
      · exact own
      · exact built i (by rw [split]; exact List.mem_append_right _ (List.mem_cons_of_mem _ late))
  have own {before after : List Instance} {inst : Instance} (split : s.instances = before ++ inst :: after) :
      Built env.dovecot inst.ctx := built inst (by simp [split])
  cases effect with
  | init =>
    intro inst member
    rcases List.mem_append.mp member with early | late
    · exact built inst early
    · rw [List.mem_singleton.mp late]
      exact init_built ..
  | onInstance present split live _ calls => exact replaced split ((own split).calls calls)
  | deinit present split live _ calls => exact replaced split ((own split).calls calls)
  | initGlobal | kept | cleanup => exact built

/-- The contexts of a run are built by `init`. -/
theorem run_built (run : Run (lifecycle env) ops s) : ∀ inst ∈ s.instances, Built env.dovecot inst.ctx := by
  refine run.invariant (P := fun s => ∀ inst ∈ s.instances, Built env.dovecot inst.ctx) ?_ ?_
  · rintro s rfl inst member
    exact (List.not_mem_nil member).elim
  · rintro s op t built ⟨permitted, done⟩
    exact (exec_effect permitted done).built built

/-- A loop whose body only appends to a text keeps what the text began with. -/
theorem foldl_extends (text : σ → CStr) (body : σ → α → σ) (appends : ∀ s a, text s <+: text (body s a))
    (l : List α) (s : σ) : text s <+: text (l.foldl body s) := by
  induction l generalizing s with
  | nil => exact List.prefix_rfl
  | cons a l ih => exact (appends s a).trans (ih (body s a))

theorem userdbField_extends (dovecot : Dovecot) (user : MailUser) (state : Nat × CStr) (field : CStr) :
    state.2 <+: (userdbField dovecot user state field).2 := by
  obtain ⟨i, userdbJson⟩ := state
  simp only [userdbField]
  split
  · split <;> simp only [List.append_assoc, List.prefix_append]
  · exact List.prefix_rfl

/-- A `userdb_json` begins with its key and the brace of its object. -/
theorem initUserdbJson_start (made : initUserdbJson dovecot user fields = some userdbJson) :
    lit "\"userdb\":\x7b" <+: userdbJson := by
  unfold initUserdbJson at made
  split at made
  · rename_i names
    have loop := foldl_extends Prod.snd (userdbField dovecot user) (userdbField_extends dovecot user)
      (dovecot.pStrsplit names (lit ",")) (0, lit "\"userdb\":\x7b")
    simp only at made
    split at made
    · obtain rfl := Option.some.inj made
      exact loop.trans (List.prefix_append _ _)
    · contradiction
  · contradiction

theorem Built.userdb (built : Built dovecot context) (present : context.userdbJson = some userdbJson) :
    lit "\"userdb\":\x7b" <+: userdbJson := by
  obtain ⟨config, user, rkt, rfl⟩ := built
  exact initUserdbJson_start present

theorem writeFlagsSection_extends (renderCtx : RenderContext) (name : CStr) (flags : UInt32)
    (state : Bool × CStr) : state.2 <+: (writeFlagsSection renderCtx name flags state).2 := by
  obtain ⟨written, str⟩ := state
  obtain ⟨-, inner, split, -⟩ := writeFlags_spec flags (str ++ name)
  simp only [writeFlagsSection]
  split
  · simp only [split, List.append_assoc, List.prefix_append]
  · exact List.prefix_rfl

theorem writeKeyword_extends (dovecot : Dovecot) (renderCtx : RenderContext) (state : Nat × Bool × CStr)
    (keyword : CStr) : state.2.2 <+: (writeKeyword dovecot renderCtx state keyword).2.2 := by
  obtain ⟨i, keywordWritten, str⟩ := state
  simp only [writeKeyword]
  split
  · split <;> simp only [List.append_assoc, List.prefix_append]
  · exact List.prefix_rfl

theorem writeKeywordsSection_extends (dovecot : Dovecot) (renderCtx : RenderContext) (name : CStr)
    (keywords : Option (List CStr)) (state : Bool × CStr) :
    state.2 <+: (writeKeywordsSection dovecot renderCtx name keywords state).2 := by
  obtain ⟨written, str⟩ := state
  match keywords with
  | none | some [] => exact List.prefix_rfl
  | some (keyword :: keywords) =>
    have loop := foldl_extends (fun state => state.2.2) (writeKeyword dovecot renderCtx)
      (writeKeyword_extends dovecot renderCtx) (keyword :: keywords) (0, written, str ++ name)
    exact ((List.prefix_append str name).trans loop).trans (List.prefix_append _ _)

theorem writeText_extends (dovecot : Dovecot) (name : CStr) (text : Option CStr) (str : CStr) :
    str <+: writeText dovecot name text str := by
  unfold writeText
  split
  · exact List.prefix_rfl
  · simp only [List.append_assoc, List.prefix_append]

theorem writeTexts_extends (dovecot : Dovecot) (from_ snippet subject to_ : Option CStr) (str : CStr) :
    str <+: writeText dovecot (lit ",\"to\":\"") to_ (writeText dovecot (lit ",\"subject\":\"") subject
      (writeText dovecot (lit ",\"snippet\":\"") snippet
        (writeText dovecot (lit ",\"from\":\"") from_ str))) ++ lit "\x7d" := by
  refine List.IsPrefix.trans ?_ (List.prefix_append _ _)
  refine List.IsPrefix.trans ?_ (writeText_extends ..)
  refine List.IsPrefix.trans ?_ (writeText_extends ..)
  exact (writeText_extends ..).trans (writeText_extends ..)

/-- Every message event keeps the start that `write_msg_prefix` gives it. -/
theorem renderMsg_extends (rendered : renderMsg dovecot dtxn renderCtx msg event = some str) :
    writeMsgPrefix dovecot dtxn event.name msg <+: str := by
  have flags {eventName : CStr} {set old : UInt32} {keywords keywordsOld : Option (List CStr)}
      (rendered : writeFlagsEvent dovecot dtxn renderCtx eventName msg set keywords old keywordsOld = some str) :
      writeMsgPrefix dovecot dtxn eventName msg <+: str := by
    simp only [writeFlagsEvent] at rendered
    split at rendered
    · obtain rfl := Option.some.inj rendered
      refine List.IsPrefix.trans ?_ (List.prefix_append _ _)
      refine List.IsPrefix.trans ?_ (writeKeywordsSection_extends ..)
      refine List.IsPrefix.trans ?_ (writeKeywordsSection_extends ..)
      exact (writeFlagsSection_extends renderCtx _ set (false, _)).trans (writeFlagsSection_extends ..)
    · contradiction
  cases event with
  | flagsset data =>
    have rendered : writeFlagsEvent dovecot dtxn renderCtx flagssetName msg data.flagsSet data.keywordsSet 0 none =
      some str := rendered
    exact flags rendered
  | flagsclear data => exact flags rendered
  | messagenew data =>
    obtain rfl := Option.some.inj rendered
    refine List.IsPrefix.trans ?_ (writeTexts_extends ..)
    split
    · exact List.prefix_append _ _
    · exact List.prefix_rfl
  | messageappend data =>
    obtain rfl := Option.some.inj rendered
    exact writeTexts_extends ..
  | mailboxcreate | mailboxrename | other =>
    obtain rfl := Option.some.inj rendered
    exact List.prefix_append _ _

theorem renderMsg_invariantPrefix (rendered : renderMsg dovecot dtxn renderCtx msg event = some str) :
    invariantPrefix dovecot dtxn msg.mailbox event.name <+: str := by
  have start := renderMsg_extends rendered
  rw [writeMsgPrefix_eq, List.append_assoc] at start
  exact (List.prefix_append _ _).trans start

/-- Both starts are the same up to the comma after the user. -/
theorem invariantPrefix_split (dovecot : Dovecot) (dtxn : DriverTxn) (mbox : TxnMbox) (eventName : CStr) :
    invariantPrefix dovecot dtxn mbox.mailbox eventName =
      lit "\x7b\"user\":\"" ++ dovecot.jsonAppendEscaped dtxn.user.username ++ [quote, comma] ++
        (dtxn.context.userdbJson.getD [] ++ (quote :: lit "mailbox\":\"" ++
          dovecot.jsonAppendEscaped mbox.mailbox ++ lit "\",\"event\":\"" ++ eventName ++ [quote])) := by
  have user : lit "\"," = [quote, comma] := rfl
  have mailbox : lit "\"mailbox\":\"" = quote :: lit "mailbox\":\"" := rfl
  have close : lit "\"" = [quote] := rfl
  simp only [invariantPrefix, user, mailbox, close, List.append_assoc, List.cons_append, List.nil_append]

theorem renderMbox_split (dovecot : Dovecot) (dtxn : DriverTxn) (mbox : TxnMbox) (event : TxnEvent) :
    renderMbox dovecot dtxn mbox event =
      lit "\x7b\"user\":\"" ++ dovecot.jsonAppendEscaped dtxn.user.username ++ [quote, comma] ++
        (quote :: lit "mailbox\":\"" ++ dovecot.jsonAppendEscaped mbox.mailbox ++
          lit "\",\"event\":\"" ++ event.name ++ (mboxEnd dovecot event ++ [rbrace])) := by
  have mailbox : opening (lit "mailbox") = comma :: quote :: lit "mailbox\":" := rfl
  have mailbox' : lit "mailbox\":\"" = lit "mailbox\":" ++ [quote] := rfl
  have event' : lit "\",\"event\":\"" = quote :: (opening (lit "event") ++ [quote]) := rfl
  simp only [renderMbox_eq, mboxStart, mailbox, mailbox', event', List.append_assoc, List.cons_append,
    List.nil_append]

/-- The quote after the event name comes from the branch of the event. -/
theorem mboxEnd_quoted (dovecot : Dovecot) (event : TxnEvent) :
    [quote] <+: mboxEnd dovecot event ++ [rbrace] ↔ ClosesName event := by
  constructor
  · intro quoted
    by_contra leaves
    rw [mboxEnd_nil dovecot leaves] at quoted
    exact absurd quoted (by decide)
  · intro closes
    rcases closesName_cases closes with ⟨data, rfl⟩ | ⟨data, rfl⟩ <;>
      exact ⟨_, rfl⟩

/-- The userdb fields do not begin like the mailbox, which stands in their place in
mailbox events. -/
theorem userdb_not_mailbox (starts : lit "\"userdb\":\x7b" <+: userdbJson) (more last : CStr) :
    ¬ userdbJson ++ more <+: quote :: lit "mailbox\":\"" ++ last := by
  intro contrary
  obtain ⟨rest, rfl⟩ := starts
  have userdb : lit "\"userdb\":\x7b" = quote :: ascii 'u' :: lit "serdb\":\x7b" := rfl
  have mailbox : lit "mailbox\":\"" = ascii 'm' :: lit "ailbox\":\"" := rfl
  simp only [userdb, mailbox, List.cons_append, List.cons_prefix_cons] at contrary
  exact absurd contrary.2.1 (by decide)

theorem renderMbox_invariantPrefix (built : Built dovecot dtxn.context) (mbox : TxnMbox) (event : TxnEvent) :
    invariantPrefix dovecot dtxn mbox.mailbox event.name <+: renderMbox dovecot dtxn mbox event ↔
      ClosesName event ∧ dtxn.context.userdbJson = none := by
  rw [invariantPrefix_split, renderMbox_split, List.prefix_append_right_inj]
  cases present : dtxn.context.userdbJson with
  | none =>
    rw [Option.getD_none, List.nil_append, List.prefix_append_right_inj, mboxEnd_quoted]
    exact (and_iff_left rfl).symm
  | some userdbJson =>
    rw [Option.getD_some]
    constructor
    · intro contrary
      simp only [List.append_assoc, List.cons_append] at contrary
      exact absurd contrary (by simpa using userdb_not_mailbox (built.userdb present) _ _)
    · exact fun both => nomatch both.2

/-- The bytes of a rendered event begin with the invariant start when, and only
when, it is a message event, or an event whose name the renderer of mailbox events
closes in a context without userdb fields. -/
theorem invariantPrefix_iff (built : Built dovecot dtxn.context) (target : Target) (event : TxnEvent) :
    (∀ str, target.render dovecot dtxn event = some str →
      invariantPrefix dovecot dtxn target.mailbox event.name <+: str) ↔
    target.isMsg = true ∨
      ((event.name = mailboxcreateName ∨ event.name = mailboxrenameName) ∧ dtxn.context.userdbJson = none) := by
  cases target with
  | msg msg =>
    constructor
    · exact fun _ => .inl rfl
    · exact fun _ str rendered => renderMsg_invariantPrefix rendered
  | mbox mbox =>
    have whole := renderMbox_invariantPrefix built mbox event
    constructor
    · exact fun starts => .inr (whole.mp (starts _ rfl))
    · rintro (contrary | closes) str rendered
      · contradiction
      · obtain rfl := Option.some.inj rendered
        exact whole.mpr closes

namespace Sample

/-- A user with a value for the field `k1`. -/
def carol : MailUser := { alice with getenv := fun name => if name = lit "k1" then some (lit "v1") else none }

/-- A driver URL with the userdb field `k1` and one without. -/
def userdbConfig : DriverConfig := fun key => if key = lit "userdb" then some (lit "k1") else none

def userdbDtxn : DriverTxn := ⟨carol, initContext dovecot userdbConfig carol⟩

def plainDtxn : DriverTxn := ⟨carol, initContext dovecot (fun _ => none) carol⟩

end Sample

theorem invariantPrefix_iff_mailboxcreate :
    invariantPrefix Sample.dovecot Sample.plainDtxn (lit "INBOX/old") mailboxcreateName <+:
        renderMbox Sample.dovecot Sample.plainDtxn (Sample.mbox []) Sample.mailboxcreate ∧
      ∃ str, renderMsg Sample.dovecot Sample.userdbDtxn Sample.userdbDtxn.context.renderCtx (Sample.msg [])
          Sample.flagsclear = some str ∧
        invariantPrefix Sample.dovecot Sample.userdbDtxn (lit "INBOX") flagsclearName <+: str := by
  have without : Built Sample.dovecot Sample.plainDtxn.context :=
    init_built Sample.dovecot (fun _ => none) Sample.carol
  have withUserdb : Built Sample.dovecot Sample.userdbDtxn.context :=
    init_built Sample.dovecot Sample.userdbConfig Sample.carol
  have mailbox := invariantPrefix_iff without (.mbox (Sample.mbox [])) Sample.mailboxcreate
  have message := invariantPrefix_iff withUserdb (.msg (Sample.msg [])) Sample.flagsclear
  obtain ⟨str, rendered⟩ : ∃ str, renderMsg Sample.dovecot Sample.userdbDtxn
      Sample.userdbDtxn.context.renderCtx (Sample.msg []) Sample.flagsclear = some str :=
    Option.isSome_iff_exists.mp (by decide +kernel)
  constructor
  · exact mailbox.mpr (.inr ⟨.inl rfl, rfl⟩) _ rfl
  · exact ⟨str, rendered, message.mpr (.inl rfl) str rendered⟩

/-- The userdb field is missing from a mailbox event. -/
theorem invariantPrefix_userdb : ¬ ∀ str,
    Target.render Sample.dovecot Sample.userdbDtxn (.mbox (Sample.mbox [])) Sample.mailboxcreate = some str →
      invariantPrefix Sample.dovecot Sample.userdbDtxn (lit "INBOX/old") mailboxcreateName <+: str := by
  intro starts
  have contrary := List.isPrefixOf_iff_prefix.mpr (starts _ rfl)
  exact absurd contrary (by decide +kernel)

end PushNotificationKafka
