import PushNotificationKafka.Transactions

/-! Several drivers in one transaction. Each subscribes the events of its context,
but all of them are given what any of them has subscribed, and none looks at its own
list again. -/
namespace PushNotificationKafka
open Bytes

/-- The events that a driver hands to `send_to_kafka`, with their payloads. -/
def handed (dovecot : Dovecot) (dtxn : DriverTxn) (target : Target) : List (TxnEvent × CStr) :=
  (target.eventdata.getD []).filterMap fun event => (target.render dovecot dtxn event).map (event, ·)

theorem process_handed (env : Env) (dtxn : DriverTxn) (target : Target) (kafka : Kafka) :
    target.process env dtxn kafka =
      (handed env.dovecot dtxn target).foldl
        (fun state p => sendToKafka env state.1 p.2 dtxn.user.username state.2) (dtxn.context, kafka) := by
  have payloads : (target.eventdata.getD []).filterMap (target.render env.dovecot dtxn) =
      (handed env.dovecot dtxn target).map Prod.snd := by
    unfold handed
    rw [List.map_filterMap]
    congr 1
    funext event
    cases target.render env.dovecot dtxn event <;> rfl
  rw [target.process_eq, processEvents_eq, payloads, List.foldl_map]

theorem mem_handed (dovecot : Dovecot) (dtxn : DriverTxn) (target : Target) (p : TxnEvent × CStr) :
    p ∈ handed dovecot dtxn target ↔
      p.1 ∈ target.eventdata.getD [] ∧ target.render dovecot dtxn p.1 = some p.2 := by
  obtain ⟨event, str⟩ := p
  simp only [handed, List.mem_filterMap, Option.map_eq_some_iff, Prod.mk.injEq]
  constructor
  · rintro ⟨_, member, _, rendered, rfl, rfl⟩
    exact ⟨member, rendered⟩
  · rintro ⟨member, rendered⟩
    exact ⟨event, member, str, rendered, rfl, rfl⟩

/-- The configuration that `begin_txn` passes on for an event. -/
def configOf (event : CStr) : Option (List MessageFlag) :=
  if event = messagenewName ∨ event = messageappendName then some messageFlags else none

/-- What `begin_txn` subscribes for a context. -/
def subscriptions (registry : Registry) (ctx : Context) : List Subscription :=
  if ctx.enabled then (ctx.events.filter registry.known).map fun event => ⟨event, configOf event⟩ else []

theorem mem_subscriptions (registry : Registry) (ctx : Context) (event : CStr) :
    event ∈ (subscriptions registry ctx).map Subscription.event ↔
      ctx.enabled = true ∧ event ∈ ctx.events ∧ registry.known event = true := by
  unfold subscriptions
  split
  · rename_i enabled
    simp [enabled, Function.comp_def]
  · rename_i disabled
    simp [disabled]

theorem subscribe_eq (dovecot : Dovecot) (events : List Subscription) (event : CStr) :
    subscribe dovecot events event = dovecot.pushNotificationEventInit event (configOf event) events := by
  unfold subscribe configOf
  by_cases new : event = messagenewName
  · rw [if_pos new, if_pos (.inl new)]
  · by_cases append : event = messageappendName
    · rw [if_neg new, if_pos append, if_pos (.inr append)]
    · rw [if_neg new, if_neg append, if_neg (not_or.mpr ⟨new, append⟩)]

theorem subscribe_loop (adds : AddsKnown dovecot registry) (names : List CStr) (events : List Subscription) :
    names.foldl (subscribe dovecot) events =
      events ++ (names.filter registry.known).map fun event => ⟨event, configOf event⟩ := by
  induction names generalizing events with
  | nil => simp
  | cons name names ih =>
    rw [List.foldl_cons, ih, subscribe_eq, adds, List.filter_cons]
    by_cases known : registry.known name = true
    · simp [known]
    · simp [known]

theorem beginTxn_events (adds : AddsKnown dovecot registry) (ctx : Context) (user : UserId)
    (framework : Framework) :
    (beginTxn dovecot ctx user framework).2.events = framework.events ++ subscriptions registry ctx := by
  unfold beginTxn subscriptions
  split
  · exact subscribe_loop adds ..
  · exact (List.append_nil _).symm

/-- `begin_txn` for the drivers of a user, one after the other: the contexts of the
drivers that take part, and the framework after it. -/
def transact (dovecot : Dovecot) (user : UserId) (contexts : List Context) (state : List Context × Framework) :
    List Context × Framework :=
  contexts.foldl
    (fun (drivers, framework) ctx =>
      let (begun, framework) := beginTxn dovecot ctx user framework
      (if begun then drivers ++ [ctx] else drivers, framework))
    state

theorem transact_spec (adds : AddsKnown dovecot registry) (user : UserId) (contexts : List Context)
    (state : List Context × Framework) :
    (transact dovecot user contexts state).1 = state.1 ++ contexts.filter Context.enabled ∧
      (transact dovecot user contexts state).2.events =
        state.2.events ++ contexts.flatMap (subscriptions registry) := by
  induction contexts generalizing state with
  | nil => simp [transact]
  | cons ctx contexts ih =>
    obtain ⟨drivers, framework⟩ := state
    obtain ⟨begun, -⟩ := beginTxn_spec dovecot ctx user framework
    obtain ⟨parts, events⟩ := ih
      (if (beginTxn dovecot ctx user framework).1 then drivers ++ [ctx] else drivers,
        (beginTxn dovecot ctx user framework).2)
    constructor
    · rw [transact, List.foldl_cons]
      apply parts.trans
      rw [begun, List.filter_cons]
      cases ctx.enabled with
      | true => simp
      | false => simp
    · rw [transact, List.foldl_cons]
      apply events.trans
      rw [beginTxn_events adds, List.flatMap_cons, List.append_assoc]

theorem transact_drivers (adds : AddsKnown dovecot registry) (user : UserId) (contexts : List Context)
    (refcount : UserId → Int) (ctx : Context) :
    ctx ∈ (transact dovecot user contexts ([], ⟨refcount, []⟩)).1 ↔ ctx ∈ contexts ∧ ctx.enabled = true := by
  rw [(transact_spec adds user contexts _).1, List.nil_append]
  exact List.mem_filter

theorem transact_events (adds : AddsKnown dovecot registry) (user : UserId) (contexts : List Context)
    (refcount : UserId → Int) (event : CStr) :
    event ∈ (transact dovecot user contexts ([], ⟨refcount, []⟩)).2.events.map Subscription.event ↔
      registry.known event = true ∧ ∃ ctx ∈ contexts, ctx.enabled = true ∧ event ∈ ctx.events := by
  rw [(transact_spec adds user contexts _).2, List.nil_append, List.map_flatMap, List.mem_flatMap]
  constructor
  · rintro ⟨ctx, member, added⟩
    obtain ⟨enabled, listed, known⟩ := (mem_subscriptions ..).mp added
    exact ⟨known, ctx, member, enabled, listed⟩
  · rintro ⟨known, ctx, member, enabled, listed⟩
    exact ⟨ctx, member, (mem_subscriptions ..).mpr ⟨enabled, listed, known⟩⟩

/-- Each driver of the transaction publishes only events of its own list, whatever
event data the transaction gives them. -/
def Isolated (dovecot : Dovecot) (registry : Registry) (user : UserId) (settings : MailUser)
    (contexts : List Context) (refcount : UserId → Int) : Prop :=
  let begun := transact dovecot user contexts ([], ⟨refcount, []⟩)
  ∀ target, Producible registry begun.2.events target → ∀ ctx ∈ begun.1,
    ∀ p ∈ handed dovecot ⟨settings, ctx⟩ target, p.1.name ∈ ctx.events

/-- For every name there is a mailbox event. -/
theorem event_named (name : CStr) : ∃ event : TxnEvent, event.name = name := by
  by_cases typed : name ∈ payloadNames
  · simp only [payloadNames, List.mem_cons, List.not_mem_nil, or_false] at typed
    rcases typed with rfl | rfl | rfl | rfl | rfl | rfl
    · exact ⟨.mailboxcreate ⟨0⟩, rfl⟩
    · exact ⟨.mailboxrename ⟨[]⟩, rfl⟩
    · exact ⟨.flagsset ⟨0, none⟩, rfl⟩
    · exact ⟨.flagsclear ⟨0, none, 0, none⟩, rfl⟩
    · exact ⟨.messagenew ⟨-1, 0, none, none, none, none⟩, rfl⟩
    · exact ⟨.messageappend ⟨none, none, none, none⟩, rfl⟩
  · exact ⟨.other name typed, rfl⟩

/-- A keyword that begins with the prefix is reason enough to publish a flags event. -/
theorem writeFlagsEvent_keyword (dovecot : Dovecot) (dtxn : DriverTxn) (renderCtx : RenderContext)
    (eventName : CStr) (msg : TxnMsg) (flags flagsOld : UInt32) :
    (writeFlagsEvent dovecot dtxn renderCtx eventName msg flags (some [renderCtx.keywordPrefix]) flagsOld
      none).isSome = true := by
  have starts : strStartsWith (some renderCtx.keywordPrefix) (some renderCtx.keywordPrefix) = true := by
    rw [strStartsWith_spec]
    exact List.isPrefixOf_iff_prefix.mpr List.prefix_rfl
  have written (str : CStr) :
      (keywordSections dovecot renderCtx (some [renderCtx.keywordPrefix]) none str).1 = true := by
    simp [keywordSections, writeKeywordsSection, writeKeyword, starts]
  rw [writeFlagsEvent_eq]
  simp [written]

/-- For every name there is a message event that is published. -/
theorem msgEvent_named (dovecot : Dovecot) (dtxn : DriverTxn) (name : CStr) :
    ∃ event : TxnEvent, event.name = name ∧
      ∀ msg, (renderMsg dovecot dtxn dtxn.context.renderCtx msg event).isSome = true := by
  let keywords := some [dtxn.context.renderCtx.keywordPrefix]
  obtain ⟨event, named⟩ := event_named name
  cases event with
  | flagsset data =>
    exact ⟨.flagsset ⟨0, keywords⟩, named, fun msg => writeFlagsEvent_keyword ..⟩
  | flagsclear data =>
    exact ⟨.flagsclear ⟨0, keywords, 0, none⟩, named, fun msg => writeFlagsEvent_keyword ..⟩
  | messagenew | messageappend | mailboxcreate | mailboxrename | other =>
    exact ⟨_, named, fun msg => rfl⟩

/-- For every event that the transaction has, some event data makes a driver
publish it. -/
theorem publishes (dovecot : Dovecot) (registry : Registry) (dtxn : DriverTxn) (known : registry.known name = true)
    (subscribed : name ∈ events.map Subscription.event) :
    ∃ target, Producible registry events target ∧ ∃ p ∈ handed dovecot dtxn target, p.1.name = name := by
  have only (target : Target) (event : TxnEvent) (str : CStr) (data : target.eventdata = some [event])
      (named : event.name = name) (triggers : registry.triggers target name = true)
      (rendered : target.render dovecot dtxn event = some str) :
      Producible registry events target ∧ ∃ p ∈ handed dovecot dtxn target, p.1.name = name := by
    constructor
    · intro other member
      rw [data, Option.getD_some, List.mem_singleton] at member
      rw [member, named]
      exact ⟨subscribed, triggers⟩
    · exact ⟨(event, str), (mem_handed ..).mpr ⟨by simp [data], rendered⟩, named⟩
  rcases Bool.or_eq_true_iff.mp known with message | mailbox
  · obtain ⟨event, named, renders⟩ := msgEvent_named dovecot dtxn name
    obtain ⟨str, rendered⟩ := Option.isSome_iff_exists.mp (renders ⟨[], 0, 0, some [event]⟩)
    exact ⟨.msg ⟨[], 0, 0, some [event]⟩, only _ event str rfl named message rendered⟩
  · obtain ⟨event, named⟩ := event_named name
    exact ⟨.mbox ⟨[], some [event]⟩, only _ event _ rfl named mailbox rfl⟩

/-- Isolated drivers that take part in a transaction list the same known events. -/
theorem Isolated.lists (isolated : Isolated dovecot registry user settings contexts refcount)
    (adds : AddsKnown dovecot registry) (driver : ctx ∈ contexts ∧ ctx.enabled = true)
    (listed : event ∈ ctx.events) (known : registry.known event = true)
    (other : ctx' ∈ contexts ∧ ctx'.enabled = true) : event ∈ ctx'.events := by
  have taken : event ∈ (transact dovecot user contexts ([], ⟨refcount, []⟩)).2.events.map Subscription.event :=
    (transact_events adds ..).mpr ⟨known, ctx, driver.1, driver.2, listed⟩
  obtain ⟨target, producible, p, published, rfl⟩ := publishes dovecot registry ⟨settings, ctx'⟩ known taken
  exact isolated target producible ctx' ((transact_drivers adds ..).mpr other) p published

/-- The drivers of a transaction are isolated when and only when each known event
that one of the enabled contexts lists is listed by all of them. -/
theorem isolated_iff (adds : AddsKnown dovecot registry) (user : UserId) (settings : MailUser)
    (contexts : List Context) (refcount : UserId → Int) :
    Isolated dovecot registry user settings contexts refcount ↔
      ∀ ctx ∈ contexts, ctx.enabled = true → ∀ event ∈ ctx.events, registry.known event = true →
        ∀ other ∈ contexts, other.enabled = true → event ∈ other.events := by
  constructor
  · intro isolated ctx member enabled event listed known other member' enabled'
    exact isolated.lists adds ⟨member, enabled⟩ listed known ⟨member', enabled'⟩
  · intro shared target producible ctx driver p published
    obtain ⟨member, enabled⟩ := (transact_drivers adds ..).mp driver
    obtain ⟨event, -⟩ := (mem_handed ..).mp published
    obtain ⟨known, other, member', enabled', listed⟩ := (transact_events adds ..).mp (producible p.1 event).1
    exact shared other member' enabled' _ listed known ctx member enabled

namespace Sample

/-- The options of the second driver in the documentation. -/
def expungeConfig : DriverConfig := fun key =>
  if key = lit "topic" then some (lit "expunge")
  else if key = lit "events" then some (lit "FlagsClear,FlagsSet,MessageExpunge") else none

/-- All known events of the default list, in another order and with an unknown one. -/
def archiveConfig : DriverConfig := fun key =>
  if key = lit "topic" then some (lit "archive")
  else if key = lit "events" then
    some (lit "MessageNew,MessageAppend,FlagsSet,Unknown,FlagsClear,MailboxRename,MailboxDelete,MailboxCreate")
  else none

/-- The drivers of the documentation, the second of which is switched off, and a third one. -/
def drivers : List Context :=
  [initContext dovecot (fun _ => none) alice,
    initContext dovecot (fun key => if key = lit "feature" then some (lit "push") else expungeConfig key) alice,
    initContext dovecot archiveConfig alice]

end Sample

theorem isolated_iff_drivers : Isolated Sample.dovecot Sample.registry Sample.user Sample.alice Sample.drivers
    (fun _ => 1) :=
  (isolated_iff Sample.dovecot_adds Sample.user Sample.alice Sample.drivers fun _ => 1).mpr (by decide +kernel)

/-- With both drivers of the documentation, the second one publishes new messages,
which only the first one lists. -/
theorem not_isolated : ¬ Isolated Sample.dovecot Sample.registry Sample.user Sample.alice
    [initContext Sample.dovecot (fun _ => none) Sample.alice,
      initContext Sample.dovecot Sample.expungeConfig Sample.alice] (fun _ => 1) := by
  intro isolated
  have default : messagenewName ∈ (initContext Sample.dovecot (fun _ => none) Sample.alice).events := by
    decide +kernel
  have contrary := isolated.lists Sample.dovecot_adds ⟨List.mem_cons_self, rfl⟩ default (by decide +kernel)
    ⟨List.mem_cons_of_mem _ List.mem_cons_self, rfl⟩
  exact absurd contrary (by decide +kernel)

end PushNotificationKafka
