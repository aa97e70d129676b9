import PushNotificationKafka.Event

/-! The driver (push-notification-kafka-driver.c) over its global and the trace of
its librdkafka calls. The functions that use `kafka_global` without testing it work
on a `Kafka`, where it is not NULL. -/
namespace PushNotificationKafka
open Bytes Json

/-- What the driver runs in: Dovecot, the broker, and the users that pointers
lead to. -/
structure Env where
  dovecot : Dovecot
  broker : Broker
  mailUser : UserId → MailUser

/-- The state where `kafka_global` is not NULL. -/
structure Kafka where
  global : Global
  trace : List Action

namespace Kafka

def log (kafka : Kafka) (action : Action) : Kafka := { kafka with trace := kafka.trace ++ [action] }

def setRkc (kafka : Kafka) (rkc : Option Conf) : Kafka :=
  { kafka with global := { kafka.global with rkc } }

def setRk (kafka : Kafka) (rk : Option Producer) : Kafka :=
  { kafka with global := { kafka.global with rk } }

@[simp] theorem log_global (kafka : Kafka) (action : Action) : (kafka.log action).global = kafka.global := rfl

@[simp] theorem log_trace (kafka : Kafka) (action : Action) :
    (kafka.log action).trace = kafka.trace ++ [action] := rfl

end Kafka

def rdKafkaConfNew (kafka : Kafka) : Conf × Kafka :=
  let rkc : Conf := ⟨kafka.trace.length⟩
  (rkc, kafka.log (.confNew rkc))

/-- The result tells whether it is `RD_KAFKA_CONF_OK`. -/
def rdKafkaConfSet (broker : Broker) (site : SetSite) (rkc : Option Conf) (name value : CStr)
    (kafka : Kafka) : Bool × Kafka :=
  let accepted := broker.confSet kafka.trace name value
  (accepted, kafka.log (.confSet site rkc name value accepted))

def rdKafkaNew (broker : Broker) (rkc : Option Conf) (kafka : Kafka) : Option Producer × Kafka :=
  let result := if broker.new kafka.trace then some ⟨kafka.trace.length⟩ else none
  (result, kafka.log (.new rkc result))

def rdKafkaTopicNew (broker : Broker) (rk : Option Producer) (topic : CStr) (kafka : Kafka) :
    Option Topic × Kafka :=
  let result := if broker.topicNew kafka.trace then some ⟨kafka.trace.length, rk⟩ else none
  (result, kafka.log (.topicNew rk topic result))

/-- The error that `rd_kafka_last_error` reports, where the result is -1. -/
def rdKafkaProduce (broker : Broker) (rkt : Option Topic) (payload key : CStr) (kafka : Kafka) :
    Option RespErr × Kafka :=
  let result := broker.produce kafka.trace
  (result, kafka.log (.produce rkt payload key result))

/-- The body of the loop over the plugin environment. -/
def readPluginKafkaSetting (broker : Broker) (start : CStr) (kafka : Kafka) (env : CStr × CStr) : Kafka :=
  if env.1.length > start.length then
    if start.isPrefixOf env.1 then
      let s := env.1.drop (start.length + 1)
      (rdKafkaConfSet broker .setting kafka.global.rkc s env.2 kafka).2
    else kafka
  else kafka

def readPluginKafkaSettings (env : Env) (start : CStr) (kafka : Kafka) : Kafka :=
  match kafka.global.user with
  | none => kafka
  | some user =>
    let kafka := kafka.log (.readSettings user)
    match (env.mailUser user).pluginEnvs with
    | none => kafka
    | some envs =>
      if kafka.global.rkc = none then kafka
      else envs.foldl (readPluginKafkaSetting env.broker start) kafka

def initGlobal (env : Env) (kafka : Kafka) : Option Producer × Kafka :=
  match kafka.global.rk with
  | some rk => (some rk, kafka)
  | none =>
    let (rkc, kafka) := rdKafkaConfNew kafka
    let kafka := kafka.setRkc (some rkc)
    let kafka := kafka.log (.confSetCb kafka.global.rkc .log)
    let kafka := readPluginKafkaSettings env (lit "kafka.notification.settings") kafka
    let kafka := kafka.log (.confSetCb kafka.global.rkc .error)
    let kafka := kafka.log (.confSetCb kafka.global.rkc .drMsg)
    let (accepted, kafka) := rdKafkaConfSet env.broker .servers kafka.global.rkc
      (lit "bootstrap.servers") kafka.global.brokers kafka
    if ¬ accepted then (none, kafka)
    else
      let (accepted, kafka) := rdKafkaConfSet env.broker .debug kafka.global.rkc (lit "debug") (lit "all") kafka
      if ¬ accepted then (none, kafka)
      else
        let (rk, kafka) := rdKafkaNew env.broker kafka.global.rkc kafka
        let kafka := kafka.setRk rk
        let kafka :=
          if kafka.global.rk = none then (kafka.log (.confDestroy kafka.global.rkc)).setRkc none else kafka
        let kafka := kafka.log (.setLogLevel kafka.global.rk)
        (kafka.global.rk, kafka)

def deinitGlobal (kafka : Kafka) : Kafka :=
  if kafka.global.rk ≠ none then
    let kafka := kafka.log (.flush kafka.global.rk kafka.global.flushTimeInMs)
    let kafka := kafka.log (.destroy kafka.global.rk)
    let kafka := kafka.log (.waitDestroyed kafka.global.destroyTimeInMs)
    kafka.setRk none
  else kafka

def initTopic (env : Env) (ctx : Context) (kafka : Kafka) : Context × Kafka :=
  match initGlobal env kafka with
  | (some _, kafka) =>
    if ctx.rkt = none then
      let (rkt, kafka) := rdKafkaTopicNew env.broker kafka.global.rk ctx.topic kafka
      ({ ctx with rkt }, kafka)
    else (ctx, kafka)
  | (none, kafka) => (ctx, kafka)

def deinitTopic (ctx : Context) (kafka : Kafka) : Context × Kafka :=
  let kafka :=
    if kafka.global.rk ≠ none then kafka.log (.poll kafka.global.rk kafka.global.topicCloseTimeInMs)
    else kafka
  if ctx.rkt ≠ none then ({ ctx with rkt := none }, kafka.log (.topicDestroy ctx.rkt)) else (ctx, kafka)

/-- One pass from the label `retry`: the counter to go back to the label with, if
the pass does. -/
def retry (env : Env) (ctx : Context) (str username : CStr) (retryCounter : Int) (kafka : Kafka) :
    Option Int × Kafka :=
  match rdKafkaProduce env.broker ctx.rkt str username kafka with
  | (none, kafka) => (none, kafka)
  | (some .queueFull, kafka) =>
    let kafka := kafka.log (.poll kafka.global.rk kafka.global.retryPollTimeInMs)
    if retryCounter < kafka.global.maxRetries then (some (retryCounter + 1), kafka) else (none, kafka)
  | (some (.other _), kafka) => (none, kafka)

theorem retry_again (again : retry env ctx str username counter kafka = (some next, kafka')) :
    next = counter + 1 ∧ counter < kafka.global.maxRetries ∧ kafka'.global = kafka.global := by
  simp only [retry, rdKafkaProduce] at again
  split at again
  · cases again
  · rename_i same
    obtain ⟨_, rfl⟩ := Prod.mk.inj same
    split at again
    · rename_i below
      obtain ⟨counted, rfl⟩ := Prod.mk.inj again
      exact ⟨(Option.some.inj counted).symm, below, rfl⟩
    · cases again
  · cases again

def retryLoop (env : Env) (ctx : Context) (str username : CStr) (retryCounter : Int) (kafka : Kafka) : Kafka :=
  match _ : retry env ctx str username retryCounter kafka with
  | (none, kafka) => kafka
  | (some retryCounter, kafka) => retryLoop env ctx str username retryCounter kafka
termination_by (kafka.global.maxRetries - retryCounter).toNat
decreasing_by
  rename_i again
  obtain ⟨rfl, below, same⟩ := retry_again again
  rw [same]
  omega

def sendToKafka (env : Env) (ctx : Context) (str username : CStr) (kafka : Kafka) : Context × Kafka :=
  let (ctx, kafka) := initTopic env ctx kafka
  if ctx.rkt ≠ none then
    let kafka := retryLoop env ctx str username 0 kafka
    (ctx, kafka.log (.poll kafka.global.rk 0))
  else (ctx, kafka)

/-- The loop that both kinds of event data go through. -/
def processEvents (env : Env) (render : TxnEvent → Option CStr) (username : CStr) :
    List TxnEvent → Context × Kafka → Context × Kafka
  | [], state => state
  | event :: events, (ctx, kafka) =>
    match render event with
    | some str => processEvents env render username events (sendToKafka env ctx str username kafka)
    | none => processEvents env render username events (ctx, kafka)

/-- `push_notification_driver_kafka_render_mbox` never returns NULL. -/
def processMbox (env : Env) (dtxn : DriverTxn) (mbox : TxnMbox) (kafka : Kafka) : Context × Kafka :=
  match mbox.eventdata with
  | some events =>
    processEvents env (fun event => some (renderMbox env.dovecot dtxn mbox event)) dtxn.user.username
      events (dtxn.context, kafka)
  | none => (dtxn.context, kafka)

def processMsg (env : Env) (dtxn : DriverTxn) (msg : TxnMsg) (kafka : Kafka) : Context × Kafka :=
  match msg.eventdata with
  | some events =>
    processEvents env (renderMsg env.dovecot dtxn dtxn.context.renderCtx msg) dtxn.user.username
      events (dtxn.context, kafka)
  | none => (dtxn.context, kafka)

/-- The flags that `begin_txn` asks for with both message events. -/
def messageFlags : List MessageFlag := [.hdrFrom, .hdrSubject, .hdrTo, .hdrDate, .bodySnippet]

/-- One turn of the loop over the events of the context. -/
def subscribe (dovecot : Dovecot) (events : List Subscription) (event : CStr) : List Subscription :=
  if event = messagenewName then dovecot.pushNotificationEventInit event (some messageFlags) events
  else if event = messageappendName then
    dovecot.pushNotificationEventInit event (some messageFlags) events
  else dovecot.pushNotificationEventInit event none events

def beginTxn (dovecot : Dovecot) (ctx : Context) (user : UserId) (framework : Framework) : Bool × Framework :=
  let framework := { framework with refcount := dovecot.mailUserRef user framework.refcount }
  if ctx.enabled then
    (true, { framework with events := ctx.events.foldl (subscribe dovecot) framework.events })
  else (false, framework)

/-- The argument `success` is not used. -/
def endTxn (dovecot : Dovecot) (user : UserId) (framework : Framework) : Framework :=
  { framework with refcount := dovecot.mailUserUnref user framework.refcount }

/-- `config->config`, the options of one driver URL. -/
abbrev DriverConfig := CStr → Option CStr

/-- One turn of the loop over the userdb fields: `i` counts the fields that have
a value. -/
def userdbField (dovecot : Dovecot) (user : MailUser) : Nat × CStr → CStr → Nat × CStr
  | (i, userdbJson), field =>
    match user.getenv field with
    | some value =>
      let userdbJson := if i ≠ 0 then userdbJson ++ lit ",\"" else userdbJson ++ lit "\""
      let userdbJson := userdbJson ++ dovecot.jsonAppendEscaped field
      let userdbJson := userdbJson ++ lit "\":\""
      let userdbJson := userdbJson ++ dovecot.jsonAppendEscaped value
      (i + 1, userdbJson ++ lit "\"")
    | none => (i, userdbJson)

def initUserdbJson (dovecot : Dovecot) (user : MailUser) (userdbFieldsString : Option CStr) : Option CStr :=
  match userdbFieldsString with
  | some userdbFieldsString =>
    let userdbFields := dovecot.pStrsplit userdbFieldsString (lit ",")
    let (i, userdbJson) := userdbFields.foldl (userdbField dovecot user) (0, lit "\"userdb\":\x7b")
    let userdbJson := userdbJson ++ lit "\x7d,"
    if i > 0 then some userdbJson else none
  | none => none

/-- The part of `push_notification_driver_kafka_init` that fills the context. -/
def initContext (dovecot : Dovecot) (config : DriverConfig) (user : MailUser) : Context where
  topic := (config (lit "topic")).getD defaultTopic
  events := dovecot.pStrsplit ((config (lit "events")).getD defaultEvents) (lit ",")
  userdbJson := initUserdbJson dovecot user (config (lit "userdb"))
  enabled :=
    match config (lit "feature") with
    | none => true
    | some feature =>
      match user.getenv feature with
      | none => false
      | some tmp => strcasecmp tmp (lit "on")
  renderCtx := {
    keywordPrefix := (config (lit "keyword_prefix")).getD defaultPrefix
    sendFlags :=
      match config (lit "send_flags") with
      | none => true
      | some tmp => strcasecmp tmp (lit "on") }
  rkt := none

/-- A number from the plugin settings; one that is no `int` or is negative leaves
the default. -/
def intSetting (dovecot : Dovecot) (user : MailUser) (name : CStr) (default : CNat) : CNat :=
  match user.getenv name with
  | none => default
  | some tmp =>
    match dovecot.strToInt tmp with
    | none => default
    | some n => if positive : 0 ≤ n.val then ⟨n.val, positive, n.property.2⟩ else default

/-- `init_kafka_global` and the settings that the first instance gives it. -/
def initKafkaGlobal (env : Env) (user : UserId) : Global :=
  let settings := env.mailUser user
  let number := intSetting env.dovecot settings
  { refcount := 0
    brokers := (settings.getenv (lit "kafka.notification.kafka_brokers")).getD defaultServers
    debug := (settings.getenv (lit "kafka.notification.kafka_debug")).getD defaultDebug
    maxRetries := number (lit "kafka.notification.kafka_max_retries") ⟨0, by decide⟩
    retryPollTimeInMs := number (lit "kafka.notification.kafka_retry_poll_time_in_ms") ⟨500, by decide⟩
    flushTimeInMs := number (lit "kafka.notification.kafka_flush_time_in_ms") ⟨1000, by decide⟩
    topicCloseTimeInMs := number (lit "kafka.notification.kafka_topic_close_time_in_ms") ⟨1000, by decide⟩
    destroyTimeInMs := number (lit "kafka.notification.kafka_destroy_time_in_ms") ⟨1000, by decide⟩
    rkc := none
    rk := none
    user := some user }

/-- The memory of the plugin that outlives a driver instance, and what it did to
librdkafka so far. -/
structure World where
  kafkaGlobal : Option Global
  trace : List Action

/-- What would stop the process: following a NULL `kafka_global`, or the assertion
on its reference count. -/
inductive Fault where
  | nullGlobal
  | refcount
deriving DecidableEq, Repr

namespace World

/-- Runs a function that follows `kafka_global` without testing it. -/
def withGlobal (world : World) (run : Kafka → α × Kafka) : Except Fault (α × World) :=
  match world.kafkaGlobal with
  | none => .error .nullGlobal
  | some global =>
    let (result, kafka) := run ⟨global, world.trace⟩
    .ok (result, ⟨some kafka.global, kafka.trace⟩)

end World

def init (env : Env) (config : DriverConfig) (user : UserId) (world : World) : Context × World :=
  let ctx := initContext env.dovecot config (env.mailUser user)
  let global := world.kafkaGlobal.getD (initKafkaGlobal env user)
  (ctx, { world with kafkaGlobal := some { global with refcount := global.refcount + 1 } })

def deinit (ctx : Context) (world : World) : Except Fault (Context × World) := do
  let (ctx, world) ← world.withGlobal (deinitTopic ctx)
  match world.kafkaGlobal with
  | some global =>
    if global.refcount > 0 then
      .ok (ctx, { world with kafkaGlobal := some { global with refcount := global.refcount - 1 } })
    else .error .refcount
  | none => .ok (ctx, world)

def cleanup (world : World) : World :=
  match world.kafkaGlobal with
  | some global =>
    if global.refcount ≤ 0 then ⟨none, (deinitGlobal ⟨global, world.trace⟩).trace⟩ else world
  | none => world

end PushNotificationKafka
