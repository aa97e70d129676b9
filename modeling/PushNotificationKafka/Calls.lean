import PushNotificationKafka.Driver
import Mathlib.Logic.Relation

/-! What each function of the driver does to the global, to the topic of its
context and to the trace, said once: a function is a sequence of calls, and every
invariant of the driver is shown for one call. -/
namespace PushNotificationKafka
open Bytes Relation

namespace Kafka

def logs (kafka : Kafka) (actions : List Action) : Kafka :=
  { kafka with trace := kafka.trace ++ actions }

@[simp] theorem logs_global (kafka : Kafka) (actions : List Action) :
    (kafka.logs actions).global = kafka.global := rfl

@[simp] theorem logs_trace (kafka : Kafka) (actions : List Action) :
    (kafka.logs actions).trace = kafka.trace ++ actions := rfl

theorem log_eq (kafka : Kafka) (action : Action) : kafka.log action = kafka.logs [action] := rfl

theorem logs_logs (kafka : Kafka) (first last : List Action) :
    (kafka.logs first).logs last = kafka.logs (first ++ last) := by
  simp [logs]

theorem logs_nil (kafka : Kafka) : kafka.logs [] = kafka := by
  simp [logs]

@[simp] theorem setRkc_global (kafka : Kafka) (rkc : Option Conf) :
    (kafka.setRkc rkc).global = { kafka.global with rkc } := rfl

@[simp] theorem setRkc_trace (kafka : Kafka) (rkc : Option Conf) : (kafka.setRkc rkc).trace = kafka.trace := rfl

@[simp] theorem setRk_global (kafka : Kafka) (rk : Option Producer) :
    (kafka.setRk rk).global = { kafka.global with rk } := rfl

@[simp] theorem setRk_trace (kafka : Kafka) (rk : Option Producer) : (kafka.setRk rk).trace = kafka.trace := rfl

end Kafka

/-- What happens to a new configuration object before `rd_kafka_new`, as long as
nothing that is required is rejected. -/
inductive Configures (rkc : Conf) (user : Option UserId) : Action → Prop where
  | readSettings : user = some owner → Configures rkc user (.readSettings owner)
  | confSetCb : Configures rkc user (.confSetCb (some rkc) callback)
  | confSet : site = .setting ∨ accepted = true →
      Configures rkc user (.confSet site (some rkc) name value accepted)

/-- All of it, which begins with the settings of the owner of the global. -/
structure Setup (rkc : Conf) (user : Option UserId) (events : List Action) : Prop where
  configures : ∀ e ∈ events, Configures rkc user e
  reads : ∀ owner, user = some owner → .readSettings owner ∈ events

/-- The four ways through `init_global`: the producer is there already, a required
setting is rejected, `rd_kafka_new` fails, or it succeeds. -/
inductive InitGlobal (kafka : Kafka) : Option Producer → Kafka → Prop where
  | ready : kafka.global.rk = some rk → InitGlobal kafka (some rk) kafka
  | refused {rkc : Conf} {events : List Action} {site : SetSite} {name value : CStr} :
      kafka.global.rk = none → rkc.id = kafka.trace.length →
      Setup rkc kafka.global.user events → site ≠ .setting →
      InitGlobal kafka none ((kafka.setRkc (some rkc)).logs
        (.confNew rkc :: (events ++ [.confSet site (some rkc) name value false])))
  | failed {rkc : Conf} {events : List Action} :
      kafka.global.rk = none → rkc.id = kafka.trace.length →
      Setup rkc kafka.global.user events →
      InitGlobal kafka none ((kafka.setRkc none).logs
        (.confNew rkc :: (events ++ [.new (some rkc) none, .confDestroy (some rkc), .setLogLevel none])))
  | created {rkc : Conf} {events : List Action} {rk : Producer} :
      kafka.global.rk = none → rkc.id = kafka.trace.length →
      Setup rkc kafka.global.user events →
      rk.id = (kafka.trace ++ .confNew rkc :: events).length →
      InitGlobal kafka (some rk) (((kafka.setRkc (some rkc)).setRk (some rk)).logs
        (.confNew rkc :: (events ++ [.new (some rkc) (some rk), .setLogLevel (some rk)])))

theorem Setup.snoc (setup : Setup rkc user events) (last : Configures rkc user e) :
    Setup rkc user (events ++ [e]) := by
  constructor
  · intro e' member
    rcases List.mem_append.mp member with early | late
    · exact setup.configures e' early
    · rw [List.mem_singleton.mp late]
      exact last
  · exact fun owner found => List.mem_append_left _ (setup.reads owner found)

/-- What `read_plugin_kafka_settings` passes on of a setting whose name goes on after
`start`: the rest of the name but for its first character, and the value. -/
def passedOn (start : CStr) (setting : CStr × CStr) : Option (CStr × CStr) :=
  if setting.1.length > start.length ∧ start.isPrefixOf setting.1 = true then
    some (setting.1.drop (start.length + 1), setting.2)
  else none

/-- The plugin settings of the owner of the global. -/
def ownerSettings (env : Env) (global : Global) : List (CStr × CStr) :=
  (global.user.bind fun user => (env.mailUser user).pluginEnvs).getD []

/-- The call that passes a setting on. -/
def PassesOn (rkc : Conf) (e : Action) (setting : CStr × CStr) : Prop :=
  ∃ accepted, e = .confSet .setting (some rkc) setting.1 setting.2 accepted

def reads (user : Option UserId) : List Action := user.toList.map .readSettings

theorem readPluginKafkaSetting_spec (broker : Broker) (start : CStr) (owned : kafka.global.rkc = some rkc)
    (setting : CStr × CStr) :
    ∃ calls, readPluginKafkaSetting broker start kafka setting = kafka.logs calls ∧
      List.Forall₂ (PassesOn rkc) calls (passedOn start setting).toList := by
  unfold readPluginKafkaSetting passedOn
  split
  · rename_i longer
    split
    · rename_i starts
      refine ⟨_, rfl, ?_⟩
      rw [if_pos ⟨longer, starts⟩, owned]
      exact .cons ⟨_, rfl⟩ .nil
    · rename_i other
      refine ⟨[], kafka.logs_nil.symm, ?_⟩
      rw [if_neg fun both => other both.2]
      exact .nil
  · rename_i short
    refine ⟨[], kafka.logs_nil.symm, ?_⟩
    rw [if_neg fun both => short both.1]
    exact .nil

theorem readPluginKafkaSetting_loop (broker : Broker) (start : CStr) (settings : List (CStr × CStr))
    (owned : kafka.global.rkc = some rkc) :
    ∃ calls, settings.foldl (readPluginKafkaSetting broker start) kafka = kafka.logs calls ∧
      List.Forall₂ (PassesOn rkc) calls (settings.filterMap (passedOn start)) := by
  induction settings generalizing kafka with
  | nil => exact ⟨[], kafka.logs_nil.symm, .nil⟩
  | cons setting settings ih =>
    obtain ⟨first, step, passes⟩ := readPluginKafkaSetting_spec broker start owned setting
    have owned' : (kafka.logs first).global.rkc = some rkc := owned
    obtain ⟨rest, loop, others⟩ := ih owned'
    refine ⟨first ++ rest, ?_, ?_⟩
    · rw [List.foldl_cons, step, loop, Kafka.logs_logs]
    · have both := List.rel_append passes others
      rw [List.filterMap_cons]
      cases selected : passedOn start setting with
      | none => simpa [selected] using both
      | some passed => simpa [selected] using both

theorem readPluginKafkaSettings_spec (env : Env) (start : CStr) (owned : kafka.global.rkc = some rkc) :
    ∃ calls, readPluginKafkaSettings env start kafka = kafka.logs (reads kafka.global.user ++ calls) ∧
      List.Forall₂ (PassesOn rkc) calls ((ownerSettings env kafka.global).filterMap (passedOn start)) := by
  unfold readPluginKafkaSettings ownerSettings reads
  cases found : kafka.global.user with
  | none => exact ⟨[], kafka.logs_nil.symm, .nil⟩
  | some owner =>
    have owned' : (kafka.log (.readSettings owner)).global.rkc = some rkc := owned
    have present : ¬ (kafka.log (.readSettings owner)).global.rkc = none := by simp [owned]
    simp only [if_neg present, Option.bind_some]
    cases (env.mailUser owner).pluginEnvs with
    | none => exact ⟨[], rfl, .nil⟩
    | some settings =>
      obtain ⟨calls, loop, passes⟩ := readPluginKafkaSetting_loop env.broker start settings owned'
      refine ⟨calls, loop.trans ?_, passes⟩
      rw [Kafka.log_eq, Kafka.logs_logs]
      rfl

/-- What happens to a new configuration object up to the settings `init_global` insists
on. -/
def configuring (rkc : Conf) (user : Option UserId) (calls : List Action) : List Action :=
  .confSetCb (some rkc) .log :: (reads user ++ calls ++
    [.confSetCb (some rkc) .error, .confSetCb (some rkc) .drMsg])

theorem configuring_setup (user : Option UserId) (passes : List.Forall₂ (PassesOn rkc) calls settings) :
    Setup rkc user (configuring rkc user calls) := by
  have call : ∀ e ∈ calls, Configures rkc user e := by
    intro e member
    induction passes with
    | nil => exact (List.not_mem_nil member).elim
    | cons first _ ih =>
      rcases List.mem_cons.mp member with rfl | later
      · obtain ⟨accepted, rfl⟩ := first
        exact .confSet (.inl rfl)
      · exact ih later
  constructor
  · intro e member
    simp only [configuring, reads, List.mem_cons, List.mem_append, List.mem_map, Option.mem_toList,
      List.not_mem_nil, or_false] at member
    rcases member with rfl | (⟨owner, found, rfl⟩ | early) | rfl | rfl
    · exact .confSetCb
    · exact .readSettings found
    · exact call e early
    · exact .confSetCb
    · exact .confSetCb
  · rintro owner rfl
    simp [configuring, reads]

/-- `init_global` up to the settings it insists on. -/
def configureGlobal (env : Env) (kafka : Kafka) : Kafka :=
  let (rkc, kafka) := rdKafkaConfNew kafka
  let kafka := kafka.setRkc (some rkc)
  let kafka := kafka.log (.confSetCb kafka.global.rkc .log)
  let kafka := readPluginKafkaSettings env (lit "kafka.notification.settings") kafka
  let kafka := kafka.log (.confSetCb kafka.global.rkc .error)
  kafka.log (.confSetCb kafka.global.rkc .drMsg)

/-- `init_global` from `rd_kafka_new` on. -/
def createProducer (env : Env) (kafka : Kafka) : Option Producer × Kafka :=
  let (rk, kafka) := rdKafkaNew env.broker kafka.global.rkc kafka
  let kafka := kafka.setRk rk
  let kafka :=
    if kafka.global.rk = none then (kafka.log (.confDestroy kafka.global.rkc)).setRkc none else kafka
  let kafka := kafka.log (.setLogLevel kafka.global.rk)
  (kafka.global.rk, kafka)

theorem initGlobal_missing (env : Env) (missing : kafka.global.rk = none) :
    initGlobal env kafka =
      let kafka := configureGlobal env kafka
      let (accepted, kafka) := rdKafkaConfSet env.broker .servers kafka.global.rkc
        (lit "bootstrap.servers") kafka.global.brokers kafka
      if ¬ accepted then (none, kafka)
      else
        let (accepted, kafka) := rdKafkaConfSet env.broker .debug kafka.global.rkc (lit "debug") (lit "all") kafka
        if ¬ accepted then (none, kafka) else createProducer env kafka := by
  simp only [initGlobal, missing]
  rfl

theorem configureGlobal_spec (env : Env) (kafka : Kafka) :
    ∃ calls, configureGlobal env kafka = (kafka.setRkc (some ⟨kafka.trace.length⟩)).logs
        (.confNew ⟨kafka.trace.length⟩ :: configuring ⟨kafka.trace.length⟩ kafka.global.user calls) ∧
      List.Forall₂ (PassesOn ⟨kafka.trace.length⟩) calls
        ((ownerSettings env kafka.global).filterMap (passedOn (lit "kafka.notification.settings"))) := by
  let rkc : Conf := ⟨kafka.trace.length⟩
  let opened := (kafka.setRkc (some rkc)).logs [.confNew rkc, .confSetCb (some rkc) .log]
  have owned : opened.global.rkc = some rkc := rfl
  obtain ⟨calls, done, passes⟩ :=
    readPluginKafkaSettings_spec env (lit "kafka.notification.settings") owned
  have start : configureGlobal env kafka =
      let set := readPluginKafkaSettings env (lit "kafka.notification.settings") opened
      (set.log (.confSetCb set.global.rkc .error)).log (.confSetCb set.global.rkc .drMsg) := by
    simp only [configureGlobal, rdKafkaConfNew, opened, Kafka.logs, Kafka.log, Kafka.setRkc,
      List.append_assoc, List.cons_append, List.nil_append, rkc]
  refine ⟨calls, ?_, passes⟩
  rw [start, done]
  simp only [configuring, Kafka.log_eq, Kafka.logs_global, Kafka.setRkc_global, opened, Kafka.logs_logs,
    List.append_assoc, List.cons_append, List.nil_append, rkc]

/-- `rd_kafka_new` on a configuration that nothing required was rejected of. -/
theorem createProducer_spec (env : Env) (missing : kafka.global.rk = none)
    (numbered : rkc.id = kafka.trace.length) (setup : Setup rkc kafka.global.user events) :
    InitGlobal kafka (createProducer env ((kafka.setRkc (some rkc)).logs (.confNew rkc :: events))).1
      (createProducer env ((kafka.setRkc (some rkc)).logs (.confNew rkc :: events))).2 := by
  let rk : Producer := ⟨(kafka.trace ++ .confNew rkc :: events).length⟩
  by_cases succeeds : env.broker.new (kafka.trace ++ .confNew rkc :: events) = true
  · have shape : createProducer env ((kafka.setRkc (some rkc)).logs (.confNew rkc :: events)) =
        (some rk, ((kafka.setRkc (some rkc)).setRk (some rk)).logs
          (.confNew rkc :: (events ++ [.new (some rkc) (some rk), .setLogLevel (some rk)]))) := by
      simp [createProducer, rdKafkaNew, succeeds, Kafka.log, Kafka.logs, Kafka.setRk, Kafka.setRkc, rk]
    rw [shape]
    exact .created missing numbered setup rfl
  · have shape : createProducer env ((kafka.setRkc (some rkc)).logs (.confNew rkc :: events)) =
        (none, (kafka.setRkc none).logs
          (.confNew rkc :: (events ++ [.new (some rkc) none, .confDestroy (some rkc), .setLogLevel none]))) := by
      simp [createProducer, rdKafkaNew, succeeds, missing, Kafka.log, Kafka.logs, Kafka.setRk, Kafka.setRkc]
    rw [shape]
    exact .failed missing numbered setup

/-- The settings that `init_global` insists on. -/
def setServers (rkc : Conf) (global : Global) (accepted : Bool) : Action :=
  .confSet .servers (some rkc) (lit "bootstrap.servers") global.brokers accepted

def setDebug (rkc : Conf) (accepted : Bool) : Action := .confSet .debug (some rkc) (lit "debug") (lit "all") accepted

/-- Without a producer, a setting that is required is rejected, or `rd_kafka_new` gets all
of them. -/
theorem initGlobal_configures (env : Env) (missing : kafka.global.rk = none) :
    ∃ rkc calls, rkc = ⟨kafka.trace.length⟩ ∧
      List.Forall₂ (PassesOn rkc) calls
        ((ownerSettings env kafka.global).filterMap (passedOn (lit "kafka.notification.settings"))) ∧
      (initGlobal env kafka = (none, (kafka.setRkc (some rkc)).logs
          (.confNew rkc :: (configuring rkc kafka.global.user calls ++ [setServers rkc kafka.global false]))) ∨
        initGlobal env kafka = (none, (kafka.setRkc (some rkc)).logs
          (.confNew rkc :: (configuring rkc kafka.global.user calls ++
            [setServers rkc kafka.global true, setDebug rkc false]))) ∨
        initGlobal env kafka = createProducer env ((kafka.setRkc (some rkc)).logs
          (.confNew rkc :: (configuring rkc kafka.global.user calls ++
            [setServers rkc kafka.global true, setDebug rkc true])))) := by
  obtain ⟨calls, configured, passes⟩ := configureGlobal_spec env kafka
  refine ⟨⟨kafka.trace.length⟩, calls, rfl, passes, ?_⟩
  rw [initGlobal_missing env missing, configured]
  simp only [rdKafkaConfSet, Kafka.log_eq, Kafka.logs_logs, List.cons_append, Kafka.logs_global,
    Kafka.setRkc_global, List.append_assoc, List.nil_append]
  split
  · rename_i rejected
    simp only [Bool.not_eq_true] at rejected
    rw [rejected]
    exact .inl rfl
  · rename_i accepted
    simp only [Bool.not_eq_true, Bool.not_eq_false] at accepted
    rw [accepted]
    split
    · rename_i rejected
      simp only [Bool.not_eq_true] at rejected
      rw [rejected]
      exact .inr (.inl rfl)
    · rename_i accepted'
      simp only [Bool.not_eq_true, Bool.not_eq_false] at accepted'
      rw [accepted']
      exact .inr (.inr rfl)

/-- `init_global` takes one of its four ways. -/
theorem initGlobal_spec (env : Env) (kafka : Kafka) :
    InitGlobal kafka (initGlobal env kafka).1 (initGlobal env kafka).2 := by
  cases present : kafka.global.rk with
  | some rk =>
    have same : initGlobal env kafka = (some rk, kafka) := by simp only [initGlobal, present]
    rw [same]
    exact .ready present
  | none =>
    obtain ⟨rkc, calls, rfl, passes, ways⟩ := initGlobal_configures env present
    have setup := configuring_setup kafka.global.user passes
    have servers : Setup _ kafka.global.user (configuring _ _ calls ++ [setServers _ kafka.global true]) :=
      setup.snoc (.confSet (.inr rfl))
    have debug : Setup _ kafka.global.user
        (configuring _ _ calls ++ [setServers _ kafka.global true] ++ [setDebug _ true]) :=
      servers.snoc (.confSet (.inr rfl))
    rcases ways with done | done | done
    · rw [done]
      exact .refused present rfl setup (by decide)
    · rw [done]
      have refused : InitGlobal kafka none ((kafka.setRkc (some ⟨kafka.trace.length⟩)).logs
          (.confNew _ :: (configuring _ _ calls ++ [setServers _ kafka.global true] ++ [setDebug _ false]))) :=
        .refused present rfl servers (by decide)
      simpa only [List.append_assoc, List.cons_append, List.nil_append] using refused
    · rw [done]
      have created := createProducer_spec env present rfl debug
      simpa only [List.append_assoc, List.cons_append, List.nil_append] using created

theorem Setup.mem (setup : Setup rkc user events)
    (member : e ∈ .confNew rkc :: (events ++ last)) :
    e = .confNew rkc ∨ Configures rkc user e ∨ e ∈ last := by
  rcases List.mem_cons.mp member with first | member
  · exact .inl first
  · rcases List.mem_append.mp member with early | late
    · exact .inr (.inl (setup.configures e early))
    · exact .inr (.inr late)

/-- `rd_kafka_new` is not among the calls on the way to it. -/
theorem Setup.notMem_new (setup : Setup rkc user events) (rest : .new handle result ∉ last) :
    .new handle result ∉ .confNew rkc :: (events ++ last) := by
  intro member
  rcases setup.mem member with first | early | late
  · contradiction
  · cases early
  · exact rest late

theorem InitGlobal.result (effect : InitGlobal kafka rk kafka') : kafka'.global.rk = rk := by
  cases effect with
  | ready present => exact present
  | refused missing => exact missing
  | failed missing => exact missing
  | created => rfl

/-- One call on behalf of a context. A poll is made with a producer or for an open
topic, whose producer it then is. -/
inductive Call : Context × Kafka → Context × Kafka → Prop where
  | initGlobal : kafka.global.rk = none → InitGlobal kafka rk kafka' → Call (ctx, kafka) (ctx, kafka')
  | topicNew : kafka.global.rk = some rk → ctx.rkt = none →
      (∀ rkt, result = some rkt → rkt.rk = some rk ∧ rkt.id = kafka.trace.length) →
      Call (ctx, kafka) ({ ctx with rkt := result }, kafka.log (.topicNew (some rk) ctx.topic result))
  | topicDestroy : ctx.rkt = some rkt →
      Call (ctx, kafka) ({ ctx with rkt := none }, kafka.log (.topicDestroy (some rkt)))
  | produce : ctx.rkt = some rkt → Call (ctx, kafka) (ctx, kafka.log (.produce (some rkt) payload key result))
  | poll (timeout : Int) : kafka.global.rk ≠ none ∨ ctx.rkt ≠ none →
      Call (ctx, kafka) (ctx, kafka.log (.poll kafka.global.rk timeout))

abbrev Calls := ReflTransGen Call

theorem Calls.preserve {P : Context × Kafka → Prop} (calls : Calls s t)
    (step : ∀ s t, P s → Call s t → P t) (start : P s) : P t := by
  induction calls with
  | refl => exact start
  | tail _ call ih => exact step _ _ ih call

/-- A call changes nothing of the global but the two librdkafka handles, and nothing
of the context but its topic handle. -/
def SameBut (s t : Context × Kafka) : Prop :=
  t.1 = { s.1 with rkt := t.1.rkt } ∧
    t.2.global = { s.2.global with rkc := t.2.global.rkc, rk := t.2.global.rk }

theorem Call.frame (call : Call s t) : SameBut s t := by
  cases call with
  | initGlobal _ effect => cases effect <;> exact ⟨rfl, rfl⟩
  | topicNew | topicDestroy | produce | poll => exact ⟨rfl, rfl⟩

theorem Calls.frame (calls : Calls s t) : SameBut s t := by
  refine calls.preserve ?_ ⟨rfl, rfl⟩
  rintro t u ⟨ctx, global⟩ call
  obtain ⟨ctx', global'⟩ := call.frame
  constructor
  · rw [ctx', ctx]
  · rw [global', global]

theorem Call.extends (call : Call s t) : s.2.trace <+: t.2.trace := by
  cases call with
  | initGlobal _ effect =>
    cases effect with
    | ready => exact List.prefix_rfl
    | refused | failed | created => exact ⟨_, rfl⟩
  | topicNew | topicDestroy | produce | poll => exact ⟨_, rfl⟩

theorem Calls.extends (calls : Calls s t) : s.2.trace <+: t.2.trace :=
  calls.preserve (P := fun u => s.2.trace <+: u.2.trace) (fun _ _ earlier call => earlier.trans call.extends)
    List.prefix_rfl

theorem initGlobal_calls (env : Env) (ctx : Context) (kafka : Kafka) :
    Calls (ctx, kafka) (ctx, (initGlobal env kafka).2) := by
  have effect := initGlobal_spec env kafka
  cases present : kafka.global.rk with
  | none => exact .single (.initGlobal present effect)
  | some rk =>
    have same : (initGlobal env kafka).2 = kafka := by simp only [initGlobal, present]
    rw [same]

theorem initTopic_calls (env : Env) (ctx : Context) (kafka : Kafka) :
    Calls (ctx, kafka) (initTopic env ctx kafka) := by
  have calls := initGlobal_calls env ctx kafka
  have result := (initGlobal_spec env kafka).result
  unfold initTopic
  split
  · rename_i rk kafka' made
    rw [made] at calls result
    split
    · rename_i closed
      have result : kafka'.global.rk = some rk := result
      apply calls.tail
      simp only [rdKafkaTopicNew, result]
      apply Call.topicNew result closed
      intro rkt opened
      split at opened
      · obtain rfl := Option.some.inj opened
        exact ⟨rfl, rfl⟩
      · contradiction
    · exact calls
  · rename_i kafka' made
    rw [made] at calls
    exact calls

theorem deinitTopic_calls (ctx : Context) (kafka : Kafka) :
    Calls (ctx, kafka) (deinitTopic ctx kafka) := by
  have polled : Calls (ctx, kafka) (ctx, if kafka.global.rk ≠ none then
      kafka.log (.poll kafka.global.rk kafka.global.topicCloseTimeInMs) else kafka) := by
    split
    · rename_i present
      exact .single (.poll _ (.inl present))
    · exact .refl
  unfold deinitTopic
  cases opened : ctx.rkt with
  | none => simpa [opened] using polled
  | some rkt => simpa [opened] using polled.tail (.topicDestroy opened)

theorem retry_calls (env : Env) (opened : ctx.rkt = some rkt) (str username : CStr) (counter : Int)
    (kafka : Kafka) : Calls (ctx, kafka) (ctx, (retry env ctx str username counter kafka).2) := by
  have produced : Call (ctx, kafka)
      (ctx, kafka.log (.produce ctx.rkt str username (env.broker.produce kafka.trace))) := by
    rw [opened]
    exact .produce opened
  have polled : Call (ctx, kafka.log (.produce ctx.rkt str username (env.broker.produce kafka.trace))) _ :=
    .poll kafka.global.retryPollTimeInMs (.inr (by simp [opened]))
  simp only [retry, rdKafkaProduce]
  split
  · rename_i same
    obtain ⟨_, rfl⟩ := Prod.mk.inj same
    exact .single produced
  · rename_i same
    obtain ⟨_, rfl⟩ := Prod.mk.inj same
    split
    · exact (ReflTransGen.single produced).tail polled
    · exact (ReflTransGen.single produced).tail polled
  · rename_i same
    obtain ⟨_, rfl⟩ := Prod.mk.inj same
    exact .single produced

theorem retryLoop_calls (env : Env) (opened : ctx.rkt = some rkt) (str username : CStr) (counter : Int)
    (kafka : Kafka) : Calls (ctx, kafka) (ctx, retryLoop env ctx str username counter kafka) := by
  fun_induction retryLoop env ctx str username counter kafka with
  | case1 counter kafka kafka' done =>
    have calls := retry_calls env opened str username counter kafka
    rw [done] at calls
    exact calls
  | case2 counter kafka counter' kafka' again ih =>
    have calls := retry_calls env opened str username counter kafka
    rw [again] at calls
    exact calls.trans ih

theorem sendToKafka_calls (env : Env) (ctx : Context) (str username : CStr) (kafka : Kafka) :
    Calls (ctx, kafka) (sendToKafka env ctx str username kafka) := by
  have calls := initTopic_calls env ctx kafka
  unfold sendToKafka
  split
  rename_i ctx' kafka' made
  rw [made] at calls
  cases opened : ctx'.rkt with
  | none => simpa [opened] using calls
  | some rkt =>
    have sent := calls.trans (retryLoop_calls env opened str username 0 kafka')
    have polled := sent.tail (.poll 0 (.inr (by simp [opened])))
    simpa [opened] using polled

/-- `deinit_global` shuts the producer down, if there is one. -/
theorem deinitGlobal_trace (kafka : Kafka) :
    (deinitGlobal kafka).trace = kafka.trace ++
      match kafka.global.rk with
      | none => []
      | some rk => [.flush (some rk) kafka.global.flushTimeInMs, .destroy (some rk),
          .waitDestroyed kafka.global.destroyTimeInMs] := by
  unfold deinitGlobal
  cases present : kafka.global.rk with
  | none => simp
  | some rk => simp [present]

end PushNotificationKafka
