import PushNotificationKafka.Coherence

/-! The configuration that a producer gets: the plugin settings of the owner of the
global, which librdkafka may reject, and then the settings of `init_global` itself. -/
namespace PushNotificationKafka
open Bytes Transition

section
variable {f g : α → Option β}

theorem filterMap_length (more : ∀ a b, g a = some b → f a = some b) (l : List α) :
    (l.filterMap g).length ≤ (l.filterMap f).length := by
  induction l with
  | nil => simp
  | cons a l ih =>
    cases left : g a with
    | some b => simpa [List.filterMap_cons, left, more a b left] using ih
    | none =>
      cases right : f a with
      | some b => simpa [List.filterMap_cons, left, right] using Nat.le_succ_of_le ih
      | none => simpa [List.filterMap_cons, left, right] using ih

/-- Two selections, of which one takes all that the other takes, give the same only if
they agree on every element. -/
theorem filterMap_eq_iff (more : ∀ a b, g a = some b → f a = some b) (l : List α) :
    l.filterMap f = l.filterMap g ↔ ∀ a ∈ l, f a = g a := by
  constructor
  · induction l with
    | nil => simp
    | cons a l ih =>
      intro same
      rw [List.forall_mem_cons]
      cases left : g a with
      | some b =>
        simp only [List.filterMap_cons, left, more a b left, List.cons.injEq, true_and] at same
        exact ⟨more a b left, ih same⟩
      | none =>
        cases right : f a with
        | none =>
          simp only [List.filterMap_cons, left, right] at same
          exact ⟨rfl, ih same⟩
        | some b =>
          simp only [List.filterMap_cons, left, right] at same
          have longer := congrArg List.length same
          have shorter := filterMap_length more l
          simp only [List.length_cons] at longer
          omega
  · intro same
    exact List.filterMap_congr same

end

/-- What the documentation promises to pass on of a setting: a name that begins with
`kafka.notification.settings.`, without this start, and the value. -/
def documentedSetting (setting : CStr × CStr) : Option (CStr × CStr) :=
  (setting.1.dropPrefix? (lit "kafka.notification.settings.")).map fun name => (name, setting.2)

/-- `read_plugin_kafka_settings` makes one call for each of these settings, in order, and
no other. -/
def PassesExactly (env : Env) (kafka : Kafka) (rkc : Conf) (settings : List (CStr × CStr)) : Prop :=
  ∃ calls, (readPluginKafkaSettings env (lit "kafka.notification.settings") kafka).trace =
    kafka.trace ++ reads kafka.global.user ++ calls ∧ List.Forall₂ (PassesOn rkc) calls settings

theorem passesExactly_iff (owned : kafka.global.rkc = some rkc) (env : Env) (settings : List (CStr × CStr)) :
    PassesExactly env kafka rkc settings ↔
      (ownerSettings env kafka.global).filterMap (passedOn (lit "kafka.notification.settings")) = settings := by
  obtain ⟨calls, done, passes⟩ :=
    readPluginKafkaSettings_spec env (lit "kafka.notification.settings") owned
  have unique : Relator.RightUnique (PassesOn rkc) := by
    rintro e ⟨name, value⟩ ⟨name', value'⟩ ⟨accepted, rfl⟩ ⟨accepted', same⟩
    cases same
    rfl
  constructor
  · rintro ⟨calls', trace, passes'⟩
    rw [done, Kafka.logs_trace, List.append_assoc, List.append_cancel_left_eq, List.append_cancel_left_eq] at trace
    subst trace
    exact List.right_unique_forall₂' unique passes passes'
  · rintro rfl
    refine ⟨calls, ?_, passes⟩
    rw [done, Kafka.logs_trace, List.append_assoc]

theorem passedOn_eq_some (start : CStr) (setting p : CStr × CStr) :
    passedOn start setting = some p ↔ ∃ c, setting.1 = start ++ c :: p.1 ∧ setting.2 = p.2 := by
  obtain ⟨name, value⟩ := setting
  obtain ⟨rest, value'⟩ := p
  have tail (c : UInt8) (last : CStr) : (start ++ c :: last).drop (start.length + 1) = last := by
    simp [List.drop_append, List.drop_eq_nil_of_le]
  unfold passedOn
  constructor
  · intro passed
    split at passed
    · rename_i both
      obtain ⟨longer, starts⟩ := both
      obtain ⟨last, rfl⟩ := List.isPrefixOf_iff_prefix.mp starts
      cases last with
      | nil => simp at longer
      | cons c last =>
        simp only [tail, Option.some.injEq, Prod.mk.injEq] at passed
        obtain ⟨rfl, rfl⟩ := passed
        exact ⟨c, rfl, rfl⟩
    · contradiction
  · rintro ⟨c, split, same⟩
    obtain rfl : name = start ++ c :: rest := split
    obtain rfl : value = value' := same
    simp only [tail]
    rw [if_pos ⟨by simp, List.isPrefixOf_iff_prefix.mpr (List.prefix_append _ _)⟩]

theorem documentedSetting_eq_some (setting p : CStr × CStr) :
    documentedSetting setting = some p ↔
      setting.1 = lit "kafka.notification.settings" ++ ascii '.' :: p.1 ∧ setting.2 = p.2 := by
  obtain ⟨name, value⟩ := setting
  obtain ⟨rest, value'⟩ := p
  have dotted (last : CStr) : lit "kafka.notification.settings." ++ last =
      lit "kafka.notification.settings" ++ ascii '.' :: last := by
    have dot : lit "kafka.notification.settings." = lit "kafka.notification.settings" ++ [ascii '.'] := rfl
    rw [dot, List.append_assoc, List.singleton_append]
  simp only [documentedSetting, Option.map_eq_some_iff, Prod.mk.injEq, List.dropPrefix?_eq_some_iff, beq_iff_eq]
  constructor
  · rintro ⟨last, ⟨_, split, rfl⟩, rfl, rfl⟩
    exact ⟨split.trans (dotted last), rfl⟩
  · rintro ⟨split, rfl⟩
    exact ⟨rest, ⟨_, split.trans (dotted rest).symm, rfl⟩, rfl, rfl⟩

/-- Source and documentation agree on a setting unless its name goes on with another
character than a dot. -/
theorem passedOn_documented (setting : CStr × CStr) :
    passedOn (lit "kafka.notification.settings") setting = documentedSetting setting ↔
      ∀ c rest, setting.1 = lit "kafka.notification.settings" ++ c :: rest → c = ascii '.' := by
  constructor
  · intro same c rest split
    have passed := (passedOn_eq_some _ setting (rest, setting.2)).mpr ⟨c, split, rfl⟩
    obtain ⟨dotted, -⟩ := (documentedSetting_eq_some setting (rest, setting.2)).mp (same ▸ passed)
    have tails := List.append_cancel_left (split.symm.trans dotted)
    exact (List.cons.inj tails).1
  · intro dot
    apply Option.ext
    intro p
    rw [passedOn_eq_some, documentedSetting_eq_some]
    constructor
    · rintro ⟨c, split, value⟩
      obtain rfl := dot c p.1 split
      exact ⟨split, value⟩
    · rintro ⟨split, value⟩
      exact ⟨_, split, value⟩

/-- The settings that are passed on are the documented ones exactly when each name that
goes on after `kafka.notification.settings` goes on with a dot. -/
theorem settings_documented_iff (owned : kafka.global.rkc = some rkc) (env : Env) :
    PassesExactly env kafka rkc ((ownerSettings env kafka.global).filterMap documentedSetting) ↔
      ∀ setting ∈ ownerSettings env kafka.global, ∀ c rest,
        setting.1 = lit "kafka.notification.settings" ++ c :: rest → c = ascii '.' := by
  rw [passesExactly_iff owned, filterMap_eq_iff]
  · simp only [passedOn_documented]
  · intro setting p documented
    obtain ⟨split, value⟩ := (documentedSetting_eq_some setting p).mp documented
    exact (passedOn_eq_some _ setting p).mpr ⟨_, split, value⟩

namespace Sample

/-- An environment whose user has these plugin settings, where librdkafka knows no `ack`. -/
def settingsEnv (settings : List (CStr × CStr)) : Env where
  dovecot := dovecot
  broker := { broker with confSet := fun _ name _ => name != lit "ack" }
  mailUser _ := { alice with pluginEnvs := some settings }

/-- A setting that is given twice, one that is rejected in between, and one that is not for
librdkafka. -/
def acks : List (CStr × CStr) :=
  [(lit "kafka.notification.settings.acks", lit "0"), (lit "kafka.notification.settings.ack", lit "1"),
    (lit "kafka.notification.kafka_debug", lit "msg"), (lit "kafka.notification.settings.acks", lit "all")]

/-- The global on the way through `init_global`. -/
def configured : Kafka := ⟨{ initKafkaGlobal (env broker) user with rkc := some ⟨0⟩ }, [.confNew ⟨0⟩]⟩

end Sample

theorem settings_documented_iff_acks :
    PassesExactly (Sample.settingsEnv Sample.acks) Sample.configured ⟨0⟩
        [(lit "acks", lit "0"), (lit "ack", lit "1"), (lit "acks", lit "all")] ∧
      .confSet .setting (some ⟨0⟩) (lit "ack") (lit "1") false ∈
        (readPluginKafkaSettings (Sample.settingsEnv Sample.acks) (lit "kafka.notification.settings")
          Sample.configured).trace := by
  have owned : Sample.configured.global.rkc = some ⟨0⟩ := rfl
  have documented := settings_documented_iff owned (Sample.settingsEnv Sample.acks)
  have selected : (ownerSettings (Sample.settingsEnv Sample.acks) Sample.configured.global).filterMap
      documentedSetting = [(lit "acks", lit "0"), (lit "ack", lit "1"), (lit "acks", lit "all")] := by
    decide +kernel
  have dots : ∀ setting ∈ Sample.acks, (lit "kafka.notification.settings").isPrefixOf setting.1 = true →
      setting.1[(lit "kafka.notification.settings").length]? = some (ascii '.') := by decide +kernel
  rw [selected] at documented
  refine ⟨documented.mpr ?_, by decide +kernel⟩
  intro setting member c rest split
  have dot := dots setting member (List.isPrefixOf_iff_prefix.mpr ⟨c :: rest, split.symm⟩)
  rw [split, List.getElem?_append_right le_rfl, Nat.sub_self, List.getElem?_cons_zero] at dot
  exact Option.some.inj dot

/-- A setting that is not documented is passed on. -/
theorem settings_undocumented :
    ¬ PassesExactly (Sample.settingsEnv [(lit "kafka.notification.settings_debug", lit "msg")]) Sample.configured ⟨0⟩
      ((ownerSettings (Sample.settingsEnv [(lit "kafka.notification.settings_debug", lit "msg")])
        Sample.configured.global).filterMap documentedSetting) := by
  have owned : Sample.configured.global.rkc = some ⟨0⟩ := rfl
  rw [passesExactly_iff owned]
  decide +kernel

/-- A name with its value in a map. -/
def overwrite (c : CStr → Option CStr) (write : CStr × CStr) : CStr → Option CStr :=
  Function.update c write.1 (some write.2)

/-- Names that are set one after the other are each left at the last value. -/
theorem overwrite_loop (writes : List (CStr × CStr)) (c : CStr → Option CStr) (name : CStr) :
    writes.foldl overwrite c name = (writes.reverse.lookup name).or (c name) := by
  induction writes generalizing c with
  | nil => rfl
  | cons write writes ih =>
    obtain ⟨key, value⟩ := write
    rw [List.foldl_cons, ih, List.reverse_cons, List.lookup_append, Option.or_assoc, List.lookup_singleton]
    congr 1
    by_cases same : name = key <;> simp [overwrite, same]

/-- What a configuration object maps a name to after the actions: an accepted
`rd_kafka_conf_set` overwrites the name, a rejected one changes nothing. `none` is the
default. -/
def configure (rkc : Conf) (c : CStr → Option CStr) : Action → CStr → Option CStr
  | .confNew rkc' => if rkc' = rkc then fun _ => none else c
  | .confSet _ rkc' name value accepted =>
    if rkc' = some rkc ∧ accepted = true then overwrite c (name, value) else c
  | _ => c

def configuration (rkc : Conf) (actions : List Action) : CStr → Option CStr :=
  actions.foldl (configure rkc) fun _ => none

/-- The settings that `read_plugin_kafka_settings` set and librdkafka accepted. -/
def acceptedSettings (actions : List Action) : List (CStr × CStr) :=
  actions.filterMap fun
    | .confSet .setting _ name value true => some (name, value)
    | _ => none

/-- The brokers and the debug contexts of the global, and for every other name the last
accepted setting. -/
structure ConfiguredAs (global : Global) (actions : List Action) (c : CStr → Option CStr) : Prop where
  servers : c (lit "bootstrap.servers") = some global.brokers
  debug : c (lit "debug") = some global.debug
  others : ∀ name, name ≠ lit "bootstrap.servers" → name ≠ lit "debug" →
    c name = (acceptedSettings actions).reverse.lookup name

theorem configure_calls (c : CStr → Option CStr) (passes : List.Forall₂ (PassesOn rkc) calls settings) :
    calls.foldl (configure rkc) c =
      (acceptedSettings calls).foldl overwrite c := by
  induction passes generalizing c with
  | nil => rfl
  | cons first _ ih =>
    obtain ⟨accepted, rfl⟩ := first
    rw [List.foldl_cons, ih]
    cases accepted with
    | true => simp [configure, acceptedSettings]
    | false => simp [configure, acceptedSettings]

theorem createProducer_trace (env : Env) (kafka : Kafka) :
    ∃ result last, (createProducer env kafka).2.trace = kafka.trace ++ .new kafka.global.rkc result :: last ∧
      ∀ handle result', .new handle result' ∉ last := by
  unfold createProducer rdKafkaNew
  by_cases succeeds : env.broker.new kafka.trace = true
  · refine ⟨some ⟨kafka.trace.length⟩, [.setLogLevel (some ⟨kafka.trace.length⟩)], ?_, by simp⟩
    simp [succeeds, Kafka.log, Kafka.setRk]
  · refine ⟨none, [.confDestroy kafka.global.rkc, .setLogLevel none], ?_, by simp⟩
    simp [succeeds, Kafka.log, Kafka.setRk, Kafka.setRkc]

/-- What `init_global` has done when it gets to `rd_kafka_new`. -/
theorem initGlobal_reaches
    (reached : (initGlobal env kafka).2.trace = kafka.trace ++ (actions ++ .new handle result :: last)) :
    ∃ rkc calls, handle = some rkc ∧
      List.Forall₂ (PassesOn rkc) calls
        ((ownerSettings env kafka.global).filterMap (passedOn (lit "kafka.notification.settings"))) ∧
      actions = .confNew rkc :: (configuring rkc kafka.global.user calls ++
        [setServers rkc kafka.global true, setDebug rkc true]) := by
  have missing : kafka.global.rk = none := by
    cases present : kafka.global.rk with
    | none => rfl
    | some rk =>
      have same : initGlobal env kafka = (some rk, kafka) := by simp only [initGlobal, present]
      rw [same] at reached
      simp at reached
  obtain ⟨rkc, calls, -, passes, ways⟩ := initGlobal_configures env missing
  have refused {more : List Action} (none : .new handle result ∉ more)
      (done : initGlobal env kafka = (Option.none, (kafka.setRkc (some rkc)).logs
        (.confNew rkc :: (configuring rkc kafka.global.user calls ++ more)))) : False := by
    rw [done, Kafka.logs_trace, Kafka.setRkc_trace, List.append_cancel_left_eq] at reached
    apply (configuring_setup kafka.global.user passes).notMem_new none
    rw [reached]
    exact List.mem_append_right _ List.mem_cons_self
  rcases ways with done | done | done
  · exact (refused (by simp [setServers]) done).elim
  · exact (refused (by simp [setServers, setDebug]) done).elim
  · have early : .new handle result ∉ .confNew rkc :: (configuring rkc kafka.global.user calls ++
        [setServers rkc kafka.global true, setDebug rkc true]) :=
      (configuring_setup kafka.global.user passes).notMem_new (by simp [setServers, setDebug])
    obtain ⟨result', last', trace, others⟩ := createProducer_trace env ((kafka.setRkc (some rkc)).logs
      (.confNew rkc :: (configuring rkc kafka.global.user calls ++
        [setServers rkc kafka.global true, setDebug rkc true])))
    rw [done, trace, Kafka.logs_trace, Kafka.setRkc_trace, List.append_assoc, List.append_cancel_left_eq,
      List.append_cons_inj_of_notMem early (others handle result)] at reached
    obtain ⟨same, new, -⟩ := reached
    obtain ⟨owned, -⟩ := Action.new.inj new
    exact ⟨rkc, calls, owned.symm, passes, same.symm⟩

theorem configuration_reached (trace : List Action) (user : Option UserId) (global : Global)
    (passes : List.Forall₂ (PassesOn rkc) calls settings) :
    configuration rkc (trace ++ .confNew rkc :: (configuring rkc user calls ++
        [setServers rkc global true, setDebug rkc true])) =
      overwrite (overwrite ((acceptedSettings calls).foldl overwrite fun _ => none)
        (lit "bootstrap.servers", global.brokers)) (lit "debug", lit "all") := by
  have read (c : CStr → Option CStr) : (reads user).foldl (configure rkc) c = c := by
    cases user <;> rfl
  simp only [configuration, configuring, List.foldl_append, List.foldl_cons, List.foldl_nil, configure, read,
    configure_calls _ passes, setServers, setDebug, if_true, and_self]

theorem acceptedSettings_reached (user : Option UserId) (global : Global) (calls : List Action) :
    acceptedSettings (.confNew rkc :: (configuring rkc user calls ++
      [setServers rkc global true, setDebug rkc true])) = acceptedSettings calls := by
  cases user <;> simp [acceptedSettings, configuring, reads, setServers, setDebug, List.filterMap_append]

/-- The configuration of a producer is that of the global, but for the debug contexts,
which are always `all`. -/
theorem configuredAs_iff
    (reached : (initGlobal env kafka).2.trace = kafka.trace ++ (actions ++ .new handle result :: last)) :
    ∃ rkc, handle = some rkc ∧
      (ConfiguredAs kafka.global actions (configuration rkc (kafka.trace ++ actions)) ↔
        kafka.global.debug = lit "all") := by
  obtain ⟨rkc, calls, owned, passes, rfl⟩ := initGlobal_reaches reached
  refine ⟨rkc, owned, ?_⟩
  have apart : lit "bootstrap.servers" ≠ lit "debug" := by decide
  rw [configuration_reached kafka.trace kafka.global.user kafka.global passes]
  constructor
  · intro configured
    have debug := configured.debug
    simp only [overwrite, Function.update_self, Option.some.injEq] at debug
    exact debug.symm
  · intro all
    constructor
    · simp [overwrite, Function.update_of_ne apart]
    · simp [overwrite, all]
    · intro name other other'
      rw [acceptedSettings_reached, overwrite, Function.update_of_ne other', overwrite,
        Function.update_of_ne other, overwrite_loop, Option.or_none]

/-- The global is as the `init` of its owner has filled it, but for the count and the
handles. -/
def FilledBy (env : Env) (g : Global) (user : UserId) : Prop :=
  ∃ refcount rkc rk, g = { initKafkaGlobal env user with refcount, rkc, rk }

theorem FilledBy.counted (filled : FilledBy env g user) (refcount : Int) :
    FilledBy env { g with refcount } user := by
  obtain ⟨_, rkc, rk, rfl⟩ := filled
  exact ⟨refcount, rkc, rk, rfl⟩

theorem FilledBy.calls (filled : FilledBy env g user) (calls : Calls (ctx, ⟨g, trace⟩) (ctx', kafka)) :
    FilledBy env kafka.global user := by
  obtain ⟨refcount, _, _, rfl⟩ := filled
  exact ⟨refcount, kafka.global.rkc, kafka.global.rk, calls.frame.2⟩

theorem Effect.filled (effect : Effect env s op t)
    (filled : ∀ g, s.world.kafkaGlobal = some g → ∃ user, FilledBy env g user) :
    ∀ g, t.world.kafkaGlobal = some g → ∃ user, FilledBy env g user := by
  intro g' present'
  cases effect with
  | @init user g config created =>
    obtain rfl := Option.some.inj present'
    cases present : s.world.kafkaGlobal with
    | none =>
      rw [present] at created
      obtain rfl := created
      exact ⟨user, _, _, _, rfl⟩
    | some g₀ =>
      rw [present] at created
      obtain rfl := created
      obtain ⟨owner, same⟩ := filled _ present
      exact ⟨owner, same.counted _⟩
  | @initGlobal g rk kafka present effect =>
    obtain rfl := Option.some.inj present'
    obtain ⟨owner, refcount, rkc, rk, rfl⟩ := filled _ present
    refine ⟨owner, refcount, kafka.global.rkc, kafka.global.rk, ?_⟩
    cases effect <;> rfl
  | onInstance present split live _ calls =>
    obtain rfl := Option.some.inj present'
    obtain ⟨owner, same⟩ := filled _ present
    exact ⟨owner, same.calls calls⟩
  | deinit present split live _ calls =>
    obtain rfl := Option.some.inj present'
    obtain ⟨owner, same⟩ := filled _ present
    exact ⟨owner, (same.calls calls).counted _⟩
  | kept => exact filled g' present'
  | cleanup => contradiction

theorem run_filled (run : Run (lifecycle env) ops s) :
    ∀ g, s.world.kafkaGlobal = some g → ∃ user, FilledBy env g user := by
  refine run.invariant (P := fun s => ∀ g, s.world.kafkaGlobal = some g → ∃ user, FilledBy env g user) ?_ ?_
  · rintro s rfl g present
    contradiction
  · rintro s op t filled ⟨permitted, done⟩
    exact (exec_effect permitted done).filled filled

/-- Whenever `init_global` gets to `rd_kafka_new` in a run, the producer is configured as
the global is, and its debug contexts are those of the owner's settings, exactly when
these settings say `all`. -/
theorem run_configured_iff (run : Run (lifecycle env) ops s) (present : s.world.kafkaGlobal = some g)
    (reached : (initGlobal env ⟨g, s.trace⟩).2.trace = s.trace ++ (actions ++ .new handle result :: last)) :
    ∃ owner rkc, g.user = some owner ∧ handle = some rkc ∧
      g.debug = ((env.mailUser owner).getenv (lit "kafka.notification.kafka_debug")).getD defaultDebug ∧
      (ConfiguredAs g actions (configuration rkc (s.trace ++ actions)) ↔
        (env.mailUser owner).getenv (lit "kafka.notification.kafka_debug") = some (lit "all")) := by
  obtain ⟨rkc, owned, configured⟩ := configuredAs_iff reached
  obtain ⟨owner, refcount, rkc', rk, rfl⟩ := run_filled run _ present
  refine ⟨owner, rkc, rfl, owned, rfl, configured.trans ?_⟩
  have default : defaultDebug ≠ lit "all" := by decide
  simp only [initKafkaGlobal]
  cases (env.mailUser owner).getenv (lit "kafka.notification.kafka_debug") with
  | none => simp [default]
  | some debug => simp

namespace Sample

/-- An environment whose user has this setting of the debug contexts, or none. -/
def debugEnv (debug : Option CStr) : Env :=
  { env broker with mailUser := fun _ =>
      { alice with getenv := fun name => if name = lit "kafka.notification.kafka_debug" then debug else none } }

/-- After the `init` of one instance. -/
def initialised (env : Env) : State where
  world := ⟨some { initKafkaGlobal env user with refcount := 1 }, []⟩
  instances := [⟨user, initContext env.dovecot (fun _ => none) (env.mailUser user), true⟩]

theorem initialised_run (env : Env) : Run (lifecycle env) [initUser user] (initialised env) :=
  Run.next (Run.start rfl) ⟨trivial, rfl⟩

/-- What `init_global` does next, up to `rd_kafka_new`. -/
def configures (env : Env) : List Action :=
  .confNew ⟨0⟩ :: (configuring ⟨0⟩ (some user) [] ++
    [setServers ⟨0⟩ (initKafkaGlobal env user) true, setDebug ⟨0⟩ true])

theorem initialised_reaches (debug : Option CStr) :
    (initGlobal (debugEnv debug) ⟨{ initKafkaGlobal (debugEnv debug) user with refcount := 1 }, []⟩).2.trace =
      [] ++ (configures (debugEnv debug) ++ [.new (some ⟨0⟩) (some ⟨7⟩), .setLogLevel (some ⟨7⟩)]) := rfl

end Sample

theorem run_configured_iff_all :
    Run (lifecycle (Sample.debugEnv (some (lit "all")))) [Sample.initUser Sample.user]
        (Sample.initialised (Sample.debugEnv (some (lit "all")))) ∧
      ConfiguredAs { initKafkaGlobal (Sample.debugEnv (some (lit "all"))) Sample.user with refcount := 1 }
        (Sample.configures (Sample.debugEnv (some (lit "all"))))
        (configuration ⟨0⟩ (Sample.configures (Sample.debugEnv (some (lit "all"))))) := by
  have run := Sample.initialised_run (Sample.debugEnv (some (lit "all")))
  obtain ⟨owner, rkc, -, owned, -, configured⟩ :=
    run_configured_iff run rfl (Sample.initialised_reaches (some (lit "all")))
  obtain rfl := Option.some.inj owned
  exact ⟨run, configured.mpr rfl⟩

/-- Without a setting of the debug contexts, the producer of a run has the contexts `all`,
not those of its global. -/
theorem run_configured_default :
    ∃ s g actions result last, Run (lifecycle (Sample.debugEnv none)) [Sample.initUser Sample.user] s ∧
      s.world.kafkaGlobal = some g ∧
      (initGlobal (Sample.debugEnv none) ⟨g, s.trace⟩).2.trace =
        s.trace ++ (actions ++ .new (some ⟨0⟩) result :: last) ∧
      g.debug = [] ∧ configuration ⟨0⟩ (s.trace ++ actions) (lit "debug") = some (lit "all") ∧
      ¬ ConfiguredAs g actions (configuration ⟨0⟩ (s.trace ++ actions)) := by
  have reached := Sample.initialised_reaches none
  refine ⟨_, _, _, _, _, Sample.initialised_run (Sample.debugEnv none), rfl, reached, rfl, ?_, ?_⟩
  · decide +kernel
  · obtain ⟨rkc, owned, configured⟩ := configuredAs_iff reached
    obtain rfl := Option.some.inj owned
    have other : defaultDebug ≠ lit "all" := by decide
    intro as
    exact other (configured.mp as)

end PushNotificationKafka
