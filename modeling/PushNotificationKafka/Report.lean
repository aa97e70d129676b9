import PushNotificationKafka.Publication

/-! The lines that the driver writes to the error log. A message that is lost on the way to
librdkafka leaves a line that names its topic; a log without such lines means that nothing
has been lost. -/
namespace PushNotificationKafka
open Bytes Transition

/-- A call of `i_error`, or of `i_warning` for a rejected plugin setting. -/
inductive Line where
  | setting
  | refused (name : CStr)
  | newFailed
  | topicNewFailed (topic : CStr)
  | kafkaNotInitialized
  | produceFailed (topic : CStr) (error : RespErr)
  | topicNotInitialized (topic : CStr)
  | notPositive (name : CStr)
deriving DecidableEq

/-- The texts of errors that librdkafka has. -/
structure ErrorTexts where
  errstr : CStr
  err2str : RespErr → CStr
  lastError : CStr

def logLabel : CStr := lit "Kafka Push Notification: "

namespace Line

def text (texts : ErrorTexts) : Line → CStr
  | setting => texts.errstr
  | refused name =>
    logLabel ++ lit "init_global - rd_kafka_conf_set(" ++ name ++ lit ") failed with " ++ texts.errstr
  | newFailed =>
    logLabel ++ lit "init_global - rd_kafka_new() failed to create new producer with " ++ texts.errstr
  | topicNewFailed topic =>
    logLabel ++ lit "init_topic - rd_kafka_topic_new() failed to create topic " ++ topic ++
      lit " object with " ++ texts.lastError
  | kafkaNotInitialized => logLabel ++ lit "init_topic - Kafka not initialized"
  | produceFailed topic error =>
    logLabel ++ lit "send_to_kafka - failed to produce to topic=" ++ topic ++ lit ": " ++ texts.err2str error
  | topicNotInitialized topic => logLabel ++ lit "send_to_kafka - topic=" ++ topic ++ lit " not initialized"
  | notPositive name => logLabel ++ lit "init - " ++ name ++ lit " must be positive"

/-- The topic that the line names. -/
def topic : Line → Option CStr
  | topicNewFailed topic | produceFailed topic _ | topicNotInitialized topic => some topic
  | setting | refused _ | newFailed | kafkaNotInitialized | notPositive _ => none

/-- A line that names a topic shows it. -/
theorem topic_text {line : Line} (named : line.topic = some shown) (texts : ErrorTexts) :
    shown <:+: line.text texts := by
  cases line with
  | topicNewFailed | produceFailed =>
    obtain rfl := Option.some.inj named
    exact ⟨_, _, (List.append_assoc ..).symm⟩
  | topicNotInitialized =>
    obtain rfl := Option.some.inj named
    exact ⟨_, _, rfl⟩
  | setting | refused | newFailed | kafkaNotInitialized | notPositive => contradiction

end Line

/-- The line that follows a call of librdkafka, for a context with this topic. -/
def Action.line (topic : CStr) : Action → Option Line
  | .confSet .setting _ _ _ false => some .setting
  | .confSet .servers _ name _ false | .confSet .debug _ name _ false => some (.refused name)
  | .new _ none => some .newFailed
  | .topicNew _ _ none => some (.topicNewFailed topic)
  | .produce _ _ _ (some error) => some (.produceFailed topic error)
  | _ => none

def linesOf (topic : CStr) (actions : List Action) : List Line := actions.filterMap (Action.line topic)

/-- The calls that have been made from one state to a later one. -/
def Kafka.since (start kafka : Kafka) : List Action := kafka.trace.drop start.trace.length

theorem Kafka.since_eq {start kafka : Kafka} (trace : kafka.trace = start.trace ++ actions) :
    start.since kafka = actions := by
  rw [since, trace, List.drop_left]

def initTopicLines (env : Env) (ctx : Context) (kafka : Kafka) : List Line :=
  linesOf ctx.topic (kafka.since (initTopic env ctx kafka).2) ++
    if (initGlobal env kafka).1 = none then [.kafkaNotInitialized] else []

def sendToKafkaLines (env : Env) (ctx : Context) (str username : CStr) (kafka : Kafka) : List Line :=
  let (ctx', kafka') := initTopic env ctx kafka
  initTopicLines env ctx kafka ++
    if ctx'.rkt ≠ none then linesOf ctx.topic (kafka'.since (sendToKafka env ctx str username kafka).2)
    else [.topicNotInitialized ctx.topic]

def processEventsLines (env : Env) (render : TxnEvent → Option CStr) (username : CStr) :
    List TxnEvent → Context × Kafka → List Line
  | [], _ => []
  | event :: events, (ctx, kafka) =>
    match render event with
    | some str =>
      sendToKafkaLines env ctx str username kafka ++
        processEventsLines env render username events (sendToKafka env ctx str username kafka)
    | none => processEventsLines env render username events (ctx, kafka)

def Target.processLines (env : Env) (dtxn : DriverTxn) (target : Target) (kafka : Kafka) : List Line :=
  processEventsLines env (target.render env.dovecot dtxn) dtxn.user.username (target.eventdata.getD [])
    (dtxn.context, kafka)

/-- A number that is set but cannot be used. -/
def intSettingLines (dovecot : Dovecot) (user : MailUser) (name shown : CStr) : List Line :=
  match user.getenv name with
  | none => []
  | some tmp =>
    match dovecot.strToInt tmp with
    | none => [.notPositive shown]
    | some n => if n.val < 0 then [.notPositive shown] else []

/-- The lines of `init`, which only the first instance writes. One name lacks its prefix. -/
def initLines (env : Env) (user : UserId) (world : World) : List Line :=
  match world.kafkaGlobal with
  | some _ => []
  | none =>
    let number := intSettingLines env.dovecot (env.mailUser user)
    number (lit "kafka.notification.kafka_max_retries") (lit "kafka_max_retries") ++
      number (lit "kafka.notification.kafka_retry_poll_time_in_ms") (lit "kafka_retry_poll_time_in_ms") ++
      number (lit "kafka.notification.kafka_flush_time_in_ms") (lit "kafka_flush_time_in_ms") ++
      number (lit "kafka.notification.kafka_topic_close_time_in_ms") (lit "topic_close_time_in_ms") ++
      number (lit "kafka.notification.kafka_destroy_time_in_ms") (lit "kafka_destroy_time_in_ms")

def Session.lines (env : Env) (s : Session) : SessionOp → List Line
  | .driver (.init _ user) => initLines env user s.driver.world
  | .process dtxn target =>
    match s.driver.instances[dtxn.inst]?, s.driver.world.kafkaGlobal with
    | some inst, some g =>
      target.processLines env ⟨env.mailUser dtxn.user, inst.ctx⟩ ⟨g, s.driver.trace⟩
    | _, _ => []
  | .driver _ | .create _ | .beginTxn _ _ | .endTxn _ => []

theorem linesOf_produce (topic : CStr) (member : .produce rkt str username (some error) ∈ actions) :
    .produceFailed topic error ∈ linesOf topic actions := List.mem_filterMap.mpr ⟨_, member, rfl⟩

/-- The loop makes an attempt. -/
theorem Passes.attempt (passes : Passes ctx kafka str username 0 actions) :
    ∃ result, .produce ctx.rkt str username result ∈ actions := by
  cases passes with
  | ends => exact ⟨_, List.mem_append_right _ List.mem_cons_self⟩
  | @givesUp k counted =>
    have positive := kafka.global.maxRetries.property.1
    obtain ⟨k, rfl⟩ : ∃ k', k = k' + 1 := ⟨k - 1, by omega⟩
    exact ⟨_, List.mem_append_left _ List.mem_cons_self⟩

/-- With a topic handle, a message is taken or a line tells that it cannot be produced. -/
theorem retryLoop_lines (env : Env) (ctx : Context) (str username topic : CStr) (kafka : Kafka) :
    ∃ actions, (retryLoop env ctx str username 0 kafka).trace = kafka.trace ++ actions ∧
      ((str, username) ∈ enqueued actions ∨ ∃ line ∈ linesOf topic actions, line.topic = some topic) := by
  obtain ⟨actions, loop, passes⟩ := retryLoop_passes env ctx str username 0 kafka
    kafka.global.maxRetries.property.1
  obtain ⟨result, tried⟩ := passes.attempt
  refine ⟨actions, by rw [loop]; rfl, ?_⟩
  cases result with
  | none => exact .inl (List.mem_filterMap.mpr ⟨_, tried, rfl⟩)
  | some error => exact .inr ⟨.produceFailed topic error, linesOf_produce topic tried, rfl⟩

/-- A message is taken, or a line names its topic. -/
theorem sendToKafka_lines (env : Env) (ctx : Context) (str username : CStr) (kafka : Kafka) :
    ∃ actions, (sendToKafka env ctx str username kafka).2.trace = kafka.trace ++ actions ∧
      (enqueued actions ≠ [] ∨
        ∃ line ∈ sendToKafkaLines env ctx str username kafka, line.topic = some ctx.topic) := by
  obtain ⟨first, trace, -⟩ := initTopic_opens env ctx kafka
  by_cases closed : (initTopic env ctx kafka).1.rkt = none
  · have sent := sendToKafka_eq env ctx str username kafka
    rw [if_pos closed] at sent
    refine ⟨first, by rw [sent, trace], .inr ⟨.topicNotInitialized ctx.topic, ?_, rfl⟩⟩
    simp [sendToKafkaLines, closed]
  · obtain ⟨actions, loop, result⟩ := retryLoop_lines env (initTopic env ctx kafka).1 str username ctx.topic
      (initTopic env ctx kafka).2
    obtain ⟨last, later⟩ : ∃ last, (sendToKafka env ctx str username kafka).2.trace =
        (initTopic env ctx kafka).2.trace ++ (actions ++ [last]) := by
      rw [sendToKafka_eq, if_neg closed, Kafka.log_trace, loop, List.append_assoc]
      exact ⟨_, rfl⟩
    refine ⟨first ++ (actions ++ [last]), by rw [later, trace, List.append_assoc], ?_⟩
    rcases result with taken | ⟨line, listed, named⟩
    · have kept : (str, username) ∈ enqueued (first ++ (actions ++ [last])) := by
        simp only [enqueued, List.filterMap_append, List.mem_append]
        exact .inr (.inl taken)
      exact .inl (List.ne_nil_of_mem kept)
    · refine .inr ⟨line, ?_, named⟩
      simp only [sendToKafkaLines, if_pos closed, Kafka.since_eq later]
      refine List.mem_append_right _ ?_
      rw [linesOf, List.filterMap_append]
      exact List.mem_append_left _ listed

/-- The line names one of these topics. -/
def Line.about (line : Line) (about : CStr → Bool) : Bool := line.topic.any about

theorem about_pos {lines : List Line} (named : ∃ line ∈ lines, line.topic = some topic)
    (included : about topic = true) : 0 < lines.countP (Line.about · about) := by
  obtain ⟨line, member, named⟩ := named
  refine List.countP_pos_iff.mpr ⟨line, member, ?_⟩
  rw [Line.about, named]
  exact included

/-- Of the renderings, those that are not taken have a line each. -/
theorem processEvents_lines (env : Env) (render : TxnEvent → Option CStr) (username : CStr)
    (events : List TxnEvent) (state : Context × Kafka) (included : about state.1.topic = true) :
    ∃ actions, (processEvents env render username events state).2.trace = state.2.trace ++ actions ∧
      (events.filterMap render).length ≤ (enqueued actions).length +
        (processEventsLines env render username events state).countP (Line.about · about) := by
  induction events generalizing state with
  | nil => exact ⟨[], (List.append_nil _).symm, Nat.zero_le _⟩
  | cons event events ih =>
    obtain ⟨ctx, kafka⟩ := state
    cases rendered : render event with
    | none =>
      obtain ⟨actions, trace, counted⟩ := ih (ctx, kafka) included
      refine ⟨actions, ?_, ?_⟩
      · simpa only [processEvents, rendered] using trace
      · simpa only [processEventsLines, rendered, List.filterMap_cons] using counted
    | some str =>
      obtain ⟨first, sent, taken⟩ := sendToKafka_lines env ctx str username kafka
      have frame := (sendToKafka_calls env ctx str username kafka).frame.1
      have topic : (sendToKafka env ctx str username kafka).1.topic = ctx.topic := by rw [frame]
      obtain ⟨actions, trace, counted⟩ := ih (sendToKafka env ctx str username kafka) (topic ▸ included)
      have one : 1 ≤ (enqueued first).length +
          (sendToKafkaLines env ctx str username kafka).countP (Line.about · about) := by
        rcases taken with taken | named
        · have positive := List.length_pos_of_ne_nil taken
          omega
        · have positive := about_pos named included
          omega
      have split : enqueued (first ++ actions) = enqueued first ++ enqueued actions := List.filterMap_append
      refine ⟨first ++ actions, ?_, ?_⟩
      · simp only [processEvents, rendered]
        rw [trace, sent, List.append_assoc]
      · simp only [processEventsLines, rendered, List.filterMap_cons, List.length_cons, List.countP_append,
          split, List.length_append]
        omega

theorem countP_recordsOf (topic : CStr) (messages : List (CStr × CStr)) (about : CStr → Bool) :
    (recordsOf topic messages).countP (about ·.topic) =
      if about topic = true then messages.length else 0 := by
  induction messages with
  | nil => simp [recordsOf]
  | cons message messages ih =>
    rw [recordsOf, List.map_cons, List.countP_cons, ← recordsOf, ih]
    split <;> simp

theorem process_lines (env : Env) (dtxn : DriverTxn) (target : Target) (kafka : Kafka)
    (named : Named dtxn.context kafka.trace) (about : CStr → Bool) :
    (recordsOf dtxn.context.topic (messages env.dovecot dtxn target)).countP (about ·.topic) +
        (published kafka.trace).countP (about ·.topic) ≤
      (published (target.process env dtxn kafka).2.trace).countP (about ·.topic) +
        (target.processLines env dtxn kafka).countP (Line.about · about) := by
  obtain ⟨-, actions, trace, taken⟩ := Publishes.calls named (process_calls env dtxn target kafka)
  have trace : (target.process env dtxn kafka).2.trace = kafka.trace ++ actions := trace
  have taken : published (target.process env dtxn kafka).2.trace =
      published kafka.trace ++ recordsOf dtxn.context.topic (enqueued actions) := taken
  rw [taken, List.countP_append, countP_recordsOf, countP_recordsOf]
  by_cases included : about dtxn.context.topic = true
  · obtain ⟨actions', trace', counted⟩ := processEvents_lines env (target.render env.dovecot dtxn)
      dtxn.user.username (target.eventdata.getD []) (dtxn.context, kafka) included
    rw [← target.process_eq, trace, List.append_cancel_left_eq] at trace'
    subst trace'
    rw [if_pos included, if_pos included, messages, List.length_map, Target.processLines]
    omega
  · rw [if_neg included, if_neg included]
    omega

theorem session_lines (run : Run (sessions env registry before) ops s)
    (step : (sessions env registry before).step s op t) (about : CStr → Bool) :
    (s.batch env op).countP (about ·.topic) + (published s.driver.trace).countP (about ·.topic) ≤
      (published t.driver.trace).countP (about ·.topic) + (s.lines env op).countP (Line.about · about) := by
  obtain ⟨actions, kept, -, taken, -, -⟩ := session_publishes run step
  have effect := session_effect step
  cases effect with
  | driver | create | beginTxn | endTxn =>
    rw [taken, List.countP_append]
    simp only [Session.batch, List.countP_nil]
    omega
  | @process dtxn target ctx kafka first rest inst g _ _ _ _ split position _ present processed =>
    obtain ⟨matched, driven⟩ := (sessions_lifecycle env registry before).run run
    have named : Named inst.ctx s.driver.trace := run_named driven inst (by simp [split])
    have counted :=
      process_lines env ⟨env.mailUser dtxn.user, inst.ctx⟩ target ⟨g, s.driver.trace⟩ named about
    rw [processed] at counted
    simp only [Session.batch, Session.lines, instance_at split position, present]
    exact counted

/-- Keeps the records offered so far, and the log. -/
def record (env : Env) (seen : List Record × List Line) (s : Session) (op : SessionOp) :
    List Record × List Line :=
  (seen.1 ++ s.batch env op, seen.2 ++ s.lines env op)

abbrev reporting (env : Env) (registry : Registry) (before : UserId → Int) :
    Machine (Session × List Record × List Line) SessionOp :=
  (sessions env registry before).monitor ([], []) (record env)

/-- What is published is a part of the offers, and there is a line for each other offer. -/
structure Accounted (s : Session) (offers : List Record) (lines : List Line) : Prop where
  part : (published s.driver.trace).Sublist offers
  counted : ∀ about : CStr → Bool, offers.countP (about ·.topic) ≤
    (published s.driver.trace).countP (about ·.topic) + lines.countP (Line.about · about)

theorem run_accounted (run : Run (reporting env registry before) ops (s, offers, lines)) :
    Accounted s offers lines := by
  refine run.monitor_invariant (P := fun s seen => Accounted s seen.1 seen.2) ?_ ?_
  · rintro s rfl
    exact ⟨.slnil, fun _ => Nat.zero_le _⟩
  · rintro before s op t ⟨offers, lines⟩ run ⟨part, counted⟩ step
    obtain ⟨actions, kept, -, taken, more, -⟩ := session_publishes run step
    constructor
    · rw [taken]
      exact part.append more
    · intro about
      have last := session_lines run step about
      have before : offers.countP (about ·.topic) ≤ (published s.driver.trace).countP (about ·.topic) +
          lines.countP (Line.about · about) := counted about
      simp only [record, List.countP_append]
      omega

/-- In every run, for any choice of topics, all messages that the driver is given for them
are published or have a line of their own in the log that names one of the topics. A log that
names no topic means that all of them are published. -/
theorem sessions_reported (run : Run (reporting env registry before) ops (s, offers, lines)) :
    (∀ about : CStr → Bool, offers.countP (about ·.topic) ≤
      (published s.driver.trace).countP (about ·.topic) + lines.countP (Line.about · about)) ∧
    ((∀ line ∈ lines, line.topic = none) → published s.driver.trace = offers) := by
  obtain ⟨part, counted⟩ := run_accounted run
  refine ⟨counted, fun quiet => ?_⟩
  have none : lines.countP (Line.about · fun _ => true) = 0 := by
    apply List.countP_eq_zero.mpr
    intro line member
    simp [Line.about, quiet line member]
  have all := counted fun _ => true
  rw [none] at all
  exact part.eq_of_length_le (by simpa using all)

theorem reporting_initial (env : Env) (registry : Registry) (before : UserId → Int) :
    (reporting env registry before).initial (Session.start before, [], []) := ⟨rfl, rfl⟩

theorem reporting_sound (env : Env) (registry : Registry) (before : UserId → Int)
    (p : Session × List Record × List Line) (op : SessionOp) (q : Session × List Record × List Line)
    (stepped : monitorNext (Session.next env registry) (record env) p op = some q) :
    (reporting env registry before).step p op q :=
  monitorNext_sound (Session.next_sound env registry before) p op q stepped

/-- The same message twice. -/
def Sample.twice : List SessionOp :=
  [.driver (Sample.initUser Sample.user), .create Sample.user, .beginTxn 0 0, Sample.process, Sample.process]

theorem sessions_reported_twice :
    (∃ s offers, Run (reporting (Sample.env Sample.recovering) Sample.registry fun _ => 1) Sample.twice
      (s, offers, [.produceFailed defaultTopic (.other 1)]) ∧ offers.length = 2 ∧
      offers.countP (·.topic == defaultTopic) ≤
        (published s.driver.trace).countP (·.topic == defaultTopic) + 1) ∧
    ∃ s offers lines, Run (reporting (Sample.env Sample.broker) Sample.registry fun _ => 1) Sample.twice
      (s, offers, lines) ∧ offers.length = 2 ∧ published s.driver.trace = offers := by
  constructor
  · obtain ⟨⟨s, offers, lines⟩, run, checked⟩ : ∃ p,
        Run (reporting (Sample.env Sample.recovering) Sample.registry fun _ => 1) Sample.twice p ∧
          decide (p.2.1.length = 2 ∧ p.2.2 = [.produceFailed defaultTopic (.other 1)]) = true :=
      replay_reaches (reporting_sound _ _ _) (reporting_initial _ _ _) _ (by decide +kernel)
    obtain ⟨offered, rfl⟩ := of_decide_eq_true checked
    exact ⟨s, offers, run, offered, (sessions_reported run).1 fun topic => topic == defaultTopic⟩
  · obtain ⟨⟨s, offers, lines⟩, run, checked⟩ : ∃ p,
        Run (reporting (Sample.env Sample.broker) Sample.registry fun _ => 1) Sample.twice p ∧
          decide (p.2.1.length = 2 ∧ p.2.2 = []) = true :=
      replay_reaches (reporting_sound _ _ _) (reporting_initial _ _ _) _ (by decide +kernel)
    obtain ⟨offered, rfl⟩ := of_decide_eq_true checked
    exact ⟨s, offers, [], run, offered, (sessions_reported run).2 (by simp)⟩

end PushNotificationKafka
