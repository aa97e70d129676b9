import PushNotificationKafka.Coherence
import PushNotificationKafka.Delivery

/-! The retry loop of `send_to_kafka`: which attempts one call makes and how it polls
between them, and the `int` that counts them. -/
namespace PushNotificationKafka
open Bytes

/-- Calls that open a topic. -/
def opens : Action → Bool
  | .readSettings _ | .confNew _ | .confSetCb _ _ | .confSet _ _ _ _ _ | .confDestroy _ | .new _ _
  | .setLogLevel _ | .topicNew _ _ _ => true
  | .topicDestroy _ | .produce _ _ _ _ | .poll _ _ | .flush _ _ | .destroy _ | .waitDestroyed _ => false

/-- The polls among the actions: handle and timeout. -/
def polls (actions : List Action) : List (Option Producer × Int) :=
  actions.filterMap fun
    | .poll rk timeout => some (rk, timeout)
    | _ => none

/-- The results of the attempts that one call makes: there are at most one more than
`max_retries`, and each but the last finds the queue full. -/
structure Attempts (maxRetries : Int) (results : List (Option RespErr)) : Prop where
  first : 1 ≤ results.length
  bound : results.length ≤ maxRetries + 1
  earlier : ∀ result ∈ results.dropLast, result = some .queueFull
  last : results.getLast? ≠ some (some .queueFull) ∨ results.length = maxRetries + 1

/-- What one attempt does: after a full queue it polls. -/
def attemptActions (ctx : Context) (kafka : Kafka) (str username : CStr) (result : Option RespErr) : List Action :=
  .produce ctx.rkt str username result ::
    if result = some .queueFull then [.poll kafka.global.rk kafka.global.retryPollTimeInMs] else []

theorem InitGlobal.opens (effect : InitGlobal kafka rk kafka') :
    ∃ actions, kafka'.trace = kafka.trace ++ actions ∧ ∀ e ∈ actions, opens e = true := by
  have all {rkc : Conf} {events last : List Action} (setup : Setup rkc kafka.global.user events)
      (rest : ∀ e ∈ last, PushNotificationKafka.opens e = true) :
      ∀ e ∈ .confNew rkc :: (events ++ last), PushNotificationKafka.opens e = true := by
    intro e member
    rcases setup.mem member with rfl | early | late
    · rfl
    · cases early <;> rfl
    · exact rest e late
  cases effect with
  | ready => exact ⟨[], (List.append_nil _).symm, by simp⟩
  | refused _ _ setup | failed _ _ setup | created _ _ setup =>
    exact ⟨_, rfl, all setup (by simp [PushNotificationKafka.opens])⟩

theorem initTopic_opening (env : Env) (ctx : Context) (kafka : Kafka) :
    ∃ opening, (initTopic env ctx kafka).2.trace = kafka.trace ++ opening ∧ ∀ e ∈ opening, opens e = true := by
  obtain ⟨actions, trace, all⟩ := (initGlobal_spec env kafka).opens
  unfold initTopic
  split
  · rename_i rk kafka' made
    rw [made] at trace
    have trace : kafka'.trace = kafka.trace ++ actions := trace
    split
    · refine ⟨_, by rw [rdKafkaTopicNew, Kafka.log_trace, trace, List.append_assoc], ?_⟩
      intro e member
      rcases List.mem_append.mp member with early | late
      · exact all e early
      · rw [List.mem_singleton.mp late]
        rfl
    · exact ⟨actions, trace, all⟩
  · rename_i kafka' made
    rw [made] at trace
    exact ⟨actions, trace, all⟩

theorem opens_silent (all : ∀ e ∈ actions, opens e = true) : attempts actions = [] ∧ polls actions = [] := by
  constructor
  · apply List.filterMap_eq_nil_iff.mpr
    intro e member
    have opening := all e member
    cases e <;> first | rfl | contradiction
  · apply List.filterMap_eq_nil_iff.mpr
    intro e member
    have opening := all e member
    cases e <;> first | rfl | contradiction

/-- Full queues and then one more result, or nothing but full queues. -/
theorem Passes.attempts (passes : Passes ctx kafka str username 0 actions) :
    ∃ results, Attempts kafka.global.maxRetries results ∧
      actions = results.flatMap (attemptActions ctx kafka str username) := by
  have full : attemptActions ctx kafka str username (some .queueFull) = fullPass ctx kafka str username := rfl
  cases passes with
  | @ends k result other bound =>
    refine ⟨List.replicate k (some .queueFull) ++ [result], ?_, ?_⟩
    · constructor
      · simp
      · simp only [List.length_append, List.length_replicate, List.length_singleton]
        push_cast
        omega
      · intro earlier member
        rw [List.dropLast_concat] at member
        exact List.eq_of_mem_replicate member
      · exact .inl (by simpa using other)
    · have one : attemptActions ctx kafka str username result = [.produce ctx.rkt str username result] := by
        rw [attemptActions, if_neg other]
      rw [List.flatMap_append, List.flatMap_replicate, full, List.flatMap_singleton, one]
  | @givesUp k counted =>
    have start := kafka.global.maxRetries.property.1
    refine ⟨List.replicate k (some .queueFull), ?_, ?_⟩
    · constructor
      · simp only [List.length_replicate]
        omega
      · simp only [List.length_replicate]
        omega
      · intro earlier member
        exact List.eq_of_mem_replicate (List.mem_of_mem_dropLast member)
      · exact .inr (by simp only [List.length_replicate]; omega)
    · rw [List.flatMap_replicate, full]

/-- Nothing comes after a success. -/
theorem Attempts.success (attempts : Attempts maxRetries (before ++ none :: after)) : after = [] := by
  by_contra later
  have early : none ∈ (before ++ none :: after).dropLast := by
    rw [List.dropLast_append_of_ne_nil (by simp), List.dropLast_cons_of_ne_nil later]
    exact List.mem_append_right _ List.mem_cons_self
  exact absurd (attempts.earlier none early) (by simp)

/-- A call of `send_to_kafka` opens the topic without an attempt or a poll. Where there
is no topic then, it does nothing more; else it attempts once, and again after each
full queue as long as `max_retries` allows, and polls once more in the end. -/
theorem sendToKafka_attempts (env : Env) (ctx : Context) (str username : CStr) (kafka : Kafka) :
    let opened := initTopic env ctx kafka
    let sent := sendToKafka env ctx str username kafka
    ∃ opening, opened.2.trace = kafka.trace ++ opening ∧ attempts opening = [] ∧ polls opening = [] ∧
      (opened.1.rkt = none ∧ sent.2.trace = kafka.trace ++ opening ∨
        opened.1.rkt ≠ none ∧ ∃ results, Attempts kafka.global.maxRetries results ∧
          (∀ before after, results = before ++ none :: after → after = []) ∧
          sent.2.trace = kafka.trace ++ opening ++
            results.flatMap (attemptActions opened.1 opened.2 str username) ++ [.poll opened.2.global.rk 0]) := by
  obtain ⟨opening, trace, all⟩ := initTopic_opening env ctx kafka
  obtain ⟨noAttempts, noPolls⟩ := opens_silent all
  have frame := (initTopic_calls env ctx kafka).frame.2
  refine ⟨opening, trace, noAttempts, noPolls, ?_⟩
  simp only [sendToKafka]
  by_cases missing : (initTopic env ctx kafka).1.rkt = none
  · refine .inl ⟨missing, ?_⟩
    rw [if_neg (not_not.mpr missing)]
    exact trace
  · have start : (0 : Int) ≤ (initTopic env ctx kafka).2.global.maxRetries :=
      (initTopic env ctx kafka).2.global.maxRetries.property.1
    obtain ⟨actions, loop, passes⟩ :=
      retryLoop_passes env (initTopic env ctx kafka).1 str username 0 (initTopic env ctx kafka).2 start
    obtain ⟨results, attempts, shape⟩ := passes.attempts
    have same : (initTopic env ctx kafka).2.global.maxRetries = kafka.global.maxRetries := by rw [frame]
    rw [same] at attempts
    refine .inr ⟨missing, results, attempts, ?_, ?_⟩
    · rintro before after rfl
      exact attempts.success
    · rw [if_pos missing, loop, shape, ← trace]
      rfl

/-- The increment of an `int`; `none` is its overflow. -/
def increment (n : CInt) : Option CInt :=
  if small : n.val < 2147483647 then some ⟨n.val + 1, by have := n.property.1; omega, by omega⟩ else none

/-- `retry` with the counter as the source has it: the comparison also increments it
where it ends the loop. -/
def retryInt (env : Env) (ctx : Context) (str username : CStr) (retryCounter : CInt) (kafka : Kafka) :
    Option (Option CInt × Kafka) :=
  match rdKafkaProduce env.broker ctx.rkt str username kafka with
  | (none, kafka) => some (none, kafka)
  | (some .queueFull, kafka) =>
    let kafka := kafka.log (.poll kafka.global.rk kafka.global.retryPollTimeInMs)
    match increment retryCounter with
    | none => none
    | some next => if retryCounter.val < kafka.global.maxRetries then some (some next, kafka) else some (none, kafka)
  | (some (.other _), kafka) => some (none, kafka)

/-- A pass that overflows the counter, or a pass of `retry`. -/
theorem retryInt_eq (env : Env) (ctx : Context) (str username : CStr) (counter : CInt) (kafka : Kafka) :
    retryInt env ctx str username counter kafka =
      if env.broker.produce kafka.trace = some .queueFull then
        (increment counter).map fun next =>
          (if counter.val < kafka.global.maxRetries then some next else none,
            kafka.logs (fullPass ctx kafka str username))
      else some (none, kafka.logs [.produce ctx.rkt str username (env.broker.produce kafka.trace)]) := by
  simp only [retryInt, rdKafkaProduce]
  cases result : env.broker.produce kafka.trace with
  | none => simp [Kafka.log_eq]
  | some error =>
    cases error with
    | other code => simp [Kafka.log_eq]
    | queueFull =>
      cases increment counter with
      | none => simp
      | some next =>
        simp only [Kafka.log_eq, Kafka.logs_logs, Kafka.logs_global, fullPass, List.cons_append, List.nil_append]
        split <;> simp [*]

theorem increment_spec (n : CInt) :
    increment n = none ∧ n.val = 2147483647 ∨
      ∃ next : CInt, increment n = some next ∧ next.val = n.val + 1 ∧ n.val < 2147483647 := by
  have bound := n.property.2
  unfold increment
  split
  · rename_i small
    exact .inr ⟨_, rfl, rfl, small⟩
  · rename_i large
    exact .inl ⟨rfl, by omega⟩

theorem retryInt_again (again : retryInt env ctx str username counter kafka = some (some next, kafka')) :
    next.val = counter.val + 1 ∧ counter.val < kafka.global.maxRetries ∧
      kafka' = kafka.logs (fullPass ctx kafka str username) ∧
      env.broker.produce kafka.trace = some .queueFull := by
  rw [retryInt_eq] at again
  split at again
  · rename_i full
    rcases increment_spec counter with ⟨overflow, -⟩ | ⟨next', small, value, -⟩
    · rw [overflow] at again
      contradiction
    · simp only [small, Option.map_some, Option.some.injEq, Prod.mk.injEq] at again
      obtain ⟨taken, rfl⟩ := again
      split at taken
      · rename_i below
        obtain rfl := Option.some.inj taken
        exact ⟨value, below, rfl, full⟩
      · contradiction
  · simp at again

def retryLoopInt (env : Env) (ctx : Context) (str username : CStr) (retryCounter : CInt) (kafka : Kafka) :
    Option Kafka :=
  match _ : retryInt env ctx str username retryCounter kafka with
  | none => none
  | some (none, kafka) => some kafka
  | some (some retryCounter, kafka) => retryLoopInt env ctx str username retryCounter kafka
termination_by (kafka.global.maxRetries - retryCounter.val).toNat
decreasing_by
  rename_i again
  obtain ⟨counted, below, rfl, -⟩ := retryInt_again again
  rw [Kafka.logs_global]
  omega

/-- `send_to_kafka` with the counter as the source has it. -/
def sendToKafkaInt (env : Env) (ctx : Context) (str username : CStr) (kafka : Kafka) : Option (Context × Kafka) :=
  let (ctx, kafka) := initTopic env ctx kafka
  if ctx.rkt ≠ none then
    (retryLoopInt env ctx str username ⟨0, by decide⟩ kafka).map fun kafka =>
      (ctx, kafka.log (.poll kafka.global.rk 0))
  else some (ctx, kafka)

/-- The first `n` attempts all find the queue full. -/
def QueueFull (broker : Broker) (ctx : Context) (str username : CStr) (kafka : Kafka) (n : Nat) : Prop :=
  ∀ k < n, broker.produce (kafka.trace ++ (List.replicate k (fullPass ctx kafka str username)).flatten) =
    some .queueFull

theorem queueFull_succ (broker : Broker) (ctx : Context) (str username : CStr) (kafka : Kafka) (n : Nat) :
    QueueFull broker ctx str username kafka (n + 1) ↔
      broker.produce kafka.trace = some .queueFull ∧
        QueueFull broker ctx str username (kafka.logs (fullPass ctx kafka str username)) n := by
  have later (k : Nat) : kafka.trace ++ (List.replicate (k + 1) (fullPass ctx kafka str username)).flatten =
      (kafka.logs (fullPass ctx kafka str username)).trace ++
        (List.replicate k (fullPass ctx (kafka.logs (fullPass ctx kafka str username)) str username)).flatten := by
    rw [List.replicate_succ, List.flatten_cons, Kafka.logs_trace, List.append_assoc]
    rfl
  constructor
  · intro full
    refine ⟨?_, ?_⟩
    · simpa using full 0 (Nat.succ_pos n)
    · intro k below
      rw [← later]
      exact full (k + 1) (Nat.succ_lt_succ below)
  · rintro ⟨first, rest⟩ k below
    cases k with
    | zero => simpa using first
    | succ k =>
      rw [later]
      exact rest k (Nat.lt_of_succ_lt_succ below)

/-- The counter overflows only where it may reach the largest `int` and full queues
take it there. -/
theorem retryLoopInt_none (env : Env) (ctx : Context) (str username : CStr) (counter : CInt) (kafka : Kafka)
    (n : Nat) (bound : counter.val ≤ kafka.global.maxRetries) (rest : counter.val + n = 2147483648) :
    retryLoopInt env ctx str username counter kafka = none ↔
      kafka.global.maxRetries.val = 2147483647 ∧ QueueFull env.broker ctx str username kafka n := by
  have largest := kafka.global.maxRetries.property.2
  obtain ⟨n, rfl⟩ : ∃ m, n = m + 1 := ⟨n - 1, by omega⟩
  rw [queueFull_succ]
  fun_induction retryLoopInt env ctx str username counter kafka generalizing n with
  | case1 counter kafka overflows =>
    rw [retryInt_eq] at overflows
    split at overflows
    · rename_i full
      rcases increment_spec counter with ⟨-, reached⟩ | ⟨next, small, -⟩
      · refine iff_of_true rfl ⟨by omega, full, ?_⟩
        intro k below
        omega
      · simp [small] at overflows
    · contradiction
  | case2 counter kafka kafka' done =>
    refine iff_of_false (Option.some_ne_none _) ?_
    rintro ⟨reached, full, -⟩
    rw [retryInt_eq, if_pos full] at done
    rcases increment_spec counter with ⟨overflow, -⟩ | ⟨next, small, value, below⟩
    · simp [overflow] at done
    · have again : counter.val < kafka.global.maxRetries := by omega
      simp [small, again] at done
  | case3 counter kafka next kafka' again ih =>
    obtain ⟨counted, below, rfl, full⟩ := retryInt_again again
    rw [Kafka.logs_global] at ih
    obtain ⟨m, rfl⟩ : ∃ m, n = m + 1 := ⟨n - 1, by omega⟩
    refine (ih (by omega) largest m (by omega)).trans ?_
    rw [← queueFull_succ, and_iff_right full]

/-- Where the counter does not overflow, a pass is that of an unbounded counter. -/
theorem retryInt_retry (done : retryInt env ctx str username counter kafka = some (next, kafka')) :
    retry env ctx str username counter.val kafka = (next.map Subtype.val, kafka') := by
  rw [retryInt_eq] at done
  rw [retry_eq]
  split at done
  · rename_i full
    rw [if_pos full]
    rcases increment_spec counter with ⟨overflow, -⟩ | ⟨next', small, value, -⟩
    · simp [overflow] at done
    · simp only [small, Option.map_some, Option.some.injEq, Prod.mk.injEq] at done
      obtain ⟨rfl, rfl⟩ := done
      split
      · rw [Option.map_some, value]
      · rfl
  · rename_i other
    rw [if_neg other]
    obtain ⟨rfl, rfl⟩ := Prod.mk.inj (Option.some.inj done)
    rfl

theorem retryLoopInt_some (done : retryLoopInt env ctx str username counter kafka = some final) :
    retryLoop env ctx str username counter.val kafka = final := by
  fun_induction retryLoopInt env ctx str username counter kafka with
  | case1 => contradiction
  | case2 counter kafka kafka' ends =>
    have pass := retryInt_retry ends
    obtain rfl := Option.some.inj done
    rw [retryLoop]
    split
    · rename_i same
      exact (Prod.mk.inj (same.symm.trans pass)).2
    · rename_i same
      cases same.symm.trans pass
  | case3 counter kafka next kafka' again ih =>
    have pass := retryInt_retry again
    rw [← ih done, retryLoop]
    split
    · rename_i same
      cases same.symm.trans pass
    · rename_i same
      obtain ⟨counted, rfl⟩ := Prod.mk.inj (same.symm.trans pass)
      rw [Option.some.inj counted]

theorem sendToKafkaInt_none (env : Env) (ctx : Context) (str username : CStr) (kafka : Kafka) :
    let opened := initTopic env ctx kafka
    sendToKafkaInt env ctx str username kafka = none ↔
      opened.1.rkt ≠ none ∧ kafka.global.maxRetries.val = 2147483647 ∧
        QueueFull env.broker opened.1 str username opened.2 2147483648 := by
  intro opened
  have frame := (initTopic_calls env ctx kafka).frame.2
  have same : opened.2.global.maxRetries = kafka.global.maxRetries := by rw [frame]
  have start : (0 : Int) ≤ opened.2.global.maxRetries := opened.2.global.maxRetries.property.1
  have overflow := retryLoopInt_none env opened.1 str username ⟨0, by decide⟩ opened.2 2147483648 start rfl
  rw [same] at overflow
  by_cases missing : opened.1.rkt = none
  · have done : sendToKafkaInt env ctx str username kafka = some opened := if_neg (not_not.mpr missing)
    simp [done, missing]
  · have sent : sendToKafkaInt env ctx str username kafka =
        (retryLoopInt env opened.1 str username ⟨0, by decide⟩ opened.2).map fun kafka =>
          (opened.1, kafka.log (.poll kafka.global.rk 0)) := if_pos missing
    rw [sent, Option.map_eq_none_iff, overflow, and_iff_right missing]

theorem sendToKafkaInt_some (done : sendToKafkaInt env ctx str username kafka = some final) :
    sendToKafka env ctx str username kafka = final := by
  let opened := initTopic env ctx kafka
  by_cases missing : opened.1.rkt = none
  · have counted : sendToKafkaInt env ctx str username kafka = some opened := if_neg (not_not.mpr missing)
    have sent : sendToKafka env ctx str username kafka = opened := if_neg (not_not.mpr missing)
    rw [sent]
    exact Option.some.inj (counted.symm.trans done)
  · have counted : sendToKafkaInt env ctx str username kafka =
        (retryLoopInt env opened.1 str username ⟨0, by decide⟩ opened.2).map fun kafka =>
          (opened.1, kafka.log (.poll kafka.global.rk 0)) := if_pos missing
    rw [counted] at done
    obtain ⟨last, loop, rfl⟩ := Option.map_eq_some_iff.mp done
    have same : retryLoop env opened.1 str username 0 opened.2 = last := retryLoopInt_some loop
    rw [← same]
    exact if_pos missing

/-- The counter of a call does not overflow, and the call is that of an unbounded
counter, exactly where there is no topic, `max_retries` is not the largest `int`, or one
of the attempts that would take the counter there does not find the queue full. -/
theorem sendToKafkaInt_iff (env : Env) (ctx : Context) (str username : CStr) (kafka : Kafka) :
    let opened := initTopic env ctx kafka
    sendToKafkaInt env ctx str username kafka = some (sendToKafka env ctx str username kafka) ↔
      opened.1.rkt = none ∨ kafka.global.maxRetries.val < 2147483647 ∨
        ¬ QueueFull env.broker opened.1 str username opened.2 2147483648 := by
  intro opened
  have largest := kafka.global.maxRetries.property.2
  have overflow := sendToKafkaInt_none env ctx str username kafka
  cases counted : sendToKafkaInt env ctx str username kafka with
  | none =>
    obtain ⟨present, reached, full⟩ := overflow.mp counted
    refine iff_of_false (by simp) ?_
    rintro (missing | below | other)
    · exact present missing
    · omega
    · exact other full
  | some final =>
    refine iff_of_true (congrArg some (sendToKafkaInt_some counted).symm) ?_
    by_contra contrary
    obtain ⟨present, others⟩ := not_or.mp contrary
    obtain ⟨below, full⟩ := not_or.mp others
    rw [overflow.mpr ⟨present, by omega, not_not.mp full⟩] at counted
    contradiction

namespace Sample

/-- A user whose retries are never to end, and a queue that is always full. -/
def patient : MailUser :=
  { alice with getenv := fun name =>
      if name = lit "kafka.notification.kafka_max_retries" then some (lit "2147483647") else none }

def patientEnv : Env := ⟨dovecot, { broker with produce := fun _ => some .queueFull }, fun _ => patient⟩

def patientCtx : Context := initContext dovecot (fun _ => none) patient

/-- The first call after `init`. -/
def patientKafka : Kafka := ⟨initKafkaGlobal patientEnv user, []⟩

end Sample

/-- The counter of this call overflows. -/
theorem sendToKafkaInt_overflow : Sample.patientKafka.global.maxRetries.val = 2147483647 ∧
    sendToKafkaInt Sample.patientEnv Sample.patientCtx [] Sample.patient.username Sample.patientKafka = none := by
  have largest : Sample.patientKafka.global.maxRetries.val = 2147483647 := by decide +kernel
  have present : (initTopic Sample.patientEnv Sample.patientCtx Sample.patientKafka).1.rkt ≠ none := by
    decide +kernel
  exact ⟨largest, (sendToKafkaInt_none ..).mpr ⟨present, largest, fun _ _ => rfl⟩⟩

end PushNotificationKafka
