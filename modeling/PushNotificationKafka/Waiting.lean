import PushNotificationKafka.Retry
import PushNotificationKafka.Sessions

/-! How long the driver lets librdkafka wait. A negative timeout would be one without
end; none is ever passed, and every operation keeps within the times of the global. -/
namespace PushNotificationKafka
open Bytes Transition

/-- The time in milliseconds that a call may take until it returns. -/
def waits : Action → Int
  | .poll _ timeout | .flush _ timeout | .waitDestroyed timeout => timeout
  | _ => 0

def waited (actions : List Action) : Int := (actions.map waits).sum

/-- No call waits without end, and together they do not wait longer than this. -/
structure Within (actions : List Action) (limit : Int) : Prop where
  ends : ∀ e ∈ actions, 0 ≤ waits e
  total : waited actions ≤ limit

namespace Within

theorem append (first : Within actions limit) (last : Within actions' limit') :
    Within (actions ++ actions') (limit + limit') := by
  constructor
  · intro e member
    rcases List.mem_append.mp member with early | late
    · exact first.ends e early
    · exact last.ends e late
  · have total := add_le_add first.total last.total
    simpa [waited] using total

/-- Calls that return at once. -/
theorem free (free : ∀ e ∈ actions, waits e = 0) : Within actions 0 := by
  constructor
  · intro e member
    rw [free e member]
  · rw [waited, List.map_congr_left free]
    simp

theorem mono (within : Within actions limit) (below : limit ≤ limit') : Within actions limit' :=
  ⟨within.ends, within.total.trans below⟩

theorem single (nonneg : 0 ≤ waits e) : Within [e] (waits e) := by
  constructor
  · intro e' member
    rwa [List.mem_singleton.mp member]
  · simp [waited]

end Within

theorem fullPass_within (ctx : Context) (kafka : Kafka) (str username : CStr) :
    Within (fullPass ctx kafka str username) kafka.global.retryPollTimeInMs := by
  have nonneg : 0 ≤ waits (.poll kafka.global.rk kafka.global.retryPollTimeInMs) :=
    kafka.global.retryPollTimeInMs.property.1
  have produced : Within [.produce ctx.rkt str username (some .queueFull)] 0 := .free (by simp [waits])
  have both := produced.append (.single nonneg)
  rwa [zero_add] at both

/-- The retry loop polls once for each attempt at most. -/
theorem Passes.within (passes : Passes ctx kafka str username 0 actions) :
    Within actions ((kafka.global.maxRetries + 1) * kafka.global.retryPollTimeInMs) := by
  have full (k : Nat) : Within (List.replicate k (fullPass ctx kafka str username)).flatten
      (k * kafka.global.retryPollTimeInMs) := by
    induction k with
    | zero => exact (Within.free (by simp)).mono (by simp)
    | succ k ih =>
      rw [List.replicate_succ, List.flatten_cons]
      refine ((fullPass_within ctx kafka str username).append ih).mono (le_of_eq ?_)
      push_cast
      ring
  have nonneg := kafka.global.retryPollTimeInMs.property.1
  cases passes with
  | @ends k result _ bound =>
    have last : Within [.produce ctx.rkt str username result] 0 := .free (by simp [waits])
    refine ((full k).append last).mono ?_
    rw [add_zero]
    exact mul_le_mul_of_nonneg_right (by omega) nonneg
  | @givesUp k counted =>
    refine (full k).mono ?_
    exact mul_le_mul_of_nonneg_right (by omega) nonneg

theorem opens_within (opening : ∀ e ∈ actions, opens e = true) : Within actions 0 := by
  apply Within.free
  intro e member
  have opened := opening e member
  cases e <;> first | rfl | contradiction

theorem sendToKafka_within (env : Env) (ctx : Context) (str username : CStr) (kafka : Kafka) :
    ∃ actions, (sendToKafka env ctx str username kafka).2.trace = kafka.trace ++ actions ∧
      Within actions ((kafka.global.maxRetries + 1) * kafka.global.retryPollTimeInMs) := by
  obtain ⟨opening, trace, all⟩ := initTopic_opening env ctx kafka
  have opened := opens_within all
  have frame := (initTopic_calls env ctx kafka).frame.2
  have retries : 0 ≤ kafka.global.maxRetries.val := kafka.global.maxRetries.property.1
  have nonneg : 0 ≤ kafka.global.retryPollTimeInMs.val := kafka.global.retryPollTimeInMs.property.1
  unfold sendToKafka
  split
  rename_i ctx' kafka' made
  rw [made] at trace frame
  have trace : kafka'.trace = kafka.trace ++ opening := trace
  by_cases missing : ctx'.rkt = none
  · refine ⟨opening, by simpa [missing] using trace, opened.mono ?_⟩
    exact mul_nonneg (by omega) nonneg
  · have start : (0 : Int) ≤ kafka'.global.maxRetries := kafka'.global.maxRetries.property.1
    obtain ⟨actions, loop, passes⟩ := retryLoop_passes env ctx' str username 0 kafka' start
    have polled : Within [.poll kafka'.global.rk 0] 0 := .free (by simp [waits])
    have all := (opened.append passes.within).append polled
    have limits : kafka'.global.maxRetries = kafka.global.maxRetries ∧
        kafka'.global.retryPollTimeInMs = kafka.global.retryPollTimeInMs := by
      rw [frame]
      exact ⟨rfl, rfl⟩
    rw [limits.1, limits.2, zero_add, add_zero] at all
    exact ⟨_, by simp [missing, loop, trace], all⟩

/-- The time that an operation may take by the settings of the global. -/
def State.allowance (s : State) (op : Op) : Int :=
  match s.world.kafkaGlobal with
  | none => 0
  | some g =>
    match op with
    | .sendToKafka _ _ _ => (g.maxRetries + 1) * g.retryPollTimeInMs
    | .deinitTopic _ | .deinit _ => g.topicCloseTimeInMs
    | .cleanup => g.flushTimeInMs + g.destroyTimeInMs
    | .init _ _ | .initGlobal | .initTopic _ => 0

theorem closeTopic_within (g : Global) (opened : Option Topic) :
    Within ((g.rk.toList.map fun rk => .poll (some rk) g.topicCloseTimeInMs) ++
      opened.toList.map fun rkt => .topicDestroy (some rkt)) g.topicCloseTimeInMs := by
  have nonneg : (0 : Int) ≤ g.topicCloseTimeInMs := g.topicCloseTimeInMs.property.1
  have polled : Within (g.rk.toList.map fun rk => .poll (some rk) g.topicCloseTimeInMs) g.topicCloseTimeInMs := by
    cases g.rk with
    | none => exact (Within.free (by simp)).mono nonneg
    | some rk => exact .single nonneg
  have destroyed : Within (opened.toList.map fun rkt => .topicDestroy (some rkt)) 0 :=
    .free (by cases opened <;> simp [waits])
  simpa using polled.append destroyed

theorem shutdown_within (g : Global) :
    Within (g.rk.toList.flatMap fun rk =>
      [.flush (some rk) g.flushTimeInMs, .destroy (some rk), .waitDestroyed g.destroyTimeInMs])
      (g.flushTimeInMs + g.destroyTimeInMs) := by
  have flush : (0 : Int) ≤ g.flushTimeInMs := g.flushTimeInMs.property.1
  have destroy : (0 : Int) ≤ g.destroyTimeInMs := g.destroyTimeInMs.property.1
  cases g.rk with
  | none => exact (Within.free (by simp)).mono (by simpa using add_nonneg flush destroy)
  | some rk =>
    have flushed : Within [.flush (some rk) g.flushTimeInMs] g.flushTimeInMs := .single flush
    have destroyed : Within [.destroy (some rk)] 0 := .free (by simp [waits])
    have gone : Within [.waitDestroyed g.destroyTimeInMs] g.destroyTimeInMs := .single destroy
    simpa using (flushed.append destroyed).append gone

theorem closing_within (s : State) (op : Op) (external : op.external = true) :
    Within (s.closing op) (s.allowance op) := by
  have nothing : Within [] 0 := .free (by simp)
  cases present : s.world.kafkaGlobal with
  | none => cases op <;> simpa only [State.closing, State.allowance, present] using nothing
  | some g =>
    cases op with
    | init => simpa only [State.closing, State.allowance, present] using nothing
    | deinit i =>
      simp only [State.closing, State.allowance, present]
      cases s.instances[i]? with
      | none => exact nothing.mono g.topicCloseTimeInMs.property.1
      | some inst => exact closeTopic_within g inst.ctx.rkt
    | cleanup =>
      simp only [State.closing, State.allowance, present]
      split
      · exact shutdown_within g
      · exact nothing.mono (add_nonneg g.flushTimeInMs.property.1 g.destroyTimeInMs.property.1)
    | initGlobal | initTopic | sendToKafka | deinitTopic => contradiction

section
variable {s t : State}

/-- What works on an instance keeps to the limit of its function. -/
theorem onInstance_within (limit : Global → Int) {run : Context → Kafka → Context × Kafka} (live : s.LiveAt i)
    (done : s.onInstance i run = .ok t)
    (within : ∀ ctx kafka, ∃ actions, (run ctx kafka).2.trace = kafka.trace ++ actions ∧
      Within actions (limit kafka.global)) :
    ∃ g actions, s.world.kafkaGlobal = some g ∧ t.trace = s.trace ++ actions ∧ Within actions (limit g) := by
  obtain ⟨inst, found, -⟩ := (s.liveAt_iff i).mp live
  obtain ⟨g, present⟩ := onInstance_global found done
  rw [onInstance_eq found present] at done
  obtain rfl := Except.ok.inj done
  obtain ⟨actions, trace, limits⟩ := within inst.ctx ⟨g, s.trace⟩
  exact ⟨g, actions, present, trace, limits⟩

theorem exec_within {op : Op} (permitted : s.Permitted op) (done : s.exec env op = .ok t) :
    ∃ actions, t.trace = s.trace ++ actions ∧ Within actions (s.allowance op) := by
  cases op with
  | init config user => exact ⟨_, external_trace rfl done, closing_within s _ rfl⟩
  | deinit i => exact ⟨_, external_trace rfl done, closing_within s _ rfl⟩
  | cleanup => exact ⟨_, external_trace rfl done, closing_within s _ rfl⟩
  | initGlobal =>
    obtain ⟨⟨rk, world⟩, ran, done⟩ := bind_ok done
    obtain ⟨g, present, rfl, rfl⟩ := withGlobal_ok ran
    obtain rfl := Except.ok.inj done
    obtain ⟨actions, trace, opening⟩ := (initGlobal_spec env ⟨g, s.world.trace⟩).opens
    refine ⟨actions, trace, ?_⟩
    simpa only [State.allowance, present] using opens_within opening
  | initTopic i =>
    obtain ⟨g, actions, present, trace, limits⟩ := onInstance_within (fun _ => 0) permitted done
      fun ctx kafka => by
        obtain ⟨opening, trace, all⟩ := initTopic_opening env ctx kafka
        exact ⟨opening, trace, opens_within all⟩
    exact ⟨actions, trace, by simpa only [State.allowance, present] using limits⟩
  | sendToKafka i str username =>
    have done : s.onInstance i (fun ctx => sendToKafka env ctx str username) = .ok t := done
    obtain ⟨g, actions, present, trace, limits⟩ := onInstance_within
      (fun g => (g.maxRetries + 1) * g.retryPollTimeInMs) permitted done
      fun ctx kafka => sendToKafka_within env ctx str username kafka
    exact ⟨actions, trace, by simpa only [State.allowance, present] using limits⟩
  | deinitTopic i =>
    obtain ⟨g, actions, present, trace, limits⟩ := onInstance_within
      (fun g => g.topicCloseTimeInMs) permitted done
      fun ctx kafka => ⟨_, deinitTopic_trace ctx kafka, closeTopic_within kafka.global ctx.rkt⟩
    exact ⟨actions, trace, by simpa only [State.allowance, present] using limits⟩

end

/-- Adds up what the operations may take. -/
def allow (allowed : Int) (s : State) (op : Op) : Int := allowed + s.allowance op

/-- In every run no call of librdkafka gets a negative timeout, and all calls together wait
no longer than the settings allow for the operations of the run. -/
theorem run_within (run : Run ((lifecycle env).monitor 0 allow) ops (s, allowed)) : Within s.trace allowed := by
  refine run.monitor_invariant (P := fun s allowed => Within s.trace allowed) ?_ ?_
  · rintro s rfl
    exact .free (by simp [State.start, State.trace])
  · rintro _ s op t allowed _ before ⟨permitted, done⟩
    obtain ⟨actions, trace, limits⟩ := exec_within permitted done
    rw [trace]
    exact before.append limits

namespace Sample

/-- A user with retries, and a queue that is always full. -/
def retrying : MailUser :=
  { alice with getenv := fun name =>
      if name = lit "kafka.notification.kafka_max_retries" then some (lit "2") else none }

def fullEnv : Env := ⟨dovecot, { broker with produce := fun _ => some .queueFull }, fun _ => retrying⟩

/-- A whole life of one instance with one message. -/
def life : List Op := [initUser user, send 0, .deinit 0, .cleanup]

end Sample

theorem run_within_life : ∃ s allowed, Run ((lifecycle Sample.fullEnv).monitor 0 allow) Sample.life (s, allowed) ∧
    waited s.trace = 4500 ∧ allowed = 4500 ∧ Within s.trace allowed := by
  have initial : ((lifecycle Sample.fullEnv).monitor 0 allow).initial (State.start, 0) := ⟨rfl, rfl⟩
  have sound (s : State) (op : Op) (t : State) (stepped : s.next Sample.fullEnv anything op = some t) :
      (lifecycle Sample.fullEnv).step s op t := (State.next_sound Sample.fullEnv anything s op t stepped).2
  obtain ⟨⟨s, allowed⟩, run, checked⟩ : ∃ p, Run ((lifecycle Sample.fullEnv).monitor 0 allow) Sample.life p ∧
      decide (waited p.1.trace = 4500 ∧ p.2 = 4500) = true :=
    replay_reaches (monitorNext_sound sound) initial _ (by decide +kernel)
  obtain ⟨total, limit⟩ := of_decide_eq_true checked
  exact ⟨s, allowed, run, total, limit, run_within run⟩

end PushNotificationKafka
