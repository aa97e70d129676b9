import PushNotificationKafka.Notification

/-! What becomes of the events of a message or a mailbox: each rendering is sent on
its own, and its own calls alone decide whether it is enqueued. -/
namespace PushNotificationKafka
open Bytes

/-- The attempts to produce among the actions: payload, key and result. -/
def attempts (actions : List Action) : List (CStr × CStr × Option RespErr) :=
  actions.filterMap fun
    | .produce _ payload key result => some (payload, key, result)
    | _ => none

theorem attempts_append (first last : List Action) :
    attempts (first ++ last) = attempts first ++ attempts last :=
  List.filterMap_append

/-- A call fails that must succeed for a topic handle. -/
def failsToOpen (e : Action) : Bool :=
  refuses e || failsNew e || e matches .topicNew _ _ none

/-- There is no handle from any of the calls, and one of them fails. -/
def NoTopic (actions : List Action) : Prop :=
  (∃ e ∈ actions, failsToOpen e = true) ∧ ∀ e ∈ actions, topics.acquired e = none

/-- What the calls made for one rendering amount to, and whether it is enqueued. -/
inductive Outcome (maxRetries : Int) (str username : CStr) (actions : List Action) : Bool → Prop where
  | taken {k : Nat} : k ≤ maxRetries →
      attempts actions = List.replicate k (str, username, some .queueFull) ++ [(str, username, none)] →
      Outcome maxRetries str username actions true
  | noTopic : attempts actions = [] → NoTopic actions →
      Outcome maxRetries str username actions false
  | failed {k : Nat} {code : Int} : k ≤ maxRetries →
      attempts actions =
        List.replicate k (str, username, some .queueFull) ++ [(str, username, some (.other code))] →
      Outcome maxRetries str username actions false
  | queueFull {k : Nat} : k = maxRetries + 1 →
      attempts actions = List.replicate k (str, username, some .queueFull) →
      Outcome maxRetries str username actions false

theorem enqueued_eq (actions : List Action) :
    enqueued actions = (attempts actions).filterMap fun
      | (payload, key, none) => some (payload, key)
      | _ => none := by
  unfold enqueued attempts
  rw [List.filterMap_filterMap]
  congr 1
  funext e
  cases e with
  | produce _ _ _ result => cases result <;> rfl
  | _ => rfl

theorem Outcome.result (outcome : Outcome maxRetries str username actions delivered) :
    enqueued actions = if delivered then [(str, username)] else [] := by
  rw [enqueued_eq]
  cases outcome with
  | taken _ same | noTopic same _ | failed _ same | queueFull _ same =>
    simp [same, List.filterMap_append]

/-- Neither a topic handle is created nor anything produced. -/
def Silent (actions : List Action) : Prop := attempts actions = [] ∧ ∀ e ∈ actions, topics.acquired e = none

theorem Silent.append (first : Silent actions) (rest : Silent actions') : Silent (actions ++ actions') := by
  constructor
  · rw [attempts_append, first.1, rest.1]
    rfl
  · intro e member
    rcases List.mem_append.mp member with early | late
    · exact first.2 e early
    · exact rest.2 e late

theorem Setup.silent (setup : Setup rkc user events) : Silent events := by
  constructor
  · apply List.filterMap_eq_nil_iff.mpr
    intro e member
    cases setup.configures e member <;> rfl
  · intro e member
    cases setup.configures e member <;> rfl

theorem InitGlobal.silent (effect : InitGlobal kafka rk kafka') :
    ∃ actions, kafka'.trace = kafka.trace ++ actions ∧ Silent actions ∧
      (rk = none → ∃ e ∈ actions, failsToOpen e = true) := by
  have all {rkc : Conf} {events last : List Action} (setup : Setup rkc kafka.global.user events)
      (quiet : Silent last) : Silent (.confNew rkc :: (events ++ last)) := by
    have first : Silent [.confNew rkc] := ⟨rfl, by simp [topics]⟩
    exact first.append (setup.silent.append quiet)
  cases effect with
  | ready => exact ⟨[], (List.append_nil _).symm, ⟨rfl, by simp⟩, nofun⟩
  | @refused rkc events site name value _ _ setup required =>
    have refused : failsToOpen (.confSet site (some rkc) name value false) = true := by
      cases site <;> first | rfl | contradiction
    exact ⟨_, rfl, all setup ⟨rfl, by simp [topics]⟩, fun _ => ⟨_, by simp, refused⟩⟩
  | @failed rkc _ _ _ setup =>
    have failed : failsToOpen (.new (some rkc) none) = true := rfl
    exact ⟨_, rfl, all setup ⟨rfl, by simp [topics]⟩, fun _ => ⟨_, by simp, failed⟩⟩
  | created _ _ setup => exact ⟨_, rfl, all setup ⟨rfl, by simp [topics]⟩, nofun⟩

/-- Nothing is produced to open a topic, and it is open unless a call fails. -/
theorem initTopic_opens (env : Env) (ctx : Context) (kafka : Kafka) :
    ∃ actions, (initTopic env ctx kafka).2.trace = kafka.trace ++ actions ∧ attempts actions = [] ∧
      ((initTopic env ctx kafka).1.rkt = none → NoTopic actions) := by
  obtain ⟨actions, trace, silent, fails⟩ := (initGlobal_spec env kafka).silent
  unfold initTopic
  split
  · rename_i rk kafka' made
    rw [made] at trace fails
    have trace : kafka'.trace = kafka.trace ++ actions := trace
    split
    · have own (result : Option Topic) : attempts (actions ++ [.topicNew kafka'.global.rk ctx.topic result]) = [] := by
        rw [attempts_append, silent.1]
        rfl
      refine ⟨_, by rw [rdKafkaTopicNew, Kafka.log_trace, trace, List.append_assoc], own _, ?_⟩
      intro missing
      simp only [rdKafkaTopicNew] at missing
      rw [← trace, missing]
      have refused : Silent [.topicNew kafka'.global.rk ctx.topic none] := ⟨rfl, by simp [topics]⟩
      exact ⟨⟨_, List.mem_append_right _ List.mem_cons_self, rfl⟩, (silent.append refused).2⟩
    · rename_i opened
      exact ⟨actions, trace, silent.1, fun missing => absurd missing opened⟩
  · rename_i kafka' made
    rw [made] at trace fails
    exact ⟨actions, trace, silent.1, fun _ => ⟨fails rfl, silent.2⟩⟩

/-- A pass that finds the queue full. -/
def fullPass (ctx : Context) (kafka : Kafka) (str username : CStr) : List Action :=
  [.produce ctx.rkt str username (some .queueFull), .poll kafka.global.rk kafka.global.retryPollTimeInMs]

/-- The loop makes passes that find the queue full until one does not or there have
been one more than `max_retries`. -/
inductive Passes (ctx : Context) (kafka : Kafka) (str username : CStr) (counter : Int) : List Action → Prop where
  | ends {k : Nat} {result : Option RespErr} : result ≠ some .queueFull →
      counter + k ≤ kafka.global.maxRetries → Passes ctx kafka str username counter
        ((List.replicate k (fullPass ctx kafka str username)).flatten ++ [.produce ctx.rkt str username result])
  | givesUp {k : Nat} : counter + k = kafka.global.maxRetries + 1 → Passes ctx kafka str username counter
      (List.replicate k (fullPass ctx kafka str username)).flatten

/-- One more pass in front. -/
theorem Passes.again (passes : Passes ctx kafka' str username (counter + 1) actions)
    (same : kafka'.global = kafka.global) :
    Passes ctx kafka str username counter (fullPass ctx kafka str username ++ actions) := by
  have pass : fullPass ctx kafka' str username = fullPass ctx kafka str username := by rw [fullPass, same]; rfl
  have more (k : Nat) : fullPass ctx kafka str username ++
      (List.replicate k (fullPass ctx kafka str username)).flatten =
        (List.replicate (k + 1) (fullPass ctx kafka str username)).flatten := rfl
  cases passes with
  | @ends k result other bound =>
    rw [same] at bound
    rw [pass, ← List.append_assoc, more]
    exact .ends other (by push_cast; omega)
  | @givesUp k counted =>
    rw [same] at counted
    rw [pass, more]
    exact .givesUp (by push_cast; omega)

/-- One pass: it ends the loop with a result, gives up on a full queue, or goes on. -/
inductive Pass (ctx : Context) (kafka : Kafka) (str username : CStr) (counter : Int) :
    Option Int → Kafka → Prop where
  | ends : result ≠ some .queueFull → Pass ctx kafka str username counter none
      (kafka.logs [.produce ctx.rkt str username result])
  | givesUp : ¬ counter < kafka.global.maxRetries → Pass ctx kafka str username counter none
      (kafka.logs (fullPass ctx kafka str username))
  | again : counter < kafka.global.maxRetries → Pass ctx kafka str username counter (some (counter + 1))
      (kafka.logs (fullPass ctx kafka str username))

theorem retry_eq (env : Env) (ctx : Context) (str username : CStr) (counter : Int) (kafka : Kafka) :
    retry env ctx str username counter kafka =
      if env.broker.produce kafka.trace = some .queueFull then
        (if counter < kafka.global.maxRetries then some (counter + 1) else none,
          kafka.logs (fullPass ctx kafka str username))
      else (none, kafka.logs [.produce ctx.rkt str username (env.broker.produce kafka.trace)]) := by
  simp only [retry, rdKafkaProduce]
  cases result : env.broker.produce kafka.trace with
  | none => simp [Kafka.log_eq]
  | some error =>
    cases error with
    | other code => simp [Kafka.log_eq]
    | queueFull =>
      simp only [Kafka.log_eq, Kafka.logs_logs, Kafka.logs_global, fullPass, List.cons_append, List.nil_append]
      split <;> simp [*]

theorem retry_pass (env : Env) (ctx : Context) (str username : CStr) (counter : Int) (kafka : Kafka) :
    Pass ctx kafka str username counter (retry env ctx str username counter kafka).1
      (retry env ctx str username counter kafka).2 := by
  rw [retry_eq]
  split
  · split
    · exact .again ‹_›
    · exact .givesUp ‹_›
  · exact .ends ‹_›

theorem retryLoop_passes (env : Env) (ctx : Context) (str username : CStr) (counter : Int) (kafka : Kafka)
    (bound : counter ≤ kafka.global.maxRetries) :
    ∃ actions, retryLoop env ctx str username counter kafka = kafka.logs actions ∧
      Passes ctx kafka str username counter actions := by
  fun_induction retryLoop env ctx str username counter kafka with
  | case1 counter kafka kafka' done =>
    have pass := retry_pass env ctx str username counter kafka
    rw [done] at pass
    cases pass with
    | ends other => exact ⟨_, rfl, .ends (k := 0) other (by simpa using bound)⟩
    | givesUp reached =>
      have one : (List.replicate 1 (fullPass ctx kafka str username)).flatten =
        fullPass ctx kafka str username := by simp
      refine ⟨_, rfl, ?_⟩
      rw [← one]
      exact .givesUp (by push_cast; omega)
  | case2 counter kafka counter' kafka' again ih =>
    have pass := retry_pass env ctx str username counter kafka
    rw [again] at pass
    cases pass with
    | again below =>
      have next : counter + 1 ≤ kafka.global.maxRetries := below
      obtain ⟨actions, loop, passes⟩ := ih next
      refine ⟨fullPass ctx kafka str username ++ actions, ?_, passes.again rfl⟩
      rw [loop]
      exact kafka.logs_logs _ _

theorem Passes.outcome (passes : Passes ctx kafka str username 0 actions) (first last : List Action)
    (before : attempts first = []) (after : attempts last = []) :
    ∃ delivered, Outcome kafka.global.maxRetries str username (first ++ (actions ++ last)) delivered := by
  have full (k : Nat) : attempts (List.replicate k (fullPass ctx kafka str username)).flatten =
      List.replicate k (str, username, some .queueFull) := by
    induction k with
    | zero => rfl
    | succ k ih =>
      rw [List.replicate_succ, List.flatten_cons, attempts_append, ih, List.replicate_succ]
      rfl
  cases passes with
  | @ends k result other bound =>
    have same : attempts (first ++ ((List.replicate k (fullPass ctx kafka str username)).flatten ++
        [.produce ctx.rkt str username result] ++ last)) =
        List.replicate k (str, username, some .queueFull) ++ [(str, username, result)] := by
      simp only [attempts_append, before, after, full, List.nil_append, List.append_nil]
      rfl
    have bound : (k : Int) ≤ kafka.global.maxRetries := by omega
    match result with
    | none => exact ⟨true, .taken bound same⟩
    | some (.other code) => exact ⟨false, .failed bound same⟩
    | some .queueFull => exact absurd rfl other
  | @givesUp k counted =>
    refine ⟨false, .queueFull (k := k) (by omega) ?_⟩
    simp only [attempts_append, before, after, full, List.nil_append, List.append_nil]

/-- Sending one rendering leads to one of the outcomes. -/
theorem sendToKafka_outcome (env : Env) (ctx : Context) (str username : CStr) (kafka : Kafka) :
    ∃ actions delivered, (sendToKafka env ctx str username kafka).2.trace = kafka.trace ++ actions ∧
      Outcome kafka.global.maxRetries str username actions delivered := by
  obtain ⟨first, trace, silent, fails⟩ := initTopic_opens env ctx kafka
  have frame := (initTopic_calls env ctx kafka).frame.2
  unfold sendToKafka
  split
  rename_i ctx' kafka' made
  rw [made] at trace fails frame
  have trace : kafka'.trace = kafka.trace ++ first := trace
  have same : kafka'.global.maxRetries = kafka.global.maxRetries := by rw [frame]
  cases opened : ctx'.rkt with
  | none =>
    refine ⟨first, false, ?_, .noTopic silent (fails opened)⟩
    simpa using trace
  | some rkt =>
    have start : (0 : Int) ≤ kafka'.global.maxRetries := kafka'.global.maxRetries.property.1
    obtain ⟨actions, loop, passes⟩ := retryLoop_passes env ctx' str username 0 kafka' start
    obtain ⟨delivered, outcome⟩ := passes.outcome first [.poll kafka'.global.rk 0] silent rfl
    rw [same] at outcome
    refine ⟨_, delivered, ?_, outcome⟩
    simp [loop, trace]

/-- A rendering, the calls made for it, and whether it was enqueued. -/
structure Handling where
  rendering : CStr
  actions : List Action
  delivered : Bool

/-- The events without a rendering leave no trace, and each other event is one
send. -/
theorem processEvents_eq (env : Env) (render : TxnEvent → Option CStr) (username : CStr)
    (events : List TxnEvent) (state : Context × Kafka) :
    processEvents env render username events state =
      (events.filterMap render).foldl (fun state str => sendToKafka env state.1 str username state.2) state := by
  induction events generalizing state with
  | nil => rfl
  | cons event events ih =>
    obtain ⟨ctx, kafka⟩ := state
    rw [processEvents]
    cases rendered : render event with
    | none => simpa [rendered] using ih (ctx, kafka)
    | some str => simpa [rendered] using ih (sendToKafka env ctx str username kafka)

theorem sends_handled (env : Env) (username : CStr) (renderings : List CStr) (state : Context × Kafka) :
    ∃ handlings : List Handling, handlings.map Handling.rendering = renderings ∧
      (∀ h ∈ handlings, Outcome state.2.global.maxRetries h.rendering username h.actions h.delivered) ∧
      (renderings.foldl (fun state str => sendToKafka env state.1 str username state.2) state).2.trace =
        state.2.trace ++ handlings.flatMap Handling.actions := by
  induction renderings generalizing state with
  | nil => exact ⟨[], rfl, by simp, by simp⟩
  | cons str renderings ih =>
    obtain ⟨ctx, kafka⟩ := state
    obtain ⟨actions, delivered, trace, outcome⟩ := sendToKafka_outcome env ctx str username kafka
    obtain ⟨handlings, rendered, outcomes, rest⟩ := ih (sendToKafka env ctx str username kafka)
    have frame := (sendToKafka_calls env ctx str username kafka).frame.2
    rw [frame] at outcomes
    refine ⟨⟨str, actions, delivered⟩ :: handlings, ?_, ?_, ?_⟩
    · rw [List.map_cons, rendered]
    · intro h member
      rcases List.mem_cons.mp member with rfl | later
      · exact outcome
      · exact outcomes h later
    · rw [List.foldl_cons, rest, trace, List.flatMap_cons, List.append_assoc]

theorem handlings_enqueued (handlings : List Handling)
    (outcomes : ∀ h ∈ handlings, Outcome maxRetries h.rendering username h.actions h.delivered) :
    enqueued (handlings.flatMap Handling.actions) =
      (handlings.filter Handling.delivered).map fun h => (h.rendering, username) := by
  induction handlings with
  | nil => rfl
  | cons h handlings ih =>
    have first := (outcomes h List.mem_cons_self).result
    have rest := ih (fun h' member => outcomes h' (List.mem_cons_of_mem _ member))
    have split : enqueued (h.actions ++ handlings.flatMap Handling.actions) =
        enqueued h.actions ++ enqueued (handlings.flatMap Handling.actions) := List.filterMap_append
    rw [List.flatMap_cons, split, first, rest, List.filter_cons]
    cases h.delivered <;> rfl

/-- The events of a message or a mailbox are handled one rendering after the other.
What they enqueue is what is left of the renderings, in order and each at most once,
without those whose own calls open no topic, fail, or find the queue full one time
more than `max_retries`. -/
theorem process_enqueues (env : Env) (dtxn : DriverTxn) (target : Target) (kafka : Kafka) :
    let renderings := (target.eventdata.getD []).filterMap (target.render env.dovecot dtxn)
    ∃ handlings : List Handling, handlings.map Handling.rendering = renderings ∧
      (∀ h ∈ handlings,
        Outcome kafka.global.maxRetries h.rendering dtxn.user.username h.actions h.delivered) ∧
      (target.process env dtxn kafka).2.trace = kafka.trace ++ handlings.flatMap Handling.actions ∧
      enqueued (handlings.flatMap Handling.actions) =
        (handlings.filter Handling.delivered).map (fun h => (h.rendering, dtxn.user.username)) ∧
      (enqueued (handlings.flatMap Handling.actions)).Sublist
        (renderings.map fun str => (str, dtxn.user.username)) := by
  intro renderings
  obtain ⟨handlings, rendered, outcomes, trace⟩ :=
    sends_handled env dtxn.user.username renderings (dtxn.context, kafka)
  have taken := handlings_enqueued handlings outcomes
  refine ⟨handlings, rendered, outcomes, ?_, taken, ?_⟩
  · rw [target.process_eq, processEvents_eq, trace]
  · rw [taken, ← rendered, List.map_map]
    exact List.filter_sublist.map _

end PushNotificationKafka
