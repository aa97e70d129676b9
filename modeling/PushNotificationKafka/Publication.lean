import PushNotificationKafka.Publisher
import PushNotificationKafka.Sessions
import Mathlib.Logic.Function.Basic

/-! What the driver publishes in a whole run: to which topic, under which key and in
which order. Under the framework it is a lossy publisher, and it loses nothing while the
calls of librdkafka succeed, whatever failed before. -/
namespace PushNotificationKafka
open Bytes Transition Ledger

/-- A message as librdkafka takes it into its queue. -/
structure Record where
  topic : CStr
  key : CStr
  payload : CStr
deriving DecidableEq

/-- The topics that handles were made for, and the records taken so far. -/
structure Queue where
  topicOf : Topic → Option CStr
  records : List Record

def Queue.step (queue : Queue) : Action → Queue
  | .topicNew _ topic (some rkt) => { queue with topicOf := Function.update queue.topicOf rkt (some topic) }
  | .produce (some rkt) payload key none =>
    match queue.topicOf rkt with
    | some topic => { queue with records := queue.records ++ [⟨topic, key, payload⟩] }
    | none => queue
  | _ => queue

def queued (trace : List Action) : Queue := trace.foldl Queue.step ⟨fun _ => none, []⟩

def published (trace : List Action) : List Record := (queued trace).records

/-- The records of some messages of one topic. -/
def recordsOf (topic : CStr) (messages : List (CStr × CStr)) : List Record :=
  messages.map fun p => ⟨topic, p.2, p.1⟩

theorem queued_snoc (trace : List Action) (e : Action) : queued (trace ++ [e]) = (queued trace).step e := by
  simp [queued]

/-- A handle that has a name is one that has been created. -/
theorem named_older (numbered : topics.Numbered Topic.id trace) (named : (queued trace).topicOf rkt = some topic) :
    rkt.id < trace.length := by
  induction trace using List.reverseRecOn with
  | nil => simp [queued] at named
  | append_singleton trace e ih =>
    obtain ⟨before, newest⟩ := Always.snoc_iff.mp numbered
    rw [queued_snoc] at named
    rw [List.length_append, List.length_singleton]
    have older (named : (queued trace).topicOf rkt = some topic) : rkt.id < trace.length + 1 :=
      Nat.lt_succ_of_lt (ih before named)
    unfold Queue.step at named
    split at named
    · rename_i rk name created
      by_cases same : rkt = created
      · have position := newest created rfl
        rw [same, position]
        exact Nat.lt_succ_self _
      · have named : Function.update (queued trace).topicOf created (some name) rkt = some topic := named
        rw [Function.update_of_ne same] at named
        exact older named
    · split at named
      · exact older named
      · exact older named
    · exact older named

/-- A name stays: handles are not created twice. -/
theorem named_kept (numbered : topics.Numbered Topic.id (trace ++ actions))
    (named : (queued trace).topicOf rkt = some topic) : (queued (trace ++ actions)).topicOf rkt = some topic := by
  induction actions using List.reverseRecOn with
  | nil => simpa using named
  | append_singleton actions e ih =>
    rw [← List.append_assoc] at numbered ⊢
    obtain ⟨before, newest⟩ := Always.snoc_iff.mp numbered
    have kept := ih before
    have older := named_older before kept
    rw [queued_snoc]
    unfold Queue.step
    split
    · rename_i rk name created
      have position := newest created rfl
      have other : rkt ≠ created := by
        rintro rfl
        omega
      exact (Function.update_of_ne other ..).trans kept
    · split
      · exact kept
      · exact kept
    · exact kept

/-- Calls that create no topic and produce nothing. -/
theorem queued_silent (silent : Silent actions) (trace : List Action) :
    queued (trace ++ actions) = queued trace := by
  induction actions generalizing trace with
  | nil => simp
  | cons e actions ih =>
    obtain ⟨noAttempts, noTopics⟩ := silent
    have first : attempts [e] = [] ∧ attempts actions = [] := by
      rw [← List.append_eq_nil_iff, ← attempts_append]
      exact noAttempts
    have rest : Silent actions := ⟨first.2, fun e' member => noTopics e' (List.mem_cons_of_mem e member)⟩
    have same : (queued trace).step e = queued trace := by
      have created := noTopics e List.mem_cons_self
      unfold Queue.step
      split
      · simp [topics] at created
      · simp [attempts] at first
      · rfl
    have later := ih rest (trace ++ [e])
    rw [queued_snoc, same, List.append_assoc, List.singleton_append] at later
    exact later

/-- The topic handle of the context has its topic for a name. -/
def Named (ctx : Context) (trace : List Action) : Prop :=
  ∀ rkt, ctx.rkt = some rkt → (queued trace).topicOf rkt = some ctx.topic

theorem Named.append (named : Named ctx trace) (numbered : topics.Numbered Topic.id (trace ++ actions)) :
    Named ctx (trace ++ actions) := fun rkt opened => named_kept numbered (named rkt opened)

/-- What calls on behalf of a context enqueue are records of its topic. -/
structure Publishes (start : Context × Kafka) (ctx : Context) (kafka : Kafka) : Prop where
  named : Named ctx kafka.trace
  records : ∃ actions, kafka.trace = start.2.trace ++ actions ∧
    published kafka.trace = published start.2.trace ++ recordsOf start.1.topic (enqueued actions)

namespace Publishes
variable {start : Context × Kafka} {ctx ctx' : Context} {kafka kafka' : Kafka}

theorem refl (named : Named start.1 start.2.trace) : Publishes start start.1 start.2 :=
  ⟨named, [], by simp, by simp [recordsOf, enqueued]⟩

theorem logs (publishes : Publishes start ctx kafka) (named : Named ctx' kafka'.trace)
    (trace : kafka'.trace = kafka.trace ++ actions)
    (more : published kafka'.trace = published kafka.trace ++ recordsOf start.1.topic (enqueued actions)) :
    Publishes start ctx' kafka' := by
  obtain ⟨-, before, earlier, taken⟩ := publishes
  refine ⟨named, before ++ actions, ?_, ?_⟩
  · rw [trace, earlier, List.append_assoc]
  · have split : enqueued (before ++ actions) = enqueued before ++ enqueued actions := List.filterMap_append
    rw [more, taken, split, recordsOf, recordsOf, recordsOf, List.map_append, List.append_assoc]

/-- Calls that create no topic and produce nothing, after which the context has its
handle at most. -/
theorem silent (publishes : Publishes start ctx kafka) (silent : Silent actions)
    (trace : kafka'.trace = kafka.trace ++ actions) (topic : ctx'.topic = ctx.topic)
    (handle : ∀ rkt, ctx'.rkt = some rkt → ctx.rkt = some rkt) : Publishes start ctx' kafka' := by
  have same : queued kafka'.trace = queued kafka.trace := by rw [trace, queued_silent silent]
  refine publishes.logs ?_ trace ?_
  · intro rkt opened
    rw [same, topic]
    exact publishes.named rkt (handle rkt opened)
  · have nothing : enqueued actions = [] := by
      rw [enqueued_eq, silent.1]
      rfl
    rw [published, same, nothing]
    exact (List.append_nil _).symm

theorem call (publishes : Publishes start ctx kafka) (topic : ctx.topic = start.1.topic)
    (call : Call (ctx, kafka) (ctx', kafka')) : Publishes start ctx' kafka' := by
  cases call with
  | initGlobal _ effect =>
    obtain ⟨actions, trace, silent, -⟩ := effect.silent
    exact publishes.silent silent trace rfl (fun _ => id)
  | @topicNew rk result _ _ present closed fresh =>
    cases result with
    | none =>
      have quiet : Silent [.topicNew (some rk) ctx.topic none] := ⟨rfl, by simp [topics]⟩
      exact publishes.silent quiet rfl rfl (by simp)
    | some rkt =>
      have step : queued (kafka.trace ++ [.topicNew (some rk) ctx.topic (some rkt)]) =
          { queued kafka.trace with
            topicOf := Function.update (queued kafka.trace).topicOf rkt (some ctx.topic) } := queued_snoc ..
      refine publishes.logs ?_ (Kafka.log_trace ..) ?_
      · intro rkt' opened
        obtain rfl := Option.some.inj opened
        rw [Kafka.log_trace, step]
        exact Function.update_self ..
      · rw [published, Kafka.log_trace, step]
        exact (List.append_nil _).symm
  | @topicDestroy rkt =>
    have quiet : Silent [.topicDestroy (some rkt)] := ⟨rfl, by simp [topics]⟩
    exact publishes.silent quiet rfl rfl (by simp)
  | @produce rkt _ _ payload key result opened =>
    cases result with
    | some error =>
      have same : queued (kafka.trace ++ [.produce (some rkt) payload key (some error)]) = queued kafka.trace :=
        queued_snoc ..
      refine publishes.logs ?_ (Kafka.log_trace ..) ?_
      · rw [Named, Kafka.log_trace, same]
        exact publishes.named
      · rw [published, Kafka.log_trace, same]
        exact (List.append_nil _).symm
    | none =>
      have step : queued (kafka.trace ++ [.produce (some rkt) payload key none]) =
          { queued kafka.trace with
            records := (queued kafka.trace).records ++ [⟨start.1.topic, key, payload⟩] } := by
        rw [queued_snoc]
        simp only [Queue.step, publishes.named rkt opened, topic]
      refine publishes.logs ?_ (Kafka.log_trace ..) ?_
      · rw [Named, Kafka.log_trace, step]
        exact publishes.named
      · rw [published, Kafka.log_trace, step]
        rfl
  | poll timeout =>
    have quiet : Silent [.poll kafka.global.rk timeout] := ⟨rfl, by simp [topics]⟩
    exact publishes.silent quiet rfl rfl (fun _ => id)

theorem calls (named : Named start.1 start.2.trace) (calls : Calls start (ctx, kafka)) :
    Publishes start ctx kafka := by
  have both : ctx.topic = start.1.topic ∧ Publishes start ctx kafka :=
    calls.preserve (P := fun s => s.1.topic = start.1.topic ∧ Publishes start s.1 s.2)
      (fun s t before step => by
        obtain ⟨topic, publishes⟩ := before
        have same : t.1.topic = s.1.topic := by rw [step.frame.1]
        exact ⟨same.trans topic, publishes.call topic step⟩)
      ⟨rfl, refl named⟩
  exact both.2

end Publishes

/-- Where one element takes the place of another, it is the only one to look at. -/
theorem forall_replaced {P : α → Prop} (all : ∀ x ∈ before ++ a :: after, P x) (own : P b) :
    ∀ x ∈ before ++ b :: after, P x := by
  intro x member
  rcases List.mem_append.mp member with early | member
  · exact all x (List.mem_append_left _ early)
  · rcases List.mem_cons.mp member with rfl | late
    · exact own
    · exact all x (List.mem_append_right _ (List.mem_cons_of_mem _ late))

theorem Effect.extends (effect : Effect env s op t) : s.trace <+: t.trace := by
  cases effect with
  | init | kept => exact List.prefix_rfl
  | initGlobal _ effect =>
    obtain ⟨actions, trace, -⟩ := effect.silent
    exact ⟨actions, trace.symm⟩
  | onInstance _ _ _ _ calls | deinit _ _ _ _ calls => exact calls.extends
  | @cleanup g => exact ⟨_, (deinitGlobal_trace ⟨g, s.world.trace⟩).symm⟩

theorem Effect.named (effect : Effect env s op t) (consistent : Consistent t)
    (named : ∀ inst ∈ s.instances, Named inst.ctx s.trace) : ∀ inst ∈ t.instances, Named inst.ctx t.trace := by
  obtain ⟨actions, trace⟩ := effect.extends
  have later : ∀ inst ∈ s.instances, Named inst.ctx t.trace := by
    intro inst member
    have numbered := consistent.coherent.numbered
    rw [← trace] at numbered ⊢
    exact (named inst member).append numbered
  cases effect with
  | init =>
    intro inst member
    rcases List.mem_append.mp member with early | late
    · exact later inst early
    · rw [List.mem_singleton.mp late]
      intro rkt opened
      cases opened
  | initGlobal | kept | cleanup => exact later
  | @onInstance g ctx kafka _ before after inst _ split _ _ calls =>
    have first : Named inst.ctx s.trace := named inst (by simp [split])
    rw [split] at later
    exact forall_replaced later (Publishes.calls first calls).named
  | @deinit g i ctx kafka before after inst _ split _ _ calls =>
    have first : Named inst.ctx s.trace := named inst (by simp [split])
    rw [split] at later
    exact forall_replaced later (Publishes.calls first calls).named

theorem run_named (run : Run (lifecycle env) ops s) : ∀ inst ∈ s.instances, Named inst.ctx s.trace := by
  refine (run.invariant (P := fun s => Consistent s ∧ ∀ inst ∈ s.instances, Named inst.ctx s.trace) ?_ ?_).2
  · rintro s rfl
    exact ⟨run_consistent (.start rfl : Run (lifecycle env) [] State.start), by simp [State.start]⟩
  · rintro s op t ⟨consistent, named⟩ ⟨permitted, done⟩
    have effect := exec_effect permitted done
    exact ⟨effect.consistent consistent, effect.named (effect.consistent consistent) named⟩

theorem sendToKafka_eq (env : Env) (ctx : Context) (str username : CStr) (kafka : Kafka) :
    sendToKafka env ctx str username kafka =
      if (initTopic env ctx kafka).1.rkt = none then initTopic env ctx kafka
      else
        let kafka' := retryLoop env (initTopic env ctx kafka).1 str username 0 (initTopic env ctx kafka).2
        ((initTopic env ctx kafka).1, kafka'.log (.poll kafka'.global.rk 0)) := by
  unfold sendToKafka
  split
  rename_i made
  simp only [made, ne_eq, ite_not]

/-- A call of librdkafka fails: one that must succeed for a topic handle, or an attempt to
produce. -/
def fails (e : Action) : Bool := failsToOpen e || e matches .produce _ _ _ (some _)

theorem attempt_fails (tried : (payload, key, some error) ∈ attempts actions) : ∃ e ∈ actions, fails e = true := by
  obtain ⟨e, member, tried⟩ := List.mem_filterMap.mp tried
  refine ⟨e, member, ?_⟩
  cases e with
  | produce rkt payload' key' result =>
    obtain ⟨-, -, rfl⟩ : payload' = payload ∧ key' = key ∧ result = some error := by simpa using tried
    rfl
  | _ => contradiction

/-- What is not delivered fails in one of its own calls. -/
theorem Outcome.fails (outcome : Outcome maxRetries str username actions false) (start : 0 ≤ maxRetries) :
    ∃ e ∈ actions, PushNotificationKafka.fails e = true := by
  cases outcome with
  | noTopic _ missing =>
    obtain ⟨⟨e, member, failed⟩, -⟩ := missing
    exact ⟨e, member, Bool.or_eq_true_iff.mpr (.inl failed)⟩
  | failed _ tried =>
    apply attempt_fails
    rw [tried]
    exact List.mem_append_right _ List.mem_cons_self
  | @queueFull k counted tried =>
    apply attempt_fails
    rw [tried]
    exact List.mem_replicate.mpr ⟨by omega, rfl⟩

/-- The messages of a target: the renderings of its events, with the user name as key. -/
def messages (dovecot : Dovecot) (dtxn : DriverTxn) (target : Target) : List (CStr × CStr) :=
  ((target.eventdata.getD []).filterMap (target.render dovecot dtxn)).map fun str => (str, dtxn.user.username)

/-- A target adds some of its messages to the topic of the context, and all of them if
none of the calls made for it fails. -/
theorem process_publishes (env : Env) (dtxn : DriverTxn) (target : Target) (kafka : Kafka)
    (named : Named dtxn.context kafka.trace) :
    ∃ actions kept, (target.process env dtxn kafka).2.trace = kafka.trace ++ actions ∧
      published (target.process env dtxn kafka).2.trace =
        published kafka.trace ++ recordsOf dtxn.context.topic kept ∧
      kept.Sublist (messages env.dovecot dtxn target) ∧
      ((∀ e ∈ actions, fails e = false) → kept = messages env.dovecot dtxn target) := by
  have sent : Publishes (dtxn.context, kafka) (target.process env dtxn kafka).1
      (target.process env dtxn kafka).2 :=
    Publishes.calls named (process_calls env dtxn target kafka)
  obtain ⟨-, actions, trace, taken⟩ := sent
  obtain ⟨handlings, rendered, outcomes, handled⟩ := sends_handled env dtxn.user.username
    ((target.eventdata.getD []).filterMap (target.render env.dovecot dtxn)) (dtxn.context, kafka)
  rw [← processEvents_eq, ← target.process_eq, trace, List.append_cancel_left_eq] at handled
  have all : messages env.dovecot dtxn target = handlings.map fun h => (h.rendering, dtxn.user.username) := by
    rw [messages, ← rendered, List.map_map]
    rfl
  have kept := handlings_enqueued handlings outcomes
  rw [← handled] at kept
  refine ⟨actions, enqueued actions, trace, taken, ?_, ?_⟩
  · rw [kept, all]
    exact List.filter_sublist.map _
  · intro succeed
    rw [kept, all, List.filter_eq_self.mpr]
    intro h member
    by_contra lost
    have outcome := outcomes h member
    rw [Bool.not_eq_true] at lost
    rw [lost] at outcome
    obtain ⟨e, own, failed⟩ := outcome.fails kafka.global.maxRetries.property.1
    have succeeded := succeed e (handled ▸ List.mem_flatMap.mpr ⟨h, member, own⟩)
    rw [failed] at succeeded
    contradiction

/-- What the framework does to instances itself creates no topic and produces nothing. -/
theorem closing_silent (s : State) (op : Op) : Silent (s.closing op) := by
  constructor
  · apply List.filterMap_eq_nil_iff.mpr
    intro e member
    have closing := s.closing_closes op e member
    cases e <;> first | rfl | contradiction
  · intro e member
    have closing := s.closing_closes op e member
    cases e <;> first | rfl | contradiction

/-- The records that an operation offers: the messages of its target, for the topic of its
driver. -/
def Session.batch (env : Env) (s : Session) : SessionOp → List Record
  | .process dtxn target =>
    match s.driver.instances[dtxn.inst]? with
    | some inst => recordsOf inst.ctx.topic (messages env.dovecot ⟨env.mailUser dtxn.user, inst.ctx⟩ target)
    | none => []
  | .driver _ | .create _ | .beginTxn _ _ | .endTxn _ => []

/-- What is published between two traces is a part of the batch, in its order, and the
whole batch if none of the calls fails. -/
def PublishesOf (batch : List Record) (trace trace' : List Action) : Prop :=
  ∃ actions kept, trace' = trace ++ actions ∧ published trace' = published trace ++ kept ∧
    kept.Sublist batch ∧ ((∀ e ∈ actions, fails e = false) → kept = batch)

theorem publishesOf_silent (trace : List Action) (silent : Silent actions) :
    PublishesOf [] trace (trace ++ actions) := by
  refine ⟨actions, [], rfl, ?_, .refl _, fun _ => rfl⟩
  rw [published, queued_silent silent]
  exact (List.append_nil _).symm

theorem session_publishes (run : Run (sessions env registry before) ops s)
    (step : (sessions env registry before).step s op t) :
    PublishesOf (s.batch env op) s.driver.trace t.driver.trace := by
  have unchanged : PublishesOf [] s.driver.trace s.driver.trace := by
    have nothing : Silent [] := ⟨rfl, by simp⟩
    simpa using publishesOf_silent s.driver.trace nothing
  have effect := session_effect step
  cases effect with
  | @driver op driver external _ done =>
    have published := publishesOf_silent s.driver.trace (closing_silent s.driver op)
    rwa [← external_trace external done] at published
  | @process dtxn target ctx kafka first rest inst g _ _ _ _ split position _ _ processed =>
    obtain ⟨matched, driven⟩ := (sessions_lifecycle env registry before).run run
    have named : Named inst.ctx s.driver.trace := run_named driven inst (by simp [split])
    obtain ⟨actions, kept, trace, taken, part, whole⟩ :=
      process_publishes env ⟨env.mailUser dtxn.user, inst.ctx⟩ target ⟨g, s.driver.trace⟩ named
    rw [processed] at trace taken
    have own : s.batch env (.process dtxn target) =
        recordsOf inst.ctx.topic (messages env.dovecot ⟨env.mailUser dtxn.user, inst.ctx⟩ target) := by
      simp only [Session.batch, instance_at split position]
    rw [own]
    exact ⟨actions, recordsOf inst.ctx.topic kept, trace, taken, part.map _, fun succeed => by rw [whole succeed]⟩
  | create | beginTxn | endTxn => exact unchanged

/-- Keeps the records offered so far. -/
def offer (env : Env) (offers : List Record) (s : Session) (op : SessionOp) : List Record :=
  offers ++ s.batch env op

/-- The driver under the framework, with what it has been offered. -/
abbrev offering (env : Env) (registry : Registry) (before : UserId → Int) : Machine (Session × List Record) SessionOp :=
  (sessions env registry before).monitor [] (offer env)

def outbox (p : Session × List Record) : Publisher.Outbox Record := ⟨p.2, published p.1.driver.trace⟩

/-- Every step is one of a lossy publisher. -/
theorem session_lossy (run : Run (offering env registry before) ops p)
    (step : (offering env registry before).step p op q) :
    (Publisher.lossy Record).step (outbox p) (p.1.batch env op) (outbox q) := by
  obtain ⟨actions, kept, -, taken, part, -⟩ := session_publishes run.of_monitor step.1
  refine ⟨kept, part, ?_⟩
  rw [outbox, outbox, Publisher.Outbox.take, taken, step.2]
  rfl

/-- Under the framework, in every run, the driver publishes nothing but records that it has
been given to process, each at most as often and all in the order of processing, under the
topic of the driver and the name of the user: every step is one of a lossy publisher. -/
theorem sessions_publish (run : Run (offering env registry before) ops (s, offers)) :
    (published s.driver.trace).Sublist offers ∧
      ∀ op q, (offering env registry before).step (s, offers) op q →
        (Publisher.lossy Record).step (outbox (s, offers)) (s.batch env op) (outbox q) := by
  have initial : ∀ p, (offering env registry before).initial p →
      (Publisher.lossy Record).initial (outbox p) := by
    rintro ⟨s, offers⟩ ⟨rfl, rfl⟩
    rfl
  obtain ⟨batches, publisher⟩ := run.simulates initial
    (fun _ p op q run step => ⟨[p.1.batch env op], .next (session_lossy run step) .refl⟩)
  exact ⟨(Publisher.lossy_sublist publisher).2, fun op q step => session_lossy run step⟩

theorem offering_initial (env : Env) (registry : Registry) (before : UserId → Int) :
    (offering env registry before).initial (Session.start before, []) := ⟨rfl, rfl⟩

theorem offering_sound (env : Env) (registry : Registry) (before : UserId → Int) (p : Session × List Record)
    (op : SessionOp) (q : Session × List Record)
    (stepped : monitorNext (Session.next env registry) (offer env) p op = some q) :
    (offering env registry before).step p op q :=
  monitorNext_sound (Session.next_sound env registry before) p op q stepped

namespace Sample

/-- A broker whose first attempt fails. -/
def recovering : Broker :=
  { broker with produce := fun trace => if attempts trace = [] then some (.other 1) else none }

/-- One message of an open driver transaction. -/
def process : SessionOp := .process ⟨0, 0, user⟩ (.msg (msg [flagsclear]))

/-- A driver transaction up to its first message. -/
def attempted : List SessionOp := [.driver (initUser user), .create user, .beginTxn 0 0, process]

end Sample

theorem sessions_publish_delivery : ∃ s offers q,
    Run (offering (Sample.env Sample.recovering) Sample.registry fun _ => 1) Sample.attempted (s, offers) ∧
    (offering (Sample.env Sample.recovering) Sample.registry fun _ => 1).step (s, offers) Sample.process q ∧
    offers.length = 1 ∧ published s.driver.trace = [] ∧
    (published q.1.driver.trace).map Record.topic = [defaultTopic] ∧
    (published s.driver.trace).Sublist offers ∧
    (Publisher.lossy Record).step (outbox (s, offers))
      (s.batch (Sample.env Sample.recovering) Sample.process) (outbox q) := by
  obtain ⟨⟨s, offers⟩, q, run, step, checked⟩ : ∃ p q,
      Run (offering (Sample.env Sample.recovering) Sample.registry fun _ => 1) Sample.attempted p ∧
      (offering (Sample.env Sample.recovering) Sample.registry fun _ => 1).step p Sample.process q ∧
      decide (p.2.length = 1 ∧ published p.1.driver.trace = [] ∧
        (published q.1.driver.trace).map Record.topic = [defaultTopic]) = true :=
    replay_reaches_step (offering_sound _ _ _) (offering_initial _ _ _) _ (by decide +kernel)
  obtain ⟨offered, lost, taken⟩ := of_decide_eq_true checked
  obtain ⟨part, lossy⟩ := sessions_publish run
  exact ⟨s, offers, q, run, step, offered, lost, taken, part, lossy _ q step⟩

/-- From every state of a run on, the driver publishes all that it is given to process as
long as no call of librdkafka fails, whatever failed before. -/
theorem sessions_recover (run : Run (offering env registry before) ops (s, offers))
    (steps : Run.Steps (offering env registry before) (s, offers) more (t, offers'))
    (succeed : ∀ e ∈ t.driver.trace.drop s.driver.trace.length, fails e = false) :
    ∃ batch, offers' = offers ++ batch ∧ published t.driver.trace = published s.driver.trace ++ batch := by
  let caughtUp (u : Session) (offers' : List Record) : Prop :=
    ∃ actions batch, u.driver.trace = s.driver.trace ++ actions ∧ offers' = offers ++ batch ∧
      ((∀ e ∈ actions, fails e = false) →
        published u.driver.trace = published s.driver.trace ++ batch)
  have first : caughtUp s offers := ⟨[], [], by simp, by simp, by simp⟩
  have reached : caughtUp t offers' := by
    refine run.of_monitor.monitor_steps (P := caughtUp) steps first ?_
    rintro _ u op v seen run ⟨actions, batch, trace, rfl, all⟩ step
    obtain ⟨last, kept, trace', taken, -, whole⟩ := session_publishes run step
    refine ⟨actions ++ last, batch ++ u.batch env op, ?_, ?_, ?_⟩
    · rw [trace', trace, List.append_assoc]
    · rw [offer, List.append_assoc]
    · intro succeed
      rw [taken, all fun e member => succeed e (List.mem_append_left _ member),
        whole fun e member => succeed e (List.mem_append_right _ member), List.append_assoc]
  obtain ⟨actions, batch, trace, offered, all⟩ := reached
  rw [trace, List.drop_left] at succeed
  exact ⟨batch, offered, all succeed⟩

theorem sessions_recover_delivery : ∃ s offers t offers' batch,
    Run (offering (Sample.env Sample.recovering) Sample.registry fun _ => 1) Sample.attempted (s, offers) ∧
    Run.Steps (offering (Sample.env Sample.recovering) Sample.registry fun _ => 1) (s, offers)
      [Sample.process] (t, offers') ∧
    offers.length = 1 ∧ published s.driver.trace = [] ∧
    offers' = offers ++ batch ∧ published t.driver.trace = published s.driver.trace ++ batch := by
  let next := monitorNext (Session.next (Sample.env Sample.recovering) Sample.registry)
    (offer (Sample.env Sample.recovering))
  obtain ⟨⟨s, offers⟩, run, checked⟩ : ∃ p,
      Run (offering (Sample.env Sample.recovering) Sample.registry fun _ => 1) Sample.attempted p ∧
      (decide (p.2.length = 1 ∧ published p.1.driver.trace = []) &&
        (replay next [Sample.process] p).any fun q =>
          (q.1.driver.trace.drop p.1.driver.trace.length).all fun e => !fails e) = true :=
    replay_reaches (offering_sound _ _ _) (offering_initial _ _ _) _ (by decide +kernel)
  obtain ⟨lost, later⟩ := Bool.and_eq_true_iff.mp checked
  obtain ⟨offered, nothing⟩ := of_decide_eq_true lost
  obtain ⟨⟨t, offers'⟩, played, succeeded⟩ := (Option.any_eq_true _ _).mp later
  have steps := replay_steps (offering_sound (Sample.env Sample.recovering) Sample.registry fun _ => 1) played
  have succeed : ∀ e ∈ t.driver.trace.drop s.driver.trace.length, fails e = false := by
    intro e member
    simpa using List.all_eq_true.mp succeeded e member
  obtain ⟨batch, more, all⟩ := sessions_recover run steps succeed
  exact ⟨s, offers, t, offers', batch, run, steps, offered, nothing, more, all⟩

end PushNotificationKafka
