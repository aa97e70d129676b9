import PushNotificationKafka.Publication

/-! What the feature option of a driver switches off: an instance that is not enabled
gets no topic handle, its topic is never created, and as long as no instance is enabled
librdkafka is not called at all. -/
namespace PushNotificationKafka
open Bytes Transition Ledger

/-- One of the enabled instances has the topic. -/
def EnabledTopic (instances : List Instance) (topic : CStr) : Prop :=
  ∃ (i : Nat) (inst : Instance), instances[i]? = some inst ∧ inst.ctx.enabled = true ∧ inst.ctx.topic = topic

/-- Instances that are not enabled leave no trace. -/
structure SwitchedOff (s : Session) : Prop where
  handles : ∀ inst ∈ s.driver.instances, inst.ctx.enabled = false → inst.ctx.rkt = none
  topics : ∀ rk topic result, .topicNew rk topic result ∈ s.driver.trace → EnabledTopic s.driver.instances topic
  records : ∀ r ∈ published s.driver.trace, EnabledTopic s.driver.instances r.topic
  calls : (∀ inst ∈ s.driver.instances, inst.ctx.enabled = false) → s.driver.trace = []

theorem EnabledTopic.later (enabled : EnabledTopic instances topic) (keeps : KeepsOptions instances instances') :
    EnabledTopic instances' topic := by
  obtain ⟨i, inst, found, on, named⟩ := enabled
  obtain ⟨inst', found', -, same⟩ := keeps i inst found
  refine ⟨i, inst', found', ?_, ?_⟩
  · rw [same]
    exact on
  · rw [same]
    exact named

theorem InitGlobal.noTopic (effect : InitGlobal kafka made kafka')
    (created : .topicNew rk topic handle ∈ kafka'.trace) : .topicNew rk topic handle ∈ kafka.trace := by
  cases effect with
  | ready => exact created
  | refused _ _ setup | failed _ _ setup | created _ _ setup =>
    rcases List.mem_append.mp created with early | late
    · exact early
    · rcases setup.mem late with first | configured | last
      · contradiction
      · cases configured
      · simp at last

/-- Calls on behalf of a context create no topic but its own. -/
theorem calls_topic (calls : Calls (ctx, kafka) (ctx', kafka'))
    (created : .topicNew rk topic result ∈ kafka'.trace) :
    .topicNew rk topic result ∈ kafka.trace ∨ topic = ctx.topic := by
  let own (s : Context × Kafka) : Prop := s.1.topic = ctx.topic ∧
    (.topicNew rk topic result ∈ s.2.trace → .topicNew rk topic result ∈ kafka.trace ∨ topic = ctx.topic)
  have start : own (ctx, kafka) := ⟨rfl, .inl⟩
  have reached : own (ctx', kafka') := by
    refine calls.preserve (P := own) ?_ start
    rintro ⟨ctx₁, kafka₁⟩ ⟨ctx₂, kafka₂⟩ ⟨same, before⟩ call
    have same' : ctx₂.topic = ctx.topic := by
      have frame := congrArg Context.topic call.frame.1
      exact frame.trans same
    refine ⟨same', ?_⟩
    intro member
    cases call with
    | initGlobal _ effect =>
      exact before (effect.noTopic member)
    | topicNew =>
      rcases List.mem_append.mp member with early | late
      · exact before early
      · cases List.mem_singleton.mp late
        exact .inr same
    | topicDestroy | produce | poll =>
      rcases List.mem_append.mp member with early | late
      · exact before early
      · cases List.mem_singleton.mp late
  exact reached.2 created

/-- Where nothing has been called there is no handle. -/
theorem Consistent.untouched (consistent : Consistent s) (nothing : s.trace = []) :
    s.world.rk = none ∧ ∀ inst ∈ s.instances, inst.live = true → inst.ctx.rkt = none := by
  obtain ⟨-, coherent⟩ := consistent
  rw [nothing] at coherent
  constructor
  · have owned := coherent.producer
    simpa using owned.symm
  · intro inst member live
    by_contra opened
    obtain ⟨rkt, opened⟩ := Option.ne_none_iff_exists'.mp opened
    have held : rkt ∈ heldTopics s.instances :=
      List.mem_filterMap.mpr ⟨inst, member, (if_pos live).trans opened⟩
    simpa using coherent.handles.mem_iff.mpr held

/-- A handle has the name that it has been created for. -/
theorem queued_created (named : (queued trace).topicOf rkt = some topic) :
    ∃ rk, .topicNew rk topic (some rkt) ∈ trace := by
  induction trace using List.reverseRecOn with
  | nil => simp [queued] at named
  | append_singleton trace e ih =>
    have earlier (named : (queued trace).topicOf rkt = some topic) :
        ∃ rk, .topicNew rk topic (some rkt) ∈ trace ++ [e] := by
      obtain ⟨rk, member⟩ := ih named
      exact ⟨rk, List.mem_append_left _ member⟩
    rw [queued_snoc] at named
    unfold Queue.step at named
    split at named
    · rename_i rk name created
      have named : Function.update (queued trace).topicOf created (some name) rkt = some topic := named
      by_cases same : rkt = created
      · rw [same, Function.update_self] at named
        obtain rfl := Option.some.inj named
        exact ⟨rk, by simp [same]⟩
      · rw [Function.update_of_ne same] at named
        exact earlier named
    · split at named
      · exact earlier named
      · exact earlier named
    · exact earlier named

/-- A record is one of a topic that has been created. -/
theorem published_created (member : r ∈ published trace) : ∃ rk rkt, .topicNew rk r.topic (some rkt) ∈ trace := by
  induction trace using List.reverseRecOn with
  | nil => simp [published, queued] at member
  | append_singleton trace e ih =>
    have earlier (member : r ∈ published trace) :
        ∃ rk rkt, .topicNew rk r.topic (some rkt) ∈ trace ++ [e] := by
      obtain ⟨rk, rkt, created⟩ := ih member
      exact ⟨rk, rkt, List.mem_append_left _ created⟩
    rw [published, queued_snoc] at member
    unfold Queue.step at member
    split at member
    · exact earlier member
    · split at member
      · rename_i topic named
        rcases List.mem_append.mp member with early | late
        · exact earlier early
        · obtain rfl := List.mem_singleton.mp late
          obtain ⟨rk, created⟩ := queued_created named
          exact ⟨rk, _, List.mem_append_left _ created⟩
      · exact earlier member
    · exact earlier member

theorem closing_untouched {s : State} (consistent : Consistent s) (permitted : s.Permitted op)
    (nothing : s.trace = []) : s.closing op = [] := by
  obtain ⟨noProducer, noTopics⟩ := consistent.untouched nothing
  have missing (g : Global) (present : s.world.kafkaGlobal = some g) : g.rk = none := by
    simpa [World.rk, present] using noProducer
  unfold State.closing
  split
  · rename_i i
    split
    · rename_i g inst present found
      obtain ⟨inst', found', live⟩ := (s.liveAt_iff i).mp permitted
      obtain rfl := Option.some.inj (found.symm.trans found')
      simp [missing g present, noTopics inst (List.mem_of_getElem? found) live]
    · rfl
  · split
    · rename_i g present
      simp [missing g present]
    · rfl
  · rfl

/-- The invariant: besides, driver transactions are open for enabled instances only. -/
structure Guarded (s : Session) : Prop where
  handles : ∀ inst ∈ s.driver.instances, inst.ctx.enabled = false → inst.ctx.rkt = none
  topics : ∀ rk topic result, .topicNew rk topic result ∈ s.driver.trace → EnabledTopic s.driver.instances topic
  used : s.driver.trace ≠ [] → ∃ topic, EnabledTopic s.driver.instances topic
  opened : ∀ dtxn ∈ s.opened, ∃ inst, s.driver.instances[dtxn.inst]? = some inst ∧ inst.ctx.enabled = true

namespace Guarded
variable {s t : Session}

/-- What an operation of the framework does to its instances. -/
theorem driver {after : State} (guarded : Guarded s) (consistent : Consistent s.driver)
    (external : op.external = true) (permitted : s.driver.Permitted op)
    (done : s.driver.exec env op = .ok after) : Guarded { s with driver := after } := by
  have effect := exec_effect permitted done
  have keeps := effect.keepsOptions
  have trace := external_trace external done
  constructor
  · cases effect with
    | init =>
      intro inst member disabled
      rcases List.mem_append.mp member with early | late
      · exact guarded.handles inst early disabled
      · rw [List.mem_singleton.mp late]
        rfl
    | initGlobal => contradiction
    | onInstance _ _ _ works => cases op <;> contradiction
    | deinit _ split _ _ _ closed =>
      have all := guarded.handles
      rw [split] at all
      exact forall_replaced all fun _ => closed
    | kept | cleanup => exact guarded.handles
  · intro rk topic result created
    rcases List.mem_append.mp (trace ▸ created) with early | late
    · exact (guarded.topics rk topic result early).later keeps
    · have closing := s.driver.closing_closes op _ late
      contradiction
  · intro used
    have before : s.driver.trace ≠ [] := by
      intro nothing
      rw [trace, nothing, closing_untouched consistent permitted nothing] at used
      contradiction
    obtain ⟨topic, enabled⟩ := guarded.used before
    exact ⟨topic, enabled.later keeps⟩
  · intro dtxn member
    obtain ⟨inst, found, on⟩ := guarded.opened dtxn member
    obtain ⟨inst', found', -, same⟩ := keeps dtxn.inst inst found
    exact ⟨inst', found', by rw [same]; exact on⟩

theorem step (guarded : Guarded s) (consistent : Consistent s.driver)
    (effect : SessionEffect env registry s op t) : Guarded t := by
  have keeps := effect.keepsOptions
  have options : ∀ dtxn ∈ s.opened,
      ∃ inst, t.driver.instances[dtxn.inst]? = some inst ∧ inst.ctx.enabled = true := by
    intro dtxn member
    obtain ⟨inst, found, on⟩ := guarded.opened dtxn member
    obtain ⟨inst', found', -, same⟩ := keeps dtxn.inst inst found
    exact ⟨inst', found', by rw [same]; exact on⟩
  cases effect with
  | driver external permitted done => exact guarded.driver consistent external permitted done
  | create => exact ⟨guarded.handles, guarded.topics, guarded.used, options⟩
  | @beginTxn txn inst framework t i _ found =>
    refine ⟨guarded.handles, guarded.topics, guarded.used, ?_⟩
    intro dtxn member
    have member : dtxn ∈ if i.ctx.enabled = true then ⟨txn, inst, t.user⟩ :: s.opened else s.opened := member
    split at member
    · rename_i enabled
      rcases List.mem_cons.mp member with rfl | earlier
      · exact ⟨i, found, enabled⟩
      · exact options dtxn earlier
    · exact options dtxn member
  | @process dtxn target ctx kafka before after inst g t opened _ _ split position _ _ processed =>
    have calls := processed_calls processed
    obtain ⟨own, found, enabled⟩ := guarded.opened dtxn opened
    obtain rfl := Option.some.inj (found.symm.trans (instance_at split position))
    have on : EnabledTopic s.driver.instances own.ctx.topic := ⟨dtxn.inst, own, found, enabled, rfl⟩
    refine ⟨?_, ?_, fun _ => ⟨_, on.later keeps⟩, options⟩
    · have all := guarded.handles
      rw [split] at all
      refine forall_replaced all ?_
      intro disabled
      have frame : ctx = { own.ctx with rkt := ctx.rkt } := calls.frame.1
      have fixed : ctx.enabled = own.ctx.enabled := by rw [frame]
      rw [fixed, enabled] at disabled
      contradiction
    · intro rk topic result created
      rcases calls_topic calls created with early | rfl
      · exact (guarded.topics rk topic result early).later keeps
      · exact on.later keeps
  | endTxn =>
    refine ⟨guarded.handles, guarded.topics, guarded.used, ?_⟩
    exact fun dtxn member => options dtxn (List.mem_of_mem_erase member)

end Guarded

theorem run_guarded (run : Run (sessions env registry before) ops s) : Guarded s := by
  refine run.reachable_invariant ?_ ?_
  · rintro s rfl
    refine ⟨by simp [Session.start, State.start], by simp [Session.start, State.start, State.trace], ?_, ?_⟩
    · exact fun used => absurd rfl used
    · simp [Session.start]
  · exact fun _ s op t run guarded step => guarded.step (session_consistent run) (session_effect step)

/-- In every run, an instance that is not enabled never has a topic handle; only topics of
enabled instances are created, and records published to them; and as long as no instance is
enabled librdkafka is not called at all. -/
theorem sessions_switchedOff (run : Run (sessions env registry before) ops s) : SwitchedOff s := by
  have guarded := run_guarded run
  refine ⟨guarded.handles, guarded.topics, ?_, ?_⟩
  · intro r member
    obtain ⟨rk, rkt, created⟩ := published_created member
    exact guarded.topics rk r.topic (some rkt) created
  · intro disabled
    by_contra used
    obtain ⟨topic, i, inst, found, enabled, -⟩ := guarded.used used
    rw [disabled inst (List.mem_of_getElem? found)] at enabled
    contradiction

namespace Sample

/-- Two drivers in one transaction, of which the first one is not enabled. -/
def oneEnabled : List SessionOp :=
  [.driver (.init featureConfig user), .driver (initUser user), .create user, .beginTxn 0 0, .beginTxn 0 1,
    .process ⟨0, 1, user⟩ (.msg (msg [flagsclear])), .driver (.deinit 0)]

end Sample

theorem sessions_switchedOff_one : ∃ s, Run (sessions (Sample.env Sample.broker) Sample.registry fun _ => 1)
    Sample.oneEnabled s ∧ s.driver.instances.map (fun inst => inst.ctx.enabled) = [false, true] ∧
    (published s.driver.trace).length = 1 ∧ SwitchedOff s := by
  obtain ⟨s, run, checked⟩ : ∃ s, Run (sessions (Sample.env Sample.broker) Sample.registry fun _ => 1)
      Sample.oneEnabled s ∧ decide (s.driver.instances.map (fun inst => inst.ctx.enabled) = [false, true] ∧
        (published s.driver.trace).length = 1) = true :=
    replay_reaches (Session.next_sound _ _ _) rfl _ (by decide +kernel)
  obtain ⟨enabled, taken⟩ := of_decide_eq_true checked
  exact ⟨s, run, enabled, taken, sessions_switchedOff run⟩

end PushNotificationKafka
