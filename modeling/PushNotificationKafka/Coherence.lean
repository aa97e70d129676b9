import PushNotificationKafka.EventJson
import PushNotificationKafka.Lifecycle

/-! The global, the producer and the topic handles agree with the instances that
are live, in every reachable state. -/
namespace PushNotificationKafka
open Transition Ledger

/-- The topic handles of the live instances. -/
def heldTopics (instances : List Instance) : List Topic :=
  instances.filterMap fun inst => if inst.live then inst.ctx.rkt else none

def liveCount (instances : List Instance) : Nat := instances.countP Instance.live

/-- A producer is destroyed only while there is no topic handle. -/
def DestroysLast (before : List Action) (e : Action) : Prop :=
  ∀ rk, e = .destroy rk → topics.live before = []

/-- The handles that librdkafka has given out are the producer `rk` and the topics
`held`, which belong to that producer. -/
structure Coherent (held : List Topic) (rk : Option Producer) (trace : List Action) : Prop where
  producer : producers.live trace = rk.toList
  handles : (topics.live trace).Perm held
  origin : ∀ rkt ∈ held, rk ≠ none ∧ rkt.rk = rk
  numbered : topics.Numbered Topic.id trace
  destroys : Always DestroysLast trace

/-- Neither a producer nor a topic is created or destroyed. -/
def Neutral (e : Action) : Prop := producers.Quiet e ∧ topics.Quiet e ∧ ∀ rk, e ≠ .destroy rk

theorem configures_neutral (configures : Configures rkc user e) : Neutral e := by
  cases configures <;> exact ⟨⟨rfl, rfl⟩, ⟨rfl, rfl⟩, nofun⟩

namespace Coherent
variable {held others : List Topic} {own : Option Producer} {trace : List Action} {kafka kafka' : Kafka}

theorem perm (coherent : Coherent held own trace) (same : held.Perm held') : Coherent held' own trace :=
  ⟨coherent.producer, coherent.handles.trans same,
    fun rkt member => coherent.origin rkt (same.mem_iff.mpr member), coherent.numbered, coherent.destroys⟩

theorem logs (coherent : Coherent held own trace) (neutral : ∀ e ∈ actions, Neutral e) :
    Coherent held own (trace ++ actions) := by
  constructor
  · rw [producers.live_quiet (fun e member => (neutral e member).1)]
    exact coherent.producer
  · rw [topics.live_quiet (fun e member => (neutral e member).2.1)]
    exact coherent.handles
  · exact coherent.origin
  · exact coherent.numbered.append (fun e member before =>
      topics.numbered_free (neutral e member).2.1.1 _ before)
  · exact coherent.destroys.append (fun e member _ rk same => absurd same ((neutral e member).2.2 rk))

theorem log (coherent : Coherent held own trace) (neutral : Neutral e) : Coherent held own (trace ++ [e]) :=
  coherent.logs (fun e' member => by rwa [List.mem_singleton.mp member])

/-- Where there is no producer there is no topic either. -/
theorem nothing_held (coherent : Coherent held none trace) : held = [] := by
  cases held with
  | nil => rfl
  | cons rkt held => exact absurd rfl (coherent.origin rkt List.mem_cons_self).1

theorem created (coherent : Coherent held none trace) (rk : Producer) (rkc : Option Conf) :
    Coherent held (some rk) (trace ++ [.new rkc (some rk)]) := by
  obtain rfl := coherent.nothing_held
  have neutral : topics.Quiet (.new rkc (some rk)) := ⟨rfl, rfl⟩
  constructor
  · rw [producers.live_snoc, coherent.producer]
    rfl
  · rw [topics.live_snoc, topics.step_quiet neutral]
    exact coherent.handles
  · exact fun rkt member => (List.not_mem_nil member).elim
  · exact Always.snoc_iff.mpr ⟨coherent.numbered, topics.numbered_free neutral.1 _ _⟩
  · exact Always.snoc_iff.mpr ⟨coherent.destroys, nofun⟩

/-- The producer is destroyed when no topic is held. -/
theorem destroyed (coherent : Coherent [] (some rk) trace) : Coherent [] none (trace ++ [.destroy (some rk)]) := by
  have quiet : topics.Quiet (.destroy (some rk)) := ⟨rfl, rfl⟩
  constructor
  · rw [producers.live_snoc, coherent.producer]
    simp [producers, Accounts.step]
  · rw [topics.live_snoc, topics.step_quiet quiet]
    exact coherent.handles
  · exact fun rkt member => (List.not_mem_nil member).elim
  · exact Always.snoc_iff.mpr ⟨coherent.numbered, topics.numbered_free quiet.1 _ _⟩
  · exact Always.snoc_iff.mpr ⟨coherent.destroys, fun _ _ => coherent.handles.eq_nil⟩

/-- The preparation of a configuration object. -/
theorem configured (coherent : Coherent held own trace) (setup : Setup rkc user events) :
    Coherent held own (trace ++ .confNew rkc :: events) := by
  apply coherent.logs
  intro e member
  rcases List.mem_cons.mp member with rfl | member
  · exact ⟨⟨rfl, rfl⟩, ⟨rfl, rfl⟩, nofun⟩
  · exact configures_neutral (setup.configures e member)

theorem initGlobal (coherent : Coherent held kafka.global.rk kafka.trace)
    (effect : InitGlobal kafka result kafka') : Coherent held kafka'.global.rk kafka'.trace := by
  cases effect with
  | ready => exact coherent
  | @refused rkc events site name value missing _ setup required =>
    have last : Neutral (.confSet site (some rkc) name value false) := ⟨⟨rfl, rfl⟩, ⟨rfl, rfl⟩, nofun⟩
    have done := (coherent.configured setup).log last
    rwa [List.append_assoc] at done
  | @failed rkc events missing _ setup =>
    have failed : Neutral (.new (some rkc) none) := ⟨⟨rfl, rfl⟩, ⟨rfl, rfl⟩, nofun⟩
    have freed : Neutral (.confDestroy (some rkc)) := ⟨⟨rfl, rfl⟩, ⟨rfl, rfl⟩, nofun⟩
    have level : Neutral (.setLogLevel none) := ⟨⟨rfl, rfl⟩, ⟨rfl, rfl⟩, nofun⟩
    have done := (((coherent.configured setup).log failed).log freed).log level
    simpa only [Kafka.logs_trace, Kafka.setRkc_trace, Kafka.logs_global, Kafka.setRkc_global,
      List.append_assoc, List.cons_append, List.nil_append] using done
  | @created rkc events rk missing _ setup =>
    have before := coherent.configured setup
    rw [missing] at before
    have level : Neutral (.setLogLevel (some rk)) := ⟨⟨rfl, rfl⟩, ⟨rfl, rfl⟩, nofun⟩
    have done := (before.created rk (some rkc)).log level
    simpa only [Kafka.logs_trace, Kafka.setRkc_trace, Kafka.setRk_trace, Kafka.logs_global,
      Kafka.setRk_global, List.append_assoc, List.cons_append, List.nil_append] using done

theorem topicNew (coherent : Coherent others (some rk) trace) (topic : CStr)
    (fresh : ∀ rkt, result = some rkt → rkt.rk = some rk ∧ rkt.id = trace.length) :
    Coherent (result.toList ++ others) (some rk) (trace ++ [.topicNew (some rk) topic result]) := by
  have quiet : producers.Quiet (.topicNew (some rk) topic result) := ⟨rfl, rfl⟩
  constructor
  · rw [producers.live_snoc, producers.step_quiet quiet]
    exact coherent.producer
  · rw [topics.live_snoc]
    cases result with
    | none => exact coherent.handles
    | some rkt => exact coherent.handles.cons rkt
  · intro rkt member
    rcases List.mem_append.mp member with own | other
    · exact ⟨nofun, (fresh rkt (Option.mem_toList.mp own)).1⟩
    · exact coherent.origin rkt other
  · refine Always.snoc_iff.mpr ⟨coherent.numbered, ?_⟩
    intro rkt acquired
    cases result with
    | none => contradiction
    | some rkt' =>
      obtain rfl := Option.some.inj acquired
      exact (fresh rkt' rfl).2
  · exact Always.snoc_iff.mpr ⟨coherent.destroys, nofun⟩

theorem topicDestroy (coherent : Coherent (rkt :: others) own trace) :
    Coherent others own (trace ++ [.topicDestroy (some rkt)]) := by
  have quiet : producers.Quiet (.topicDestroy (some rkt)) := ⟨rfl, rfl⟩
  constructor
  · rw [producers.live_snoc, producers.step_quiet quiet]
    exact coherent.producer
  · rw [topics.live_snoc]
    have erased := coherent.handles.erase rkt
    rwa [List.erase_cons_head] at erased
  · exact fun other member => coherent.origin other (List.mem_cons_of_mem rkt member)
  · exact Always.snoc_iff.mpr ⟨coherent.numbered, topics.numbered_free rfl _ _⟩
  · exact Always.snoc_iff.mpr ⟨coherent.destroys, nofun⟩

theorem call (coherent : Coherent (ctx.rkt.toList ++ others) kafka.global.rk kafka.trace)
    (call : Call (ctx, kafka) (ctx', kafka')) :
    Coherent (ctx'.rkt.toList ++ others) kafka'.global.rk kafka'.trace := by
  cases call with
  | initGlobal _ effect => exact coherent.initGlobal effect
  | topicNew present closed fresh =>
    rw [closed, present] at coherent
    rw [Kafka.log_global, present]
    exact coherent.topicNew ctx.topic fresh
  | topicDestroy opened =>
    rw [opened] at coherent
    exact coherent.topicDestroy
  | produce opened => exact coherent.log ⟨⟨rfl, rfl⟩, ⟨rfl, rfl⟩, nofun⟩
  | poll timeout => exact coherent.log ⟨⟨rfl, rfl⟩, ⟨rfl, rfl⟩, nofun⟩

theorem calls (coherent : Coherent (ctx.rkt.toList ++ others) kafka.global.rk kafka.trace)
    (calls : Calls (ctx, kafka) (ctx', kafka')) :
    Coherent (ctx'.rkt.toList ++ others) kafka'.global.rk kafka'.trace :=
  calls.preserve (P := fun s => Coherent (s.1.rkt.toList ++ others) s.2.global.rk s.2.trace)
    (fun _ _ coherent step => coherent.call step) coherent

theorem deinitGlobal (coherent : Coherent [] kafka.global.rk kafka.trace) :
    Coherent [] none (deinitGlobal kafka).trace := by
  rw [deinitGlobal_trace]
  cases present : kafka.global.rk with
  | none =>
    rw [present] at coherent
    simpa using coherent
  | some rk =>
    rw [present] at coherent
    have flush : Neutral (.flush (some rk) kafka.global.flushTimeInMs) := ⟨⟨rfl, rfl⟩, ⟨rfl, rfl⟩, nofun⟩
    have wait : Neutral (.waitDestroyed kafka.global.destroyTimeInMs) := ⟨⟨rfl, rfl⟩, ⟨rfl, rfl⟩, nofun⟩
    have done := (coherent.log flush).destroyed.log wait
    simpa using done

end Coherent

/-- The count of references that the global would have if a NULL one had none. -/
def World.refcount (world : World) : Int :=
  match world.kafkaGlobal with
  | some g => g.refcount
  | none => 0

def World.rk (world : World) : Option Producer := world.kafkaGlobal.bind Global.rk

/-- The invariant of the driver. -/
structure Consistent (s : State) : Prop where
  counted : s.world.refcount = liveCount s.instances
  coherent : Coherent (heldTopics s.instances) s.world.rk s.trace

def Instance.topic (inst : Instance) : Option Topic := if inst.live then inst.ctx.rkt else none

theorem heldTopics_append (before after : List Instance) :
    heldTopics (before ++ after) = heldTopics before ++ heldTopics after :=
  List.filterMap_append

/-- The topic of one instance set apart from those of the others. -/
theorem heldTopics_split (before after : List Instance) (inst : Instance) :
    (heldTopics (before ++ inst :: after)).Perm (inst.topic.toList ++ heldTopics (before ++ after)) := by
  have own : heldTopics (inst :: after) = inst.topic.toList ++ heldTopics after := by
    unfold heldTopics
    rw [List.filterMap_cons]
    unfold Instance.topic
    split
    · rename_i none
      rw [none]
      rfl
    · rename_i some
      rw [some]
      rfl
  rw [heldTopics_append, heldTopics_append, own, ← List.append_assoc, ← List.append_assoc]
  exact List.perm_append_comm.append_right _

theorem liveCount_split (before after : List Instance) (inst : Instance) :
    liveCount (before ++ inst :: after) = liveCount (before ++ after) + if inst.live then 1 else 0 := by
  simp only [liveCount, List.countP_append, List.countP_cons]
  omega

theorem liveCount_live (before after : List Instance) {inst : Instance} (live : inst.live = true) :
    liveCount (before ++ inst :: after) = liveCount (before ++ after) + 1 := by
  rw [liveCount_split, if_pos live]

theorem liveCount_dead (before after : List Instance) {inst : Instance} (dead : inst.live = false) :
    liveCount (before ++ inst :: after) = liveCount (before ++ after) := by
  rw [liveCount_split, dead]
  rfl

/-- Where no instance is live no topic is held. -/
theorem heldTopics_none (unused : liveCount instances = 0) : heldTopics instances = [] := by
  apply List.filterMap_eq_nil_iff.mpr
  intro inst member
  have dead := List.countP_eq_zero.mp unused inst member
  exact if_neg dead

theorem init_consistent (consistent : Consistent s) (created : s.world.kafkaGlobal.getD (initKafkaGlobal env user) = g)
    (closed : ctx.rkt = none) :
    Consistent ⟨⟨some { g with refcount := g.refcount + 1 }, s.world.trace⟩, s.instances ++ [⟨user, ctx, true⟩]⟩ := by
  obtain ⟨counted, coherent⟩ := consistent
  have same : g.refcount = s.world.refcount ∧ g.rk = s.world.rk := by
    unfold World.refcount World.rk
    cases present : s.world.kafkaGlobal with
    | none =>
      rw [present] at created
      exact created ▸ ⟨rfl, rfl⟩
    | some g' =>
      rw [present] at created
      exact created ▸ ⟨rfl, rfl⟩
  have held : heldTopics (s.instances ++ [⟨user, ctx, true⟩]) = heldTopics s.instances := by
    rw [heldTopics_append]
    simp [heldTopics, closed]
  constructor
  · have more := liveCount_split s.instances [] ⟨user, ctx, true⟩
    rw [List.append_nil, if_pos rfl] at more
    rw [more]
    simp only [World.refcount]
    omega
  · rw [held]
    exact same.2 ▸ coherent

/-- Calls on behalf of a live instance, with the topics of the other instances
beside its own. -/
theorem calls_coherent {before after : List Instance} {inst : Instance}
    (coherent : Coherent (heldTopics (before ++ inst :: after)) kafka.global.rk kafka.trace)
    (live : inst.live = true) (calls : Calls (inst.ctx, kafka) (ctx, kafka')) :
    Coherent (ctx.rkt.toList ++ heldTopics (before ++ after)) kafka'.global.rk kafka'.trace := by
  have own : inst.topic = inst.ctx.rkt := if_pos live
  have apart := coherent.perm (heldTopics_split before after inst)
  rw [own] at apart
  exact apart.calls calls

theorem Effect.consistent (effect : Effect env s op t) (consistent : Consistent s) : Consistent t := by
  cases effect with
  | init created => exact init_consistent consistent created rfl
  | @initGlobal g rk kafka present effect =>
    obtain ⟨counted, coherent⟩ := consistent
    have same : kafka.global.refcount = g.refcount := by cases effect <;> rfl
    simp only [World.refcount, World.rk, present] at counted coherent
    exact ⟨same.trans counted, coherent.initGlobal effect⟩
  | @onInstance g ctx kafka _ before after inst present split live _ calls =>
    obtain ⟨counted, coherent⟩ := consistent
    simp only [World.refcount, World.rk, present, split] at counted coherent
    have apart := calls_coherent coherent live calls
    have live' : ({ inst with ctx } : Instance).live = true := live
    have own : ({ inst with ctx } : Instance).topic = ctx.rkt := if_pos live
    have same : kafka.global.refcount = g.refcount := by rw [calls.frame.2]
    constructor
    · rw [liveCount_live before after live] at counted
      rw [liveCount_live before after live']
      exact same.trans counted
    · rw [← own] at apart
      exact apart.perm (heldTopics_split before after { inst with ctx }).symm
  | @deinit g i ctx kafka before after inst present split live _ calls closed counts =>
    obtain ⟨counted, coherent⟩ := consistent
    simp only [World.refcount, World.rk, present, split] at counted coherent
    have apart := calls_coherent coherent live calls
    have dead : ({ inst with ctx, live := false } : Instance).live = false := rfl
    have own : ({ inst with ctx, live := false } : Instance).topic = none := rfl
    have same : kafka.global.refcount = g.refcount := by rw [calls.frame.2]
    constructor
    · rw [liveCount_live before after live] at counted
      rw [liveCount_dead before after dead]
      simp only [World.refcount]
      omega
    · rw [closed, ← own] at apart
      exact apart.perm (heldTopics_split before after { inst with ctx, live := false }).symm
  | kept => exact consistent
  | @cleanup g present unused =>
    obtain ⟨counted, coherent⟩ := consistent
    simp only [World.refcount, World.rk, present] at counted coherent
    have dead : liveCount s.instances = 0 := by omega
    rw [heldTopics_none dead] at coherent
    constructor
    · simp [World.refcount, dead]
    · rw [heldTopics_none dead]
      exact coherent.deinitGlobal

theorem run_consistent (run : Run (lifecycle env) ops s) : Consistent s := by
  refine run.invariant ?_ ?_
  · rintro s rfl
    refine ⟨rfl, rfl, .refl _, ?_, Always.nil, Always.nil⟩
    exact fun rkt member => (List.not_mem_nil member).elim
  · rintro s op t consistent ⟨permitted, done⟩
    exact (exec_effect permitted done).consistent consistent

theorem liveAt_count (live : State.LiveAt s i) : 0 < liveCount s.instances := by
  obtain ⟨inst, found, live⟩ := (s.liveAt_iff i).mp live
  exact List.countP_pos_iff.mpr ⟨inst, List.mem_of_getElem? found, live⟩

theorem Consistent.global (consistent : Consistent s) (live : 0 < liveCount s.instances) :
    ∃ g, s.world.kafkaGlobal = some g := by
  have counted := consistent.counted
  cases present : s.world.kafkaGlobal with
  | some g => exact ⟨g, rfl⟩
  | none =>
    simp only [World.refcount, present] at counted
    omega

theorem onInstance_done (consistent : Consistent s) (live : s.LiveAt i)
    (run : Context → Kafka → Context × Kafka) : ∃ t, s.onInstance i run = .ok t := by
  obtain ⟨g, present⟩ := consistent.global (liveAt_count live)
  obtain ⟨inst, found, live⟩ := (s.liveAt_iff i).mp live
  exact ⟨_, onInstance_eq found present run⟩

/-- No operation follows a NULL `kafka_global` or fails the assertion on the
reference count. -/
theorem exec_done (env : Env) (consistent : Consistent s) (permitted : s.Permitted op) :
    ∃ t, s.exec env op = .ok t := by
  cases op with
  | init config user => exact ⟨_, rfl⟩
  | initGlobal =>
    cases present : s.world.kafkaGlobal with
    | none => exact absurd present permitted
    | some g =>
      simp only [State.exec, World.withGlobal, present]
      exact ⟨_, rfl⟩
  | initTopic i => exact onInstance_done consistent permitted (initTopic env)
  | sendToKafka i str username =>
    exact onInstance_done consistent permitted (fun ctx => sendToKafka env ctx str username)
  | deinitTopic i => exact onInstance_done consistent permitted deinitTopic
  | deinit i =>
    have live := liveAt_count permitted
    have counted := consistent.counted
    obtain ⟨g, present⟩ := consistent.global live
    obtain ⟨inst, found, -⟩ := (s.liveAt_iff i).mp permitted
    have same : (deinitTopic inst.ctx ⟨g, s.world.trace⟩).2.global.refcount = g.refcount := by
      rw [(deinitTopic_calls inst.ctx ⟨g, s.world.trace⟩).frame.2]
    have positive : (deinitTopic inst.ctx ⟨g, s.world.trace⟩).2.global.refcount > 0 := by
      simp only [World.refcount, present] at counted
      omega
    simp only [State.exec, found, deinit, World.withGlobal, present]
    simp only [Bind.bind, Except.bind, if_pos positive]
    exact ⟨_, rfl⟩
  | cleanup => exact ⟨_, rfl⟩

/-- After the last `deinit` a cleanup leaves nothing behind. -/
theorem cleanup_frees (env : Env) (consistent : Consistent s) (unused : liveCount s.instances = 0) :
    ∃ t, s.exec env .cleanup = .ok t ∧ t.world.kafkaGlobal = none ∧
      producers.live t.trace = [] ∧ topics.live t.trace = [] := by
  have permitted : s.Permitted .cleanup := trivial
  obtain ⟨t, done⟩ := exec_done env consistent permitted
  have after := (exec_effect permitted done).consistent consistent
  have gone : t.world.kafkaGlobal = none := by
    have counted := consistent.counted
    obtain rfl := Except.ok.inj done
    unfold cleanup
    cases present : s.world.kafkaGlobal with
    | none => simpa using present
    | some g =>
      have zero : g.refcount ≤ 0 := by
        simp only [World.refcount, present] at counted
        omega
      simp [zero]
  have held : heldTopics t.instances = [] := by
    obtain rfl := Except.ok.inj done
    exact heldTopics_none unused
  have noProducer : t.world.rk = none := by simp [World.rk, gone]
  refine ⟨t, done, gone, ?_, ?_⟩
  · rw [after.coherent.producer, noProducer]
    rfl
  · have handles := after.coherent.handles
    rw [held] at handles
    exact handles.eq_nil

/-- What holds of the driver in a state. -/
structure Guarantees (env : Env) (s : State) : Prop where
  /-- `kafka_global` is there whenever an instance is live. -/
  global : 0 < liveCount s.instances → s.world.kafkaGlobal ≠ none
  refcount : ∀ g, s.world.kafkaGlobal = some g → g.refcount = liveCount s.instances
  producer : producers.live s.trace = s.world.rk.toList ∧ (producers.live s.trace).length ≤ 1
  /-- The topic handles are those of the live instances, of which each has at most one. -/
  handles : (topics.live s.trace).Perm (heldTopics s.instances) ∧ (topics.live s.trace).Nodup
  origin : ∀ inst ∈ s.instances, inst.live = true → ∀ rkt, inst.ctx.rkt = some rkt →
    ∃ g rk, s.world.kafkaGlobal = some g ∧ g.rk = some rk ∧ rkt.rk = some rk
  destroys : Always DestroysLast s.trace
  /-- Neither the NULL `kafka_global` is followed nor does the assertion fire. -/
  noFault : ∀ op, s.Permitted op → ∃ t, s.exec env op = .ok t
  cleanup : liveCount s.instances = 0 → ∃ t, s.exec env .cleanup = .ok t ∧
    t.world.kafkaGlobal = none ∧ producers.live t.trace = [] ∧ topics.live t.trace = []

theorem Consistent.guarantees (env : Env) (consistent : Consistent s) : Guarantees env s := by
  have counted := consistent.counted
  have coherent := consistent.coherent
  constructor
  · intro live
    obtain ⟨g, present⟩ := consistent.global live
    rw [present]
    exact Option.some_ne_none g
  · intro g present
    simpa only [World.refcount, present] using counted
  · refine ⟨coherent.producer, ?_⟩
    rw [coherent.producer]
    cases s.world.rk <;> simp
  · exact ⟨coherent.handles, coherent.numbered.live.1⟩
  · intro inst member live rkt opened
    have held : rkt ∈ heldTopics s.instances :=
      List.mem_filterMap.mpr ⟨inst, member, (if_pos live).trans opened⟩
    obtain ⟨present, same⟩ := coherent.origin rkt held
    obtain ⟨rk, found⟩ := Option.ne_none_iff_exists'.mp present
    obtain ⟨g, global, own⟩ := Option.bind_eq_some_iff.mp found
    exact ⟨g, rk, global, own, same.trans found⟩
  · exact coherent.destroys
  · exact fun op permitted => exec_done env consistent permitted
  · intro unused
    exact cleanup_frees env consistent unused

/-- Fewer than 2 ^ 31 live instances are assumed, so that the reference count is
the mathematical one. -/
theorem lifecycle_guarantees (run : Run (lifecycle env) ops s) : Guarantees env s :=
  (run_consistent run).guarantees env

namespace Sample

/-- A broker where everything succeeds. -/
def broker : Broker where
  confSet _ _ _ := true
  new _ := true
  topicNew _ := true
  produce _ := none

def env (broker : Broker) : Env := ⟨dovecot, broker, fun _ => alice⟩

def user : UserId := ⟨1⟩

def other : UserId := ⟨2⟩

def initUser (user : UserId) : Op := .init (fun _ => none) user

def send (i : Nat) : Op := .sendToKafka i [] alice.username

/-- Instances of two users whose operations interleave, with a cleanup while the second one is
still in use. -/
def lives : List Op :=
  [initUser user, initUser other, send 0, send 1, .deinit 0, .cleanup, send 1, .deinit 1, .cleanup]

end Sample

theorem lifecycle_guarantees_lives : ∃ s, Run (lifecycle (Sample.env Sample.broker)) Sample.lives s ∧
    s.world.kafkaGlobal.isNone = true ∧ Guarantees (Sample.env Sample.broker) s := by
  obtain ⟨s, run, gone⟩ : ∃ s, Run (lifecycle (Sample.env Sample.broker)) Sample.lives s ∧
      s.world.kafkaGlobal.isNone = true := lifecycle_reaches _ (by decide +kernel)
  exact ⟨s, run, gone, lifecycle_guarantees run⟩

/-- A context that no instance has. -/
def idle : Context := ⟨[], [], none, false, ⟨false, []⟩, none⟩

section
variable {P : List Action → Prop}

/-- Every call keeps `P` of the trace. -/
def KeptByCalls (P : List Action → Prop) : Prop :=
  ∀ ctx kafka ctx' kafka' others, Coherent (ctx.rkt.toList ++ others) kafka.global.rk kafka.trace →
    Call (ctx, kafka) (ctx', kafka') → P kafka.trace → P kafka'.trace

theorem KeptByCalls.calls (kept : KeptByCalls P) (others : List Topic) {s t : Context × Kafka} (calls : Calls s t)
    (coherent : Coherent (s.1.rkt.toList ++ others) s.2.global.rk s.2.trace) (holds : P s.2.trace) :
    P t.2.trace := by
  have both : Coherent (t.1.rkt.toList ++ others) t.2.global.rk t.2.trace ∧ P t.2.trace := by
    induction calls with
    | refl => exact ⟨coherent, holds⟩
    | tail _ step ih => exact ⟨ih.1.call step, kept _ _ _ _ others ih.1 step ih.2⟩
  exact both.2

/-- The handle of the instance that makes the calls is one of those that are held. -/
theorem KeptByCalls.onInstance (kept : KeptByCalls P) {g : Global} {inst : Instance} {held : List Instance}
    (coherent : Coherent (heldTopics held) g.rk trace) (split : held = before ++ inst :: after)
    (live : inst.live = true) (calls : Calls (inst.ctx, ⟨g, trace⟩) (ctx, kafka)) (holds : P trace) :
    P kafka.trace := by
  subst split
  have own : inst.topic = inst.ctx.rkt := if_pos live
  have apart := coherent.perm (heldTopics_split before after inst)
  rw [own] at apart
  exact kept.calls (heldTopics (before ++ after)) calls apart holds

theorem Effect.keeps (kept : KeptByCalls P)
    (release : ∀ kafka, Coherent [] kafka.global.rk kafka.trace → P kafka.trace → P (deinitGlobal kafka).trace)
    (effect : Effect env s op t) (consistent : Consistent s) (holds : P s.trace) : P t.trace := by
  have coherent := consistent.coherent
  cases effect with
  | init => exact holds
  | @initGlobal g rk kafka present effect =>
    simp only [World.rk, present] at coherent
    cases missing : g.rk with
    | none => exact kept idle ⟨g, _⟩ idle kafka _ coherent (.initGlobal missing effect) holds
    | some rk =>
      cases effect with
      | ready => exact holds
      | refused none | failed none | created none => exact absurd (none.symm.trans missing) nofun
  | onInstance present split live _ calls =>
    simp only [World.rk, present] at coherent
    exact kept.onInstance coherent split live calls holds
  | deinit present split live _ calls =>
    simp only [World.rk, present] at coherent
    exact kept.onInstance coherent split live calls holds
  | kept => exact holds
  | @cleanup g present unused =>
    have counted := consistent.counted
    simp only [World.refcount, World.rk, present] at coherent counted
    have dead : liveCount s.instances = 0 := by omega
    rw [heldTopics_none dead] at coherent
    exact release _ coherent holds

/-- What holds of the empty trace and is kept by every call and by the release of
the producer holds of the trace of every run. -/
theorem trace_invariant (run : Run (lifecycle env) ops s) (start : P []) (kept : KeptByCalls P)
    (release : ∀ kafka, Coherent [] kafka.global.rk kafka.trace → P kafka.trace → P (deinitGlobal kafka).trace) :
    P s.trace := by
  refine (run.invariant (P := fun s => Consistent s ∧ P s.trace) ?_ ?_).2
  · rintro s rfl
    exact ⟨run_consistent (.start rfl : Run (lifecycle env) [] State.start), start⟩
  · rintro s op t ⟨consistent, holds⟩ ⟨permitted, done⟩
    have effect := exec_effect permitted done
    exact ⟨effect.consistent consistent, effect.keeps kept release consistent holds⟩

end

end PushNotificationKafka
