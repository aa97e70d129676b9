import PushNotificationKafka.Enabled
import PushNotificationKafka.Retry

/-! Handles are long-lived: an instance is given a topic handle at most once, however much
it sends, and only if it is enabled; and there is a new producer only after a cleanup that
destroyed the one before. -/
namespace PushNotificationKafka
open Transition Ledger

/-- A handle for one of these topics is created. -/
def opensTopic (about : CStr → Bool) : Action → Bool
  | .topicNew _ topic (some _) => about topic
  | _ => false

/-- The handles of these topics that have been created. -/
def openings (about : CStr → Bool) (trace : List Action) : Nat := trace.countP (opensTopic about)

/-- The operation is a call of cleanup. -/
def SessionOp.cleans : SessionOp → Bool
  | .driver .cleanup => true
  | _ => false

/-- No more topic handles have been created than there are enabled instances with these
topics, and one producer more than cleanups at most. -/
structure Economical (ops : List SessionOp) (s : Session) : Prop where
  topics : ∀ about, openings about s.driver.trace ≤
    s.driver.instances.countP fun inst => about inst.ctx.topic && inst.ctx.enabled
  producers : producers.acquisitions s.driver.trace ≤ ops.countP SessionOp.cleans + 1

theorem openings_append (about : CStr → Bool) (trace actions : List Action) :
    openings about (trace ++ actions) = openings about trace + openings about actions := List.countP_append

theorem openings_none (free : ∀ e ∈ actions, topics.acquired e = none) (about : CStr → Bool) :
    openings about actions = 0 := by
  apply List.countP_eq_zero.mpr
  intro e member opened
  have none := free e member
  unfold opensTopic at opened
  split at opened <;> contradiction

/-- The context has a handle, and one of these topics. -/
def Context.holds (ctx : Context) (about : CStr → Bool) : Nat :=
  if about ctx.topic && ctx.rkt.isSome then 1 else 0

/-- Each handle created on behalf of a context is the one that it has. -/
def Opens (about : CStr → Bool) (s t : Context × Kafka) : Prop :=
  openings about t.2.trace + s.1.holds about ≤ openings about s.2.trace + t.1.holds about

theorem Opens.trans (first : Opens about s t) (last : Opens about t u) : Opens about s u := by
  unfold Opens at *
  omega

theorem opens_more {kafka kafka' : Kafka} (trace : kafka'.trace = kafka.trace ++ actions)
    (free : ∀ e ∈ actions, topics.acquired e = none) : Opens about (ctx, kafka) (ctx, kafka') := by
  have same : openings about kafka'.trace = openings about kafka.trace := by
    rw [trace, openings_append, openings_none free, Nat.add_zero]
  exact le_of_eq (by rw [same])

theorem initTopic_opensOnce (env : Env) (about : CStr → Bool) (ctx : Context) (kafka : Kafka) :
    Opens about (ctx, kafka) (initTopic env ctx kafka) := by
  obtain ⟨actions, trace, silent, -⟩ := (initGlobal_spec env kafka).silent
  have ready : Opens about (ctx, kafka) (ctx, (initGlobal env kafka).2) := opens_more trace silent.2
  unfold initTopic
  split
  · rename_i rk kafka' made
    rw [made] at ready
    split
    · rename_i closed
      refine ready.trans ?_
      have before : ctx.holds about = 0 := by simp [Context.holds, closed]
      simp only [Opens, before, rdKafkaTopicNew, Kafka.log_trace, openings_append]
      split
      · have one (rkt : Topic) : openings about [.topicNew kafka'.global.rk ctx.topic (some rkt)] =
            ({ ctx with rkt := some rkt } : Context).holds about := by
          cases shown : about ctx.topic <;> simp [openings, opensTopic, Context.holds, shown]
        rw [one, Nat.add_zero]
      · simp [openings, opensTopic]
    · exact ready
  · rename_i kafka' made
    rw [made] at ready
    exact ready

theorem Passes.free (passes : Passes ctx kafka str username counter actions) :
    ∀ e ∈ actions, topics.acquired e = none := by
  have full (k : Nat) : ∀ e ∈ (List.replicate k (fullPass ctx kafka str username)).flatten,
      topics.acquired e = none := by
    intro e member
    obtain ⟨pass, listed, member⟩ := List.mem_flatten.mp member
    rw [List.eq_of_mem_replicate listed] at member
    simp only [fullPass, List.mem_cons, List.not_mem_nil, or_false] at member
    rcases member with rfl | rfl <;> rfl
  cases passes with
  | ends =>
    intro e member
    rcases List.mem_append.mp member with early | last
    · exact full _ e early
    · rw [List.mem_singleton.mp last]
      rfl
  | givesUp => exact full _

theorem sendToKafka_opensOnce (env : Env) (about : CStr → Bool) (ctx : Context) (str username : CStr)
    (kafka : Kafka) : Opens about (ctx, kafka) (sendToKafka env ctx str username kafka) := by
  have opened := initTopic_opensOnce env about ctx kafka
  rw [sendToKafka_eq]
  split
  · exact opened
  · refine opened.trans ?_
    obtain ⟨actions, loop, passes⟩ := retryLoop_passes env (initTopic env ctx kafka).1 str username 0
      (initTopic env ctx kafka).2 (initTopic env ctx kafka).2.global.maxRetries.property.1
    have produced : Opens about (initTopic env ctx kafka) ((initTopic env ctx kafka).1,
        retryLoop env (initTopic env ctx kafka).1 str username 0 (initTopic env ctx kafka).2) :=
      opens_more (by rw [loop]; rfl) passes.free
    exact produced.trans (opens_more (Kafka.log_trace ..) (by simp [topics]))

theorem process_opensOnce (env : Env) (about : CStr → Bool) (dtxn : DriverTxn) (target : Target)
    (kafka : Kafka) : Opens about (dtxn.context, kafka) (target.process env dtxn kafka) := by
  have loop (renderings : List CStr) (state : Context × Kafka) : Opens about state
      (renderings.foldl (fun state str => sendToKafka env state.1 str dtxn.user.username state.2) state) := by
    induction renderings generalizing state with
    | nil => exact le_rfl
    | cons str renderings ih => exact (sendToKafka_opensOnce env about state.1 str _ state.2).trans (ih _)
  rw [target.process_eq, processEvents_eq]
  exact loop _ _

/-- Only cleanup destroys producers. -/
theorem Call.keepsProducers (call : Call s t) :
    ∃ actions, t.2.trace = s.2.trace ++ actions ∧ ∀ e ∈ actions, producers.released e = none := by
  cases call with
  | initGlobal _ effect =>
    obtain ⟨actions, trace, opening⟩ := effect.opens
    refine ⟨actions, trace, ?_⟩
    intro e member
    have opened := opening e member
    cases e <;> first | rfl | contradiction
  | topicNew | topicDestroy | produce | poll => exact ⟨_, Kafka.log_trace .., by simp [producers]⟩

theorem Call.surrenders (call : Call s t) :
    producers.surrenders t.2.trace = producers.surrenders s.2.trace := by
  obtain ⟨actions, trace, free⟩ := call.keepsProducers
  rw [trace, producers.surrenders_append, producers.surrenders_none free, Nat.add_zero]

theorem Calls.surrenders (calls : Calls s t) :
    producers.surrenders t.2.trace = producers.surrenders s.2.trace :=
  calls.preserve (P := fun u => producers.surrenders u.2.trace = producers.surrenders s.2.trace)
    (fun _ _ before call => call.surrenders.trans before) rfl

theorem closing_surrenders (s : State) (op : Op) :
    producers.surrenders (s.closing op) ≤ if SessionOp.cleans (.driver op) then 1 else 0 := by
  have kept {actions : List Action} (free : ∀ e ∈ actions, producers.released e = none) :
      producers.surrenders actions ≤ 0 := le_of_eq (producers.surrenders_none free)
  cases op with
  | deinit i =>
    refine kept ?_
    simp only [State.closing]
    split
    · intro e member
      rcases List.mem_append.mp member with polled | destroyed
      · obtain ⟨rk, -, rfl⟩ := List.mem_map.mp polled
        rfl
      · obtain ⟨rkt, -, rfl⟩ := List.mem_map.mp destroyed
        rfl
    · simp
  | cleanup =>
    simp only [State.closing]
    split
    · rename_i g _
      split
      · cases g.rk with
        | none => exact Nat.zero_le _
        | some rk => exact le_rfl
      · exact Nat.zero_le _
    · exact Nat.zero_le _
  | init | initGlobal | initTopic | sendToKafka | deinitTopic => exact le_rfl

/-- A producer is destroyed only while it is alive. -/
theorem run_releasesLive (run : Run (lifecycle env) ops s) : Always producers.ReleasesLive s.trace := by
  refine trace_invariant run .nil ?_ ?_
  · intro ctx kafka ctx' kafka' others _ call orderly
    obtain ⟨actions, trace, free⟩ := call.keepsProducers
    rw [trace]
    exact orderly.append fun e member => producers.releasesLive_free (free e member)
  · intro kafka coherent orderly
    rw [deinitGlobal_trace]
    cases present : kafka.global.rk with
    | none => simpa using orderly
    | some rk =>
      have flushed : Always producers.ReleasesLive
          (kafka.trace ++ [.flush (some rk) kafka.global.flushTimeInMs]) :=
        Always.snoc_iff.mpr ⟨orderly, producers.releasesLive_free rfl _⟩
      have destroyed : Always producers.ReleasesLive
          (kafka.trace ++ [.flush (some rk) kafka.global.flushTimeInMs] ++ [.destroy (some rk)]) := by
        refine Always.snoc_iff.mpr ⟨flushed, ?_⟩
        intro rk' released
        obtain rfl := Option.some.inj released
        rw [producers.live_snoc, producers.step_quiet ⟨rfl, rfl⟩, coherent.producer, present]
        exact List.mem_singleton_self rk
      have done : Always producers.ReleasesLive (_ ++ [.waitDestroyed kafka.global.destroyTimeInMs]) :=
        Always.snoc_iff.mpr ⟨destroyed, producers.releasesLive_free rfl _⟩
      simpa using done

/-- The instance may have had its handle. -/
def Instance.served (inst : Instance) : Bool := inst.ctx.enabled && (!inst.live || inst.ctx.rkt.isSome)

/-- The instances with these topics that may have had their handles. -/
def servedCount (about : CStr → Bool) (instances : List Instance) : Nat :=
  instances.countP fun inst => about inst.ctx.topic && inst.served

theorem servedCount_split (about : CStr → Bool) (before after : List Instance) (inst : Instance) :
    servedCount about (before ++ inst :: after) =
      servedCount about (before ++ after) + if about inst.ctx.topic && inst.served then 1 else 0 := by
  simp only [servedCount, List.countP_append, List.countP_cons]
  omega

/-- The invariant. -/
structure Thrifty (ops : List SessionOp) (s : Session) : Prop where
  opened : ∀ about, openings about s.driver.trace ≤ servedCount about s.driver.instances
  destroyed : producers.surrenders s.driver.trace ≤ ops.countP SessionOp.cleans

namespace Thrifty
variable {s t : Session}

/-- What an operation of the framework does to its instances. -/
theorem driver {after : State} (thrifty : Thrifty ops s) (external : op.external = true)
    (permitted : s.driver.Permitted op) (done : s.driver.exec env op = .ok after) :
    Thrifty (ops ++ [.driver op]) { s with driver := after } := by
  have trace := external_trace external done
  have effect := exec_effect permitted done
  constructor
  · intro about
    have same : openings about after.trace = openings about s.driver.trace := by
      have free : ∀ e ∈ s.driver.closing op, topics.acquired e = none := by
        intro e member
        have closing := s.driver.closing_closes op e member
        cases e <;> first | rfl | contradiction
      rw [trace, openings_append, openings_none free, Nat.add_zero]
    refine (same.trans_le (thrifty.opened about)).trans ?_
    cases effect with
    | init =>
      rw [servedCount, servedCount, List.countP_append]
      exact Nat.le_add_right ..
    | initGlobal => contradiction
    | onInstance _ _ _ works => cases op <;> contradiction
    | @deinit g i ctx kafka before after inst _ split _ _ calls =>
      have frame : ctx = { inst.ctx with rkt := ctx.rkt } := calls.frame.1
      rw [split, servedCount_split, servedCount_split, frame]
      apply Nat.add_le_add_left
      cases about inst.ctx.topic <;> cases enabled : inst.ctx.enabled <;> simp [Instance.served, enabled]
      split <;> simp
    | kept | cleanup => exact le_rfl
  · have more := closing_surrenders s.driver op
    have before := thrifty.destroyed
    rw [List.countP_append, List.countP_singleton, trace, producers.surrenders_append]
    exact Nat.add_le_add before more

/-- A target is only ever processed for a live instance that is enabled. -/
theorem process {before after : List Instance} {inst : Instance} (thrifty : Thrifty ops s)
    (split : s.driver.instances = before ++ inst :: after) (live : inst.live = true)
    (enabled : inst.ctx.enabled = true) (calls : Calls (inst.ctx, ⟨g, s.driver.trace⟩) (ctx, kafka))
    (opens : ∀ about, Opens about (inst.ctx, ⟨g, s.driver.trace⟩) (ctx, kafka)) (op : SessionOp) :
    Thrifty (ops ++ [op]) { s with
      driver := ⟨⟨some kafka.global, kafka.trace⟩, before ++ { inst with ctx } :: after⟩ } := by
  constructor
  · intro about
    have earlier := thrifty.opened about
    have more : openings about kafka.trace + inst.ctx.holds about ≤
        openings about s.driver.trace + ctx.holds about := opens about
    have frame : ctx = { inst.ctx with rkt := ctx.rkt } := calls.frame.1
    have enabled' : ctx.enabled = true := by rw [frame]; exact enabled
    have own : (if about inst.ctx.topic && inst.served then 1 else 0) = inst.ctx.holds about := by
      simp [Instance.served, Context.holds, live, enabled]
    have own' : (if about ctx.topic && Instance.served { inst with ctx } then 1 else 0) = ctx.holds about := by
      simp [Instance.served, Context.holds, live, enabled']
    rw [split, servedCount_split, own] at earlier
    have goal : openings about kafka.trace ≤ servedCount about (before ++ { inst with ctx } :: after) := by
      rw [servedCount_split, own']
      omega
    exact goal
  · have same : producers.surrenders kafka.trace = producers.surrenders s.driver.trace := calls.surrenders
    have before := thrifty.destroyed
    rw [List.countP_append]
    exact (same.trans_le before).trans (Nat.le_add_right ..)

theorem step (thrifty : Thrifty ops s) (guarded : Guarded s) (effect : SessionEffect env registry s op t) :
    Thrifty (ops ++ [op]) t := by
  have idle : Thrifty (ops ++ [op]) s := by
    refine ⟨thrifty.opened, thrifty.destroyed.trans ?_⟩
    rw [List.countP_append]
    exact Nat.le_add_right ..
  cases effect with
  | driver external permitted done => exact thrifty.driver external permitted done
  | create | beginTxn | endTxn => exact ⟨idle.opened, idle.destroyed⟩
  | @process dtxn target ctx kafka before after inst g _ opened _ _ split position live _ processed =>
    obtain ⟨own, found, enabled⟩ := guarded.opened dtxn opened
    obtain rfl := Option.some.inj (found.symm.trans (instance_at split position))
    refine thrifty.process split live enabled (processed_calls processed) ?_ _
    intro about
    rw [← processed]
    exact process_opensOnce env about ⟨env.mailUser dtxn.user, own.ctx⟩ target _

end Thrifty

theorem run_thrifty (run : Run (sessions env registry before) ops s) : Thrifty ops s := by
  induction run with
  | start initial =>
    obtain rfl := initial
    exact ⟨fun _ => Nat.zero_le _, Nat.zero_le _⟩
  | next run step ih => exact ih.step (run_guarded run) (session_effect step)

/-- In every run, however much is sent, no more topic handles are created than there are
enabled instances with these topics, and the producer is created anew only after a cleanup. -/
theorem sessions_economical (run : Run (sessions env registry before) ops s) : Economical ops s := by
  have thrifty := run_thrifty run
  constructor
  · intro about
    refine (thrifty.opened about).trans ?_
    apply List.countP_mono_left
    intro inst _ served
    simp only [Instance.served, Bool.and_eq_true] at served ⊢
    exact ⟨served.1, served.2.1⟩
  · obtain ⟨matched, driven⟩ := (sessions_lifecycle env registry before).run run
    have coherent := (run_consistent driven).coherent
    have created := producers.acquisitions_eq (run_releasesLive driven)
    have alive : (producers.live s.driver.trace).length ≤ 1 := by
      rw [coherent.producer]
      exact Option.length_toList_le
    have destroyed := thrifty.destroyed
    omega

namespace Sample

/-- Two messages, and one more after a cleanup. -/
def lasting : List SessionOp :=
  [.driver (initUser user), .create user, .beginTxn 0 0, .process ⟨0, 0, user⟩ (.msg (msg [flagsclear])),
    .process ⟨0, 0, user⟩ (.msg (msg [flagsclear])), .endTxn ⟨0, 0, user⟩, .driver (.deinit 0),
    .driver .cleanup, .driver (initUser user), .create user, .beginTxn 1 1,
    .process ⟨1, 1, user⟩ (.msg (msg [flagsclear]))]

end Sample

theorem sessions_economical_lasting : ∃ s, Run (sessions (Sample.env Sample.broker) Sample.registry fun _ => 1)
    Sample.lasting s ∧ (published s.driver.trace).length = 3 ∧
    openings (fun _ => true) s.driver.trace = 2 ∧ producers.acquisitions s.driver.trace = 2 ∧
    Economical Sample.lasting s := by
  obtain ⟨s, run, checked⟩ : ∃ s, Run (sessions (Sample.env Sample.broker) Sample.registry fun _ => 1)
      Sample.lasting s ∧ decide ((published s.driver.trace).length = 3 ∧
        openings (fun _ => true) s.driver.trace = 2 ∧ producers.acquisitions s.driver.trace = 2) = true :=
    replay_reaches (Session.next_sound _ _ _) rfl _ (by decide +kernel)
  obtain ⟨taken, opened, made⟩ := of_decide_eq_true checked
  exact ⟨s, run, taken, opened, made, sessions_economical run⟩

end PushNotificationKafka
