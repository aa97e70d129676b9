import PushNotificationKafka.Transactions

/-! What one step of a session does, said once, and what it leaves alone: the options of
an instance are fixed by its `init`, and a driver transaction is only ever open for an
enabled context. -/
namespace PushNotificationKafka
open Bytes Transition

/-- What an operation does to a session. A callback of a driver transaction makes the calls
of its target on the context of its instance. -/
inductive SessionEffect (env : Env) (registry : Registry) (s : Session) : SessionOp → Session → Prop where
  | driver : op.external = true → s.driver.Permitted op → s.driver.exec env op = .ok driver →
      SessionEffect env registry s (.driver op) { s with driver }
  | create : SessionEffect env registry s (.create user) { s with txns := s.txns ++ [⟨user, [], []⟩] }
  | beginTxn {framework : Framework} {t : Txn} {i : Instance} : s.txns[txn]? = some t →
      s.driver.instances[inst]? = some i → i.live = true → inst ∉ t.begun →
      (PushNotificationKafka.beginTxn env.dovecot i.ctx t.user ⟨s.refcount, t.events⟩).2 = framework →
      SessionEffect env registry s (.beginTxn txn inst) { s with
        refcount := framework.refcount
        txns := s.txns.set txn { t with events := framework.events, begun := inst :: t.begun }
        opened := if i.ctx.enabled then ⟨txn, inst, t.user⟩ :: s.opened else s.opened
        skipped := if i.ctx.enabled then s.skipped else t.user :: s.skipped }
  | process {before after : List Instance} {inst : Instance} {g : Global} {t : Txn} : dtxn ∈ s.opened →
      s.txns[dtxn.txn]? = some t → Producible registry t.events target →
      s.driver.instances = before ++ inst :: after → before.length = dtxn.inst → inst.live = true →
      s.driver.world.kafkaGlobal = some g →
      target.process env ⟨env.mailUser dtxn.user, inst.ctx⟩ ⟨g, s.driver.trace⟩ = (ctx, kafka) →
      SessionEffect env registry s (.process dtxn target) { s with
        driver := ⟨⟨some kafka.global, kafka.trace⟩, before ++ { inst with ctx } :: after⟩ }
  | endTxn : dtxn ∈ s.opened → SessionEffect env registry s (.endTxn dtxn) { s with
      refcount := (PushNotificationKafka.endTxn env.dovecot dtxn.user ⟨s.refcount, []⟩).refcount
      opened := s.opened.erase dtxn }

theorem session_effect (step : (sessions env registry before).step s op t) :
    SessionEffect env registry s op t := by
  obtain ⟨permitted, done⟩ := step
  cases op with
  | driver op =>
    obtain ⟨driver, ran, done⟩ := bind_ok done
    obtain rfl := Except.ok.inj done
    exact .driver permitted.1 permitted.2 ran
  | create user =>
    obtain rfl := Except.ok.inj done
    exact .create
  | beginTxn txn inst =>
    obtain ⟨live, unbegun⟩ := permitted
    obtain ⟨t, known, fresh⟩ := (Option.any_eq_true _ _).mp unbegun
    obtain ⟨i, found, live⟩ := (s.driver.liveAt_iff inst).mp live
    obtain ⟨begun, -⟩ := beginTxn_spec env.dovecot i.ctx t.user ⟨s.refcount, t.events⟩
    simp only [Session.exec, known, found, begun] at done
    obtain rfl := Except.ok.inj done
    exact .beginTxn known found live (of_decide_eq_true fresh) rfl
  | process dtxn target =>
    obtain ⟨opened, live, data⟩ := permitted
    obtain ⟨t, known, producible⟩ := (Option.any_eq_true _ _).mp data
    obtain ⟨driver, ran, done⟩ := bind_ok done
    obtain rfl := Except.ok.inj done
    obtain ⟨inst, found, live⟩ := (s.driver.liveAt_iff dtxn.inst).mp live
    obtain ⟨before, after, split, position, set⟩ := instance_split found
    obtain ⟨g, present⟩ := onInstance_global found ran
    rw [onInstance_eq found present, set] at ran
    obtain rfl := Except.ok.inj ran
    exact .process opened known (of_decide_eq_true producible) split position live present rfl
  | endTxn dtxn =>
    obtain rfl := Except.ok.inj done
    exact .endTxn permitted

theorem session_consistent (run : Run (sessions env registry before) ops s) : Consistent s.driver := by
  obtain ⟨matched, driven⟩ := (sessions_lifecycle env registry before).run run
  exact run_consistent driven

/-- Calls that give up handles, or wait. -/
def closes : Action → Bool
  | .topicDestroy _ | .poll _ _ | .flush _ _ | .destroy _ | .waitDestroyed _ => true
  | _ => false

/-- The calls of the operations that the framework makes itself. -/
def State.closing (s : State) : Op → List Action
  | .deinit i =>
    match s.world.kafkaGlobal, s.instances[i]? with
    | some g, some inst =>
      (g.rk.toList.map fun rk => .poll (some rk) g.topicCloseTimeInMs) ++
        inst.ctx.rkt.toList.map fun rkt => .topicDestroy (some rkt)
    | _, _ => []
  | .cleanup =>
    match s.world.kafkaGlobal with
    | some g =>
      if g.refcount ≤ 0 then
        g.rk.toList.flatMap fun rk =>
          [.flush (some rk) g.flushTimeInMs, .destroy (some rk), .waitDestroyed g.destroyTimeInMs]
      else []
    | none => []
  | _ => []

theorem State.closing_closes (s : State) (op : Op) : ∀ e ∈ s.closing op, closes e = true := by
  intro e member
  unfold State.closing at member
  split at member
  · split at member
    · rcases List.mem_append.mp member with polled | destroyed
      · obtain ⟨rk, -, rfl⟩ := List.mem_map.mp polled
        rfl
      · obtain ⟨rkt, -, rfl⟩ := List.mem_map.mp destroyed
        rfl
    · contradiction
  · split at member
    · split at member
      · obtain ⟨rk, -, shutdown⟩ := List.mem_flatMap.mp member
        simp only [List.mem_cons, List.not_mem_nil, or_false] at shutdown
        rcases shutdown with rfl | rfl | rfl <;> rfl
      · contradiction
    · contradiction
  · contradiction

theorem deinitTopic_trace (ctx : Context) (kafka : Kafka) :
    (deinitTopic ctx kafka).2.trace = kafka.trace ++
      ((kafka.global.rk.toList.map fun rk => .poll (some rk) kafka.global.topicCloseTimeInMs) ++
        ctx.rkt.toList.map fun rkt => .topicDestroy (some rkt)) := by
  unfold deinitTopic
  cases kafka.global.rk with
  | none => cases ctx.rkt <;> simp
  | some rk => cases ctx.rkt <;> simp

theorem deinit_trace {s t : State} (done : s.exec env (.deinit i) = .ok t) :
    t.trace = s.trace ++ s.closing (.deinit i) := by
  simp only [State.exec] at done
  split at done
  · rename_i absent
    obtain rfl := Except.ok.inj done
    have nothing : s.closing (.deinit i) = [] := by
      simp only [State.closing, absent]
      cases s.world.kafkaGlobal <;> rfl
    rw [nothing, List.append_nil]
  · rename_i inst found
    obtain ⟨⟨ctx, world⟩, ran, done⟩ := bind_ok done
    obtain ⟨⟨ctx', world'⟩, closed, ran⟩ := bind_ok ran
    obtain ⟨g, present, rfl, rfl⟩ := withGlobal_ok closed
    obtain rfl := Except.ok.inj done
    simp only at ran
    split at ran
    · obtain ⟨-, rfl⟩ := Prod.mk.inj (Except.ok.inj ran)
      simp only [State.closing, present, found]
      exact deinitTopic_trace inst.ctx ⟨g, s.world.trace⟩
    · contradiction

theorem cleanup_trace {s t : State} (done : s.exec env .cleanup = .ok t) :
    t.trace = s.trace ++ s.closing .cleanup := by
  obtain rfl := Except.ok.inj done
  simp only [State.trace, cleanup, State.closing]
  cases s.world.kafkaGlobal with
  | none => exact (List.append_nil _).symm
  | some g =>
    by_cases unused : g.refcount ≤ 0
    · simp only [if_pos unused, deinitGlobal_trace]
      cases g.rk <;> rfl
    · simp only [if_neg unused, List.append_nil]

theorem external_trace {s t : State} {op : Op} (external : op.external = true) (done : s.exec env op = .ok t) :
    t.trace = s.trace ++ s.closing op := by
  cases op with
  | init config user =>
    obtain rfl := Except.ok.inj done
    exact (List.append_nil _).symm
  | deinit i => exact deinit_trace done
  | cleanup => exact cleanup_trace done
  | initGlobal | initTopic | sendToKafka | deinitTopic => contradiction

theorem instance_at {instances before after : List Instance} {inst : Instance}
    (split : instances = before ++ inst :: after) (position : before.length = i) : instances[i]? = some inst := by
  rw [split, ← position, List.getElem?_append_right le_rfl, Nat.sub_self, List.getElem?_cons_zero]

/-- The same instance later: of its context only the topic handle can differ. -/
def Instance.SameOptions (inst inst' : Instance) : Prop :=
  inst'.user = inst.user ∧ inst'.ctx = { inst.ctx with rkt := inst'.ctx.rkt }

/-- Each instance of the first list is found in the second one, at its position and with
its options. -/
def KeepsOptions (instances instances' : List Instance) : Prop :=
  ∀ (i : Nat) (inst : Instance), instances[i]? = some inst → ∃ inst', instances'[i]? = some inst' ∧ inst.SameOptions inst'

theorem KeepsOptions.refl (instances : List Instance) : KeepsOptions instances instances :=
  fun _ inst found => ⟨inst, found, rfl, rfl⟩

theorem keepsOptions_replaced (before after : List Instance) {inst inst' : Instance}
    (same : inst.SameOptions inst') :
    KeepsOptions (before ++ inst :: after) (before ++ inst' :: after) := by
  intro i other found
  rcases lt_trichotomy i before.length with early | rfl | late
  · rw [List.getElem?_append_left early] at found ⊢
    exact ⟨other, found, rfl, rfl⟩
  · rw [List.getElem?_append_right le_rfl, Nat.sub_self] at found ⊢
    obtain rfl := Option.some.inj found
    exact ⟨inst', rfl, same⟩
  · obtain ⟨k, rfl⟩ : ∃ k, i = before.length + (k + 1) := ⟨i - before.length - 1, by omega⟩
    rw [List.getElem?_append_right (by omega), Nat.add_sub_cancel_left] at found ⊢
    exact ⟨other, found, rfl, rfl⟩

theorem Effect.keepsOptions (effect : Effect env s op t) : KeepsOptions s.instances t.instances := by
  cases effect with
  | init =>
    intro i inst found
    obtain ⟨bound, -⟩ := List.getElem?_eq_some_iff.mp found
    exact ⟨inst, (List.getElem?_append_left bound).trans found, rfl, rfl⟩
  | initGlobal | kept | cleanup => exact .refl _
  | onInstance _ split _ _ calls =>
    rw [split]
    exact keepsOptions_replaced _ _ ⟨rfl, calls.frame.1⟩
  | deinit _ split _ _ calls =>
    rw [split]
    exact keepsOptions_replaced _ _ ⟨rfl, calls.frame.1⟩

theorem process_calls (env : Env) (dtxn : DriverTxn) (target : Target) (kafka : Kafka) :
    Calls (dtxn.context, kafka) (target.process env dtxn kafka) := by
  have loop (renderings : List CStr) (state : Context × Kafka) :
      Calls state (renderings.foldl
        (fun state str => sendToKafka env state.1 str dtxn.user.username state.2) state) := by
    induction renderings generalizing state with
    | nil => exact .refl
    | cons str renderings ih => exact (sendToKafka_calls env state.1 str dtxn.user.username state.2).trans (ih _)
  rw [target.process_eq, processEvents_eq]
  exact loop _ _

theorem processed_calls {dtxn : DriverTxn} {target : Target}
    (processed : target.process env dtxn kafka = (ctx, kafka')) : Calls (dtxn.context, kafka) (ctx, kafka') := by
  rw [← processed]
  exact process_calls env dtxn target kafka

theorem SessionEffect.keepsOptions (effect : SessionEffect env registry s op t) :
    KeepsOptions s.driver.instances t.driver.instances := by
  cases effect with
  | driver _ permitted done => exact (exec_effect permitted done).keepsOptions
  | create | beginTxn | endTxn => exact .refl _
  | process _ _ _ split _ _ _ processed =>
    rw [split]
    exact keepsOptions_replaced _ _ ⟨rfl, (processed_calls processed).frame.1⟩

end PushNotificationKafka
