import PushNotificationKafka.Coherence
import PushNotificationKafka.Delivery

/-! The driver as the framework runs it: transactions of any number of users begin,
are processed and end in any order between the operations on driver instances. A
driver transaction takes a reference on its user. -/
namespace PushNotificationKafka
open Bytes Transition

/-- What triggers the events of a target. -/
def Registry.triggers (registry : Registry) (target : Target) (event : CStr) : Bool :=
  if target.isMsg then registry.message event else registry.mailbox event

/-- The event data that a transaction with these events can give to its drivers. -/
def Producible (registry : Registry) (events : List Subscription) (target : Target) : Prop :=
  ∀ event ∈ target.eventdata.getD [],
    event.name ∈ events.map Subscription.event ∧ registry.triggers target event.name = true

instance (registry : Registry) (events : List Subscription) (target : Target) :
    Decidable (Producible registry events target) :=
  inferInstanceAs (Decidable (∀ event ∈ target.eventdata.getD [], _ ∧ _))

/-- A transaction with the instances that `begin_txn` has been called for. -/
structure Txn where
  user : UserId
  events : List Subscription
  begun : List Nat

/-- A driver transaction between a `begin_txn` that returned TRUE and its `end_txn`. -/
structure OpenTxn where
  txn : Nat
  inst : Nat
  user : UserId
deriving DecidableEq

structure Session where
  driver : State
  refcount : UserId → Int
  txns : List Txn
  opened : List OpenTxn
  /-- The user of each `begin_txn` that was called for a disabled context. -/
  skipped : List UserId

inductive SessionOp where
  | driver (op : Op)
  | create (user : UserId)
  | beginTxn (txn inst : Nat)
  | process (dtxn : OpenTxn) (target : Target)
  | endTxn (dtxn : OpenTxn)

/-- The operations on instances that the framework makes itself. -/
def Op.external : Op → Bool
  | .init _ _ | .deinit _ | .cleanup => true
  | .initGlobal | .initTopic _ | .sendToKafka _ _ _ | .deinitTopic _ => false

namespace Session

def start (before : UserId → Int) : Session := ⟨State.start, before, [], [], []⟩

/-- `begin_txn` is called once for a transaction and a live instance, everything
else only for open driver transactions. -/
def Permitted (registry : Registry) (s : Session) : SessionOp → Prop
  | .driver op => op.external = true ∧ s.driver.Permitted op
  | .create _ => True
  | .beginTxn txn inst => s.driver.LiveAt inst ∧ (s.txns[txn]?).any (fun t => inst ∉ t.begun) = true
  | .process dtxn target => dtxn ∈ s.opened ∧ s.driver.LiveAt dtxn.inst ∧
      (s.txns[dtxn.txn]?).any (fun t => Producible registry t.events target) = true
  | .endTxn dtxn => dtxn ∈ s.opened

instance (registry : Registry) (s : Session) : (op : SessionOp) → Decidable (s.Permitted registry op)
  | .driver _ | .beginTxn _ _ => inferInstanceAs (Decidable (_ ∧ _))
  | .create _ => isTrue trivial
  | .process _ _ => inferInstanceAs (Decidable (_ ∧ _ ∧ _))
  | .endTxn _ => inferInstanceAs (Decidable (_ ∈ _))

def exec (env : Env) (s : Session) : SessionOp → Except Fault Session
  | .driver op => do
    let driver ← s.driver.exec env op
    .ok { s with driver }
  | .create user => .ok { s with txns := s.txns ++ [⟨user, [], []⟩] }
  | .beginTxn txn inst =>
    match s.txns[txn]?, s.driver.instances[inst]? with
    | some t, some i =>
      let (begun, framework) := PushNotificationKafka.beginTxn env.dovecot i.ctx t.user ⟨s.refcount, t.events⟩
      .ok { s with
        refcount := framework.refcount
        txns := s.txns.set txn { t with events := framework.events, begun := inst :: t.begun }
        opened := if begun then ⟨txn, inst, t.user⟩ :: s.opened else s.opened
        skipped := if i.ctx.enabled then s.skipped else t.user :: s.skipped }
    | _, _ => .ok s
  | .process dtxn target => do
    let driver ← s.driver.onInstance dtxn.inst fun ctx =>
      target.process env ⟨env.mailUser dtxn.user, ctx⟩
    .ok { s with driver }
  | .endTxn dtxn =>
    .ok { s with
      refcount := (PushNotificationKafka.endTxn env.dovecot dtxn.user ⟨s.refcount, []⟩).refcount
      opened := s.opened.erase dtxn }

end Session

/-- The driver under the framework, from the references that users have before. -/
def sessions (env : Env) (registry : Registry) (before : UserId → Int) : Machine Session SessionOp where
  initial s := s = Session.start before
  step s op t := s.Permitted registry op ∧ s.exec env op = .ok t

/-- The open driver transactions of a user. -/
def Session.openCount (s : Session) (user : UserId) : Nat := s.opened.countP fun dtxn => dtxn.user = user

/-- The driver holds as many references on each user as the user has open driver
transactions, and none after the last one. -/
structure Balanced (before : UserId → Int) (s : Session) : Prop where
  held : ∀ user, s.refcount user - before user = s.openCount user
  finished : s.opened = [] → s.refcount = before

/-- `begin_txn` takes a reference whatever it returns. -/
theorem beginTxn_spec (dovecot : Dovecot) (ctx : Context) (user : UserId) (framework : Framework) :
    (beginTxn dovecot ctx user framework).1 = ctx.enabled ∧
      (beginTxn dovecot ctx user framework).2.refcount = dovecot.mailUserRef user framework.refcount := by
  unfold beginTxn
  split
  · rename_i enabled
    exact ⟨enabled.symm, rfl⟩
  · rename_i disabled
    exact ⟨(Bool.eq_false_of_not_eq_true disabled).symm, rfl⟩

/-- The invariant: a reference is held for each open driver transaction and for
each disabled context that was asked. -/
def Referenced (before : UserId → Int) (s : Session) : Prop :=
  ∀ user, s.refcount user = before user + s.openCount user + s.skipped.count user

theorem openCount_cons (dtxn : OpenTxn) (opened : List OpenTxn) (user : UserId) :
    (dtxn :: opened).countP (fun d => d.user = user) =
      opened.countP (fun d => d.user = user) + if dtxn.user = user then 1 else 0 := by
  simp [List.countP_cons]

theorem beginTxn_referenced (counts : CountsReferences env.dovecot) (referenced : Referenced before s)
    (done : s.exec env (.beginTxn txn inst) = .ok t) : Referenced before t := by
  simp only [Session.exec] at done
  split at done
  · rename_i found i present live
    obtain ⟨begun, refcount⟩ := beginTxn_spec env.dovecot i.ctx found.user ⟨s.refcount, found.events⟩
    obtain rfl := Except.ok.inj done
    intro user
    have held := referenced user
    simp only [Session.openCount] at held ⊢
    rw [begun, refcount, counts.ref]
    cases enabled : i.ctx.enabled with
    | true =>
      simp only [if_true, openCount_cons]
      push_cast
      omega
    | false =>
      simp only [Bool.false_eq_true, if_false, List.count_cons, beq_iff_eq]
      push_cast
      omega
  · obtain rfl := Except.ok.inj done
    exact referenced

theorem endTxn_referenced (counts : CountsReferences env.dovecot) (referenced : Referenced before s)
    (opened : dtxn ∈ s.opened) (done : s.exec env (.endTxn dtxn) = .ok t) : Referenced before t := by
  obtain rfl := Except.ok.inj done
  intro user
  have held := referenced user
  have apart := (List.perm_cons_erase opened).countP_eq (fun d => d.user = user)
  rw [openCount_cons] at apart
  simp only [Session.openCount, endTxn, counts.unref] at held ⊢
  rw [held, apart]
  push_cast
  omega

theorem exec_referenced (counts : CountsReferences env.dovecot) (referenced : Referenced before s)
    (permitted : s.Permitted registry op) (done : s.exec env op = .ok t) : Referenced before t := by
  cases op with
  | driver op =>
    obtain ⟨driver, -, done⟩ := bind_ok done
    obtain rfl := Except.ok.inj done
    exact referenced
  | create user =>
    obtain rfl := Except.ok.inj done
    exact referenced
  | beginTxn txn inst => exact beginTxn_referenced counts referenced done
  | process dtxn target =>
    obtain ⟨driver, -, done⟩ := bind_ok done
    obtain rfl := Except.ok.inj done
    exact referenced
  | endTxn dtxn => exact endTxn_referenced counts referenced permitted done

theorem run_referenced (run : Run (sessions env registry before) ops s)
    (counts : CountsReferences env.dovecot) : Referenced before s := by
  refine run.invariant ?_ ?_
  · rintro s rfl user
    simp [Session.start, Session.openCount]
  · rintro s op t referenced ⟨permitted, done⟩
    exact exec_referenced counts referenced permitted done

/-- In every state of every run, the references are balanced when and only when
`begin_txn` has not been called for a disabled context. -/
theorem balanced_iff (run : Run (sessions env registry before) ops s) (counts : CountsReferences env.dovecot) :
    Balanced before s ↔ s.skipped = [] := by
  have referenced := run_referenced run counts
  constructor
  · intro balanced
    apply List.eq_nil_iff_forall_not_mem.mpr
    intro user skipped
    have counted := List.count_pos_iff.mpr skipped
    have held := balanced.held user
    have all := referenced user
    omega
  · intro none
    have held (user : UserId) : s.refcount user = before user + s.openCount user := by
      have all := referenced user
      simpa [none] using all
    constructor
    · intro user
      rw [held user]
      omega
    · intro ended
      funext user
      simpa [Session.openCount, ended] using held user

/-- The next state where an operation is permitted and does not fault. -/
def Session.next (env : Env) (registry : Registry) (s : Session) (op : SessionOp) : Option Session :=
  if s.Permitted registry op then (s.exec env op).toOption else none

theorem Session.next_sound (env : Env) (registry : Registry) (before : UserId → Int) (s : Session)
    (op : SessionOp) (t : Session) (stepped : s.next env registry op = some t) :
    (sessions env registry before).step s op t := by
  unfold Session.next at stepped
  split at stepped
  · rename_i permitted
    exact ⟨permitted, toOption_ok stepped⟩
  · contradiction

namespace Sample

/-- A driver URL whose feature the user has not switched on. -/
def featureConfig : DriverConfig := fun key => if key = lit "feature" then some (lit "push") else none

/-- A transaction of one driver with one message. -/
def delivery : List SessionOp :=
  [.driver (initUser user), .create user, .beginTxn 0 0,
    .process ⟨0, 0, user⟩ (.msg (msg [flagsclear])), .endTxn ⟨0, 0, user⟩]

end Sample

theorem balanced_iff_delivery : ∃ s, Run (sessions (Sample.env Sample.broker) Sample.registry fun _ => 1)
    Sample.delivery s ∧ (enqueued s.driver.trace).length = 1 ∧ Balanced (fun _ => 1) s := by
  obtain ⟨s, run, checked⟩ : ∃ s, Run (sessions (Sample.env Sample.broker) Sample.registry fun _ => 1)
      Sample.delivery s ∧ decide ((enqueued s.driver.trace).length = 1 ∧ s.skipped = []) = true :=
    replay_reaches (Session.next_sound _ _ _) rfl _ (by decide +kernel)
  obtain ⟨sent, none⟩ := of_decide_eq_true checked
  exact ⟨s, run, sent, (balanced_iff run Sample.dovecot_counts).mpr none⟩

/-- The reference taken for a disabled context stays. -/
theorem unbalanced : ∃ s, Run (sessions (Sample.env Sample.broker) Sample.registry fun _ => 1)
    [.driver (.init Sample.featureConfig Sample.user), .create Sample.user, .beginTxn 0 0] s ∧
    s.opened = [] ∧ ¬ Balanced (fun _ => 1) s := by
  obtain ⟨s, run, checked⟩ : ∃ s, Run (sessions (Sample.env Sample.broker) Sample.registry fun _ => 1)
      [.driver (.init Sample.featureConfig Sample.user), .create Sample.user, .beginTxn 0 0] s ∧
      decide (s.opened = [] ∧ s.refcount Sample.user = 2) = true :=
    replay_reaches (Session.next_sound _ _ _) rfl _ (by decide +kernel)
  obtain ⟨ended, leaked⟩ := of_decide_eq_true checked
  refine ⟨s, run, ended, ?_⟩
  intro balanced
  rw [balanced.finished ended] at leaked
  contradiction

theorem onInstance_sends (env : Env) (username : CStr) (renderings : List CStr) (live : State.LiveAt s i)
    (done : s.onInstance i (fun ctx kafka =>
      renderings.foldl (fun state str => sendToKafka env state.1 str username state.2) (ctx, kafka)) = .ok t) :
    Run.Steps (lifecycle env) s (renderings.map fun str => .sendToKafka i str username) t := by
  induction renderings generalizing s with
  | nil =>
    obtain ⟨inst, found, -⟩ := (s.liveAt_iff i).mp live
    obtain ⟨g, present⟩ := onInstance_global found done
    obtain ⟨before, after, split, -, set⟩ := instance_split found
    rw [onInstance_eq found present, List.foldl_nil, set, ← split, ← present] at done
    obtain rfl := Except.ok.inj done
    exact .refl
  | cons str renderings ih =>
    obtain ⟨inst, found, active⟩ := (s.liveAt_iff i).mp live
    obtain ⟨g, present⟩ := onInstance_global found done
    rw [onInstance_eq found present] at done
    obtain ⟨bound, -⟩ := List.getElem?_eq_some_iff.mp found
    refine .next ⟨live, onInstance_eq found present fun ctx => sendToKafka env ctx str username⟩ (ih ?_ ?_)
    · exact (State.liveAt_iff _ i).mpr ⟨_, List.getElem?_set_self bound, active⟩
    · rw [onInstance_eq (List.getElem?_set_self bound) rfl]
      simpa using done

/-- The callbacks of a driver transaction send the renderings one after the other. -/
theorem process_sends (env : Env) (user : MailUser) (target : Target) (live : State.LiveAt s i)
    (done : s.onInstance i (fun ctx => target.process env ⟨user, ctx⟩) = .ok t) :
    ∃ labels, Run.Steps (lifecycle env) s labels t := by
  obtain ⟨inst, found, -⟩ := (s.liveAt_iff i).mp live
  obtain ⟨g, present⟩ := onInstance_global found done
  let renderings := (target.eventdata.getD []).filterMap (target.render env.dovecot ⟨user, inst.ctx⟩)
  refine ⟨_, onInstance_sends env user.username renderings live ?_⟩
  rw [onInstance_eq found present, target.process_eq, processEvents_eq] at done
  rw [onInstance_eq found present]
  exact done

/-- The state of the driver in a session is that of a run of operations on
instances. -/
theorem sessions_lifecycle (env : Env) (registry : Registry) (before : UserId → Int) :
    Simulation (sessions env registry before) (lifecycle env) Session.driver := by
  constructor
  · rintro s rfl
    rfl
  · rintro s op t ⟨permitted, done⟩
    cases op with
    | driver op =>
      obtain ⟨driver, ran, done⟩ := bind_ok done
      obtain rfl := Except.ok.inj done
      exact ⟨[op], .next ⟨permitted.2, ran⟩ .refl⟩
    | process dtxn target =>
      obtain ⟨driver, ran, done⟩ := bind_ok done
      obtain rfl := Except.ok.inj done
      exact process_sends env _ target permitted.2.1 ran
    | beginTxn txn inst =>
      simp only [Session.exec] at done
      split at done <;> obtain rfl := Except.ok.inj done <;> exact ⟨[], .refl⟩
    | create | endTxn =>
      obtain rfl := Except.ok.inj done
      exact ⟨[], .refl⟩

/-- What holds of the driver holds of it under the framework. -/
theorem session_guarantees (run : Run (sessions env registry before) ops s) : Guarantees env s.driver := by
  obtain ⟨matched, run⟩ := (sessions_lifecycle env registry before).run run
  exact (run_consistent run).guarantees env

end PushNotificationKafka
