import PushNotificationKafka.Calls
import PushNotificationKafka.Transition

/-! The driver over whole runs: instances of any number of users are initialised,
send, and are deinitialised in any order, and cleanup is called at any point. -/
namespace PushNotificationKafka
open Bytes Transition

/-- One driver instance of one user. It is live from its `init` to its `deinit`. -/
structure Instance where
  user : UserId
  ctx : Context
  live : Bool

structure State where
  world : World
  instances : List Instance

/-- What calls the driver. Instances are named by their position. -/
inductive Op where
  | init (config : DriverConfig) (user : UserId)
  | initGlobal
  | initTopic (i : Nat)
  | sendToKafka (i : Nat) (str username : CStr)
  | deinitTopic (i : Nat)
  | deinit (i : Nat)
  | cleanup

/-- The instance that an operation sends through. -/
def Op.worksOn : Op → Option Nat
  | .initTopic i | .sendToKafka i _ _ | .deinitTopic i => some i
  | .init _ _ | .initGlobal | .deinit _ | .cleanup => none

namespace State

def trace (s : State) : List Action := s.world.trace

/-- Before the first use. -/
def start : State := ⟨⟨none, []⟩, []⟩

def LiveAt (s : State) (i : Nat) : Prop := (s.instances[i]?).any Instance.live = true

theorem liveAt_iff (s : State) (i : Nat) :
    s.LiveAt i ↔ ∃ inst, s.instances[i]? = some inst ∧ inst.live = true := by
  unfold LiveAt
  cases s.instances[i]? <;> simp

/-- An instance is used only while it is live; `init_global` is called directly
only where `kafka_global` is not NULL. -/
def Permitted (s : State) : Op → Prop
  | .init _ _ | .cleanup => True
  | .initGlobal => s.world.kafkaGlobal ≠ none
  | .initTopic i | .sendToKafka i _ _ | .deinitTopic i | .deinit i => s.LiveAt i

instance (s : State) (i : Nat) : Decidable (s.LiveAt i) := inferInstanceAs (Decidable (_ = true))

instance (s : State) : (op : Op) → Decidable (s.Permitted op)
  | .init _ _ | .cleanup => isTrue trivial
  | .initGlobal => decidable_of_iff (s.world.kafkaGlobal.isSome = true) Option.isSome_iff_ne_none
  | .initTopic i | .sendToKafka i _ _ | .deinitTopic i | .deinit i =>
    inferInstanceAs (Decidable (s.LiveAt i))

/-- Runs a function of the driver on the context of an instance. -/
def onInstance (s : State) (i : Nat) (run : Context → Kafka → Context × Kafka) : Except Fault State :=
  match s.instances[i]? with
  | none => .ok s
  | some inst => do
    let (ctx, world) ← s.world.withGlobal (run inst.ctx)
    .ok ⟨world, s.instances.set i { inst with ctx }⟩

def exec (env : Env) (s : State) : Op → Except Fault State
  | .init config user =>
    let (ctx, world) := PushNotificationKafka.init env config user s.world
    .ok ⟨world, s.instances ++ [⟨user, ctx, true⟩]⟩
  | .initGlobal => do
    let (_, world) ← s.world.withGlobal (PushNotificationKafka.initGlobal env)
    .ok { s with world }
  | .initTopic i => s.onInstance i (PushNotificationKafka.initTopic env)
  | .sendToKafka i str username => s.onInstance i (fun ctx => PushNotificationKafka.sendToKafka env ctx str username)
  | .deinitTopic i => s.onInstance i PushNotificationKafka.deinitTopic
  | .deinit i =>
    match s.instances[i]? with
    | none => .ok s
    | some inst => do
      let (ctx, world) ← PushNotificationKafka.deinit inst.ctx s.world
      .ok ⟨world, s.instances.set i { inst with ctx, live := false }⟩
  | .cleanup => .ok { s with world := PushNotificationKafka.cleanup s.world }

end State

/-- The driver before its first use, and its permitted operations. -/
def lifecycle (env : Env) : Machine State Op where
  initial s := s = State.start
  step s op t := s.Permitted op ∧ s.exec env op = .ok t

/-- The next state where an operation meets the guard, is permitted and does not fault. -/
def State.next (env : Env) (guard : State → Op → Prop) [DecidableRel guard] (s : State) (op : Op) :
    Option State :=
  if guard s op ∧ s.Permitted op then (s.exec env op).toOption else none

theorem toOption_ok {result : Except ε α} (done : result.toOption = some a) : result = .ok a := by
  cases result with
  | error fault => contradiction
  | ok b => exact congrArg Except.ok (Option.some.inj done)

theorem State.next_sound (env : Env) (guard : State → Op → Prop) [DecidableRel guard] (s : State) (op : Op)
    (t : State) (stepped : s.next env guard op = some t) : ((lifecycle env).restrict guard).step s op t := by
  unfold State.next at stepped
  split at stepped
  · rename_i met
    exact ⟨met.1, met.2, toOption_ok stepped⟩
  · contradiction

/-- No guard. -/
abbrev anything : State → Op → Prop := fun _ _ => True

theorem lifecycle_reaches (check : State → Bool)
    (played : (replay (State.next env anything) ops State.start).any check = true) :
    ∃ s, Run (lifecycle env) ops s ∧ check s = true := by
  obtain ⟨s, run, passed⟩ := replay_reaches (m := (lifecycle env).restrict anything)
    (State.next_sound env anything) rfl check played
  exact ⟨s, run.of_restrict, passed⟩

/-- What an operation does where it does not fault. An operation on an instance
makes calls on its context; all other instances stay as they are. -/
inductive Effect (env : Env) (s : State) : Op → State → Prop where
  | init {g : Global} : s.world.kafkaGlobal.getD (initKafkaGlobal env user) = g →
      Effect env s (.init config user) ⟨⟨some { g with refcount := g.refcount + 1 }, s.world.trace⟩,
        s.instances ++ [⟨user, initContext env.dovecot config (env.mailUser user), true⟩]⟩
  | initGlobal : s.world.kafkaGlobal = some g → InitGlobal ⟨g, s.world.trace⟩ rk kafka →
      Effect env s .initGlobal ⟨⟨some kafka.global, kafka.trace⟩, s.instances⟩
  | onInstance {op : Op} {before after : List Instance} {inst : Instance} : s.world.kafkaGlobal = some g →
      s.instances = before ++ inst :: after → inst.live = true → op.worksOn = some before.length →
      Calls (inst.ctx, ⟨g, s.world.trace⟩) (ctx, kafka) →
      Effect env s op ⟨⟨some kafka.global, kafka.trace⟩, before ++ { inst with ctx } :: after⟩
  | deinit {before after : List Instance} {inst : Instance} : s.world.kafkaGlobal = some g →
      s.instances = before ++ inst :: after → inst.live = true → before.length = i →
      Calls (inst.ctx, ⟨g, s.world.trace⟩) (ctx, kafka) → ctx.rkt = none → 0 < kafka.global.refcount →
      kafka.global = g →
      Effect env s (.deinit i)
        ⟨⟨some { kafka.global with refcount := kafka.global.refcount - 1 }, kafka.trace⟩,
          before ++ { inst with ctx, live := false } :: after⟩
  | kept : (∀ g, s.world.kafkaGlobal = some g → 0 < g.refcount) → Effect env s .cleanup s
  | cleanup : s.world.kafkaGlobal = some g → g.refcount ≤ 0 →
      Effect env s .cleanup ⟨⟨none, (deinitGlobal ⟨g, s.world.trace⟩).trace⟩, s.instances⟩

section
variable {s t : State} {i : Nat}

theorem bind_ok {first : Except Fault α} {next : α → Except Fault β} (done : (first >>= next) = .ok b) :
    ∃ a, first = .ok a ∧ next a = .ok b := by
  cases first with
  | error fault => simp [Bind.bind, Except.bind] at done
  | ok a => exact ⟨a, rfl, done⟩

theorem withGlobal_ok {world world' : World} {run : Kafka → α × Kafka}
    (done : world.withGlobal run = .ok (a, world')) :
    ∃ g, world.kafkaGlobal = some g ∧ a = (run ⟨g, world.trace⟩).1 ∧
      world' = ⟨some (run ⟨g, world.trace⟩).2.global, (run ⟨g, world.trace⟩).2.trace⟩ := by
  unfold World.withGlobal at done
  split at done
  · contradiction
  · rename_i g found
    obtain ⟨result, same⟩ := Prod.mk.inj (Except.ok.inj done)
    exact ⟨g, found, result.symm, same.symm⟩

theorem instance_split {inst : Instance} (found : s.instances[i]? = some inst) :
    ∃ before after, s.instances = before ++ inst :: after ∧ before.length = i ∧
      ∀ inst', s.instances.set i inst' = before ++ inst' :: after := by
  obtain ⟨bound, same⟩ := List.getElem?_eq_some_iff.mp found
  refine ⟨s.instances.take i, s.instances.drop (i + 1), ?_, by simp; omega, ?_⟩
  · rw [← same, ← List.drop_eq_getElem_cons bound, List.take_append_drop]
  · intro inst'
    exact List.set_eq_take_append_cons_drop.trans (if_pos bound)

theorem deinitTopic_closed (ctx : Context) (kafka : Kafka) : (deinitTopic ctx kafka).1.rkt = none := by
  unfold deinitTopic
  by_cases opened : ctx.rkt = none
  · simp [opened]
  · simp [opened]

theorem deinitTopic_global (ctx : Context) (kafka : Kafka) : (deinitTopic ctx kafka).2.global = kafka.global := by
  unfold deinitTopic
  split <;> split <;> rfl

/-- What runs on an instance sees its context, the global and the trace. -/
theorem onInstance_eq {inst : Instance} (found : s.instances[i]? = some inst)
    (present : s.world.kafkaGlobal = some g) (run : Context → Kafka → Context × Kafka) :
    s.onInstance i run = .ok
      ⟨⟨some (run inst.ctx ⟨g, s.world.trace⟩).2.global, (run inst.ctx ⟨g, s.world.trace⟩).2.trace⟩,
        s.instances.set i { inst with ctx := (run inst.ctx ⟨g, s.world.trace⟩).1 }⟩ := by
  simp only [State.onInstance, found, World.withGlobal, present]
  rfl

theorem onInstance_global {run : Context → Kafka → Context × Kafka} {inst : Instance}
    (found : s.instances[i]? = some inst) (done : s.onInstance i run = .ok t) :
    ∃ g, s.world.kafkaGlobal = some g := by
  simp only [State.onInstance, found] at done
  obtain ⟨⟨ctx, world⟩, ran, -⟩ := bind_ok done
  obtain ⟨g, present, -⟩ := withGlobal_ok ran
  exact ⟨g, present⟩

theorem onInstance_effect {run : Context → Kafka → Context × Kafka} (live : s.LiveAt i)
    (done : s.onInstance i run = .ok t) (calls : ∀ ctx kafka, Calls (ctx, kafka) (run ctx kafka))
    (works : op.worksOn = some i) : Effect env s op t := by
  obtain ⟨inst, found, live⟩ := (s.liveAt_iff i).mp live
  obtain ⟨before, after, split, position, set⟩ := instance_split found
  obtain ⟨g, present⟩ := onInstance_global found done
  rw [onInstance_eq found present, set] at done
  obtain rfl := Except.ok.inj done
  exact .onInstance present split live (position ▸ works) (calls inst.ctx ⟨g, s.world.trace⟩)

theorem deinit_effect (live : s.LiveAt i) (done : s.exec env (.deinit i) = .ok t) :
    Effect env s (.deinit i) t := by
  obtain ⟨inst, found, live⟩ := (s.liveAt_iff i).mp live
  obtain ⟨before, after, split, position, set⟩ := instance_split found
  simp only [State.exec, found] at done
  obtain ⟨⟨ctx, world⟩, ran, done⟩ := bind_ok done
  obtain ⟨⟨ctx', world'⟩, closed, ran⟩ := bind_ok ran
  obtain ⟨g, present, rfl, rfl⟩ := withGlobal_ok closed
  obtain rfl := Except.ok.inj done
  simp only at ran
  split at ran
  · rename_i counted
    obtain ⟨rfl, rfl⟩ := Prod.mk.inj (Except.ok.inj ran)
    rw [set]
    exact .deinit present split live position (deinitTopic_calls _ _) (deinitTopic_closed _ _) counted
      (deinitTopic_global _ _)
  · contradiction

theorem exec_effect (permitted : s.Permitted op) (done : s.exec env op = .ok t) : Effect env s op t := by
  cases op with
  | init config user =>
    obtain rfl := Except.ok.inj done
    exact .init rfl
  | initGlobal =>
    obtain ⟨⟨rk, world⟩, ran, done⟩ := bind_ok done
    obtain ⟨g, present, rfl, rfl⟩ := withGlobal_ok ran
    obtain rfl := Except.ok.inj done
    exact .initGlobal present (initGlobal_spec env _)
  | initTopic i => exact onInstance_effect permitted done (initTopic_calls env) rfl
  | sendToKafka i str username =>
    have done : s.onInstance i (fun ctx => sendToKafka env ctx str username) = .ok t := done
    exact onInstance_effect permitted done (fun ctx => sendToKafka_calls env ctx str username) rfl
  | deinitTopic i => exact onInstance_effect permitted done deinitTopic_calls rfl
  | deinit i => exact deinit_effect permitted done
  | cleanup =>
    obtain rfl := Except.ok.inj done
    unfold cleanup
    split
    · rename_i g present
      split
      · rename_i unused
        exact .cleanup present unused
      · rename_i used
        apply Effect.kept
        intro g' present'
        obtain rfl := Option.some.inj (present.symm.trans present')
        omega
    · rename_i absent
      apply Effect.kept
      intro g present
      rw [absent] at present
      contradiction

end
end PushNotificationKafka
