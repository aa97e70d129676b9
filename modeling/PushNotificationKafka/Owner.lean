import PushNotificationKafka.Coherence

/-! The owner of the global: the user of the `init` that made it. The global holds
no reference on its owner but reads the settings of the owner when the producer is
created, which can be long after. The owner is still there then if it was not left
without a live instance before. -/
namespace PushNotificationKafka
open Bytes Transition

/-- One of the instances of the user is live. -/
def LiveUser (instances : List Instance) (user : UserId) : Prop :=
  ∃ inst ∈ instances, inst.live = true ∧ inst.user = user

instance (instances : List Instance) (user : UserId) : Decidable (LiveUser instances user) :=
  inferInstanceAs (Decidable (∃ inst ∈ instances, _))

/-- In the step from `s` to `t` the settings are read of no user without a live
instance. -/
def ReadsSafely (s t : State) : Prop :=
  ∀ user, .readSettings user ∈ t.trace.drop s.trace.length → LiveUser s.instances user

/-- The operations that are called on the driver from outside. -/
def Op.callback : Op → Bool
  | .init _ _ | .sendToKafka _ _ _ | .deinit _ | .cleanup => true
  | .initGlobal | .initTopic _ | .deinitTopic _ => false

def callbacks (env : Env) : Machine State Op := (lifecycle env).restrict fun _ op => op.callback = true

/-- The user whose settings are read if the producer is created now. -/
def World.awaited (world : World) : Option UserId :=
  world.kafkaGlobal.bind fun g => if g.rk = none then g.user else none

theorem awaited_iff (world : World) (owner : UserId) :
    owner ∈ world.awaited ↔ ∃ g, world.kafkaGlobal = some g ∧ g.rk = none ∧ g.user = some owner := by
  simp [World.awaited, Option.mem_def, Option.bind_eq_some_iff]

/-- While the producer is missing, no `deinit` takes the last live instance of the
owner and leaves another user with one, and no `init` of another user finds a
global whose owner has none. -/
def KeepsOwner (s : State) : Op → Prop
  | .init _ user => ∀ owner ∈ s.world.awaited, user = owner ∨ LiveUser s.instances owner
  | .deinit i => ∀ owner ∈ s.world.awaited,
      LiveUser (s.instances.eraseIdx i) owner ∨ liveCount (s.instances.eraseIdx i) = 0
  | .initGlobal | .initTopic _ | .sendToKafka _ _ _ | .deinitTopic _ | .cleanup => True

instance : DecidableRel KeepsOwner
  | s, .init _ user => inferInstanceAs (Decidable (∀ owner ∈ s.world.awaited, user = owner ∨ _))
  | s, .deinit _ => inferInstanceAs (Decidable (∀ owner ∈ s.world.awaited, _ ∨ _))
  | _, .initGlobal | _, .initTopic _ | _, .sendToKafka _ _ _ | _, .deinitTopic _ | _, .cleanup =>
    isTrue trivial

/-- The invariant: while the producer is missing, the owner has a live instance if
anyone has. -/
def Attended (s : State) : Prop :=
  ∀ owner ∈ s.world.awaited, LiveUser s.instances owner ∨ liveCount s.instances = 0

/-- What calls from `start` lead to. They create the producer but never destroy it,
and read the settings of the owner at most, and only to create it. -/
structure ReadsOwner (start kafka : Kafka) : Prop where
  user : kafka.global.user = start.global.user
  missing : kafka.global.rk = none → start.global.rk = none
  reads : ∃ actions, kafka.trace = start.trace ++ actions ∧
    ∀ user, .readSettings user ∈ actions → start.global.rk = none ∧ start.global.user = some user

namespace ReadsOwner
variable {start kafka kafka' : Kafka}

theorem refl (start : Kafka) : ReadsOwner start start :=
  ⟨rfl, id, [], (List.append_nil _).symm, fun _ member => nomatch member⟩

theorem logs (reads : ReadsOwner start kafka) (user : kafka'.global.user = kafka.global.user)
    (missing : kafka'.global.rk = none → kafka.global.rk = none) (trace : kafka'.trace = kafka.trace ++ actions)
    (owner : ∀ user, .readSettings user ∈ actions → kafka.global.rk = none ∧ kafka.global.user = some user) :
    ReadsOwner start kafka' := by
  obtain ⟨same, created, earlier, split, early⟩ := reads
  refine ⟨user.trans same, fun none => created (missing none), earlier ++ actions, ?_, ?_⟩
  · rw [trace, split, List.append_assoc]
  · intro user member
    rcases List.mem_append.mp member with before | now
    · exact early user before
    · obtain ⟨none, found⟩ := owner user now
      exact ⟨created none, same ▸ found⟩

theorem initGlobal (reads : ReadsOwner start kafka) (effect : InitGlobal kafka rk kafka') :
    ReadsOwner start kafka' := by
  have owned {rkc : Conf} {events last : List Action} (missing : kafka.global.rk = none)
      (setup : Setup rkc kafka.global.user events) (others : ∀ user, .readSettings user ∉ last) :
      ∀ user, .readSettings user ∈ .confNew rkc :: (events ++ last) →
        kafka.global.rk = none ∧ kafka.global.user = some user := by
    intro user member
    rcases setup.mem member with first | early | late
    · contradiction
    · cases early with
      | readSettings found => exact ⟨missing, found⟩
    · exact absurd late (others user)
  cases effect with
  | ready => exact reads
  | refused missing _ setup => exact reads.logs rfl id rfl (owned missing setup (by simp))
  | failed missing _ setup => exact reads.logs rfl id rfl (owned missing setup (by simp))
  | created missing _ setup => exact reads.logs rfl (fun _ => missing) rfl (owned missing setup (by simp))

theorem call (reads : ReadsOwner start kafka) (call : Call (ctx, kafka) (ctx', kafka')) :
    ReadsOwner start kafka' := by
  cases call with
  | initGlobal _ effect => exact reads.initGlobal effect
  | topicNew | topicDestroy | produce | poll =>
    exact reads.logs rfl id rfl (fun user member => by simp at member)

theorem calls (calls : Calls (ctx, start) (ctx', kafka)) : ReadsOwner start kafka :=
  calls.preserve (P := fun s => ReadsOwner start s.2) (fun _ _ reads step => reads.call step) (refl start)

end ReadsOwner

theorem LiveUser.append (live : LiveUser instances user) (more : List Instance) :
    LiveUser (instances ++ more) user := by
  obtain ⟨inst, member, rest⟩ := live
  exact ⟨inst, List.mem_append_left _ member, rest⟩

/-- An instance that takes the place of another counts for its user if it is live. -/
theorem liveUser_split (before after : List Instance) (inst : Instance) (user : UserId) :
    LiveUser (before ++ inst :: after) user ↔
      (inst.live = true ∧ inst.user = user) ∨ LiveUser (before ++ after) user := by
  unfold LiveUser
  constructor
  · rintro ⟨found, member, live, same⟩
    rcases List.mem_append.mp member with early | member
    · exact .inr ⟨found, List.mem_append_left _ early, live, same⟩
    · rcases List.mem_cons.mp member with rfl | late
      · exact .inl ⟨live, same⟩
      · exact .inr ⟨found, List.mem_append_right _ late, live, same⟩
  · rintro (own | ⟨found, member, live, same⟩)
    · exact ⟨inst, by simp, own⟩
    · rcases List.mem_append.mp member with early | late
      · exact ⟨found, List.mem_append_left _ early, live, same⟩
      · exact ⟨found, List.mem_append_right _ (List.mem_cons_of_mem _ late), live, same⟩

theorem eraseIdx_split (before after : List Instance) (inst : Instance) :
    (before ++ inst :: after).eraseIdx before.length = before ++ after := by
  simp [List.eraseIdx_append_of_length_le]

theorem awaited_before {world : World} (calls : Calls (ctx, ⟨g, trace⟩) (ctx', kafka)) (present : world.kafkaGlobal = some g)
    (awaited : owner ∈ World.awaited ⟨some kafka.global, trace'⟩) : owner ∈ world.awaited := by
  have reads := ReadsOwner.calls calls
  obtain ⟨g', same, missing, owned⟩ := (awaited_iff _ _).mp awaited
  obtain rfl := Option.some.inj same
  exact (awaited_iff _ _).mpr ⟨g, present, reads.missing missing, reads.user.symm.trans owned⟩

theorem init_attended {g : Global} (keeps : KeepsOwner s (.init config user))
    (created : s.world.kafkaGlobal.getD (initKafkaGlobal env user) = g) :
    Attended ⟨⟨some { g with refcount := g.refcount + 1 }, s.world.trace⟩,
      s.instances ++ [⟨user, ctx, true⟩]⟩ := by
  intro owner awaited
  obtain ⟨g', same, missing, owned⟩ := (awaited_iff _ _).mp awaited
  obtain rfl := Option.some.inj same
  left
  have own : LiveUser (s.instances ++ [⟨user, ctx, true⟩]) user :=
    ⟨_, List.mem_append_right _ List.mem_cons_self, rfl, rfl⟩
  cases present : s.world.kafkaGlobal with
  | none =>
    rw [present] at created
    obtain rfl := created
    have first : some user = some owner := owned
    exact Option.some.inj first ▸ own
  | some g' =>
    rw [present] at created
    obtain rfl := created
    rcases keeps owner ((awaited_iff _ _).mpr ⟨g', present, missing, owned⟩) with rfl | live
    · exact own
    · exact live.append _

theorem Effect.attended (effect : Effect env s op t) (keeps : KeepsOwner s op) (attended : Attended s) :
    Attended t := by
  cases effect with
  | init created => exact init_attended keeps created
  | @initGlobal g rk kafka present effect =>
    cases missing : g.rk with
    | none =>
      have call : Call (idle, ⟨g, s.world.trace⟩) (idle, kafka) := .initGlobal missing effect
      exact fun owner awaited => attended owner (awaited_before (.single call) present awaited)
    | some rk =>
      cases effect with
      | ready =>
        have none : Calls (idle, ⟨g, s.world.trace⟩) (idle, ⟨g, s.world.trace⟩) := .refl
        exact fun owner awaited => attended owner (awaited_before none present awaited)
      | refused none | failed none | created none => exact absurd (none.symm.trans missing) nofun
  | @onInstance g ctx kafka _ before after inst present split live _ calls =>
    intro owner awaited
    have kept := attended owner (awaited_before calls present awaited)
    rw [split, liveUser_split, liveCount_live before after live] at kept
    rw [liveUser_split, liveCount_split]
    simpa [live] using kept
  | @deinit g i ctx kafka before after inst present split live position calls =>
    intro owner awaited
    have awaited : owner ∈ World.awaited ⟨some kafka.global, kafka.trace⟩ := awaited
    have others := keeps owner (awaited_before calls present awaited)
    rw [split, ← position, eraseIdx_split] at others
    have dead : ({ inst with ctx, live := false } : Instance).live = false := rfl
    rw [liveUser_split, liveCount_dead before after dead]
    exact others.imp .inr id
  | kept => exact attended
  | cleanup => exact fun owner awaited => nomatch awaited

/-- A callback reads the settings only of the owner, to create the producer, and on
behalf of a live instance. -/
theorem Effect.reads (effect : Effect env s op t) (callback : op.callback = true) :
    ∃ actions, t.trace = s.trace ++ actions ∧
      ∀ user, .readSettings user ∈ actions → user ∈ s.world.awaited ∧ 0 < liveCount s.instances := by
  cases effect with
  | init | kept => exact ⟨[], (List.append_nil _).symm, fun _ member => nomatch member⟩
  | initGlobal => contradiction
  | onInstance present split live _ calls | deinit present split live _ calls =>
    obtain ⟨-, -, actions, trace, owner⟩ := ReadsOwner.calls calls
    refine ⟨actions, trace, ?_⟩
    intro user member
    obtain ⟨missing, owned⟩ := owner user member
    refine ⟨(awaited_iff _ _).mpr ⟨_, present, missing, owned⟩, ?_⟩
    rw [split, liveCount_live _ _ live]
    omega
  | @cleanup g present =>
    refine ⟨_, deinitGlobal_trace _, ?_⟩
    intro user member
    cases found : g.rk <;> simp [found] at member

theorem run_attended (run : Run ((callbacks env).restrict KeepsOwner) ops s) : Attended s := by
  refine run.invariant ?_ ?_
  · rintro s rfl owner absent
    contradiction
  · rintro s op t attended ⟨keeps, -, permitted, done⟩
    exact (exec_effect permitted done).attended keeps attended

/-- After a run of callbacks that keep the owner, the next one reads the settings
only of a user with a live instance. -/
theorem reads_safely (run : Run ((callbacks env).restrict KeepsOwner) ops s)
    (step : (callbacks env).step s op t) : ReadsSafely s t := by
  obtain ⟨callback, permitted, done⟩ := step
  obtain ⟨actions, trace, owner⟩ := (exec_effect permitted done).reads callback
  intro user member
  rw [trace, List.drop_left] at member
  obtain ⟨awaited, used⟩ := owner user member
  rcases run_attended run user awaited with live | unused
  · exact live
  · omega

theorem reads_safely_life : ∃ s t, Run ((callbacks (Sample.env Sample.broker)).restrict KeepsOwner)
    [Sample.initUser Sample.user, Sample.initUser Sample.other, .deinit 1] s ∧
    (callbacks (Sample.env Sample.broker)).step s (Sample.send 0) t ∧
    .readSettings Sample.user ∈ t.trace ∧ ReadsSafely s t := by
  let guard := fun s op => KeepsOwner s op ∧ op.callback = true
  obtain ⟨s, t, run, ⟨-, step⟩, read⟩ : ∃ s t, Run ((lifecycle (Sample.env Sample.broker)).restrict guard)
      [Sample.initUser Sample.user, Sample.initUser Sample.other, .deinit 1] s ∧
      ((lifecycle (Sample.env Sample.broker)).restrict guard).step s (Sample.send 0) t ∧
      decide (.readSettings Sample.user ∈ t.trace) = true :=
    replay_reaches_step (State.next_sound _ guard) rfl _ (by decide +kernel)
  rw [← Machine.restrict_restrict] at run
  exact ⟨s, t, run, ⟨rfl, step⟩, of_decide_eq_true read, reads_safely run ⟨rfl, step⟩⟩

/-- The user of the first instance is gone when the second one sends. -/
theorem reads_unsafely : ∃ s t, Run (callbacks (Sample.env Sample.broker))
    [Sample.initUser Sample.user, Sample.initUser Sample.other, .deinit 0] s ∧
    (callbacks (Sample.env Sample.broker)).step s (Sample.send 1) t ∧ ¬ ReadsSafely s t := by
  obtain ⟨s, t, run, step, seen⟩ : ∃ s t, Run (callbacks (Sample.env Sample.broker))
      [Sample.initUser Sample.user, Sample.initUser Sample.other, .deinit 0] s ∧
      (callbacks (Sample.env Sample.broker)).step s (Sample.send 1) t ∧
      decide (.readSettings Sample.user ∈ t.trace.drop s.trace.length ∧
        ¬ LiveUser s.instances Sample.user) = true :=
    replay_reaches_step (State.next_sound _ _) rfl _ (by decide +kernel)
  obtain ⟨read, gone⟩ := of_decide_eq_true seen
  exact ⟨s, t, run, step, fun safe => gone (safe Sample.user read)⟩

theorem sendToKafka_extends (env : Env) (ctx : Context) (str username : CStr) (kafka : Kafka) :
    (initGlobal env kafka).2.trace <+: (sendToKafka env ctx str username kafka).2.trace := by
  have opened : (initGlobal env kafka).2.trace <+: (initTopic env ctx kafka).2.trace := by
    unfold initTopic
    split
    · rename_i rk kafka' made
      rw [made]
      split
      · exact List.prefix_append _ _
      · exact List.prefix_rfl
    · rename_i kafka' made
      rw [made]
  have sent : (initTopic env ctx kafka).2.trace <+: (sendToKafka env ctx str username kafka).2.trace := by
    unfold sendToKafka
    split
    rename_i ctx' kafka' made
    rw [made]
    cases opened : ctx'.rkt with
    | none => simp
    | some rkt =>
      have looped := (retryLoop_calls env opened str username 0 kafka').extends
      have polled := looped.trans (List.prefix_append _ [.poll (retryLoop env ctx' str username 0 kafka').global.rk 0])
      simpa [opened] using polled
  exact opened.trans sent

/-- The first send reads the settings of the owner. -/
theorem sendToKafka_reads (env : Env) (ctx : Context) (str username : CStr) (kafka : Kafka)
    (missing : kafka.global.rk = none) (owned : kafka.global.user = some owner) :
    .readSettings owner ∈ (sendToKafka env ctx str username kafka).2.trace.drop kafka.trace.length := by
  have reads : ∃ actions, (initGlobal env kafka).2.trace = kafka.trace ++ actions ∧
      .readSettings owner ∈ actions := by
    have effect := initGlobal_spec env kafka
    generalize (initGlobal env kafka).1 = rk, (initGlobal env kafka).2 = kafka' at effect
    cases effect with
    | ready present => exact absurd (missing.symm.trans present) nofun
    | refused _ _ setup | failed _ _ setup | created _ _ setup =>
      exact ⟨_, rfl, List.mem_cons_of_mem _ (List.mem_append_left _ (setup.reads owner owned))⟩
  obtain ⟨actions, trace, member⟩ := reads
  obtain ⟨more, rest⟩ := sendToKafka_extends env ctx str username kafka
  rw [← rest, trace, List.append_assoc, List.drop_left]
  exact List.mem_append_left _ member

/-- In a state that is not attended some instance is live, and a send by it reads the
settings of a user without one. -/
theorem unattended_reads (env : Env) (unattended : ¬ Attended s) :
    ∃ i, ∀ str username, ∃ t, (callbacks env).step s (.sendToKafka i str username) t ∧ ¬ ReadsSafely s t := by
  simp only [Attended, not_forall, not_or] at unattended
  obtain ⟨owner, awaited, gone, used⟩ := unattended
  obtain ⟨g, present, missing, owned⟩ := (awaited_iff _ _).mp awaited
  obtain ⟨inst, member, live⟩ := List.countP_pos_iff.mp (Nat.pos_of_ne_zero used)
  obtain ⟨i, found⟩ := List.getElem?_of_mem member
  refine ⟨i, fun str username => ⟨_, ⟨rfl, (s.liveAt_iff i).mpr ⟨inst, found, live⟩,
    onInstance_eq found present fun ctx => sendToKafka env ctx str username⟩, ?_⟩⟩
  intro safe
  exact gone (safe owner (sendToKafka_reads env inst.ctx str username ⟨g, s.world.trace⟩ missing owned))

/-- An operation that does not keep the owner leads to a state that is not attended. -/
theorem unkept_unattended (permitted : s.Permitted op) (done : s.exec env op = .ok t)
    (broken : ¬ KeepsOwner s op) : ¬ Attended t := by
  intro attended
  have effect := exec_effect permitted done
  cases effect with
  | @init user g config created =>
    simp only [KeepsOwner, not_forall, not_or] at broken
    obtain ⟨owner, awaited, different, gone⟩ := broken
    obtain ⟨g', present, missing, owned⟩ := (awaited_iff _ _).mp awaited
    rw [present] at created
    obtain rfl := created
    have awaited' : owner ∈ World.awaited ⟨some { g' with refcount := g'.refcount + 1 }, s.world.trace⟩ :=
      (awaited_iff _ _).mpr ⟨_, rfl, missing, owned⟩
    rcases attended owner awaited' with live | unused
    · rcases (liveUser_split s.instances [] _ owner).mp live with ⟨-, same⟩ | live
      · exact different same
      · exact gone (by simpa using live)
    · rw [liveCount_live s.instances [] rfl] at unused
      omega
  | @deinit g i ctx kafka before after inst present split live position calls _ _ same =>
    simp only [KeepsOwner, not_forall, not_or] at broken
    obtain ⟨owner, awaited, gone, others⟩ := broken
    obtain ⟨g', present', missing, owned⟩ := (awaited_iff _ _).mp awaited
    obtain rfl := Option.some.inj (present.symm.trans present')
    rw [split, ← position, eraseIdx_split] at gone others
    have awaited' : owner ∈ World.awaited
        ⟨some { kafka.global with refcount := kafka.global.refcount - 1 }, kafka.trace⟩ :=
      (awaited_iff _ _).mpr ⟨_, rfl, by rw [same]; exact missing, by rw [same]; exact owned⟩
    have dead : ({ inst with ctx, live := false } : Instance).live = false := rfl
    rcases attended owner awaited' with live' | unused
    · rcases (liveUser_split before after _ owner).mp live' with ⟨contrary, -⟩ | live'
      · contradiction
      · exact gone live'
    · rw [liveCount_dead before after dead] at unused
      exact others unused
  | onInstance _ _ _ works =>
    cases op with
    | initTopic | sendToKafka | deinitTopic => exact broken trivial
    | init | initGlobal | deinit | cleanup => contradiction
  | initGlobal | kept | cleanup => exact broken trivial

/-- After an operation that does not keep the owner, the next send can read the
settings of a user without a live instance. -/
theorem unkept_reads (step : (callbacks env).step s op t) (broken : ¬ KeepsOwner s op) :
    ∃ i, ∀ str username, ∃ u, (callbacks env).step t (.sendToKafka i str username) u ∧ ¬ ReadsSafely t u := by
  obtain ⟨-, permitted, done⟩ := step
  exact unattended_reads env (unkept_unattended permitted done broken)

end PushNotificationKafka
