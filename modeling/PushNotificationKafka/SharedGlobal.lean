import PushNotificationKafka.Coherence
import PushNotificationKafka.Tenancy

/-! `kafka_global` as what it is meant to be: a tenure of the user that the first instance
was initialised for. But for the two handles of librdkafka, it is a function of the calls
of init, deinit and cleanup alone. -/
namespace PushNotificationKafka
open Bytes Transition

def Op.request : Op → Option (Tenancy.Request UserId)
  | .init _ user => some (.acquire user)
  | .deinit _ => some .release
  | .cleanup => some .reclaim
  | .initGlobal | .initTopic _ | .sendToKafka _ _ _ | .deinitTopic _ => none

def requests (ops : List Op) : List (Tenancy.Request UserId) := ops.filterMap Op.request

/-- The global without its handles. -/
def Global.settings (g : Global) : Global := { g with rkc := none, rk := none }

/-- The global of a tenure: the settings of its owner, and a reference for each user. -/
def tenureGlobal (env : Env) (tenure : Tenancy.Tenure UserId) : Global :=
  { initKafkaGlobal env tenure.owner with refcount := tenure.users }

/-- The global is there for the tenure, with its settings. -/
def Tenant (env : Env) (world : World) (tenure : Option (Tenancy.Tenure UserId)) : Prop :=
  world.kafkaGlobal.map Global.settings = tenure.map (tenureGlobal env)

theorem Tenant.vacant (tenant : Tenant env world tenure) (absent : world.kafkaGlobal = none) : tenure = none := by
  rw [Tenant, absent] at tenant
  exact Option.map_eq_none_iff.mp tenant.symm

theorem Tenant.held (tenant : Tenant env world tenure) (present : world.kafkaGlobal = some g) :
    ∃ held, tenure = some held ∧ g.settings = tenureGlobal env held := by
  rw [Tenant, present] at tenant
  obtain ⟨held, found, same⟩ := Option.map_eq_some_iff.mp tenant.symm
  exact ⟨held, found, same.symm⟩

theorem tenureGlobal_refcount {g : Global} (same : g.settings = tenureGlobal env held) : g.refcount = held.users :=
  congrArg Global.refcount same

/-- The global of a tenure, with another number of references. -/
theorem tenureGlobal_counts {g : Global} (same : g.settings = tenureGlobal env held) {count : Int}
    {users : Nat} (counts : count = users) :
    ({ g with refcount := count } : Global).settings = tenureGlobal env { held with users } := by
  have counted : ({ g with refcount := count } : Global).settings = { g.settings with refcount := count } := rfl
  rw [counted, same, counts]
  rfl

/-- A function of the driver that keeps all but the handles. -/
theorem Tenant.kept (tenant : Tenant env world tenure) (present : world.kafkaGlobal = some g)
    (same : g'.settings = g.settings) : Tenant env ⟨some g', trace⟩ tenure := by
  obtain ⟨held, rfl, settings⟩ := tenant.held present
  exact congrArg some (same.trans settings)

/-- `init` takes a reference, and sets the global up if there is none. -/
theorem Tenant.acquire (tenant : Tenant env world tenure)
    (created : world.kafkaGlobal.getD (initKafkaGlobal env user) = g) :
    Tenant env ⟨some { g with refcount := g.refcount + 1 }, trace⟩ (Tenancy.step tenure (.acquire user)) := by
  cases present : world.kafkaGlobal with
  | none =>
    obtain rfl := tenant.vacant present
    rw [present] at created
    obtain rfl := created
    rfl
  | some g' =>
    obtain ⟨held, rfl, settings⟩ := tenant.held present
    rw [present, Option.getD_some] at created
    obtain rfl := created
    have more : g'.refcount + 1 = (held.users + 1 : Nat) := by
      rw [tenureGlobal_refcount settings]
      rfl
    exact congrArg some (tenureGlobal_counts settings more)

/-- `deinit` gives a reference back. -/
theorem Tenant.release (tenant : Tenant env world tenure) (present : world.kafkaGlobal = some g)
    (used : 0 < g.refcount) :
    Tenant env ⟨some { g with refcount := g.refcount - 1 }, trace⟩ (Tenancy.step tenure .release) := by
  obtain ⟨held, rfl, settings⟩ := tenant.held present
  have users := tenureGlobal_refcount settings
  have fewer : g.refcount - 1 = (held.users - 1 : Nat) := by omega
  exact congrArg some (tenureGlobal_counts settings fewer)

/-- `cleanup` leaves a global in use alone. -/
theorem Tenant.reclaim_used (tenant : Tenant env world tenure)
    (used : ∀ g, world.kafkaGlobal = some g → 0 < g.refcount) : Tenancy.step tenure .reclaim = tenure := by
  cases present : world.kafkaGlobal with
  | none =>
    obtain rfl := tenant.vacant present
    rfl
  | some g =>
    obtain ⟨held, rfl, settings⟩ := tenant.held present
    have users := tenureGlobal_refcount settings
    have busy := used g present
    exact if_neg (by omega)

/-- `cleanup` frees a global that nobody uses. -/
theorem Tenant.reclaim_unused (tenant : Tenant env world tenure) (present : world.kafkaGlobal = some g)
    (unused : g.refcount ≤ 0) : Tenancy.step tenure .reclaim = none := by
  obtain ⟨held, rfl, settings⟩ := tenant.held present
  have users := tenureGlobal_refcount settings
  exact if_pos (by omega)

theorem settings_calls (calls : Calls (ctx, kafka) (ctx', kafka')) :
    kafka'.global.settings = kafka.global.settings := by
  have frame := calls.frame.2
  rw [frame]
  rfl

theorem Effect.tenant (effect : Effect env s op t) (tenant : Tenant env s.world tenure) :
    Tenant env t.world (op.request.toList.foldl Tenancy.step tenure) := by
  cases effect with
  | init created => exact tenant.acquire created
  | initGlobal present effect =>
    refine tenant.kept present ?_
    cases effect <;> rfl
  | @onInstance g ctx kafka op _ _ _ present _ _ works calls =>
    have quiet : op.request = none := by cases op <;> first | rfl | contradiction
    rw [quiet]
    exact tenant.kept present (settings_calls calls)
  | deinit present _ _ _ _ _ counts same =>
    rw [← same] at present
    exact tenant.release present counts
  | kept used =>
    have stays := tenant.reclaim_used used
    simpa only [Op.request, Option.toList_some, List.foldl_cons, List.foldl_nil, stays] using tenant
  | cleanup present unused =>
    have gone := tenant.reclaim_unused present unused
    simp only [Op.request, Option.toList_some, List.foldl_cons, List.foldl_nil, gone]
    rfl

theorem run_tenant (run : Run (lifecycle env) ops s) : Tenant env s.world (Tenancy.after (requests ops)) := by
  induction run with
  | start initial =>
    obtain rfl := initial
    rfl
  | @next ops s op t run step ih =>
    have effect := exec_effect step.1 step.2
    have tenant := effect.tenant ih
    have more : Tenancy.after (requests (ops ++ [op])) =
        op.request.toList.foldl Tenancy.step (Tenancy.after (requests ops)) := by
      simp only [Tenancy.after, requests, List.filterMap_append, List.foldl_append]
      cases op <;> rfl
    rwa [more]

theorem requests_split (split : requests ops = first ++ .acquire user :: last) :
    ∃ before config rest, ops = before ++ .init config user :: rest ∧ requests before = first ∧
      requests rest = last := by
  obtain ⟨before, tail, rfl, early, late⟩ := List.filterMap_eq_append_iff.mp split
  obtain ⟨idle, op, rest, rfl, silent, found, later⟩ := List.filterMap_eq_cons_iff.mp late
  cases op with
  | init config user' =>
    obtain rfl := Tenancy.Request.acquire.inj (Option.some.inj found)
    refine ⟨before ++ idle, config, rest, by simp, ?_, later⟩
    have quiet : requests idle = [] := List.filterMap_eq_nil_iff.mpr silent
    have both : requests (before ++ idle) = requests before ++ requests idle := List.filterMap_append
    rw [both, quiet, List.append_nil]
    exact early
  | deinit | cleanup => cases found
  | initGlobal | initTopic | sendToKafka | deinitTopic => contradiction

/-- The settings of the global are those of this user, and it counts references. -/
def SettingsOf (env : Env) (user : UserId) (g : Global) : Prop :=
  g.settings = { initKafkaGlobal env user with refcount := g.refcount }

theorem settingsOf_owner {g : Global} (same : g.settings = tenureGlobal env held) :
    SettingsOf env held.owner g := by
  rw [SettingsOf, same, tenureGlobal_refcount same]
  rfl

/-- In every run the global is, but for its handles, that of the tenure of the calls of
init, deinit and cleanup: the settings are those of the first user who was initialised when
there was no global, and they stay until a cleanup that finds no reference. -/
theorem run_settings (run : Run (lifecycle env) ops s) :
    Tenant env s.world (Tenancy.after (requests ops)) ∧
      ∀ g, s.world.kafkaGlobal = some g → ∃ before config user rest,
        ops = before ++ .init config user :: rest ∧ SettingsOf env user g ∧
        (∀ u, Run (lifecycle env) before u → u.world.kafkaGlobal = none) ∧
        ∀ first last u, rest = first ++ last → Run (lifecycle env) (before ++ .init config user :: first) u →
          ∃ g', u.world.kafkaGlobal = some g' ∧ SettingsOf env user g' := by
  refine ⟨run_tenant run, ?_⟩
  intro g present
  obtain ⟨tenure, held, same⟩ := (run_tenant run).held present
  obtain ⟨earlier, later, split, vacant, kept⟩ := Tenancy.owner_first held
  obtain ⟨before, config, rest, rfl, rfl, rfl⟩ := requests_split split
  refine ⟨before, config, tenure.owner, rest, rfl, settingsOf_owner same, ?_, ?_⟩
  · intro u run
    have tenant := run_tenant run
    rw [vacant] at tenant
    exact Option.map_eq_none_iff.mp tenant
  · rintro first last u rfl run
    have both : requests (first ++ last) = requests first ++ requests last := List.filterMap_append
    obtain ⟨tenure', held', owner⟩ := kept (requests first) (requests last) both
    have calls : requests (before ++ .init config tenure.owner :: first) =
        requests before ++ .acquire tenure.owner :: requests first := by
      simp [requests, Op.request]
    have tenant := run_tenant run
    rw [calls, held'] at tenant
    obtain ⟨g', present', same'⟩ := Option.map_eq_some_iff.mp tenant
    exact ⟨g', present', owner ▸ settingsOf_owner same'⟩

namespace Sample

/-- A user with brokers of its own. -/
def withBrokers (brokers : CStr) : MailUser :=
  { alice with getenv := fun name =>
      if name = lit "kafka.notification.kafka_brokers" then some brokers else none }

def tenantEnv : Env :=
  { env broker with mailUser := fun user => withBrokers (if user.id = 1 then lit "one" else lit "two") }

/-- The second user comes while the first one has the global, and again after a cleanup. -/
def twoTenures : List Op :=
  [initUser ⟨1⟩, initUser ⟨2⟩, .deinit 0, send 1, .deinit 1, .cleanup, initUser ⟨2⟩, initUser ⟨1⟩]

end Sample

theorem run_settings_two : ∃ s g, Run (lifecycle Sample.tenantEnv) Sample.twoTenures s ∧
    s.world.kafkaGlobal = some g ∧ g.brokers = lit "two" ∧
    Tenant Sample.tenantEnv s.world (Tenancy.after (requests Sample.twoTenures)) := by
  obtain ⟨s, run, checked⟩ : ∃ s, Run (lifecycle Sample.tenantEnv) Sample.twoTenures s ∧
      (s.world.kafkaGlobal.any fun g => g.brokers == lit "two") = true := lifecycle_reaches _ (by decide +kernel)
  obtain ⟨g, present, brokers⟩ := (Option.any_eq_true _ _).mp checked
  exact ⟨s, g, run, present, eq_of_beq brokers, (run_settings run).1⟩

end PushNotificationKafka
