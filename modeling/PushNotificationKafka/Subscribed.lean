import PushNotificationKafka.Feed
import PushNotificationKafka.Subscription

/-! The events of transactions in whole runs. However transactions and operations on
instances interleave, a transaction has just the events that the drivers begun for it have
subscribed, so that every event published is one that an enabled driver lists. -/
namespace PushNotificationKafka
open Bytes Transition

/-- What the instances have subscribed that have begun, the last one of which comes first. -/
def subscribedBy (registry : Registry) (instances : List Instance) (begun : List Nat) : List Subscription :=
  begun.reverse.flatMap fun i => (instances[i]?.map fun inst => subscriptions registry inst.ctx).getD []

structure Txn.Subscribed (registry : Registry) (instances : List Instance) (t : Txn) : Prop where
  begun : ∀ i ∈ t.begun, i < instances.length
  once : t.begun.Nodup
  events : t.events = subscribedBy registry instances t.begun

theorem Instance.SameOptions.subscriptions (same : Instance.SameOptions inst inst') (registry : Registry) :
    subscriptions registry inst'.ctx = PushNotificationKafka.subscriptions registry inst.ctx := by
  rw [same.2]
  rfl

namespace Txn.Subscribed
variable {registry : Registry} {instances instances' : List Instance} {t : Txn}

theorem keeps (subscribed : t.Subscribed registry instances) (kept : KeepsOptions instances instances') :
    t.Subscribed registry instances' := by
  refine ⟨?_, subscribed.once, subscribed.events.trans (List.flatMap_congr ?_)⟩
  · intro i member
    obtain ⟨_, found, -⟩ := kept i _ (List.getElem?_eq_getElem (subscribed.begun i member))
    exact (List.getElem?_eq_some_iff.mp found).1
  · intro i member
    have found := List.getElem?_eq_getElem (subscribed.begun i (List.mem_reverse.mp member))
    obtain ⟨inst', found', same⟩ := kept i _ found
    rw [found, found', Option.map_some, Option.map_some, same.subscriptions registry]

/-- One more driver begins. -/
theorem begin {inst : Instance} (subscribed : t.Subscribed registry instances)
    (found : instances[i]? = some inst) (fresh : i ∉ t.begun) :
    Txn.Subscribed registry instances
      { t with events := t.events ++ subscriptions registry inst.ctx, begun := i :: t.begun } := by
  refine ⟨?_, List.nodup_cons.mpr ⟨fresh, subscribed.once⟩, ?_⟩
  · intro j member
    rcases List.mem_cons.mp member with rfl | earlier
    · exact (List.getElem?_eq_some_iff.mp found).1
    · exact subscribed.begun j earlier
  · simp [subscribedBy, subscribed.events, found]

end Txn.Subscribed

theorem SessionEffect.subscribed (effect : SessionEffect env registry s op t)
    (adds : AddsKnown env.dovecot registry)
    (subscribed : ∀ txn ∈ s.txns, txn.Subscribed registry s.driver.instances) :
    ∀ txn ∈ t.txns, txn.Subscribed registry t.driver.instances := by
  have keeps := effect.keepsOptions
  cases effect with
  | driver | process | endTxn => exact fun txn member => (subscribed txn member).keeps keeps
  | create =>
    intro txn member
    rcases List.mem_append.mp member with early | late
    · exact subscribed txn early
    · rw [List.mem_singleton.mp late]
      exact ⟨by simp, .nil, rfl⟩
  | @beginTxn txn inst framework t i known found _ fresh begun =>
    have before := subscribed t (List.mem_of_getElem? known)
    have events := beginTxn_events adds i.ctx t.user ⟨s.refcount, t.events⟩
    rw [begun] at events
    intro txn' member
    rcases List.mem_or_eq_of_mem_set member with other | rfl
    · exact subscribed txn' other
    · rw [events]
      exact before.begin found fresh

theorem run_subscribed (run : Run (sessions env registry before) ops s)
    (adds : AddsKnown env.dovecot registry) :
    ∀ t ∈ s.txns, t.Subscribed registry s.driver.instances := by
  refine run.invariant (P := fun s => ∀ t ∈ s.txns, t.Subscribed registry s.driver.instances) ?_ ?_
  · rintro s rfl
    simp [Session.start]
  · exact fun s op t subscribed step => (session_effect step).subscribed adds subscribed

/-- In every run, each instance has begun a transaction at most once, and the events of the
transaction are those that these instances list, enabled as they are and as far as Dovecot
knows the events, in the order in which they began, and with the flags that both message
events need. -/
theorem sessions_subscribed (run : Run (sessions env registry before) ops s)
    (adds : AddsKnown env.dovecot registry) (member : t ∈ s.txns) :
    t.begun.Nodup ∧ t.events = subscribedBy registry s.driver.instances t.begun := by
  have subscribed := run_subscribed run adds t member
  exact ⟨subscribed.once, subscribed.events⟩

/-- One of the enabled instances lists the event, and Dovecot knows it. -/
def Listed (registry : Registry) (instances : List Instance) (event : CStr) : Prop :=
  registry.known event = true ∧
    ∃ (i : Nat) (inst : Instance), instances[i]? = some inst ∧ inst.ctx.enabled = true ∧
      event ∈ inst.ctx.events

theorem Listed.keeps (listed : Listed registry instances event) (kept : KeepsOptions instances instances') :
    Listed registry instances' event := by
  obtain ⟨known, i, inst, found, enabled, member⟩ := listed
  obtain ⟨inst', found', -, same⟩ := kept i inst found
  refine ⟨known, i, inst', found', ?_, ?_⟩
  · rw [same]
    exact enabled
  · rw [same]
    exact member

theorem Txn.Subscribed.listed (subscribed : Txn.Subscribed registry instances t)
    (member : event ∈ t.events.map Subscription.event) : Listed registry instances event := by
  obtain ⟨subscription, chosen, rfl⟩ := List.mem_map.mp member
  rw [subscribed.events] at chosen
  obtain ⟨i, begun, chosen⟩ := List.mem_flatMap.mp chosen
  have found := List.getElem?_eq_getElem (subscribed.begun i (List.mem_reverse.mp begun))
  rw [found, Option.map_some, Option.getD_some] at chosen
  obtain ⟨enabled, own, known⟩ := (mem_subscriptions ..).mp (List.mem_map_of_mem chosen)
  exact ⟨known, i, _, found, enabled, own⟩

theorem tell_event (profile : Profile) (dovecot : Dovecot) (news : News) (event : TxnEvent) :
    (profile.tell dovecot news event).event = news.event := by
  cases event <;> rfl

/-- News are named after their event. -/
theorem news_event {profile : Profile} {target : Target}
    (told : profile.news dovecot username target event = some news) : news.event = event.name := by
  cases target with
  | msg msg =>
    obtain rfl := Option.some.inj told
    exact tell_event ..
  | mbox mbox =>
    cases event with
    | mailboxcreate | mailboxrename =>
      obtain rfl := Option.some.inj told
      rfl
    | flagsset | flagsclear | messagenew | messageappend | other => contradiction

/-- What is offered is about events of the transaction. -/
theorem SessionEffect.listed (effect : SessionEffect env registry s op t) (legible : Legible env registry)
    (subscribed : ∀ txn ∈ s.txns, txn.Subscribed registry s.driver.instances)
    (reflected : Reflected s.driver.instances profiles) (member : r ∈ s.batch env op)
    (read : readNews r.payload = some news) : Listed registry s.driver.instances news.event := by
  cases effect with
  | driver | create | beginTxn | endTxn => exact (List.not_mem_nil member).elim
  | @process dtxn target ctx kafka before after inst g t _ known producible split position =>
    have found := instance_at split position
    obtain ⟨profile, -, reflects⟩ := reflected.get found
    simp only [Session.batch, found] at member
    obtain ⟨p, listed, rfl⟩ := List.mem_map.mp member
    obtain ⟨str, rendered, rfl⟩ := List.mem_map.mp listed
    obtain ⟨event, given, rendered⟩ := List.mem_filterMap.mp rendered
    have told := render_read ⟨env.mailUser dtxn.user, inst.ctx⟩ legible.escapes legible.dates reflects
      target (producible.named legible event given)
    rw [rendered, Option.map_some, read] at told
    split at told
    · rw [news_event (Option.some.inj told).symm]
      exact (subscribed t (List.mem_of_getElem? known)).listed (producible event given).1
    · contradiction

/-- In every run, each message that a consumer can read is about an event that Dovecot knows
and that one of the enabled drivers lists. -/
theorem sessions_listed (run : Run (sessions env registry before) ops s) (legible : Legible env registry)
    (adds : AddsKnown env.dovecot registry) (member : r ∈ published s.driver.trace)
    (read : r.notice.news = some news) :
    Listed registry s.driver.instances news.event := by
  have all : ∀ r ∈ published s.driver.trace, ∀ news, readNews r.payload = some news →
      Listed registry s.driver.instances news.event := by
    refine run.reachable_invariant (P := fun s => ∀ r ∈ published s.driver.trace, ∀ news,
      readNews r.payload = some news → Listed registry s.driver.instances news.event) ?_ ?_
    · rintro s rfl r member
      exact (List.not_mem_nil member).elim
    · intro before s op t run listed step r member news read
      have effect := session_effect step
      obtain ⟨actions, kept, -, taken, part, -⟩ := session_publishes run step
      have told := run_told run legible
      rw [taken] at member
      rcases List.mem_append.mp member with early | late
      · exact (listed r early news read).keeps effect.keepsOptions
      · have own := effect.listed legible (run_subscribed run adds) told.reflected (part.mem late) read
        exact own.keeps effect.keepsOptions
  exact all r member news read

namespace Sample

/-- Two drivers with other events each begin the same transaction. -/
def sharing : List SessionOp :=
  [.driver (initUser user), .driver (.init expungeConfig user), .create user, .beginTxn 0 1, .beginTxn 0 0]

/-- What the second driver subscribes before the first. -/
def shared : List CStr :=
  [flagsclearName, flagssetName] ++ [flagsclearName, flagssetName, mailboxcreateName, lit "MailboxDelete",
    mailboxrenameName, messageappendName, messagenewName]

end Sample

theorem sessions_subscribed_sharing : ∃ s t,
    Run (sessions Sample.carolEnv Sample.registry fun _ => 1) Sample.sharing s ∧ t ∈ s.txns ∧
    t.events.map Subscription.event = Sample.shared ∧
    t.begun.Nodup ∧ t.events = subscribedBy Sample.registry s.driver.instances t.begun := by
  obtain ⟨s, run, checked⟩ : ∃ s, Run (sessions Sample.carolEnv Sample.registry fun _ => 1) Sample.sharing s ∧
      (s.txns.any fun t => decide (t.events.map Subscription.event = Sample.shared)) = true :=
    replay_reaches (Session.next_sound _ _ _) rfl _ (by decide +kernel)
  obtain ⟨t, member, events⟩ := List.any_eq_true.mp checked
  exact ⟨s, t, run, member, of_decide_eq_true events, sessions_subscribed run Sample.dovecot_adds member⟩

theorem sessions_listed_tidying : ∃ s r,
    Run (sessions Sample.carolEnv Sample.registry fun _ => 1) Sample.tidying s ∧
    r ∈ published s.driver.trace ∧ r.notice.news = some Sample.created ∧
    Listed Sample.registry s.driver.instances mailboxcreateName := by
  obtain ⟨s, run, succeed⟩ := Sample.tidying_runs
  obtain ⟨r, member, read⟩ := Sample.tidying_created run succeed
  exact ⟨s, r, run, member, read, sessions_listed run Sample.carolEnv_legible Sample.dovecot_adds member read⟩

end PushNotificationKafka
