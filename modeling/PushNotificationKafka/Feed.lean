import PushNotificationKafka.News
import PushNotificationKafka.Publication

/-! What a consumer gets to know from a whole run, told by the operations of the framework
alone: the options of the drivers and the events they are given to process. The driver
with librdkafka below it and a reader behind it is a lossy implementation of this. -/
namespace PushNotificationKafka
open Bytes Json Transition

/-- What is assumed of Dovecot: it escapes strings for JSON, cuts options at their commas, and
prints dates and names its events in plain characters. -/
structure Legible (env : Env) (registry : Registry) : Prop where
  escapes : Escapes env.dovecot.jsonAppendEscaped
  splits : SplitsAtCommas env.dovecot.pStrsplit
  dates : ∀ tm tz, Plain (env.dovecot.iso8601DateCreateTm tm tz)
  names : ∀ name, registry.known name = true → Plain name

/-- A record as a consumer sees it. -/
structure Notice where
  topic : CStr
  key : CStr
  news : Option News
deriving DecidableEq

def Record.notice (r : Record) : Notice := ⟨r.topic, r.key, readNews r.payload⟩

/-- The profiles of the drivers that have been made, and what they have to tell. -/
structure Feed where
  profiles : List Profile
  notices : List Notice

namespace Feed

def offers (env : Env) (feed : Feed) : SessionOp → List Notice
  | .process dtxn target =>
    match feed.profiles[dtxn.inst]? with
    | some profile =>
      let username := (env.mailUser dtxn.user).username
      (profile.posts env.dovecot username target).map (⟨profile.topic, username, ·⟩)
    | none => []
  | .driver _ | .create _ | .beginTxn _ _ | .endTxn _ => []

def subscribers (env : Env) (feed : Feed) : SessionOp → List Profile
  | .driver (.init config user) => feed.profiles ++ [profileOf config (env.mailUser user)]
  | _ => feed.profiles

def step (env : Env) (feed : Feed) (op : SessionOp) : Feed :=
  ⟨feed.subscribers env op, feed.notices ++ feed.offers env op⟩

end Feed

def feedOf (env : Env) (ops : List SessionOp) : Feed := ops.foldl (Feed.step env) ⟨[], []⟩

theorem feedOf_snoc (env : Env) (ops : List SessionOp) (op : SessionOp) :
    feedOf env (ops ++ [op]) = (feedOf env ops).step env op := by
  simp [feedOf]

/-- The instances have the options of the profiles, one by one. -/
structure Reflected (instances : List Instance) (profiles : List Profile) : Prop where
  length : profiles.length = instances.length
  options : ∀ (i : Nat) (inst : Instance) (profile : Profile), instances[i]? = some inst →
    profiles[i]? = some profile → Reflects profile inst.ctx

namespace Reflected
variable {instances instances' : List Instance} {profiles : List Profile} {inst : Instance}
  {profile : Profile} {i : Nat}

theorem get (reflected : Reflected instances profiles) (found : instances[i]? = some inst) :
    ∃ profile, profiles[i]? = some profile ∧ Reflects profile inst.ctx := by
  obtain ⟨bound, -⟩ := List.getElem?_eq_some_iff.mp found
  rw [← reflected.length] at bound
  have listed : profiles[i]? = some profiles[i] := List.getElem?_eq_getElem bound
  exact ⟨_, listed, reflected.options i inst _ found listed⟩

theorem keeps (reflected : Reflected instances profiles) (kept : KeepsOptions instances instances')
    (length : instances'.length = instances.length) : Reflected instances' profiles := by
  refine ⟨reflected.length.trans length.symm, ?_⟩
  intro i inst' profile found' listed
  obtain ⟨bound, -⟩ := List.getElem?_eq_some_iff.mp found'
  rw [length] at bound
  have found : instances[i]? = some instances[i] := List.getElem?_eq_getElem bound
  obtain ⟨later, same, -, options⟩ := kept i _ found
  obtain rfl := Option.some.inj (found'.symm.trans same)
  have before := reflected.options i _ profile found listed
  rw [options]
  exact ⟨before.topic, before.renderCtx, before.userdb⟩

theorem init (reflected : Reflected instances profiles) (own : Reflects profile inst.ctx) :
    Reflected (instances ++ [inst]) (profiles ++ [profile]) := by
  have length := reflected.length
  refine ⟨by simp [length], ?_⟩
  intro i inst' profile' found listed
  rcases Nat.lt_or_ge i instances.length with early | late
  · rw [List.getElem?_append_left early] at found
    rw [List.getElem?_append_left (length ▸ early)] at listed
    exact reflected.options i inst' profile' found listed
  · rw [List.getElem?_append_right late] at found
    rw [List.getElem?_append_right (length ▸ late), length] at listed
    rw [List.getElem?_singleton] at found listed
    split at found
    · obtain rfl := Option.some.inj found
      rename_i last
      rw [if_pos last] at listed
      obtain rfl := Option.some.inj listed
      exact own
    · contradiction

end Reflected

section
variable {env : Env} {registry : Registry} {feed : Feed}

theorem Effect.reflected (effect : Effect env s op t) (legible : Legible env registry)
    (reflected : Reflected s.instances feed.profiles) :
    Reflected t.instances (feed.subscribers env (.driver op)) := by
  have keeps := effect.keepsOptions
  cases effect with
  | @init user config => exact reflected.init (init_reflects legible.escapes legible.splits config (env.mailUser user))
  | initGlobal | kept | cleanup => exact reflected
  | onInstance _ split _ works =>
    have same := reflected.keeps keeps (by simp [split])
    cases op with
    | init => contradiction
    | initGlobal | initTopic | sendToKafka | deinitTopic | deinit | cleanup => exact same
  | deinit _ split => exact reflected.keeps keeps (by simp [split])

theorem SessionEffect.reflected (effect : SessionEffect env registry s op t) (legible : Legible env registry)
    (reflected : Reflected s.driver.instances feed.profiles) :
    Reflected t.driver.instances (feed.subscribers env op) := by
  have keeps := effect.keepsOptions
  cases effect with
  | driver _ permitted done => exact (exec_effect permitted done).reflected legible reflected
  | create | beginTxn | endTxn => exact reflected
  | process _ _ _ split => exact reflected.keeps keeps (by simp [split])

/-- Drivers are given events that Dovecot knows. -/
theorem Producible.named (producible : Producible registry events target) (legible : Legible env registry) :
    ∀ event ∈ target.eventdata.getD [], Plain event.name := by
  intro event member
  apply legible.names
  have triggers := (producible event member).2
  unfold Registry.triggers at triggers
  split at triggers
  · exact Bool.or_eq_true_iff.mpr (.inl triggers)
  · exact Bool.or_eq_true_iff.mpr (.inr triggers)

theorem recordsOf_notice (topic username : CStr) (renderings : List CStr) :
    (recordsOf topic (renderings.map fun str => (str, username))).map Record.notice =
      (renderings.map readNews).map (⟨topic, username, ·⟩) := by
  simp [recordsOf, Record.notice]

/-- What an operation offers to publish is what the feed offers to tell. -/
theorem SessionEffect.offers (effect : SessionEffect env registry s op t) (legible : Legible env registry)
    (reflected : Reflected s.driver.instances feed.profiles) :
    (s.batch env op).map Record.notice = feed.offers env op := by
  cases effect with
  | driver | create | beginTxn | endTxn => rfl
  | @process dtxn target ctx kafka before after inst g t _ _ producible split position =>
    have found := instance_at split position
    obtain ⟨profile, listed, reflects⟩ := reflected.get found
    have posts := posts_read ⟨env.mailUser dtxn.user, inst.ctx⟩ legible.escapes legible.dates
      reflects target (producible.named legible)
    simp only [Session.batch, Feed.offers, found, listed, messages]
    rw [recordsOf_notice, posts, reflects.topic]

/-- A text that is JSON at all is an object whose members stand in the order of the keys. -/
def Ordered (text : CStr) : Prop :=
  ∀ v, decode text = some v → ∃ ms, v = .obj ms ∧ (ms.map Prod.fst).Sublist (Key.order.map Key.name)

theorem messages_ordered (dtxn : DriverTxn) (legible : Legible env registry)
    (reflects : Reflects profile dtxn.context)
    (named : ∀ event ∈ target.eventdata.getD [], Plain event.name)
    (member : p ∈ messages env.dovecot dtxn target) : Ordered p.1 := by
  obtain ⟨str, listed, rfl⟩ := List.mem_map.mp member
  obtain ⟨event, given, rendered⟩ := List.mem_filterMap.mp listed
  intro v decoded
  rcases render_decode legible.escapes legible.dates reflects (named event given) rendered with
    ⟨value, whole, -⟩ | ⟨broken, -⟩
  · obtain rfl := Option.some.inj (whole.symm.trans decoded)
    exact ⟨_, rfl, Fields.members_names ..⟩
  · rw [broken] at decoded
    contradiction

theorem SessionEffect.ordered (effect : SessionEffect env registry s op t) (legible : Legible env registry)
    (reflected : Reflected s.driver.instances profiles) (member : r ∈ s.batch env op) :
    Ordered r.payload := by
  cases effect with
  | driver | create | beginTxn | endTxn => exact (List.not_mem_nil member).elim
  | @process dtxn target ctx kafka before after inst g t _ _ producible split position =>
    have found := instance_at split position
    obtain ⟨profile, -, reflects⟩ := reflected.get found
    simp only [Session.batch, found] at member
    obtain ⟨p, listed, rfl⟩ := List.mem_map.mp member
    exact messages_ordered ⟨env.mailUser dtxn.user, inst.ctx⟩ legible reflects
      (producible.named legible) listed

/-- A run has told a part of its feed, in the order of the feed, and all of it where no
call has failed. -/
structure Told (env : Env) (feed : Feed) (s : Session) : Prop where
  reflected : Reflected s.driver.instances feed.profiles
  part : ((published s.driver.trace).map Record.notice).Sublist feed.notices
  whole : (∀ e ∈ s.driver.trace, fails e = false) →
    (published s.driver.trace).map Record.notice = feed.notices
  ordered : ∀ r ∈ published s.driver.trace, Ordered r.payload

theorem Told.step (told : Told env feed s) (run : Run (sessions env registry before) ops s)
    (step : (sessions env registry before).step s op t) (legible : Legible env registry) :
    Told env (feed.step env op) t := by
  have effect := session_effect step
  have offers := effect.offers legible told.reflected
  obtain ⟨actions, kept, trace, taken, part, whole⟩ := session_publishes run step
  refine ⟨effect.reflected legible told.reflected, ?_, ?_, ?_⟩
  · rw [taken, List.map_append, Feed.step, ← offers]
    exact told.part.append (part.map _)
  · intro succeed
    rw [trace] at succeed
    rw [taken, List.map_append, Feed.step, ← offers,
      told.whole fun e member => succeed e (List.mem_append_left _ member),
      whole fun e member => succeed e (List.mem_append_right _ member)]
  · intro r member
    rw [taken] at member
    rcases List.mem_append.mp member with early | late
    · exact told.ordered r early
    · exact effect.ordered legible told.reflected (part.mem late)

theorem run_told (run : Run (sessions env registry before) ops s) (legible : Legible env registry) :
    Told env (feedOf env ops) s := by
  induction run with
  | start initial =>
    obtain rfl := initial
    have none : published (Session.start before).driver.trace = [] := rfl
    exact ⟨⟨rfl, by simp [feedOf]⟩, .slnil, fun _ => rfl, by simp [none]⟩
  | next before step ih =>
    rw [feedOf_snoc]
    exact ih.step before step legible

/-- In every run under the framework a consumer that reads the topics gets to know nothing
but what the options of the drivers and the events given to them say, in that order; and if
no call of librdkafka fails it gets to know all of it. -/
theorem sessions_told (run : Run (sessions env registry before) ops s) (legible : Legible env registry) :
    ((published s.driver.trace).map Record.notice).Sublist (feedOf env ops).notices ∧
      ((∀ e ∈ s.driver.trace, fails e = false) →
        (published s.driver.trace).map Record.notice = (feedOf env ops).notices) := by
  have told := run_told run legible
  exact ⟨told.part, told.whole⟩

/-- In every run, what is published is no JSON, or an object whose members stand in the
documented order and none of them twice. -/
theorem sessions_ordered (run : Run (sessions env registry before) ops s) (legible : Legible env registry)
    (member : r ∈ published s.driver.trace) (decoded : decode r.payload = some v) :
    ∃ ms, v = .obj ms ∧ (ms.map Prod.fst).Sublist (Key.order.map Key.name) ∧ (ms.map Prod.fst).Nodup := by
  obtain ⟨ms, same, ordered⟩ := (run_told run legible).ordered r member v decoded
  exact ⟨ms, same, ordered, Key.distinct.sublist ordered⟩

end

namespace Sample

theorem carolEnv_legible : Legible carolEnv registry where
  escapes := escape_escapes
  splits := dovecot_splits
  dates := by
    have date : Plain (lit "2018-07-11T08:59:24+00:00") := by decide
    exact fun _ _ => date
  names := by
    intro name known
    have events : ∀ name ∈ payloadNames ++ [lit "MailboxDelete"], Plain name := by decide
    apply events
    simp only [Registry.known, registry, Bool.or_eq_true, decide_eq_true_eq, List.mem_cons, List.not_mem_nil,
      or_false] at known
    rcases known with (rfl | rfl | rfl | rfl) | (rfl | rfl | rfl) <;> decide

/-- A message, and a mailbox that is deleted and created. -/
def tidying : List SessionOp :=
  [.driver (.init userdbConfig2 user), .create user, .beginTxn 0 0,
    .process ⟨0, 0, user⟩ (.msg (msg [flagsclear])),
    .process ⟨0, 0, user⟩ (.mbox (mbox [mailboxdelete, mailboxcreate]))]

def seenCleared : News where
  user := lit "alice"
  userdb := [(lit "k1", lit "v1")]
  mailbox := lit "INBOX"
  event := flagsclearName
  uidvalidity := some 1531299564
  uid := some 13
  flags := mailSeen
  oldFlags := mailSeen ||| mailFlagged
  keywords := [lit "$label1"]

def created : News where
  user := lit "alice"
  mailbox := lit "INBOX/old"
  event := mailboxcreateName
  uidvalidity := some 1531299564

theorem tidying_runs : ∃ s, Run (sessions carolEnv registry fun _ => 1) tidying s ∧
    ∀ e ∈ s.driver.trace, fails e = false := by
  obtain ⟨s, run, checked⟩ : ∃ s, Run (sessions carolEnv registry fun _ => 1) tidying s ∧
      (s.driver.trace.all fun e => !fails e) = true :=
    replay_reaches (Session.next_sound _ _ _) rfl _ (by decide +kernel)
  refine ⟨s, run, fun e member => ?_⟩
  simpa using List.all_eq_true.mp checked e member

theorem tidying_news :
    (feedOf carolEnv tidying).notices.map Notice.news = [some seenCleared, none, some created] := by
  decide +kernel

theorem tidying_created (run : Run (sessions carolEnv registry fun _ => 1) tidying s)
    (succeed : ∀ e ∈ s.driver.trace, fails e = false) :
    ∃ r ∈ PushNotificationKafka.published s.driver.trace, r.notice.news = some created := by
  have told := congrArg (List.map Notice.news) ((run_told run carolEnv_legible).whole succeed)
  have listed : some created ∈ [some seenCleared, none, some created] := by simp
  rw [List.map_map, tidying_news] at told
  rw [← told] at listed
  exact List.mem_map.mp listed

end Sample

theorem sessions_told_tidying : ∃ s,
    Run (sessions Sample.carolEnv Sample.registry fun _ => 1) Sample.tidying s ∧
    (published s.driver.trace).map (fun r => r.notice.news) =
      [some Sample.seenCleared, none, some Sample.created] := by
  obtain ⟨s, run, succeed⟩ := Sample.tidying_runs
  have all := (sessions_told run Sample.carolEnv_legible).2 succeed
  have news := congrArg (List.map Notice.news) all
  rw [List.map_map, Sample.tidying_news] at news
  exact ⟨s, run, news⟩

theorem sessions_ordered_tidying : ∃ s r v,
    Run (sessions Sample.carolEnv Sample.registry fun _ => 1) Sample.tidying s ∧
    r ∈ published s.driver.trace ∧ decode r.payload = some v ∧
    ∃ ms, v = .obj ms ∧ (ms.map Prod.fst).Sublist (Key.order.map Key.name) ∧ (ms.map Prod.fst).Nodup := by
  obtain ⟨s, run, succeed⟩ := Sample.tidying_runs
  obtain ⟨r, member, read⟩ := Sample.tidying_created run succeed
  obtain ⟨ms, decoded⟩ := readNews_decodes read
  exact ⟨s, r, .obj ms, run, member, decoded, sessions_ordered run Sample.carolEnv_legible member decoded⟩

end PushNotificationKafka
