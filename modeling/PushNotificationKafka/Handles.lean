import PushNotificationKafka.Coherence

/-! Validity of the handles that librdkafka is called with. It rests on the
producer: a `rd_kafka_new` that fails is followed by `rd_kafka_set_log_level` on a
NULL handle, and nothing else goes wrong. -/
namespace PushNotificationKafka
open Transition Ledger

/-- Every producer and every topic handle that a call takes has been created and
not been destroyed. -/
structure HandlesValid (trace : List Action) : Prop where
  producer : producers.Safe trace
  topic : topics.Safe trace

def NeverFailed (trace : List Action) : Prop := ∀ rkc, Action.new rkc none ∉ trace

theorem neverFailed_iff (trace : List Action) : NeverFailed trace ↔ ∀ e ∈ trace, failsNew e = false := by
  constructor
  · intro never e member
    cases e with
    | new rkc result =>
      cases result with
      | none => exact absurd member (never rkc)
      | some rk => rfl
    | _ => rfl
  · intro all rkc member
    have contrary := all _ member
    simp [failsNew] at contrary

instance (trace : List Action) : Decidable (NeverFailed trace) := decidable_of_iff' _ (neverFailed_iff trace)

theorem NeverFailed.of_prefix (never : NeverFailed last) (earlier : first <+: last) : NeverFailed first :=
  fun rkc member => never rkc (earlier.subset member)

namespace HandlesValid
variable {trace : List Action} {e : Action}

theorem nil : HandlesValid [] := ⟨Always.nil, Always.nil⟩

theorem log (valid : HandlesValid trace) (producer : producers.Valid trace e) (topic : topics.Valid trace e) :
    HandlesValid (trace ++ [e]) :=
  ⟨Always.snoc_iff.mpr ⟨valid.producer, producer⟩, Always.snoc_iff.mpr ⟨valid.topic, topic⟩⟩

/-- Actions that take no handle. -/
theorem logs (valid : HandlesValid trace)
    (free : ∀ e ∈ actions, producers.uses e = none ∧ topics.uses e = none) :
    HandlesValid (trace ++ actions) :=
  ⟨valid.producer.append fun e member before => producers.valid_free (free e member).1 before,
    valid.topic.append fun e member before => topics.valid_free (free e member).2 before⟩

/-- An action on the producer, and on no topic. -/
theorem log_producer (valid : HandlesValid trace) (coherent : Coherent held (some rk) trace)
    (used : producers.uses e = some (some rk)) (free : topics.uses e = none) :
    HandlesValid (trace ++ [e]) := by
  refine valid.log ?_ (topics.valid_free free trace)
  refine (producers.valid_iff used).mpr ⟨rk, ?_, rfl⟩
  rw [coherent.producer]
  exact List.mem_singleton_self rk

/-- An action on a topic that is held, and on no producer. -/
theorem log_topic (valid : HandlesValid trace) (coherent : Coherent held own trace) (member : rkt ∈ held)
    (used : topics.uses e = some (some rkt)) (free : producers.uses e = none) :
    HandlesValid (trace ++ [e]) := by
  apply valid.log (producers.valid_free free trace)
  exact (topics.valid_iff used).mpr ⟨rkt, coherent.handles.mem_iff.mpr member, rfl⟩

theorem configured (valid : HandlesValid trace) (setup : Setup rkc user events) :
    HandlesValid (trace ++ .confNew rkc :: events) := by
  apply valid.logs
  intro e member
  rcases List.mem_cons.mp member with rfl | member
  · exact ⟨rfl, rfl⟩
  · cases setup.configures e member <;> exact ⟨rfl, rfl⟩

theorem initGlobal (valid : HandlesValid kafka.trace) (coherent : Coherent held kafka.global.rk kafka.trace)
    (effect : InitGlobal kafka result kafka') (never : NeverFailed kafka'.trace) :
    HandlesValid kafka'.trace := by
  cases effect with
  | ready => exact valid
  | @refused rkc events site name value missing _ setup required =>
    have last : ∀ e ∈ [Action.confSet site (some rkc) name value false],
        producers.uses e = none ∧ topics.uses e = none := by
      intro e member
      rw [List.mem_singleton.mp member]
      exact ⟨rfl, rfl⟩
    have done := (valid.configured setup).logs last
    rwa [List.append_assoc] at done
  | @failed rkc events => exact absurd (by simp) (never (some rkc))
  | @created rkc events rk missing _ setup =>
    have before := coherent.configured setup
    rw [missing] at before
    have made := (valid.configured setup).log (e := .new (some rkc) (some rk))
      (producers.valid_free rfl _) (topics.valid_free rfl _)
    have level : HandlesValid (_ ++ [.setLogLevel (some rk)]) :=
      made.log_producer (before.created rk (some rkc)) rfl rfl
    simpa only [Kafka.logs_trace, Kafka.setRkc_trace, Kafka.setRk_trace, List.append_assoc,
      List.cons_append, List.nil_append] using level

/-- A call takes valid handles, unless it is an `init_global` whose `rd_kafka_new`
fails. -/
theorem call (valid : HandlesValid kafka.trace)
    (coherent : Coherent (ctx.rkt.toList ++ others) kafka.global.rk kafka.trace)
    (call : Call (ctx, kafka) (ctx', kafka')) (never : NeverFailed kafka'.trace) :
    HandlesValid kafka'.trace := by
  cases call with
  | initGlobal _ effect => exact valid.initGlobal coherent effect never
  | topicNew present closed fresh =>
    rw [present] at coherent
    exact valid.log_producer coherent rfl rfl
  | topicDestroy opened | produce opened =>
    have own : _ ∈ ctx.rkt.toList ++ others := List.mem_append_left _ (Option.mem_toList.mpr opened)
    exact valid.log_topic coherent own rfl rfl
  | poll timeout used =>
    have present : kafka.global.rk ≠ none := by
      rcases used with present | opened
      · exact present
      · obtain ⟨rkt, opened⟩ := Option.ne_none_iff_exists'.mp opened
        exact (coherent.origin rkt (List.mem_append_left _ (Option.mem_toList.mpr opened))).1
    obtain ⟨rk, present⟩ := Option.ne_none_iff_exists'.mp present
    rw [present] at coherent ⊢
    exact valid.log_producer coherent rfl rfl

/-- The producer is flushed and destroyed while it is alive. -/
theorem release (valid : HandlesValid kafka.trace) (coherent : Coherent [] kafka.global.rk kafka.trace) :
    HandlesValid (deinitGlobal kafka).trace := by
  rw [deinitGlobal_trace]
  cases present : kafka.global.rk with
  | none => simpa using valid
  | some rk =>
    rw [present] at coherent
    have quiet : Neutral (.flush (some rk) kafka.global.flushTimeInMs) := ⟨⟨rfl, rfl⟩, ⟨rfl, rfl⟩, nofun⟩
    have flushed : HandlesValid (kafka.trace ++ [.flush (some rk) kafka.global.flushTimeInMs]) :=
      valid.log_producer coherent rfl rfl
    have destroyed : HandlesValid (_ ++ [.destroy (some rk)]) :=
      flushed.log_producer (coherent.log quiet) rfl rfl
    have done := destroyed.log (e := .waitDestroyed kafka.global.destroyTimeInMs)
      (producers.valid_free rfl _) (topics.valid_free rfl _)
    simpa using done

end HandlesValid

/-- A failure of `rd_kafka_new` leaves its mark: the log level of a NULL handle is
set. -/
def Marked (trace : List Action) : Prop := ∀ rkc, .new rkc none ∈ trace → .setLogLevel none ∈ trace

theorem Marked.append (marked : Marked trace)
    (last : ∀ rkc, .new rkc none ∈ actions → .setLogLevel none ∈ actions) : Marked (trace ++ actions) := by
  intro rkc member
  rcases List.mem_append.mp member with early | late
  · exact List.mem_append_left _ (marked rkc early)
  · exact List.mem_append_right _ (last rkc late)

theorem Marked.call (marked : Marked kafka.trace) (call : Call (ctx, kafka) (ctx', kafka')) :
    Marked kafka'.trace := by
  cases call with
  | initGlobal _ effect =>
    cases effect with
    | ready => exact marked
    | refused _ _ setup =>
      apply marked.append
      intro rkc member
      exact absurd member (setup.notMem_new (by simp))
    | failed => exact marked.append fun _ _ => by simp
    | created _ _ setup =>
      apply marked.append
      intro rkc member
      exact absurd member (setup.notMem_new (by simp))
  | topicNew | topicDestroy | produce | poll => exact marked.append fun _ member => by simp at member

theorem Marked.release (marked : Marked kafka.trace) : Marked (deinitGlobal kafka).trace := by
  rw [deinitGlobal_trace]
  apply marked.append
  intro rkc member
  cases present : kafka.global.rk <;> simp [present] at member

theorem marked_invalid (member : .setLogLevel none ∈ trace) : ¬ HandlesValid trace := by
  intro valid
  obtain ⟨before, after, split⟩ := List.append_of_mem member
  obtain ⟨rk, _, same⟩ := valid.producer before _ after split none rfl
  contradiction

/-- In every run, all handles are valid when and only when no `rd_kafka_new` of
the run fails. -/
theorem handlesValid_iff (run : Run (lifecycle env) ops s) :
    HandlesValid s.trace ↔ NeverFailed s.trace := by
  constructor
  · intro valid rkc failed
    have marked : Marked s.trace := trace_invariant run (fun _ member => nomatch member)
      (fun _ _ _ _ _ _ call marked => marked.call call) (fun _ _ marked => marked.release)
    exact marked_invalid (marked rkc failed) valid
  · exact trace_invariant (P := fun trace => NeverFailed trace → HandlesValid trace) run
      (fun _ => .nil)
      (fun _ _ _ _ _ coherent call valid never =>
        (valid (never.of_prefix call.extends)).call coherent call never)
      (fun kafka coherent valid never =>
        (valid (never.of_prefix (deinitGlobal_trace kafka ▸ List.prefix_append ..))).release coherent)

theorem handlesValid_iff_lives : ∃ s, Run (lifecycle (Sample.env Sample.broker)) Sample.lives s ∧
    .destroy (some ⟨7⟩) ∈ s.trace ∧ HandlesValid s.trace := by
  obtain ⟨s, run, checked⟩ : ∃ s, Run (lifecycle (Sample.env Sample.broker)) Sample.lives s ∧
      decide (.destroy (some ⟨7⟩) ∈ s.trace ∧ NeverFailed s.trace) = true :=
    lifecycle_reaches _ (by decide +kernel)
  obtain ⟨destroyed, never⟩ := of_decide_eq_true checked
  exact ⟨s, run, destroyed, (handlesValid_iff run).mpr never⟩

/-- A broker that never gives out a producer. -/
def Sample.noProducer : Broker := { Sample.broker with new := fun _ => false }

theorem handles_invalid : ∃ s, Run (lifecycle (Sample.env Sample.noProducer))
    [Sample.initUser Sample.user, Sample.send 0] s ∧
    ¬ HandlesValid s.trace := by
  obtain ⟨s, run, marked⟩ : ∃ s, Run (lifecycle (Sample.env Sample.noProducer))
      [Sample.initUser Sample.user, Sample.send 0] s ∧
      decide (.setLogLevel none ∈ s.trace) = true := lifecycle_reaches _ (by decide +kernel)
  exact ⟨s, run, marked_invalid (of_decide_eq_true marked)⟩

end PushNotificationKafka
