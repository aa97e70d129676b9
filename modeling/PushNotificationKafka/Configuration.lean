import PushNotificationKafka.Handles

/-! Ownership of the configuration objects of `init_global`. Each is handed over to
a producer or destroyed, unless a setting that `init_global` insists on is
rejected: then the function returns and forgets the object. -/
namespace PushNotificationKafka
open Bytes Transition Ledger

/-- Every configuration object has been given away exactly once, to a producer or
to `rd_kafka_conf_destroy`, and none is owned any more. -/
structure Settled (trace : List Action) : Prop where
  once : ∀ rkc, .confNew rkc ∈ trace → confs.releases rkc trace = 1
  owned : confs.live trace = []

/-- The configuration objects after a trace, which creates each only once and
gives away only what it owns. -/
structure Books (trace : List Action) (owned : List Conf) : Prop where
  numbered : confs.Numbered Conf.id trace
  orderly : Always confs.ReleasesLive trace
  live : confs.live trace = owned

namespace Books
variable {trace : List Action} {owned : List Conf}

theorem nil : Books [] [] := ⟨Always.nil, Always.nil, rfl⟩

theorem quiet (books : Books trace owned) (quiet : ∀ e ∈ actions, confs.Quiet e) :
    Books (trace ++ actions) owned := by
  constructor
  · exact books.numbered.append fun e member before => confs.numbered_free (quiet e member).1 _ before
  · exact books.orderly.append fun e member before => confs.releasesLive_free (quiet e member).2 before
  · rw [confs.live_quiet quiet]
    exact books.live

theorem skip (books : Books trace owned) (quiet : confs.Quiet e) : Books (trace ++ [e]) owned :=
  books.quiet fun e' member => by rwa [List.mem_singleton.mp member]

theorem create (books : Books trace owned) (numbered : rkc.id = trace.length) :
    Books (trace ++ [.confNew rkc]) (rkc :: owned) := by
  constructor
  · refine Always.snoc_iff.mpr ⟨books.numbered, ?_⟩
    intro other acquired
    obtain rfl := Option.some.inj acquired
    exact numbered
  · exact Always.snoc_iff.mpr ⟨books.orderly, confs.releasesLive_free rfl trace⟩
  · rw [confs.live_snoc, books.live]
    rfl

theorem settle (books : Books trace (rkc :: owned)) (released : confs.released e = some rkc)
    (acquired : confs.acquired e = none) : Books (trace ++ [e]) owned := by
  constructor
  · exact Always.snoc_iff.mpr ⟨books.numbered, confs.numbered_free acquired _ trace⟩
  · refine Always.snoc_iff.mpr ⟨books.orderly, ?_⟩
    intro other released'
    obtain rfl := Option.some.inj (released.symm.trans released')
    rw [books.live]
    exact List.mem_cons_self
  · rw [confs.live_snoc, books.live, Accounts.step, released, acquired]
    exact List.erase_cons_head ..

end Books

theorem configures_quiet (configures : Configures rkc user e) : confs.Quiet e ∧ refuses e = false := by
  cases configures with
  | readSettings | confSetCb => exact ⟨⟨rfl, rfl⟩, rfl⟩
  | @confSet site accepted name value passes =>
    refine ⟨⟨rfl, rfl⟩, ?_⟩
    rcases passes with rfl | rfl
    · rfl
    · cases site <;> rfl

/-- The books of a run: nothing is owned exactly while nothing required has been
rejected. -/
def Owned (trace : List Action) : Prop :=
  ∃ owned, Books trace owned ∧ (owned = [] ↔ ∀ e ∈ trace, refuses e = false)

theorem accepted_append (trace : List Action) (accepted : ∀ e ∈ actions, refuses e = false) :
    (∀ e ∈ trace ++ actions, refuses e = false) ↔ ∀ e ∈ trace, refuses e = false := by
  constructor
  · exact fun all e member => all e (List.mem_append_left _ member)
  · intro all e member
    rcases List.mem_append.mp member with early | late
    · exact all e early
    · exact accepted e late

namespace Owned

theorem quiet (owned : Owned trace) (quiet : ∀ e ∈ actions, confs.Quiet e ∧ refuses e = false) :
    Owned (trace ++ actions) := by
  obtain ⟨rkcs, books, leak⟩ := owned
  refine ⟨rkcs, books.quiet fun e member => (quiet e member).1, ?_⟩
  rw [leak, accepted_append trace fun e member => (quiet e member).2]

theorem initGlobal (owned : Owned kafka.trace) (effect : InitGlobal kafka result kafka') :
    Owned kafka'.trace := by
  obtain ⟨rkcs, books, leak⟩ := owned
  have opened {rkc : Conf} {events : List Action} (numbered : rkc.id = kafka.trace.length)
      (setup : Setup rkc kafka.global.user events) :
      Books (kafka.trace ++ [.confNew rkc] ++ events) (rkc :: rkcs) :=
    (books.create numbered).quiet fun e member => (configures_quiet (setup.configures e member)).1
  have accepts {rkc : Conf} {events last : List Action} (setup : Setup rkc kafka.global.user events)
      (accepted : ∀ e ∈ last, refuses e = false) :
      ∀ e ∈ .confNew rkc :: (events ++ last), refuses e = false := by
    intro e member
    rcases setup.mem member with rfl | early | late
    · rfl
    · exact (configures_quiet early).2
    · exact accepted e late
  cases effect with
  | ready => exact ⟨rkcs, books, leak⟩
  | @refused rkc events site name value _ numbered setup required =>
    refine ⟨rkc :: rkcs, ?_, ?_⟩
    · have kept : Books (_ ++ [.confSet site (some rkc) name value false]) (rkc :: rkcs) :=
        (opened numbered setup).skip ⟨rfl, rfl⟩
      simpa only [Kafka.logs_trace, Kafka.setRkc_trace, List.append_assoc, List.cons_append,
        List.nil_append] using kept
    · have refused : refuses (.confSet site (some rkc) name value false) = true := by
        cases site <;> first | rfl | contradiction
      constructor
      · exact nofun
      · intro accepted
        have contrary := accepted (.confSet site (some rkc) name value false) (by simp)
        rw [refused] at contrary
        contradiction
  | @failed rkc events _ numbered setup =>
    have failed : Books (_ ++ [.new (some rkc) none]) (rkc :: rkcs) := (opened numbered setup).skip ⟨rfl, rfl⟩
    have destroyed : Books (_ ++ [.confDestroy (some rkc)]) rkcs := failed.settle rfl rfl
    have level : Books (_ ++ [.setLogLevel none]) rkcs := destroyed.skip ⟨rfl, rfl⟩
    refine ⟨rkcs, ?_, leak.trans (accepted_append _ (accepts setup (by simp [refuses]))).symm⟩
    simpa only [Kafka.logs_trace, Kafka.setRkc_trace, List.append_assoc, List.cons_append,
      List.nil_append] using level
  | @created rkc events rk _ numbered setup =>
    have handed : Books (_ ++ [.new (some rkc) (some rk)]) rkcs := (opened numbered setup).settle rfl rfl
    have level : Books (_ ++ [.setLogLevel (some rk)]) rkcs := handed.skip ⟨rfl, rfl⟩
    refine ⟨rkcs, ?_, leak.trans (accepted_append _ (accepts setup (by simp [refuses]))).symm⟩
    simpa only [Kafka.logs_trace, Kafka.setRkc_trace, Kafka.setRk_trace, List.append_assoc,
      List.cons_append, List.nil_append] using level

theorem call (owned : Owned kafka.trace) (call : Call (ctx, kafka) (ctx', kafka')) : Owned kafka'.trace := by
  have other {e : Action} (quiet : confs.Quiet e ∧ refuses e = false) : Owned (kafka.trace ++ [e]) :=
    owned.quiet fun e' member => by rwa [List.mem_singleton.mp member]
  cases call with
  | initGlobal _ effect => exact owned.initGlobal effect
  | topicNew | topicDestroy | produce | poll => exact other ⟨⟨rfl, rfl⟩, rfl⟩

theorem release (owned : Owned kafka.trace) : Owned (deinitGlobal kafka).trace := by
  rw [deinitGlobal_trace]
  apply owned.quiet
  intro e member
  cases present : kafka.global.rk with
  | none => simp [present] at member
  | some rk =>
    simp only [present, List.mem_cons, List.not_mem_nil, or_false] at member
    rcases member with rfl | rfl | rfl <;> exact ⟨⟨rfl, rfl⟩, rfl⟩

end Owned

/-- In every state of every run, each configuration object has been handed over or
destroyed, exactly one of the two, when and only when no `rd_kafka_conf_set` of
`bootstrap.servers` or `debug` has been rejected in the run. -/
theorem settled_iff (run : Run (lifecycle env) ops s) :
    Settled s.trace ↔ ∀ e ∈ s.trace, refuses e = false := by
  obtain ⟨rkcs, books, leak⟩ : Owned s.trace := trace_invariant run ⟨[], .nil, by simp⟩
    (fun _ _ _ _ _ _ call owned => owned.call call) (fun _ _ owned => owned.release)
  rw [← leak, ← books.live]
  constructor
  · exact Settled.owned
  · intro nothing
    refine ⟨?_, nothing⟩
    intro rkc created
    have once := confs.releases_once books.numbered books.orderly ⟨_, created, rfl⟩
    rw [nothing] at once
    simpa using once

theorem settled_iff_lives : ∃ s, Run (lifecycle (Sample.env Sample.broker)) Sample.lives s ∧
    .confNew ⟨0⟩ ∈ s.trace ∧ Settled s.trace := by
  obtain ⟨s, run, checked⟩ : ∃ s, Run (lifecycle (Sample.env Sample.broker)) Sample.lives s ∧
      decide (.confNew ⟨0⟩ ∈ s.trace ∧ ∀ e ∈ s.trace, refuses e = false) = true :=
    lifecycle_reaches _ (by decide +kernel)
  obtain ⟨created, accepted⟩ := of_decide_eq_true checked
  exact ⟨s, run, created, (settled_iff run).mpr accepted⟩

/-- A broker that knows no debug contexts. -/
def Sample.noDebug : Broker := { Sample.broker with confSet := fun _ name _ => name != lit "debug" }

theorem unsettled : ∃ s, Run (lifecycle (Sample.env Sample.noDebug))
    [Sample.initUser Sample.user, Sample.send 0] s ∧
    confs.live s.trace = [⟨0⟩] ∧ ¬ Settled s.trace := by
  obtain ⟨s, run, leaked⟩ : ∃ s, Run (lifecycle (Sample.env Sample.noDebug))
      [Sample.initUser Sample.user, Sample.send 0] s ∧
      decide (confs.live s.trace = [⟨0⟩]) = true := lifecycle_reaches _ (by decide +kernel)
  have leaked := of_decide_eq_true leaked
  refine ⟨s, run, leaked, ?_⟩
  intro settled
  rw [settled.owned] at leaked
  contradiction

end PushNotificationKafka
