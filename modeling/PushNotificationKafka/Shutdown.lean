import PushNotificationKafka.Retry

/-! The end of a producer. Every message is produced for a producer that is alive, and a
producer is flushed right before it is destroyed, so that no message that librdkafka took
is given up without having been waited for. -/
namespace PushNotificationKafka
open Transition Ledger

def FlushedFirst (before : List Action) (e : Action) : Prop :=
  ∀ rk, e = .destroy rk → ∃ earlier timeout, before = earlier ++ [.flush rk timeout]

/-- Messages are produced for a topic whose producer is alive. -/
def ProducedAlive (before : List Action) (e : Action) : Prop :=
  ∀ rkt payload key result, e = .produce rkt payload key result →
    ∃ rkt' rk, rkt = some rkt' ∧ rkt'.rk = some rk ∧ rk ∈ producers.live before

structure Orderly (trace : List Action) : Prop where
  flushed : Always FlushedFirst trace
  alive : Always ProducedAlive trace

namespace Orderly
variable {trace : List Action} {e : Action}

theorem nil : Orderly [] := ⟨Always.nil, Always.nil⟩

theorem log (orderly : Orderly trace) (flushed : FlushedFirst trace e) (alive : ProducedAlive trace e) :
    Orderly (trace ++ [e]) :=
  ⟨Always.snoc_iff.mpr ⟨orderly.flushed, flushed⟩, Always.snoc_iff.mpr ⟨orderly.alive, alive⟩⟩

/-- Calls that open a topic. -/
theorem opens (orderly : Orderly trace) (opening : ∀ e ∈ actions, opens e = true) :
    Orderly (trace ++ actions) := by
  constructor
  · apply orderly.flushed.append
    rintro e member before rk rfl
    have opened := opening _ member
    contradiction
  · apply orderly.alive.append
    rintro e member before rkt payload key result rfl
    have opened := opening _ member
    contradiction

theorem call (orderly : Orderly kafka.trace)
    (coherent : Coherent (ctx.rkt.toList ++ others) kafka.global.rk kafka.trace)
    (call : Call (ctx, kafka) (ctx', kafka')) : Orderly kafka'.trace := by
  cases call with
  | initGlobal _ effect =>
    obtain ⟨actions, trace, opening⟩ := effect.opens
    rw [trace]
    exact orderly.opens opening
  | topicNew | topicDestroy | poll => exact orderly.log (by simp [FlushedFirst]) (by simp [ProducedAlive])
  | @produce rkt _ _ payload key result opened =>
    refine orderly.log (by simp [FlushedFirst]) ?_
    intro handle payload' key' result' same
    obtain ⟨rfl, -⟩ := Action.produce.inj same
    obtain ⟨present, own⟩ := coherent.origin rkt (List.mem_append_left _ (Option.mem_toList.mpr opened))
    obtain ⟨rk, found⟩ := Option.ne_none_iff_exists'.mp present
    refine ⟨rkt, rk, rfl, own.trans found, ?_⟩
    rw [coherent.producer, found]
    exact List.mem_singleton_self rk

theorem release (orderly : Orderly kafka.trace) : Orderly (deinitGlobal kafka).trace := by
  rw [deinitGlobal_trace]
  cases kafka.global.rk with
  | none => simpa using orderly
  | some rk =>
    have flushed : Orderly (kafka.trace ++ [.flush (some rk) kafka.global.flushTimeInMs]) :=
      orderly.log (by simp [FlushedFirst]) (by simp [ProducedAlive])
    have destroyed : Orderly (kafka.trace ++ [.flush (some rk) kafka.global.flushTimeInMs] ++
        [.destroy (some rk)]) := by
      refine flushed.log ?_ (by simp [ProducedAlive])
      intro handle same
      obtain rfl := Action.destroy.inj same
      exact ⟨kafka.trace, kafka.global.flushTimeInMs, rfl⟩
    have done : Orderly (_ ++ [.waitDestroyed kafka.global.destroyTimeInMs]) :=
      destroyed.log (by simp [FlushedFirst]) (by simp [ProducedAlive])
    simpa using done

/-- A producer is destroyed after its flush, so that the flush comes after an earlier call that
is no flush itself. -/
theorem flush_between (orderly : Orderly trace) (split : trace = before ++ e :: first ++ .destroy rk :: rest)
    (other : ∀ timeout, e ≠ .flush rk timeout) : ∃ between timeout, first = between ++ [.flush rk timeout] := by
  obtain ⟨earlier, timeout, flushed⟩ := orderly.flushed _ _ _ split rk rfl
  rcases List.eq_nil_or_concat first with rfl | ⟨between, last, rfl⟩
  · have same := List.singleton_inj.mp (List.append_inj' flushed rfl).2
    exact absurd same (other timeout)
  · have shape : before ++ e :: between.concat last = (before ++ e :: between) ++ [last] := by simp
    rw [shape] at flushed
    obtain rfl := List.singleton_inj.mp (List.append_inj' flushed rfl).2
    exact ⟨between, timeout, List.concat_eq_append⟩

end Orderly

theorem run_orderly (run : Run (lifecycle env) ops s) : Orderly s.trace :=
  trace_invariant run .nil (fun _ _ _ _ _ coherent call orderly => orderly.call coherent call)
    (fun _ _ orderly => orderly.release)

theorem destroyed_iff : producers.released e = some rk ↔ e = .destroy (some rk) := by
  cases e with
  | destroy handle => cases handle <;> simp [producers]
  | _ => simp [producers]

/-- In every run, the producer of a message that librdkafka took was alive then. It is still
there, or it has been flushed after the message and been destroyed right then. -/
theorem run_flushed (run : Run (lifecycle env) ops s)
    (taken : s.trace = before ++ .produce rkt payload key none :: after) :
    ∃ rkt' rk, rkt = some rkt' ∧ rkt'.rk = some rk ∧ rk ∈ producers.live before ∧
      (rk ∈ producers.live s.trace ∨
        ∃ between timeout rest, after = between ++ .flush (some rk) timeout :: .destroy (some rk) :: rest) := by
  have orderly := run_orderly run
  obtain ⟨rkt', rk, rfl, own, alive⟩ := orderly.alive before _ after taken rkt payload key none rfl
  refine ⟨rkt', rk, rfl, own, alive, ?_⟩
  have quiet : producers.Quiet (.produce (some rkt') payload key none) := ⟨rfl, rfl⟩
  have alive' : rk ∈ producers.live (before ++ [.produce (some rkt') payload key none]) := by
    rwa [producers.live_snoc, producers.step_quiet quiet]
  have taken : s.trace = before ++ [.produce (some rkt') payload key none] ++ after := by simpa using taken
  rcases producers.live_or_released after alive' with live | ⟨first, e, rest, split, released⟩
  · exact .inl (taken ▸ live)
  · right
    obtain rfl := destroyed_iff.mp released
    have last : s.trace = before ++ .produce (some rkt') payload key none :: first ++ .destroy (some rk) :: rest := by
      rw [taken, split]
      simp
    obtain ⟨between, timeout, rfl⟩ := orderly.flush_between last (by simp)
    exact ⟨between, timeout, rest, by simpa using split⟩

theorem run_flushed_lives : ∃ s before after rk between timeout rest,
    Run (lifecycle (Sample.env Sample.broker)) Sample.lives s ∧
    s.trace = before ++ .produce (some ⟨9, some rk⟩) [] Sample.alice.username none :: after ∧
    rk ∈ producers.live before ∧
    after = between ++ .flush (some rk) timeout :: .destroy (some rk) :: rest := by
  obtain ⟨s, run, checked⟩ : ∃ s, Run (lifecycle (Sample.env Sample.broker)) Sample.lives s ∧
      decide (.produce (some ⟨9, some ⟨7⟩⟩) [] Sample.alice.username none ∈ s.trace ∧
        producers.live s.trace = []) = true := lifecycle_reaches _ (by decide +kernel)
  obtain ⟨taken, gone⟩ := of_decide_eq_true checked
  obtain ⟨before, after, split⟩ := List.append_of_mem taken
  obtain ⟨rkt, rk, same, own, alive, live | ⟨between, timeout, rest, flushed⟩⟩ := run_flushed run split
  · rw [gone] at live
    exact absurd live List.not_mem_nil
  · obtain rfl := Option.some.inj same
    obtain rfl := Option.some.inj own
    exact ⟨s, before, after, _, between, timeout, rest, run, split, alive, flushed⟩

end PushNotificationKafka
