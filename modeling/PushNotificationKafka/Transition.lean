import Mathlib.Data.List.Induction
import Mathlib.Logic.Basic

/-! Finite runs of labeled transition systems, and the induction rules for what
holds along them. A guard restricts a machine to the steps that meet a condition
on the state they start from. -/
namespace Transition

structure Machine (S L : Type) where
  initial : S → Prop
  step : S → L → S → Prop

/-- `Run m labels s`: some execution from an initial state takes these steps and
ends in `s`. -/
inductive Run {S L : Type} (m : Machine S L) : List L → S → Prop where
  | start : m.initial s → Run m [] s
  | next : Run m labels s → m.step s l t → Run m (labels ++ [l]) t

namespace Run
variable {S L : Type} {m : Machine S L}

theorem invariant {P : S → Prop} (run : Run m labels s) (start : ∀ s, m.initial s → P s)
    (preserved : ∀ s l t, P s → m.step s l t → P t) : P s := by
  induction run with
  | start initial => exact start _ initial
  | next _ step ih => exact preserved _ _ _ ih step

/-- The same where steps are known to start from states that runs lead to. -/
theorem reachable_invariant {P : S → Prop} (run : Run m labels s) (start : ∀ s, m.initial s → P s)
    (preserved : ∀ before s l t, Run m before s → P s → m.step s l t → P t) : P s := by
  induction run with
  | start initial => exact start _ initial
  | next before step ih => exact preserved _ _ _ _ before ih step

/-- Steps one after the other, from any state. -/
inductive Steps (m : Machine S L) : S → List L → S → Prop where
  | refl : Steps m s [] s
  | next : m.step s l t → Steps m t labels u → Steps m s (l :: labels) u

theorem extend (run : Run m before s) (steps : Steps m s labels t) : Run m (before ++ labels) t := by
  induction steps generalizing before with
  | refl => simpa using run
  | next step _ ih => simpa only [List.append_assoc, List.singleton_append] using ih (run.next step)

end Run

/-- The same machine, taking only the steps that meet `guard`. -/
def Machine.restrict {S L : Type} (m : Machine S L) (guard : S → L → Prop) : Machine S L where
  initial := m.initial
  step s l t := guard s l ∧ m.step s l t

theorem Machine.restrict_restrict {S L : Type} (m : Machine S L) (outer inner : S → L → Prop) :
    (m.restrict inner).restrict outer = m.restrict fun s l => outer s l ∧ inner s l := by
  simp only [Machine.restrict, and_assoc]

theorem Run.of_restrict {S L : Type} {m : Machine S L} {guard : S → L → Prop} {labels : List L} {s : S}
    (run : Run (m.restrict guard) labels s) : Run m labels s := by
  induction run with
  | start initial => exact .start initial
  | next _ step ih => exact ih.next step.2

/-- Every step of `m` is matched by steps of `n` between the abstractions of its
ends. -/
structure Simulation {S T L K : Type} (m : Machine S L) (n : Machine T K) (abs : S → T) : Prop where
  initial : ∀ s, m.initial s → n.initial (abs s)
  step : ∀ s l t, m.step s l t → ∃ labels, Run.Steps n (abs s) labels (abs t)

theorem Simulation.run {S T L K : Type} {m : Machine S L} {n : Machine T K} {abs : S → T}
    {labels : List L} {s : S} (sim : Simulation m n abs) (run : Run m labels s) : ∃ matched, Run n matched (abs s) := by
  induction run with
  | start initial => exact ⟨[], .start (sim.initial _ initial)⟩
  | next _ step ih =>
    obtain ⟨matched, before⟩ := ih
    obtain ⟨labels, steps⟩ := sim.step _ _ _ step
    exact ⟨matched ++ labels, before.extend steps⟩

/-- The same where steps are matched only between states that runs lead to. -/
theorem Run.simulates {S T L K : Type} {m : Machine S L} {n : Machine T K} {abs : S → T} {labels : List L} {s : S}
    (run : Run m labels s) (initial : ∀ s, m.initial s → n.initial (abs s))
    (matching : ∀ before s l t, Run m before s → m.step s l t →
      ∃ labels, Run.Steps n (abs s) labels (abs t)) : ∃ matched, Run n matched (abs s) := by
  induction run with
  | start first => exact ⟨[], .start (initial _ first)⟩
  | next run step ih =>
    obtain ⟨matched, before⟩ := ih
    obtain ⟨labels, steps⟩ := matching _ _ _ _ run step
    exact ⟨matched ++ labels, before.extend steps⟩

/-- The machine with a monitor beside it, which sees every step before it is taken and keeps a
value of its own. -/
def Machine.monitor {S L M : Type} (m : Machine S L) (start : M) (update : M → S → L → M) :
    Machine (S × M) L where
  initial p := m.initial p.1 ∧ p.2 = start
  step p l q := m.step p.1 l q.1 ∧ q.2 = update p.2 p.1 l

section
variable {S L M : Type} {m : Machine S L} {start : M} {update : M → S → L → M} {labels : List L}
  {p q : S × M}

theorem Run.of_monitor (run : Run (m.monitor start update) labels p) : Run m labels p.1 := by
  induction run with
  | start initial => exact .start initial.1
  | next _ step ih => exact ih.next step.1

/-- What relates the state to what the monitor has seen, in all states of a run. -/
theorem Run.monitor_invariant {P : S → M → Prop} (run : Run (m.monitor start update) labels p)
    (initial : ∀ s, m.initial s → P s start)
    (preserved : ∀ before s l t seen, Run m before s → P s seen → m.step s l t → P t (update seen s l)) :
    P p.1 p.2 := by
  induction run with
  | start first =>
    rw [first.2]
    exact initial _ first.1
  | next before step ih =>
    rw [step.2]
    exact preserved _ _ _ _ _ before.of_monitor ih step.1

/-- The same along steps from a state that a run leads to. -/
theorem Run.monitor_steps {P : S → M → Prop} (run : Run m before p.1)
    (steps : Run.Steps (m.monitor start update) p labels q) (first : P p.1 p.2)
    (preserved : ∀ before s l t seen, Run m before s → P s seen → m.step s l t → P t (update seen s l)) :
    P q.1 q.2 := by
  induction steps generalizing before with
  | refl => exact first
  | next step _ ih =>
    apply ih (run.next step.1)
    rw [step.2]
    exact preserved _ _ _ _ _ run first step.1

/-- The next state of a machine that can be computed, with that of the monitor. -/
def monitorNext (next : S → L → Option S) (update : M → S → L → M) (p : S × M) (l : L) : Option (S × M) :=
  (next p.1 l).map fun t => (t, update p.2 p.1 l)

theorem monitorNext_sound {next : S → L → Option S} (sound : ∀ s l t, next s l = some t → m.step s l t)
    (p : S × M) (l : L) (q : S × M) (stepped : monitorNext next update p l = some q) :
    (m.monitor start update).step p l q := by
  obtain ⟨t, taken, rfl⟩ := Option.map_eq_some_iff.mp stepped
  exact ⟨sound _ _ _ taken, rfl⟩

end

/-- Labels that are taken side by side, where one side takes `l'` for `l`, or takes one that
does not count. Both may depend on the labels before. -/
inductive Matched {L : Type} (same : List L → L → L → Prop) (idle : List L → L → Prop) :
    List L → List L → Prop where
  | nil : Matched same idle [] []
  | both : Matched same idle before before' → same before l l' →
      Matched same idle (before ++ [l]) (before' ++ [l'])
  | left : Matched same idle before before' → idle before l → Matched same idle (before ++ [l]) before'
  | right : Matched same idle before before' → idle before' l → Matched same idle before (before' ++ [l])

section
variable {S L : Type} {m : Machine S L} {labels labels' : List L} {same : List L → L → L → Prop}
  {idle : List L → L → Prop}

theorem Matched.refl (reflexive : ∀ before l, same before l l) (labels : List L) :
    Matched same idle labels labels := by
  induction labels using List.reverseRecOn with
  | nil => exact .nil
  | append_singleton labels l ih => exact ih.both (reflexive labels l)

theorem Run.first (run : Run m [] s) : m.initial s := by
  generalize taken : ([] : List L) = none at run
  cases run with
  | start initial => exact initial
  | next => simp at taken

theorem Run.last (run : Run m (labels ++ [l]) t) : ∃ s, Run m labels s ∧ m.step s l t := by
  generalize taken : labels ++ [l] = all at run
  cases run with
  | start initial => simp at taken
  | next run step =>
    obtain ⟨rfl, same⟩ := List.append_inj' taken rfl
    cases same
    exact ⟨_, run, step⟩

/-- Runs of labels that match end in one state, if matching labels lead to one state from
one state, and labels that do not count lead nowhere else. -/
theorem Run.matched (matched : Matched same idle labels labels') (run : Run m labels s)
    (run' : Run m labels' s') (initial : ∀ s s', m.initial s → m.initial s' → s = s')
    (agree : ∀ before s l l' t t', Run m before s → same before l l' → m.step s l t → m.step s l' t' → t = t')
    (still : ∀ before s l t, Run m before s → idle before l → m.step s l t → t = s) : s = s' := by
  induction matched generalizing s s' with
  | nil => exact initial _ _ run.first run'.first
  | both _ alike ih =>
    obtain ⟨t, before, step⟩ := run.last
    obtain ⟨t', before', step'⟩ := run'.last
    obtain rfl := ih before before'
    exact agree _ _ _ _ _ _ before alike step step'
  | left _ quiet ih =>
    obtain ⟨t, before, step⟩ := run.last
    exact (still _ _ _ _ before quiet step).trans (ih before run')
  | right _ quiet ih =>
    obtain ⟨t', before', step'⟩ := run'.last
    exact (ih run before').trans (still _ _ _ _ before' quiet step').symm

end

/-- What a machine whose steps can be computed does with given labels: one step after the
other, as long as there are any. -/
def replay {S L : Type} (next : S → L → Option S) : List L → S → Option S
  | [], s => some s
  | l :: labels, s => (next s l).bind (replay next labels)

section
variable {S L : Type} {m : Machine S L} {next : S → L → Option S} {s t : S} {l : L} {labels : List L}

theorem replay_steps (sound : ∀ s l t, next s l = some t → m.step s l t)
    (played : replay next labels s = some t) : Run.Steps m s labels t := by
  induction labels generalizing s with
  | nil =>
    obtain rfl := Option.some.inj played
    exact .refl
  | cons l labels ih =>
    obtain ⟨u, stepped, rest⟩ := Option.bind_eq_some_iff.mp played
    exact .next (sound s l u stepped) (ih rest)

theorem replay_reaches (sound : ∀ s l t, next s l = some t → m.step s l t) (initial : m.initial s)
    (check : S → Bool) (played : (replay next labels s).any check = true) :
    ∃ t, Run m labels t ∧ check t = true := by
  obtain ⟨t, played, passed⟩ := (Option.any_eq_true _ _).mp played
  have start : Run m [] s := .start initial
  exact ⟨t, by simpa using start.extend (replay_steps sound played), passed⟩

/-- The same with one more step, for what can be seen of a step. -/
theorem replay_reaches_step (sound : ∀ s l t, next s l = some t → m.step s l t) (initial : m.initial s)
    (check : S → S → Bool)
    (played : (replay next labels s).any (fun t => (next t l).any (check t)) = true) :
    ∃ t u, Run m labels t ∧ m.step t l u ∧ check t u = true := by
  obtain ⟨t, run, stepped⟩ := replay_reaches sound initial _ played
  obtain ⟨u, stepped, passed⟩ := (Option.any_eq_true _ _).mp stepped
  exact ⟨t, u, run, sound t l u stepped, passed⟩

end
end Transition
