import Mathlib.Data.List.Induction

/-! Resource accounting over a log of events. A ledger says which handle an
event creates, gives up or is applied to; the live handles after a log, and
whether the log only ever applies events to live handles, follow from that. -/
namespace Ledger
variable {E H : Type}

/-- `P` holds of every event of the log, together with the log before it. -/
def Always (P : List E → E → Prop) (log : List E) : Prop :=
  ∀ before e after, log = before ++ e :: after → P before e

namespace Always
variable {P : List E → E → Prop} {log : List E}

theorem nil : Always P [] := by
  intro before e after split
  exact absurd split.symm (by simp)

theorem snoc_iff : Always P (log ++ [e]) ↔ Always P log ∧ P log e := by
  constructor
  · intro always
    refine ⟨?_, always log e [] rfl⟩
    intro before f after split
    exact always before f (after ++ [e]) (by rw [split]; simp)
  · rintro ⟨always, last⟩ before f after split
    rcases List.eq_nil_or_concat after with rfl | ⟨after, g, rfl⟩
    · obtain ⟨rfl, same⟩ := List.append_inj' split rfl
      cases same
      exact last
    · have split : log ++ [e] = (before ++ f :: after) ++ [g] := by simpa using split
      exact always before f after (List.append_inj' split rfl).1

/-- Where an event satisfies `P` after any log, its position does not matter. -/
theorem append (always : Always P log) (free : ∀ e ∈ events, ∀ before, P before e) :
    Always P (log ++ events) := by
  induction events generalizing log with
  | nil => simpa using always
  | cons e events ih =>
    have first := snoc_iff.mpr ⟨always, free e List.mem_cons_self log⟩
    simpa using ih first (fun f member => free f (List.mem_cons_of_mem e member))

theorem of_prefix (always : Always P (log ++ events)) : Always P log :=
  fun before e after split => always before e (after ++ events) (by rw [split]; simp)

end Always

/-- What events do to the handles of one kind. `uses e = some none` is an event
applied to a NULL handle. -/
structure Accounts (E H : Type) where
  acquired : E → Option H
  released : E → Option H
  uses : E → Option (Option H)

namespace Accounts
variable [DecidableEq H] (accounts : Accounts E H)

def step (held : List H) (e : E) : List H :=
  let kept := match accounts.released e with
    | some h => held.erase h
    | none => held
  match accounts.acquired e with
  | some h => h :: kept
  | none => kept

/-- The handles that the log has created and not given up since. -/
def live (log : List E) : List H := log.foldl accounts.step []

def Quiet (e : E) : Prop := accounts.acquired e = none ∧ accounts.released e = none

@[simp] theorem live_nil : accounts.live [] = [] := rfl

theorem live_snoc (log : List E) (e : E) :
    accounts.live (log ++ [e]) = accounts.step (accounts.live log) e := by
  simp [live]

theorem step_quiet (quiet : accounts.Quiet e) (held : List H) : accounts.step held e = held := by
  simp only [step, quiet.1, quiet.2]

theorem live_quiet (quiet : ∀ e ∈ events, accounts.Quiet e) :
    accounts.live (log ++ events) = accounts.live log := by
  induction events generalizing log with
  | nil => simp
  | cons e events ih =>
    have rest : accounts.live ((log ++ [e]) ++ events) = accounts.live (log ++ [e]) :=
      ih (fun f member => quiet f (List.mem_cons_of_mem e member))
    rw [List.append_assoc, List.singleton_append] at rest
    rw [rest, live_snoc, accounts.step_quiet (quiet e List.mem_cons_self)]

/-- A handle carries the position of the event that creates it. -/
def Numbered (index : H → Nat) (log : List E) : Prop :=
  Always (fun before e => ∀ h, accounts.acquired e = some h → index h = before.length) log

omit [DecidableEq H] in
theorem numbered_free (free : accounts.acquired e = none) (index : H → Nat) (before : List E) :
    ∀ h, accounts.acquired e = some h → index h = before.length := by
  intro h acquired
  rw [free] at acquired
  contradiction

/-- Numbered handles are never live twice, and are older than the end of the log. -/
theorem Numbered.live {index : H → Nat} (numbered : accounts.Numbered index log) :
    (accounts.live log).Nodup ∧ ∀ h ∈ accounts.live log, index h < log.length := by
  induction log using List.reverseRecOn with
  | nil => simp
  | append_singleton log e ih =>
    obtain ⟨before, last⟩ := Always.snoc_iff.mp numbered
    obtain ⟨nodup, older⟩ := ih before
    have kept : (match accounts.released e with
        | some h => (accounts.live log).erase h
        | none => accounts.live log).Sublist (accounts.live log) := by
      split
      · exact List.erase_sublist
      · exact .refl _
    rw [live_snoc, List.length_append, List.length_singleton, step]
    split
    · rename_i h acquired
      have newest := last h acquired
      refine ⟨List.nodup_cons.mpr ⟨?_, nodup.sublist kept⟩, ?_⟩
      · intro again
        have := older h (kept.subset again)
        omega
      · intro other member
        rcases List.mem_cons.mp member with rfl | member
        · omega
        · exact Nat.lt_succ_of_lt (older other (kept.subset member))
    · exact ⟨nodup.sublist kept, fun other member => Nat.lt_succ_of_lt (older other (kept.subset member))⟩

/-- Only live handles are given up. -/
def ReleasesLive (before : List E) (e : E) : Prop :=
  ∀ h, accounts.released e = some h → h ∈ accounts.live before

theorem releasesLive_free (free : accounts.released e = none) (before : List E) :
    accounts.ReleasesLive before e := by
  intro h released
  rw [free] at released
  contradiction

/-- How often the log gives up a handle. -/
def releases (h : H) (log : List E) : Nat := log.countP fun e => accounts.released e == some h

theorem releases_snoc (h : H) (log : List E) (e : E) :
    accounts.releases h (log ++ [e]) =
      accounts.releases h log + if accounts.released e = some h then 1 else 0 := by
  simp [releases, List.countP_append, List.countP_singleton]

theorem mem_step {held : List H} (nodup : held.Nodup) (h : H) :
    h ∈ accounts.step held e ↔
      accounts.acquired e = some h ∨ (h ∈ held ∧ accounts.released e ≠ some h) := by
  have kept : (h ∈ match accounts.released e with
      | some h => held.erase h
      | none => held) ↔ h ∈ held ∧ accounts.released e ≠ some h := by
    cases accounts.released e with
    | none => simp
    | some r =>
      rw [nodup.mem_erase_iff, ne_eq, ne_eq, Option.some_inj, and_comm, eq_comm]
  unfold step
  cases accounts.acquired e with
  | none => simpa using kept
  | some a => rw [List.mem_cons, kept, Option.some_inj, eq_comm]

/-- What has not been created cannot have been given up. -/
theorem releases_before {index : H → Nat} (numbered : accounts.Numbered index log)
    (orderly : Always accounts.ReleasesLive log) (later : log.length ≤ index h) :
    accounts.releases h log = 0 := by
  apply List.countP_eq_zero.mpr
  intro e member released
  obtain ⟨before, after, split⟩ := List.append_of_mem member
  have live := orderly before e after split h (by simpa using released)
  subst split
  have earlier : accounts.Numbered index before := numbered.of_prefix
  have older := earlier.live.2 h live
  simp only [List.length_append, List.length_cons] at later
  omega

/-- A handle that has been created is given up once, or it is still live. -/
theorem releases_once {index : H → Nat} (numbered : accounts.Numbered index log)
    (orderly : Always accounts.ReleasesLive log) (created : ∃ e ∈ log, accounts.acquired e = some h) :
    accounts.releases h log = if h ∈ accounts.live log then 0 else 1 := by
  induction log using List.reverseRecOn with
  | nil => simp at created
  | append_singleton log e ih =>
    obtain ⟨numbers, newest⟩ := Always.snoc_iff.mp numbered
    obtain ⟨ordered, last⟩ := Always.snoc_iff.mp orderly
    have numbers : accounts.Numbered index log := numbers
    obtain ⟨nodup, older⟩ := numbers.live
    rw [releases_snoc, live_snoc]
    simp only [accounts.mem_step nodup]
    by_cases earlier : ∃ e ∈ log, accounts.acquired e = some h
    · -- The new event does not create the handle again.
      have old : index h < log.length := by
        obtain ⟨e', member, acquired⟩ := earlier
        obtain ⟨before, after, split⟩ := List.append_of_mem member
        have position := numbers before e' after split h acquired
        simp only [split, List.length_append, List.length_cons]
        omega
      have other : accounts.acquired e ≠ some h := by
        intro acquired
        have position := newest h acquired
        omega
      rw [ih numbers ordered earlier]
      by_cases released : accounts.released e = some h
      · simp [other, released, last h released]
      · simp [other, released]
    · have acquired : accounts.acquired e = some h := by
        obtain ⟨e', member, acquired⟩ := created
        rcases List.mem_append.mp member with early | late
        · exact absurd ⟨e', early, acquired⟩ earlier
        · rwa [List.mem_singleton.mp late] at acquired
      have position := newest h acquired
      have unreleased : accounts.released e ≠ some h := by
        intro released
        have older := older h (last h released)
        omega
      rw [releases_before accounts numbers ordered (by omega)]
      simp [acquired, unreleased]

/-- How many handles the log creates. -/
def acquisitions (log : List E) : Nat := log.countP fun e => (accounts.acquired e).isSome

/-- How many handles the log gives up. -/
def surrenders (log : List E) : Nat := log.countP fun e => (accounts.released e).isSome

omit [DecidableEq H] in
theorem surrenders_append (log events : List E) :
    accounts.surrenders (log ++ events) = accounts.surrenders log + accounts.surrenders events :=
  List.countP_append

omit [DecidableEq H] in
theorem surrenders_none (free : ∀ e ∈ events, accounts.released e = none) : accounts.surrenders events = 0 := by
  apply List.countP_eq_zero.mpr
  intro e member
  simp [free e member]

/-- Every handle that has been created is live or has been given up. -/
theorem acquisitions_eq (orderly : Always accounts.ReleasesLive log) :
    accounts.acquisitions log = accounts.surrenders log + (accounts.live log).length := by
  induction log using List.reverseRecOn with
  | nil => rfl
  | append_singleton log e ih =>
    obtain ⟨before, last⟩ := Always.snoc_iff.mp orderly
    have counted := ih before
    simp only [acquisitions, surrenders] at counted
    simp only [acquisitions, surrenders, List.countP_append, List.countP_singleton, live_snoc, step]
    cases released : accounts.released e with
    | none => cases acquired : accounts.acquired e <;> simp <;> omega
    | some h =>
      have member := last h released
      have positive := List.length_pos_of_mem member
      have shorter := List.length_erase_of_mem member
      cases acquired : accounts.acquired e <;> simp <;> omega

/-- A live handle stays live until an event gives it up. -/
theorem live_or_released (events : List E) (member : h ∈ accounts.live log) :
    h ∈ accounts.live (log ++ events) ∨
      ∃ before e after, events = before ++ e :: after ∧ accounts.released e = some h := by
  induction events using List.reverseRecOn with
  | nil => exact .inl (by simpa using member)
  | append_singleton events e ih =>
    rcases ih with live | ⟨before, e', after, split, released⟩
    · by_cases released : accounts.released e = some h
      · exact .inr ⟨events, e, [], rfl, released⟩
      · left
        have kept : h ∈ match accounts.released e with
            | some h => (accounts.live (log ++ events)).erase h
            | none => accounts.live (log ++ events) := by
          cases given : accounts.released e with
          | none => exact live
          | some other =>
            have different : h ≠ other := fun same => released (given.trans (congrArg some same.symm))
            exact (List.mem_erase_of_ne different).mpr live
        rw [← List.append_assoc, live_snoc, step]
        cases accounts.acquired e with
        | none => exact kept
        | some other => exact List.mem_cons_of_mem other kept
    · exact .inr ⟨before, e', after ++ [e], by simp [split], released⟩

/-- The event is applied to no handle, or to a live one. -/
def Valid (log : List E) (e : E) : Prop :=
  ∀ argument, accounts.uses e = some argument → ∃ h ∈ accounts.live log, argument = some h

/-- Every event of the log that takes a handle takes a live one. -/
def Safe (log : List E) : Prop := Always accounts.Valid log

theorem valid_free (free : accounts.uses e = none) (log : List E) : accounts.Valid log e := by
  intro argument used
  rw [free] at used
  contradiction

theorem valid_iff (used : accounts.uses e = some argument) :
    accounts.Valid log e ↔ ∃ h ∈ accounts.live log, argument = some h := by
  constructor
  · exact fun valid => valid argument used
  · rintro live other used'
    obtain rfl := Option.some.inj (used.symm.trans used')
    exact live

/-- After the log exactly `owned` is live, and it has never given up or used anything that
was not live. -/
structure Owns (index : H → Nat) (log : List E) (owned : List H) : Prop where
  numbered : accounts.Numbered index log
  orderly : Always accounts.ReleasesLive log
  safe : accounts.Safe log
  live : (accounts.live log).Perm owned

namespace Owns
variable {accounts} {index : H → Nat} {owned owned' : List H}

theorem nil : accounts.Owns index [] [] := ⟨Always.nil, Always.nil, Always.nil, .refl _⟩

theorem perm (owns : accounts.Owns index log owned) (same : owned.Perm owned') : accounts.Owns index log owned' :=
  ⟨owns.numbered, owns.orderly, owns.safe, owns.live.trans same⟩

theorem acquire (owns : accounts.Owns index log owned) (acquired : accounts.acquired e = some h)
    (released : accounts.released e = none) (unused : accounts.uses e = none) (newest : index h = log.length) :
    accounts.Owns index (log ++ [e]) (h :: owned) := by
  constructor
  · refine Always.snoc_iff.mpr ⟨owns.numbered, ?_⟩
    intro other acquired'
    obtain rfl := Option.some.inj (acquired.symm.trans acquired')
    exact newest
  · exact Always.snoc_iff.mpr ⟨owns.orderly, accounts.releasesLive_free released log⟩
  · exact Always.snoc_iff.mpr ⟨owns.safe, accounts.valid_free unused log⟩
  · rw [live_snoc, step, released, acquired]
    exact owns.live.cons h

/-- What is owned is used, or nothing is. -/
theorem use (owns : accounts.Owns index log owned) (quiet : accounts.Quiet e)
    (used : ∀ argument, accounts.uses e = some argument → ∃ h ∈ owned, argument = some h) :
    accounts.Owns index (log ++ [e]) owned := by
  constructor
  · exact Always.snoc_iff.mpr ⟨owns.numbered, accounts.numbered_free quiet.1 index log⟩
  · exact Always.snoc_iff.mpr ⟨owns.orderly, accounts.releasesLive_free quiet.2 log⟩
  · refine Always.snoc_iff.mpr ⟨owns.safe, ?_⟩
    intro argument applied
    obtain ⟨h, member, same⟩ := used argument applied
    exact ⟨h, owns.live.mem_iff.mpr member, same⟩
  · rw [live_snoc, accounts.step_quiet quiet]
    exact owns.live

theorem release (owns : accounts.Owns index log (h :: owned)) (released : accounts.released e = some h)
    (acquired : accounts.acquired e = none) (unused : accounts.uses e = none) :
    accounts.Owns index (log ++ [e]) owned := by
  constructor
  · exact Always.snoc_iff.mpr ⟨owns.numbered, accounts.numbered_free acquired index log⟩
  · refine Always.snoc_iff.mpr ⟨owns.orderly, ?_⟩
    intro other released'
    obtain rfl := Option.some.inj (released.symm.trans released')
    exact owns.live.mem_iff.mpr List.mem_cons_self
  · exact Always.snoc_iff.mpr ⟨owns.safe, accounts.valid_free unused log⟩
  · rw [live_snoc, step, released, acquired]
    have erased := owns.live.erase h
    rwa [List.erase_cons_head] at erased

/-- What has been created is still owned, or has been given up once. -/
theorem once (owns : accounts.Owns index log owned) (created : ∃ e ∈ log, accounts.acquired e = some h) :
    accounts.releases h log = if h ∈ owned then 0 else 1 := by
  rw [accounts.releases_once owns.numbered owns.orderly created]
  simp only [owns.live.mem_iff]

end Owns

end Accounts
end Ledger
