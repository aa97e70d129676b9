import Mathlib.Data.List.Induction

/-! A resource that its users share and count. The first user to come sets it up and owns
it; it is kept, with its first owner, until it is reclaimed while nobody uses it. -/
namespace Tenancy

inductive Request (α : Type) where
  | acquire (a : α)
  | release
  | reclaim

structure Tenure (α : Type) where
  owner : α
  users : Nat

variable {α : Type}

def step : Option (Tenure α) → Request α → Option (Tenure α)
  | none, .acquire a => some ⟨a, 1⟩
  | some tenure, .acquire _ => some { tenure with users := tenure.users + 1 }
  | some tenure, .release => some { tenure with users := tenure.users - 1 }
  | some tenure, .reclaim => if tenure.users = 0 then none else some tenure
  | none, .release | none, .reclaim => none

/-- The tenure after some requests, `none` where there is none. -/
def after (requests : List (Request α)) : Option (Tenure α) := requests.foldl step none

theorem after_snoc (requests : List (Request α)) (request : Request α) :
    after (requests ++ [request]) = step (after requests) request := by
  simp [after]

/-- A request keeps the owner, or there was none and it is the new owner's. -/
theorem step_owner (held : step before request = some tenure) :
    (∃ earlier, before = some earlier ∧ earlier.owner = tenure.owner) ∨
      before = none ∧ request = .acquire tenure.owner := by
  unfold step at held
  split at held
  · obtain rfl := Option.some.inj held
    exact .inr ⟨rfl, rfl⟩
  · obtain rfl := Option.some.inj held
    exact .inl ⟨_, rfl, rfl⟩
  · obtain rfl := Option.some.inj held
    exact .inl ⟨_, rfl, rfl⟩
  · split at held
    · contradiction
    · obtain rfl := Option.some.inj held
      exact .inl ⟨_, rfl, rfl⟩
  · contradiction
  · contradiction

/-- The owner is the one who came first since there was no tenure. -/
theorem owner_first {requests : List (Request α)} (held : after requests = some tenure) :
    ∃ before rest, requests = before ++ .acquire tenure.owner :: rest ∧ after before = none ∧
      ∀ first last, rest = first ++ last →
        ∃ earlier, after (before ++ .acquire tenure.owner :: first) = some earlier ∧
          earlier.owner = tenure.owner := by
  induction requests using List.reverseRecOn generalizing tenure with
  | nil => contradiction
  | append_singleton requests request ih =>
    have now := held
    rw [after_snoc] at held
    rcases step_owner held with ⟨earlier, had, same⟩ | ⟨had, rfl⟩
    · obtain ⟨before, rest, split, vacant, kept⟩ := ih had
      rw [same] at split kept
      refine ⟨before, rest ++ [request], by simp [split], vacant, ?_⟩
      intro first last parts
      rcases List.eq_nil_or_concat last with rfl | ⟨last, final, rfl⟩
      · rw [List.append_nil] at parts
        refine ⟨tenure, ?_, rfl⟩
        rw [← parts, ← now, split]
        simp
      · rw [List.concat_eq_append, ← List.append_assoc] at parts
        exact kept first last (List.append_inj' parts rfl).1
    · refine ⟨requests, [], rfl, had, ?_⟩
      intro first last parts
      obtain ⟨rfl, -⟩ := List.append_eq_nil_iff.mp parts.symm
      exact ⟨tenure, now, rfl⟩

end Tenancy
