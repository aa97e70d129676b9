import Mathlib.Data.List.Nodup

/-! Records whose fields are optional, as lists of the fields that are there. The keys
stand in a fixed order and have distinct names, so that the list gives back the value of
each key. -/
namespace Fields
variable {Key Name Value : Type} {name : Key → Name} {order : List Key}

/-- The fields that have a value, in the order of their keys. -/
def members (name : Key → Name) (order : List Key) (value : Key → Option Value) : List (Name × Value) :=
  order.flatMap fun key => ((value key).map (name key, ·)).toList

@[simp] theorem members_nil (value : Key → Option Value) : members name [] value = [] := rfl

theorem members_cons (value : Key → Option Value) (key : Key) (order : List Key) :
    members name (key :: order) value =
      ((value key).map (name key, ·)).toList ++ members name order value := List.flatMap_cons

/-- The names come in the order of the keys. -/
theorem members_names (name : Key → Name) (order : List Key) (value : Key → Option Value) :
    ((members name order value).map Prod.fst).Sublist (order.map name) := by
  induction order with
  | nil => exact .slnil
  | cons key order ih =>
    rw [members_cons, List.map_append, List.map_cons]
    cases value key with
    | none => exact ih.cons _
    | some v => exact ih.cons_cons _

section
variable [BEq Name] [LawfulBEq Name]

theorem lookup_members_of_notMem (value : Key → Option Value) (other : sought ∉ order.map name) :
    (members name order value).lookup sought = none := by
  induction order with
  | nil => rfl
  | cons key order ih =>
    obtain ⟨different, rest⟩ := List.ne_and_not_mem_of_not_mem_cons other
    rw [members_cons, List.lookup_append, ih rest]
    cases value key with
    | none => rfl
    | some v => simp [List.lookup_cons, beq_false_of_ne different]

/-- Each key finds its own value, or none. -/
theorem lookup_members (distinct : (order.map name).Nodup) (value : Key → Option Value) (listed : key ∈ order) :
    (members name order value).lookup (name key) = value key := by
  induction order with
  | nil => exact (List.not_mem_nil listed).elim
  | cons first order ih =>
    obtain ⟨once, rest⟩ := List.nodup_cons.mp distinct
    rw [members_cons, List.lookup_append]
    rcases List.mem_cons.mp listed with rfl | later
    · rw [lookup_members_of_notMem value once]
      cases value key with
      | none => rfl
      | some v => simp
    · have different : name key ≠ name first := fun same => once (same ▸ List.mem_map_of_mem later)
      rw [ih rest later]
      cases value first with
      | none => rfl
      | some v => simp [List.lookup_cons, beq_false_of_ne different]

end
end Fields
