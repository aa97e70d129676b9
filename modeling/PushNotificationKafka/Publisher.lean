import PushNotificationKafka.Transition

/-! A publisher that takes messages in batches and may lose some: what it publishes of a
batch comes out in the order of the batch, and after all that it has published before. -/
namespace Publisher
open Transition

structure Outbox (α : Type) where
  offered : List α
  published : List α

variable {α : Type}

/-- A batch is offered, and `kept` of it is published. -/
def Outbox.take (outbox : Outbox α) (batch kept : List α) : Outbox α :=
  ⟨outbox.offered ++ batch, outbox.published ++ kept⟩

def lossy (α : Type) : Machine (Outbox α) (List α) where
  initial s := s = ⟨[], []⟩
  step s batch t := ∃ kept, kept.Sublist batch ∧ t = s.take batch kept

/-- Nothing is published that is not offered, nor more often or in another order. -/
theorem lossy_sublist {batches : List (List α)} (run : Run (lossy α) batches s) :
    s.offered = batches.flatten ∧ s.published.Sublist s.offered := by
  induction run with
  | start initial => simp [show _ = _ from initial]
  | next _ step ih =>
    obtain ⟨offered, order⟩ := ih
    obtain ⟨kept, part, rfl⟩ := step
    constructor
    · simp [Outbox.take, offered]
    · exact order.append part

end Publisher
