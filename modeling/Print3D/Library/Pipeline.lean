import Mathlib.Tactic

/-! Items that are taken off a store in batches, each turned into products that wait in a queue. -/

/-- The items submitted since the last reset, the batches taken off them so far, each with its
products, and what has become of the products. -/
structure Pipeline (α β : Type*) where
  submitted : List α := []
  stored : List α := []
  batches : List (List α × List β) := []
  queue : List β := []
  sent : List β := []
  items : (batches.map (·.1)).flatten ++ stored = submitted
  products : sent ++ queue = (batches.map (·.2)).flatten

namespace Pipeline

variable {α β : Type*} (p : Pipeline α β)

def start (xs : List α) : Pipeline α β where
  submitted := xs
  stored := xs
  items := rfl
  products := rfl

def submit (xs : List α) : Pipeline α β where
  submitted := p.submitted ++ xs
  stored := p.stored ++ xs
  batches := p.batches
  queue := p.queue
  sent := p.sent
  items := by rw [← List.append_assoc, p.items]
  products := p.products

/-- Takes the first `k` items off the store; `ys` is what becomes of them. -/
def convert (k : ℕ) (ys : List β) : Pipeline α β where
  submitted := p.submitted
  stored := p.stored.drop k
  batches := p.batches ++ [(p.stored.take k, ys)]
  queue := p.queue ++ ys
  sent := p.sent
  items := by simp [← p.items]
  products := by simp [← p.products]

/-- Takes the first `n` products out of the queue. -/
def send (n : ℕ) : Pipeline α β where
  submitted := p.submitted
  stored := p.stored
  batches := p.batches
  queue := p.queue.drop n
  sent := p.sent ++ p.queue.take n
  items := p.items
  products := by rw [List.append_assoc, List.take_append_drop, p.products]

theorem sent_prefix : p.sent <+: (p.batches.map (·.2)).flatten := ⟨p.queue, p.products⟩

theorem converted_eq_submitted (h : p.stored = []) : (p.batches.map (·.1)).flatten = p.submitted := by
  rw [← p.items, h, List.append_nil]

end Pipeline
