import Mathlib.Tactic

/-! A sender that stores the item it has sent, in front of the others, until that item is
acknowledged. -/
namespace StopAndWait

/-- The items submitted since the last reset, by what has become of them. -/
structure Sender (α : Type*) where
  acked : List α := []
  inFlight : Option α := none
  queue : List α := []

namespace Sender

variable {α : Type*} (s : Sender α)

/-- What has been sent, each item once. -/
def sent : List α := s.acked ++ s.inFlight.toList

def stored : List α := s.inFlight.toList ++ s.queue

def submitted : List α := s.acked ++ s.stored

def submit (xs : List α) : Sender α := { s with queue := s.queue ++ xs }

/-- Sends the first item of the queue if none is in flight. -/
def send : Sender α :=
  match s.inFlight, s.queue with
  | none, x :: queue => ⟨s.acked, some x, queue⟩
  | _, _ => s

def ack : Sender α := ⟨s.sent, none, s.queue⟩

def start (xs : List α) : Sender α := ⟨[], none, xs⟩

theorem sent_append_queue : s.sent ++ s.queue = s.submitted := List.append_assoc ..

/-- Sending is in order, without gap or duplicate. -/
theorem sent_prefix : s.sent <+: s.submitted := ⟨s.queue, s.sent_append_queue⟩

@[simp] theorem sent_submit (xs : List α) : (s.submit xs).sent = s.sent := rfl

@[simp] theorem stored_submit (xs : List α) : (s.submit xs).stored = s.stored ++ xs :=
  (List.append_assoc ..).symm

@[simp] theorem submitted_submit (xs : List α) : (s.submit xs).submitted = s.submitted ++ xs := by
  rw [submitted, stored_submit, ← List.append_assoc]
  rfl

@[simp] theorem sent_ack : s.ack.sent = s.sent := by simp [sent, ack]

@[simp] theorem submitted_ack : s.ack.submitted = s.submitted := by
  rw [← sent_append_queue, sent_ack]
  exact s.sent_append_queue

@[simp] theorem stored_ack : s.ack.stored = s.queue := rfl

@[simp] theorem inFlight_ack : s.ack.inFlight = none := rfl

theorem stored_of_inFlight {x : α} (h : s.inFlight = some x) : s.stored = x :: s.queue := by
  simp [stored, h]

theorem getLast?_sent {x : α} (h : s.inFlight = some x) : s.sent.getLast? = some x := by
  simp [sent, h]

theorem send_of_inFlight {x : α} (h : s.inFlight = some x) : s.send = s := by
  unfold send
  rw [h]

@[simp] theorem stored_send : s.send.stored = s.stored := by
  unfold send
  split
  · simp [stored, *]
  · rfl

@[simp] theorem acked_send : s.send.acked = s.acked := by
  unfold send
  split <;> rfl

@[simp] theorem submitted_send : s.send.submitted = s.submitted := by
  rw [submitted, stored_send, acked_send, submitted]

@[simp] theorem inFlight_send : s.send.inFlight = s.stored.head? := by
  unfold send stored
  split
  · simp [*]
  · cases hf : s.inFlight with
    | some x => simp
    | none =>
      cases hq : s.queue with
      | nil => simp
      | cons x queue => simp_all

theorem sent_send (h : s.inFlight = none) : s.send.sent = s.sent ++ s.stored.head?.toList := by
  rw [sent, inFlight_send, acked_send, sent, h, Option.toList_none, List.append_nil]

@[simp] theorem inFlight_start (xs : List α) : (start xs).inFlight = none := rfl

end Sender
end StopAndWait
