import Spdlogger.Library.Machine

namespace channel

/-- A first-in first-out channel, with everything that has gone into it and
come out of it. -/
structure State (α : Type*) where
  items : List α := []
  sent : List α := []
  received : List α := []

/-- Something is sent, or received. -/
inductive Action (α : Type*) where
  | send (x : α)
  | receive

variable {α : Type*} {capacity : Nat}

/-- A send waits for room, a receive for an item. -/
def State.step (capacity : Nat) (s : State α) : Action α → Option (State α)
  | .send x =>
    if s.items.length < capacity then
      some { s with items := s.items ++ [x], sent := s.sent ++ [x] }
    else none
  | .receive =>
    match s.items with
    | [] => none
    | x :: rest => some { s with items := rest, received := s.received ++ [x] }

/-- The channel on its own, whoever sends and receives. -/
def machine (α : Type*) (capacity : Nat) : transition.Machine (State α) (Action α) where
  init s := s = {}
  step := State.step capacity

theorem State.step_send {s : State α} (hroom : s.items.length < capacity) (x : α) :
    s.step capacity (.send x) =
      some { s with items := s.items ++ [x], sent := s.sent ++ [x] } := by
  rw [State.step, if_pos hroom]

theorem State.step_receive {s : State α} {x : α} {rest : List α} (hitems : s.items = x :: rest) :
    s.step capacity .receive = some { s with items := rest, received := s.received ++ [x] } := by
  simp only [State.step, hitems]

/-- What was sent comes out in the order it was sent in, up to what is still there. -/
structure State.Ordered (capacity : Nat) (s : State α) : Prop where
  sent_eq : s.received ++ s.items = s.sent
  length_le : s.items.length ≤ capacity

/-- A step keeps the order. -/
theorem State.Ordered.step {s next : State α} (h : s.Ordered capacity) {action : Action α}
    (hstep : s.step capacity action = some next) : next.Ordered capacity := by
  cases action with
  | send x =>
    simp only [State.step, Option.ite_none_right_eq_some, Option.some.injEq] at hstep
    obtain ⟨hroom, rfl⟩ := hstep
    refine ⟨?_, ?_⟩
    · rw [← h.sent_eq, List.append_assoc]
    · rw [List.length_append, List.length_singleton]
      omega
  | receive =>
    cases hitems : s.items with
    | nil => simp [State.step, hitems] at hstep
    | cons x rest =>
      rw [State.step_receive hitems] at hstep
      cases hstep
      have hsent := h.sent_eq
      have hlength := h.length_le
      rw [hitems] at hsent hlength
      refine ⟨?_, ?_⟩
      · rw [List.append_assoc]
        exact hsent
      · rw [List.length_cons] at hlength
        show rest.length ≤ capacity
        omega

/-- Every run keeps the order. -/
theorem State.ordered_of_reachable {s : State α} (hreach : (machine α capacity).Reachable s) :
    s.Ordered capacity := by
  refine transition.Machine.Reachable.invariant ?_ ?_ hreach
  · rintro s rfl
    exact ⟨rfl, Nat.zero_le _⟩
  · exact fun s action next hordered hstep => hordered.step hstep

/-- What has been received is the first part of what was sent. -/
theorem State.Ordered.received_prefix {s : State α} (h : s.Ordered capacity) :
    s.received <+: s.sent :=
  ⟨s.items, h.sent_eq⟩

end channel
