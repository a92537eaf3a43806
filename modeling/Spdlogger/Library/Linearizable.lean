import Mathlib.Logic.Function.Basic

namespace linearizable

/-- A sequential object: what an operation may do and return, and how the object may
change between the operations. `stamp` is what can be read off it at any moment, such
as the time. -/
structure Object (Value Op Ret Stamp : Type*) where
  stamp : Value → Stamp
  init : Value → Prop
  apply : Value → Op → Value → Ret → Prop
  evolve : Value → Value → Prop

/-- Where a thread stands with the operation it has called. -/
inductive Status (Op Ret : Type*) where
  | idle
  | pending (op : Op)
  | done (ret : Ret)

/-- What is seen of the threads from outside, stamped. A call can end in an exception
after it has taken effect. -/
inductive Event (Tid Op Ret Stamp : Type*) where
  | invoke (thread : Tid) (op : Op) (stamp : Stamp)
  | respond (thread : Tid) (ret : Ret) (stamp : Stamp)
  | raise (thread : Tid) (stamp : Stamp)
  deriving DecidableEq, Repr

variable {Tid Value Op Ret Stamp : Type*} [DecidableEq Tid]

/-- The histories of threads that call the object, in which every operation takes effect
at one moment between its call and its end. Each event carries the stamp of its moment. -/
inductive Object.Produces (O : Object Value Op Ret Stamp) :
    Value → (Tid → Status Op Ret) → List (Event Tid Op Ret Stamp) → Prop where
  | init {value : Value} (hinit : O.init value) : Produces O value (fun _ => .idle) []
  | invoke {value : Value} {status : Tid → Status Op Ret} {history : List (Event Tid Op Ret Stamp)}
      (h : Produces O value status history) (thread : Tid) (op : Op)
      (hidle : status thread = .idle) :
      Produces O value (Function.update status thread (.pending op))
        (history ++ [.invoke thread op (O.stamp value)])
  | commit {value next : Value} {status : Tid → Status Op Ret} {history : List (Event Tid Op Ret Stamp)}
      (h : Produces O value status history) (thread : Tid) {op : Op} {ret : Ret}
      (hpending : status thread = .pending op) (happly : O.apply value op next ret) :
      Produces O next (Function.update status thread (.done ret)) history
  | respond {value : Value} {status : Tid → Status Op Ret} {history : List (Event Tid Op Ret Stamp)}
      (h : Produces O value status history) (thread : Tid) {ret : Ret}
      (hdone : status thread = .done ret) :
      Produces O value (Function.update status thread .idle) (history ++ [.respond thread ret (O.stamp value)])
  | raise {value : Value} {status : Tid → Status Op Ret} {history : List (Event Tid Op Ret Stamp)}
      (h : Produces O value status history) (thread : Tid) {ret : Ret}
      (hdone : status thread = .done ret) :
      Produces O value (Function.update status thread .idle) (history ++ [.raise thread (O.stamp value)])
  | evolve {value next : Value} {status : Tid → Status Op Ret} {history : List (Event Tid Op Ret Stamp)}
      (h : Produces O value status history) (hevolve : O.evolve value next) :
      Produces O next status history

/-- There are moments for the operations of the history at which the object gives
the results that they have returned. -/
def Object.Linearizes (O : Object Value Op Ret Stamp) (history : List (Event Tid Op Ret Stamp)) : Prop :=
  ∃ value status, O.Produces value status history

/-- What one object does another may do, with the same results. -/
structure Object.Implements {Other : Type*} (O : Object Value Op Ret Stamp) (P : Object Other Op Ret Stamp)
    (related : Value → Other → Prop) : Prop where
  stamp : ∀ value other, related value other → O.stamp value = P.stamp other
  init : ∀ value, O.init value → ∃ other, P.init other ∧ related value other
  apply : ∀ value other op next ret, related value other → O.apply value op next ret →
    ∃ last, P.apply other op last ret ∧ related next last
  evolve : ∀ value other next, related value other → O.evolve value next →
    ∃ last, P.evolve other last ∧ related next last

/-- The histories of an implementation are those of what it implements. -/
theorem Object.Implements.produces {Other : Type*} {O : Object Value Op Ret Stamp}
    {P : Object Other Op Ret Stamp} {related : Value → Other → Prop} (h : O.Implements P related)
    {value : Value} {status : Tid → Status Op Ret} {history : List (Event Tid Op Ret Stamp)}
    (hproduces : O.Produces value status history) :
    ∃ other, P.Produces other status history ∧ related value other := by
  induction hproduces with
  | init hinit =>
    obtain ⟨other, hother, hrelated⟩ := h.init _ hinit
    exact ⟨other, .init hother, hrelated⟩
  | invoke _ thread op hidle ih =>
    obtain ⟨other, hother, hrelated⟩ := ih
    exact ⟨other, h.stamp _ other hrelated ▸ hother.invoke thread op hidle, hrelated⟩
  | commit _ thread hpending happly ih =>
    obtain ⟨other, hother, hrelated⟩ := ih
    obtain ⟨last, hlast, hnext⟩ := h.apply _ other _ _ _ hrelated happly
    exact ⟨last, hother.commit thread hpending hlast, hnext⟩
  | respond _ thread hdone ih =>
    obtain ⟨other, hother, hrelated⟩ := ih
    exact ⟨other, h.stamp _ other hrelated ▸ hother.respond thread hdone, hrelated⟩
  | raise _ thread hdone ih =>
    obtain ⟨other, hother, hrelated⟩ := ih
    exact ⟨other, h.stamp _ other hrelated ▸ hother.raise thread hdone, hrelated⟩
  | evolve _ hevolve ih =>
    obtain ⟨other, hother, hrelated⟩ := ih
    obtain ⟨last, hlast, hnext⟩ := h.evolve _ other _ hrelated hevolve
    exact ⟨last, hother.evolve hlast, hnext⟩

/-- A history that has its moments in an implementation has them in what it implements. -/
theorem Object.Implements.linearizes {Other : Type*} {O : Object Value Op Ret Stamp}
    {P : Object Other Op Ret Stamp} {related : Value → Other → Prop} (h : O.Implements P related)
    {history : List (Event Tid Op Ret Stamp)} (hlinearizes : O.Linearizes history) :
    P.Linearizes history := by
  obtain ⟨value, status, hproduces⟩ := hlinearizes
  obtain ⟨other, hother, _⟩ := h.produces hproduces
  exact ⟨other, status, hother⟩

end linearizable
