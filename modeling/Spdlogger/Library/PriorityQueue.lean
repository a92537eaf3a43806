import Mathlib.Data.Multiset.Filter
import Mathlib.Data.List.Sort

/-- What a priority queue promises about any implementation of it: its items
are counted with multiplicity and the top is one of the least items. Which of
several least items is on top is left to the implementation. -/
structure PriorityQueue (α : Type*) (le : α → α → Prop) where
  Carrier : Type*
  empty : Carrier
  push : Carrier → α → Carrier
  top : Carrier → Option α
  pop : Carrier → Carrier
  items : Carrier → Multiset α
  items_empty : items empty = 0
  items_push : ∀ q x, items (push q x) = x ::ₘ items q
  items_of_top_none : ∀ q, top q = none → items q = 0
  items_pop : ∀ q x, top q = some x → items q = x ::ₘ items (pop q)
  top_le : ∀ q x, top q = some x → ∀ y ∈ items q, le x y

namespace PriorityQueue

/-- The first item is in the queue. -/
theorem top_mem {α : Type*} {le : α → α → Prop} (Q : PriorityQueue α le) {q : Q.Carrier} {x : α}
    (htop : Q.top q = some x) : x ∈ Q.items q := by
  rw [Q.items_pop q x htop]
  exact Multiset.mem_cons_self x _

/-- Pop every item on top that is due, handing each one to `body`. The state
threaded through the loop is whatever the loop's body edits besides the queue. -/
def drain {α β : Type*} {le : α → α → Prop} (Q : PriorityQueue α le) (due : α → Bool)
    (body : β → α → β) (q : Q.Carrier) (state : β) : Q.Carrier × β :=
  match _htop : Q.top q with
  | none => (q, state)
  | some x => if due x then Q.drain due body (Q.pop q) (body state x) else (q, state)
termination_by (Q.items q).card
decreasing_by
  rw [Q.items_pop q x _htop, Multiset.card_cons]
  exact Nat.lt_succ_self _

/-- When being due is inherited by every earlier item, draining leaves exactly
the items that are not due, and the body has run once for each of the others,
in some order. -/
theorem drain_spec {α β : Type*} {le : α → α → Prop} (Q : PriorityQueue α le) (due : α → Bool)
    (hdue : ∀ x y, le x y → due y = true → due x = true) (body : β → α → β)
    (q : Q.Carrier) (state : β) :
    Q.items (Q.drain due body q state).1 = (Q.items q).filter (fun x => due x = false) ∧
      ∃ popped : List α, (popped : Multiset α) = (Q.items q).filter (fun x => due x = true) ∧
        (Q.drain due body q state).2 = popped.foldl body state := by
  fun_induction Q.drain due body q state with
  | case1 q state htop =>
    have hempty := Q.items_of_top_none q htop
    exact ⟨by simp [hempty], [], by simp [hempty], rfl⟩
  | case2 q state x htop hx ih =>
    obtain ⟨hrest, popped, hpopped, hstate⟩ := ih
    have hitems := Q.items_pop q x htop
    refine ⟨?_, x :: popped, ?_, ?_⟩
    · rw [hrest, hitems, Multiset.filter_cons_of_neg _ (by simp [hx])]
    · rw [hitems, Multiset.filter_cons_of_pos (p := fun x => due x = true) _ hx, ← hpopped]
      rfl
    · rw [hstate]
      rfl
  | case3 q state x htop hx =>
    -- The top is not due, so nothing behind it is.
    have hnone : ∀ y ∈ Q.items q, due y = false := by
      intro y hy
      by_contra hdueY
      exact hx (hdue x y (Q.top_le q x htop y hy) (by simpa using hdueY))
    refine ⟨?_, [], ?_, rfl⟩
    · exact (Multiset.filter_eq_self.mpr hnone).symm
    · symm
      rw [Multiset.coe_nil, Multiset.filter_eq_nil]
      intro y hy
      simp [hnone y hy]

/-- Insertion into a sorted list implements the interface for every total
preorder. -/
def sorted {α : Type*} (le : α → α → Prop) [DecidableRel le] [Std.Total le] [IsTrans α le] :
    PriorityQueue α le where
  Carrier := { l : List α // l.Pairwise le }
  empty := ⟨[], .nil⟩
  push q x := ⟨q.val.orderedInsert le x, q.property.orderedInsert x _⟩
  top q := q.val.head?
  pop q := ⟨q.val.tail, q.property.tail⟩
  items q := (q.val : Multiset α)
  items_empty := rfl
  items_push q x := Multiset.coe_eq_coe.mpr (List.perm_orderedInsert le x q.val)
  items_of_top_none q htop := by
    rw [List.head?_eq_none_iff.mp htop]
    rfl
  items_pop q x htop := by
    obtain ⟨rest, hlist⟩ := List.head?_eq_some_iff.mp htop
    simp [hlist]
  top_le q x htop y hy := by
    obtain ⟨rest, hlist⟩ := List.head?_eq_some_iff.mp htop
    have hsorted := q.property
    simp only [hlist, List.pairwise_cons] at hsorted
    rw [hlist] at hy
    rcases List.mem_cons.mp (Multiset.mem_coe.mp hy) with rfl | hrest
    · exact (Std.Total.total y y).elim id id
    · exact hsorted.1 y hrest

end PriorityQueue
