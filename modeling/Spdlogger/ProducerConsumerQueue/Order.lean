import Mathlib.Data.List.Range
import Spdlogger.Library.Channel
import Spdlogger.ProducerConsumerQueue.Exclusion

namespace spdlogger.producer_consumer_queue

variable {producerCount consumerCount : Nat}

/-- `workItems` as a channel from the producers to the consumers. -/
def State.channel (s : State producerCount consumerCount) :
    channel.State (WorkItem producerCount) :=
  { items := s.workItems, sent := s.pushed, received := s.popped }

/-- Whatever else the threads do, the queue is a channel of bounded capacity:
a push sends, a pop receives, and every other step leaves it alone. -/
theorem State.simulates_channel :
    (queueMachine producerCount consumerCount).Simulates
      (channel.machine (WorkItem producerCount) maxQueueSize) fun s t => t = s.channel where
  init := by
    rintro s ⟨stop, rfl⟩
    exact ⟨{}, rfl, rfl⟩
  step := by
    rintro s action next _ _ rfl hstep
    cases State.move_of_step hstep with
    | @push producerId now _ _ hroom =>
      have hsend := channel.State.step_send (s := s.channel) hroom
        ⟨producerId, s.latestSequenceId, now⟩
      exact ⟨[.send ⟨producerId, s.latestSequenceId, now⟩], _,
        (Option.bind_eq_some_iff.mpr ⟨_, hsend, rfl⟩), rfl⟩
    | @pop consumerId now poppedItem rest _ hitems =>
      have hreceive : s.channel.step maxQueueSize .receive = _ :=
        channel.State.step_receive hitems
      exact ⟨[.receive], _, Option.bind_eq_some_iff.mpr ⟨_, hreceive, rfl⟩, rfl⟩
    | outside | run | create | lock | within | block | exit => exact ⟨[], _, rfl, rfl⟩

/-- The queue is an ordered channel in every reachable state. -/
theorem State.ordered_of_reachable {s : State producerCount consumerCount}
    (hreach : (queueMachine producerCount consumerCount).Reachable s) :
    s.channel.Ordered maxQueueSize := by
  obtain ⟨t, ht, rfl⟩ := State.simulates_channel.reachable hreach
  exact channel.State.ordered_of_reachable ht

/-- The counter, and the ids it has given out. -/
structure State.Numbered (s : State producerCount consumerCount) : Prop where
  sequenceIds_eq :
    s.pushed.map WorkItem.sequenceId = (List.range s.pushed.length).map UInt32.ofNat
  latestSequenceId_eq : s.latestSequenceId = UInt32.ofNat s.pushed.length

/-- Each step keeps the numbering of the items. -/
theorem State.Numbered.step {s next : State producerCount consumerCount} (h : s.Numbered)
    {action : Action producerCount consumerCount} (hstep : s.step action = some next) :
    next.Numbered := by
  cases State.move_of_step hstep with
  | push =>
    refine ⟨?_, ?_⟩
    · simp only [State.push, List.map_append, List.map_cons, List.map_nil, List.length_append,
        List.length_singleton, List.range_succ]
      rw [h.sequenceIds_eq, h.latestSequenceId_eq]
    · simp only [State.push, List.length_append, List.length_singleton]
      rw [h.latestSequenceId_eq, UInt32.ofNat_add]
      rfl
  | outside | run | create | lock | within | block | exit | pop =>
    exact ⟨h.sequenceIds_eq, h.latestSequenceId_eq⟩

/-- The items are numbered in the order of their pushes in every reachable state. -/
theorem State.numbered_of_reachable {s : State producerCount consumerCount}
    (hreach : (queueMachine producerCount consumerCount).Reachable s) : s.Numbered := by
  refine transition.Machine.Reachable.invariant ?_ ?_ hreach
  · rintro s ⟨stop, rfl⟩
    exact ⟨rfl, rfl⟩
  · exact fun s action next hnumbered hstep => hnumbered.step hstep

/-- Before the counter of 32 bits wraps, the ids are the positions of the items. -/
theorem State.Numbered.toNat_sequenceIds {s : State producerCount consumerCount}
    (h : s.Numbered) (hfew : s.pushed.length < 2 ^ 32) :
    s.pushed.map (fun item => item.sequenceId.toNat) = List.range s.pushed.length := by
  have hids := congrArg (List.map UInt32.toNat) h.sequenceIds_eq
  rw [List.map_map, List.map_map] at hids
  refine hids.trans ?_
  conv_rhs => rw [← List.map_id (List.range s.pushed.length)]
  apply List.map_congr_left
  intro id hid
  have hlt := List.mem_range.mp hid
  exact UInt32.toNat_ofNat_of_lt' (by rw [UInt32.size]; omega)

/-- A producer that finds the queue full leaves it and the counter alone. -/
theorem State.producerStep_full {s next : State producerCount consumerCount}
    {producerId : Fin producerCount} {now : Int} (hphase : s.producers producerId = .pushing)
    (hfull : ¬ s.workItems.length < maxQueueSize)
    (hstep : s.producerStep producerId now = some next) :
    next = s.setProducer producerId .testingStop := by
  simp only [State.producerStep, hphase, if_neg hfull, Option.ite_none_right_eq_some,
    Option.some.injEq] at hstep
  exact hstep.2.symm

/-- Every item goes through the queue once, and all of them in one order. -/
structure State.DeliversInOrder (s : State producerCount consumerCount) : Prop where
  conserved : s.popped ++ s.workItems = s.pushed
  sequenceIds : s.pushed.map (fun item => item.sequenceId.toNat) = List.range s.pushed.length
  latestSequenceId : s.latestSequenceId.toNat = s.pushed.length
  bounded : s.workItems.length ≤ maxQueueSize
  full : ∀ producerId now next, s.producers producerId = .pushing →
    ¬ s.workItems.length < maxQueueSize → s.producerStep producerId now = some next →
      next.latestSequenceId = s.latestSequenceId ∧ next.workItems = s.workItems ∧
        next.pushed = s.pushed
  nonempty : ∀ consumerId, s.consumers consumerId = .popping → s.workItems ≠ []
  once : (s.popped.map WorkItem.sequenceId).Nodup
  perProducer : ∀ producerId : Fin producerCount,
    s.popped.filter (fun item => item.producerId = producerId) <+:
      s.pushed.filter (fun item => item.producerId = producerId)

/-- While fewer than `2 ^ 32` items have been pushed, every reachable state delivers in order,
whatever the interleaving. -/
theorem State.delivers_in_order {s : State producerCount consumerCount}
    (hreach : (queueMachine producerCount consumerCount).Reachable s)
    (hfew : s.pushed.length < 2 ^ 32) : s.DeliversInOrder := by
  have hordered := State.ordered_of_reachable hreach
  have hnumbered := State.numbered_of_reachable hreach
  have hexclusive := State.exclusive_of_reachable hreach
  have hids := hnumbered.toNat_sequenceIds hfew
  have hprefix : s.popped <+: s.pushed := hordered.received_prefix
  refine ⟨hordered.sent_eq, hids, ?_, hordered.length_le, ?_, ?_, ?_, ?_⟩
  · rw [hnumbered.latestSequenceId_eq]
    exact UInt32.toNat_ofNat_of_lt' hfew
  · intro producerId now next hphase hfull hstep
    cases State.producerStep_full hphase hfull hstep
    exact ⟨rfl, rfl, rfl⟩
  · intro consumerId hpopping
    have htested := hexclusive.tested consumerId
    rwa [hpopping] at htested
  · have hpushed : (s.pushed.map (fun item => item.sequenceId.toNat)).Nodup :=
      hids ▸ List.nodup_range
    have hpopped := List.Sublist.map (fun item => item.sequenceId.toNat) hprefix.sublist
    apply List.Nodup.of_map UInt32.toNat
    rw [List.map_map]
    exact hpopped.nodup hpushed
  · exact fun producerId => hprefix.filter _

/-- Two items pushed by two producers, the first of them popped by the second
consumer while the first one sleeps. -/
theorem delivers_in_order_two_items :
    ∃ s : State 2 2, s.pushed = [⟨0, 0, 5⟩, ⟨1, 1, 7⟩] ∧ s.popped = [⟨0, 0, 5⟩] ∧
      s.DeliversInOrder := by
  obtain ⟨s, hreach, hcheck⟩ := transition.Machine.exists_reachable_of_run
    (M := queueMachine 2 2) (s := {}) ⟨false, rfl⟩
    [.mainStep true, .mainStep true, .mainStep true, .mainStep true, .mainStep true,
      .mainStep true, .consumerStep 0 0, .consumerStep 0 0, .consumerStep 0 0, .producerStep 0 5,
      .producerStep 0 5, .producerStep 1 7, .consumerStep 1 0, .consumerStep 1 0,
      .consumerStep 1 0, .consumerStep 1 0, .consumerStep 1 0, .producerStep 1 7]
    (fun s => s.pushed = [⟨0, 0, 5⟩, ⟨1, 1, 7⟩] ∧ s.popped = [⟨0, 0, 5⟩]) (by decide)
  obtain ⟨hpushed, hpopped⟩ := of_decide_eq_true hcheck
  exact ⟨s, hpushed, hpopped, State.delivers_in_order hreach (by rw [hpushed]; decide)⟩

end spdlogger.producer_consumer_queue
