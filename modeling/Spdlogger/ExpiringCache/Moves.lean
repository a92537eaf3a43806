import Spdlogger.ExpiringCache.Handler

namespace spdlogger.expiring_cache

variable {Key Value Tid : Type} [DecidableEq Key] [DecidableEq Tid] {Q : ExpirationQueue Key}

/-- Everything that a step can do. -/
inductive State.Move (s : State Q Value Tid) :
    Action Key Value Tid → State Q Value Tid → Prop where
  | put (key : Key) (value : Value) (ttl : Int) (hfree : s.handler.mutexFree = true) :
      Move s (.put key value ttl) { s with
        cache := (s.cache.put s.clock key value ttl).1
        handler := s.notifyIf (s.cache.put s.clock key value ttl).2
        history := s.record (.put key value ttl) }
  | get (key : Key) (hfree : s.handler.mutexFree = true) :
      Move s (.get key) { s with history := s.record (.get key) }
  | remove (key : Key) (hfree : s.handler.mutexFree = true) :
      Move s (.remove key) { s with
        cache := (s.cache.remove key).1
        handler := s.notifyIf (s.cache.remove key).2.2
        history := s.record (.remove key) }
  | size (hfree : s.handler.mutexFree = true) : Move s .size { s with history := s.record .size }
  | tick (elapsed : Nat) : Move s (.tick elapsed) { s with clock := s.clock + elapsed }
  | lock (hphase : s.handler = .acquiring) : Move s .handlerStep { s with handler := .computing }
  | compute (hphase : s.handler = .computing) :
      Move s .handlerStep { s with handler := .testing s.cache.timeToWaitUntil }
  | find (deadline : Int) (hphase : s.handler = .testing deadline)
      (hwakes : s.cache.wakePredicate s.clock = true) :
      Move s .handlerStep { s with handler := .returned }
  | sleep (deadline : Int) (hphase : s.handler = .testing deadline)
      (hwakes : s.cache.wakePredicate s.clock = false) :
      Move s .handlerStep { s with handler := .blocked deadline }
  | testAgain (deadline : Int) (hphase : s.handler = .woken deadline) :
      Move s .handlerStep { s with handler := .testing deadline }
  | giveUp (hphase : s.handler = .timedOut) : Move s .handlerStep { s with handler := .returned }
  | exit (hphase : s.handler = .returned) (hstopping : s.cache.isStopping = true) :
      Move s .handlerStep { s with handler := .exited }
  | sweep (hphase : s.handler = .returned) (hrunning : s.cache.isStopping = false) :
      Move s .handlerStep { s with
        cache := s.cache.sweep s.clock
        handler := .computing
        history := s.record .sweep }
  | spuriousWake (deadline : Int) (hphase : s.handler = .blocked deadline) :
      Move s .spuriousWake { s with handler := .woken deadline }
  | timeout (deadline : Int) (hphase : s.handler = .blocked deadline) (hdue : deadline ≤ s.clock) :
      Move s .timeout { s with handler := .timedOut }
  | enter (thread : Tid) (hphase : s.stoppers thread = .idle ∨ s.stoppers thread = .returned ∨
        s.stoppers thread = .threw) (hfree : s.handler.mutexFree = true) :
      Move s (.stopStep thread) { s with
        cache := s.cache.setStopping
        stoppers := Function.update s.stoppers thread .notifying
        history := s.record .stop }
  | notify (thread : Tid) (hphase : s.stoppers thread = .notifying) :
      Move s (.stopStep thread) { s with
        handler := s.handler.notified
        stoppers := Function.update s.stoppers thread .testingJoinable }
  | pass (thread : Tid) (hphase : s.stoppers thread = .testingJoinable)
      (hjoinable : s.joinable = true) :
      Move s (.stopStep thread) { s with
        stoppers := Function.update s.stoppers thread .joining }
  | skip (thread : Tid) (hphase : s.stoppers thread = .testingJoinable)
      (hjoinable : s.joinable = false) :
      Move s (.stopStep thread) { s with
        stoppers := Function.update s.stoppers thread .returned }
  | join (thread : Tid) (hphase : s.stoppers thread = .joining) (hexited : s.handler = .exited)
      (hjoinable : s.joinable = true) :
      Move s (.stopStep thread) { s with
        joinable := false
        joins := s.joins + 1
        stoppers := Function.update s.stoppers thread .returned }
  | joinAgain (thread : Tid) (hphase : s.stoppers thread = .joining)
      (hexited : s.handler = .exited) (hjoinable : s.joinable = false) :
      Move s (.stopStep thread) { s with
        joinable := false
        joins := s.joins + 1
        stoppers := Function.update s.stoppers thread .threw }

theorem State.Move.handlerStep {s next : State Q Value Tid} (hstep : s.handlerStep = some next) :
    s.Move .handlerStep next := by
  unfold State.handlerStep at hstep
  cases hphase : s.handler with
  | acquiring =>
    simp only [hphase, Option.some.injEq] at hstep
    exact hstep ▸ .lock hphase
  | computing =>
    simp only [hphase, Option.some.injEq] at hstep
    exact hstep ▸ .compute hphase
  | testing deadline =>
    simp only [hphase] at hstep
    split_ifs at hstep with hwakes
    · cases hstep
      exact .find deadline hphase hwakes
    · cases hstep
      exact .sleep deadline hphase (Bool.not_eq_true _ ▸ hwakes)
  | woken deadline =>
    simp only [hphase, Option.some.injEq] at hstep
    exact hstep ▸ .testAgain deadline hphase
  | timedOut =>
    simp only [hphase, Option.some.injEq] at hstep
    exact hstep ▸ .giveUp hphase
  | returned =>
    simp only [hphase] at hstep
    split_ifs at hstep with hstopping
    · cases hstep
      exact .exit hphase hstopping
    · cases hstep
      exact .sweep hphase (Bool.not_eq_true _ ▸ hstopping)
  | blocked | exited => simp [hphase] at hstep

theorem State.Move.stopStep {s next : State Q Value Tid} {thread : Tid}
    (hstep : s.stopStep thread = some next) : s.Move (.stopStep thread) next := by
  unfold State.stopStep at hstep
  cases hphase : s.stoppers thread with
  | idle | returned | threw =>
    simp only [hphase, Option.ite_none_right_eq_some, Option.some.injEq] at hstep
    obtain ⟨hfree, rfl⟩ := hstep
    exact .enter thread (by simp [hphase]) hfree
  | notifying =>
    simp only [hphase, Option.some.injEq] at hstep
    exact hstep ▸ .notify thread hphase
  | testingJoinable =>
    simp only [hphase, Option.some.injEq] at hstep
    subst hstep
    by_cases hjoinable : s.joinable = true
    · rw [if_pos hjoinable]
      exact .pass thread hphase hjoinable
    · rw [if_neg hjoinable]
      exact .skip thread hphase (Bool.not_eq_true _ ▸ hjoinable)
  | joining =>
    simp only [hphase, Option.ite_none_right_eq_some, Option.some.injEq] at hstep
    obtain ⟨hexited, rfl⟩ := hstep
    by_cases hjoinable : s.joinable = true
    · rw [if_pos hjoinable]
      exact .join thread hphase hexited hjoinable
    · rw [if_neg hjoinable]
      exact .joinAgain thread hphase hexited (Bool.not_eq_true _ ▸ hjoinable)

/-- Every step is one of the moves. -/
theorem State.move_of_step {s next : State Q Value Tid} {action : Action Key Value Tid}
    (hstep : s.step action = some next) : s.Move action next := by
  cases action with
  | put key value ttl =>
    simp only [State.step, Option.ite_none_right_eq_some, Option.some.injEq] at hstep
    obtain ⟨hfree, rfl⟩ := hstep
    exact .put key value ttl hfree
  | get key =>
    simp only [State.step, Option.ite_none_right_eq_some, Option.some.injEq] at hstep
    obtain ⟨hfree, rfl⟩ := hstep
    exact .get key hfree
  | remove key =>
    simp only [State.step, Option.ite_none_right_eq_some, Option.some.injEq] at hstep
    obtain ⟨hfree, rfl⟩ := hstep
    exact .remove key hfree
  | size =>
    simp only [State.step, Option.ite_none_right_eq_some, Option.some.injEq] at hstep
    obtain ⟨hfree, rfl⟩ := hstep
    exact .size hfree
  | tick elapsed =>
    simp only [State.step, Option.some.injEq] at hstep
    exact hstep ▸ .tick elapsed
  | handlerStep => exact .handlerStep hstep
  | spuriousWake =>
    simp only [State.step] at hstep
    split at hstep
    · next deadline hphase =>
      cases hstep
      exact .spuriousWake deadline hphase
    · cases hstep
  | timeout =>
    simp only [State.step] at hstep
    split at hstep
    · next deadline hphase =>
      simp only [Option.ite_none_right_eq_some, Option.some.injEq] at hstep
      obtain ⟨hdue, rfl⟩ := hstep
      exact .timeout deadline hphase hdue
    · cases hstep
  | stopStep thread => exact .stopStep hstep

end spdlogger.expiring_cache
