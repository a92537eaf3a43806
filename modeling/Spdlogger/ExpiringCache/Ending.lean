import Mathlib.Data.Fintype.Basic
import Spdlogger.ExpiringCache.Linearized
import Spdlogger.Library.Progress
import Spdlogger.Library.Threads

namespace spdlogger.expiring_cache

variable {Key Value Tid : Type} [DecidableEq Key] [DecidableEq Tid] {Q : ExpirationQueue Key}

/-- The steps of the cache's own code. -/
def InterleavedAction.isOwn : InterleavedAction Key Value Tid → Bool
  | .callerStep _ | .handlerStep => true
  | _ => false

/-- Behind the flag, in `stop`. -/
@[simp] def CallerPosition.stops : CallerPosition Key Value → Bool
  | .releasing | .notifying | .testingJoinable | .joining => true
  | _ => false

/-- Between the flag and the notification, in `stop`. -/
@[simp] def CallerPosition.notifies : CallerPosition Key Value → Bool
  | .releasing | .notifying => true
  | _ => false

/-- The steps that a call still takes at most, with those it gives to the handler: 3 for a
notification and 5 for an entry of the heap. -/
@[simp] def CallerPosition.stepsLeft : CallerPosition Key Value → Nat
  | .idle => 0
  | .returned _ | .threw => 1
  | .leaving _ _ | .joining => 2
  | .comparing _ _ | .counting | .testingJoinable => 3
  | .finding _ => 4
  | .topping _ _ => 6
  | .erasing _ | .notifying => 7
  | .releasing => 8
  | .setting => 9
  | .pushing _ _ => 12
  | .assigning _ _ _ => 13
  | .reading _ _ _ => 14
  | .testing _ => 15
  | .acquiring _ => 16

/-- The sweep has another round before it. -/
def TExpiringCache.due (self : TExpiringCache Q Value) (now : Int) : Bool :=
  (Q.top self.expirationQueue).any fun top => top.expiration ≤ now

/-- The steps that the handler takes at most until it sleeps, beside 5 for each entry of the
heap. A round that is sure to remove an entry is paid for by that entry. -/
def HandlerPosition.stepsLeft (cache : TExpiringCache Q Value) (clock : Int) :
    HandlerPosition → Nat
  | .exited | .blocked _ => 0
  | .testing _ => 2
  | .computing | .woken _ => 3
  | .acquiring => 4
  | .timedOut => 6
  | .returned => if cache.wakePredicate clock then 1 else 5
  | .sweeping now => if cache.due now then 0 else 4

/-- What a step of a caller does to the heap, the flag and the handler. -/
inductive Interleaved.CallerMove (s next : Interleaved Q Value Tid) (thread : Tid) : Prop where
  | go (position : CallerPosition Key Value)
      (hcallers : next.callers = Function.update s.callers thread position)
      (hqueue : next.cache.expirationQueue = s.cache.expirationQueue)
      (hstopping : next.cache.isStopping = s.cache.isStopping) (hhandler : next.handler = s.handler)
      (hless : position.stepsLeft < (s.callers thread).stepsLeft)
      (hnotifies : position.notifies = (s.callers thread).notifies)
      (hstops : position.stops = true → (s.callers thread).stops = true)
      (hjoins : (s.callers thread).stops = true → position.stops = true ∨ next.joinable = false)
      (hjoinable : next.joinable = true → s.joinable = true)
  | push (position : CallerPosition Key Value) (entry : HeapEntry Key)
      (hmode : (s.callers thread).mode = .exclusive)
      (hcallers : next.callers = Function.update s.callers thread position)
      (hqueue : next.cache.expirationQueue = Q.push s.cache.expirationQueue entry)
      (hstopping : next.cache.isStopping = s.cache.isStopping) (hhandler : next.handler = s.handler)
      (hless : position.stepsLeft + 5 < (s.callers thread).stepsLeft)
      (hnotifies : position.notifies = (s.callers thread).notifies)
      (hstops : position.stops = (s.callers thread).stops) (hjoinable : next.joinable = s.joinable)
  | notify (position : CallerPosition Key Value)
      (hcallers : next.callers = Function.update s.callers thread position)
      (hcache : next.cache = s.cache) (hhandler : next.handler = s.handler.notified)
      (hless : position.stepsLeft + 3 < (s.callers thread).stepsLeft)
      (hstops : position.stops = (s.callers thread).stops) (hjoinable : next.joinable = s.joinable)
  | set (hposition : s.callers thread = .setting)
      (hcallers : next.callers = Function.update s.callers thread .releasing)
      (hcache : next.cache = s.cache.setStopping) (hhandler : next.handler = s.handler)
      (hjoinable : next.joinable = s.joinable)

variable {s next : Interleaved Q Value Tid} {thread : Tid}

/-- On the way through a method. -/
structure CallerPosition.Precedes (position next : CallerPosition Key Value) : Prop where
  less : next.stepsLeft < position.stepsLeft
  notifies : next.notifies = position.notifies
  stops : next.stops = position.stops

omit [DecidableEq Key] in
/-- Taking the lock is a step on the way through a method. -/
theorem Op.precedes_locked (op : Op Key Value) : (CallerPosition.acquiring op).Precedes op.locked := by
  cases op <;> constructor <;> simp [Op.locked]

omit [DecidableEq Key] in
theorem Op.precedes_refused (op : Op Key Value) : (CallerPosition.testing op).Precedes op.refused := by
  cases op <;> constructor <;> simp [Op.refused]

omit [DecidableEq Key] in
theorem Op.precedes_admitted (op : Op Key Value) :
    (CallerPosition.testing op).Precedes op.admitted := by
  cases op <;> constructor <;> simp [Op.admitted]

omit [DecidableEq Key] in
/-- A step to another statement that changes nothing else of this. -/
theorem Interleaved.CallerMove.within {position : CallerPosition Key Value}
    (hgoes : (s.callers thread).Precedes position)
    (hcallers : next.callers = Function.update s.callers thread position)
    (hqueue : next.cache.expirationQueue = s.cache.expirationQueue)
    (hstopping : next.cache.isStopping = s.cache.isStopping) (hhandler : next.handler = s.handler)
    (hjoinable : next.joinable = s.joinable) : s.CallerMove next thread :=
  .go position hcallers hqueue hstopping hhandler hgoes.less hgoes.notifies
    (fun h => hgoes.stops ▸ h) (fun h => .inl (hgoes.stops.trans h)) fun h => hjoinable ▸ h

theorem Interleaved.callerMove_of_insideStep {position : CallerPosition Key Value}
    (hposition : s.callers thread = position) (hstep : s.insideStep thread position = some next) :
    next.clock = s.clock ∧ s.CallerMove next thread := by
  cases position with
  | testing op =>
    simp only [Interleaved.insideStep, Option.some.injEq] at hstep
    subst hstep
    refine ⟨rfl, .within ?_ rfl rfl rfl rfl rfl⟩
    rw [hposition]
    split
    · exact op.precedes_refused
    · exact op.precedes_admitted
  | reading | assigning | erasing | counting | comparing =>
    simp only [Interleaved.insideStep, Option.some.injEq] at hstep
    subst hstep
    exact ⟨rfl, .within (by rw [hposition]; constructor <;> simp) rfl rfl rfl rfl rfl⟩
  | pushing key metadata =>
    simp only [Interleaved.insideStep, Option.some.injEq] at hstep
    subst hstep
    refine ⟨rfl, .push (.topping key .done) _ ?_ rfl rfl rfl rfl ?_ ?_ ?_ rfl⟩ <;> rw [hposition] <;>
      simp [CallerPosition.mode]
  | topping key ret =>
    simp only [Interleaved.insideStep, Option.some.injEq] at hstep
    subst hstep
    refine ⟨rfl, ?_⟩
    by_cases hnotify : ((Q.top s.cache.expirationQueue).any fun top => top.key = key) = true
    · exact .notify (.leaving false ret) rfl rfl (if_pos hnotify) (by simp [hposition])
        (by simp [hposition]) rfl
    · exact .within (by rw [hposition]; constructor <;> simp) rfl rfl rfl (if_neg hnotify) rfl
  | finding key =>
    simp only [Interleaved.insideStep] at hstep
    split at hstep <;> cases hstep <;>
      exact ⟨rfl, .within (by rw [hposition]; constructor <;> simp) rfl rfl rfl rfl rfl⟩
  | setting =>
    simp only [Interleaved.insideStep, Option.some.injEq] at hstep
    subst hstep
    exact ⟨rfl, .set hposition rfl rfl rfl rfl⟩
  | idle | acquiring | leaving | releasing | notifying | testingJoinable | joining | returned | threw =>
    cases hstep

theorem Interleaved.callerMove_of_callerStep (hstep : s.callerStep thread = some next) :
    next.clock = s.clock ∧ s.CallerMove next thread := by
  cases hposition : s.callers thread with
  | idle => simp [Interleaved.callerStep, hposition] at hstep
  | acquiring op =>
    simp only [Interleaved.callerStep, hposition, Option.map_eq_some_iff] at hstep
    obtain ⟨dataMutex, _, rfl⟩ := hstep
    exact ⟨rfl, .within (by rw [hposition]; exact op.precedes_locked) rfl rfl rfl rfl rfl⟩
  | leaving | releasing | returned | threw =>
    simp only [Interleaved.callerStep, hposition, Option.some.injEq] at hstep
    subst hstep
    exact ⟨rfl, .within (by rw [hposition]; constructor <;> simp) rfl rfl rfl rfl rfl⟩
  | notifying =>
    simp only [Interleaved.callerStep, hposition, Option.some.injEq] at hstep
    subst hstep
    exact ⟨rfl, .notify .testingJoinable rfl rfl rfl (by simp [hposition]) (by simp [hposition]) rfl⟩
  | testingJoinable =>
    simp only [Interleaved.callerStep, hposition, Option.some.injEq] at hstep
    subst hstep
    cases hjoinable : s.joinable with
    | true =>
      refine ⟨rfl, .go .joining (by simp [Interleaved.setCaller]) rfl rfl rfl ?_ ?_ ?_ ?_ ?_⟩ <;>
        simp [hposition, Interleaved.setCaller, hjoinable]
    | false =>
      refine ⟨rfl, .go (.returned .done) (by simp [Interleaved.setCaller]) rfl rfl rfl ?_ ?_ ?_ ?_ ?_⟩ <;>
        simp [hposition, Interleaved.setCaller, hjoinable]
  | joining =>
    simp only [Interleaved.callerStep, hposition, Option.ite_none_right_eq_some, Option.some.injEq]
      at hstep
    obtain ⟨_, rfl⟩ := hstep
    refine ⟨rfl, .go (if s.joinable then .returned .done else .threw) rfl rfl rfl rfl ?_ ?_ ?_ ?_ ?_⟩ <;>
      split <;> simp [hposition]
  | testing | reading | assigning | pushing | topping | finding | comparing | erasing | counting
  | setting =>
    simp only [Interleaved.callerStep, hposition] at hstep
    exact Interleaved.callerMove_of_insideStep hposition hstep

/-- A thread in `stop` sees to it that the handler does not sleep on, and that it is joined. -/
structure Interleaved.StopsHandler (s : Interleaved Q Value Tid) : Prop where
  exited : s.handler = .exited → s.cache.isStopping = true
  stopping : ∀ thread, (s.callers thread).stops = true → s.cache.isStopping = true
  joins : s.cache.isStopping = true → s.joinable = true → ∃ thread, (s.callers thread).stops = true
  notifies : ∀ deadline, s.handler = .blocked deadline → s.cache.isStopping = true →
    ∃ thread, (s.callers thread).notifies = true

omit [DecidableEq Key] in
/-- A property of somebody that a moving thread keeps. -/
private theorem exists_update {p : CallerPosition Key Value → Bool}
    {callers : Tid → CallerPosition Key Value} {position : CallerPosition Key Value}
    (hkeeps : p (callers thread) = true → p position = true)
    (hsome : ∃ other, p (callers other) = true) :
    ∃ other, p (Function.update callers thread position other) = true := by
  obtain ⟨other, hother⟩ := hsome
  by_cases hthread : other = thread
  · subst hthread
    exact ⟨other, by simpa using hkeeps hother⟩
  · exact ⟨other, by simpa [Function.update_of_ne hthread] using hother⟩

omit [DecidableEq Key] in
private theorem of_update {p : CallerPosition Key Value → Bool} {other : Tid}
    {callers : Tid → CallerPosition Key Value} {position : CallerPosition Key Value}
    (hposition : p position = true → p (callers thread) = true)
    (hother : p (Function.update callers thread position other) = true) :
    ∃ before, p (callers before) = true := by
  by_cases hthread : other = thread
  · subst hthread
    exact ⟨other, hposition (by simpa using hother)⟩
  · exact ⟨other, by simpa [Function.update_of_ne hthread] using hother⟩

/-- A notified handler sleeps no more. -/
theorem HandlerPosition.notified_ne_blocked (position : HandlerPosition) (deadline : Int) :
    position.notified ≠ .blocked deadline := by
  cases position <;> simp [HandlerPosition.notified]

/-- A notification makes no handler exit. -/
theorem HandlerPosition.notified_eq_exited {position : HandlerPosition}
    (h : position.notified = .exited) : position = .exited := by
  cases position <;> simp_all [HandlerPosition.notified]

omit [DecidableEq Key] in
/-- A thread that moves on while the flag and the handler stay as they are. -/
theorem Interleaved.StopsHandler.moves (h : s.StopsHandler) {position : CallerPosition Key Value}
    (hcallers : next.callers = Function.update s.callers thread position)
    (hflag : next.cache.isStopping = s.cache.isStopping) (hhandler : next.handler = s.handler)
    (hnotifies : position.notifies = (s.callers thread).notifies)
    (hstops : position.stops = true → (s.callers thread).stops = true)
    (hjoins : (s.callers thread).stops = true → position.stops = true ∨ next.joinable = false)
    (hjoinable : next.joinable = true → s.joinable = true) : next.StopsHandler := by
  refine ⟨?_, fun other hother => ?_, fun hnow hthere => ?_, fun deadline hblocked hnow => ?_⟩
  · rw [hhandler, hflag]
    exact h.exited
  · rw [hcallers] at hother
    obtain ⟨before, hbefore⟩ := of_update hstops hother
    rw [hflag]
    exact h.stopping before hbefore
  · rw [hcallers]
    refine exists_update (fun hbefore => ?_) (h.joins (hflag ▸ hnow) (hjoinable hthere))
    exact (hjoins hbefore).resolve_right (by simp [hthere])
  · rw [hcallers]
    exact exists_update (fun hbefore => hnotifies.trans hbefore)
      (h.notifies deadline (hhandler ▸ hblocked) (hflag ▸ hnow))

omit [DecidableEq Key] in
/-- A move of a caller keeps the threads in `stop` responsible. -/
theorem Interleaved.StopsHandler.caller (h : s.StopsHandler) (hmove : s.CallerMove next thread) :
    next.StopsHandler := by
  cases hmove with
  | go position hcallers _ hflag hhandler _ hnotifies hstops hjoins hjoinable =>
    exact h.moves hcallers hflag hhandler hnotifies hstops hjoins hjoinable
  | push position entry _ hcallers _ hflag hhandler _ hnotifies hstops hjoinable =>
    exact h.moves hcallers hflag hhandler hnotifies (fun hafter => hstops ▸ hafter)
      (fun hbefore => .inl (hstops.trans hbefore)) fun hthere => hjoinable ▸ hthere
  | notify position hcallers hcache hhandler _ hstops hjoinable =>
    refine ⟨?_, fun other hother => ?_, fun hnow hthere => ?_, fun deadline hblocked _ => ?_⟩
    · rw [hhandler, hcache]
      exact fun hafter => h.exited (HandlerPosition.notified_eq_exited hafter)
    · rw [hcallers] at hother
      obtain ⟨before, hbefore⟩ := of_update (fun hafter => hstops ▸ hafter) hother
      rw [hcache]
      exact h.stopping before hbefore
    · rw [hcallers]
      exact exists_update (fun hbefore => hstops.trans hbefore)
        (h.joins (hcache ▸ hnow) (hjoinable ▸ hthere))
    · rw [hhandler] at hblocked
      exact absurd hblocked (s.handler.notified_ne_blocked deadline)
  | set hposition hcallers hcache hhandler hjoinable =>
    have hthere : next.callers thread = .releasing := by simp [hcallers]
    have hflag : next.cache.isStopping = true := by simp [hcache, TExpiringCache.setStopping]
    exact ⟨fun _ => hflag, fun _ _ => hflag, fun _ _ => ⟨thread, by simp [hthere]⟩,
      fun _ _ _ => ⟨thread, by simp [hthere]⟩⟩

/-- The handler sleeps only where it has found the flag unset, and ends only where it has
found it set. -/
theorem Interleaved.handlerStep_frame (hstep : s.handlerStep = some next) :
    next.callers = s.callers ∧ next.joinable = s.joinable ∧ next.clock = s.clock ∧
      next.cache.isStopping = s.cache.isStopping ∧
      (next.handler = .exited → s.cache.isStopping = true) ∧
      ∀ deadline, next.handler = .blocked deadline → s.cache.isStopping = false := by
  cases hposition : s.handler with
  | acquiring | woken | timedOut =>
    simp only [Interleaved.handlerStep, hposition, Option.map_eq_some_iff] at hstep
    obtain ⟨dataMutex, _, rfl⟩ := hstep
    simp
  | computing =>
    simp only [Interleaved.handlerStep, hposition, Option.some.injEq] at hstep
    subst hstep
    simp
  | testing deadline =>
    simp only [Interleaved.handlerStep, hposition] at hstep
    split at hstep
    · cases hstep
      simp
    · rename_i hasleep
      cases hstep
      have hrunning : s.cache.isStopping = false := by
        simp only [TExpiringCache.wakePredicate, Bool.or_eq_true, not_or] at hasleep
        simpa using hasleep.1
      simp [hrunning]
  | returned =>
    simp only [Interleaved.handlerStep, hposition] at hstep
    split at hstep
    · rename_i hstopping
      cases hstep
      simp [hstopping]
    · cases hstep
      simp
  | sweeping now =>
    simp only [Interleaved.handlerStep, hposition] at hstep
    split at hstep
    · cases hstep
      simp
    · split at hstep
      · cases hstep
        simp
      · cases hstep
        simp
  | blocked | exited => simp [Interleaved.handlerStep, hposition] at hstep

/-- Each step keeps the threads in `stop` responsible. -/
theorem Interleaved.StopsHandler.step (h : s.StopsHandler)
    {action : InterleavedAction Key Value Tid} (hstep : s.step action = some next) :
    next.StopsHandler := by
  cases action with
  | call thread op =>
    cases hposition : s.callers thread with
    | idle =>
      simp only [Interleaved.step, hposition, Option.some.injEq] at hstep
      subst hstep
      refine h.moves rfl rfl rfl ?_ ?_ ?_ id <;> simp [hposition]
    | _ => simp [Interleaved.step, hposition] at hstep
  | callerStep thread => exact h.caller (Interleaved.callerMove_of_callerStep hstep).2
  | tick elapsed =>
    simp only [Interleaved.step, Option.some.injEq] at hstep
    subst hstep
    exact ⟨h.exited, h.stopping, h.joins, h.notifies⟩
  | handlerStep =>
    obtain ⟨hcallers, hjoinable, _, hflag, hexited, hblocked⟩ := Interleaved.handlerStep_frame hstep
    refine ⟨?_, ?_, ?_, fun deadline hasleep hnow => ?_⟩
    · rw [hflag]
      exact hexited
    · rw [hcallers, hflag]
      exact h.stopping
    · rw [hcallers, hflag, hjoinable]
      exact h.joins
    · rw [hflag, hblocked deadline hasleep] at hnow
      cases hnow
  | spuriousWake =>
    cases hposition : s.handler with
    | blocked deadline =>
      simp only [Interleaved.step, hposition, Option.some.injEq] at hstep
      subst hstep
      exact ⟨by simp, h.stopping, h.joins, by simp⟩
    | _ => simp [Interleaved.step, hposition] at hstep
  | timeout =>
    cases hposition : s.handler with
    | blocked deadline =>
      simp only [Interleaved.step, hposition, Option.ite_none_right_eq_some, Option.some.injEq] at hstep
      obtain ⟨_, rfl⟩ := hstep
      exact ⟨by simp, h.stopping, h.joins, by simp⟩
    | _ => simp [Interleaved.step, hposition] at hstep

/-- Every call is back and nobody holds the lock. The handler sleeps, or, once the cache is
stopped, has been joined. -/
structure Interleaved.Settled (s : Interleaved Q Value Tid) : Prop where
  callers : ∀ thread, s.callers thread = .idle
  writer : s.dataMutex.writer = none
  readers : s.dataMutex.readers = ∅
  handler : (s.cache.isStopping = false ∧ ∃ deadline, s.handler = .blocked deadline) ∨
    (s.cache.isStopping = true ∧ s.handler = .exited ∧ s.joinable = false)

section handler
omit [DecidableEq Key]

end handler

variable [Fintype Tid]

/-- The steps that are left to the cache's own code. -/
def Interleaved.stepsLeft (s : Interleaved Q Value Tid) : Nat :=
  5 * (Q.items s.cache.expirationQueue).card + s.handler.stepsLeft s.cache s.clock +
    ∑ thread, (s.callers thread).stepsLeft

end spdlogger.expiring_cache
