/-
AsioServer.Infra.LoggerSteps — what one step of the logger does.

`LogMove` inverts a step of a thread and `LogEffect` a step of the logger. Most branches
only look (`LogLook`): they read `_isAsync`, `_logQue` or `joinable()` and change nothing
but the place of the thread. A step inside a call of `_logQue` is a step of `SafeQueue`,
whatever the call is made for (`LogMove.inQueue`).

`LogPoint.fits` says which places a thread can be at: the first one those of
`AsyncLogThread`, the others those of `log` and `SetAsyncMode`, and each call of the queue
has its own points. What a notification leaves alone is read off `Notify.apply_map_eq`.
-/
import AsioServer.Infra.Logger
import AsioServer.Infra.SafeQueueWakeups

namespace AsioServer.Infra

open AsioServer.Lib

variable {α : Type*}

/-! ## The calls of the queue -/

/-- The calls of `SafeQueue`. -/
inductive QueueKind where
  | push
  | pop
  | stop
  | size
  deriving DecidableEq, Repr

def QueuePoint.kind : QueuePoint α → QueueKind
  | pushEnter _ | pushTest _ | pushBlock _ | pushParked _ | pushCheck _ | pushing _ => .push
  | popEnter | popTest | popBlock | popParked | popCheck | popping => .pop
  | stopStore | stopNotifyEmpty | stopNotifyFull => .stop
  | sizeEnter | sizeRead => .size

def QueueReturn.kind : QueueReturn α → QueueKind
  | push _ _ => .push
  | pop _ => .pop
  | stop => .stop
  | size _ => .size

def QueueNext.kind : QueueNext α → QueueKind
  | point p => p.kind
  | returned r => r.kind

/-- A step stays inside its call. -/
theorem QueueMove.kind {q : SafeQueue α} {i : Nat} {p : QueuePoint α} {r : QueueStep α}
    (h : QueueMove q i p r) : r.next.kind = p.kind := by
  cases h <;> rfl

@[simp] theorem QueuePoint.kind_wake (p : QueuePoint α) : p.wake.kind = p.kind := by
  cases p <;> rfl

namespace LogPoint

/-- The places of the thread with the number `i`. -/
def fits (i : Nat) : LogPoint → Bool
  | idle | testAsync _ | testQueue _ => i != 0
  | push p => i != 0 && p.kind == .push
  | dispatch caller _ p =>
      (match caller with
        | .log => i != 0
        | .consumer _ => i == 0) &&
      match p with
      | .nestedPush p => p.kind == .push
      | _ => true
  | switch (.stopping p) => i != 0 && p.kind == .stop
  | switch _ => i != 0
  | absent | callPop _ | callSize | ended => i == 0
  | pop _ p => i == 0 && p.kind == .pop
  | size p => i == 0 && p.kind == .size

/-- The call of the queue that is made at a place. -/
def queueKind : LogPoint → QueueKind
  | pop _ _ => .pop
  | switch _ => .stop
  | size _ => .size
  | _ => .push

/-- How far `AsyncLogThread` is. -/
inductive Stage where
  | absent
  | looping
  | draining
  deriving DecidableEq, Repr

def stage : LogPoint → Stage
  | callPop false | pop false _ | dispatch (.consumer false) _ _ => .looping
  | callPop true | pop true _ | dispatch (.consumer true) _ _ | callSize | size _ | ended =>
      .draining
  | _ => .absent

theorem stage_dispatch (caller : DispatchCaller) (event : LogEvent) (d d' : DispatchPoint) :
    (dispatch caller event d).stage = (dispatch caller event d').stage := by
  cases caller with
  | log => rfl
  | consumer draining => cases draining <;> rfl

theorem hand_dispatch (caller : DispatchCaller) (event : LogEvent) (d d' : DispatchPoint) :
    (dispatch caller event d).hand = (dispatch caller event d').hand := by
  cases caller <;> rfl

/-- How far `SetAsyncMode` is, once it holds `_mutex`. -/
inductive Phase where
  | turningOn
  | making
  | starting
  | turnedOn
  | turningOff
  | testing
  | stopping
  | stopped
  | joined
  | turnedOff
  deriving DecidableEq, Repr

def phase : LogPoint → Option Phase
  | switch (.store true _) => some .turningOn
  | switch (.makeQueue _) => some .making
  | switch .startThread => some .starting
  | switch (.unlock true) => some .turnedOn
  | switch (.store false _) => some .turningOff
  | switch .testQueue => some .testing
  | switch (.stopping .stopStore) => some .stopping
  | switch (.stopping _) | switch .testJoinable | switch .joining => some .stopped
  | switch .reset => some .joined
  | switch (.unlock false) => some .turnedOff
  | _ => none

end LogPoint

/-! ## Places and the queue -/

/-- The places inside a call of `_logQue`. -/
inductive InCall : LogPoint → QueuePoint LogEvent → Prop where
  | push {p} : InCall (.push p) p
  | nested {caller event p} : InCall (.dispatch caller event (.nestedPush p)) p
  | stopping {p} : InCall (.switch (.stopping p)) p
  | pop {draining p} : InCall (.pop draining p) p
  | size {p} : InCall (.size p) p

namespace LogPoint

variable {x : LogPoint} {p p' : QueuePoint LogEvent} {i : Nat}

theorem inCall (h : x.quePoint = some p) : InCall x p := by
  unfold quePoint at h
  split at h
  · exact Option.some.inj h ▸ .push
  · exact Option.some.inj h ▸ .nested
  · exact Option.some.inj h ▸ .stopping
  · exact Option.some.inj h ▸ .pop
  · exact Option.some.inj h ▸ .size
  · exact absurd h (by simp)

theorem quePoint_atQueue (h : x.quePoint = some p) : (x.atQueue p').quePoint = some p' := by
  cases inCall h <;> rfl

theorem locked_atQueue (h : x.quePoint = some p) : (x.atQueue p').locked = x.locked := by
  cases inCall h <;> rfl

theorem stage_atQueue (h : x.quePoint = some p) : (x.atQueue p').stage = x.stage := by
  cases inCall h with
  | nested => exact stage_dispatch _ _ _ _
  | @pop draining => cases draining <;> rfl
  | push | stopping | size => rfl

theorem hand_atQueue (h : x.quePoint = some p) : (x.atQueue p').hand = x.hand := by
  cases inCall h with
  | nested => exact hand_dispatch _ _ _ _
  | push | stopping | pop | size => rfl

theorem fits_atQueue (h : x.quePoint = some p) (hkind : p'.kind = p.kind) :
    (x.atQueue p').fits i = x.fits i := by
  cases inCall h <;> simp only [atQueue, fits, hkind]

theorem wake_of_quePoint (h : x.quePoint = some p) : x.wake = x.atQueue p.wake := by
  unfold wake
  rw [h]
  rfl

/-- A thread that is parked is at a place of a call of the queue. -/
theorem quePoint_of_parked (h : x.isPushParked = true ∨ x.isPopParked = true) :
    ∃ p, x.quePoint = some p ∧ (p.isPushParked = true ∨ p.isPopParked = true) := by
  unfold isPushParked isPopParked at h
  cases hx : x.quePoint with
  | none =>
      rw [hx] at h
      exact absurd h (by simp [QueueThread.isPushParked, QueueThread.isPopParked])
  | some p =>
      rw [hx] at h
      exact ⟨p, rfl, h⟩

/-- What the call of the queue does not change, a wake-up does not change. -/
theorem wake_congr {β : Type*} {f : LogPoint → β}
    (hf : ∀ x p, x.quePoint = some p → f (x.atQueue p.wake) = f x) (x : LogPoint) :
    f x.wake = f x := by
  cases h : x.quePoint with
  | none =>
      unfold wake
      rw [h]
      rfl
  | some p =>
      rw [wake_of_quePoint h]
      exact hf x p h

@[simp] theorem locked_wake (x : LogPoint) : x.wake.locked = x.locked :=
  wake_congr (fun _ _ h => locked_atQueue h) x

@[simp] theorem stage_wake (x : LogPoint) : x.wake.stage = x.stage :=
  wake_congr (fun _ _ h => stage_atQueue h) x

@[simp] theorem hand_wake (x : LogPoint) : x.wake.hand = x.hand :=
  wake_congr (fun _ _ h => hand_atQueue h) x

@[simp] theorem fits_wake (x : LogPoint) : x.wake.fits i = x.fits i :=
  wake_congr (fun _ p h => fits_atQueue h p.kind_wake) x

@[simp] theorem phase_wake (x : LogPoint) : x.wake.phase = x.phase := by
  refine wake_congr (fun x p h => ?_) x
  cases inCall h with
  | stopping => cases p <;> rfl
  | push | nested | pop | size => rfl

/-- Seen from the queue a wake-up is one of its own. -/
theorem quePoint_wake (x : LogPoint) : x.wake.quePoint = QueueThread.wake x.quePoint := by
  cases h : x.quePoint with
  | none =>
      unfold wake
      rw [h]
      exact h
  | some p =>
      rw [wake_of_quePoint h]
      exact quePoint_atQueue h

end LogPoint

/-! ## One step of a thread -/

/-- The steps that only look. -/
inductive LogLook (s : LoggerState) : LogPoint → LogPoint → Prop where
  | sync {event} : s.isAsync = false → LogLook s (.testAsync event) (.dispatch .log event .lock)
  | async {event} : s.isAsync = true → LogLook s (.testAsync event) (.testQueue event)
  | noQueue {event} : s.logQue = none →
      LogLook s (.testQueue event) (.dispatch .log event .lock)
  | callPush {event que} : s.logQue = some que →
      LogLook s (.testQueue event) (.push (.pushEnter event))
  | nestedSync {caller event inner} : s.isAsync = false →
      LogLook s (.dispatch caller event (.nestedAsync inner))
        (.dispatch caller event (.nestedLock inner))
  | nestedAsync {caller event inner} : s.isAsync = true →
      LogLook s (.dispatch caller event (.nestedAsync inner))
        (.dispatch caller event (.nestedQueue inner))
  | nestedNoQueue {caller event inner} : s.logQue = none →
      LogLook s (.dispatch caller event (.nestedQueue inner))
        (.dispatch caller event (.nestedLock inner))
  | nestedPush {caller event inner que} : s.logQue = some que →
      LogLook s (.dispatch caller event (.nestedQueue inner))
        (.dispatch caller event (.nestedPush (.pushEnter inner)))
  | nothingToStop : s.logQue = none → LogLook s (.switch .testQueue) (.switch (.unlock false))
  | callStop {que} : s.logQue = some que →
      LogLook s (.switch .testQueue) (.switch (.stopping .stopStore))
  | joinable : s.joinable = true → LogLook s (.switch .testJoinable) (.switch .joining)
  | notJoinable : s.joinable = false → LogLook s (.switch .testJoinable) (.switch .reset)
  | callPop {draining que} : s.logQue = some que →
      LogLook s (.callPop draining) (.pop draining .popEnter)
  | callSize {que} : s.logQue = some que → LogLook s .callSize (.size .sizeEnter)

/-- The branches of `LoggerState.step`. -/
inductive LogMove (s : LoggerState) (i : Nat) : LogPoint → LogStep → Prop where
  | inQueue {x p que r} : x.quePoint = some p → s.logQue = some que → QueueMove que i p r →
      LogMove s i x {
        state := { s with logQue := some r.que, accepted := s.accepted ++ r.next.taken }
        next := x.inQueue r.next
        notify := r.notify }
  | look {x x'} : LogLook s x x' → LogMove s i x { state := s, next := x' }
  | lockDispatch {caller event} : s.mutex = none →
      LogMove s i (.dispatch caller event .lock)
        { state := { s with mutex := some i }, next := .dispatch caller event .appending }
  | dispatched {caller event} : LogMove s i (.dispatch caller event .appending) {
      state := { s with mutex := none, dispatched := s.dispatched ++ caller.fromQueue event }
      next := caller.next }
  | lockSwitch {async queueSize} : s.mutex = none →
      LogMove s i (.switch (.lock async queueSize))
        { state := { s with mutex := some i }, next := .switch (.store async queueSize) }
  | turnOn {queueSize} : LogMove s i (.switch (.store true queueSize))
      { state := { s with isAsync := true }, next := .switch (.makeQueue queueSize) }
  | turnOff {queueSize} : LogMove s i (.switch (.store false queueSize))
      { state := { s with isAsync := false }, next := .switch .testQueue }
  | makeQueue {queueSize} : LogMove s i (.switch (.makeQueue queueSize)) {
      state := { s with
        logQue := some { maxSize := queueSize }
        status := if s.queueInUse then .undefined else s.status }
      next := .switch .startThread }
  | replaceThread : s.joinable = true → LogMove s i (.switch .startThread)
      { state := { s with status := .terminated }, next := .switch (.unlock true) }
  | startThread : s.joinable = false → LogMove s i (.switch .startThread) {
      state := { s with threads := s.threads.set 0 (.callPop false) }
      next := .switch (.unlock true) }
  | joined : s.consumer = .ended → LogMove s i (.switch .joining)
      { state := { s with threads := s.threads.set 0 .absent }, next := .switch .reset }
  | reset : LogMove s i (.switch .reset) {
      state := { s with
        logQue := none
        status := if s.queueInUse then .undefined else s.status }
      next := .switch (.unlock false) }
  | unlock {async} : LogMove s i (.switch (.unlock async))
      { state := { s with mutex := none }, next := .idle }
  | popGone {draining} : s.logQue = none → LogMove s i (.callPop draining)
      { state := { s with status := .undefined }, next := .pop draining .popEnter }
  | sizeGone : s.logQue = none → LogMove s i .callSize
      { state := { s with status := .undefined }, next := .size .sizeEnter }

section Move

variable {s : LoggerState} {i : Nat} {x : LogPoint} {p : QueuePoint LogEvent} {r : LogStep}

theorem LoggerState.lock_eq_some {next : LogPoint} (h : s.lock i next = some r) :
    s.mutex = none ∧ r = { state := { s with mutex := some i }, next } := by
  unfold LoggerState.lock at h
  split at h
  · next hfree => exact ⟨hfree, (Option.some.inj h).symm⟩
  · exact absurd h (by simp)

theorem LoggerState.enter_of_none {next : LogPoint} (h : s.logQue = none) :
    s.enter next = { state := { s with status := .undefined }, next } := by
  unfold LoggerState.enter
  rw [if_neg (by simp [h])]

theorem LoggerState.enter_of_some {next : LogPoint} {que : SafeQueue LogEvent}
    (h : s.logQue = some que) : s.enter next = { state := s, next } := by
  unfold LoggerState.enter
  rw [if_pos (by simp [h])]

theorem move_of_callStep (hx : x.quePoint = some p) (h : s.callStep i x p = some r) :
    LogMove s i x r := by
  simp only [LoggerState.callStep, Option.bind_eq_bind, Option.pure_def, Option.bind_eq_some_iff,
    Option.some.injEq] at h
  obtain ⟨que, hque, q, hq, rfl⟩ := h
  exact .inQueue hx hque (move_of_step hq)

theorem move_of_dispatchStep {caller : DispatchCaller} {event : LogEvent} {d : DispatchPoint}
    (h : s.dispatchStep i caller event d = some r) :
    LogMove s i (.dispatch caller event d) r := by
  cases d with
  | lock =>
      obtain ⟨hfree, rfl⟩ := LoggerState.lock_eq_some h
      exact .lockDispatch hfree
  | appending =>
      obtain rfl := Option.some.inj h
      exact .dispatched
  | nestedAsync inner =>
      obtain rfl := Option.some.inj h
      cases hasync : s.isAsync with
      | true => exact .look (.nestedAsync hasync)
      | false => exact .look (.nestedSync hasync)
  | nestedQueue inner =>
      obtain rfl := Option.some.inj h
      cases hque : s.logQue with
      | none => exact .look (.nestedNoQueue hque)
      | some que => exact .look (.nestedPush hque)
  | nestedPush p => exact move_of_callStep rfl h
  | nestedLock inner => exact absurd h (by simp [LoggerState.dispatchStep])

theorem move_of_switchStep {w : SwitchPoint} (h : s.switchStep i w = some r) :
    LogMove s i (.switch w) r := by
  cases w with
  | lock async queueSize =>
      obtain ⟨hfree, rfl⟩ := LoggerState.lock_eq_some h
      exact .lockSwitch hfree
  | store async queueSize =>
      obtain rfl := Option.some.inj h
      cases async with
      | true => exact .turnOn
      | false => exact .turnOff
  | makeQueue queueSize =>
      obtain rfl := Option.some.inj h
      exact .makeQueue
  | startThread =>
      obtain rfl := Option.some.inj h
      cases hjoinable : s.joinable with
      | true => exact .replaceThread hjoinable
      | false => exact .startThread hjoinable
  | testQueue =>
      obtain rfl := Option.some.inj h
      cases hque : s.logQue with
      | none => exact .look (.nothingToStop hque)
      | some que => exact .look (.callStop hque)
  | stopping p => exact move_of_callStep rfl h
  | testJoinable =>
      obtain rfl := Option.some.inj h
      cases hjoinable : s.joinable with
      | true => exact .look (.joinable hjoinable)
      | false => exact .look (.notJoinable hjoinable)
  | joining =>
      simp only [LoggerState.switchStep] at h
      split at h
      · next hended =>
        obtain rfl := Option.some.inj h
        exact .joined hended
      · exact absurd h (by simp)
  | reset =>
      obtain rfl := Option.some.inj h
      exact .reset
  | unlock async =>
      obtain rfl := Option.some.inj h
      exact .unlock

/-- **Every step of a thread is one of the branches.** -/
theorem move_of_loggerStep (h : s.step i x = some r) : LogMove s i x r := by
  cases x with
  | idle | absent | ended => exact absurd h (by simp [LoggerState.step])
  | testAsync event =>
      obtain rfl := Option.some.inj h
      cases hasync : s.isAsync with
      | true => exact .look (.async hasync)
      | false => exact .look (.sync hasync)
  | testQueue event =>
      obtain rfl := Option.some.inj h
      cases hque : s.logQue with
      | none => exact .look (.noQueue hque)
      | some que => exact .look (.callPush hque)
  | push p | pop draining p | size p => exact move_of_callStep rfl h
  | dispatch caller event d => exact move_of_dispatchStep h
  | switch w => exact move_of_switchStep h
  | callPop draining =>
      obtain rfl := Option.some.inj h
      cases hque : s.logQue with
      | none => exact LoggerState.enter_of_none hque ▸ .popGone hque
      | some que => exact LoggerState.enter_of_some hque ▸ .look (.callPop hque)
  | callSize =>
      obtain rfl := Option.some.inj h
      cases hque : s.logQue with
      | none => exact LoggerState.enter_of_none hque ▸ .sizeGone hque
      | some que => exact LoggerState.enter_of_some hque ▸ .look (.callSize hque)

end Move

/-! ## Places after a step of the queue -/

/-- Where a call of `_logQue` returns to. -/
inductive ReturnsTo : LogPoint → QueueReturn LogEvent → LogPoint → Prop where
  | push {p data ok} : ReturnsTo (.push p) (.push data ok) .idle
  | nested {caller event p data ok} :
      ReturnsTo (.dispatch caller event (.nestedPush p)) (.push data ok)
        (.dispatch caller event .appending)
  | stopping {p} : ReturnsTo (.switch (.stopping p)) .stop (.switch .testJoinable)
  | popped {draining p event} : ReturnsTo (.pop draining p) (.pop (some event))
      (.dispatch (.consumer draining) event .lock)
  | exhausted {draining p} : ReturnsTo (.pop draining p) (.pop none) .callSize
  | more {p n} : 0 < n → ReturnsTo (.size p) (.size n) (.callPop true)
  | ended {p} : ReturnsTo (.size p) (.size 0) .ended

section Places

variable {x y : LogPoint} {i : Nat} {p : QueuePoint LogEvent} {n : QueueNext LogEvent}
  {r : QueueReturn LogEvent}

/-- A place inside a call belongs to a call of its kind. -/
theorem kind_of_fits (hx : x.quePoint = some p) (hfits : x.fits i = true) :
    p.kind = x.queueKind := by
  cases LogPoint.inCall hx with
  | push | nested | stopping | pop | size =>
      simp only [LogPoint.fits, Bool.and_eq_true, beq_iff_eq] at hfits
      exact hfits.2

theorem returnsTo_afterCall (hx : x.quePoint = some p) (hfits : x.fits i = true)
    (hkind : r.kind = p.kind) : ReturnsTo x r (x.afterCall r) := by
  have hcall := hkind.trans (kind_of_fits hx hfits)
  cases LogPoint.inCall hx with
  | push | nested =>
      cases r with
      | push data ok => constructor
      | pop data | stop | size n => exact absurd hcall QueueKind.noConfusion
  | stopping =>
      cases r with
      | stop => constructor
      | push data ok | pop data | size n => exact absurd hcall QueueKind.noConfusion
  | pop =>
      cases r with
      | pop data => cases data <;> constructor
      | push data ok | stop | size n => exact absurd hcall QueueKind.noConfusion
  | size =>
      cases r with
      | size n =>
          cases n with
          | zero => exact .ended
          | succ n => exact .more (Nat.succ_pos n)
      | push data ok | stop | pop data => exact absurd hcall QueueKind.noConfusion

/-- What a step of a call does not change, when neither its points nor its return do. -/
theorem inQueue_congr {β : Type*} {f : LogPoint → β} (hx : x.quePoint = some p)
    (hfits : x.fits i = true) (hkind : n.kind = p.kind)
    (hpoint : ∀ p', p'.kind = p.kind → f (x.atQueue p') = f x)
    (hreturn : ∀ r y, ReturnsTo x r y → f y = f x) : f (x.inQueue n) = f x := by
  cases n with
  | point p' => exact hpoint p' hkind
  | returned r => exact hreturn r _ (returnsTo_afterCall hx hfits hkind)

theorem locked_inQueue (hx : x.quePoint = some p) (hfits : x.fits i = true)
    (hkind : n.kind = p.kind) : (x.inQueue n).locked = x.locked := by
  refine inQueue_congr hx hfits hkind (fun _ _ => LogPoint.locked_atQueue hx) fun r y h => ?_
  cases h <;> rfl

theorem fits_inQueue (hx : x.quePoint = some p) (hfits : x.fits i = true)
    (hkind : n.kind = p.kind) : (x.inQueue n).fits i = true := by
  cases n with
  | point p' => exact (LogPoint.fits_atQueue hx hkind).trans hfits
  | returned r =>
      have hreturn := returnsTo_afterCall hx hfits hkind
      change (x.afterCall r).fits i = true
      generalize x.afterCall r = y at hreturn ⊢
      cases hreturn <;> simp_all [LogPoint.fits]

/-- What the consumer has in hand after a step of a call is what it has popped. -/
theorem hand_inQueue (hx : x.quePoint = some p) (hfits : x.fits i = true)
    (hkind : n.kind = p.kind) : (x.inQueue n).hand = x.hand ++ n.given := by
  cases n with
  | point p' => exact (LogPoint.hand_atQueue hx).trans (List.append_nil _).symm
  | returned r =>
      have hreturn := returnsTo_afterCall hx hfits hkind
      change (x.afterCall r).hand = x.hand ++ _
      generalize x.afterCall r = y at hreturn ⊢
      cases hreturn with
      | nested => exact (LogPoint.hand_dispatch _ _ _ _).trans (List.append_nil _).symm
      | push | stopping | popped | exhausted | more | ended => rfl

/-- The consumer leaves its first loop only when `Pop` returns false. -/
theorem stage_inQueue (hx : x.quePoint = some p) (hfits : x.fits i = true)
    (hkind : n.kind = p.kind) : (x.inQueue n).stage = x.stage ∨
      (n = .returned (.pop none) ∧ x.stage = .looping ∧ (x.inQueue n).stage = .draining) := by
  cases n with
  | point p' => exact Or.inl (LogPoint.stage_atQueue hx)
  | returned r =>
      have hreturn := returnsTo_afterCall hx hfits hkind
      change (x.afterCall r).stage = x.stage ∨ _ ∧ _ ∧ (x.afterCall r).stage = .draining
      generalize x.afterCall r = y at hreturn ⊢
      cases hreturn with
      | @exhausted draining =>
          cases draining with
          | true => exact Or.inl rfl
          | false => exact Or.inr ⟨rfl, rfl, rfl⟩
      | @popped draining => cases draining <;> exact Or.inl rfl
      | nested => exact Or.inl (LogPoint.stage_dispatch _ _ _ _)
      | push | stopping | more | ended => exact Or.inl rfl

theorem quePoint_inQueue (hx : x.quePoint = some p) (hfits : x.fits i = true)
    (hkind : n.kind = p.kind) : (x.inQueue n).quePoint = n.thread := by
  cases n with
  | point p' => exact LogPoint.quePoint_atQueue hx
  | returned r =>
      have hreturn := returnsTo_afterCall hx hfits hkind
      change (x.afterCall r).quePoint = none
      generalize x.afterCall r = y at hreturn ⊢
      cases hreturn <;> rfl

end Places

/-! ## What a step changes -/

namespace LogLook

variable {s : LoggerState} {x y : LogPoint}

theorem locked (h : LogLook s x y) : y.locked = x.locked := by
  cases h <;> rfl

theorem stage (h : LogLook s x y) : y.stage = x.stage := by
  cases h with
  | nestedSync | nestedAsync | nestedNoQueue | nestedPush => exact LogPoint.stage_dispatch _ _ _ _
  | @callPop draining => cases draining <;> rfl
  | _ => rfl

theorem hand (h : LogLook s x y) : y.hand = x.hand := by
  cases h with
  | nestedSync | nestedAsync | nestedNoQueue | nestedPush => exact LogPoint.hand_dispatch _ _ _ _
  | _ => rfl

theorem fits (h : LogLook s x y) {i : Nat} (hfits : x.fits i = true) : y.fits i = true := by
  cases h <;> simpa [LogPoint.fits, QueuePoint.kind] using hfits

/-- A look may lead into a call of the queue. -/
theorem quePoint (h : LogLook s x y) : x.quePoint = none ∧
    (y.quePoint = none ∨
      s.logQue ≠ none ∧ ∃ c : QueueCall LogEvent, y.quePoint = some c.entry) := by
  cases h with
  | callPush hque | nestedPush hque => exact ⟨rfl, Or.inr ⟨by simp [hque], .push _, rfl⟩⟩
  | callStop hque => exact ⟨rfl, Or.inr ⟨by simp [hque], .stop, rfl⟩⟩
  | callPop hque => exact ⟨rfl, Or.inr ⟨by simp [hque], .pop, rfl⟩⟩
  | callSize hque => exact ⟨rfl, Or.inr ⟨by simp [hque], .size, rfl⟩⟩
  | _ => exact ⟨rfl, Or.inl rfl⟩

end LogLook

namespace LogMove

variable {s : LoggerState} {i : Nat} {x : LogPoint} {r : LogStep}

theorem fits_next (h : LogMove s i x r) (hfits : x.fits i = true) : r.next.fits i = true := by
  cases h with
  | inQueue hx hque hmove => exact fits_inQueue hx hfits hmove.kind
  | look hlook => exact hlook.fits hfits
  | @dispatched caller =>
      cases caller with
      | log => simpa [LogPoint.fits, DispatchCaller.next] using hfits
      | consumer draining =>
          cases draining <;> simpa [LogPoint.fits, DispatchCaller.next] using hfits
  | _ => simpa [LogPoint.fits, QueuePoint.kind] using hfits

end LogMove

/-! ## One step of the logger -/

/-- The branches of `loggerStep`. -/
inductive LogEffect (s : LoggerState) : LoggerEvent → LoggerState → Prop where
  | call {i c} : s.threads[i]? = some .idle →
      LogEffect s (.call i c) { s with threads := s.threads.set i (c.entry s.level) }
  | step {i woken x r threads} : s.threads[i]? = some x → s.step i x = some r →
      r.notify.apply LogPoint.isPushParked LogPoint.isPopParked LogPoint.wake
        (r.state.threads.set i r.next) woken = some threads →
      LogEffect s (.step i woken) { r.state with threads }
  | append {i inner caller outer d} : s.threads[i]? = some (.dispatch caller outer .appending) →
      d = .appending ∨ d = .nestedAsync inner →
      LogEffect s (.append i inner)
        { s with threads := s.threads.set i (.dispatch caller outer d) }
  | wake {i x} : s.threads[i]? = some x → x.isPushParked = true ∨ x.isPopParked = true →
      LogEffect s (.wake i) { s with threads := s.threads.set i x.wake }

theorem effect_of_loggerStep {s t : LoggerState} {event : LoggerEvent}
    (h : loggerStep s event = some t) : s.status = .running ∧ LogEffect s event t := by
  unfold loggerStep at h
  split at h
  · exact absurd h (by simp)
  · next hrun =>
    refine ⟨not_not.mp hrun, ?_⟩
    cases event with
    | call i c =>
        dsimp only at h
        split at h
        · next hi => exact Option.some.inj h ▸ .call hi
        · exact absurd h (by simp)
    | step i woken =>
        dsimp only at h
        split at h
        · next x hi =>
          simp only [Option.bind_eq_bind, Option.pure_def, Option.bind_eq_some_iff,
            Option.some.injEq] at h
          obtain ⟨r, hr, threads, hthreads, rfl⟩ := h
          exact .step hi hr hthreads
        · exact absurd h (by simp)
    | append i inner =>
        dsimp only at h
        split at h
        · next caller outer hi =>
          refine Option.some.inj h ▸ .append hi ?_
          split
          · exact Or.inl rfl
          · exact Or.inr rfl
        · exact absurd h (by simp)
    | wake i =>
        dsimp only at h
        split at h
        · next x hi =>
          split at h
          · next hparked => exact Option.some.inj h ▸ .wake hi (Bool.or_eq_true _ _ |>.mp hparked)
          · exact absurd h (by simp)
        · exact absurd h (by simp)

/-! ## What a notification leaves as it is -/

section Notified

variable {n : Notify} {ts ts' : List LogPoint} {woken : Option Nat}

/-- What a wake-up does not change is the same for all threads. -/
theorem Notify.apply_map_eq {β : Type*} {f : LogPoint → β} (hf : ∀ x : LogPoint, f x.wake = f x)
    (h : n.apply LogPoint.isPushParked LogPoint.isPopParked LogPoint.wake ts woken = some ts') :
    ts'.map f = ts.map f := by
  cases n with
  | nobody => exact Option.some.inj h ▸ rfl
  | oneNotEmpty | oneNotFull => exact map_notifyOne hf h
  | allNotEmpty | allNotFull => exact Option.some.inj h ▸ map_notifyAll hf ts

/-- Seen from the queue it is a notification of the queue. -/
theorem Notify.apply_quePoint
    (h : n.apply LogPoint.isPushParked LogPoint.isPopParked LogPoint.wake ts woken = some ts') :
    n.apply QueueThread.isPushParked QueueThread.isPopParked QueueThread.wake
      (ts.map LogPoint.quePoint) woken = some (ts'.map LogPoint.quePoint) := by
  have hwake : ∀ (parked : LogPoint → Bool) (x : LogPoint), parked x = true →
      x.wake.quePoint = QueueThread.wake x.quePoint := fun _ x _ => x.quePoint_wake
  cases n with
  | nobody => exact Option.some.inj h ▸ rfl
  | oneNotEmpty | oneNotFull =>
      refine (notifyOne_map (fun _ => rfl) (hwake _) ts woken).symm.trans ?_
      exact congrArg (Option.map (List.map LogPoint.quePoint)) h
  | allNotEmpty | allNotFull =>
      obtain rfl := Option.some.inj h
      exact congrArg some (notifyAll_map (fun _ => rfl) (hwake _) ts).symm

end Notified

end AsioServer.Infra
