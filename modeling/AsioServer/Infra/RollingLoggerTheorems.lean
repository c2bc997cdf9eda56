/-
AsioServer.Infra.RollingLoggerTheorems — when a roll blocks the thread that rolls.

The lines that `OpenFile` logs re-enter the logger from within `DispatchLog`. A thread may
then wait for itself (`LogPoint.waitsForSelf`): for `_mutex`, which it holds, or, as the
consumer, for room that only it could make. A caller that dispatches its own event while
the asynchronous mode is on waits for room as well (`isCallerParked`), and in vain when
the consumer waits for `_mutex` or the capacity is 0 (`NoRoom`). `RollsFreely` is the
condition that no branch is taken which leads there.

`NestInv` holds whatever the branches: a thread inside `DispatchLog` holds `_mutex`, and
while the program runs the calls of the queue are in order. A thread that does not wait in
vain can then go on, or another one that holds the queue's own lock can.
-/
import AsioServer.Infra.LoggerTheorems
import AsioServer.Infra.RollingLogger

namespace AsioServer.Infra

open AsioServer.Core AsioServer.Lib

/-! ## Waiting inside DispatchLog -/

namespace LogPoint

/-- Inside `DispatchLog`, and waiting for `_mutex`, or as the consumer for room. -/
def waitsForSelf : LogPoint → Bool
  | dispatch _ _ (.nestedLock _) => true
  | dispatch (.consumer _) _ (.nestedPush p) => p.waitsPush
  | _ => false

/-- Inside the `DispatchLog` that `log` called, and waiting for room. -/
def isCallerParked : LogPoint → Bool
  | dispatch .log _ (.nestedPush (.pushParked _)) => true
  | _ => false

/-- The consumer waits for `_mutex`. -/
def wantsMutex : LogPoint → Bool
  | dispatch (.consumer _) _ .lock => true
  | _ => false

end LogPoint

/-- While `_mutex` is held nobody makes room in the queue. -/
def LoggerState.NoRoom (s : LoggerState) : Prop :=
  (∃ x ∈ s.threads, x.wantsMutex = true) ∨ ∃ que, s.logQue = some que ∧ que.maxSize = 0

/-- Nobody waits for itself. -/
def NoSelfWait (threads : List LogPoint) : Prop :=
  ∀ (i : Nat) x, threads[i]? = some x → x.waitsForSelf = false

/-- Whoever holds `_mutex` and waits for room may hope for it. -/
def CallersFindRoom (s : LoggerState) : Prop :=
  ∀ (i : Nat) x, s.threads[i]? = some x → x.isCallerParked = true → ¬ s.NoRoom

/-- The branch that the thread takes next does not make it wait for itself. -/
def LoggerState.nestsFreely (s : LoggerState) : LogPoint → Bool
  | .dispatch _ _ (.nestedAsync _) => s.isAsync
  | .dispatch _ _ (.nestedQueue _) => s.logQue.isSome
  | .dispatch (.consumer _) _ (.nestedPush (.pushTest _)) => s.logQue.all SafeQueue.notFull
  | _ => true

/-- The step makes no caller wait in vain: it does not block where nobody makes room, and
the consumer that goes on to wait for `_mutex` notifies who waits for room. -/
def LoggerState.LeavesRoom (s : LoggerState) (woken : Option Nat) : LogPoint → Prop
  | .dispatch .log _ (.nestedPush (.pushBlock _)) => ¬ s.NoRoom
  | .pop _ .popping => ∀ (j : Nat) x, s.threads[j]? = some x → x.isCallerParked = true →
      woken = some j
  | _ => True

/-! ## Who waits for itself -/

section Move

variable {s t : LoggerState} {i : Nat} {x : LogPoint} {r : LogStep} {event : LoggerEvent}
  {p : QueuePoint LogEvent}

/-- A wake-up does not make a thread wait. -/
theorem waitsForSelf_wake (h : x.waitsForSelf = false) : x.wake.waitsForSelf = false := by
  cases hx : x.quePoint with
  | none =>
      unfold LogPoint.wake
      rw [hx]
      exact h
  | some p =>
      rw [LogPoint.wake_of_quePoint hx]
      cases LogPoint.inCall hx with
      | @nested caller =>
          cases caller with
          | log => rfl
          | consumer draining => cases p <;> first | rfl | exact h
      | push | stopping | pop | size => rfl

theorem waitsForSelf_afterCall {ret : QueueReturn LogEvent} (hx : x.quePoint = some p)
    (hfits : x.fits i = true) (hkind : ret.kind = p.kind) :
    (x.afterCall ret).waitsForSelf = false := by
  have hreturn := returnsTo_afterCall hx hfits hkind
  generalize x.afterCall ret = y at hreturn ⊢
  cases hreturn <;> rfl

/-- Inside a call of the queue only the test for room leads to a wait, and only when the
consumer makes the call from within `DispatchLog`. -/
theorem waitsForSelf_inQueue {que : SafeQueue LogEvent} {q : QueueStep LogEvent}
    (hx : x.quePoint = some p) (hfits : x.fits i = true) (hque : s.logQue = some que)
    (hmove : QueueMove que i p q) (h : x.waitsForSelf = false) :
    (x.inQueue q.next).waitsForSelf = !s.nestsFreely x := by
  have hkind := hmove.kind
  cases LogPoint.inCall hx with
  | @nested caller event =>
      cases caller with
      | log =>
          have hfree : s.nestsFreely (.dispatch .log event (.nestedPush p)) = true := by
            cases p <;> rfl
          rw [hfree]
          generalize q.next = n at hkind ⊢
          cases n with
          | point p' => rfl
          | returned ret => exact waitsForSelf_afterCall hx hfits hkind
      | consumer draining =>
          cases hmove with
          | pushReady hroom | pushFull hroom =>
              simp [LogPoint.inQueue, LogPoint.atQueue, LogPoint.waitsForSelf,
                LoggerState.nestsFreely, QueuePoint.waitsPush, hque, hroom]
          | pushBlock => exact absurd h (by simp [LogPoint.waitsForSelf, QueuePoint.waitsPush])
          | _ => rfl
  | push | stopping | pop | size =>
      generalize q.next = n at hkind ⊢
      cases n with
      | point p' => rfl
      | returned ret => exact waitsForSelf_afterCall hx hfits hkind

/-- **What a step does to the thread that takes it**: it waits for itself afterwards exactly
when the branch was not free. -/
theorem waitsForSelf_next (hmove : LogMove s i x r) (hfits : x.fits i = true)
    (h : x.waitsForSelf = false) : r.next.waitsForSelf = !s.nestsFreely x := by
  cases hmove with
  | inQueue hx hque hmove => exact waitsForSelf_inQueue hx hfits hque hmove h
  | look hlook =>
      cases hlook with
      | nestedSync hasync | nestedAsync hasync =>
          simp [LogPoint.waitsForSelf, LoggerState.nestsFreely, hasync]
      | nestedNoQueue hque =>
          simp [LogPoint.waitsForSelf, LoggerState.nestsFreely, hque]
      | @nestedPush caller event inner que hque =>
          cases caller <;> simp [LogPoint.waitsForSelf, LoggerState.nestsFreely,
            QueuePoint.waitsPush, hque]
      | _ => rfl
  | @dispatched caller event =>
      cases caller with
      | log => rfl
      | consumer draining => cases draining <;> rfl
  | @lockDispatch caller event =>
      cases caller <;> rfl
  | _ => rfl

/-- A branch that is not free only looks, or finds the queue full. -/
theorem quiet_of_not_free (hmove : LogMove s i x r) (h : s.nestsFreely x = false) :
    r.notify = .nobody ∧ r.state.threads = s.threads := by
  cases hmove with
  | look hlook => exact ⟨rfl, rfl⟩
  | inQueue hx hque hmove =>
      cases LogPoint.inCall hx with
      | @nested caller =>
          cases caller with
          | log => exact absurd h (by simp [LoggerState.nestsFreely])
          | consumer draining =>
              cases hmove with
              | pushReady | pushFull => exact ⟨rfl, rfl⟩
              | _ => exact absurd h (by simp [LoggerState.nestsFreely])
      | push | stopping | pop | size => exact absurd h (by simp [LoggerState.nestsFreely])
  | _ => exact absurd h (by simp [LoggerState.nestsFreely])

/-- The threads that a step does not move, and the one that it starts or joins. -/
theorem threads_of_move (hmove : LogMove s i x r) {j : Nat} {y : LogPoint}
    (hy : r.state.threads[j]? = some y) :
    s.threads[j]? = some y ∨ j = 0 ∧ (y = .callPop false ∨ y = .absent) := by
  cases hmove with
  | startThread | joined =>
      rcases getElem?_set_cases hy with ⟨hzero, rfl⟩ | ⟨-, hy⟩
      · simp [← hzero]
      · exact Or.inl hy
  | _ => exact Or.inl hy

end Move

section NoSelfWait

variable {s t : LoggerState} {threads threads' : List LogPoint} {i : Nat} {x y : LogPoint}
  {event : LoggerEvent}

theorem NoSelfWait.set (h : NoSelfWait threads) (hy : y.waitsForSelf = false) :
    NoSelfWait (threads.set i y) := by
  intro j z hj
  rcases getElem?_set_cases hj with ⟨-, rfl⟩ | ⟨-, hj⟩
  · exact hy
  · exact h j z hj

theorem NoSelfWait.notified {n : Notify} {woken : Option Nat} (h : NoSelfWait threads)
    (hn : n.apply LogPoint.isPushParked LogPoint.isPopParked LogPoint.wake threads woken =
      some threads') : NoSelfWait threads' := by
  intro j z hj
  obtain ⟨w, hw, rfl | ⟨-, rfl⟩⟩ := Notify.apply_getElem? hn hj
  · exact h j z hw
  · exact waitsForSelf_wake (h j w hw)

/-- Where a call begins nobody waits. -/
theorem waitsForSelf_entry (c : LogCall) (level : LogLevel) :
    (c.entry level).waitsForSelf = false := by
  cases c with
  | log event =>
      simp only [LogCall.entry]
      split <;> rfl
  | setAsyncMode async queueSize => rfl

/-- **One step of the logger** makes nobody wait for itself exactly when its branch is
free. -/
theorem noSelfWait_iff (hfits : ∀ (i : Nat) x, s.threads[i]? = some x → x.fits i = true)
    (h : NoSelfWait s.threads) (ht : loggerStep s event = some t) :
    NoSelfWait t.threads ↔ ∀ i woken x, event = .step i woken → s.threads[i]? = some x →
      s.nestsFreely x = true := by
  obtain ⟨-, heffect⟩ := effect_of_loggerStep ht
  cases heffect with
  | @call i c hi =>
      exact ⟨fun _ _ _ _ heq => LoggerEvent.noConfusion heq,
        fun _ => h.set (waitsForSelf_entry c s.level)⟩
  | @append i inner caller outer d hi hd =>
      have hpoint : (LogPoint.dispatch caller outer d).waitsForSelf = false := by
        rcases hd with rfl | rfl <;> cases caller <;> rfl
      exact ⟨fun _ _ _ _ heq => LoggerEvent.noConfusion heq, fun _ => h.set hpoint⟩
  | @wake i x hi hparked =>
      exact ⟨fun _ _ _ _ heq => LoggerEvent.noConfusion heq,
        fun _ => h.set (waitsForSelf_wake (h i x hi))⟩
  | @step i woken x r threads hi hr hthreads =>
      have hmove := move_of_loggerStep hr
      have hnext := waitsForSelf_next hmove (hfits i x hi) (h i x hi)
      cases hfree : s.nestsFreely x with
      | true =>
          rw [hfree] at hnext
          have hstate : NoSelfWait r.state.threads := by
            intro j y hy
            rcases threads_of_move hmove hy with hy | ⟨-, rfl | rfl⟩
            · exact h j y hy
            · rfl
            · rfl
          refine ⟨fun _ j w y heq hy => ?_, fun _ => (hstate.set hnext).notified hthreads⟩
          obtain ⟨rfl, rfl⟩ := LoggerEvent.step.inj heq
          obtain rfl := Option.some.inj (hi.symm.trans hy)
          exact hfree
      | false =>
          rw [hfree] at hnext
          obtain ⟨hnobody, hsame⟩ := quiet_of_not_free hmove hfree
          rw [hnobody, hsame] at hthreads
          obtain rfl := Option.some.inj hthreads
          constructor
          · intro hno
            exact absurd (hno i r.next (getElem?_set_self_of_some hi)) (by simp [hnext])
          · intro hok
            exact absurd (hok i woken x rfl hi) (by simp [hfree])

end NoSelfWait

/-! ## Who waits for room in vain -/

namespace LogPoint

@[simp] theorem wantsMutex_wake (x : LogPoint) : x.wake.wantsMutex = x.wantsMutex := by
  refine wake_congr (fun x p h => ?_) x
  cases inCall h with
  | @nested caller => cases caller <;> rfl
  | push | stopping | pop | size => rfl

theorem isCallerParked_wake (x : LogPoint) : x.wake.isCallerParked = false := by
  cases hx : x.quePoint with
  | none =>
      unfold wake
      rw [hx]
      cases x with
      | dispatch caller event d =>
          cases d with
          | nestedPush p => cases hx
          | _ => cases caller <;> rfl
      | _ => rfl
  | some p =>
      rw [wake_of_quePoint hx]
      cases inCall hx with
      | @nested caller => cases caller <;> cases p <;> rfl
      | push | stopping | pop | size => rfl

theorem locked_of_isCallerParked {x : LogPoint} (h : x.isCallerParked = true) :
    x.locked = true := by
  unfold isCallerParked at h
  split at h
  · rfl
  · exact absurd h Bool.false_ne_true

end LogPoint

section Room

variable {s t : LoggerState} {i : Nat} {x : LogPoint} {r : LogStep} {event : LoggerEvent}
  {woken : Option Nat} {threads : List LogPoint}

/-- The consumer pops an event, notifies one who waits for room, and goes for `_mutex`. -/
theorem popped_of_popping {draining : Bool} (hmove : LogMove s i (.pop draining .popping) r) :
    ∃ data, r.next = .dispatch (.consumer draining) data .lock ∧ r.notify = .oneNotFull ∧
      r.state.threads = s.threads := by
  cases hmove with
  | inQueue hx hque hmove =>
      obtain rfl := Option.some.inj hx
      cases hmove with
      | @popped data => exact ⟨data, rfl, rfl, rfl⟩
  | look hlook => cases hlook

/-- **Where a step leads**: the consumer comes to `_mutex` with the event that it pops, a
thread goes on in a push from within `DispatchLog`, or the next point is no wait inside
`DispatchLog`. -/
theorem next_cases (hmove : LogMove s i x r) (hfits : x.fits i = true) :
    (∃ draining, x = .pop draining .popping) ∨
    (∃ caller outer que p q p', x = .dispatch caller outer (.nestedPush p) ∧ QueueMove que i p q ∧
      q.next = .point p' ∧ r.next = .dispatch caller outer (.nestedPush p')) ∨
    (r.next.wantsMutex = false ∧ r.next.isCallerParked = false) := by
  cases hmove with
  | @inQueue x p que q hx hque hmove =>
      cases hnext : q.next with
      | point p' =>
          cases LogPoint.inCall hx with
          | @nested caller outer =>
              exact Or.inr (Or.inl ⟨caller, outer, que, p, q, p', rfl, hmove, hnext, rfl⟩)
          | push | stopping | pop | size => exact Or.inr (Or.inr ⟨rfl, rfl⟩)
      | returned ret =>
          have hkind := hmove.kind
          rw [hnext] at hkind
          have hreturn := returnsTo_afterCall hx hfits hkind
          simp only [LogPoint.inQueue]
          generalize x.afterCall ret = y at hreturn ⊢
          cases hreturn with
          | @popped draining =>
              obtain rfl := Option.some.inj hx
              cases hmove with
              | popped => exact Or.inl ⟨draining, rfl⟩
              | _ => exact absurd hnext (by simp)
          | @nested caller => cases caller <;> exact Or.inr (Or.inr ⟨rfl, rfl⟩)
          | push | stopping | exhausted | more | ended => exact Or.inr (Or.inr ⟨rfl, rfl⟩)
  | look hlook =>
      cases hlook with
      | @nestedSync caller | @nestedAsync caller | @nestedNoQueue caller | @nestedPush caller =>
          cases caller <;> exact Or.inr (Or.inr ⟨rfl, rfl⟩)
      | _ => exact Or.inr (Or.inr ⟨rfl, rfl⟩)
  | @dispatched caller =>
      cases caller with
      | log => exact Or.inr (Or.inr ⟨rfl, rfl⟩)
      | consumer draining => cases draining <;> exact Or.inr (Or.inr ⟨rfl, rfl⟩)
  | @lockDispatch caller => cases caller <;> exact Or.inr (Or.inr ⟨rfl, rfl⟩)
  | _ => exact Or.inr (Or.inr ⟨rfl, rfl⟩)

/-- The consumer comes to wait for `_mutex` with the event that it pops. -/
theorem wantsMutex_next (hmove : LogMove s i x r) (hfits : x.fits i = true)
    (h : r.next.wantsMutex = true) : ∃ draining, x = .pop draining .popping := by
  rcases next_cases hmove hfits with hpop | ⟨caller, outer, que, p, q, p', -, -, -, hnext⟩ |
    ⟨hno, -⟩
  · exact hpop
  · rw [hnext] at h
    cases caller <;> exact absurd h Bool.false_ne_true
  · exact absurd h (by simp [hno])

/-- A caller waits for room after it has blocked. -/
theorem isCallerParked_next (hmove : LogMove s i x r) (hfits : x.fits i = true)
    (h : r.next.isCallerParked = true) :
    ∃ outer data, x = .dispatch .log outer (.nestedPush (.pushBlock data)) := by
  rcases next_cases hmove hfits with ⟨draining, rfl⟩ | ⟨caller, outer, que, p, q, p', rfl, hqueue,
    hpoint, hnext⟩ | ⟨-, hno⟩
  · obtain ⟨data, hnext, -⟩ := popped_of_popping hmove
    exact absurd h (by simp [hnext, LogPoint.isCallerParked])
  · rw [hnext] at h
    cases caller with
    | consumer draining => exact absurd h Bool.false_ne_true
    | log =>
        cases hqueue with
        | @pushBlock data => exact ⟨outer, data, rfl⟩
        | _ =>
            simp only [QueueNext.point.injEq, reduceCtorEq] at hpoint <;>
              (obtain rfl := hpoint; exact absurd h Bool.false_ne_true)
  · exact absurd h (by simp [hno])

/-- The capacity comes with the queue. -/
theorem maxSize_of_move (hmove : LogMove s i x r) {que' : SafeQueue LogEvent}
    (hque' : r.state.logQue = some que') :
    (∃ que, s.logQue = some que ∧ que.maxSize = que'.maxSize) ∨
      ∃ queueSize, x = .switch (.makeQueue queueSize) := by
  cases hmove with
  | @inQueue x p que q hx hque hmove =>
      obtain rfl := Option.some.inj hque'
      exact Or.inl ⟨que, hque, hmove.maxSize.symm⟩
  | @makeQueue queueSize => exact Or.inr ⟨queueSize, rfl⟩
  | reset => exact absurd hque' (by simp)
  | @replaceThread => exact Or.inl ⟨que', hque', rfl⟩
  | _ => exact Or.inl ⟨que', hque', rfl⟩

/-- Nobody makes room any more only after the consumer has popped, or with a new queue. -/
theorem noRoom_of_step (hmove : LogMove s i x r) (hfits : x.fits i = true)
    (hthreads : r.notify.apply LogPoint.isPushParked LogPoint.isPopParked LogPoint.wake
      (r.state.threads.set i r.next) woken = some threads)
    (h : ({ r.state with threads } : LoggerState).NoRoom) :
    s.NoRoom ∨ (∃ draining, x = .pop draining .popping) ∨
      ∃ queueSize, x = .switch (.makeQueue queueSize) := by
  rcases h with ⟨y, hy, hwants⟩ | ⟨que', hque', hzero⟩
  · obtain ⟨j, hj⟩ := List.mem_iff_getElem?.mp hy
    obtain ⟨l, hl, hcase⟩ := Notify.apply_getElem? hthreads hj
    have hwantsl : l.wantsMutex = true := by
      rcases hcase with rfl | ⟨-, rfl⟩
      · exact hwants
      · rwa [LogPoint.wantsMutex_wake] at hwants
    rcases getElem?_set_cases hl with ⟨-, rfl⟩ | ⟨-, hl⟩
    · exact Or.inr (Or.inl (wantsMutex_next hmove hfits hwantsl))
    · rcases threads_of_move hmove hl with hl | ⟨-, rfl | rfl⟩
      · exact Or.inl (Or.inl ⟨l, List.mem_of_getElem? hl, hwantsl⟩)
      · exact absurd hwantsl Bool.false_ne_true
      · exact absurd hwantsl Bool.false_ne_true
  · rcases maxSize_of_move hmove hque' with ⟨que, hque, hsize⟩ | hmake
    · exact Or.inl (Or.inr ⟨que, hque, hsize.trans hzero⟩)
    · exact Or.inr (Or.inr hmake)

/-- A thread moves that neither waits for `_mutex` afterwards nor for room. -/
theorem CallersFindRoom.set (h : CallersFindRoom s) {y : LogPoint}
    (hwants : y.wantsMutex = false) (hparked : y.isCallerParked = false) :
    CallersFindRoom { s with threads := s.threads.set i y } := by
  intro j z hj hz hroom
  rcases getElem?_set_cases hj with ⟨-, rfl⟩ | ⟨-, hj⟩
  · exact absurd hz (by simp [hparked])
  · refine h j z hj hz (hroom.imp_left fun hex => ?_)
    obtain ⟨w, hw, hwantsw⟩ := hex
    obtain ⟨k, hk⟩ := List.mem_iff_getElem?.mp hw
    rcases getElem?_set_cases hk with ⟨-, rfl⟩ | ⟨-, hk⟩
    · exact absurd hwantsw (by simp [hwants])
    · exact ⟨w, List.mem_of_getElem? hk, hwantsw⟩

/-- A step that leaves room keeps the hope of those who wait. -/
theorem callersFindRoom_step (hlock : LockOk LogPoint.locked s.mutex s.threads)
    (h : CallersFindRoom s) (hi : s.threads[i]? = some x) (hmove : LogMove s i x r)
    (hfits : x.fits i = true)
    (hthreads : r.notify.apply LogPoint.isPushParked LogPoint.isPopParked LogPoint.wake
      (r.state.threads.set i r.next) woken = some threads)
    (hok : s.LeavesRoom woken x) : CallersFindRoom { r.state with threads } := by
  intro j y hj hparked hroom
  -- the caller has been waiting before, or blocks now
  have hbefore : s.threads[j]? = some y ∨
      ∃ outer data, x = .dispatch .log outer (.nestedPush (.pushBlock data)) := by
    obtain ⟨l, hl, rfl | ⟨-, rfl⟩⟩ := Notify.apply_getElem? hthreads hj
    · rcases getElem?_set_cases hl with ⟨-, rfl⟩ | ⟨-, hl⟩
      · exact Or.inr (isCallerParked_next hmove hfits hparked)
      · rcases threads_of_move hmove hl with hl | ⟨-, rfl | rfl⟩
        · exact Or.inl hl
        · exact absurd hparked Bool.false_ne_true
        · exact absurd hparked Bool.false_ne_true
    · exact absurd hparked (by simp [LogPoint.isCallerParked_wake])
  rcases noRoom_of_step hmove hfits hthreads hroom with hroom | ⟨draining, rfl⟩ |
    ⟨queueSize, rfl⟩
  · rcases hbefore with hbefore | ⟨outer, data, rfl⟩
    · exact h j y hbefore hparked hroom
    · exact hok hroom
  · rcases hbefore with hbefore | ⟨outer, data, heq⟩
    · -- the caller has been notified
      obtain rfl := hok j y hbefore hparked
      obtain ⟨data, -, hnotify, -⟩ := popped_of_popping hmove
      rw [hnotify] at hthreads
      obtain ⟨l, -, -, rfl⟩ := notifyOne_some hthreads
      rcases getElem?_set_cases hj with ⟨-, rfl⟩ | ⟨hne, -⟩
      · exact absurd hparked (by simp [LogPoint.isCallerParked_wake])
      · exact absurd rfl hne
    · cases heq
  · rcases hbefore with hbefore | ⟨outer, data, heq⟩
    · obtain rfl := hlock.unique hbefore (LogPoint.locked_of_isCallerParked hparked) hi rfl
      obtain rfl := Option.some.inj (hi.symm.trans hbefore)
      exact absurd hparked Bool.false_ne_true
    · cases heq

/-- A thread that was not woken is where it was. -/
theorem getElem?_of_not_woken {n : Notify} {ts ts' : List LogPoint} {j : Nat} {y : LogPoint}
    (hn : n.apply LogPoint.isPushParked LogPoint.isPopParked LogPoint.wake ts woken = some ts')
    (hj : ts[j]? = some y) (hone : n = .nobody ∨ n = .oneNotFull) (hne : woken ≠ some j) :
    ts'[j]? = some y := by
  rcases hone with rfl | rfl
  · exact Option.some.inj hn ▸ hj
  · cases woken with
    | none => exact @notifyOne_none _ _ LogPoint.wake _ _ hn ▸ hj
    | some k =>
        obtain ⟨l, -, -, rfl⟩ := notifyOne_some hn
        rw [List.getElem?_set_ne (fun heq => hne (congrArg some heq)), hj]

/-- A step that leaves no room takes the hope of somebody who waits. -/
theorem leavesRoom_of_step (hi : s.threads[i]? = some x) (hmove : LogMove s i x r)
    (hthreads : r.notify.apply LogPoint.isPushParked LogPoint.isPopParked LogPoint.wake
      (r.state.threads.set i r.next) woken = some threads)
    (h : CallersFindRoom { r.state with threads }) : s.LeavesRoom woken x := by
  unfold LoggerState.LeavesRoom
  split
  · next outer data =>
    intro hroom
    cases hmove with
    | look hlook => cases hlook
    | @inQueue x p que q hx hque hmove =>
        obtain rfl := Option.some.inj hx
        cases hmove with
        | pushBlock =>
            obtain rfl := Option.some.inj hthreads
            refine h i _ (getElem?_set_self_of_some hi) rfl ?_
            refine hroom.imp (fun hex => ?_) fun hex => ?_
            · obtain ⟨w, hw, hwants⟩ := hex
              obtain ⟨k, hk⟩ := List.mem_iff_getElem?.mp hw
              refine ⟨w, List.mem_of_getElem? (i := k) ?_, hwants⟩
              rw [List.getElem?_set_ne, hk]
              rintro rfl
              obtain rfl := Option.some.inj (hi.symm.trans hk)
              exact absurd hwants Bool.false_ne_true
            · obtain ⟨que', hque', hzero⟩ := hex
              obtain rfl := Option.some.inj (hque.symm.trans hque')
              exact ⟨_, rfl, hzero⟩
  · intro j y hy hparked
    by_contra hne
    obtain ⟨data, hnext, hnotify, hsame⟩ := popped_of_popping hmove
    rw [hsame] at hthreads
    have hij : i ≠ j := by
      rintro rfl
      obtain rfl := Option.some.inj (hi.symm.trans hy)
      exact absurd hparked Bool.false_ne_true
    have hstays : threads[j]? = some y :=
      getElem?_of_not_woken hthreads (by rw [List.getElem?_set_ne hij, hy]) (Or.inr hnotify) hne
    have hmap := Notify.apply_map_eq (fun z => z.wantsMutex_wake) hthreads
    have hwants : true ∈ threads.map LogPoint.wantsMutex := by
      rw [hmap]
      refine List.mem_map.mpr ⟨r.next, List.mem_of_getElem? (getElem?_set_self_of_some hi), ?_⟩
      rw [hnext]
      rfl
    exact h j y hstays hparked (Or.inl (by simpa using hwants))
  · trivial

/-- **One step of the logger** lets a caller wait for room in vain exactly when it leaves
no room. -/
theorem callersFindRoom_iff (hlock : LockOk LogPoint.locked s.mutex s.threads)
    (hfits : ∀ (i : Nat) x, s.threads[i]? = some x → x.fits i = true) (h : CallersFindRoom s)
    (ht : loggerStep s event = some t) :
    CallersFindRoom t ↔ ∀ i woken x, event = .step i woken → s.threads[i]? = some x →
      s.LeavesRoom woken x := by
  obtain ⟨-, heffect⟩ := effect_of_loggerStep ht
  cases heffect with
  | @call i c hi =>
      have hentry : (c.entry s.level).wantsMutex = false ∧
          (c.entry s.level).isCallerParked = false := by
        cases c with
        | log event =>
            simp only [LogCall.entry]
            split <;> exact ⟨rfl, rfl⟩
        | setAsyncMode async queueSize => exact ⟨rfl, rfl⟩
      exact ⟨fun _ _ _ _ heq => LoggerEvent.noConfusion heq, fun _ => h.set hentry.1 hentry.2⟩
  | @append i inner caller outer d hi hd =>
      have hpoint : (LogPoint.dispatch caller outer d).wantsMutex = false ∧
          (LogPoint.dispatch caller outer d).isCallerParked = false := by
        rcases hd with rfl | rfl <;> cases caller <;> exact ⟨rfl, rfl⟩
      exact ⟨fun _ _ _ _ heq => LoggerEvent.noConfusion heq, fun _ => h.set hpoint.1 hpoint.2⟩
  | @wake i x hi hparked =>
      have hwants : x.wake.wantsMutex = false := by
        obtain ⟨p, hx, -⟩ := LogPoint.quePoint_of_parked hparked
        rw [LogPoint.wantsMutex_wake]
        cases LogPoint.inCall hx with
        | @nested caller => cases caller <;> rfl
        | push | stopping | pop | size => rfl
      exact ⟨fun _ _ _ _ heq => LoggerEvent.noConfusion heq,
        fun _ => h.set hwants x.isCallerParked_wake⟩
  | @step i woken x r threads hi hr hthreads =>
      have hmove := move_of_loggerStep hr
      constructor
      · rintro hroom j w y ⟨⟩ hy
        obtain rfl := Option.some.inj (hi.symm.trans hy)
        exact leavesRoom_of_step hi hmove hthreads hroom
      · intro hok
        exact callersFindRoom_step hlock h hi hmove (hfits i x hi) hthreads (hok i woken x rfl hi)

end Room

/-! ## What holds whatever the branches -/

/-- The calls of the queue, as threads of `SafeQueue`, are in order. -/
def CallsOk (logQue : Option (SafeQueue LogEvent)) (places : List (QueueThread LogEvent)) : Prop :=
  match logQue with
  | none => ∀ p ∈ places, p = none
  | some que => ∃ v : QueueState LogEvent, v.que = que ∧ v.threads = places ∧ QueueInv v

/-- Who holds `_mutex`, and that the calls of the queue are in order while the program
runs. -/
structure NestInv (s : LoggerState) : Prop where
  fits : ∀ (i : Nat) x, s.threads[i]? = some x → x.fits i = true
  lock : LockOk LogPoint.locked s.mutex s.threads
  calls : s.status = .running → CallsOk s.logQue (s.threads.map LogPoint.quePoint)

section Calls

variable {logQue : Option (SafeQueue LogEvent)} {places places' : List (QueueThread LogEvent)}
  {i : Nat} {p : QueuePoint LogEvent} {z : QueueThread LogEvent}

/-- A thread calls the queue. -/
theorem CallsOk.enter (h : CallsOk logQue places) (hi : places[i]? = some none)
    (hz : z = none ∨ logQue ≠ none ∧ ∃ c : QueueCall LogEvent, z = some c.entry) :
    CallsOk logQue (places.set i z) := by
  rcases hz with rfl | ⟨hque, c, rfl⟩
  · obtain ⟨hlt, hnone⟩ := List.getElem?_eq_some_iff.mp hi
    rw [← hnone, List.set_getElem_self hlt]
    exact h
  · cases logQue with
    | none => exact absurd rfl hque
    | some que =>
        obtain ⟨v, rfl, rfl, hinv⟩ := h
        refine ⟨_, ?_, ?_, hinv.step (queueStep_call hi c)⟩ <;> rfl

/-- A thread wakes up inside the queue. -/
theorem CallsOk.wake (h : CallsOk logQue places) (hi : places[i]? = some (some p))
    (hparked : p.isPushParked = true ∨ p.isPopParked = true) :
    CallsOk logQue (places.set i (some p.wake)) := by
  cases logQue with
  | none => cases h _ (List.mem_of_getElem? hi)
  | some que =>
      obtain ⟨v, rfl, rfl, hinv⟩ := h
      refine ⟨_, ?_, ?_, hinv.step (queueStep_wake hi hparked)⟩ <;> rfl

/-- A step inside a call. -/
theorem CallsOk.move {que : SafeQueue LogEvent} {r : QueueStep LogEvent} {woken : Option Nat}
    (h : CallsOk (some que) places) (hi : places[i]? = some (some p)) (hmove : QueueMove que i p r)
    (hthreads : r.notify.apply QueueThread.isPushParked QueueThread.isPopParked QueueThread.wake
      (places.set i r.next.thread) woken = some places') : CallsOk (some r.que) places' := by
  obtain ⟨v, rfl, rfl, hinv⟩ := h
  exact ⟨_, QueueState.record_que _ _, QueueState.record_threads _ _, hinv.move hi hmove hthreads⟩

/-- Nobody is in a queue that was just made. -/
theorem callsOk_make {maxSize : Nat} (h : ∀ p ∈ places, p = none) :
    CallsOk (some { maxSize }) places := by
  have hinit : QueueInit ({ que := { maxSize }, threads := places } : QueueState LogEvent) :=
    ⟨maxSize, places.length, by rw [← List.eq_replicate_of_mem h]⟩
  exact ⟨_, rfl, rfl, queueInv_init hinit⟩

end Calls

section NestInv

variable {s t : LoggerState} {threads : List LogPoint} {i : Nat} {x y : LogPoint} {r : LogStep}
  {event : LoggerEvent} {woken : Option Nat}

theorem first_of_consumer {c : LogPoint} (hi : s.threads[i]? = some x) (hc : s.consumer = c) :
    s.threads[0]? = some c := by
  obtain ⟨d, hd⟩ := exists_first hi
  have hdc : consumerOf s.threads = d := consumerOf_eq hd
  rw [hd, ← hdc]
  exact congrArg some hc

theorem NestInv.fits_set (h : NestInv s) (hy : y.fits i = true) {j : Nat} {z : LogPoint}
    (hj : (s.threads.set i y)[j]? = some z) : z.fits j = true := by
  rcases getElem?_set_cases hj with ⟨rfl, rfl⟩ | ⟨-, hj⟩
  · exact hy
  · exact h.fits j z hj

/-- `_mutex` after a step of a thread. -/
theorem NestInv.lock_move (h : NestInv s) (hi : s.threads[i]? = some x) (hmove : LogMove s i x r) :
    LockOk LogPoint.locked r.state.mutex (r.state.threads.set i r.next) := by
  have hfits := h.fits i x hi
  cases hmove with
  | inQueue hx hque hmove => exact h.lock.keep hi (locked_inQueue hx hfits hmove.kind)
  | look hlook => exact h.lock.keep hi hlook.locked
  | lockDispatch hfree | lockSwitch hfree =>
      have hlock := h.lock
      rw [hfree] at hlock
      exact hlock.acquire hi rfl
  | @dispatched caller =>
      have hunlocked : caller.next.locked = false := by
        cases caller with
        | log => rfl
        | consumer draining => cases draining <;> rfl
      exact h.lock.release hi rfl hunlocked
  | unlock => exact h.lock.release hi rfl rfl
  | startThread hjoinable =>
      have hzero : i ≠ 0 := by simpa [LogPoint.fits] using hfits
      have habsent : s.threads[0]? = some .absent :=
        first_of_consumer hi (by simpa [LoggerState.joinable] using hjoinable)
      have hset : (s.threads.set 0 (.callPop false))[i]? = some (.switch .startThread) := by
        rw [List.getElem?_set_ne (Ne.symm hzero), hi]
      have hfirst : LockOk LogPoint.locked s.mutex (s.threads.set 0 (.callPop false)) :=
        h.lock.keep habsent rfl
      exact hfirst.keep hset rfl
  | joined hended =>
      have hzero : i ≠ 0 := by simpa [LogPoint.fits] using hfits
      have hset : (s.threads.set 0 LogPoint.absent)[i]? = some (.switch .joining) := by
        rw [List.getElem?_set_ne (Ne.symm hzero), hi]
      have hfirst : LockOk LogPoint.locked s.mutex (s.threads.set 0 .absent) :=
        h.lock.keep (first_of_consumer hi hended) rfl
      exact hfirst.keep hset rfl
  | _ => exact h.lock.keep hi rfl

/-- Nobody is in the queue. -/
theorem places_of_unused (h : s.queueInUse = false) :
    ∀ p ∈ s.threads.map LogPoint.quePoint, p = none := by
  intro p hp
  obtain ⟨x, hx, rfl⟩ := List.mem_map.mp hp
  simpa using List.any_eq_false.mp h x hx

theorem running_of_unused {b : Bool} {status : LoggerStatus}
    (h : (if b then .undefined else status) = LoggerStatus.running) : b = false := by
  cases b with
  | false => rfl
  | true => cases h

/-- Seen from the queue nothing happens when the consumer comes or goes. -/
theorem places_of_replace {c c' : LogPoint} {w w' : SwitchPoint}
    (hi : s.threads[i]? = some (.switch w)) (hfits : (LogPoint.switch w).fits i = true)
    (hc : s.consumer = c) (hplace : c.quePoint = c'.quePoint)
    (hw : (LogPoint.switch w).quePoint = none) (hw' : (LogPoint.switch w').quePoint = none) :
    s.threads.map LogPoint.quePoint =
      ((s.threads.set 0 c').set i (.switch w')).map LogPoint.quePoint := by
  have hzero : 0 ≠ i := by
    rintro rfl
    cases w <;> simp [LogPoint.fits] at hfits
  have hset : (s.threads.set 0 c')[i]? = some (.switch w) := by
    rw [List.getElem?_set_ne hzero, hi]
  rw [map_set_of_eq hset (hw'.trans hw.symm),
    map_set_of_eq (first_of_consumer hi hc) hplace.symm]

/-- The calls of the queue after a step of a thread. -/
theorem NestInv.calls_move (h : NestInv s) (hrun : s.status = .running)
    (hi : s.threads[i]? = some x) (hmove : LogMove s i x r)
    (hthreads : r.notify.apply LogPoint.isPushParked LogPoint.isPopParked LogPoint.wake
      (r.state.threads.set i r.next) woken = some threads) (hstill : r.state.status = .running) :
    CallsOk r.state.logQue (threads.map LogPoint.quePoint) := by
  have hfits := h.fits i x hi
  have hcalls := h.calls hrun
  have hsame : ∀ y : LogPoint, x.quePoint = none → y.quePoint = none →
      (s.threads.set i y).map LogPoint.quePoint = s.threads.map LogPoint.quePoint :=
    fun y hx hy => map_set_of_eq hi (hy.trans hx.symm)
  cases hmove with
  | @inQueue x p que q hx hque hmove =>
      rw [hque] at hcalls
      have hnotified := Notify.apply_quePoint hthreads
      rw [List.map_set, quePoint_inQueue hx hfits hmove.kind] at hnotified
      exact hcalls.move (getElem?_quePoint.mpr ⟨x, hi, hx⟩) hmove hnotified
  | look hlook =>
      obtain rfl := Option.some.inj hthreads
      obtain ⟨hx, hy⟩ := hlook.quePoint
      rw [List.map_set]
      refine hcalls.enter ?_ hy
      rw [List.getElem?_map, hi, Option.map_some, hx]
  | makeQueue =>
      obtain rfl := Option.some.inj hthreads
      rw [hsame _ rfl rfl]
      exact callsOk_make (places_of_unused (running_of_unused hstill))
  | reset =>
      obtain rfl := Option.some.inj hthreads
      rw [hsame _ rfl rfl]
      exact places_of_unused (running_of_unused hstill)
  | popGone | sizeGone | replaceThread => cases hstill
  | startThread hjoinable =>
      obtain rfl := Option.some.inj hthreads
      have habsent : s.consumer = .absent := by simpa [LoggerState.joinable] using hjoinable
      refine (congrArg (CallsOk s.logQue) ?_).mp hcalls
      exact places_of_replace hi hfits habsent rfl rfl rfl
  | joined hended =>
      obtain rfl := Option.some.inj hthreads
      refine (congrArg (CallsOk s.logQue) ?_).mp hcalls
      exact places_of_replace hi hfits hended rfl rfl rfl
  | @dispatched caller =>
      obtain rfl := Option.some.inj hthreads
      have hnext : caller.next.quePoint = none := by
        cases caller with
        | log => rfl
        | consumer draining => cases draining <;> rfl
      rw [hsame _ rfl hnext]
      exact hcalls
  | _ =>
      obtain rfl := Option.some.inj hthreads
      rw [hsame _ rfl rfl]
      exact hcalls

/-- **Every step** keeps the invariant. -/
theorem NestInv.step (h : NestInv s) (ht : loggerStep s event = some t) : NestInv t := by
  obtain ⟨hrun, heffect⟩ := effect_of_loggerStep ht
  have hquiet : ∀ {i : Nat} {x y : LogPoint}, s.threads[i]? = some x → y.fits i = true →
      y.locked = x.locked → y.quePoint = x.quePoint →
      NestInv { s with threads := s.threads.set i y } := by
    intro i x y hi hfits hlocked hplace
    refine ⟨fun j z => h.fits_set hfits, h.lock.keep hi hlocked, fun _ => ?_⟩
    exact (map_set_of_eq hi hplace) ▸ h.calls hrun
  cases heffect with
  | @call i c hi =>
      have hfits := h.fits i _ hi
      cases c with
      | log event =>
          refine hquiet hi ?_ ?_ ?_
          · simp only [LogCall.entry]
            split <;> exact hfits
          · simp only [LogCall.entry]
            split <;> rfl
          · simp only [LogCall.entry]
            split <;> rfl
      | setAsyncMode async queueSize => exact hquiet hi hfits rfl rfl
  | @append i inner caller outer d hi hd =>
      have hfits := h.fits i _ hi
      rcases hd with rfl | rfl <;> exact hquiet hi (by simpa [LogPoint.fits] using hfits) rfl rfl
  | @wake i x hi hparked =>
      have hfits := h.fits i x hi
      refine ⟨fun j z => h.fits_set (by rwa [LogPoint.fits_wake]),
        h.lock.keep hi x.locked_wake, fun _ => ?_⟩
      obtain ⟨p, hx, hp⟩ := LogPoint.quePoint_of_parked hparked
      have hplace := (h.calls hrun).wake (getElem?_quePoint.mpr ⟨x, hi, hx⟩) hp
      rw [List.map_set, LogPoint.quePoint_wake, hx]
      exact hplace
  | @step i woken x r threads hi hr hthreads =>
      have hmove := move_of_loggerStep hr
      refine ⟨fun j y hj => ?_,
        Notify.apply_lockOk (h.lock_move hi hmove) (fun l _ => l.locked_wake) hthreads,
        fun hstill => h.calls_move hrun hi hmove hthreads hstill⟩
      obtain ⟨l, hl, hcase⟩ := Notify.apply_getElem? hthreads hj
      have hfits : l.fits j = true := by
        rcases getElem?_set_cases hl with ⟨rfl, rfl⟩ | ⟨-, hl⟩
        · exact hmove.fits_next (h.fits j x hi)
        · rcases threads_of_move hmove hl with hl | ⟨rfl, rfl | rfl⟩
          · exact h.fits j l hl
          · rfl
          · rfl
      rcases hcase with rfl | ⟨-, rfl⟩
      · exact hfits
      · rwa [LogPoint.fits_wake]

theorem nestInv_make (level : LogLevel) (callers : Nat) : NestInv (.make level callers) :=
  have h := loggerInv_make level callers
  ⟨h.fits, h.lock, fun _ => h.queue⟩

end NestInv

/-! ## A thread inside DispatchLog goes on -/

/-- Inside `DispatchLog`, with `_mutex`. -/
def LogPoint.isInside : LogPoint → Bool
  | dispatch _ _ p => p != .lock
  | _ => false

section GoesOn

variable {s t : LoggerState} {i : Nat} {x : LogPoint} {r : LogStep}

theorem locked_of_isInside (h : x.isInside = true) : x.locked = true := by
  cases x with
  | dispatch caller event d => exact h
  | _ => exact absurd h Bool.false_ne_true

theorem exists_loggerStep (hrun : s.status = .running) (hi : s.threads[i]? = some x)
    (hr : s.step i x = some r) : ∃ woken t, loggerStep s (.step i woken) = some t := by
  obtain ⟨woken, threads, hthreads⟩ := r.notify.exists_apply LogPoint.isPushParked
    LogPoint.isPopParked LogPoint.wake (r.state.threads.set i r.next)
  exact ⟨woken, { r.state with threads }, by simp [loggerStep, hrun, hi, hr, hthreads]⟩

/-- A step inside a call of the queue that the queue allows. -/
theorem step_of_queStep {p : QueuePoint LogEvent} {que : SafeQueue LogEvent}
    {q : QueueStep LogEvent} (hx : x.quePoint = some p) (hque : s.logQue = some que)
    (hq : que.step i p = some q) : ∃ r, s.step i x = some r := by
  cases LogPoint.inCall hx <;>
    simp [LoggerState.step, LoggerState.dispatchStep, LoggerState.switchStep,
      LoggerState.callStep, hque, hq]

/-- Whoever has the queue's own lock can go on. -/
theorem NestInv.owner_goesOn (h : NestInv s) (hrun : s.status = .running)
    {que : SafeQueue LogEvent} (hque : s.logQue = some que) {j : Nat}
    (howner : que.owner = some j) :
    ∃ y woken t, s.threads[j]? = some y ∧ y.quePoint.isSome = true ∧
      loggerStep s (.step j woken) = some t := by
  have hcalls := h.calls hrun
  rw [hque] at hcalls
  obtain ⟨v, rfl, hthreads, hinv⟩ := hcalls
  obtain ⟨p, q, hp, hq⟩ := hinv.owner_step howner
  obtain ⟨y, hy, hplace⟩ := getElem?_quePoint.mp (hthreads ▸ hp)
  obtain ⟨r, hr⟩ := step_of_queStep hplace hque hq
  obtain ⟨woken, t, ht⟩ := exists_loggerStep hrun hy hr
  exact ⟨y, woken, t, hy, by rw [hplace]; rfl, ht⟩

/-- A thread that an appender has made call the logger takes its next step, unless it
waits, or another thread has the queue's own lock. -/
theorem NestInv.nested_goesOn (h : NestInv s) (hrun : s.status = .running)
    (hi : s.threads[i]? = some x) (hinside : x.isInside = true) (hself : x.waitsForSelf = false)
    (hparked : x.isCallerParked = false) :
    (∃ r, s.step i x = some r) ∨
      ∃ que j, s.logQue = some que ∧ que.owner = some j ∧ j ≠ i := by
  cases x with
  | dispatch caller outer d =>
      cases d with
      | lock => exact absurd hinside Bool.false_ne_true
      | appending | nestedAsync inner | nestedQueue inner => exact Or.inl ⟨_, rfl⟩
      | nestedLock inner => exact absurd hself (by simp [LogPoint.waitsForSelf])
      | nestedPush p =>
          have hkind : p.kind = .push := kind_of_fits rfl (h.fits i _ hi)
          have hcalls := h.calls hrun
          cases hque : s.logQue with
          | none =>
              rw [hque] at hcalls
              exact absurd (hcalls _ (List.mem_map_of_mem (List.mem_of_getElem? hi))) (by
                simp [LogPoint.quePoint])
          | some que =>
              rw [hque] at hcalls
              obtain ⟨v, rfl, hthreads, hinv⟩ := hcalls
              have hplace : v.threads[i]? = some (some p) := by
                rw [hthreads]
                exact getElem?_quePoint.mpr ⟨_, hi, rfl⟩
              cases hq : v.que.step i p with
              | some q => exact Or.inl (step_of_queStep rfl hque hq)
              | none =>
                  rcases hinv.blocked hplace hq with hpark | hpark | ⟨howner, hfree⟩
                  · cases caller with
                    | log => cases p <;> first
                        | exact absurd hpark Bool.false_ne_true
                        | exact absurd hparked (by simp [LogPoint.isCallerParked])
                    | consumer draining => cases p <;> first
                        | exact absurd hpark Bool.false_ne_true
                        | exact absurd hself (by simp [LogPoint.waitsForSelf,
                            QueuePoint.waitsPush])
                  · cases p <;> first
                      | exact absurd hpark Bool.false_ne_true
                      | cases hkind
                  · obtain ⟨j, hj⟩ := Option.ne_none_iff_exists'.mp howner
                    refine Or.inr ⟨v.que, j, rfl, hj, ?_⟩
                    rintro rfl
                    obtain ⟨z, hz, hlocked⟩ := (hinv.lock j).mp hj
                    obtain rfl := Option.some.inj (hplace.symm.trans hz)
                    exact absurd hfree (by simp [show p.locked = true from hlocked])
  | _ => exact absurd hinside Bool.false_ne_true

end GoesOn

/-! ## What is left of an Append -/

/-- The steps that are left to a call from an appender, not counting waits. -/
def QueuePoint.work {α : Type*} : QueuePoint α → Nat
  | pushEnter _ => 5
  | pushTest _ => 4
  | pushCheck _ => 3
  | pushing _ | pushBlock _ => 2
  | _ => 1

def LogPoint.work : LogPoint → Nat
  | dispatch _ _ (.nestedAsync _) => 7
  | dispatch _ _ (.nestedQueue _) => 6
  | dispatch _ _ (.nestedPush p) => p.work
  | dispatch _ _ (.nestedLock _) => 1
  | _ => 0

namespace RollingLogger

/-- The steps that are left to the `DispatchLog` of thread `i`; `OpenFile` logs at most
three lines. -/
def work (s : RollingLogger) (i : Nat) : Nat :=
  8 * s.inAppend.elim 4 (fun a => a.lines.length) + s.logger.threads[i]?.elim 0 LogPoint.work

end RollingLogger

/-- The step belongs to thread `i`. -/
def RollEvent.isOf (i : Nat) : RollEvent → Bool
  | .logger (.step j _) | .begin j _ _ | .line j | .finish j => j == i
  | _ => false

section Work

variable {env : AppenderEnv} {s t : LoggerState} {i : Nat} {x : LogPoint} {r : LogStep}
  {event : LoggerEvent}

/-- A step inside `DispatchLog`, but for the return, leaves less to do. -/
theorem work_next (hmove : LogMove s i x r) (hfits : x.fits i = true) (hinside : x.isInside = true)
    (hown : s.threads[i]? = some x) (happend : s.isAppending i = false) :
    r.next.isInside = true ∧ r.next.work < x.work ∧ r.state.threads = s.threads ∧
      (r.next.isPushParked = true ∨ r.next.isPopParked = true → r.notify = .nobody) := by
  have hnone : ∀ {caller event d}, LogPoint.quePoint (.dispatch caller event d) = none →
      LogPoint.isPushParked (.dispatch caller event d) = true ∨
        LogPoint.isPopParked (.dispatch caller event d) = true → False := by
    intro caller event d hplace hpark
    obtain ⟨p, hp, -⟩ := LogPoint.quePoint_of_parked hpark
    exact absurd hp (by simp [hplace])
  cases hmove with
  | @inQueue x p que q hx hque hmove =>
      cases LogPoint.inCall hx with
      | @nested caller outer =>
          have hkind : p.kind = .push := kind_of_fits hx hfits
          cases hmove with
          | pushEnter | pushReady | pushFull | pushBlock | pushAccepted | pushRefused =>
              exact ⟨rfl, Nat.le_of_ble_eq_true rfl, rfl, fun _ => rfl⟩
          | pushed =>
              exact ⟨rfl, Nat.le_of_ble_eq_true rfl, rfl, fun hpark => (hnone rfl hpark).elim⟩
          | _ => cases hkind
      | push | stopping | pop | size => exact absurd hinside Bool.false_ne_true
  | look hlook =>
      cases hlook with
      | nestedSync | nestedAsync | nestedNoQueue | nestedPush =>
          exact ⟨rfl, Nat.le_of_ble_eq_true rfl, rfl, fun _ => rfl⟩
      | _ => exact absurd hinside Bool.false_ne_true
  | dispatched => exact absurd happend (by simp [LoggerState.isAppending, hown])
  | _ => exact absurd hinside Bool.false_ne_true

/-- Another thread's step leaves a thread inside `DispatchLog` where it is, unless it is
parked. -/
theorem inside_stays (hi : s.threads[i]? = some x) (hinside : x.isInside = true)
    (hpush : x.isPushParked = false) (hpop : x.isPopParked = false)
    (hother : ∀ woken, event ≠ .step i woken) (hlog : ∀ inner, event ≠ .append i inner)
    (ht : loggerStep s event = some t) : t.threads[i]? = some x := by
  obtain ⟨-, heffect⟩ := effect_of_loggerStep ht
  have hset : ∀ {j : Nat} {y : LogPoint}, j ≠ i → (s.threads.set j y)[i]? = some x :=
    fun hne => by rw [List.getElem?_set_ne hne, hi]
  cases heffect with
  | @call j c hj =>
      refine hset ?_
      rintro rfl
      obtain rfl := Option.some.inj (hi.symm.trans hj)
      exact absurd hinside Bool.false_ne_true
  | @append j inner caller outer d hj hd => exact hset fun heq => hlog inner (heq ▸ rfl)
  | @wake j y hj hparked =>
      refine hset ?_
      rintro rfl
      obtain rfl := Option.some.inj (hi.symm.trans hj)
      exact absurd hparked (by simp [hpush, hpop])
  | @step j woken y r threads hj hr hthreads =>
      have hne : j ≠ i := fun heq => hother woken (heq ▸ rfl)
      have hmove := move_of_loggerStep hr
      have hstate : r.state.threads[i]? = some x := by
        cases hmove with
        | startThread hjoinable =>
            have habsent := first_of_consumer hj (c := .absent)
              (by simpa [LoggerState.joinable] using hjoinable)
            rw [List.getElem?_set_ne, hi]
            rintro rfl
            obtain rfl := Option.some.inj (hi.symm.trans habsent)
            exact absurd hinside Bool.false_ne_true
        | joined hended =>
            have hfirst := first_of_consumer hj hended
            rw [List.getElem?_set_ne, hi]
            rintro rfl
            obtain rfl := Option.some.inj (hi.symm.trans hfirst)
            exact absurd hinside Bool.false_ne_true
        | _ => exact hi
      refine Notify.getElem?_apply hthreads ?_ hpush hpop
      rw [List.getElem?_set_ne hne, hstate]

end Work

/-! ## The logger with the appender -/

section Rolling

variable {env : AppenderEnv} {s t : RollingLogger} {i : Nat} {x : LogPoint} {event : RollEvent}

theorem length_startAppend (s : RollingLogger) (stamp : LogEvent) (opening : Opening) :
    (s.startAppend env stamp opening).lines.length < 4 := by
  unfold RollingLogger.startAppend
  split
  · cases opening with
    | unresolved => exact Nat.le_of_ble_eq_true rfl
    | resolved created opened => cases created <;> exact Nat.le_of_ble_eq_true rfl
  · exact Nat.le_of_ble_eq_true rfl

theorem isAppending_iff {l : LoggerState} :
    l.isAppending i = true ↔
      ∃ caller outer, l.threads[i]? = some (.dispatch caller outer .appending) := by
  unfold LoggerState.isAppending
  constructor
  · intro h
    split at h
    · next caller outer hi => exact ⟨caller, outer, hi⟩
    · exact absurd h Bool.false_ne_true
  · rintro ⟨caller, outer, hi⟩
    rw [hi]

theorem not_popParked_of_inside (hfits : x.fits i = true) (hinside : x.isInside = true) :
    x.isPopParked = false := by
  cases hpop : x.isPopParked with
  | false => rfl
  | true =>
      obtain ⟨p, hx, hp⟩ := LogPoint.quePoint_of_parked (Or.inr hpop)
      have hkind := kind_of_fits hx hfits
      cases LogPoint.inCall hx with
      | nested =>
          cases p with
          | popParked => cases hkind
          | _ => exact absurd hpop Bool.false_ne_true
      | push | stopping | pop | size => exact absurd hinside Bool.false_ne_true

theorem RollingLogger.work_eq (hi : s.logger.threads[i]? = some x) :
    s.work i = 8 * s.inAppend.elim 4 (fun a => a.lines.length) + x.work := by
  unfold RollingLogger.work
  rw [hi]
  rfl

/-- Only one thread is in the loop over the appenders. -/
theorem appending_unique (h : NestInv s.logger) (hi : s.logger.threads[i]? = some x)
    (hinside : x.isInside = true) {j : Nat} (hj : s.logger.isAppending j = true) :
    j = i ∧ x.work = 0 := by
  obtain ⟨caller, outer, hj⟩ := isAppending_iff.mp hj
  obtain rfl := h.lock.unique hj rfl hi (locked_of_isInside hinside)
  obtain rfl := Option.some.inj (hi.symm.trans hj)
  exact ⟨rfl, rfl⟩

/-- The step of a thread that an appender has made call the logger. -/
theorem NestInv.work_step {l u : LoggerState} {woken : Option Nat} (h : NestInv l)
    (hi : l.threads[i]? = some x) (hinside : x.isInside = true) (happend : l.isAppending i = false)
    (ht : loggerStep l (.step i woken) = some u) :
    ∃ y, u.threads[i]? = some y ∧ y.isInside = true ∧ y.work < x.work := by
  obtain ⟨-, heffect⟩ := effect_of_loggerStep ht
  cases heffect with
  | @step i woken z r threads hz hr hthreads =>
      obtain rfl := Option.some.inj (hi.symm.trans hz)
      obtain ⟨hnext, hwork, hsame, hquiet⟩ :=
        work_next (move_of_loggerStep hr) (h.fits i x hi) hinside hi happend
      refine ⟨r.next, ?_, hnext, hwork⟩
      rw [hsame] at hthreads
      have hset := getElem?_set_self_of_some (m := r.next) hi
      cases hpush : r.next.isPushParked with
      | true =>
          rw [hquiet (Or.inl hpush)] at hthreads
          exact Option.some.inj hthreads ▸ hset
      | false =>
          cases hpop : r.next.isPopParked with
          | true =>
              rw [hquiet (Or.inr hpop)] at hthreads
              exact Option.some.inj hthreads ▸ hset
          | false => exact Notify.getElem?_apply hthreads hset hpush hpop

namespace RollingLogger

/-- `Append` is called: the lines that it logs are fewer than those left to a thread that
has yet to call it. -/
theorem begin_shrinks {j : Nat} {stamp : LogEvent} {opening : Opening} (h : NestInv s.logger)
    (hi : s.logger.threads[i]? = some x) (hinside : x.isInside = true)
    (ht : rollStep env s (.begin j stamp opening) = some t) :
    j = i ∧ t.logger.threads[i]? = some x ∧ t.work i < s.work i := by
  simp only [rollStep] at ht
  split at ht
  · next hok =>
    obtain rfl := Option.some.inj ht
    obtain ⟨rfl, -⟩ := appending_unique h hi hinside hok.2.1
    refine ⟨rfl, hi, ?_⟩
    have hlines := @length_startAppend env s stamp opening
    rw [work_eq hi, hok.2.2,
      work_eq (s := { s with inAppend := some (s.startAppend env stamp opening) }) hi]
    simp only [Option.elim]
    omega
  · exact absurd ht (by simp)

/-- A line of `OpenFile` takes fewer steps than one line counts for. -/
theorem line_shrinks {j : Nat} (h : NestInv s.logger) (hi : s.logger.threads[i]? = some x)
    (hinside : x.isInside = true) (ht : rollStep env s (.line j) = some t) :
    j = i ∧ ∃ y, t.logger.threads[i]? = some y ∧ y.isInside = true ∧ t.work i < s.work i := by
  simp only [rollStep] at ht
  split at ht
  · next line lines opened happ =>
    obtain ⟨u, hu, rfl⟩ := Option.map_eq_some_iff.mp ht
    obtain ⟨-, heffect⟩ := effect_of_loggerStep hu
    cases heffect with
    | @append j inner caller outer d hj hd =>
        obtain ⟨rfl, hzero⟩ := appending_unique h hi hinside
          (isAppending_iff.mpr ⟨caller, outer, hj⟩)
        have hset := getElem?_set_self_of_some (m := .dispatch caller outer d) hi
        have hd' : (LogPoint.dispatch caller outer d).isInside = true ∧
            (LogPoint.dispatch caller outer d).work < 8 := by
          rcases hd with rfl | rfl <;> exact ⟨rfl, Nat.le_of_ble_eq_true rfl⟩
        refine ⟨rfl, _, hset, hd'.1, ?_⟩
        have hwork := hd'.2
        rw [work_eq hi, happ, work_eq hset]
        simp only [Option.elim, List.length_cons]
        omega
  · exact absurd ht (by simp)

/-- A step of the logger that the thread itself takes. -/
theorem own_step_shrinks {woken : Option Nat} (h : NestInv s.logger)
    (hi : s.logger.threads[i]? = some x) (hinside : x.isInside = true)
    (ht : rollStep env s (.logger (.step i woken)) = some t) :
    ∃ y, t.logger.threads[i]? = some y ∧ y.isInside = true ∧ t.work i < s.work i := by
  simp only [rollStep] at ht
  split at ht
  · next hown =>
    obtain ⟨u, hu, rfl⟩ := Option.map_eq_some_iff.mp ht
    have happend : s.logger.isAppending i = false := by
      simpa [LoggerState.isOwn] using hown
    obtain ⟨y, hy, hyin, hwork⟩ := h.work_step hi hinside happend hu
    refine ⟨y, hy, hyin, ?_⟩
    rw [work_eq hi, work_eq (s := { s with logger := u }) hy]
    exact Nat.add_lt_add_left hwork _
  · exact absurd ht (by simp)

/-- A step of the logger that another thread takes. -/
theorem other_step_stays {e : LoggerEvent} (h : NestInv s.logger)
    (hi : s.logger.threads[i]? = some x) (hinside : x.isInside = true)
    (hpush : x.isPushParked = false) (hother : ∀ woken, e ≠ .step i woken)
    (ht : rollStep env s (.logger e) = some t) :
    t.logger.threads[i]? = some x ∧ t.work i = s.work i := by
  have hpop := not_popParked_of_inside (h.fits i x hi) hinside
  simp only [rollStep] at ht
  split at ht
  · next hown =>
    obtain ⟨u, hu, rfl⟩ := Option.map_eq_some_iff.mp ht
    have hlog : ∀ inner, e ≠ .append i inner := by
      rintro inner rfl
      exact absurd hown Bool.false_ne_true
    have hsame := inside_stays hi hinside hpush hpop hother hlog hu
    refine ⟨hsame, ?_⟩
    rw [work_eq hi, work_eq (s := { s with logger := u }) hsame]
  · exact absurd ht (by simp)

/-- **What is left of an Append** gets less with every step of its thread, until it returns,
and no other thread makes it more. -/
theorem shrinks (h : NestInv s.logger) (hi : s.logger.threads[i]? = some x)
    (hinside : x.isInside = true) (hpush : x.isPushParked = false)
    (ht : rollStep env s event = some t) (hne : event ≠ .finish i) :
    (∃ y, t.logger.threads[i]? = some y ∧ y.isInside = true) ∧
      if event.isOf i then t.work i < s.work i else t.work i = s.work i := by
  cases event with
  | logger e =>
      by_cases hstep : ∃ woken, e = .step i woken
      · obtain ⟨woken, rfl⟩ := hstep
        obtain ⟨y, hy, hyin, hwork⟩ := own_step_shrinks h hi hinside ht
        exact ⟨⟨y, hy, hyin⟩, by rwa [if_pos (by simp [RollEvent.isOf])]⟩
      · obtain ⟨hsame, hwork⟩ := other_step_stays h hi hinside hpush
          (fun woken heq => hstep ⟨woken, heq⟩) ht
        have hof : (RollEvent.logger e).isOf i = false := by
          cases e with
          | step j woken =>
              have hji : j ≠ i := fun heq => hstep ⟨woken, heq ▸ rfl⟩
              simpa [RollEvent.isOf] using hji
          | _ => rfl
        exact ⟨⟨x, hsame, hinside⟩, by rwa [if_neg (by simp [hof])]⟩
  | begin j stamp opening =>
      obtain ⟨rfl, hsame, hwork⟩ := begin_shrinks h hi hinside ht
      exact ⟨⟨x, hsame, hinside⟩, by rwa [if_pos (by simp [RollEvent.isOf])]⟩
  | line j =>
      obtain ⟨rfl, y, hy, hyin, hwork⟩ := line_shrinks h hi hinside ht
      exact ⟨⟨y, hy, hyin⟩, by rwa [if_pos (by simp [RollEvent.isOf])]⟩
  | finish j =>
      simp only [rollStep] at ht
      split at ht
      · next opened caller outer happ hj =>
        obtain ⟨rfl, -⟩ := appending_unique h hi hinside
          (isAppending_iff.mpr ⟨caller, outer, hj⟩)
        exact absurd rfl hne
      · exact absurd ht (by simp)

end RollingLogger

end Rolling

/-! ## When every Append returns -/

/-- What a thread that dispatches an event may count on, whatever its appender logs. -/
structure RollReturns (env : AppenderEnv) (s : RollingLogger) : Prop where
  /-- Nobody waits for the `_mutex` that it holds, and the consumer not for room. -/
  selfWait : NoSelfWait s.logger.threads
  /-- A caller waits for room only while the consumer can make it. -/
  room : CallersFindRoom s.logger
  /-- Whoever does not wait for room goes on, or another thread has the queue's lock and
  goes on. -/
  goesOn : s.logger.status = .running → ∀ (i : Nat) x, s.logger.threads[i]? = some x →
    x.isInside = true → x.isCallerParked = false →
    ∃ event t, rollStep env s event = some t ∧ (event.isOf i = true ∨
      ∃ que j, s.logger.logQue = some que ∧ que.owner = some j ∧ j ≠ i ∧ event.isOf j = true)
  /-- Its own steps lead to the return, and the others' leave it where it is. -/
  shrinks : ∀ (i : Nat) x event t, s.logger.threads[i]? = some x → x.isInside = true →
    x.isCallerParked = false → rollStep env s event = some t → event ≠ .finish i →
    (∃ y, t.logger.threads[i]? = some y ∧ y.isInside = true) ∧
      if event.isOf i then t.work i < s.work i else t.work i = s.work i

/-- The step leads nobody to wait for itself, and leaves room to those who wait for it. -/
def RollsFreely (s : RollingLogger) (event : RollEvent) (_ : RollingLogger) : Prop :=
  ∀ i woken x, event = .logger (.step i woken) → s.logger.threads[i]? = some x →
    s.logger.nestsFreely x = true ∧ s.logger.LeavesRoom woken x

section Returns

variable {env : AppenderEnv} {s t : RollingLogger} {i : Nat} {x : LogPoint} {event : RollEvent}

/-- The step of the logger that a step is, if any. -/
theorem logger_of_rollStep (ht : rollStep env s event = some t) :
    (∃ e, event = .logger e ∧ loggerStep s.logger e = some t.logger) ∨
      (∀ e, event ≠ .logger e) ∧ (t.logger = s.logger ∨
        ∃ e, loggerStep s.logger e = some t.logger ∧
          ∀ i woken x, e = .step i woken → s.logger.threads[i]? = some x →
            ∃ caller outer, x = .dispatch caller outer .appending) := by
  cases event with
  | logger e =>
      simp only [rollStep] at ht
      split at ht
      · obtain ⟨u, hu, rfl⟩ := Option.map_eq_some_iff.mp ht
        exact Or.inl ⟨e, rfl, hu⟩
      · exact absurd ht (by simp)
  | begin i stamp opening =>
      simp only [rollStep] at ht
      split at ht
      · obtain rfl := Option.some.inj ht
        exact Or.inr ⟨fun _ => RollEvent.noConfusion, Or.inl rfl⟩
      · exact absurd ht (by simp)
  | line i =>
      simp only [rollStep] at ht
      split at ht
      · obtain ⟨u, hu, rfl⟩ := Option.map_eq_some_iff.mp ht
        exact Or.inr ⟨fun _ => RollEvent.noConfusion, Or.inr ⟨_, hu, fun _ _ _ heq =>
          LoggerEvent.noConfusion heq⟩⟩
      · exact absurd ht (by simp)
  | finish i =>
      simp only [rollStep] at ht
      split at ht
      · next opened caller outer happ hi =>
        obtain ⟨u, hu, rfl⟩ := Option.map_eq_some_iff.mp ht
        refine Or.inr ⟨fun _ => RollEvent.noConfusion, Or.inr ⟨_, hu, fun j woken x heq hj => ?_⟩⟩
        obtain ⟨rfl, -⟩ := LoggerEvent.step.inj heq
        exact ⟨caller, outer, Option.some.inj (hj.symm.trans hi)⟩
      · exact absurd ht (by simp)

theorem NestInv.rollStep (h : NestInv s.logger) (ht : rollStep env s event = some t) :
    NestInv t.logger := by
  rcases logger_of_rollStep ht with ⟨e, -, he⟩ | ⟨-, hsame | ⟨e, he, -⟩⟩
  · exact h.step he
  · exact hsame ▸ h
  · exact h.step he

/-- **One step**: it makes nobody wait in vain exactly when it is free. -/
theorem waits_iff_rollsFreely (h : NestInv s.logger) (hself : NoSelfWait s.logger.threads)
    (hroom : CallersFindRoom s.logger) (ht : rollStep env s event = some t) :
    NoSelfWait t.logger.threads ∧ CallersFindRoom t.logger ↔ RollsFreely s event t := by
  rcases logger_of_rollStep ht with ⟨e, rfl, he⟩ | ⟨hno, hcase⟩
  · rw [noSelfWait_iff h.fits hself he, callersFindRoom_iff h.lock h.fits hroom he]
    constructor
    · rintro ⟨hfree, hleaves⟩ i woken x heq hi
      obtain rfl := RollEvent.logger.inj heq
      exact ⟨hfree i woken x rfl hi, hleaves i woken x rfl hi⟩
    · intro hok
      exact ⟨fun i woken x heq hi => (hok i woken x (heq ▸ rfl) hi).1,
        fun i woken x heq hi => (hok i woken x (heq ▸ rfl) hi).2⟩
  · refine iff_of_true ?_ fun i woken x heq => absurd heq (hno _)
    rcases hcase with hsame | ⟨e, he, happend⟩
    · rw [hsame]
      exact ⟨hself, hroom⟩
    · rw [noSelfWait_iff h.fits hself he, callersFindRoom_iff h.lock h.fits hroom he]
      constructor
      · intro i woken x heq hi
        obtain ⟨caller, outer, rfl⟩ := happend i woken x heq hi
        rfl
      · intro i woken x heq hi
        obtain ⟨caller, outer, rfl⟩ := happend i woken x heq hi
        cases caller <;> trivial

/-- A thread that waits for room is a caller, or waits for itself. -/
theorem not_pushParked_of_inside (hinside : x.isInside = true) (hself : x.waitsForSelf = false)
    (hparked : x.isCallerParked = false) : x.isPushParked = false := by
  cases hpush : x.isPushParked with
  | false => rfl
  | true =>
      obtain ⟨p, hx, -⟩ := LogPoint.quePoint_of_parked (Or.inl hpush)
      cases LogPoint.inCall hx with
      | @nested caller =>
          cases p with
          | pushParked data =>
              cases caller with
              | log => exact absurd hparked (by simp [LogPoint.isCallerParked])
              | consumer draining =>
                  exact absurd hself (by simp [LogPoint.waitsForSelf, QueuePoint.waitsPush])
          | _ => exact absurd hpush Bool.false_ne_true
      | push | stopping | pop | size => exact absurd hinside Bool.false_ne_true

/-- A step of the logger is a step with the appender, outside of the appenders. -/
theorem exists_rollStep_logger {woken : Option Nat} {u : LoggerState}
    (happend : s.logger.isAppending i = false) (hu : loggerStep s.logger (.step i woken) = some u) :
    ∃ t, rollStep env s (.logger (.step i woken)) = some t :=
  ⟨{ s with logger := u }, by simp [rollStep, LoggerState.isOwn, happend, hu]⟩

/-- A thread in the loop over the appenders begins an `Append`, logs a line or returns. -/
theorem exists_rollStep_appending (hrun : s.logger.status = .running)
    {caller : DispatchCaller} {outer : LogEvent}
    (hi : s.logger.threads[i]? = some (.dispatch caller outer .appending)) :
    ∃ event t, rollStep env s event = some t ∧ event.isOf i = true := by
  have happend := isAppending_iff.mpr ⟨caller, outer, hi⟩
  cases happ : s.inAppend with
  | none =>
      refine ⟨.begin i {} .unresolved, ?_⟩
      simp [rollStep, hrun, happend, happ, RollEvent.isOf]
  | some a =>
      obtain ⟨lines, opened⟩ := a
      cases lines with
      | nil =>
          refine ⟨.finish i, ?_⟩
          simp [rollStep, happ, loggerStep, hrun, hi, LoggerState.step, LoggerState.dispatchStep,
            Notify.apply, RollEvent.isOf]
      | cons line lines =>
          refine ⟨.line i, ?_⟩
          simp [rollStep, happ, loggerStep, hrun, hi, RollEvent.isOf]

/-- A thread inside `DispatchLog` goes on. -/
theorem exists_rollStep (h : NestInv s.logger) (hrun : s.logger.status = .running)
    (hself : NoSelfWait s.logger.threads) (hi : s.logger.threads[i]? = some x)
    (hinside : x.isInside = true) (hparked : x.isCallerParked = false) :
    ∃ event t, rollStep env s event = some t ∧ (event.isOf i = true ∨
      ∃ que j, s.logger.logQue = some que ∧ que.owner = some j ∧ j ≠ i ∧
        event.isOf j = true) := by
  cases happend : s.logger.isAppending i with
  | true =>
      obtain ⟨caller, outer, hi⟩ := isAppending_iff.mp happend
      obtain ⟨event, t, ht, hof⟩ := @exists_rollStep_appending env s i hrun caller outer hi
      exact ⟨event, t, ht, Or.inl hof⟩
  | false =>
      rcases h.nested_goesOn hrun hi hinside (hself i x hi) hparked with
        ⟨r, hr⟩ | ⟨que, j, hque, howner, hne⟩
      · obtain ⟨woken, u, hu⟩ := exists_loggerStep hrun hi hr
        obtain ⟨t, ht⟩ := @exists_rollStep_logger env s i woken u happend hu
        exact ⟨_, t, ht, Or.inl (by simp [RollEvent.isOf])⟩
      · obtain ⟨y, woken, u, hy, hplace, hu⟩ := h.owner_goesOn hrun hque howner
        have happendj : s.logger.isAppending j = false := by
          cases hj : s.logger.isAppending j with
          | false => rfl
          | true =>
              obtain ⟨caller, outer, hj⟩ := isAppending_iff.mp hj
              obtain rfl := Option.some.inj (hy.symm.trans hj)
              exact absurd hplace Bool.false_ne_true
        obtain ⟨t, ht⟩ := @exists_rollStep_logger env s j woken u happendj hu
        exact ⟨_, t, ht, Or.inr ⟨que, j, hque, howner, hne, by simp [RollEvent.isOf]⟩⟩

theorem rollReturns_iff (h : NestInv s.logger) :
    RollReturns env s ↔ NoSelfWait s.logger.threads ∧ CallersFindRoom s.logger := by
  constructor
  · exact fun hr => ⟨hr.selfWait, hr.room⟩
  · rintro ⟨hself, hroom⟩
    refine ⟨hself, hroom, fun hrun i x hi hinside hparked => ?_,
      fun i x event t hi hinside hparked ht hne => ?_⟩
    · exact exists_rollStep h hrun hself hi hinside hparked
    · have hpush := not_pushParked_of_inside hinside (hself i x hi) hparked
      exact RollingLogger.shrinks h hi hinside hpush ht hne

end Returns

/-- **When every Append returns**: for every level, any number of callers, every appender
and every run, no thread inside `DispatchLog` waits in vain and every roll comes to its end
exactly when every step rolls freely. -/
theorem roll_returns_iff (env : AppenderEnv) (level : LogLevel) (callers : Nat)
    (appender : AppenderState) (events : List RollEvent) :
    AllStates (rollStep env) (RollReturns env) (.make level callers appender) events ↔
      AllSteps (rollStep env) RollsFreely (.make level callers appender) events := by
  have hinv : ∀ s event t, NestInv s.logger → rollStep env s event = some t →
      NestInv t.logger := fun s event t h ht => h.rollStep ht
  have hstep : ∀ s event t, NestInv s.logger → RollReturns env s →
      rollStep env s event = some t → (RollReturns env t ↔ RollsFreely s event t) := by
    intro s event t h hr ht
    rw [rollReturns_iff (h.rollStep ht)]
    exact waits_iff_rollsFreely h hr.selfWait hr.room ht
  have hstart : NestInv (LoggerState.make level callers) := nestInv_make level callers
  refine allStates_iff_allSteps hinv hstep events _ hstart ((rollReturns_iff hstart).mpr ?_)
  have hoff : ∀ (i : Nat) x, (LoggerState.make level callers).threads[i]? = some x →
      x = .absent ∨ x = .idle := by
    intro i x hx
    rcases List.mem_cons.mp (List.mem_of_getElem? hx) with rfl | hx
    · exact Or.inl rfl
    · exact Or.inr (List.eq_of_mem_replicate hx)
  constructor
  · intro i x hx
    rcases hoff i x hx with rfl | rfl <;> rfl
  · intro i x hx hparked
    rcases hoff i x hx with rfl | rfl <;> exact absurd hparked Bool.false_ne_true

/-- A caller rolls in synchronous mode and waits for the `_mutex` it holds; the consumer
rolls while its queue has room for one line only, and waits for room. -/
theorem roll_waits_for_itself :
    let env : AppenderEnv := ⟨fun _ => [], id, fun _ => rfl⟩
    let files : Files Bytes UInt8 := fun path =>
      if path = ascii "log" then some (ascii "a") else none
    let start := RollingLogger.make .info 1 (FileAppender.make env files (ascii "log") 1 1)
    let log : RollEvent := .logger (.call 1 (.log { level := .warn }))
    let steps (i n : Nat) : List RollEvent := List.replicate n (.logger (.step i none))
    let roll (i : Nat) : List RollEvent := [.begin i {} (.resolved false true), .line i]
    let sync := [log] ++ steps 1 2 ++ roll 1 ++ steps 1 1
    let async := [.logger (.call 1 (.setAsyncMode true 1))] ++ steps 1 5 ++ [log] ++ steps 1 6 ++
      steps 0 6 ++ roll 0 ++ steps 0 6 ++ [.line 0] ++ steps 0 4
    ¬ AllStates (rollStep env) (RollReturns env) start sync ∧
      ¬ AllStates (rollStep env) (RollReturns env) start async := by
  intro env files start log steps roll sync async
  have hblocked : ∀ (events : List RollEvent) (i : Nat),
      (run (rollStep env) start events).bind (fun s => s.logger.threads[i]?.map
        LogPoint.waitsForSelf) = some true →
      ¬ AllStates (rollStep env) (RollReturns env) start events := by
    intro events i hwaits hall
    obtain ⟨s, hs, hmap⟩ := Option.bind_eq_some_iff.mp hwaits
    obtain ⟨x, hx, hself⟩ := Option.map_eq_some_iff.mp hmap
    exact absurd ((hall.last hs).selfWait i x hx) (by simp [hself])
  exact ⟨hblocked sync 1 (by decide +kernel), hblocked async 0 (by decide +kernel)⟩

end AsioServer.Infra
