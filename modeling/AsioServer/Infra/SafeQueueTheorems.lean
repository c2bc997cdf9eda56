/-
AsioServer.Infra.SafeQueueTheorems — the log queue is a bounded FIFO that drains.

`QueueMove` inverts one step of a call: one constructor for each branch of the
source, with what it tested. What the invariants need of a step is read off it
once: who has the lock afterwards (`QueueMove.lock_cases`), what went in and out
(`QueueMove.balance`), and that `_isRunning` never comes back
(`QueueMove.isRunning`).

`Stop` takes no lock, so what a thread has tested may be stale. `PointOk` is what
stays true of the test anyway: after the check in `Push` there is room, because
only the owner of the lock changes the queue, even if the flag has fallen since.
A `Pop` that returns false holds the lock, so no `Push` is past its check then,
and none gets past it later. `safe_queue_drains` puts this together.
-/
import AsioServer.Infra.SafeQueue

namespace AsioServer.Infra

open AsioServer.Lib

variable {α : Type*}

/-! ## One step of a call -/

/-- The branches of `SafeQueue.step`. -/
inductive QueueMove (q : SafeQueue α) (i : Nat) : QueuePoint α → QueueStep α → Prop where
  | pushEnter {data} : q.owner = none → QueueMove q i (.pushEnter data)
      { que := { q with owner := some i }, next := .point (.pushTest data) }
  | pushReady {data} : q.notFull = true →
      QueueMove q i (.pushTest data) { que := q, next := .point (.pushCheck data) }
  | pushFull {data} : q.notFull = false →
      QueueMove q i (.pushTest data) { que := q, next := .point (.pushBlock data) }
  | pushBlock {data} : QueueMove q i (.pushBlock data)
      { que := { q with owner := none }, next := .point (.pushParked data) }
  | pushAccepted {data} : q.isRunning = true →
      QueueMove q i (.pushCheck data) { que := q, next := .point (.pushing data) }
  | pushRefused {data} : q.isRunning = false → QueueMove q i (.pushCheck data)
      { que := { q with owner := none }, next := .returned (.push data false) }
  | pushed {data} : QueueMove q i (.pushing data)
      { que := { q with queue := q.queue ++ [data], owner := none }
        next := .returned (.push data true)
        notify := .oneNotEmpty }
  | popEnter : q.owner = none → QueueMove q i .popEnter
      { que := { q with owner := some i }, next := .point .popTest }
  | popReady : q.notEmpty = true →
      QueueMove q i .popTest { que := q, next := .point .popCheck }
  | popEmpty : q.notEmpty = false →
      QueueMove q i .popTest { que := q, next := .point .popBlock }
  | popBlock : QueueMove q i .popBlock
      { que := { q with owner := none }, next := .point .popParked }
  | popAccepted : (!q.isRunning && q.queue.isEmpty) = false →
      QueueMove q i .popCheck { que := q, next := .point .popping }
  | popDrained : q.isRunning = false → q.queue = [] → QueueMove q i .popCheck
      { que := { q with owner := none }, next := .returned (.pop none) }
  | popped {data rest} : q.queue = data :: rest → QueueMove q i .popping
      { que := { q with queue := rest, owner := none }
        next := .returned (.pop (some data))
        notify := .oneNotFull }
  | stopStore : QueueMove q i .stopStore
      { que := { q with isRunning := false }, next := .point .stopNotifyEmpty }
  | stopNotifyEmpty : QueueMove q i .stopNotifyEmpty
      { que := q, next := .point .stopNotifyFull, notify := .allNotEmpty }
  | stopNotifyFull : QueueMove q i .stopNotifyFull
      { que := q, next := .returned .stop, notify := .allNotFull }
  | sizeEnter : q.owner = none → QueueMove q i .sizeEnter
      { que := { q with owner := some i }, next := .point .sizeRead }
  | sizeRead : QueueMove q i .sizeRead
      { que := { q with owner := none }, next := .returned (.size q.queue.length) }

theorem SafeQueue.lock_eq_some {q : SafeQueue α} {i : Nat} {p : QueuePoint α} {r : QueueStep α}
    (h : q.lock i p = some r) :
    q.owner = none ∧ r = { que := { q with owner := some i }, next := .point p } := by
  unfold SafeQueue.lock at h
  split at h
  · next hfree => exact ⟨hfree, (Option.some.inj h).symm⟩
  · exact absurd h (by simp)

/-- **Every step is one of the branches.** -/
theorem move_of_step {q : SafeQueue α} {i : Nat} {p : QueuePoint α} {r : QueueStep α}
    (h : q.step i p = some r) : QueueMove q i p r := by
  cases p with
  | pushEnter data | popEnter | sizeEnter =>
      obtain ⟨hfree, rfl⟩ := SafeQueue.lock_eq_some h
      constructor
      exact hfree
  | pushTest data =>
      obtain rfl := Option.some.inj h
      cases htest : q.notFull with
      | true => exact .pushReady htest
      | false => exact .pushFull htest
  | pushCheck data =>
      simp only [SafeQueue.step] at h
      split at h
      · next hrun =>
        obtain rfl := Option.some.inj h
        exact .pushAccepted hrun
      · next hrun =>
        obtain rfl := Option.some.inj h
        exact .pushRefused (by simpa using hrun)
  | popTest =>
      obtain rfl := Option.some.inj h
      cases htest : q.notEmpty with
      | true => exact .popReady htest
      | false => exact .popEmpty htest
  | popCheck =>
      simp only [SafeQueue.step] at h
      split at h
      · next hdone =>
        obtain rfl := Option.some.inj h
        simp only [Bool.and_eq_true, Bool.not_eq_true', List.isEmpty_iff] at hdone
        exact .popDrained hdone.1 hdone.2
      · next hdone =>
        obtain rfl := Option.some.inj h
        exact .popAccepted (by simpa using hdone)
  | popping =>
      simp only [SafeQueue.step] at h
      split at h
      · next data rest hqueue =>
        obtain rfl := Option.some.inj h
        exact .popped hqueue
      · exact absurd h (by simp)
  | pushParked data | popParked => exact absurd h (by simp [SafeQueue.step])
  | pushBlock data | pushing data | popBlock | stopStore | stopNotifyEmpty | stopNotifyFull
  | sizeRead =>
      obtain rfl := Option.some.inj h
      constructor

/-- The thread holds the lock after the step. -/
def QueueNext.locked : QueueNext α → Bool
  | point p => p.locked
  | returned _ => false

/-- The value that a `Pop` takes out. -/
def QueueNext.given : QueueNext α → List α
  | returned (.pop (some data)) => [data]
  | _ => []

namespace QueueMove

variable {q : SafeQueue α} {i : Nat} {p : QueuePoint α} {r : QueueStep α}

/-- A step takes the free lock, leaves it where it is, or gives it back. -/
theorem lock_cases (h : QueueMove q i p r) :
    (q.owner = none ∧ r.que.owner = some i ∧ r.next.locked = true) ∨
    (r.que.owner = q.owner ∧ r.next.locked = p.locked) ∨
    (p.locked = true ∧ r.que.owner = none ∧ r.next.locked = false) := by
  cases h with
  | pushEnter hfree | popEnter hfree | sizeEnter hfree => exact Or.inl ⟨hfree, rfl, rfl⟩
  | pushReady | pushFull | pushAccepted | popReady | popEmpty | popAccepted | stopStore
  | stopNotifyEmpty | stopNotifyFull => exact Or.inr (Or.inl ⟨rfl, rfl⟩)
  | pushBlock | pushRefused | pushed | popBlock | popDrained | popped | sizeRead =>
      exact Or.inr (Or.inr ⟨rfl, rfl, rfl⟩)

/-- **What goes in and out**: the value popped and the queue afterwards are the
queue before and the value pushed. -/
theorem balance (h : QueueMove q i p r) :
    r.next.given ++ r.que.queue = q.queue ++ r.next.taken := by
  cases h with
  | popped hqueue => simp [QueueNext.given, QueueNext.taken, hqueue]
  | pushed => simp [QueueNext.given, QueueNext.taken]
  | _ => simp [QueueNext.given, QueueNext.taken]

@[simp] theorem maxSize (h : QueueMove q i p r) : r.que.maxSize = q.maxSize := by
  cases h <;> rfl

/-- The flag never comes back. -/
theorem isRunning (h : QueueMove q i p r) (hrun : r.que.isRunning = true) :
    q.isRunning = true := by
  cases h with
  | stopStore => exact absurd hrun (by simp)
  | _ => exact hrun

theorem stays_stopped (h : QueueMove q i p r) (hstop : q.isRunning = false) :
    r.que.isRunning = false := by
  cases hrun : r.que.isRunning with
  | false => rfl
  | true => exact absurd (h.isRunning hrun) (by simp [hstop])

/-- Without the lock a thread leaves the queue as it is. -/
theorem queue_of_unlocked (h : QueueMove q i p r) (hp : p.locked = false) :
    r.que.queue = q.queue := by
  cases h with
  | pushed | popped => exact absurd hp (by simp [QueuePoint.locked])
  | _ => rfl

/-- Only the store of `Stop` lowers the flag. -/
theorem isRunning_eq (h : QueueMove q i p r) (hp : p ≠ .stopStore) :
    r.que.isRunning = q.isRunning := by
  cases h with
  | stopStore => exact absurd rfl hp
  | _ => rfl

end QueueMove

/-! ## Notifications -/

section Notify

variable {τ : Type*} {pushParked popParked : τ → Bool} {wake : τ → τ} {ts ts' : List τ}
  {woken : Option Nat} {n : Notify}

/-- What a notification leaves at an index: the same thread, or a parked one woken. -/
theorem Notify.apply_getElem? (h : n.apply pushParked popParked wake ts woken = some ts') {j : Nat}
    {x : τ} (hx : ts'[j]? = some x) :
    ∃ l, ts[j]? = some l ∧
      (x = l ∨ ((pushParked l = true ∨ popParked l = true) ∧ x = wake l)) := by
  cases n with
  | nobody =>
      obtain rfl := Option.some.inj h
      exact ⟨x, hx, Or.inl rfl⟩
  | oneNotEmpty =>
      obtain ⟨l, hl, hcase⟩ := getElem?_notifyOne h hx
      exact ⟨l, hl, hcase.imp_right fun hw => ⟨Or.inr hw.1, hw.2⟩⟩
  | oneNotFull =>
      obtain ⟨l, hl, hcase⟩ := getElem?_notifyOne h hx
      exact ⟨l, hl, hcase.imp_right fun hw => ⟨Or.inl hw.1, hw.2⟩⟩
  | allNotEmpty =>
      obtain rfl := Option.some.inj h
      obtain ⟨l, hl, hcase⟩ := getElem?_notifyAll hx
      exact ⟨l, hl, hcase.imp_right fun hw => ⟨Or.inr hw.1, hw.2⟩⟩
  | allNotFull =>
      obtain rfl := Option.some.inj h
      obtain ⟨l, hl, hcase⟩ := getElem?_notifyAll hx
      exact ⟨l, hl, hcase.imp_right fun hw => ⟨Or.inl hw.1, hw.2⟩⟩

/-- A notification leaves a lock where it is. -/
theorem Notify.apply_lockOk {holds : τ → Bool} {owner : Option Nat} (hok : LockOk holds owner ts)
    (hwake : ∀ l, pushParked l = true ∨ popParked l = true → holds (wake l) = holds l)
    (h : n.apply pushParked popParked wake ts woken = some ts') : LockOk holds owner ts' := by
  cases n with
  | nobody => exact Option.some.inj h ▸ hok
  | oneNotEmpty => exact hok.notifyOne (fun l hl => hwake l (Or.inr hl)) h
  | oneNotFull => exact hok.notifyOne (fun l hl => hwake l (Or.inl hl)) h
  | allNotEmpty => exact Option.some.inj h ▸ hok.notifyAll fun l hl => hwake l (Or.inr hl)
  | allNotFull => exact Option.some.inj h ▸ hok.notifyAll fun l hl => hwake l (Or.inl hl)

end Notify

/-! ## One step of the threads -/

variable {s t : QueueState α} {a : QueueEvent α}

/-- The branches of `queueStep`. -/
inductive QueueEffect (s : QueueState α) : QueueEvent α → QueueState α → Prop where
  | call {i c} : s.threads[i]? = some none → QueueEffect s (.call i c)
      { s with threads := s.threads.set i (some c.entry), stopped := s.stopped || c.isStop }
  | step {i woken p r threads} : s.threads[i]? = some (some p) → s.que.step i p = some r →
      r.notify.apply QueueThread.isPushParked QueueThread.isPopParked QueueThread.wake
        (s.threads.set i r.next.thread) woken = some threads →
      QueueEffect s (.step i woken) ({ s with que := r.que, threads }.record r.next)
  | wake {i p} : s.threads[i]? = some (some p) → (p.isPushParked || p.isPopParked) = true →
      QueueEffect s (.wake i) { s with threads := s.threads.set i (some p.wake) }

/-- A thread that is in no call can make one. -/
theorem queueStep_call {i : Nat} (hi : s.threads[i]? = some none) (c : QueueCall α) :
    queueStep s (.call i c) = some { s with
      threads := s.threads.set i (some c.entry)
      stopped := s.stopped || c.isStop } := by
  simp only [queueStep, hi]

/-- A thread that is parked can wake up. -/
theorem queueStep_wake {i : Nat} {p : QueuePoint α} (hi : s.threads[i]? = some (some p))
    (hparked : p.isPushParked = true ∨ p.isPopParked = true) :
    queueStep s (.wake i) = some { s with threads := s.threads.set i (some p.wake) } := by
  simp only [queueStep, hi]
  rw [if_pos (by simpa using hparked)]

theorem effect_of_queueStep (h : queueStep s a = some t) : QueueEffect s a t := by
  cases a with
  | call i c =>
      simp only [queueStep] at h
      split at h
      · next hi =>
        obtain rfl := Option.some.inj h
        exact .call hi
      · exact absurd h (by simp)
  | step i woken =>
      simp only [queueStep] at h
      split at h
      · next p hi =>
        simp only [Option.bind_eq_bind, Option.pure_def, Option.bind_eq_some_iff,
          Option.some.injEq] at h
        obtain ⟨r, hr, threads, hthreads, rfl⟩ := h
        exact .step hi hr hthreads
      · exact absurd h (by simp)
  | wake i =>
      simp only [queueStep] at h
      split at h
      · next p hi =>
        split at h
        · next hparked =>
          obtain rfl := Option.some.inj h
          exact .wake hi hparked
        · exact absurd h (by simp)
      · exact absurd h (by simp)

namespace QueueState

@[simp] theorem record_que (s : QueueState α) (n : QueueNext α) : (s.record n).que = s.que := by
  unfold record
  split <;> rfl

@[simp] theorem record_threads (s : QueueState α) (n : QueueNext α) :
    (s.record n).threads = s.threads := by
  unfold record
  split <;> rfl

@[simp] theorem record_stopped (s : QueueState α) (n : QueueNext α) :
    (s.record n).stopped = s.stopped := by
  unfold record
  split <;> rfl

theorem record_pushed (s : QueueState α) (n : QueueNext α) :
    (s.record n).pushed = s.pushed ++ n.taken := by
  unfold record QueueNext.taken
  split <;> simp

theorem record_popped (s : QueueState α) (n : QueueNext α) :
    (s.record n).popped = s.popped ++ n.given := by
  unfold record QueueNext.given
  split <;> simp_all

end QueueState

/-! ## The invariant -/

/-- What a thread may rely on at a place inside a call. -/
def PointOk (s : QueueState α) : QueuePoint α → Prop
  | .pushCheck _ => s.que.isRunning = false ∨ s.que.queue.length < s.que.maxSize
  | .pushing _ => s.que.queue.length < s.que.maxSize ∧ s.drained = false
  | .popCheck => s.que.isRunning = false ∨ s.que.queue ≠ []
  | .popping => s.que.queue ≠ []
  | .stopStore => s.stopped = true
  | _ => True

/-- **The invariant** of the queue and its threads. -/
structure QueueInv (s : QueueState α) : Prop where
  lock : LockOk QueueThread.locked s.que.owner s.threads
  points : ∀ (i : Nat) p, s.threads[i]? = some (some p) → PointOk s p
  ledger : s.popped ++ s.que.queue = s.pushed
  bounded : s.que.queue.length ≤ s.que.maxSize
  stopped : s.que.isRunning = false → s.stopped = true
  drained : s.drained = true → s.que.isRunning = false ∧ s.que.queue = []

/-- The flags of the queue and of the history only go one way. -/
structure Later (s t : QueueState α) : Prop where
  maxSize : t.que.maxSize = s.que.maxSize
  isRunning : t.que.isRunning = true → s.que.isRunning = true
  stopped : s.stopped = true → t.stopped = true

theorem Later.isRunning_false (h : Later s t) (hs : s.que.isRunning = false) :
    t.que.isRunning = false := by
  cases ht : t.que.isRunning with
  | false => rfl
  | true =>
      have hrun := h.isRunning ht
      rw [hs] at hrun
      exact absurd hrun (by simp)

/-- What a thread relies on stays true as long as nobody touches the queue. -/
theorem PointOk.later {p : QueuePoint α} (h : PointOk s p) (hl : Later s t)
    (hq : t.que.queue = s.que.queue) (hd : t.drained = s.drained) : PointOk t p := by
  cases p with
  | pushCheck data =>
      refine h.imp hl.isRunning_false fun hlt => ?_
      rw [hq, hl.maxSize]
      exact hlt
  | pushing data =>
      obtain ⟨hlt, hdrained⟩ := h
      refine ⟨?_, hd.trans hdrained⟩
      rw [hq, hl.maxSize]
      exact hlt
  | popCheck => exact h.imp hl.isRunning_false fun hne => hq.symm ▸ hne
  | popping => exact fun hnil => h (hq.symm.trans hnil)
  | stopStore => exact hl.stopped h
  | _ => trivial

/-- A thread without the lock relies on nothing that others change. -/
theorem PointOk.unlocked {p : QueuePoint α} (h : PointOk s p) (hp : p.locked = false)
    (hl : s.stopped = true → t.stopped = true) : PointOk t p := by
  cases p with
  | stopStore => exact hl h
  | pushCheck data | pushing data | popCheck | popping =>
      exact absurd hp (by simp [QueuePoint.locked])
  | _ => trivial

theorem pointOk_wake {p : QueuePoint α} (hp : (p.isPushParked || p.isPopParked) = true) :
    PointOk s p.wake := by
  cases p with
  | pushParked data | popParked => trivial
  | _ => exact absurd hp (by simp [QueuePoint.isPushParked, QueuePoint.isPopParked])

theorem locked_wake {x : QueueThread α} (hx : x.isPushParked = true ∨ x.isPopParked = true) :
    QueueThread.locked x.wake = QueueThread.locked x := by
  cases x with
  | none => rfl
  | some p =>
      cases p with
      | pushParked data | popParked => rfl
      | _ => rfl

/-- The point that a thread reaches is in order. -/
theorem QueueMove.pointOk {i : Nat} {p p' : QueuePoint α} {r : QueueStep α}
    (h : QueueMove s.que i p r) (hs : QueueInv s) (hp : PointOk s p) (hr : r.next = .point p')
    {threads : List (QueueThread α)} : PointOk { s with que := r.que, threads } p' := by
  cases h with
  | pushReady htest =>
      obtain rfl := QueueNext.point.inj hr
      simpa [SafeQueue.notFull, PointOk] using htest
  | pushAccepted hrun =>
      obtain rfl := QueueNext.point.inj hr
      refine ⟨hp.resolve_left (by simp [hrun]), ?_⟩
      cases hd : s.drained with
      | false => rfl
      | true => exact absurd (hs.drained hd).1 (by simp [hrun])
  | popReady htest =>
      obtain rfl := QueueNext.point.inj hr
      simpa [SafeQueue.notEmpty, PointOk] using htest
  | popAccepted htest =>
      obtain rfl := QueueNext.point.inj hr
      rcases hp with hstop | hne
      · have hne : s.que.queue.isEmpty = false := by simpa [hstop] using htest
        exact fun hnil => absurd hne (by simp [show s.que.queue = [] from hnil])
      · exact hne
  | pushRefused | pushed | popDrained | popped | stopNotifyFull | sizeRead =>
      exact absurd hr (by simp)
  | _ =>
      obtain rfl := QueueNext.point.inj hr
      trivial

@[simp] theorem locked_thread (n : QueueNext α) : QueueThread.locked n.thread = n.locked := by
  cases n <;> rfl

/-- Only the owner of the lock can find the queue drained. -/
theorem QueueMove.record_drained {q : SafeQueue α} {i : Nat} {p : QueuePoint α} {r : QueueStep α}
    (h : QueueMove q i p r) (hp : p.locked = false) (u : QueueState α) :
    (u.record r.next).drained = u.drained := by
  cases h with
  | popDrained => exact absurd hp (by simp [QueuePoint.locked])
  | _ => rfl

theorem queueInv_init (h : QueueInit s) : QueueInv s := by
  obtain ⟨maxSize, n, rfl⟩ := h
  refine ⟨LockOk.init ?_, ?_, rfl, Nat.zero_le _, ?_, ?_⟩
  · intro x hx
    rw [List.eq_of_mem_replicate hx]
    rfl
  · intro i p hi
    have hmem := List.eq_of_mem_replicate (List.mem_of_getElem? hi)
    exact absurd hmem (by simp)
  · intro hstop
    exact absurd hstop (by simp)
  · intro hdrained
    exact absurd hdrained (by simp)

/-- The lock after a thread has moved. -/
theorem QueueMove.lockOk {q : SafeQueue α} {i : Nat} {p : QueuePoint α} {r : QueueStep α}
    {ts : List (QueueThread α)} (h : QueueMove q i p r)
    (hlock : LockOk QueueThread.locked q.owner ts) (hi : ts[i]? = some (some p)) :
    LockOk QueueThread.locked r.que.owner (ts.set i r.next.thread) := by
  rcases h.lock_cases with ⟨hfree, howner, hlocked⟩ | ⟨howner, hlocked⟩ |
    ⟨hp, howner, hlocked⟩
  · rw [howner]
    rw [hfree] at hlock
    exact hlock.acquire hi (by rw [locked_thread, hlocked])
  · rw [howner]
    exact hlock.keep hi (by rw [locked_thread, hlocked]; rfl)
  · rw [howner]
    exact hlock.release hi hp (by rw [locked_thread, hlocked])

/-- What the other threads rely on is not touched by a step. -/
theorem QueueInv.pointOk_other (hs : QueueInv s) {i j : Nat} {p p' : QueuePoint α}
    {r : QueueStep α} (h : QueueMove s.que i p r) (hi : s.threads[i]? = some (some p))
    (hj : s.threads[j]? = some (some p')) (hij : j ≠ i) {threads : List (QueueThread α)} :
    PointOk ({ s with que := r.que, threads }.record r.next) p' := by
  have hok := hs.points j p' hj
  have hlater : Later s ({ s with que := r.que, threads }.record r.next) := by
    refine ⟨?_, ?_, ?_⟩
    · simpa using h.maxSize
    · simpa using h.isRunning
    · simp
  cases hlocked : p'.locked with
  | false => exact hok.unlocked hlocked hlater.stopped
  | true =>
      -- the other thread holds the lock, so this one does not
      have hp : p.locked = false := by
        cases hp : p.locked with
        | false => rfl
        | true => exact absurd (hs.lock.unique hj hlocked hi hp) hij
      refine hok.later hlater ?_ (h.record_drained hp _)
      simpa using h.queue_of_unlocked hp

/-- **A step of a call** keeps the invariant. -/
theorem QueueInv.move (hs : QueueInv s) {i : Nat} {woken : Option Nat} {p : QueuePoint α}
    {r : QueueStep α} {threads : List (QueueThread α)} (hi : s.threads[i]? = some (some p))
    (h : QueueMove s.que i p r)
    (hthreads : r.notify.apply QueueThread.isPushParked QueueThread.isPopParked QueueThread.wake
      (s.threads.set i r.next.thread) woken = some threads) :
    QueueInv ({ s with que := r.que, threads }.record r.next) := by
  have hok := hs.points i p hi
  refine ⟨?_, ?_, ?_, ?_, ?_, ?_⟩
  · rw [QueueState.record_que, QueueState.record_threads]
    exact Notify.apply_lockOk (h.lockOk hs.lock hi) (fun l hl => locked_wake hl) hthreads
  · intro j p' hj
    rw [QueueState.record_threads] at hj
    obtain ⟨l, hl, hcase⟩ := Notify.apply_getElem? hthreads hj
    rcases hcase with rfl | ⟨hparked, hwake⟩
    · rcases getElem?_set_cases hl with ⟨rfl, hnext⟩ | ⟨hij, hl⟩
      · cases hr : r.next with
        | point p'' =>
            rw [hr] at hnext
            obtain rfl := Option.some.inj hnext
            exact h.pointOk hs hok hr
        | returned r' =>
            rw [hr] at hnext
            exact absurd hnext (by simp [QueueNext.thread])
      · exact hs.pointOk_other h hi hl hij
    · cases l with
      | none => exact absurd hwake (by simp [QueueThread.wake])
      | some p'' =>
          obtain rfl := Option.some.inj hwake
          refine pointOk_wake ?_
          rw [Bool.or_eq_true]
          exact hparked
  · rw [QueueState.record_popped, QueueState.record_que, QueueState.record_pushed,
      List.append_assoc, h.balance, ← List.append_assoc, hs.ledger]
  · rw [QueueState.record_que]
    have hbounded := hs.bounded
    cases h with
    | pushed =>
        have hlt : s.que.queue.length < s.que.maxSize := hok.1
        rw [List.length_append]
        exact hlt
    | popped hqueue =>
        rw [hqueue] at hbounded
        exact Nat.le_of_succ_le hbounded
    | _ => exact hbounded
  · rw [QueueState.record_que, QueueState.record_stopped]
    intro hstop
    by_cases hp : p = .stopStore
    · rw [hp] at hok
      exact hok
    · exact hs.stopped ((h.isRunning_eq hp).symm.trans hstop)
  · intro hdrained
    rw [QueueState.record_que]
    cases h with
    | popDrained hstop hnil => exact ⟨hstop, hnil⟩
    | pushed => exact absurd hdrained (by simp [QueueState.record, hok.2])
    | popped => exact absurd (hs.drained hdrained).2 hok
    | stopStore => exact ⟨rfl, (hs.drained hdrained).2⟩
    | _ => exact hs.drained hdrained

/-- **Every step** keeps the invariant. -/
theorem QueueInv.step (hs : QueueInv s) (h : queueStep s a = some t) : QueueInv t := by
  cases effect_of_queueStep h with
  | @call i c hi =>
      refine ⟨?_, ?_, hs.ledger, hs.bounded, ?_, hs.drained⟩
      · refine hs.lock.keep hi ?_
        cases c <;> rfl
      · intro j p hj
        rcases getElem?_set_cases hj with ⟨rfl, hp⟩ | ⟨-, hj⟩
        · obtain rfl := Option.some.inj hp
          cases c with
          | stop => exact Bool.or_true _
          | push data | pop | size => trivial
        · refine (hs.points j p hj).later ⟨rfl, id, ?_⟩ rfl rfl
          intro hstopped
          simp [hstopped]
      · intro hstop
        simp [hs.stopped hstop]
  | @step i woken p r threads hi hr hthreads => exact hs.move hi (move_of_step hr) hthreads
  | @wake i p hi hparked =>
      refine ⟨?_, ?_, hs.ledger, hs.bounded, hs.stopped, hs.drained⟩
      · have hx : QueueThread.isPushParked (some p) = true ∨
            QueueThread.isPopParked (some p) = true := by
          rw [Bool.or_eq_true] at hparked
          exact hparked
        exact hs.lock.keep hi (locked_wake hx)
      · intro j p' hj
        rcases getElem?_set_cases hj with ⟨rfl, hp⟩ | ⟨-, hj⟩
        · obtain rfl := Option.some.inj hp
          exact pointOk_wake hparked
        · exact (hs.points j p' hj).later ⟨rfl, id, id⟩ rfl rfl

theorem queueInv_of_reachable (h : Reachable queueStep QueueInit s) : QueueInv s :=
  h.invariant (fun _ => queueInv_init) fun _ _ _ hs ht => hs.step ht

/-! ## The queue drains -/

/-- What callers of the queue may count on. -/
structure Drains (s : QueueState α) : Prop where
  /-- The values popped and those in the queue are the values pushed, in order. -/
  fifo : s.popped ++ s.que.queue = s.pushed
  bounded : s.que.queue.length ≤ s.que.maxSize
  /-- `Push` returns false only after `Stop`. -/
  refused : ∀ a t data, queueStep s a = some t → s.returned a = some (.push data false) →
    s.que.isRunning = false ∧ s.stopped = true
  /-- `Pop` returns false only when the queue is stopped and empty. -/
  exhausted : ∀ a t, queueStep s a = some t → s.returned a = some (.pop none) →
    s.que.isRunning = false ∧ s.que.queue = [] ∧ t.drained = true
  /-- Once a `Pop` has returned false, nothing is left behind and nothing comes after. -/
  final : s.drained = true → s.que.queue = [] ∧ s.popped = s.pushed ∧
    ∀ a t, queueStep s a = some t →
      t.drained = true ∧ ∀ data, s.returned a ≠ some (.push data true)

/-- The step of the call that a returned value belongs to. -/
theorem move_of_returned {r' : QueueReturn α} (h : queueStep s a = some t)
    (hr : s.returned a = some r') :
    ∃ i p r, s.threads[i]? = some (some p) ∧ QueueMove s.que i p r ∧ r.next = .returned r' ∧
      t.drained = (s.record r.next).drained := by
  cases effect_of_queueStep h with
  | call | wake => exact absurd hr (by simp [QueueState.returned])
  | @step i woken p r threads hi hstep hthreads =>
      refine ⟨i, p, r, hi, move_of_step hstep, ?_, ?_⟩
      · simp only [QueueState.returned, hi, hstep, Option.map_some] at hr
        split at hr
        · next heq =>
          obtain rfl := Option.some.inj hr
          exact Option.some.inj heq
        · exact absurd hr (by simp)
      · unfold QueueState.record
        split <;> rfl

theorem drained_step (h : queueStep s a = some t) (hd : s.drained = true) :
    t.drained = true := by
  cases effect_of_queueStep h with
  | call | wake => exact hd
  | step =>
      unfold QueueState.record
      split
      · exact hd
      · exact hd
      · rfl
      · exact hd

/-- **The log queue is a bounded FIFO that drains**, for every capacity, any number
of threads and every interleaving of `Push`, `Pop` and `Stop`. -/
theorem safe_queue_drains (h : Reachable queueStep QueueInit s) : Drains s := by
  have hs := queueInv_of_reachable h
  refine ⟨hs.ledger, hs.bounded, ?_, ?_, ?_⟩
  · intro a t data ht hr
    obtain ⟨i, p, r, hi, hmove, hnext, -⟩ := move_of_returned ht hr
    cases hmove with
    | pushRefused hstop => exact ⟨hstop, hs.stopped hstop⟩
    | _ => simp at hnext
  · intro a t ht hr
    obtain ⟨i, p, r, hi, hmove, hnext, hdrained⟩ := move_of_returned ht hr
    cases hmove with
    | popDrained hstop hnil => exact ⟨hstop, hnil, hdrained⟩
    | _ => simp at hnext
  · intro hd
    have hnil := (hs.drained hd).2
    refine ⟨hnil, ?_, fun a t ht => ⟨drained_step ht hd, fun data hr => ?_⟩⟩
    · simpa [hnil] using hs.ledger
    · obtain ⟨i, p, r, hi, hmove, hnext, -⟩ := move_of_returned ht hr
      cases hmove with
      | pushed =>
          have hok : PointOk s (.pushing _) := hs.points i _ hi
          exact absurd hd (by simp [hok.2])
      | _ => simp at hnext

/-- One producer, one consumer and a `Stop` that comes between the check and the
push: the value is popped all the same. -/
theorem safe_queue_drains_after_stop : ∃ s : QueueState Nat,
    s.pushed = [7] ∧ s.drained = true ∧ Drains s := by
  let init : QueueState Nat := { que := { maxSize := 1 }, threads := List.replicate 3 none }
  let events : List (QueueEvent Nat) := [.call 0 (.push 7), .step 0 none, .step 0 none,
    .step 0 none, .call 2 .stop, .step 2 none, .step 0 none, .step 2 none, .step 2 none,
    .call 1 .pop, .step 1 none, .step 1 none, .step 1 none, .step 1 none,
    .call 1 .pop, .step 1 none, .step 1 none, .step 1 none]
  have hrun : (run queueStep init events).map (fun s => (s.pushed, s.drained)) =
      some ([7], true) := by decide +kernel
  obtain ⟨s, hs, hview⟩ := Option.map_eq_some_iff.mp hrun
  obtain ⟨hpushed, hdrained⟩ := Prod.mk.inj hview
  exact ⟨s, hpushed, hdrained, safe_queue_drains ⟨init, events, ⟨1, 3, rfl⟩, hs⟩⟩

end AsioServer.Infra
