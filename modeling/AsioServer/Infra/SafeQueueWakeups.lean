/-
AsioServer.Infra.SafeQueueWakeups — which waits of the log queue come to an end.

`Push` and `Pop` notify under the lock, one waiter for each value and each free place, so
`Lib.Served` holds on both condition variables while the queue runs. `Stop` stores its
flag and notifies without the lock: a thread that tested the predicate before and blocks
after the notification sleeps for ever. `StopNoticed` is the condition on a step that rules
this out, and `WakeInv` what holds in runs that meet it.

`QueueInv.stuck` is the result: when no call can go on, every thread inside one is parked
for a reason, in `Pop` on an empty queue or in `Push` on a full one, and the queue runs.
-/
import AsioServer.Lib.Waiters
import AsioServer.Infra.SafeQueueTheorems

namespace AsioServer.Infra

open AsioServer.Lib

variable {α : Type*} {s t : QueueState α} {a : QueueEvent α}

/-! ## Waiters -/

namespace QueuePoint

/-- In `Push`, and not blocked. -/
def isPushAwake : QueuePoint α → Bool
  | pushEnter _ | pushTest _ | pushCheck _ | pushing _ => true
  | _ => false

/-- In `Pop`, and not blocked. -/
def isPopAwake : QueuePoint α → Bool
  | popEnter | popTest | popCheck | popping => true
  | _ => false

/-- In `Push`, after the test and not yet woken. -/
def waitsPush : QueuePoint α → Bool
  | pushBlock _ | pushParked _ => true
  | _ => false

/-- In `Pop`, after the test and not yet woken. -/
def waitsPop : QueuePoint α → Bool
  | popBlock | popParked => true
  | _ => false

end QueuePoint

namespace QueueThread

def isPushAwake (x : QueueThread α) : Bool := x.any QueuePoint.isPushAwake

def isPopAwake (x : QueueThread α) : Bool := x.any QueuePoint.isPopAwake

end QueueThread

/-- The free places. -/
def SafeQueue.room (q : SafeQueue α) : Nat := q.maxSize - q.queue.length

/-- When `Stop` notifies the consumers nobody is between the test of `Pop` and the block,
and when it notifies the producers nobody is between the test of `Push` and the block. -/
def StopNoticed (s : QueueState α) (a : QueueEvent α) (_ : QueueState α) : Prop :=
  ∀ i woken, a = .step i woken →
    (s.threads[i]? = some (some .stopNotifyEmpty) → ∀ j : Nat,
      s.threads[j]? ≠ some (some .popBlock)) ∧
    (s.threads[i]? = some (some .stopNotifyFull) → ∀ (j : Nat) data,
      s.threads[j]? ≠ some (some (.pushBlock data)))

/-- What holds of the waiters of the queue. -/
structure WakeInv (s : QueueState α) : Prop where
  pops : s.que.isRunning = true →
    Served QueueThread.isPopParked QueueThread.isPopAwake s.que.queue.length s.threads
  pushes : s.que.isRunning = true →
    Served QueueThread.isPushParked QueueThread.isPushAwake s.que.room s.threads
  popBlocks : ∀ i : Nat, s.threads[i]? = some (some .popBlock) → s.que.queue = []
  pushBlocks : ∀ (i : Nat) data, s.threads[i]? = some (some (.pushBlock data)) →
    s.que.maxSize ≤ s.que.queue.length
  /-- After the store of `Stop` the waiters of `Pop` have its notification to come. -/
  popNotice : s.que.isRunning = false → ∀ (i : Nat) p, s.threads[i]? = some (some p) →
    p.waitsPop = true → ∃ j : Nat, s.threads[j]? = some (some .stopNotifyEmpty)
  pushNotice : s.que.isRunning = false → ∀ (i : Nat) p, s.threads[i]? = some (some p) →
    p.waitsPush = true → ∃ j : Nat, s.threads[j]? = some (some .stopNotifyEmpty) ∨
      s.threads[j]? = some (some .stopNotifyFull)

/-! ## Wake-ups -/

theorem isPopParked_wake {x : QueueThread α} (hx : x.isPopParked = true) :
    QueueThread.isPopParked x.wake = false ∧ x.isPopAwake = false ∧
      QueueThread.isPopAwake x.wake = true := by
  obtain _ | p := x
  · exact absurd hx Bool.false_ne_true
  cases p with
  | popParked => exact ⟨rfl, rfl, rfl⟩
  | _ => exact absurd hx Bool.false_ne_true

theorem isPushParked_wake {x : QueueThread α} (hx : x.isPushParked = true) :
    QueueThread.isPushParked x.wake = false ∧ x.isPushAwake = false ∧
      QueueThread.isPushAwake x.wake = true := by
  obtain _ | p := x
  · exact absurd hx Bool.false_ne_true
  cases p with
  | pushParked data => exact ⟨rfl, rfl, rfl⟩
  | _ => exact absurd hx Bool.false_ne_true

/-- A wake-up in `Pop` is nothing to those in `Push`. -/
theorem push_wake {x : QueueThread α} (hx : x.isPopParked = true) :
    QueueThread.isPushParked x.wake = x.isPushParked ∧
      QueueThread.isPushAwake x.wake = x.isPushAwake := by
  obtain _ | p := x
  · exact absurd hx Bool.false_ne_true
  cases p with
  | popParked => exact ⟨rfl, rfl⟩
  | _ => exact absurd hx Bool.false_ne_true

theorem pop_wake {x : QueueThread α} (hx : x.isPushParked = true) :
    QueueThread.isPopParked x.wake = x.isPopParked ∧
      QueueThread.isPopAwake x.wake = x.isPopAwake := by
  obtain _ | p := x
  · exact absurd hx Bool.false_ne_true
  cases p with
  | pushParked data => exact ⟨rfl, rfl⟩
  | _ => exact absurd hx Bool.false_ne_true

/-- A woken thread is at the entry of its call again. -/
theorem wake_cases {p p' : QueuePoint α}
    (hp : QueueThread.isPushParked (some p) = true ∨ QueueThread.isPopParked (some p) = true)
    (h : some p' = QueueThread.wake (some p)) :
    (∃ data, p' = .pushEnter data) ∨ p' = .popEnter := by
  obtain rfl := Option.some.inj h
  cases p with
  | pushParked data => exact Or.inl ⟨data, rfl⟩
  | popParked => exact Or.inr rfl
  | _ => simp [QueueThread.isPushParked, QueueThread.isPopParked, QueuePoint.isPushParked,
      QueuePoint.isPopParked] at hp

/-- Nobody notified in `Pop` is taken for a waiter in `Push`, and the other way round. -/
theorem served_pops_apply {n : Notify} {k : Nat} {ts ts' : List (QueueThread α)}
    {woken : Option Nat} (h : Served QueueThread.isPopParked QueueThread.isPopAwake k ts)
    (hn : n.apply QueueThread.isPushParked QueueThread.isPopParked QueueThread.wake ts woken =
      some ts') :
    Served QueueThread.isPopParked QueueThread.isPopAwake
      (k + if n = .oneNotEmpty then 1 else 0) ts' := by
  cases n with
  | nobody => exact Option.some.inj hn ▸ h
  | oneNotEmpty => exact h.notifyOne (fun l hl => isPopParked_wake hl) hn
  | oneNotFull =>
      exact h.congr (countP_notifyOne (fun l hl => (pop_wake hl).1) hn)
        (countP_notifyOne (fun l hl => (pop_wake hl).2) hn)
  | allNotEmpty =>
      obtain rfl := Option.some.inj hn
      exact Served.of_none fun l hl =>
        not_parked_of_notifyAll (fun x hx => (isPopParked_wake hx).1) hl
  | allNotFull =>
      obtain rfl := Option.some.inj hn
      exact h.congr (countP_notifyAll (fun l hl => (pop_wake hl).1) ts)
        (countP_notifyAll (fun l hl => (pop_wake hl).2) ts)

theorem served_pushes_apply {n : Notify} {k : Nat} {ts ts' : List (QueueThread α)}
    {woken : Option Nat} (h : Served QueueThread.isPushParked QueueThread.isPushAwake k ts)
    (hn : n.apply QueueThread.isPushParked QueueThread.isPopParked QueueThread.wake ts woken =
      some ts') :
    Served QueueThread.isPushParked QueueThread.isPushAwake
      (k + if n = .oneNotFull then 1 else 0) ts' := by
  cases n with
  | nobody => exact Option.some.inj hn ▸ h
  | oneNotFull => exact h.notifyOne (fun l hl => isPushParked_wake hl) hn
  | oneNotEmpty =>
      exact h.congr (countP_notifyOne (fun l hl => (push_wake hl).1) hn)
        (countP_notifyOne (fun l hl => (push_wake hl).2) hn)
  | allNotFull =>
      obtain rfl := Option.some.inj hn
      exact Served.of_none fun l hl =>
        not_parked_of_notifyAll (fun x hx => (isPushParked_wake hx).1) hl
  | allNotEmpty =>
      obtain rfl := Option.some.inj hn
      exact h.congr (countP_notifyAll (fun l hl => (push_wake hl).1) ts)
        (countP_notifyAll (fun l hl => (push_wake hl).2) ts)

/-- A thread that is not parked is not touched by a notification. -/
theorem Notify.getElem?_apply {τ : Type*} {pushParked popParked : τ → Bool} {wake : τ → τ}
    {n : Notify} {ts ts' : List τ} {woken : Option Nat}
    (hn : n.apply pushParked popParked wake ts woken = some ts') {j : Nat} {l : τ}
    (hl : ts[j]? = some l) (hpush : pushParked l = false) (hpop : popParked l = false) :
    ts'[j]? = some l := by
  cases n with
  | nobody => exact Option.some.inj hn ▸ hl
  | oneNotEmpty => exact getElem?_notifyOne_of_not_parked hn hl hpop
  | oneNotFull => exact getElem?_notifyOne_of_not_parked hn hl hpush
  | allNotEmpty =>
      obtain rfl := Option.some.inj hn
      rw [notifyAll, List.getElem?_map, hl, Option.map_some, if_neg (by simp [hpop])]
  | allNotFull =>
      obtain rfl := Option.some.inj hn
      rw [notifyAll, List.getElem?_map, hl, Option.map_some, if_neg (by simp [hpush])]

/-! ## One step of a call -/

theorem SafeQueue.empty_of_wait {q : SafeQueue α} (h : q.notEmpty = false) :
    q.isRunning = true ∧ q.queue = [] := by
  simpa [SafeQueue.notEmpty] using h

theorem SafeQueue.full_of_wait {q : SafeQueue α} (h : q.notFull = false) :
    q.isRunning = true ∧ q.maxSize ≤ q.queue.length := by
  simpa [SafeQueue.notFull] using h

theorem SafeQueue.room_eq_zero {q : SafeQueue α} (h : q.maxSize ≤ q.queue.length) : q.room = 0 :=
  Nat.sub_eq_zero_of_le h

namespace QueueMove

variable {q : SafeQueue α} {i : Nat} {p : QueuePoint α} {r : QueueStep α}

/-- What a step does to the values and the threads in `Pop`: it takes a value and leaves,
adds one with a notification, or blocks while there is none. -/
theorem pops (h : QueueMove q i p r) (hblock : p = .popBlock → q.queue = [])
    (hrun : r.que.isRunning = true) :
    ∃ k, (k = 0 ∨
      (contrib QueueThread.isPopParked r.next.thread ≤ contrib QueueThread.isPopParked (some p) ∧
        k + contrib QueueThread.isPopAwake (some p) ≤
          q.queue.length + contrib QueueThread.isPopAwake r.next.thread)) ∧
      r.que.queue.length ≤ k + if r.notify = .oneNotEmpty then 1 else 0 := by
  cases h with
  | pushed =>
      refine ⟨q.queue.length, Or.inr ⟨Nat.le_refl _, Nat.le_refl _⟩, ?_⟩
      simp
  | @popped data rest hqueue =>
      refine ⟨rest.length, Or.inr ⟨Nat.le_refl _, ?_⟩, Nat.le_add_right _ _⟩
      rw [hqueue]
      exact Nat.le_refl _
  | popEmpty htest => exact ⟨0, Or.inl rfl, by simp [(SafeQueue.empty_of_wait htest).2]⟩
  | popBlock => exact ⟨0, Or.inl rfl, by simp [hblock rfl]⟩
  | pushRefused hstop | popDrained hstop => exact absurd hrun (by simp [hstop])
  | stopStore => exact absurd hrun (by simp)
  | _ => exact ⟨q.queue.length, Or.inr ⟨Nat.le_refl _, Nat.le_refl _⟩, Nat.le_refl _⟩

/-- The same of the free places and the threads in `Push`. -/
theorem pushes (h : QueueMove q i p r) (hblock : ∀ data, p = .pushBlock data → q.room = 0)
    (hrun : r.que.isRunning = true) :
    ∃ k, (k = 0 ∨
      (contrib QueueThread.isPushParked r.next.thread ≤ contrib QueueThread.isPushParked (some p) ∧
        k + contrib QueueThread.isPushAwake (some p) ≤
          q.room + contrib QueueThread.isPushAwake r.next.thread)) ∧
      r.que.room ≤ k + if r.notify = .oneNotFull then 1 else 0 := by
  cases h with
  | pushed =>
      have hroom : ∀ data : α, SafeQueue.room
          { q with queue := q.queue ++ [data], owner := none } = q.room - 1 := fun data => by
        simp only [SafeQueue.room, List.length_append, List.length_singleton]
        omega
      rw [hroom]
      rcases Nat.eq_zero_or_pos q.room with hzero | hpos
      · exact ⟨0, Or.inl rfl, by omega⟩
      · refine ⟨q.room - 1, Or.inr ⟨Nat.le_refl _, ?_⟩, Nat.le_add_right _ _⟩
        simp only [contrib, QueueThread.isPushAwake, QueuePoint.isPushAwake, QueueNext.thread,
          Option.any_some, Option.any_none, if_true]
        omega
  | @popped data rest hqueue =>
      refine ⟨q.room, Or.inr ⟨Nat.le_refl _, Nat.le_refl _⟩, ?_⟩
      simp only [SafeQueue.room, hqueue, List.length_cons, if_true]
      omega
  | pushFull htest =>
      exact ⟨0, Or.inl rfl, by simp [SafeQueue.room_eq_zero (SafeQueue.full_of_wait htest).2]⟩
  | pushBlock =>
      refine ⟨0, Or.inl rfl, ?_⟩
      exact Nat.le_of_eq (hblock _ rfl)
  | pushRefused hstop | popDrained hstop => exact absurd hrun (by simp [hstop])
  | stopStore => exact absurd hrun (by simp)
  | _ => exact ⟨q.room, Or.inr ⟨Nat.le_refl _, Nat.le_refl _⟩, Nat.le_refl _⟩

/-- Whoever comes to wait for a value saw the queue running. -/
theorem waitsPop (h : QueueMove q i p r) {p' : QueuePoint α} (hnext : r.next = .point p')
    (hp' : p'.waitsPop = true) (hstop : q.isRunning = false) : p.waitsPop = true := by
  cases h with
  | popEmpty htest =>
      exact absurd (SafeQueue.empty_of_wait htest).1 (by simp [hstop])
  | popBlock => rfl
  | pushRefused | pushed | popDrained | popped | stopNotifyFull | sizeRead =>
      exact absurd hnext (by simp)
  | _ =>
      obtain rfl := QueueNext.point.inj hnext
      exact absurd hp' Bool.false_ne_true

theorem waitsPush_cases (h : QueueMove q i p r) {p' : QueuePoint α} (hnext : r.next = .point p')
    (hp' : p'.waitsPush = true) :
    (∃ data, p = .pushTest data ∧ q.notFull = false) ∨ p.waitsPush = true := by
  cases h with
  | pushFull htest => exact Or.inl ⟨_, rfl, htest⟩
  | pushBlock => exact Or.inr rfl
  | pushRefused | pushed | popDrained | popped | stopNotifyFull | sizeRead =>
      exact absurd hnext (by simp)
  | _ =>
      obtain rfl := QueueNext.point.inj hnext
      exact absurd hp' Bool.false_ne_true

theorem waitsPush (h : QueueMove q i p r) {p' : QueuePoint α} (hnext : r.next = .point p')
    (hp' : p'.waitsPush = true) (hstop : q.isRunning = false) : p.waitsPush = true := by
  refine (h.waitsPush_cases hnext hp').resolve_left fun hex => ?_
  obtain ⟨data, -, htest⟩ := hex
  exact absurd (SafeQueue.full_of_wait htest).1 (by simp [hstop])

end QueueMove

/-! ## The invariant -/

section Move

variable {i j : Nat} {woken : Option Nat} {p p' : QueuePoint α} {r : QueueStep α}
  {threads : List (QueueThread α)}

/-- Who is at a place after a step: a woken thread at its entry, the thread that moved, or
another one that was there before. -/
theorem thread_cases
    (hthreads : r.notify.apply QueueThread.isPushParked QueueThread.isPopParked QueueThread.wake
      (s.threads.set i r.next.thread) woken = some threads)
    (hj : threads[j]? = some (some p')) :
    ((∃ data, p' = .pushEnter data) ∨ p' = .popEnter) ∨ (j = i ∧ r.next = .point p') ∨
      (j ≠ i ∧ s.threads[j]? = some (some p')) := by
  obtain ⟨l, hl, hcase⟩ := Notify.apply_getElem? hthreads hj
  rcases hcase with rfl | ⟨hparked, hwake⟩
  · rcases getElem?_set_cases hl with ⟨rfl, hnext⟩ | hother
    · refine Or.inr (Or.inl ⟨rfl, ?_⟩)
      cases hr : r.next with
      | point p'' =>
          rw [hr] at hnext
          rw [Option.some.inj hnext]
      | returned r' =>
          rw [hr] at hnext
          exact absurd hnext (by simp [QueueNext.thread])
    · exact Or.inr (Or.inr hother)
  · cases l with
    | none => exact absurd hwake (by simp [QueueThread.wake])
    | some p'' => exact Or.inl (wake_cases hparked hwake)

/-- The notification of `Stop` that a waiter has to come is not lost when another thread
moves. -/
theorem notice_kept
    (hthreads : r.notify.apply QueueThread.isPushParked QueueThread.isPopParked QueueThread.wake
      (s.threads.set i r.next.thread) woken = some threads)
    (hj : s.threads[j]? = some (some p')) (hij : j ≠ i) (hpush : p'.isPushParked = false)
    (hpop : p'.isPopParked = false) : threads[j]? = some (some p') := by
  refine Notify.getElem?_apply hthreads ?_ hpush hpop
  rw [List.getElem?_set_ne (Ne.symm hij), hj]

/-- A thread that holds the lock keeps the values as they are. -/
theorem QueueInv.queue_kept (hs : QueueInv s) (hi : s.threads[i]? = some (some p))
    (h : QueueMove s.que i p r) (hj : s.threads[j]? = some (some p')) (hij : j ≠ i)
    (hlocked : p'.locked = true) : r.que.queue = s.que.queue := by
  refine h.queue_of_unlocked ?_
  cases hp : p.locked with
  | false => rfl
  | true => exact absurd (hs.lock.unique hj hlocked hi hp) hij

/-- Somebody waited before, when nobody comes to wait in the step. -/
theorem waits_before {waits : QueuePoint α → Bool}
    (hthreads : r.notify.apply QueueThread.isPushParked QueueThread.isPopParked QueueThread.wake
      (s.threads.set i r.next.thread) woken = some threads)
    (hi : s.threads[i]? = some (some p))
    (hnext : ∀ p', r.next = .point p' → waits p' = true → waits p = true)
    (hpush : ∀ data, waits (.pushEnter data) = false) (hpop : waits .popEnter = false)
    (hj : threads[j]? = some (some p')) (hp' : waits p' = true) :
    ∃ (k : Nat) (q : QueuePoint α), s.threads[k]? = some (some q) ∧ waits q = true := by
  rcases thread_cases hthreads hj with (⟨data, rfl⟩ | rfl) | ⟨-, hr⟩ | ⟨-, hbefore⟩
  · exact absurd hp' (by simp [hpush])
  · exact absurd hp' (by simp [hpop])
  · exact ⟨i, p, hi, hnext p' hr hp'⟩
  · exact ⟨j, p', hbefore, hp'⟩

theorem WakeInv.popNotice_move (hw : WakeInv s) (hi : s.threads[i]? = some (some p))
    (h : QueueMove s.que i p r)
    (hthreads : r.notify.apply QueueThread.isPushParked QueueThread.isPopParked QueueThread.wake
      (s.threads.set i r.next.thread) woken = some threads)
    (hempty : p = .stopNotifyEmpty → ∀ j : Nat, s.threads[j]? ≠ some (some .popBlock))
    (hstop : r.que.isRunning = false) (hj : threads[j]? = some (some p'))
    (hwaits : p'.waitsPop = true) : ∃ j : Nat, threads[j]? = some (some .stopNotifyEmpty) := by
  by_cases hstore : p = .stopStore
  · -- the notification is still to come
    obtain rfl := hstore
    cases h
    obtain rfl := Option.some.inj hthreads
    exact ⟨i, getElem?_set_self_of_some hi⟩
  have hbefore : s.que.isRunning = false := (h.isRunning_eq hstore).symm.trans hstop
  by_cases hnotify : p = .stopNotifyEmpty
  · -- the waiters are woken, and nobody is about to block
    obtain rfl := hnotify
    cases h
    obtain rfl := Option.some.inj hthreads
    have hwoken : ∀ x : QueueThread α, x.isPopParked = true →
        QueueThread.isPopParked x.wake = false := fun x hx => (isPopParked_wake hx).1
    have hparked := not_parked_of_notifyAll hwoken (List.mem_of_getElem? hj)
    rcases thread_cases hthreads hj with (⟨data, rfl⟩ | rfl) | ⟨-, hr⟩ | ⟨-, hother⟩
    · exact absurd hwaits Bool.false_ne_true
    · exact absurd hwaits Bool.false_ne_true
    · obtain rfl := QueueNext.point.inj hr
      exact absurd hwaits Bool.false_ne_true
    · cases p' with
      | popBlock => exact absurd hother (hempty rfl j)
      | popParked => exact absurd hparked Bool.true_eq_false.mp
      | _ => exact absurd hwaits Bool.false_ne_true
  · obtain ⟨k, q, hk, hq⟩ := waits_before hthreads hi
      (fun p' hr hp' => h.waitsPop hr hp' hbefore) (fun _ => rfl) rfl hj hwaits
    obtain ⟨m, hm⟩ := hw.popNotice hbefore k q hk hq
    have hmi : m ≠ i := by
      rintro rfl
      exact hnotify (Option.some.inj (Option.some.inj (hi.symm.trans hm)))
    exact ⟨m, notice_kept hthreads hm hmi rfl rfl⟩

theorem WakeInv.pushNotice_move (hw : WakeInv s) (hi : s.threads[i]? = some (some p))
    (h : QueueMove s.que i p r)
    (hthreads : r.notify.apply QueueThread.isPushParked QueueThread.isPopParked QueueThread.wake
      (s.threads.set i r.next.thread) woken = some threads)
    (hfull : p = .stopNotifyFull → ∀ (j : Nat) data, s.threads[j]? ≠ some (some (.pushBlock data)))
    (hstop : r.que.isRunning = false) (hj : threads[j]? = some (some p'))
    (hwaits : p'.waitsPush = true) : ∃ j : Nat, threads[j]? = some (some .stopNotifyEmpty) ∨
      threads[j]? = some (some .stopNotifyFull) := by
  by_cases hstore : p = .stopStore
  · obtain rfl := hstore
    cases h
    obtain rfl := Option.some.inj hthreads
    exact ⟨i, Or.inl (getElem?_set_self_of_some hi)⟩
  have hbefore : s.que.isRunning = false := (h.isRunning_eq hstore).symm.trans hstop
  by_cases hfirst : p = .stopNotifyEmpty
  · -- the second notification is still to come
    obtain rfl := hfirst
    cases h
    have hnotice := Notify.getElem?_apply hthreads (getElem?_set_self_of_some hi) rfl rfl
    exact ⟨i, Or.inr hnotice⟩
  by_cases hnotify : p = .stopNotifyFull
  · obtain rfl := hnotify
    cases h
    obtain rfl := Option.some.inj hthreads
    have hwoken : ∀ x : QueueThread α, x.isPushParked = true →
        QueueThread.isPushParked x.wake = false := fun x hx => (isPushParked_wake hx).1
    have hparked := not_parked_of_notifyAll hwoken (List.mem_of_getElem? hj)
    rcases thread_cases hthreads hj with (⟨data, rfl⟩ | rfl) | ⟨-, hr⟩ | ⟨-, hother⟩
    · exact absurd hwaits Bool.false_ne_true
    · exact absurd hwaits Bool.false_ne_true
    · exact absurd hr (by simp)
    · cases p' with
      | pushBlock data => exact absurd hother (hfull rfl j data)
      | pushParked data => exact absurd hparked Bool.true_eq_false.mp
      | _ => exact absurd hwaits Bool.false_ne_true
  · obtain ⟨k, q, hk, hq⟩ := waits_before hthreads hi
      (fun p' hr hp' => h.waitsPush hr hp' hbefore) (fun _ => rfl) rfl hj hwaits
    obtain ⟨m, hm⟩ := hw.pushNotice hbefore k q hk hq
    have hmi : m ≠ i := by
      rintro rfl
      rcases hm with hm | hm
      · exact hfirst (Option.some.inj (Option.some.inj (hi.symm.trans hm)))
      · exact hnotify (Option.some.inj (Option.some.inj (hi.symm.trans hm)))
    refine ⟨m, hm.imp (fun hm => ?_) (fun hm => ?_)⟩
    · exact notice_kept hthreads hm hmi rfl rfl
    · exact notice_kept hthreads hm hmi rfl rfl

/-- **A step of a call** keeps the waiters in order, when `Stop` is noticed. -/
theorem WakeInv.move (hw : WakeInv s) (hs : QueueInv s) (hi : s.threads[i]? = some (some p))
    (h : QueueMove s.que i p r)
    (hthreads : r.notify.apply QueueThread.isPushParked QueueThread.isPopParked QueueThread.wake
      (s.threads.set i r.next.thread) woken = some threads)
    (hnoticed : StopNoticed s (.step i woken) t) :
    WakeInv ({ s with que := r.que, threads }.record r.next) := by
  obtain ⟨hempty, hfull⟩ := hnoticed i woken rfl
  refine ⟨?_, ?_, ?_, ?_, ?_, ?_⟩ <;> rw [QueueState.record_que, QueueState.record_threads]
  · intro hrun
    obtain ⟨k, hk, hle⟩ := h.pops (fun hp => hw.popBlocks i (hp ▸ hi)) hrun
    exact (served_pops_apply ((hw.pops (h.isRunning hrun)).set hi hk) hthreads).mono hle
  · intro hrun
    obtain ⟨k, hk, hle⟩ := h.pushes
      (fun data hp => SafeQueue.room_eq_zero (hw.pushBlocks i data (hp ▸ hi))) hrun
    exact (served_pushes_apply ((hw.pushes (h.isRunning hrun)).set hi hk) hthreads).mono hle
  · intro j hj
    rcases thread_cases hthreads hj with (⟨data, heq⟩ | heq) | ⟨-, hr⟩ | ⟨hij, hother⟩
    · exact absurd heq (by simp)
    · exact absurd heq (by simp)
    · cases h with
      | popEmpty htest => exact (SafeQueue.empty_of_wait htest).2
      | _ => simp at hr
    · rw [hs.queue_kept hi h hother hij rfl]
      exact hw.popBlocks j hother
  · intro j data hj
    rcases thread_cases hthreads hj with (⟨data', heq⟩ | heq) | ⟨-, hr⟩ | ⟨hij, hother⟩
    · exact absurd heq (by simp)
    · exact absurd heq (by simp)
    · cases h with
      | pushFull htest => exact (SafeQueue.full_of_wait htest).2
      | _ => simp at hr
    · rw [hs.queue_kept hi h hother hij rfl, h.maxSize]
      exact hw.pushBlocks j data hother
  · exact fun hstop j p' hj hwaits =>
      hw.popNotice_move hi h hthreads (fun hp => hempty (hp ▸ hi)) hstop hj hwaits
  · exact fun hstop j p' hj hwaits =>
      hw.pushNotice_move hi h hthreads (fun hp => hfull (hp ▸ hi)) hstop hj hwaits

end Move

/-- The step of a thread that is in none of the waits before and after it, with the queue
left as it is. -/
theorem WakeInv.set (hw : WakeInv s) {i : Nat} {x : QueueThread α} {p' : QueuePoint α}
    (hi : s.threads[i]? = some x) (hx : x ≠ some .stopNotifyEmpty ∧ x ≠ some .stopNotifyFull)
    (hpops : contrib QueueThread.isPopParked (some p') ≤ contrib QueueThread.isPopParked x ∧
      contrib QueueThread.isPopAwake x ≤ contrib QueueThread.isPopAwake (some p'))
    (hpushes : contrib QueueThread.isPushParked (some p') ≤ contrib QueueThread.isPushParked x ∧
      contrib QueueThread.isPushAwake x ≤ contrib QueueThread.isPushAwake (some p'))
    (hwaits : p'.waitsPop = false ∧ p'.waitsPush = false) {stopped : Bool} :
    WakeInv { s with threads := s.threads.set i (some p'), stopped } := by
  have hkeep : ∀ (m : Nat) q, s.threads[m]? = some (some q) → x ≠ some q →
      (s.threads.set i (some p'))[m]? = some (some q) := by
    intro m q hm hne
    rw [List.getElem?_set_ne, hm]
    rintro rfl
    exact hne (Option.some.inj (hi.symm.trans hm))
  have hother : ∀ (waits : QueuePoint α → Bool), waits p' = false → ∀ (j : Nat) q,
      (s.threads.set i (some p'))[j]? = some (some q) → waits q = true →
      s.threads[j]? = some (some q) := by
    intro waits hp' j q hj hq
    rcases getElem?_set_cases hj with ⟨-, heq⟩ | ⟨-, hj⟩
    · obtain rfl := Option.some.inj heq
      rw [hp'] at hq
      exact absurd hq Bool.false_ne_true
    · exact hj
  refine ⟨?_, ?_, ?_, ?_, ?_, ?_⟩
  · exact fun hrun => (hw.pops hrun).set hi (Or.inr ⟨hpops.1, Nat.add_le_add_left hpops.2 _⟩)
  · exact fun hrun => (hw.pushes hrun).set hi (Or.inr ⟨hpushes.1, Nat.add_le_add_left hpushes.2 _⟩)
  · exact fun j hj => hw.popBlocks j (hother _ hwaits.1 j _ hj rfl)
  · exact fun j data hj => hw.pushBlocks j data (hother _ hwaits.2 j _ hj rfl)
  · intro hstop j q hj hq
    obtain ⟨m, hm⟩ := hw.popNotice hstop j q (hother _ hwaits.1 j q hj hq) hq
    exact ⟨m, hkeep m _ hm hx.1⟩
  · intro hstop j q hj hq
    obtain ⟨m, hm⟩ := hw.pushNotice hstop j q (hother _ hwaits.2 j q hj hq) hq
    exact ⟨m, hm.imp (fun hm => hkeep m _ hm hx.1) (fun hm => hkeep m _ hm hx.2)⟩

/-- **Every step** keeps the waiters in order, when `Stop` is noticed. -/
theorem WakeInv.step (hw : WakeInv s) (hs : QueueInv s) (hnoticed : StopNoticed s a t)
    (h : queueStep s a = some t) : WakeInv t := by
  cases effect_of_queueStep h with
  | @call i c hi =>
      refine hw.set hi ⟨(by simp), (by simp)⟩ ?_ ?_ ?_
      · exact ⟨by cases c <;> exact Nat.le_refl _, Nat.zero_le _⟩
      · exact ⟨by cases c <;> exact Nat.le_refl _, Nat.zero_le _⟩
      · cases c <;> exact ⟨rfl, rfl⟩
  | @step i woken p r threads hi hr hthreads =>
      exact hw.move hs hi (move_of_step hr) hthreads hnoticed
  | @wake i p hi hparked =>
      cases p with
      | pushParked data =>
          refine hw.set hi ⟨(by simp), (by simp)⟩ ?_ ?_ ⟨rfl, rfl⟩
          · exact ⟨Nat.le_refl _, Nat.le_refl _⟩
          · exact ⟨Nat.zero_le _, Nat.zero_le _⟩
      | popParked =>
          refine hw.set hi ⟨(by simp), (by simp)⟩ ?_ ?_ ⟨rfl, rfl⟩
          · exact ⟨Nat.zero_le _, Nat.zero_le _⟩
          · exact ⟨Nat.le_refl _, Nat.le_refl _⟩
      | _ => exact absurd hparked Bool.false_ne_true

/-- A queue that nobody has called. -/
theorem wakeInv_init (h : QueueInit s) : WakeInv s := by
  obtain ⟨maxSize, n, rfl⟩ := h
  have hnone : ∀ (i : Nat) (p : QueuePoint α),
      (List.replicate n (none : QueueThread α))[i]? ≠ some (some p) := by
    intro i p hi
    exact absurd (List.eq_of_mem_replicate (List.mem_of_getElem? hi)) (by simp)
  refine ⟨fun _ => ?_, fun _ => ?_, fun i hi => ?_, fun i data hi => ?_, (by simp), (by simp)⟩
  · exact Served.of_none fun l hl => List.eq_of_mem_replicate hl ▸ rfl
  · exact Served.of_none fun l hl => List.eq_of_mem_replicate hl ▸ rfl
  · exact absurd hi (hnone i _)
  · exact absurd hi (hnone i _)

/-! ## When no call can go on -/

/-- Somebody can always be notified. -/
theorem Notify.exists_apply {τ : Type*} (n : Notify) (pushParked popParked : τ → Bool)
    (wake : τ → τ) (ts : List τ) :
    ∃ woken ts', n.apply pushParked popParked wake ts woken = some ts' := by
  cases n with
  | nobody | allNotEmpty | allNotFull => exact ⟨none, _, rfl⟩
  | oneNotEmpty | oneNotFull => exact exists_notifyOne _ _ _

/-- A thread goes on whenever its place allows it. -/
theorem exists_queueStep {i : Nat} {p : QueuePoint α} {r : QueueStep α}
    (hi : s.threads[i]? = some (some p)) (hr : s.que.step i p = some r) :
    ∃ woken t, queueStep s (.step i woken) = some t := by
  obtain ⟨woken, threads, hthreads⟩ := r.notify.exists_apply QueueThread.isPushParked
    QueueThread.isPopParked QueueThread.wake (s.threads.set i r.next.thread)
  exact ⟨woken, { s with que := r.que, threads }.record r.next,
    by simp [queueStep, hi, hr, hthreads]⟩

/-- The place of a thread that cannot go on. -/
theorem QueueInv.blocked (hs : QueueInv s) {i : Nat} {p : QueuePoint α}
    (hi : s.threads[i]? = some (some p)) (hr : s.que.step i p = none) :
    p.isPushParked = true ∨ p.isPopParked = true ∨ s.que.owner ≠ none ∧ p.locked = false := by
  cases p with
  | pushParked data => exact Or.inl rfl
  | popParked => exact Or.inr (Or.inl rfl)
  | pushEnter data | popEnter | sizeEnter =>
      refine Or.inr (Or.inr ⟨fun hfree => ?_, rfl⟩)
      simp [SafeQueue.step, SafeQueue.lock, hfree] at hr
  | popping =>
      have hne : s.que.queue ≠ [] := hs.points i _ hi
      cases hqueue : s.que.queue with
      | nil => exact absurd hqueue hne
      | cons data rest => simp [SafeQueue.step, hqueue] at hr
  | pushCheck data | popCheck =>
      simp only [SafeQueue.step] at hr
      split at hr <;> exact absurd hr (by simp)
  | _ => exact absurd hr (by simp [SafeQueue.step])

/-- The owner of the lock can go on. -/
theorem QueueInv.owner_step (hs : QueueInv s) {j : Nat} (howner : s.que.owner = some j) :
    ∃ q r, s.threads[j]? = some (some q) ∧ s.que.step j q = some r := by
  obtain ⟨l, hj, hl⟩ := (hs.lock j).mp howner
  cases l with
  | none => exact absurd hl Bool.false_ne_true
  | some q =>
      have hlocked : q.locked = true := hl
      cases hr : s.que.step j q with
      | some r => exact ⟨q, r, hj, hr⟩
      | none =>
          rcases hs.blocked hj hr with hparked | hparked | ⟨-, hfree⟩
          · cases q <;> simp [QueuePoint.locked, QueuePoint.isPushParked] at hlocked hparked
          · cases q <;> simp [QueuePoint.locked, QueuePoint.isPopParked] at hlocked hparked
          · exact absurd hlocked (by simp [hfree])

/-- Where no thread can take a step, every call is parked. -/
theorem QueueInv.all_parked (hs : QueueInv s)
    (hstuck : ∀ i woken, queueStep s (.step i woken) = none) {j : Nat} {q : QueuePoint α}
    (hj : s.threads[j]? = some (some q)) : q.isPushParked = true ∨ q.isPopParked = true := by
  have hnone : ∀ (j : Nat) q, s.threads[j]? = some (some q) → s.que.step j q = none := by
    intro j q hj
    cases hr : s.que.step j q with
    | none => rfl
    | some r =>
        obtain ⟨woken, t, ht⟩ := exists_queueStep hj hr
        exact absurd ht (by simp [hstuck])
  rcases hs.blocked hj (hnone j q hj) with hq | hq | ⟨howner, -⟩
  · exact Or.inl hq
  · exact Or.inr hq
  · -- the owner of the lock could go on
    obtain ⟨k, hk⟩ := Option.ne_none_iff_exists'.mp howner
    obtain ⟨q', r, hk, hr⟩ := hs.owner_step hk
    exact absurd hr (by simp [hnone k q' hk])

/-- Where every call is parked, the notification of a `Stop` is not still to come. -/
theorem WakeInv.running_of_parked (hw : WakeInv s)
    (hparked : ∀ (j : Nat) q, s.threads[j]? = some (some q) →
      q.isPushParked = true ∨ q.isPopParked = true) {i : Nat} {p : QueuePoint α}
    (hi : s.threads[i]? = some (some p)) : s.que.isRunning = true := by
  cases hstop : s.que.isRunning with
  | true => rfl
  | false =>
      have hnotifier : ∀ j : Nat, s.threads[j]? ≠ some (some .stopNotifyEmpty) ∧
          s.threads[j]? ≠ some (some .stopNotifyFull) :=
        fun j => ⟨fun hj => absurd (hparked j _ hj)
            (by simp [QueuePoint.isPushParked, QueuePoint.isPopParked]),
          fun hj => absurd (hparked j _ hj)
            (by simp [QueuePoint.isPushParked, QueuePoint.isPopParked])⟩
      rcases hparked i p hi with hp | hp
      · have hwaits : p.waitsPush = true := by
          cases p <;> first | rfl | exact absurd hp Bool.false_ne_true
        obtain ⟨j, hj | hj⟩ := hw.pushNotice hstop i p hi hwaits
        · exact absurd hj (hnotifier j).1
        · exact absurd hj (hnotifier j).2
      · have hwaits : p.waitsPop = true := by
          cases p <;> first | rfl | exact absurd hp Bool.false_ne_true
        obtain ⟨j, hj⟩ := hw.popNotice hstop i p hi hwaits
        exact absurd hj (hnotifier j).1

/-- **What a call that cannot go on waits for**: a value in a queue that runs and is empty,
or room in one that runs and is full. -/
theorem QueueInv.stuck (hs : QueueInv s) (hw : WakeInv s)
    (hstuck : ∀ i woken, queueStep s (.step i woken) = none) {i : Nat} {p : QueuePoint α}
    (hi : s.threads[i]? = some (some p)) :
    s.que.isRunning = true ∧ (p.isPopParked = true ∧ s.que.queue = [] ∨
      p.isPushParked = true ∧ s.que.maxSize ≤ s.que.queue.length) := by
  have hparked : ∀ (j : Nat) q, s.threads[j]? = some (some q) →
      q.isPushParked = true ∨ q.isPopParked = true := fun _ _ hj => hs.all_parked hstuck hj
  have hasleep : ∀ m ∈ s.threads, QueueThread.isPopAwake m = false ∧
      QueueThread.isPushAwake m = false := by
    intro m hm
    obtain ⟨j, hj⟩ := List.mem_iff_getElem?.mp hm
    cases m with
    | none => exact ⟨rfl, rfl⟩
    | some q =>
        rcases hparked j q hj with hq | hq <;> cases q <;>
          first | exact ⟨rfl, rfl⟩ | exact absurd hq Bool.false_ne_true
  have hrun := hw.running_of_parked hparked hi
  refine ⟨hrun, ?_⟩
  have hmem := List.mem_of_getElem? hi
  rcases hparked i p hi with hp | hp
  · have hzero := (hw.pushes hrun).eq_zero hmem hp fun m hm => (hasleep m hm).2
    exact Or.inr ⟨hp, Nat.le_of_sub_eq_zero hzero⟩
  · have hzero := (hw.pops hrun).eq_zero hmem hp fun m hm => (hasleep m hm).1
    exact Or.inl ⟨hp, List.eq_nil_of_length_eq_zero hzero⟩

end AsioServer.Infra
