/-
AsioServer.Core.LogicSystemTheorems — posted messages are dispatched once and in
order, and the worker does not sleep over one.

`WorkerOk` is what the worker may rely on at its place; it holds because only
the owner of `_queMutex` changes the queue. A parked worker has an empty queue,
or an IO thread has just pushed the first message and still has to notify: the
thread that pushes onto an empty queue holds the lock until it has tested the
size and notified, so nobody else can push in between and spoil the test for
exactly one element.

`posted_once_in_order` holds for every number of IO threads, every interleaving
and every spurious wake-up.
-/
import AsioServer.Core.LogicSystem

namespace AsioServer.Core

open AsioServer.Lib

variable {registered : UInt16 → Bool} {s t : LogicSystem} {i : Nat} {p p' : PosterPoint}

/-! ## AssistProcessMsg -/

/-- The service of the message is registered. -/
def LogicNode.known (registered : UInt16 → Bool) (node : LogicNode) : Bool :=
  registered node.msg.header.serviceId

/-- The three ways through `AssistProcessMsg`. -/
inductive Assisted (registered : UInt16 → Bool) (s : LogicSystem) (endpointOk : Bool) :
    LogicSystem → Except Unit Bool → Prop where
  | discarded {node rest} : s.msgQue = node :: rest → node.known registered = false →
      Assisted registered s endpointOk
        { s with msgQue := rest, taken := s.taken ++ [node] } (.ok false)
  | threw {node rest} : s.msgQue = node :: rest → endpointOk = false →
      Assisted registered s endpointOk
        { s with msgQue := rest, taken := s.taken ++ [node] } (.error ())
  | handed {node rest} : s.msgQue = node :: rest → node.known registered = true →
      Assisted registered s endpointOk
        { s with
          msgQue := rest
          taken := s.taken ++ [node]
          handled := s.handled ++ [node] } (.ok true)

theorem assisted_of_some {endpointOk : Bool} {r : LogicSystem × Except Unit Bool}
    (h : s.assistProcessMsg registered endpointOk = some r) :
    Assisted registered s endpointOk r.1 r.2 := by
  unfold LogicSystem.assistProcessMsg at h
  split at h
  · exact absurd h (by simp)
  · next node rest hque =>
    split at h
    · next hunknown =>
      obtain rfl := Option.some.inj h
      exact .discarded hque (by simpa [LogicNode.known] using hunknown)
    · next hknown =>
      split at h
      · next hthrows =>
        obtain rfl := Option.some.inj h
        exact .threw hque (by simpa using hthrows)
      · obtain rfl := Option.some.inj h
        exact .handed hque (by simpa [LogicNode.known] using hknown)

/-- It takes the first message off the queue. -/
theorem Assisted.ledger {endpointOk : Bool} {r : Except Unit Bool}
    (h : Assisted registered s endpointOk t r) : t.taken ++ t.msgQue = s.taken ++ s.msgQue := by
  cases h with
  | discarded hque | threw hque | handed hque => simp [hque]

/-- It hands the message over exactly if the service is registered. -/
theorem Assisted.handled {endpointOk b : Bool} (h : Assisted registered s endpointOk t (.ok b))
    (hs : s.handled = s.taken.filter (LogicNode.known registered)) :
    t.handled = t.taken.filter (LogicNode.known registered) := by
  cases h with
  | discarded hque hunknown => simp [hs, List.filter_append, hunknown]
  | handed hque hknown => simp [hs, List.filter_append, hknown]

/-! ## What a step does -/

/-- The ways a step of the threads goes. -/
inductive LogicMove (registered : UInt16 → Bool) (s : LogicSystem) :
    LogicEvent → LogicSystem → Prop where
  | post {i : Nat} {node : LogicNode} : s.posters[i]? = some .idle →
      LogicMove registered s (.post i node) (s.setPoster i (.entering node))
  | entered {i : Nat} {node : LogicNode} : s.posters[i]? = some (.entering node) → s.owner = none →
      LogicMove registered s (.poster i)
        ({ s with owner := some (i + 1) }.setPoster i (.pushing node))
  | pushed {i : Nat} {node : LogicNode} : s.posters[i]? = some (.pushing node) →
      LogicMove registered s (.poster i)
        ({ s with msgQue := s.msgQue ++ [node], posted := s.posted ++ [node] }.setPoster i .testing)
  | foundOne {i : Nat} : s.posters[i]? = some .testing → s.msgQue.length = 1 →
      LogicMove registered s (.poster i) (s.setPoster i .notifying)
  | foundMore {i : Nat} : s.posters[i]? = some .testing → s.msgQue.length ≠ 1 →
      LogicMove registered s (.poster i) (s.setPoster i .leaving)
  | notified {i : Nat} : s.posters[i]? = some .notifying →
      LogicMove registered s (.poster i) (s.notify.setPoster i .leaving)
  | left {i : Nat} : s.posters[i]? = some .leaving →
      LogicMove registered s (.poster i) ({ s with owner := none }.setPoster i .idle)
  | acquired {b : Bool} : s.worker = .entering ∨ s.worker = .woken → s.owner = none →
      LogicMove registered s (.worker b) { s with owner := some 0, worker := .testing }
  | sleeps {b : Bool} : s.worker = .testing → s.msgQue = [] → s.isStoped = false →
      LogicMove registered s (.worker b) { s with worker := .blocking }
  | works {b : Bool} : s.worker = .testing → s.msgQue ≠ [] ∨ s.isStoped = true →
      LogicMove registered s (.worker b) { s with worker := .working }
  | blocked {b : Bool} : s.worker = .blocking →
      LogicMove registered s (.worker b) { s with owner := none, worker := .parked }
  | drains {b : Bool} : s.worker = .working → s.isStoped = true →
      LogicMove registered s (.worker b) { s with worker := .draining }
  | assists {b : Bool} : s.worker = .working → s.isStoped = false →
      LogicMove registered s (.worker b) { s with worker := .assisting }
  | assisted {b r : Bool} {u : LogicSystem} :
      s.worker = .assisting → Assisted registered s b u (.ok r) →
      LogicMove registered s (.worker b) { u with worker := .leaving }
  | threw {b : Bool} {u : LogicSystem} : s.worker = .assisting ∨ s.worker = .draining →
      Assisted registered s b u (.error ()) →
      LogicMove registered s (.worker b) { u with worker := .terminated, owner := none }
  | released {b : Bool} : s.worker = .leaving →
      LogicMove registered s (.worker b) { s with owner := none, worker := .entering }
  | drainedOne {b r : Bool} {u : LogicSystem} :
      s.worker = .draining → Assisted registered s b u (.ok r) →
      LogicMove registered s (.worker b) u
  | drained {b : Bool} : s.worker = .draining → s.msgQue = [] →
      LogicMove registered s (.worker b) { s with owner := none, worker := .ended }
  | wake : s.worker = .parked → LogicMove registered s .wake s.notify
  | stopped : s.destructor = .notCalled →
      LogicMove registered s .destructor { s with isStoped := true, destructor := .stored }
  | stopNotified : s.destructor = .stored →
      LogicMove registered s .destructor { s.notify with destructor := .notified }
  | joined : s.destructor = .notified → s.worker = .ended →
      LogicMove registered s .destructor { s with destructor := .joined }

theorem move_of_posterStep (hi : s.posters[i]? = some p) (h : s.posterStep i p = some t) :
    LogicMove registered s (.poster i) t := by
  cases p with
  | idle => exact absurd h (by simp [LogicSystem.posterStep])
  | entering node =>
      simp only [LogicSystem.posterStep] at h
      split at h
      · next hfree => exact Option.some.inj h ▸ .entered hi hfree
      · exact absurd h (by simp)
  | pushing node => exact Option.some.inj h ▸ .pushed hi
  | testing =>
      simp only [LogicSystem.posterStep] at h
      split at h
      · next hone => exact Option.some.inj h ▸ .foundOne hi hone
      · next hmore => exact Option.some.inj h ▸ .foundMore hi hmore
  | notifying => exact Option.some.inj h ▸ .notified hi
  | leaving => exact Option.some.inj h ▸ .left hi

theorem move_of_workerStep {b : Bool} (h : s.workerStep registered b s.worker = some t) :
    LogicMove registered s (.worker b) t := by
  cases hw : s.worker <;> rw [hw] at h <;> simp only [LogicSystem.workerStep] at h
  case entering | woken =>
    split at h
    · next hfree => exact Option.some.inj h ▸ .acquired (by simp [hw]) hfree
    · exact absurd h (by simp)
  case testing =>
    split at h
    · next hempty =>
      have hnil : s.msgQue = [] ∧ s.isStoped = false := by simpa using hempty
      exact Option.some.inj h ▸ .sleeps hw hnil.1 hnil.2
    · next hfull =>
      refine Option.some.inj h ▸ .works hw ?_
      by_cases hnil : s.msgQue = []
      · exact Or.inr (by simpa [hnil] using hfull)
      · exact Or.inl hnil
  case blocking => exact Option.some.inj h ▸ .blocked hw
  case working =>
    split at h
    · next hstoped => exact Option.some.inj h ▸ .drains hw hstoped
    · next hrunning => exact Option.some.inj h ▸ .assists hw (by simpa using hrunning)
  case assisting =>
    obtain ⟨⟨u, r⟩, hassist, rfl⟩ := Option.map_eq_some_iff.mp h
    cases r with
    | ok r => exact .assisted hw (assisted_of_some hassist)
    | error => exact .threw (Or.inl hw) (assisted_of_some hassist)
  case leaving => exact Option.some.inj h ▸ .released hw
  case draining =>
    split at h
    · next hempty => exact Option.some.inj h ▸ .drained hw (by simpa using hempty)
    · obtain ⟨⟨u, r⟩, hassist, rfl⟩ := Option.map_eq_some_iff.mp h
      cases r with
      | ok r => exact .drainedOne hw (assisted_of_some hassist)
      | error => exact .threw (Or.inr hw) (assisted_of_some hassist)
  all_goals exact absurd h (by simp)

theorem move_of_logicStep {e : LogicEvent} (h : logicStep registered s e = some t) :
    LogicMove registered s e t := by
  cases e with
  | post i node =>
      simp only [logicStep] at h
      split at h
      · next hi => exact Option.some.inj h ▸ .post hi
      · exact absurd h (by simp)
  | poster i =>
      simp only [logicStep] at h
      split at h
      · next p hi => exact move_of_posterStep hi h
      · exact absurd h (by simp)
  | worker b => exact move_of_workerStep h
  | wake =>
      simp only [logicStep] at h
      split at h
      · next hparked => exact Option.some.inj h ▸ .wake hparked
      · exact absurd h (by simp)
  | destructor =>
      cases hd : s.destructor <;>
        simp only [logicStep, hd, LogicSystem.destructorStep] at h
      case notCalled => exact Option.some.inj h ▸ .stopped hd
      case stored => exact Option.some.inj h ▸ .stopNotified hd
      case notified =>
        split at h
        · next hended => exact Option.some.inj h ▸ .joined hd hended
        · exact absurd h (by simp)
      case joined => exact absurd h (by simp)

/-- The message that a thread has still to push. -/
def PosterPoint.holding : PosterPoint → List LogicNode
  | entering node | pushing node => [node]
  | _ => []

/-- Only an IO thread that pushes adds to the messages posted. -/
theorem posters_of_logicStep {e : LogicEvent} (h : logicStep registered s e = some t)
    (he : ∀ i node, e ≠ .post i node) :
    (t.posters = s.posters ∧ t.posted = s.posted) ∨
      ∃ i p p', s.posters[i]? = some p ∧ p ≠ .idle ∧ t.posters = s.posters.set i p' ∧
        p'.holding ⊆ p.holding ∧ t.posted ++ p'.holding = s.posted ++ p.holding := by
  cases move_of_logicStep h with
  | @post i node => exact absurd rfl (he i node)
  | entered hi | foundOne hi | foundMore hi | notified hi | left hi =>
      exact Or.inr ⟨_, _, _, hi, by simp, rfl, List.Subset.refl _, rfl⟩
  | pushed hi =>
      exact Or.inr ⟨_, _, _, hi, by simp, rfl, List.nil_subset _, List.append_nil _⟩
  | assisted _ hassist | threw _ hassist | drainedOne _ hassist =>
      exact Or.inl (by cases hassist <;> exact ⟨rfl, rfl⟩)
  | _ => exact Or.inl ⟨rfl, rfl⟩

theorem isStoped_of_logicStep {e : LogicEvent} (h : logicStep registered s e = some t)
    (he : e ≠ .destructor) : t.isStoped = s.isStoped := by
  cases move_of_logicStep h with
  | stopped | stopNotified | joined => exact absurd rfl he
  | assisted _ hassist | threw _ hassist | drainedOne _ hassist => cases hassist <;> rfl
  | _ => rfl

/-- `AssistProcessMsg` returns when the endpoint can be read. -/
theorem Assisted.endpoint_false {b : Bool} (h : Assisted registered s b t (.error ())) :
    b = false := by
  cases h with
  | threw _ hthrows => exact hthrows

theorem Assisted.worker {b : Bool} {r : Except Unit Bool} (h : Assisted registered s b t r) :
    t.worker = s.worker := by
  cases h <;> rfl

/-- No step in which `remote_endpoint()` returns terminates the worker. -/
theorem live_step {e : LogicEvent} (h : logicStep registered s e = some t)
    (hlive : s.worker ≠ .terminated) (he : e ≠ .worker false) : t.worker ≠ .terminated := by
  have hwake : s.worker.wake ≠ .terminated := by
    cases hw : s.worker with
    | terminated => exact absurd hw hlive
    | _ => exact WorkerPoint.noConfusion
  cases move_of_logicStep h with
  | post | entered | pushed | foundOne | foundMore | left | stopped | joined => exact hlive
  | notified | wake | stopNotified => exact hwake
  | threw _ hassist => exact absurd (congrArg LogicEvent.worker hassist.endpoint_false) he
  | drainedOne _ hassist => exact hassist.worker ▸ hlive
  | _ => exact WorkerPoint.noConfusion

/-! ## The invariant -/

/-- What the worker may rely on at its place. -/
def WorkerOk (s : LogicSystem) : WorkerPoint → Prop
  | .blocking => s.msgQue = []
  | .parked => s.msgQue = [] ∨ s.wakePending = true
  | .working => s.msgQue ≠ [] ∨ s.isStoped = true
  | .assisting => s.msgQue ≠ []
  | .draining | .ended => s.isStoped = true
  | _ => True

/-- **The invariant** of the queue, its posters and its worker. -/
structure LogicInv (registered : UInt16 → Bool) (s : LogicSystem) : Prop where
  lock : LockOk id s.owner (s.worker.locked :: s.posters.map PosterPoint.locked)
  ledger : s.taken ++ s.msgQue = s.posted
  handled : s.worker ≠ .terminated →
    s.handled = s.taken.filter (LogicNode.known registered)
  worker : WorkerOk s s.worker

theorem logicInv_init (h : LogicInit s) : LogicInv registered s := by
  obtain ⟨n, rfl⟩ := h
  refine ⟨LockOk.init ?_, rfl, fun _ => rfl, trivial⟩
  intro b hb
  simp only [List.mem_cons, List.map_replicate] at hb
  rcases hb with rfl | hb
  · rfl
  · rw [List.eq_of_mem_replicate hb]
    rfl

theorem posters_locked (hi : s.posters[i]? = some p) :
    (s.worker.locked :: s.posters.map PosterPoint.locked)[i + 1]? = some p.locked := by
  rw [List.getElem?_cons_succ, List.getElem?_map, hi]
  rfl

theorem locked_setPoster (s : LogicSystem) (i : Nat) (p : PosterPoint) :
    (s.setPoster i p).worker.locked :: (s.setPoster i p).posters.map PosterPoint.locked =
      (s.worker.locked :: s.posters.map PosterPoint.locked).set (i + 1) p.locked := by
  rw [List.set_cons_succ, LogicSystem.setPoster, List.map_set]

/-- Who is about to notify holds the lock. -/
theorem locked_of_wakePending (h : s.wakePending = true) :
    ∃ (i : Nat) (p : PosterPoint), s.posters[i]? = some p ∧
      p.willNotify s.msgQue.length = true ∧ p.locked = true := by
  obtain ⟨p, hp, hnotify⟩ := List.any_eq_true.mp h
  obtain ⟨i, hi⟩ := List.mem_iff_getElem?.mp hp
  refine ⟨i, p, hi, hnotify, ?_⟩
  cases p with
  | testing | notifying => rfl
  | _ => exact absurd hnotify (by simp [PosterPoint.willNotify])

/-- A poster that holds the lock is alone: the worker does not, and no other poster
is about to notify. -/
theorem LogicInv.alone (h : LogicInv registered s) (hi : s.posters[i]? = some p)
    (hp : p.locked = true) (hn : p.willNotify s.msgQue.length = false) :
    s.worker.locked = false ∧ s.wakePending = false := by
  constructor
  · cases hw : s.worker.locked with
    | false => rfl
    | true =>
        have hworker : (s.worker.locked :: s.posters.map PosterPoint.locked)[0]? = some true := by
          rw [List.getElem?_cons_zero, hw]
        have heq := h.lock.unique hworker rfl (posters_locked hi) hp
        omega
  · cases hpending : s.wakePending with
    | false => rfl
    | true =>
        obtain ⟨j, q, hj, hnotify, hlocked⟩ := locked_of_wakePending hpending
        have heq := h.lock.unique (posters_locked hj) hlocked (posters_locked hi) hp
        obtain rfl : j = i := by omega
        obtain rfl := Option.some.inj (hi.symm.trans hj)
        rw [hn] at hnotify
        exact absurd hnotify (by simp)

/-- A pending notification stays pending while another poster moves. -/
theorem wakePending_setPoster (h : s.wakePending = true) (hi : s.posters[i]? = some p)
    (hn : p.willNotify s.msgQue.length = false) (p' : PosterPoint) :
    (s.setPoster i p').wakePending = true := by
  obtain ⟨j, q, hj, hnotify, -⟩ := locked_of_wakePending h
  have hij : i ≠ j := by
    rintro rfl
    obtain rfl := Option.some.inj (hi.symm.trans hj)
    rw [hn] at hnotify
    exact absurd hnotify (by simp)
  refine List.any_eq_true.mpr ⟨q, ?_, hnotify⟩
  refine List.mem_iff_getElem?.mpr ⟨j, ?_⟩
  rw [LogicSystem.setPoster, List.getElem?_set_ne hij, hj]

theorem wakePending_self (hi : s.posters[i]? = some p)
    (hn : p'.willNotify s.msgQue.length = true) : (s.setPoster i p').wakePending = true :=
  List.any_eq_true.mpr
    ⟨p', List.mem_iff_getElem?.mpr ⟨i, getElem?_set_self_of_some hi⟩, hn⟩

/-- The worker relies on the same while a poster moves that does not notify. -/
theorem WorkerOk.setPoster {w : WorkerPoint} (h : WorkerOk s w) (hi : s.posters[i]? = some p)
    (hn : p.willNotify s.msgQue.length = false) (p' : PosterPoint) :
    WorkerOk (s.setPoster i p') w := by
  cases w with
  | parked => exact h.imp id fun hpending => wakePending_setPoster hpending hi hn p'
  | _ => exact h

/-- A worker that is not parked relies on nothing that the posters' places change. -/
theorem WorkerOk.setPoster_of_ne {w : WorkerPoint} (h : WorkerOk s w) (hw : w ≠ .parked)
    (p' : PosterPoint) : WorkerOk (s.setPoster i p') w := by
  cases w with
  | parked => exact absurd rfl hw
  | _ => exact h

theorem wake_ne_parked (w : WorkerPoint) : w.wake ≠ .parked := by
  cases w <;> exact WorkerPoint.noConfusion

theorem locked_wake (w : WorkerPoint) : w.wake.locked = w.locked := by
  cases w <;> rfl

/-- A woken worker relies on nothing new. -/
theorem WorkerOk.wake {w : WorkerPoint} (h : WorkerOk s w) : WorkerOk s w.wake := by
  cases w with
  | parked => trivial
  | _ => exact h

/-- A worker that has found something to do still has after `_isStoped` is set. -/
theorem WorkerOk.stopped {w : WorkerPoint} (h : WorkerOk s w) (d : DestructorPoint) :
    WorkerOk { s with isStoped := true, destructor := d } w := by
  cases w with
  | working => exact Or.inr rfl
  | draining | ended => rfl
  | _ => exact h

theorem wake_ne_terminated {w : WorkerPoint} (h : w.wake ≠ .terminated) : w ≠ .terminated := by
  rintro rfl
  exact h rfl

/-- A notification keeps the invariant. -/
theorem LogicInv.notify (h : LogicInv registered s) : LogicInv registered s.notify := by
  refine ⟨?_, h.ledger, fun hw => h.handled (wake_ne_terminated hw), h.worker.wake⟩
  rw [LogicSystem.notify, locked_wake]
  exact h.lock

/-! ## The steps keep the invariant -/

theorem worker_locked : (s.worker.locked :: s.posters.map PosterPoint.locked)[0]? =
    some s.worker.locked := rfl

theorem LogicInv.lock_worker (h : LogicInv registered s) {w : WorkerPoint}
    (hw : w.locked = s.worker.locked) :
    LockOk id s.owner (w.locked :: s.posters.map PosterPoint.locked) :=
  h.lock.keep worker_locked hw

theorem LogicInv.lock_released (h : LogicInv registered s) {w : WorkerPoint}
    (hs : s.worker.locked = true) (hw : w.locked = false) :
    LockOk id none (w.locked :: s.posters.map PosterPoint.locked) :=
  h.lock.release worker_locked hs hw

/-- The worker goes on to a place where it relies on no more than it knows. -/
theorem LogicInv.worker_moves (h : LogicInv registered s) {w : WorkerPoint}
    (hlive : s.worker ≠ .terminated) (hlock : w.locked = s.worker.locked)
    (hok : WorkerOk s w) : LogicInv registered { s with worker := w } := by
  refine ⟨h.lock_worker hlock, h.ledger, fun _ => h.handled hlive, ?_⟩
  cases w <;> exact hok

/-- A poster goes on and neither takes nor releases the lock. -/
theorem LogicInv.poster_moves (h : LogicInv registered s) (hi : s.posters[i]? = some p)
    (hlock : p'.locked = p.locked) (hok : WorkerOk (s.setPoster i p') s.worker) :
    LogicInv registered (s.setPoster i p') := by
  refine ⟨?_, h.ledger, h.handled, hok⟩
  rw [locked_setPoster]
  exact h.lock.keep (posters_locked hi) hlock

/-- `AssistProcessMsg`, called by the worker, which keeps the lock. -/
theorem LogicInv.assisted (h : LogicInv registered s) {endpointOk b : Bool} {w : WorkerPoint}
    (hs : Assisted registered s endpointOk t (.ok b)) (hlive : s.worker ≠ .terminated)
    (hlock : w.locked = s.worker.locked) (hok : WorkerOk t w) :
    LogicInv registered { t with worker := w } := by
  have hhandled := hs.handled (h.handled hlive)
  have hledger : t.taken ++ t.msgQue = t.posted := by
    rw [hs.ledger, h.ledger]
    cases hs <;> rfl
  refine ⟨?_, hledger, fun _ => hhandled, ?_⟩
  · cases hs <;> exact h.lock_worker hlock
  · cases w <;> exact hok

/-- `remote_endpoint()` has thrown in `AssistProcessMsg`. -/
theorem LogicInv.threw (h : LogicInv registered s) {endpointOk : Bool}
    (hs : Assisted registered s endpointOk t (.error ())) (hw : s.worker.locked = true) :
    LogicInv registered { t with worker := .terminated, owner := none } := by
  have hledger : t.taken ++ t.msgQue = t.posted := by
    rw [hs.ledger, h.ledger]
    cases hs
    rfl
  refine ⟨?_, hledger, fun hlive => absurd rfl hlive, trivial⟩
  cases hs
  exact h.lock_released hw rfl

/-- A poster pushes. A parked worker has an empty queue, which then holds exactly one
message, so that this poster notifies. -/
theorem LogicInv.worker_pushed (h : LogicInv registered s) {node : LogicNode}
    (hi : s.posters[i]? = some (.pushing node)) :
    WorkerOk ({ s with
      msgQue := s.msgQue ++ [node]
      posted := s.posted ++ [node] }.setPoster i .testing) s.worker := by
  obtain ⟨hunlocked, hpending⟩ := h.alone hi rfl rfl
  have hworker := h.worker
  cases hw : s.worker with
  | parked =>
      rw [hw] at hworker
      have hnil : s.msgQue = [] := hworker.resolve_right (by simp [hpending])
      refine Or.inr (wakePending_self hi ?_)
      simp [PosterPoint.willNotify, hnil]
  | blocking | working | assisting | draining =>
      exact absurd hunlocked (by simp [hw, WorkerPoint.locked])
  | ended =>
      rw [hw] at hworker
      exact hworker
  | _ => trivial

/-- **Every step** keeps the invariant. -/
theorem LogicInv.step (h : LogicInv registered s) {e : LogicEvent}
    (hs : logicStep registered s e = some t) : LogicInv registered t := by
  have hlock := h.lock
  have hworker := h.worker
  have hhandled := h.handled
  cases move_of_logicStep hs with
  | post hi => exact h.poster_moves hi rfl (hworker.setPoster hi rfl _)
  | entered hi hfree =>
      refine ⟨?_, h.ledger, hhandled, hworker.setPoster hi rfl _⟩
      rw [hfree] at hlock
      rw [locked_setPoster]
      exact hlock.acquire (posters_locked hi) rfl
  | @pushed i node hi =>
      refine ⟨?_, ?_, hhandled, h.worker_pushed hi⟩
      · rw [locked_setPoster]
        exact hlock.keep (posters_locked hi) rfl
      · show s.taken ++ (s.msgQue ++ [node]) = s.posted ++ [node]
        rw [← List.append_assoc, h.ledger]
  | foundOne hi hone =>
      refine h.poster_moves hi rfl ?_
      by_cases hw : s.worker = .parked
      · rw [hw]
        exact Or.inr (wakePending_self hi rfl)
      · exact hworker.setPoster_of_ne hw _
  | foundMore hi hmore =>
      exact h.poster_moves hi rfl
        (hworker.setPoster hi (by simpa [PosterPoint.willNotify] using hmore) _)
  | @notified i hi =>
      have hnotify := h.notify
      have hat : s.notify.posters[i]? = some .notifying := hi
      exact hnotify.poster_moves hat rfl
        (hnotify.worker.setPoster_of_ne (wake_ne_parked s.worker) _)
  | left hi =>
      refine ⟨?_, h.ledger, hhandled, hworker.setPoster hi rfl _⟩
      rw [locked_setPoster]
      exact hlock.release (posters_locked hi) rfl rfl
  | acquired hw hfree =>
      rw [hfree] at hlock
      refine ⟨hlock.acquire worker_locked rfl, h.ledger, fun _ => hhandled ?_, trivial⟩
      rcases hw with hw | hw <;> simp [hw]
  | sleeps hw hnil => exact h.worker_moves (by simp [hw]) (by rw [hw]; rfl) hnil
  | works hw hwork => exact h.worker_moves (by simp [hw]) (by rw [hw]; rfl) hwork
  | blocked hw =>
      rw [hw] at hworker
      exact ⟨h.lock_released (by rw [hw]; rfl) rfl, h.ledger, fun _ => hhandled (by simp [hw]),
        Or.inl hworker⟩
  | drains hw hstoped => exact h.worker_moves (by simp [hw]) (by rw [hw]; rfl) hstoped
  | assists hw hrunning =>
      rw [hw] at hworker
      exact h.worker_moves (by simp [hw]) (by rw [hw]; rfl)
        (hworker.resolve_right (by simp [hrunning]))
  | assisted hw hassist => exact h.assisted hassist (by simp [hw]) (by rw [hw]; rfl) trivial
  | threw hw hassist => exact h.threw hassist (by rcases hw with hw | hw <;> (rw [hw]; rfl))
  | released hw =>
      exact ⟨h.lock_released (by rw [hw]; rfl) rfl, h.ledger, fun _ => hhandled (by simp [hw]),
        trivial⟩
  | drainedOne hw hassist =>
      rw [hw] at hworker
      have hstoped : t.isStoped = true := by
        cases hassist <;> exact hworker
      have hkept := @LogicInv.assisted registered s t h _ _ .draining hassist
        (by simp [hw]) (by rw [hw]) hstoped
      have hsame : t.worker = .draining := hassist.worker.trans hw
      rw [← hsame] at hkept
      exact hkept
  | drained hw =>
      rw [hw] at hworker
      exact ⟨h.lock_released (by rw [hw]; rfl) rfl, h.ledger, fun _ => hhandled (by simp [hw]),
        hworker⟩
  | wake => exact h.notify
  | stopped => exact ⟨hlock, h.ledger, hhandled, hworker.stopped _⟩
  | stopNotified =>
      have hnotify := h.notify
      exact ⟨hnotify.lock, hnotify.ledger, hnotify.handled, hnotify.worker⟩
  | joined => exact ⟨hlock, h.ledger, hhandled, hworker⟩

theorem logicInv_of_reachable (h : Reachable (logicStep registered) LogicInit s) :
    LogicInv registered s :=
  h.invariant (fun _ => logicInv_init) fun _ _ _ hs ht => hs.step ht

/-! ## Nothing runs for ever -/

def PosterPoint.effort : PosterPoint → Nat
  | idle => 0
  | leaving => 1
  | notifying => 6
  | testing => 7
  | pushing _ => 16
  | entering _ => 17

def WorkerPoint.effort : WorkerPoint → Nat
  | parked | ended | terminated => 0
  | blocking | assisting | draining => 1
  | working => 2
  | testing => 3
  | entering | woken => 4
  | leaving => 5

/-- A bound on the steps that are left when nobody posts any more. -/
def LogicSystem.effort (s : LogicSystem) : Nat :=
  (s.posters.map PosterPoint.effort).sum + 8 * s.msgQue.length + s.worker.effort

theorem Assisted.effort {b : Bool} {r : Except Unit Bool} (h : Assisted registered s b t r) :
    (t.posters.map PosterPoint.effort).sum + 8 * t.msgQue.length + 8 =
      (s.posters.map PosterPoint.effort).sum + 8 * s.msgQue.length := by
  cases h with
  | discarded hque | threw hque | handed hque =>
      simp only [hque, List.length_cons]
      omega

/-- An IO thread in `PostMsgToQue` goes on when it has the lock, or can take it. -/
theorem posterStep_enabled (hp : p ≠ .idle) (hlock : p.locked = true ∨ s.owner = none) :
    ∃ t, s.posterStep i p = some t := by
  cases p with
  | idle => exact absurd rfl hp
  | entering node =>
      have hfree := hlock.resolve_left (by simp [PosterPoint.locked])
      exact ⟨_, if_pos hfree⟩
  | _ => exact ⟨_, rfl⟩

theorem assistProcessMsg_some {b : Bool} (h : s.msgQue ≠ []) :
    ∃ r, s.assistProcessMsg registered b = some r := by
  unfold LogicSystem.assistProcessMsg
  split
  · next hnil => exact absurd hnil h
  · split
    · exact ⟨_, rfl⟩
    · split <;> exact ⟨_, rfl⟩

/-- The worker goes on when it has the lock, or can take it. -/
theorem workerStep_enabled {w : WorkerPoint} {b : Bool} (h : WorkerOk s w)
    (hlock : w.locked = true ∨ (s.owner = none ∧ (w = .entering ∨ w = .woken))) :
    ∃ t, s.workerStep registered b w = some t := by
  cases w with
  | entering | woken =>
      have hfree := (hlock.resolve_left (by simp [WorkerPoint.locked])).1
      exact ⟨_, if_pos hfree⟩
  | assisting =>
      obtain ⟨r, hr⟩ := @assistProcessMsg_some registered s b h
      exact ⟨_, Option.map_eq_some_iff.mpr ⟨r, hr, rfl⟩⟩
  | draining =>
      by_cases hnil : s.msgQue = []
      · exact ⟨_, if_pos (by simp [hnil])⟩
      · obtain ⟨r, hr⟩ := @assistProcessMsg_some registered s b hnil
        exact ⟨_, (if_neg (by simpa using hnil)).trans (Option.map_eq_some_iff.mpr ⟨r, hr, rfl⟩)⟩
  | parked | ended | terminated =>
      rcases hlock with hlock | ⟨-, hlock | hlock⟩ <;> exact absurd hlock (by decide)
  | _ => exact ⟨_, rfl⟩

/-- Whoever has the lock goes on. -/
theorem LogicInv.owner_goesOn (h : LogicInv registered s) {j : Nat} (howner : s.owner = some j) :
    (∃ t, logicStep registered s (.worker true) = some t) ∨
      ∃ i t, j = i + 1 ∧ logicStep registered s (.poster i) = some t := by
  obtain ⟨l, hj, hl⟩ := (h.lock j).mp howner
  cases j with
  | zero =>
      obtain rfl := Option.some.inj hj
      exact Or.inl (workerStep_enabled h.worker (Or.inl hl))
  | succ i =>
      rw [List.getElem?_cons_succ, List.getElem?_map, Option.map_eq_some_iff] at hj
      obtain ⟨p, hi, rfl⟩ := hj
      have hp : p ≠ .idle := by
        rintro rfl
        exact absurd hl Bool.false_ne_true
      obtain ⟨t, ht⟩ := @posterStep_enabled s i p hp (Or.inl hl)
      exact Or.inr ⟨i, t, rfl, by simp only [logicStep, hi, ht]⟩

/-- A worker that is neither asleep nor gone goes on when the lock is free. -/
theorem LogicInv.worker_goesOn (h : LogicInv registered s) (hfree : s.owner = none)
    (hparked : s.worker ≠ .parked) (hended : s.worker ≠ .ended)
    (hlive : s.worker ≠ .terminated) : ∃ t, logicStep registered s (.worker true) = some t := by
  refine workerStep_enabled h.worker ?_
  cases hw : s.worker with
  | parked => exact absurd hw hparked
  | ended => exact absurd hw hended
  | terminated => exact absurd hw hlive
  | entering | woken => exact Or.inr ⟨hfree, by simp⟩
  | _ => exact Or.inl rfl

/-- What the sessions may count on. -/
structure Dispatches (registered : UInt16 → Bool) (s : LogicSystem) : Prop where
  /-- The messages taken off the queue and those still in it are the posted ones. -/
  fifo : s.taken ++ s.msgQue = s.posted
  /-- Those with a registered service were handed to it, once each and in order. -/
  handled : s.handled = s.taken.filter (LogicNode.known registered)
  /-- The worker does not sleep over a message. -/
  awake : s.worker = .parked → s.wakePending = false → s.msgQue = []

/-- **Posted messages are dispatched once and in order**, and the worker does not
sleep over one, for every number of IO threads and every interleaving, as long as
`remote_endpoint()` returns. -/
theorem posted_once_in_order {s₀ : LogicSystem} {events : List LogicEvent}
    (h₀ : LogicInit s₀)
    (hok : AllSteps (logicStep registered) (fun _ e _ => e ≠ .worker false) s₀ events)
    (hr : run (logicStep registered) s₀ events = some s) : Dispatches registered s := by
  have hs : LogicInv registered s := logicInv_of_reachable ⟨s₀, events, h₀, hr⟩
  have hlive : s.worker ≠ .terminated := by
    refine run_invariant (fun s e t hlive he ht => live_step ht hlive he) ?_ hok hr
    obtain ⟨n, rfl⟩ := h₀
    exact WorkerPoint.noConfusion
  refine ⟨hs.ledger, hs.handled hlive, ?_⟩
  intro hparked hpending
  have hworker := hs.worker
  rw [hparked] at hworker
  exact hworker.resolve_right (by simp [hpending])

/-- Two IO threads: the second message is pushed before the worker has woken up for
the first one, so nobody notifies for it, and both are dispatched; a message for an
unknown service comes between them. -/
theorem posted_once_in_order_two_threads : ∃ s : LogicSystem,
    s.worker = .parked ∧ s.taken.length = 3 ∧ s.handled.length = 2 ∧
      Dispatches (fun id => id == 1) s := by
  let node (session : Nat) (serviceId : UInt16) : LogicNode :=
    ⟨session, { header := { serviceId := serviceId } }⟩
  let s₀ : LogicSystem := { posters := List.replicate 2 .idle }
  let events : List LogicEvent := List.replicate 3 (.worker true) ++
    [.post 0 (node 7 1), .poster 0, .poster 0, .poster 0, .post 1 (node 8 5), .poster 0, .poster 0,
      .poster 1, .poster 1, .poster 1, .poster 1, .post 0 (node 7 1), .poster 0, .poster 0,
      .poster 0, .poster 0] ++ List.replicate 18 (.worker true)
  have hrun : (run (logicStep fun id => id == 1) s₀ events).map
      (fun s => (s.worker, s.taken.length, s.handled.length)) = some (.parked, 3, 2) := by
    decide +kernel
  obtain ⟨s, hs, hview⟩ := Option.map_eq_some_iff.mp hrun
  obtain ⟨hworker, hcounts⟩ := Prod.mk.inj hview
  obtain ⟨htaken, hhandled⟩ := Prod.mk.inj hcounts
  have hok : checkSteps (logicStep fun id => id == 1) (fun _ e => e != .worker false) s₀ events =
      true := by decide +kernel
  refine ⟨s, hworker, htaken, hhandled, posted_once_in_order ⟨2, rfl⟩ ?_ hs⟩
  exact (allSteps_of_iff (fun _ _ _ _ => bne_iff_ne) events s₀).mp (allSteps_of_checkSteps hok)

end AsioServer.Core
