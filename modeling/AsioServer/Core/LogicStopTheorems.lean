/-
AsioServer.Core.LogicStopTheorems — when the end of the program reaches the worker.

The destructor sets `_isStoped` and notifies without `_queMutex`, so both can fall
between the worker's test and its block. The notification is then lost, the worker
parks with nobody left to wake it (`stop_misses_worker`), and `join` waits for it.
`NoticesStop` is the condition that the worker never blocks after the notification,
and `worker_not_stranded_iff` says that nothing else strands it: who finds the queue
empty after the store does not block, and who has parked before the notification is
woken by it. Whatever happens, the worker leaves its loop on an empty queue.
-/
import AsioServer.Core.PeerLossTheorems

namespace AsioServer.Core

open AsioServer.Lib

variable {registered : UInt16 → Bool} {s t : LogicSystem} {e : LogicEvent}

/-! ## The property and its condition -/

/-- The destructor has made its `notify_one`. -/
def LogicSystem.stopNotified (s : LogicSystem) : Prop :=
  s.destructor = .notified ∨ s.destructor = .joined

/-- After the destructor's notification the worker is not parked, unless a wake-up is
pending. -/
def NotStranded (s : LogicSystem) : Prop :=
  s.stopNotified → s.worker = .parked → s.wakePending = true

/-- The worker leaves its loop with an empty queue. -/
def LeavesEmpty (s : LogicSystem) (_ : LogicEvent) (t : LogicSystem) : Prop :=
  t.worker = .ended → s.worker ≠ .ended → s.msgQue = []

/-- The worker does not block when the destructor has already notified. -/
def NoticesStop (s : LogicSystem) (e : LogicEvent) (_ : LogicSystem) : Prop :=
  ∀ b, e = .worker b → s.worker = .blocking → ¬ s.stopNotified

/-! ## One step -/

/-- A worker that blocks holds the lock, so nobody is about to notify it. -/
theorem LogicInv.wakePending_blocking (h : LogicInv registered s) (hw : s.worker = .blocking) :
    s.wakePending = false := by
  cases hpending : s.wakePending with
  | false => rfl
  | true =>
      obtain ⟨i, p, hi, -, hlocked⟩ := locked_of_wakePending hpending
      have hworker : (s.worker.locked :: s.posters.map PosterPoint.locked)[0]? = some true := by
        rw [worker_locked, hw]
        rfl
      have heq := h.lock.unique hworker rfl (posters_locked hi) hlocked
      exact absurd heq (by simp)

/-- A poster moves that is not about to notify. -/
theorem NotStranded.setPoster {i : Nat} {p p' : PosterPoint} (hs : NotStranded s)
    (hi : s.posters[i]? = some p) (hn : p.willNotify s.msgQue.length = false) :
    NotStranded (s.setPoster i p') :=
  fun hstop hparked => wakePending_setPoster (hs hstop hparked) hi hn p'

/-- A poster that holds the lock and is not about to notify finds no stranded worker. -/
theorem NotStranded.not_parked {i : Nat} {p : PosterPoint} (hs : NotStranded s)
    (h : LogicInv registered s) (hi : s.posters[i]? = some p) (hp : p.locked = true)
    (hn : p.willNotify s.msgQue.length = false) (hstop : s.stopNotified) : s.worker ≠ .parked := by
  intro hparked
  have hnone := (h.alone hi hp hn).2
  exact absurd (hs hstop hparked) (by simp [hnone])

theorem notStranded_step_iff (h : LogicInv registered s) (hs : NotStranded s)
    (ht : logicStep registered s e = some t) : NotStranded t ↔ NoticesStop s e t := by
  have hother : (∀ b, e = .worker b → s.worker ≠ .blocking) → NotStranded t →
      (NotStranded t ↔ NoticesStop s e t) :=
    fun he hnot => ⟨fun _ b hb hw => absurd hw (he b hb), fun _ => hnot⟩
  cases move_of_logicStep ht with
  | post hi => exact hother (by simp) (hs.setPoster hi rfl)
  | entered hi hfree =>
      refine hother (by simp) fun hstop hparked => ?_
      exact wakePending_setPoster (s := { s with owner := _ }) (hs hstop hparked) hi rfl _
  | pushed hi =>
      refine hother (by simp) fun hstop hparked => ?_
      exact absurd hparked (hs.not_parked h hi rfl rfl hstop)
  | foundOne hi hone => exact hother (by simp) fun _ _ => wakePending_self hi rfl
  | foundMore hi hmore =>
      refine hother (by simp) fun hstop hparked => ?_
      exact absurd hparked (hs.not_parked h hi rfl (by simpa [PosterPoint.willNotify]) hstop)
  | left hi =>
      refine hother (by simp) fun hstop hparked => ?_
      exact absurd hparked (hs.not_parked h hi rfl rfl hstop)
  | notified hi | wake hw | stopNotified hd =>
      exact hother (by simp) fun _ hparked => absurd hparked (wake_ne_parked s.worker)
  | stopped hd =>
      refine hother (by simp) fun hstop _ => ?_
      rcases hstop with hstop | hstop <;> cases hstop
  | joined hd hended =>
      refine hother (by simp) fun _ hparked => ?_
      exact absurd (hended.symm.trans hparked) (by decide)
  | blocked hw =>
      have hnone := h.wakePending_blocking hw
      constructor
      · intro hnot b _ _ hstop
        have hpending : s.wakePending = true := hnot hstop rfl
        exact absurd hpending (by simp [hnone])
      · exact fun hok hstop _ => absurd hstop (hok _ rfl hw)
  | acquired hw | threw hw =>
      refine hother (fun b _ => by rcases hw with hw | hw <;> simp [hw]) ?_
      exact fun _ hparked => WorkerPoint.noConfusion hparked
  | sleeps hw | works hw | drains hw | assists hw | assisted hw | released hw | drained hw =>
      refine hother (fun b _ => by simp [hw]) ?_
      exact fun _ hparked => WorkerPoint.noConfusion hparked
  | drainedOne hw hassist =>
      refine hother (fun b _ => by simp [hw]) fun _ hparked => ?_
      exact absurd (hw.symm.trans (hassist.worker.symm.trans hparked)) (by decide)

/-! ## The join -/

/-- While nobody is stranded, the worker has ended and `join` returns, or a thread that
is in the middle of something goes on. -/
theorem LogicInv.join_goesOn (h : LogicInv registered s) (hs : NotStranded s)
    (hd : s.destructor = .notified) (hlive : s.worker ≠ .terminated) :
    ∃ e t, logicStep registered s e = some t ∧ e ≠ .wake ∧ ∀ i node, e ≠ .post i node := by
  cases howner : s.owner with
  | some j =>
      rcases h.owner_goesOn howner with ⟨t, ht⟩ | ⟨i, t, rfl, ht⟩
      · exact ⟨.worker true, t, ht, by simp, by simp⟩
      · exact ⟨.poster i, t, ht, by simp, by simp⟩
  | none =>
      by_cases hended : s.worker = .ended
      · refine ⟨.destructor, { s with destructor := .joined }, ?_, by simp, by simp⟩
        simp [logicStep, hd, LogicSystem.destructorStep, hended]
      · have hparked : s.worker ≠ .parked := by
          intro hparked
          obtain ⟨i, p, hi, -, hlocked⟩ := locked_of_wakePending (hs (.inl hd) hparked)
          have hlock := h.lock
          rw [howner] at hlock
          exact absurd (hlocked.symm.trans (hlock.free (posters_locked hi))) (by simp)
        obtain ⟨t, ht⟩ := h.worker_goesOn howner hparked hended hlive
        exact ⟨.worker true, t, ht, by simp, by simp⟩

/-! ## Every run -/

/-- **Stopping strands the worker in no state of a run, and it leaves its loop with an
empty queue, exactly when it never blocks after the destructor's notification.** -/
theorem worker_not_stranded_iff (registered : UInt16 → Bool) (posters : Nat)
    (events : List LogicEvent) :
    (AllStates (logicStep registered) NotStranded { posters := List.replicate posters .idle }
          events ∧
        AllSteps (logicStep registered) LeavesEmpty { posters := List.replicate posters .idle }
          events) ↔
      AllSteps (logicStep registered) NoticesStop { posters := List.replicate posters .idle }
        events := by
  have hinv : LogicInv registered { posters := List.replicate posters .idle } :=
    logicInv_init ⟨posters, rfl⟩
  have hstart : NotStranded { posters := List.replicate posters .idle } := by
    rintro (hstop | hstop) <;> cases hstop
  have hleaves := @AllSteps.of_step _ _ (logicStep registered) LeavesEmpty
    (fun _ _ _ ht hended hbefore => queue_of_ended ht hended hbefore) events
    { posters := List.replicate posters .idle }
  rw [and_iff_left hleaves]
  exact @allStates_iff_allSteps _ _ (logicStep registered) (LogicInv registered) NotStranded
    NoticesStop (fun _ _ _ h ht => h.step ht) (fun _ _ _ h hs ht => notStranded_step_iff h hs ht)
    events _ hinv hstart

/-- The worker tests, the destructor stores and notifies, the worker blocks: it is parked
and nobody will wake it. -/
theorem stop_misses_worker :
    let s : LogicSystem := { posters := [] }
    let events : List LogicEvent := [.worker true, .worker true, .destructor, .destructor,
      .worker true]
    (∃ t, run (logicStep fun _ => true) s events = some t ∧ t.destructor = .notified ∧
      t.worker = .parked ∧ t.wakePending = false ∧
      ∀ e, e ≠ .wake → logicStep (fun _ => true) t e = none) ∧
      ¬ AllStates (logicStep fun _ => true) NotStranded s events := by
  intro s events
  let stranded : LogicSystem := { s with
    isStoped := true, worker := .parked, destructor := .notified }
  have hrun : run (logicStep fun _ => true) s events = some stranded := by decide
  refine ⟨⟨stranded, hrun, rfl, rfl, rfl, ?_⟩, ?_⟩
  · intro e he
    cases e with
    | wake => exact absurd rfl he
    | _ => rfl
  · intro hall
    exact absurd (hall.last hrun (.inl rfl) rfl) (by decide)

end AsioServer.Core
