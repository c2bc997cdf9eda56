/-
AsioServer.Infra.LoggerExitTheorems — when stopping the queue wakes everybody.

`Stop` stores its flag and notifies without the lock, so its notification may fall between
the test of a waiter and its block. `StopNoticed` is the condition that it does not, and
`WakeInv` what follows for the waiters. Here it is read after a `Stop` has returned: nobody
is parked who is not notified by another `Stop` still to come, and whoever is inside a call
goes on (`AllWoken`). For `~Logger` this means that the `join` comes back or somebody works
for it (`LoggerExit.Helps`).
-/
import AsioServer.Infra.LoggerExit
import AsioServer.Infra.SafeQueueWakeups

namespace AsioServer.Infra

open AsioServer.Lib

variable {α : Type*}

/-! ## After Stop -/

/-- Thread `j` has a notification of `Stop` to come. -/
def Notifies (s : QueueState α) (j : Nat) : Prop :=
  s.threads[j]? = some (some .stopNotifyEmpty) ∨ s.threads[j]? = some (some .stopNotifyFull)

/-- Nobody is parked without a wake-up to come, and no call hangs. -/
structure AllWoken (s : QueueState α) : Prop where
  pops : ∀ i : Nat, s.threads[i]? = some (some .popParked) →
    ∃ j : Nat, s.threads[j]? = some (some .stopNotifyEmpty)
  pushes : ∀ (i : Nat) data, s.threads[i]? = some (some (.pushParked data)) → ∃ j, Notifies s j
  /-- A call goes on, or the thread with the lock does, or a `Stop`. -/
  goesOn : ∀ (i : Nat) p, s.threads[i]? = some (some p) → ∃ j woken t,
    queueStep s (.step j woken) = some t ∧ (j = i ∨ s.que.owner = some j ∨ Notifies s j)

section AllWoken

variable {s t : QueueState α} {a : QueueEvent α}

/-- Whoever has the lock goes on. -/
theorem QueueInv.owner_goesOn (hs : QueueInv s) {j : Nat} (howner : s.que.owner = some j) :
    ∃ woken t, queueStep s (.step j woken) = some t := by
  obtain ⟨q, r, hj, hr⟩ := hs.owner_step howner
  exact exists_queueStep hj hr

theorem Notifies.goesOn {j : Nat} (h : Notifies s j) :
    ∃ woken t, queueStep s (.step j woken) = some t := by
  rcases h with hj | hj
  · exact exists_queueStep hj rfl
  · exact exists_queueStep hj rfl

/-- Once the queue is stopped, whoever waits has a notification to come. -/
theorem QueueInv.allWoken (hs : QueueInv s) (hw : WakeInv s) (hstop : s.que.isRunning = false) :
    AllWoken s := by
  have hpops : ∀ i : Nat, s.threads[i]? = some (some .popParked) →
      ∃ j : Nat, s.threads[j]? = some (some .stopNotifyEmpty) :=
    fun i hi => hw.popNotice hstop i _ hi rfl
  have hpushes : ∀ (i : Nat) data, s.threads[i]? = some (some (.pushParked data)) →
      ∃ j, Notifies s j := fun i data hi => hw.pushNotice hstop i _ hi rfl
  refine ⟨hpops, hpushes, fun i p hi => ?_⟩
  cases hr : s.que.step i p with
  | some r =>
      obtain ⟨woken, t, ht⟩ := exists_queueStep hi hr
      exact ⟨i, woken, t, ht, Or.inl rfl⟩
  | none =>
      have hnotified : (∃ j, Notifies s j) → ∃ j woken t,
          queueStep s (.step j woken) = some t ∧
            (j = i ∨ s.que.owner = some j ∨ Notifies s j) := by
        rintro ⟨j, hj⟩
        obtain ⟨woken, t, ht⟩ := hj.goesOn
        exact ⟨j, woken, t, ht, Or.inr (Or.inr hj)⟩
      rcases hs.blocked hi hr with hpark | hpark | ⟨howner, -⟩
      · cases p with
        | pushParked data => exact hnotified (hpushes i data hi)
        | _ => exact absurd hpark Bool.false_ne_true
      · cases p with
        | popParked =>
            obtain ⟨j, hj⟩ := hpops i hi
            exact hnotified ⟨j, Or.inl hj⟩
        | _ => exact absurd hpark Bool.false_ne_true
      · obtain ⟨j, hj⟩ := Option.ne_none_iff_exists'.mp howner
        obtain ⟨woken, t, ht⟩ := hs.owner_goesOn hj
        exact ⟨j, woken, t, ht, Or.inr (Or.inl hj)⟩

/-- A thread that is moved, and not to a notification, has none to come. -/
theorem Notifies.of_set {i j : Nat} {x : QueueThread α} (hj : Notifies t j)
    (ht : t.threads = s.threads.set i x)
    (hx : x ≠ some .stopNotifyEmpty ∧ x ≠ some .stopNotifyFull) : Notifies s j := by
  rw [Notifies, ht] at hj
  refine hj.imp (fun hj => ?_) fun hj => ?_
  · rcases getElem?_set_cases hj with ⟨-, heq⟩ | ⟨-, hj⟩
    · exact absurd heq.symm hx.1
    · exact hj
  · rcases getElem?_set_cases hj with ⟨-, heq⟩ | ⟨-, hj⟩
    · exact absurd heq.symm hx.2
    · exact hj

/-- A `Stop` that has yet to notify has stored the flag. -/
def StoreDone (s : QueueState α) : Prop := ∀ j, Notifies s j → s.que.isRunning = false

theorem storeDone_init (h : QueueInit s) : StoreDone s := by
  obtain ⟨maxSize, n, rfl⟩ := h
  intro j hj
  rcases hj with hj | hj <;>
    exact absurd (List.eq_of_mem_replicate (List.mem_of_getElem? hj)) (by simp)

theorem StoreDone.step (h : StoreDone s) (ht : queueStep s a = some t) : StoreDone t := by
  intro j hj
  cases effect_of_queueStep ht with
  | @call i c hi =>
      have hentry : (some c.entry : QueueThread α) ≠ some .stopNotifyEmpty ∧
          (some c.entry : QueueThread α) ≠ some .stopNotifyFull := by
        cases c <;> simp [QueueCall.entry]
      exact h j (hj.of_set rfl hentry)
  | @wake i p hi hparked =>
      have hwoken : some p.wake ≠ some .stopNotifyEmpty ∧ some p.wake ≠ some .stopNotifyFull := by
        cases p with
        | pushParked data | popParked => simp [QueuePoint.wake]
        | _ => exact absurd hparked Bool.false_ne_true
      exact h j (hj.of_set rfl hwoken)
  | @step i woken p r threads hi hr hthreads =>
      have hmove := move_of_step hr
      rw [Notifies, QueueState.record_threads] at hj
      rw [QueueState.record_que]
      rcases hj with hj | hj
      · rcases thread_cases hthreads hj with (⟨data, heq⟩ | heq) | ⟨-, hnext⟩ | ⟨-, hj⟩
        · cases heq
        · cases heq
        · cases hmove with
          | stopStore => rfl
          | _ => exact absurd hnext (by simp)
        · exact hmove.stays_stopped (h j (Or.inl hj))
      · rcases thread_cases hthreads hj with (⟨data, heq⟩ | heq) | ⟨-, hnext⟩ | ⟨-, hj⟩
        · cases heq
        · cases heq
        · cases hmove with
          | stopNotifyEmpty => exact h i (Or.inl hi)
          | _ => exact absurd hnext (by simp)
        · exact hmove.stays_stopped (h j (Or.inr hj))

/-- A `Stop` that returns leaves the flag down. -/
theorem StoreDone.returned (h : StoreDone s) (ht : queueStep s a = some t)
    (hr : s.returned a = some .stop) : t.que.isRunning = false := by
  cases effect_of_queueStep ht with
  | call | wake => exact absurd hr (by simp [QueueState.returned])
  | @step i woken p r threads hi hstep hthreads =>
      rw [QueueState.record_que]
      simp only [QueueState.returned, hi, hstep, Option.map_some] at hr
      split at hr
      · next heq =>
        cases move_of_step hstep with
        | stopNotifyFull => exact h i (Or.inr hi)
        | _ => simp_all
      · exact absurd hr (by simp)

/-- What is known of the queue in a run that notices `Stop`. -/
structure ExitQueue (s : QueueState α) : Prop where
  inv : QueueInv s
  wake : WakeInv s
  stored : StoreDone s

theorem exitQueue_init (h : QueueInit s) : ExitQueue s :=
  ⟨queueInv_init h, wakeInv_init h, storeDone_init h⟩

theorem ExitQueue.step (h : ExitQueue s) (hok : StopNoticed s a t)
    (ht : queueStep s a = some t) : ExitQueue t :=
  ⟨h.inv.step ht, h.wake.step h.inv hok ht, h.stored.step ht⟩

theorem isRunning_step (hstop : s.que.isRunning = false) (ht : queueStep s a = some t) :
    t.que.isRunning = false := by
  cases effect_of_queueStep ht with
  | call | wake => exact hstop
  | @step i woken p r threads hi hr hthreads =>
      rw [QueueState.record_que]
      exact (move_of_step hr).stays_stopped hstop

/-- **After a `Stop` has returned**, in every run of any number of threads that notices
`Stop`, everybody is woken. -/
theorem allWoken_of_run {u : QueueState α} {before after : List (QueueEvent α)}
    (h₀ : QueueInit s) (hok : AllSteps queueStep StopNoticed s (before ++ a :: after))
    (hu : run queueStep s before = some u) (hreturn : u.returned a = some .stop)
    (ht : run queueStep u (a :: after) = some t) : AllWoken t := by
  have hbefore : ExitQueue u := run_invariant (fun _ _ _ h hok ht => h.step hok ht)
    (exitQueue_init h₀) (allSteps_append hok) hu
  rw [run_cons, Option.bind_eq_some_iff] at ht
  obtain ⟨v, hv, ht⟩ := ht
  have hrest := allSteps_drop hok hu v hv
  have hstart : ExitQueue v ∧ v.que.isRunning = false :=
    ⟨hbefore.step hrest.1 hv, hbefore.stored.returned hv hreturn⟩
  have hstep : ∀ (s : QueueState α) a t, ExitQueue s ∧ s.que.isRunning = false →
      StopNoticed s a t → queueStep s a = some t → ExitQueue t ∧ t.que.isRunning = false :=
    fun _ _ _ h hok ht => ⟨h.1.step hok ht, isRunning_step h.2 ht⟩
  have hend : ExitQueue t ∧ t.que.isRunning = false := run_invariant hstep hstart hrest.2 ht
  exact hend.1.inv.allWoken hend.1.wake hend.2

end AllWoken

/-! ## The join in ~Logger -/

/-- The step brings the consumer to its end, or the join back. -/
def LoggerExit.Helps (s : LoggerExit) : ExitEvent → Prop
  | .dispatched | .join => True
  | .queue (.call i _) => i = 0
  | .queue (.step j _) => j = 0 ∨ s.que.que.owner = some j ∨ Notifies s.que j
  | _ => False

/-- The step notices `Stop`. -/
def ExitNoticed (s : LoggerExit) (event : ExitEvent) (t : LoggerExit) : Prop :=
  ∀ e, event = .queue e → StopNoticed s.que e t.que

/-- What holds in a run that notices `Stop`. -/
structure ExitInv (s : LoggerExit) : Prop where
  queue : ExitQueue s.que
  first : 0 < s.que.threads.length
  stopped : s.destroyer = .joining → s.que.que.isRunning = false

section Exit

variable {s t : LoggerExit} {event : ExitEvent}

theorem exitInv_init (h : ExitInit s) : ExitInv s := by
  obtain ⟨maxSize, n, rfl⟩ := h
  exact ⟨exitQueue_init ⟨maxSize, n + 2, rfl⟩, by simp, fun hjoin => by cases hjoin⟩

theorem length_queueStep {s t : QueueState α} {a : QueueEvent α} (ht : queueStep s a = some t) :
    t.threads.length = s.threads.length := by
  cases effect_of_queueStep ht with
  | call | wake => exact List.length_set
  | @step i woken p r threads hi hr hthreads =>
      rw [QueueState.record_threads]
      refine Eq.trans ?_ (List.length_set (i := i) (a := r.next.thread))
      cases hn : r.notify with
      | nobody =>
          rw [hn] at hthreads
          exact Option.some.inj hthreads ▸ rfl
      | oneNotEmpty | oneNotFull =>
          rw [hn] at hthreads
          exact length_notifyOne hthreads
      | allNotEmpty | allNotFull =>
          rw [hn] at hthreads
          exact Option.some.inj hthreads ▸ List.length_map _

/-- `~Logger` comes to its join when its `Stop` returns. -/
theorem joining_of_returns {e : QueueEvent LogEvent} (h : (s.returns e).destroyer = .joining) :
    s.destroyer = .joining ∨ s.que.returned e = some .stop := by
  unfold LoggerExit.returns at h
  split at h
  · exact Or.inl h
  · next woken r hreturned =>
    rw [hreturned]
    cases hd : s.destroyer with
    | stopping =>
        cases r with
        | stop => exact Or.inr rfl
        | _ => simp [hd, DestroyPoint.afterCall] at h
    | joining => exact Or.inl rfl
    | used | destroyed => simp [hd, DestroyPoint.afterCall] at h
  · exact Or.inl h

theorem ExitInv.step (h : ExitInv s) (hok : ExitNoticed s event t)
    (ht : exitStep s event = some t) : ExitInv t := by
  cases event with
  | queue e =>
      simp only [exitStep] at ht
      split at ht
      · obtain ⟨que, hque, rfl⟩ := Option.map_eq_some_iff.mp ht
        refine ⟨h.queue.step (hok e rfl) hque, ?_, fun hjoin => ?_⟩
        · exact (length_queueStep hque).symm ▸ h.first
        · rcases joining_of_returns hjoin with hbefore | hreturned
          · exact isRunning_step (h.stopped hbefore) hque
          · exact h.queue.stored.returned hque hreturned
      · exact absurd ht (by simp)
  | dispatched =>
      simp only [exitStep] at ht
      split at ht
      · obtain rfl := Option.some.inj ht
        exact ⟨h.queue, h.first, h.stopped⟩
      · exact absurd ht (by simp)
  | destroy =>
      simp only [exitStep] at ht
      split at ht
      · obtain rfl := Option.some.inj ht
        exact ⟨h.queue, h.first, fun hjoin => by cases hjoin⟩
      · exact absurd ht (by simp)
  | join =>
      simp only [exitStep] at ht
      split at ht
      · obtain rfl := Option.some.inj ht
        exact ⟨h.queue, h.first, fun hjoin => by cases hjoin⟩
      · exact absurd ht (by simp)

/-- A step of the queue by a thread that is inside a call is allowed. -/
theorem exists_exitStep {j : Nat} {woken : Option Nat} {que : QueueState LogEvent}
    (h : queueStep s.que (.step j woken) = some que) :
    ∃ t, exitStep s (.queue (.step j woken)) = some t :=
  ⟨{ s.returns (.step j woken) with que }, by simp [exitStep, LoggerExit.allows, h]⟩

/-- While `~Logger` waits in `join`, the join can return or somebody can work for it. -/
theorem ExitInv.join_goesOn (h : ExitInv s) (hjoin : s.destroyer = .joining) :
    ∃ event t, exitStep s event = some t ∧ s.Helps event := by
  have hwoken := h.queue.inv.allWoken h.queue.wake (h.stopped hjoin)
  obtain ⟨x, hfirst⟩ : ∃ x, s.que.threads[0]? = some x := ⟨_, List.getElem?_eq_getElem h.first⟩
  cases x with
  | some p =>
      obtain ⟨j, woken, que, hque, hj⟩ := hwoken.goesOn 0 p hfirst
      obtain ⟨t, ht⟩ := exists_exitStep hque
      exact ⟨_, t, ht, hj⟩
  | none =>
      have hcall : ∀ c, s.consumer.calls = some c → ∃ event t,
          exitStep s event = some t ∧ s.Helps event := by
        intro c hc
        refine ⟨.queue (.call 0 c), ?_⟩
        simp [exitStep, LoggerExit.allows, hc, queueStep, hfirst, LoggerExit.Helps]
      cases hconsumer : s.consumer with
      | first | second => exact hcall .pop (by rw [hconsumer]; rfl)
      | testSize => exact hcall .size (by rw [hconsumer]; rfl)
      | dispatch draining event =>
          refine ⟨.dispatched, ?_⟩
          simp [exitStep, hconsumer, LoggerExit.Helps]
      | ended =>
          refine ⟨.join, ?_⟩
          simp [exitStep, hconsumer, hjoin, LoggerExit.Helps]

end Exit

/-- **Stopping the log queue wakes everybody** when `Stop` is noticed: for any number of
threads and every run, nobody is parked without a wake-up to come after a `Stop` has
returned, and `~Logger` does not hang in its join. -/
theorem stop_wakes_everybody :
    (∀ (s u t : QueueState α) before a after, QueueInit s →
      AllSteps queueStep StopNoticed s (before ++ a :: after) →
      run queueStep s before = some u → u.returned a = some .stop →
      run queueStep u (a :: after) = some t → AllWoken t) ∧
    ∀ (s t : LoggerExit) events, ExitInit s → AllSteps exitStep ExitNoticed s events →
      run exitStep s events = some t → t.destroyer = .joining →
      AllWoken t.que ∧ ∃ event u, exitStep t event = some u ∧ t.Helps event := by
  constructor
  · intro s u t before a after h₀ hok hu hreturn ht
    exact allWoken_of_run h₀ hok hu hreturn ht
  · intro s t events h₀ hok ht hjoin
    have hinv : ExitInv t :=
      run_invariant (fun _ _ _ h hok ht => h.step hok ht) (exitInv_init h₀) hok ht
    exact ⟨hinv.queue.inv.allWoken hinv.queue.wake (hinv.stopped hjoin), hinv.join_goesOn hjoin⟩

/-- A thread between the test of a wait and the block. -/
def QueuePoint.isBlocking : QueuePoint α → Bool
  | pushBlock _ | popBlock => true
  | _ => false

/-- Nobody is between the test and the block when `Stop` notifies. -/
def noticesStop (s : QueueState α) : QueueEvent α → Bool
  | .step i _ =>
      match s.threads[i]? with
      | some (some .stopNotifyEmpty) | some (some .stopNotifyFull) =>
          s.threads.all fun x => !x.any QueuePoint.isBlocking
      | _ => true
  | _ => true

theorem stopNoticed_of_check {s t : QueueState α} {a : QueueEvent α}
    (h : noticesStop s a = true) : StopNoticed s a t := by
  rintro i woken rfl
  simp only [noticesStop] at h
  have hnone : (∀ x ∈ s.threads, (!x.any QueuePoint.isBlocking) = true) →
      ∀ (j : Nat) p, s.threads[j]? = some (some p) → p.isBlocking = false := by
    intro hall j p hj
    simpa using hall _ (List.mem_of_getElem? hj)
  constructor
  · intro hi j hj
    rw [hi] at h
    exact absurd (hnone (List.all_eq_true.mp h) j _ hj) (by simp [QueuePoint.isBlocking])
  · intro hi j data hj
    rw [hi] at h
    exact absurd (hnone (List.all_eq_true.mp h) j _ hj) (by simp [QueuePoint.isBlocking])

def exitNotices (s : LoggerExit) : ExitEvent → Bool
  | .queue e => noticesStop s.que e
  | _ => true

theorem exitNoticed_of_check {s t : LoggerExit} {event : ExitEvent}
    (h : exitNotices s event = true) : ExitNoticed s event t := by
  rintro e rfl
  exact stopNoticed_of_check h

/-- A consumer that is parked when `Stop` comes, in the queue and in the logger. -/
theorem stop_wakes_parked_consumer :
    let s : QueueState Nat := { que := {}, threads := [none, none] }
    let logger : LoggerExit := { que := { que := {}, threads := [none, none] } }
    let steps (i n : Nat) : List (QueueEvent Nat) := List.replicate n (.step i none)
    let exitSteps (i n : Nat) : List ExitEvent := List.replicate n (.queue (.step i none))
    let before : List (QueueEvent Nat) :=
      [.call 0 .pop] ++ steps 0 3 ++ [.call 1 .stop] ++ steps 1 2
    let events : List ExitEvent := [.queue (.call 0 .pop)] ++ exitSteps 0 3 ++
      [.destroy, .queue (.call 1 .stop)] ++ exitSteps 1 3
    (∃ t, run queueStep s (before ++ [.step 1 none]) = some t ∧ AllWoken t) ∧
      ∃ t, run exitStep logger events = some t ∧ t.destroyer = .joining ∧ AllWoken t.que ∧
        ∃ event u, exitStep t event = some u ∧ t.Helps event := by
  intro s logger steps exitSteps before events
  constructor
  · let u : QueueState Nat := {
      que := { isRunning := false }
      threads := [some .popEnter, some .stopNotifyFull]
      stopped := true }
    let t : QueueState Nat := { u with threads := [some .popEnter, none] }
    have hcheck : checkSteps queueStep noticesStop s (before ++ [.step 1 none]) = true := by
      decide +kernel
    have hok : AllSteps queueStep StopNoticed s (before ++ [.step 1 none]) :=
      .of_check hcheck fun _ _ _ => stopNoticed_of_check
    exact ⟨t, by decide +kernel, stop_wakes_everybody.1 s u t before (.step 1 none) [] ⟨_, 2, rfl⟩
      hok (by decide +kernel) (by decide +kernel) (by decide +kernel)⟩
  · let t : LoggerExit := {
      que := {
        que := { isRunning := false }
        threads := [some .popEnter, none]
        stopped := true }
      destroyer := .joining }
    have hcheck : checkSteps exitStep exitNotices logger events = true := by decide +kernel
    have hok : AllSteps exitStep ExitNoticed logger events :=
      .of_check hcheck fun _ _ _ => exitNoticed_of_check
    have hrun : run exitStep logger events = some t := by decide +kernel
    have hhelped := (stop_wakes_everybody (α := Nat)).2
    exact ⟨t, hrun, rfl, hhelped logger t events ⟨_, 0, rfl⟩ hok hrun rfl⟩

/-- `Stop` stores its flag and notifies while the consumer is between its test and its block:
the consumer parks after `Stop` has returned, and `~Logger` waits for it for ever. -/
theorem stop_misses_a_waiter :
    (¬ ∀ (s u t : QueueState Nat) before a after, QueueInit s →
      run queueStep s before = some u → u.returned a = some .stop →
      run queueStep u (a :: after) = some t → AllWoken t) ∧
    ¬ ∀ (s t : LoggerExit) events, ExitInit s → run exitStep s events = some t →
      t.destroyer = .joining → ∃ event u, exitStep t event = some u ∧ t.Helps event := by
  constructor
  · intro h
    let s : QueueState Nat := { que := {}, threads := [none, none] }
    let u : QueueState Nat := {
      que := { isRunning := false, owner := some 0 }
      threads := [some .popBlock, some .stopNotifyFull]
      stopped := true }
    let t : QueueState Nat :=
      { que := { isRunning := false }, threads := [some .popParked, none], stopped := true }
    have hwoken := h s u t [.call 0 .pop, .step 0 none, .step 0 none, .call 1 .stop, .step 1 none,
      .step 1 none] (.step 1 none) [.step 0 none] ⟨_, 2, rfl⟩ (by decide +kernel)
      (by decide +kernel) (by decide +kernel)
    obtain ⟨j, hj⟩ := hwoken.pops 0 rfl
    rcases j with _ | _ | j <;> cases hj
  · intro h
    let s : LoggerExit := { que := { que := {}, threads := [none, none] } }
    let t : LoggerExit := {
      que := {
        que := { isRunning := false }
        threads := [some .popParked, none]
        stopped := true }
      destroyer := .joining }
    let consumer : ExitEvent := .queue (.step 0 none)
    let destroyer : ExitEvent := .queue (.step 1 none)
    obtain ⟨event, u, hu, hhelps⟩ := h s t [.queue (.call 0 .pop), consumer, consumer, .destroy,
      .queue (.call 1 .stop), destroyer, destroyer, destroyer, consumer] ⟨_, 0, rfl⟩
      (by decide +kernel) rfl
    cases event with
    | dispatched | join => cases hu
    | destroy => exact hhelps
    | queue e =>
        cases e with
        | call i c =>
            obtain rfl : i = 0 := hhelps
            cases c <;> cases hu
        | wake i => exact hhelps
        | step j woken =>
            rcases hhelps with rfl | howner | hj | hj
            · cases hu
            · cases howner
            · rcases j with _ | _ | j <;> cases hj
            · rcases j with _ | _ | j <;> cases hj

end AsioServer.Infra
