/-
AsioServer.Infra.LoggerTheorems — when the logger can change its mode.

`SetAsyncMode(false)` holds `_mutex` while it joins the consumer, and the consumer needs
`_mutex` for every event that it still has to dispatch. So the switch comes to an end only
if nothing is left to dispatch when it takes `_mutex` and nothing comes in until it gives
it back. `LoggerState.admits` is the condition on the step of a thread, with the other
ways in which a switch goes wrong: a notification of `Stop` that is missed, a call that is
still inside the queue when it is destroyed, a thread that is replaced, and an appender
that logs where it has to wait for itself.

`LoggerInv` holds in every state of a run whose steps are admitted. Its `mode` says what
`_isAsync`, `_logQue` and `_logThread` are at each point of a switch (`ModeOk`), and its
`queue` that the threads, seen from the queue, are the threads of `SafeQueue`, so what was
proved there holds here. `mode_switch_safe` puts it together: no deadlock, no thread
replaced, and every accepted event dispatched once and in order.
-/
import AsioServer.Infra.LoggerSteps

namespace AsioServer.Infra

open AsioServer.Lib

variable {s t : LoggerState} {event : LoggerEvent}

/-! ## The property and its condition -/

namespace LogPoint

/-- In no call, or waiting in `Pop` for the next event. -/
def resting : LogPoint → Bool
  | idle | absent | ended | pop _ .popParked => true
  | _ => false

/-- `SetAsyncMode(false)` holds `_mutex`. -/
def turnsOff : LogPoint → Bool
  | switch (.store false _) | switch .testQueue | switch (.stopping _) => true
  | switch .testJoinable | switch .joining | switch .reset | switch (.unlock false) => true
  | _ => false

end LogPoint

/-- Something is left to do, and no thread can go on. -/
structure Deadlock (s : LoggerState) : Prop where
  unfinished : s.pending ≠ [] ∨ ∃ x ∈ s.threads, x.resting = false
  stuck : ∀ i woken, loggerStep s (.step i woken) = none

/-- What callers of the logger may count on when it changes its mode. -/
structure SwitchSafe (s : LoggerState) : Prop where
  /-- No joinable thread was replaced, and no queue destroyed with a call inside. -/
  running : s.status = .running
  live : ¬ Deadlock s
  /-- While `SetAsyncMode` waits for the consumer, nothing is left that needs `_mutex`. -/
  joins : ∀ i : Nat, s.threads[i]? = some (.switch .joining) → s.pending = []
  /-- The events dispatched and those still to be dispatched are the accepted ones. -/
  ledger : s.dispatched ++ s.pending = s.accepted
  /-- `SetAsyncMode(false)` returns after all of them are dispatched. -/
  drained : ∀ i : Nat, s.threads[i]? = some (.switch (.unlock false)) → s.dispatched = s.accepted

/-- When the step of a thread at a place goes well. -/
def LoggerState.admits (s : LoggerState) : LogPoint → Bool
  -- the mode is changed from synchronous to asynchronous, or when nothing is left to do
  | .switch (.lock true _) => !s.joinable
  | .switch (.lock false _) => s.pending.isEmpty
  -- the consumer is not between its test and the block
  | .switch (.stopping .stopNotifyEmpty) =>
      !s.threads.any fun x => x.quePoint == some .popBlock
  | .switch .reset => !s.queueInUse
  -- a `Push` has to wait for room that there can be, and comes in while nobody turns off
  | .push (.pushTest _) => s.logQue.all fun que => que.notFull || decide (0 < que.maxSize)
  | .push (.pushing _) => !s.threads.any LogPoint.turnsOff
  -- an appender logs into the queue, and does not wait for room
  | .dispatch _ _ (.nestedAsync _) => s.isAsync
  | .dispatch _ _ (.nestedPush (.pushTest _)) => s.logQue.all SafeQueue.notFull
  | _ => true

/-- The step is admitted. -/
def SwitchOk (s : LoggerState) (event : LoggerEvent) (_ : LoggerState) : Prop :=
  ∀ i woken x, event = .step i woken → s.threads[i]? = some x → s.admits x = true

/-! ## The invariant -/

/-- The thread that `_logThread` stands for. -/
def consumerOf (threads : List LogPoint) : LogPoint := threads[0]?.getD .absent

/-- How far the `SetAsyncMode` is that holds `_mutex`. -/
def phaseOf (mutex : Option Nat) (threads : List LogPoint) : Option LogPoint.Phase :=
  mutex.bind fun i => (threads[i]?).bind LogPoint.phase

/-- The two modes: no queue and no thread, or a queue that runs and a thread in its loop. -/
def InSync (flag : Option Bool) (stage : LogPoint.Stage) : Prop := flag = none ∧ stage = .absent

def InAsync (flag : Option Bool) (stage : LogPoint.Stage) : Prop :=
  flag = some true ∧ stage = .looping

/-- `_isAsync` says which mode it is. -/
def Settled (isAsync : Bool) (flag : Option Bool) (stage : LogPoint.Stage) : Prop :=
  (isAsync = false ∧ InSync flag stage) ∨ (isAsync = true ∧ InAsync flag stage)

/-- `_isAsync`, the flag of `_logQue`, `_logThread` and whether nothing is left to do, at
each point of a switch. -/
def ModeOk (isAsync : Bool) (flag : Option Bool) (stage : LogPoint.Stage) (done : Prop) :
    Option LogPoint.Phase → Prop
  | none => Settled isAsync flag stage
  | some .turningOn => isAsync = false ∧ InSync flag stage
  | some .making => isAsync = true ∧ InSync flag stage
  | some .starting => isAsync = true ∧ flag = some true ∧ stage = .absent
  | some .turnedOn => isAsync = true ∧ InAsync flag stage
  | some .turningOff => done ∧ Settled isAsync flag stage
  | some .testing => isAsync = false ∧ done ∧ (InSync flag stage ∨ InAsync flag stage)
  | some .stopping => isAsync = false ∧ done ∧ InAsync flag stage
  | some .stopped => isAsync = false ∧ done ∧ flag = some false ∧ stage ≠ .absent
  | some .joined => isAsync = false ∧ done ∧ flag = some false ∧ stage = .absent
  | some .turnedOff => isAsync = false ∧ InSync flag stage

/-- What a thread may rely on at its place. -/
def PlaceOk (isAsync : Bool) (logQue : Option (SafeQueue LogEvent)) : LogPoint → Prop
  | .push p => p.waitsPush = true → ∀ que, logQue = some que → 0 < que.maxSize
  | .dispatch _ _ (.nestedQueue _) => isAsync = true
  | .dispatch _ _ (.nestedPush p) => p.waitsPush = false
  | .dispatch _ _ (.nestedLock _) => False
  | _ => True

/-- The threads, seen from the queue. -/
def QueueOk (logQue : Option (SafeQueue LogEvent)) (places : List (QueueThread LogEvent)) :
    Prop :=
  match logQue with
  | none => ∀ p ∈ places, p = none
  | some que => ∃ v : QueueState LogEvent, v.que = que ∧ v.threads = places ∧ QueueInv v ∧ WakeInv v

/-- **The invariant.** -/
structure LoggerInv (s : LoggerState) : Prop where
  running : s.status = .running
  fits : ∀ (i : Nat) x, s.threads[i]? = some x → x.fits i = true
  lock : LockOk LogPoint.locked s.mutex s.threads
  mode : ModeOk s.isAsync (s.logQue.map SafeQueue.isRunning) (consumerOf s.threads).stage
    (s.pending = []) (phaseOf s.mutex s.threads)
  places : ∀ (i : Nat) x, s.threads[i]? = some x → PlaceOk s.isAsync s.logQue x
  queue : QueueOk s.logQue (s.threads.map LogPoint.quePoint)
  ledger : s.dispatched ++ s.pending = s.accepted

/-- The points of `SetAsyncMode(false)` at which nothing may be left to do. -/
def LogPoint.Phase.isOff : LogPoint.Phase → Bool
  | turningOff | testing | stopping | stopped | joined => true
  | _ => false

/-! ## The consumer and the switch -/

section Threads

variable {ts ts' : List LogPoint} {i j : Nat} {x y : LogPoint} {mutex : Option Nat}

theorem consumerOf_eq (h : ts[0]? = some x) : consumerOf ts = x := by
  unfold consumerOf
  rw [h]
  rfl

theorem consumerOf_set_of_ne (hi : i ≠ 0) : consumerOf (ts.set i y) = consumerOf ts := by
  unfold consumerOf
  rw [List.getElem?_set_ne hi]

theorem consumerOf_set (h : ts[0]? = some x) : consumerOf (ts.set 0 y) = y :=
  consumerOf_eq (getElem?_set_self_of_some h)

theorem consumerOf_congr {β : Type*} {f : LogPoint → β} (h : ts'.map f = ts.map f) :
    f (consumerOf ts') = f (consumerOf ts) := by
  have hfirst : ts'[0]?.map f = ts[0]?.map f := by
    rw [← List.getElem?_map, ← List.getElem?_map, h]
  unfold consumerOf
  rw [← Option.getD_map f, ← Option.getD_map f, hfirst]

theorem phaseOf_congr (h : ts'.map LogPoint.phase = ts.map LogPoint.phase) :
    phaseOf mutex ts' = phaseOf mutex ts := by
  unfold phaseOf
  refine congrArg (Option.bind mutex) (funext fun k => ?_)
  have hk : ts'[k]?.map LogPoint.phase = ts[k]?.map LogPoint.phase := by
    rw [← List.getElem?_map, ← List.getElem?_map, h]
  have hjoin : ∀ o : Option LogPoint, o.bind LogPoint.phase = (o.map LogPoint.phase).join := by
    intro o
    cases o <;> rfl
  rw [hjoin, hk, ← hjoin]

theorem phaseOf_owner (h : ts[i]? = some x) : phaseOf (some i) ts = x.phase := by
  unfold phaseOf
  rw [Option.bind_some, h, Option.bind_some]

theorem phaseOf_set (h : ts[i]? = some x) : phaseOf (some i) (ts.set i y) = y.phase :=
  phaseOf_owner (getElem?_set_self_of_some h)

/-- Somebody is turning the asynchronous mode off. -/
theorem turnsOff_of_phase {phase : LogPoint.Phase} (h : phaseOf mutex ts = some phase)
    (hoff : phase.isOff = true) : ∃ x ∈ ts, x.turnsOff = true := by
  unfold phaseOf at h
  obtain ⟨i, -, hi⟩ := Option.bind_eq_some_iff.mp h
  obtain ⟨x, hx, hphase⟩ := Option.bind_eq_some_iff.mp hi
  refine ⟨x, List.mem_of_getElem? hx, ?_⟩
  unfold LogPoint.phase at hphase
  split at hphase <;> first
    | rfl
    | (obtain rfl := Option.some.inj hphase; exact absurd hoff Bool.false_ne_true)
    | exact absurd hphase (by simp)

end Threads

/-- What other threads do while a switch is going on. -/
theorem ModeOk.stable {isAsync : Bool} {flag : Option Bool} {stage stage' : LogPoint.Stage}
    {done done' : Prop} {phase : Option LogPoint.Phase} (h : ModeOk isAsync flag stage done phase)
    (hstage : stage' = stage ∨ (flag = some false ∧ stage = .looping ∧ stage' = .draining))
    (hdone : ∀ ph, phase = some ph → ph.isOff = true → done → done') :
    ModeOk isAsync flag stage' done' phase := by
  rcases hstage with rfl | ⟨rfl, rfl, rfl⟩
  · cases phase with
    | none => exact h
    | some ph =>
        have hdone := hdone ph rfl
        cases ph with
        | turningOn | making | starting | turnedOn | turnedOff => exact h
        | turningOff => exact ⟨hdone rfl h.1, h.2⟩
        | testing | stopping | stopped | joined => exact ⟨h.1, hdone rfl h.2.1, h.2.2⟩
  · cases phase with
    | none => simp [ModeOk, Settled, InSync, InAsync] at h
    | some ph =>
        have hdone := hdone ph rfl
        cases ph with
        | stopped => exact ⟨h.1, hdone rfl h.2.1, rfl, by simp⟩
        | _ => simp [ModeOk, Settled, InSync, InAsync] at h

/-- A queue is there whenever the consumer is. -/
theorem ModeOk.absent {isAsync : Bool} {stage : LogPoint.Stage} {done : Prop}
    {phase : Option LogPoint.Phase} (h : ModeOk isAsync none stage done phase) :
    stage = .absent := by
  cases phase with
  | none => exact (by simpa [ModeOk, Settled, InSync, InAsync] using h : _ ∧ _).2
  | some ph => cases ph <;> simp_all [ModeOk, Settled, InSync, InAsync]

/-! ## The queue and the places -/

section Places

variable {isAsync : Bool} {logQue logQue' : Option (SafeQueue LogEvent)} {x y : LogPoint}
  {ts : List LogPoint} {i j : Nat} {p : QueuePoint LogEvent} {que : SafeQueue LogEvent}
  {r : QueueStep LogEvent}

theorem PlaceOk.congr (h : PlaceOk isAsync logQue x)
    (hque : ∀ que', logQue' = some que' → ∃ que, logQue = some que ∧ que.maxSize = que'.maxSize) :
    PlaceOk isAsync logQue' x := by
  cases x with
  | push p =>
      intro hwaits que' hque'
      obtain ⟨que, hsome, hsize⟩ := hque que' hque'
      exact hsize ▸ h hwaits que hsome
  | dispatch caller event d => cases d <;> exact h
  | _ => trivial

/-- A thread outside of `_mutex` and of the queue relies on nothing. -/
theorem placeOk_of_outside (hlocked : x.locked = false) (hx : x.quePoint = none) :
    PlaceOk isAsync logQue x := by
  cases x with
  | push p => cases hx
  | dispatch caller event d =>
      cases d with
      | lock => trivial
      | _ => exact absurd hlocked (by simp [LogPoint.locked])
  | _ => trivial

theorem waitsPush_wake {p : QueuePoint LogEvent}
    (hp : p.isPushParked = true ∨ p.isPopParked = true) : p.wake.waitsPush = false := by
  cases p with
  | pushParked data | popParked => rfl
  | _ => simp [QueuePoint.isPushParked, QueuePoint.isPopParked] at hp

theorem placeOk_wake (h : PlaceOk isAsync logQue x)
    (hparked : x.isPushParked = true ∨ x.isPopParked = true) : PlaceOk isAsync logQue x.wake := by
  obtain ⟨p, hx, hp⟩ := LogPoint.quePoint_of_parked hparked
  have hawake := waitsPush_wake hp
  rw [LogPoint.wake_of_quePoint hx]
  cases LogPoint.inCall hx with
  | push => exact fun hwaits => absurd hwaits (by simp [hawake])
  | nested => exact hawake
  | stopping | pop | size => trivial

/-- Where a step of a call of the queue leads is in order. -/
theorem placeOk_inQueue (hx : x.quePoint = some p) (hfits : x.fits i = true)
    (hmove : QueueMove que i p r) (hplace : PlaceOk isAsync (some que) x)
    (hok : ∀ data, p = .pushTest data → que.notFull = false →
      0 < que.maxSize ∧ ∀ caller event d, x ≠ .dispatch caller event d) :
    PlaceOk isAsync (some r.que) (x.inQueue r.next) := by
  cases hnext : r.next with
  | point p' =>
      cases LogPoint.inCall hx with
      | push =>
          intro hwaits que' hque'
          obtain rfl := Option.some.inj hque'
          rw [hmove.maxSize]
          rcases hmove.waitsPush_cases hnext hwaits with ⟨data, hp, htest⟩ | hbefore
          · exact (hok data hp htest).1
          · exact hplace hbefore que rfl
      | nested =>
          cases hwaits : p'.waitsPush with
          | false => exact hwaits
          | true =>
              rcases hmove.waitsPush_cases hnext hwaits with ⟨data, hp, htest⟩ | hbefore
              · exact absurd rfl ((hok data hp htest).2 _ _ _)
              · exact absurd hbefore (by rw [show p.waitsPush = false from hplace]; simp)
      | stopping | pop | size => trivial
  | returned r' =>
      have hkind := hmove.kind
      rw [hnext] at hkind
      have hreturn := returnsTo_afterCall hx hfits hkind
      change PlaceOk isAsync (some r.que) (x.afterCall r')
      generalize x.afterCall r' = y at hreturn ⊢
      cases hreturn <;> trivial

/-- A thread calls the queue. -/
theorem QueueOk.enter {places : List (QueueThread LogEvent)} {z : QueueThread LogEvent}
    (h : QueueOk logQue places) (hi : places[i]? = some none)
    (hz : z = none ∨ logQue ≠ none ∧ ∃ c : QueueCall LogEvent, z = some c.entry) :
    QueueOk logQue (places.set i z) := by
  rcases hz with rfl | ⟨hque, c, rfl⟩
  · obtain ⟨hlt, hnone⟩ := List.getElem?_eq_some_iff.mp hi
    rw [← hnone, List.set_getElem_self hlt]
    exact h
  · cases logQue with
    | none => exact absurd rfl hque
    | some que =>
        obtain ⟨v, rfl, rfl, hinv, hwake⟩ := h
        have hcall := queueStep_call hi c
        have hnoticed : StopNoticed v (.call i c) { v with
            threads := v.threads.set i (some c.entry)
            stopped := v.stopped || c.isStop } := by
          intro j woken hstep
          cases hstep
        refine ⟨_, ?_, ?_, hinv.step hcall, hwake.step hinv hnoticed hcall⟩ <;> rfl

/-- A thread wakes up inside the queue. -/
theorem QueueOk.wake {places : List (QueueThread LogEvent)} (h : QueueOk logQue places)
    (hi : places[i]? = some (some p))
    (hparked : p.isPushParked = true ∨ p.isPopParked = true) :
    QueueOk logQue (places.set i (some p.wake)) := by
  cases logQue with
  | none => cases h _ (List.mem_of_getElem? hi)
  | some que =>
      obtain ⟨v, rfl, rfl, hinv, hwake⟩ := h
      have hstep := queueStep_wake hi hparked
      have hnoticed : StopNoticed v (.wake i) { v with
          threads := v.threads.set i (some p.wake) } := by
        intro j woken hstep
        cases hstep
      refine ⟨_, ?_, ?_, hinv.step hstep, hwake.step hinv hnoticed hstep⟩ <;> rfl

end Places

theorem queued_of_some {que : SafeQueue LogEvent} (hque : s.logQue = some que) :
    s.queued = que.queue := by
  unfold LoggerState.queued
  rw [hque]
  rfl

theorem queued_of_none (hque : s.logQue = none) : s.queued = [] := by
  unfold LoggerState.queued
  rw [hque]
  rfl

/-! ## Steps inside the queue -/

section InQueue

variable {x : LogPoint} {i : Nat} {woken : Option Nat} {p : QueuePoint LogEvent}
  {que : SafeQueue LogEvent} {r : QueueStep LogEvent} {threads : List LogPoint}

/-- What the thread that holds `_mutex` knows of the mode. -/
theorem LoggerInv.mode_of_owner (h : LoggerInv s) (hi : s.threads[i]? = some x)
    (hx : x.locked = true) :
    ModeOk s.isAsync (s.logQue.map SafeQueue.isRunning) (consumerOf s.threads).stage
      (s.pending = []) x.phase := by
  have hmode := h.mode
  rw [h.lock.owner_eq hi hx, phaseOf_owner hi] at hmode
  exact hmode

theorem hand_of_fits (hfits : x.fits i = true) (hi : i ≠ 0) : x.hand = [] := by
  cases x with
  | dispatch caller event d =>
      cases caller with
      | log => rfl
      | consumer draining => simp [LogPoint.fits, hi] at hfits
  | _ => rfl

/-- What is left to do after a step of the queue: what there was, and what came in. -/
theorem LoggerInv.pending_inQueue (h : LoggerInv s) (hi : s.threads[i]? = some x)
    (hx : x.quePoint = some p) (hque : s.logQue = some que) (hmove : QueueMove que i p r)
    (hthreads : r.notify.apply LogPoint.isPushParked LogPoint.isPopParked LogPoint.wake
      (s.threads.set i (x.inQueue r.next)) woken = some threads) :
    (consumerOf threads).hand ++ r.que.queue = s.pending ++ r.next.taken := by
  have hfits := h.fits i x hi
  have hhand : (consumerOf threads).hand = s.consumer.hand ++ r.next.given := by
    rw [consumerOf_congr (Notify.apply_map_eq (fun y => y.hand_wake) hthreads)]
    by_cases hzero : i = 0
    · obtain rfl := hzero
      rw [consumerOf_set hi, hand_inQueue hx hfits hmove.kind]
      exact congrArg (fun y => LogPoint.hand y ++ r.next.given) (consumerOf_eq hi).symm
    · -- a caller pops nothing
      have hcaller := hand_inQueue hx hfits hmove.kind
      rw [hand_of_fits (fits_inQueue hx hfits hmove.kind) hzero,
        hand_of_fits hfits hzero] at hcaller
      have hgiven : r.next.given = [] := hcaller.symm
      rw [consumerOf_set_of_ne hzero, hgiven, List.append_nil]
      rfl
  rw [hhand, LoggerState.pending, queued_of_some hque, List.append_assoc, hmove.balance,
    List.append_assoc]

/-- How far the consumer is after a step of the queue. -/
theorem LoggerInv.stage_inQueue (h : LoggerInv s) (hi : s.threads[i]? = some x)
    (hx : x.quePoint = some p) (hmove : QueueMove que i p r)
    (hthreads : r.notify.apply LogPoint.isPushParked LogPoint.isPopParked LogPoint.wake
      (s.threads.set i (x.inQueue r.next)) woken = some threads) :
    (consumerOf threads).stage = (consumerOf s.threads).stage ∨
      (que.isRunning = false ∧ (consumerOf s.threads).stage = .looping ∧
        (consumerOf threads).stage = .draining) := by
  rw [consumerOf_congr (Notify.apply_map_eq (fun y => y.stage_wake) hthreads)]
  by_cases hzero : i = 0
  · obtain rfl := hzero
    rw [consumerOf_set hi, consumerOf_eq hi]
    rcases Infra.stage_inQueue hx (h.fits 0 x hi) hmove.kind with hsame | ⟨hnext, hloop, hdrain⟩
    · exact Or.inl hsame
    · refine Or.inr ⟨?_, hloop, hdrain⟩
      cases hmove with
      | popDrained hstop => exact hstop
      | _ => exact absurd hnext (by simp)
  · rw [consumerOf_set_of_ne hzero]
    exact Or.inl rfl

/-- Nothing comes in while the asynchronous mode is turned off. -/
theorem LoggerInv.taken_of_off (h : LoggerInv s) (hi : s.threads[i]? = some x)
    (hx : x.quePoint = some p) (hmove : QueueMove que i p r) (hok : s.admits x = true)
    {phase : LogPoint.Phase} (hphase : phaseOf s.mutex s.threads = some phase)
    (hoff : phase.isOff = true) : r.next.taken = [] := by
  cases hmove with
  | @pushed data =>
      obtain ⟨y, hy, hturns⟩ := turnsOff_of_phase hphase hoff
      have hcall := kind_of_fits hx (h.fits i x hi)
      cases LogPoint.inCall hx with
      | push =>
          have hany : s.threads.any LogPoint.turnsOff = true :=
            List.any_eq_true.mpr ⟨y, hy, hturns⟩
          exact absurd hok (by simp [LoggerState.admits, hany])
      | nested =>
          -- the thread that pushes holds `_mutex` itself
          rw [h.lock.owner_eq hi rfl, phaseOf_owner hi] at hphase
          cases hphase
      | stopping | pop | size => exact absurd hcall QueueKind.noConfusion
  | _ => rfl

/-- A step inside the queue is no step of a switch, but for the store of `Stop`. -/
theorem phase_inQueue (hx : x.quePoint = some p) (hfits : x.fits i = true)
    (hmove : QueueMove que i p r) (hp : p ≠ .stopStore) : (x.inQueue r.next).phase = x.phase := by
  have hcall := kind_of_fits hx hfits
  cases LogPoint.inCall hx with
  | stopping =>
      cases hmove with
      | stopStore => exact absurd rfl hp
      | stopNotifyEmpty | stopNotifyFull => rfl
      | _ => exact absurd hcall QueueKind.noConfusion
  | push | nested | pop | size =>
      refine inQueue_congr hx hfits hmove.kind (fun _ _ => rfl) fun r' y hreturn => ?_
      cases hreturn <;> rfl

/-- The mode after a step inside the queue: only the store of `Stop` changes it. -/
theorem LoggerInv.mode_inQueue (h : LoggerInv s) (hi : s.threads[i]? = some x)
    (hx : x.quePoint = some p) (hque : s.logQue = some que) (hmove : QueueMove que i p r)
    (hthreads : r.notify.apply LogPoint.isPushParked LogPoint.isPopParked LogPoint.wake
      (s.threads.set i (x.inQueue r.next)) woken = some threads)
    (hok : s.admits x = true) :
    ModeOk s.isAsync (some r.que.isRunning) (consumerOf threads).stage
      ((consumerOf threads).hand ++ r.que.queue = []) (phaseOf s.mutex threads) := by
  have hmode := h.mode
  rw [hque, Option.map_some] at hmode
  have hphase : phaseOf s.mutex threads = phaseOf s.mutex (s.threads.set i (x.inQueue r.next)) :=
    phaseOf_congr (Notify.apply_map_eq (fun y => y.phase_wake) hthreads)
  rw [hphase, h.pending_inQueue hi hx hque hmove hthreads]
  have hstage := h.stage_inQueue hi hx hmove hthreads
  have hstable : p ≠ .stopStore → ModeOk s.isAsync (some r.que.isRunning)
      (consumerOf threads).stage (s.pending ++ r.next.taken = []) (phaseOf s.mutex s.threads) := by
    intro hp
    rw [hmove.isRunning_eq hp]
    refine hmode.stable (hstage.imp_right fun hloop => ⟨congrArg some hloop.1, hloop.2⟩) ?_
    intro ph hph hoff hdone
    rw [hdone, h.taken_of_off hi hx hmove hok hph hoff]
    rfl
  by_cases hp : p = .stopStore
  · obtain rfl := hp
    have hcall := kind_of_fits hx (h.fits i x hi)
    cases LogPoint.inCall hx with
    | stopping =>
        obtain ⟨hsync, hdone, -, hloop⟩ := h.mode_of_owner hi rfl
        rw [h.lock.owner_eq hi rfl, phaseOf_set hi]
        cases hmove
        refine ⟨hsync, ?_, rfl, ?_⟩
        · rw [hdone]
          rfl
        · rcases hstage with hsame | ⟨-, -, hdrain⟩
          · rw [hsame, hloop]
            simp
          · rw [hdrain]
            simp
    | push | nested | pop | size => exact absurd hcall QueueKind.noConfusion
  · have hsame : phaseOf s.mutex (s.threads.set i (x.inQueue r.next)) =
        phaseOf s.mutex s.threads :=
      phaseOf_congr (map_set_of_eq hi (phase_inQueue hx (h.fits i x hi) hmove hp))
    rw [hsame]
    exact hstable hp

theorem getElem?_quePoint {ts : List LogPoint} {j : Nat} {q : QueuePoint LogEvent} :
    (ts.map LogPoint.quePoint)[j]? = some (some q) ↔
      ∃ y, ts[j]? = some y ∧ y.quePoint = some q := by
  rw [List.getElem?_map, Option.map_eq_some_iff]

theorem LoggerInv.pending_of_stopped (h : LoggerInv s)
    (hi : s.threads[i]? = some (.switch (.stopping p))) (hp : p ≠ .stopStore) :
    s.pending = [] := by
  have hmode := h.mode_of_owner hi rfl
  cases p with
  | stopStore => exact absurd rfl hp
  | _ => exact hmode.2.1

/-- The notifications of `Stop` come in time, seen from the queue. -/
theorem LoggerInv.stopNoticed (h : LoggerInv s) (hi : s.threads[i]? = some x)
    (hx : x.quePoint = some p) (hok : s.admits x = true) {v w : QueueState LogEvent}
    (hque : s.logQue = some v.que) (hthreads : v.threads = s.threads.map LogPoint.quePoint)
    (hwake : WakeInv v) : StopNoticed v (.step i woken) w := by
  have hcall := kind_of_fits hx (h.fits i x hi)
  rintro j woken' ⟨⟩
  have hplace : v.threads[i]? = some (some p) := by
    rw [hthreads]
    exact getElem?_quePoint.mpr ⟨x, hi, hx⟩
  constructor
  · intro hstop j hj
    obtain rfl := Option.some.inj (Option.some.inj (hplace.symm.trans hstop))
    rw [hthreads, getElem?_quePoint] at hj
    obtain ⟨y, hy, hblock⟩ := hj
    cases LogPoint.inCall hx with
    | stopping =>
        have hany : (s.threads.any fun x => x.quePoint == some .popBlock) = true :=
          List.any_eq_true.mpr ⟨y, List.mem_of_getElem? hy, beq_iff_eq.mpr hblock⟩
        exact absurd hok (by simp [LoggerState.admits, hany])
    | push | nested | pop | size => exact absurd hcall QueueKind.noConfusion
  · intro hstop j data hj
    obtain rfl := Option.some.inj (Option.some.inj (hplace.symm.trans hstop))
    have hfull := hwake.pushBlocks j data hj
    rw [hthreads, getElem?_quePoint] at hj
    obtain ⟨y, hy, hblock⟩ := hj
    cases LogPoint.inCall hx with
    | stopping =>
        -- nothing is queued, so a producer that waits would have found room
        have hempty : v.que.queue = [] := by
          have hqueued := (List.append_eq_nil_iff.mp (h.pending_of_stopped hi (by simp))).2
          exact (queued_of_some hque).symm.trans hqueued
        have hplace := h.places j y hy
        have hycall := kind_of_fits hblock (h.fits j y hy)
        cases LogPoint.inCall hblock with
        | push =>
            have hpos := hplace rfl v.que hque
            rw [hempty] at hfull
            exact absurd hfull (Nat.not_le.mpr hpos)
        | nested => exact absurd hplace (by simp [PlaceOk, QueuePoint.waitsPush])
        | stopping | pop | size => exact absurd hycall QueueKind.noConfusion
    | push | nested | pop | size => exact absurd hcall QueueKind.noConfusion

/-- A `Push` waits for room that there can be, and an appender's does not wait. -/
theorem room_of_admits (hx : x.quePoint = some p) (hfits : x.fits i = true)
    (hque : s.logQue = some que) (hok : s.admits x = true) {data : LogEvent}
    (hp : p = .pushTest data) (hfull : que.notFull = false) :
    0 < que.maxSize ∧ ∀ caller event d, x ≠ .dispatch caller event d := by
  obtain rfl := hp
  have hcall := kind_of_fits hx hfits
  cases LogPoint.inCall hx with
  | push =>
      simp only [LoggerState.admits, hque, Option.all_some, hfull, Bool.false_or,
        decide_eq_true_eq] at hok
      exact ⟨hok, fun _ _ _ => LogPoint.noConfusion⟩
  | nested =>
      simp only [LoggerState.admits, hque, Option.all_some, hfull] at hok
      exact absurd hok Bool.false_ne_true
  | stopping | pop | size => exact absurd hcall QueueKind.noConfusion

theorem LoggerInv.places_inQueue (h : LoggerInv s) (hi : s.threads[i]? = some x)
    (hx : x.quePoint = some p) (hque : s.logQue = some que) (hmove : QueueMove que i p r)
    (hthreads : r.notify.apply LogPoint.isPushParked LogPoint.isPopParked LogPoint.wake
      (s.threads.set i (x.inQueue r.next)) woken = some threads)
    (hok : s.admits x = true) {j : Nat} {y : LogPoint} (hj : threads[j]? = some y) :
    y.fits j = true ∧ PlaceOk s.isAsync (some r.que) y := by
  have hfits := h.fits i x hi
  obtain ⟨l, hl, hcase⟩ := Notify.apply_getElem? hthreads hj
  have hplace : l.fits j = true ∧ PlaceOk s.isAsync (some r.que) l := by
    rcases getElem?_set_cases hl with ⟨rfl, rfl⟩ | ⟨-, hl⟩
    · refine ⟨fits_inQueue hx hfits hmove.kind, ?_⟩
      exact placeOk_inQueue hx hfits hmove (hque ▸ h.places j x hi)
        fun data => room_of_admits hx hfits hque hok
    · refine ⟨h.fits j l hl, (h.places j l hl).congr fun que' hque' => ?_⟩
      obtain rfl := Option.some.inj hque'
      exact ⟨que, hque, hmove.maxSize.symm⟩
  rcases hcase with rfl | ⟨hparked, rfl⟩
  · exact hplace
  · rw [LogPoint.fits_wake]
    exact ⟨hplace.1, placeOk_wake hplace.2 hparked⟩

/-- The step is a step of `SafeQueue`. -/
theorem LoggerInv.queue_inQueue (h : LoggerInv s) (hi : s.threads[i]? = some x)
    (hx : x.quePoint = some p) (hque : s.logQue = some que) (hmove : QueueMove que i p r)
    (hthreads : r.notify.apply LogPoint.isPushParked LogPoint.isPopParked LogPoint.wake
      (s.threads.set i (x.inQueue r.next)) woken = some threads)
    (hok : s.admits x = true) : QueueOk (some r.que) (threads.map LogPoint.quePoint) := by
  have hqueue := h.queue
  rw [hque] at hqueue
  obtain ⟨v, rfl, hv, hinv, hwake⟩ := hqueue
  have hplace : v.threads[i]? = some (some p) := by
    rw [hv]
    exact getElem?_quePoint.mpr ⟨x, hi, hx⟩
  have hnotified := Notify.apply_quePoint hthreads
  rw [List.map_set, quePoint_inQueue hx (h.fits i x hi) hmove.kind, ← hv] at hnotified
  have hnoticed : StopNoticed v (.step i woken) v := h.stopNoticed hi hx hok hque hv hwake
  refine ⟨_, ?_, ?_, hinv.move hplace hmove hnotified,
    hwake.move hinv hplace hmove hnotified hnoticed⟩
  · exact QueueState.record_que _ _
  · exact QueueState.record_threads _ _

/-- **A step inside the queue** keeps the invariant. -/
theorem LoggerInv.inQueue (h : LoggerInv s) (hi : s.threads[i]? = some x)
    (hx : x.quePoint = some p) (hque : s.logQue = some que) (hmove : QueueMove que i p r)
    (hthreads : r.notify.apply LogPoint.isPushParked LogPoint.isPopParked LogPoint.wake
      (s.threads.set i (x.inQueue r.next)) woken = some threads)
    (hok : s.admits x = true) :
    LoggerInv { s with
      logQue := some r.que
      accepted := s.accepted ++ r.next.taken
      threads } := by
  have hplaces : ∀ (j : Nat) y, threads[j]? = some y →
      y.fits j = true ∧ PlaceOk s.isAsync (some r.que) y := fun j y hj =>
    h.places_inQueue hi hx hque hmove hthreads hok hj
  refine ⟨h.running, fun j y hj => (hplaces j y hj).1, ?_, ?_,
    fun j y hj => (hplaces j y hj).2, ?_, ?_⟩
  · have hkeep := h.lock.keep hi (locked_inQueue hx (h.fits i x hi) hmove.kind)
    exact Notify.apply_lockOk hkeep (fun l _ => l.locked_wake) hthreads
  · exact h.mode_inQueue hi hx hque hmove hthreads hok
  · exact h.queue_inQueue hi hx hque hmove hthreads hok
  · change s.dispatched ++ ((consumerOf threads).hand ++ r.que.queue) = _
    rw [h.pending_inQueue hi hx hque hmove hthreads, ← List.append_assoc, h.ledger]

end InQueue

/-! ## Steps outside the queue -/

section Local

variable {x y : LogPoint} {i : Nat} {r : LogStep}

theorem LoggerInv.fits_set (h : LoggerInv s) (hy : y.fits i = true) :
    ∀ (j : Nat) z, (s.threads.set i y)[j]? = some z → z.fits j = true := by
  intro j z hj
  rcases getElem?_set_cases hj with ⟨rfl, rfl⟩ | ⟨-, hj⟩
  · exact hy
  · exact h.fits j z hj

theorem LoggerInv.places_set (h : LoggerInv s) (hy : PlaceOk s.isAsync s.logQue y) :
    ∀ (j : Nat) z, (s.threads.set i y)[j]? = some z → PlaceOk s.isAsync s.logQue z := by
  intro j z hj
  rcases getElem?_set_cases hj with ⟨-, rfl⟩ | ⟨-, hj⟩
  · exact hy
  · exact h.places j z hj

theorem LoggerInv.queue_set (h : LoggerInv s) (hi : s.threads[i]? = some x)
    (hx : x.quePoint = none) (hy : y.quePoint = none) :
    QueueOk s.logQue ((s.threads.set i y).map LogPoint.quePoint) := by
  rw [map_set_of_eq hi (hy.trans hx.symm)]
  exact h.queue

/-- What is left to do when a thread moves that leaves the consumer's hand as it is. -/
theorem pending_set (hi : s.threads[i]? = some x) (hhand : y.hand = x.hand) :
    (consumerOf (s.threads.set i y)).hand = s.consumer.hand :=
  consumerOf_congr (map_set_of_eq hi hhand)

theorem stage_set (hi : s.threads[i]? = some x) (hstage : y.stage = x.stage) :
    (consumerOf (s.threads.set i y)).stage = (consumerOf s.threads).stage :=
  consumerOf_congr (map_set_of_eq hi hstage)

/-- A thread goes on and changes nothing else. -/
theorem LoggerInv.moved (h : LoggerInv s) (hi : s.threads[i]? = some x) (hfits : y.fits i = true)
    (hlocked : y.locked = x.locked) (hstage : y.stage = x.stage) (hhand : y.hand = x.hand)
    (hplace : PlaceOk s.isAsync s.logQue y)
    (hqueue : QueueOk s.logQue ((s.threads.set i y).map LogPoint.quePoint))
    (hmode : ModeOk s.isAsync (s.logQue.map SafeQueue.isRunning) (consumerOf s.threads).stage
      (s.pending = []) (phaseOf s.mutex (s.threads.set i y))) :
    LoggerInv { s with threads := s.threads.set i y } := by
  have hpending : ({ s with threads := s.threads.set i y } : LoggerState).pending = s.pending :=
    congrArg (· ++ s.queued) (pending_set hi hhand)
  refine ⟨h.running, h.fits_set hfits, h.lock.keep hi hlocked, ?_, h.places_set hplace, hqueue, ?_⟩
  · rw [hpending, stage_set hi hstage]
    exact hmode
  · rw [hpending]
    exact h.ledger

/-- The same, and not as a step of a switch. -/
theorem LoggerInv.quiet (h : LoggerInv s) (hi : s.threads[i]? = some x) (hfits : y.fits i = true)
    (hlocked : y.locked = x.locked) (hstage : y.stage = x.stage) (hhand : y.hand = x.hand)
    (hphase : y.phase = x.phase) (hplace : PlaceOk s.isAsync s.logQue y)
    (hqueue : QueueOk s.logQue ((s.threads.set i y).map LogPoint.quePoint)) :
    LoggerInv { s with threads := s.threads.set i y } := by
  refine h.moved hi hfits hlocked hstage hhand hplace hqueue ?_
  rw [phaseOf_congr (map_set_of_eq hi hphase)]
  exact h.mode

theorem LoggerInv.mode_of_free (h : LoggerInv s) (hfree : s.mutex = none) :
    Settled s.isAsync (s.logQue.map SafeQueue.isRunning) (consumerOf s.threads).stage := by
  have hmode := h.mode
  rw [hfree] at hmode
  exact hmode

theorem stage_of_not_joinable (h : s.joinable = false) :
    (consumerOf s.threads).stage = .absent := by
  have habsent : s.consumer = .absent := by simpa [LoggerState.joinable] using h
  exact congrArg LogPoint.stage habsent

/-- An appender that logs finds the asynchronous mode. -/
theorem LoggerInv.placeOk_look (h : LoggerInv s) (hi : s.threads[i]? = some x)
    (hlook : LogLook s x y) (hok : s.admits x = true) : PlaceOk s.isAsync s.logQue y := by
  cases hlook with
  | callPush hque => exact fun hwaits => absurd hwaits Bool.false_ne_true
  | nestedSync hsync =>
      have hasync : s.isAsync = true := hok
      exact absurd hasync (by simp [hsync])
  | nestedAsync hasync => exact hasync
  | nestedNoQueue hque =>
      have hasync : s.isAsync = true := h.places i _ hi
      have hsettled := h.mode_of_owner hi rfl
      simp [ModeOk, Settled, LogPoint.phase, hasync, hque, InAsync] at hsettled
  | nestedPush hque => exact rfl
  | _ => trivial

/-- **A look** keeps the invariant. -/
theorem LoggerInv.look (h : LoggerInv s) (hi : s.threads[i]? = some x) (hlook : LogLook s x y)
    (hok : s.admits x = true) : LoggerInv { s with threads := s.threads.set i y } := by
  obtain ⟨hx, hy⟩ := hlook.quePoint
  have hqueue : QueueOk s.logQue ((s.threads.set i y).map LogPoint.quePoint) := by
    rw [List.map_set]
    refine h.queue.enter ?_ hy
    rw [List.getElem?_map, hi, Option.map_some, hx]
  have hplace := h.placeOk_look hi hlook hok
  refine h.moved hi (hlook.fits (h.fits i x hi)) hlook.locked hlook.stage hlook.hand hplace
    hqueue ?_
  have hsame : y.phase = x.phase → ModeOk s.isAsync (s.logQue.map SafeQueue.isRunning)
      (consumerOf s.threads).stage (s.pending = []) (phaseOf s.mutex (s.threads.set i y)) := by
    intro hphase
    rw [phaseOf_congr (map_set_of_eq hi hphase)]
    exact h.mode
  cases hlook with
  | nothingToStop hque =>
      obtain ⟨hsync, -, hmode⟩ := h.mode_of_owner hi rfl
      rw [h.lock.owner_eq hi rfl, phaseOf_set hi]
      refine ⟨hsync, hmode.resolve_right fun hasync => ?_⟩
      simp [InAsync, hque] at hasync
  | callStop hque =>
      obtain ⟨hsync, hdone, hmode⟩ := h.mode_of_owner hi rfl
      rw [h.lock.owner_eq hi rfl, phaseOf_set hi]
      refine ⟨hsync, hdone, hmode.resolve_left fun hnone => ?_⟩
      simp [InSync, hque] at hnone
  | notJoinable hjoinable =>
      obtain ⟨-, -, -, hstage⟩ := h.mode_of_owner hi rfl
      exact absurd (stage_of_not_joinable hjoinable) hstage
  | _ => exact hsame rfl

/-- A thread takes `_mutex`. -/
theorem LoggerInv.acquire (h : LoggerInv s) (hi : s.threads[i]? = some x) (hfree : s.mutex = none)
    (hfits : y.fits i = true) (hlocked : y.locked = true) (hstage : y.stage = x.stage)
    (hhand : y.hand = x.hand) (hx : x.quePoint = none) (hy : y.quePoint = none)
    (hplace : PlaceOk s.isAsync s.logQue y)
    (hmode : ModeOk s.isAsync (s.logQue.map SafeQueue.isRunning) (consumerOf s.threads).stage
      (s.pending = []) y.phase) :
    LoggerInv { s with mutex := some i, threads := s.threads.set i y } := by
  have hpending : ({ s with mutex := some i, threads := s.threads.set i y } : LoggerState).pending =
      s.pending := congrArg (· ++ s.queued) (pending_set hi hhand)
  have hlock := h.lock
  rw [hfree] at hlock
  refine ⟨h.running, h.fits_set hfits, hlock.acquire hi hlocked, ?_, h.places_set hplace,
    h.queue_set hi hx hy, ?_⟩
  · rw [hpending, stage_set hi hstage, phaseOf_set hi]
    exact hmode
  · rw [hpending]
    exact h.ledger

/-- The last appender has returned. -/
theorem LoggerInv.dispatched {caller : DispatchCaller} {event : LogEvent} (h : LoggerInv s)
    (hi : s.threads[i]? = some (.dispatch caller event .appending)) :
    LoggerInv { s with
      mutex := none
      dispatched := s.dispatched ++ caller.fromQueue event
      threads := s.threads.set i caller.next } := by
  have hfits := h.fits i _ hi
  have hstage : caller.next.stage = (LogPoint.dispatch caller event .appending).stage := by
    cases caller with
    | log => rfl
    | consumer draining => cases draining <;> rfl
  have hunlocked : caller.next.locked = false ∧ caller.next.quePoint = none := by
    cases caller with
    | log => exact ⟨rfl, rfl⟩
    | consumer draining => cases draining <;> exact ⟨rfl, rfl⟩
  -- the event goes from the consumer's hand to the dispatched ones
  have hhand : s.consumer.hand =
      caller.fromQueue event ++ (consumerOf (s.threads.set i caller.next)).hand := by
    cases caller with
    | log =>
        have hzero : i ≠ 0 := by simpa [LogPoint.fits] using hfits
        rw [consumerOf_set_of_ne hzero]
        rfl
    | consumer draining =>
        obtain rfl : i = 0 := by simpa [LogPoint.fits] using hfits
        rw [consumerOf_set hi]
        have hconsumer : s.consumer = .dispatch (.consumer draining) event .appending :=
          consumerOf_eq hi
        rw [hconsumer]
        cases draining <;> rfl
  refine ⟨h.running, h.fits_set ?_, h.lock.release hi rfl hunlocked.1, ?_,
    h.places_set (placeOk_of_outside hunlocked.1 hunlocked.2), h.queue_set hi rfl hunlocked.2, ?_⟩
  · exact (LogMove.dispatched (s := s) (i := i)).fits_next hfits
  · rw [stage_set hi hstage]
    exact h.mode_of_owner hi rfl
  · change (s.dispatched ++ caller.fromQueue event) ++
      ((consumerOf (s.threads.set i caller.next)).hand ++ s.queued) = s.accepted
    rw [← h.ledger, LoggerState.pending, hhand, List.append_assoc, List.append_assoc]

/-- `SetAsyncMode` gives `_mutex` back. -/
theorem LoggerInv.unlock {async : Bool} (h : LoggerInv s)
    (hi : s.threads[i]? = some (.switch (.unlock async))) :
    LoggerInv { s with mutex := none, threads := s.threads.set i .idle } := by
  have hpending :
      ({ s with mutex := none, threads := s.threads.set i .idle } : LoggerState).pending =
        s.pending := congrArg (· ++ s.queued) (pending_set hi rfl)
  have hstage : (consumerOf (s.threads.set i .idle)).stage = (consumerOf s.threads).stage :=
    stage_set hi rfl
  have hmode := h.mode_of_owner hi rfl
  refine ⟨h.running, h.fits_set ?_, h.lock.release hi rfl rfl, ?_, h.places_set trivial,
    h.queue_set hi rfl rfl, ?_⟩
  · simpa [LogPoint.fits] using h.fits i _ hi
  · rw [hstage]
    cases async with
    | true => exact Or.inr hmode
    | false => exact Or.inl hmode
  · rw [hpending]
    exact h.ledger

end Local

/-! ## Steps of a switch -/

section Switch

variable {i : Nat} {w w' : SwitchPoint} {c c' y : LogPoint}

/-- A step of the switch that holds `_mutex`: everybody else is outside of it. -/
structure Switching (s : LoggerState) (i : Nat) (w w' : SwitchPoint) : Prop where
  place : s.threads[i]? = some (.switch w)
  locked : (LogPoint.switch w).locked = true
  locked' : (LogPoint.switch w').locked = true
  quePoint : (LogPoint.switch w).quePoint = none
  quePoint' : (LogPoint.switch w').quePoint = none

namespace Switching

theorem ne_zero (hw : Switching s i w w') (h : LoggerInv s) : i ≠ 0 := by
  have hfits := h.fits i _ hw.place
  cases w <;> simp only [LogPoint.fits, Bool.and_eq_true, bne_iff_ne] at hfits <;>
    first | exact hfits | exact hfits.1

theorem fits (hw : Switching s i w w') (h : LoggerInv s) : (LogPoint.switch w').fits i = true := by
  have hzero := hw.ne_zero h
  have hplace := hw.quePoint'
  cases w' with
  | stopping p => cases hplace
  | _ => simpa [LogPoint.fits] using hzero

theorem others_unlocked (hw : Switching s i w w') (h : LoggerInv s) {j : Nat} {z : LogPoint}
    (hj : s.threads[j]? = some z) (hij : j ≠ i) : z.locked = false := by
  cases hz : z.locked with
  | false => rfl
  | true => exact absurd (h.lock.unique hj hz hw.place hw.locked) hij

/-- Nobody relies on what the switch writes, as long as nobody is in the queue. -/
theorem places (hw : Switching s i w w') (h : LoggerInv s) (huse : s.queueInUse = false)
    {isAsync : Bool} {logQue : Option (SafeQueue LogEvent)} :
    ∀ (j : Nat) z, (s.threads.set i (.switch w'))[j]? = some z → PlaceOk isAsync logQue z := by
  intro j z hj
  rcases getElem?_set_cases hj with ⟨-, rfl⟩ | ⟨hij, hj⟩
  · trivial
  · refine placeOk_of_outside (hw.others_unlocked h hj hij) ?_
    have hnone := List.any_eq_false.mp huse z (List.mem_of_getElem? hj)
    simpa using hnone

theorem phase (hw : Switching s i w w') (h : LoggerInv s) :
    phaseOf s.mutex (s.threads.set i (.switch w')) = (LogPoint.switch w').phase := by
  rw [h.lock.owner_eq hw.place hw.locked, phaseOf_set hw.place]

/-- The switch leaves the consumer where it is. -/
theorem consumer (hw : Switching s i w w') (h : LoggerInv s) :
    consumerOf (s.threads.set i (.switch w')) = consumerOf s.threads :=
  consumerOf_set_of_ne (hw.ne_zero h)

theorem lock (hw : Switching s i w w') (h : LoggerInv s) :
    LockOk LogPoint.locked s.mutex (s.threads.set i (.switch w')) :=
  h.lock.keep hw.place (hw.locked'.trans hw.locked.symm)

end Switching

theorem queueInUse_of_none (h : LoggerInv s) (hque : s.logQue = none) : s.queueInUse = false := by
  have hqueue := h.queue
  rw [hque] at hqueue
  refine List.any_eq_false.mpr fun x hx => ?_
  rw [hqueue _ (List.mem_map_of_mem hx)]
  exact Bool.false_ne_true

/-- Only who holds `_mutex` relies on `_isAsync`. -/
theorem PlaceOk.unlocked {isAsync isAsync' : Bool} {logQue : Option (SafeQueue LogEvent)}
    {z : LogPoint} (h : PlaceOk isAsync logQue z) (hz : z.locked = false) :
    PlaceOk isAsync' logQue z := by
  cases z with
  | dispatch caller event d =>
      cases d with
      | lock => trivial
      | _ => exact absurd hz (by simp [LogPoint.locked])
  | push p => exact h
  | _ => trivial

/-- `_isAsync` is written. -/
theorem LoggerInv.store {async : Bool} {queueSize : Nat} (h : LoggerInv s)
    (hw : Switching s i (.store async queueSize) w')
    (hnext : w' = if async then .makeQueue queueSize else .testQueue) :
    LoggerInv { s with isAsync := async, threads := s.threads.set i (.switch w') } := by
  have hmode := h.mode_of_owner hw.place hw.locked
  refine ⟨h.running, h.fits_set (hw.fits h), hw.lock h, ?_, ?_,
    h.queue_set hw.place rfl hw.quePoint', ?_⟩
  · change ModeOk async (s.logQue.map SafeQueue.isRunning)
      (consumerOf (s.threads.set i (.switch w'))).stage
      ((consumerOf (s.threads.set i (.switch w'))).hand ++ s.queued = [])
      (phaseOf s.mutex (s.threads.set i (.switch w')))
    rw [hw.phase h, hw.consumer h]
    cases async with
    | true =>
        obtain rfl := hnext
        exact ⟨rfl, hmode.2⟩
    | false =>
        obtain rfl := hnext
        exact ⟨rfl, hmode.1, hmode.2.imp And.right And.right⟩
  · intro j z hj
    rcases getElem?_set_cases hj with ⟨-, rfl⟩ | ⟨hij, hj⟩
    · trivial
    · exact (h.places j z hj).unlocked (hw.others_unlocked h hj hij)
  · change s.dispatched ++ ((consumerOf (s.threads.set i (.switch w'))).hand ++ s.queued) =
      s.accepted
    rw [hw.consumer h]
    exact h.ledger

/-- The new queue: nobody has called it. -/
theorem queueOk_make {places : List (QueueThread LogEvent)} {maxSize : Nat}
    (h : ∀ p ∈ places, p = none) : QueueOk (some { maxSize }) places := by
  have hinit : QueueInit ({ que := { maxSize }, threads := places } : QueueState LogEvent) :=
    ⟨maxSize, places.length, by rw [← List.eq_replicate_of_mem h]⟩
  exact ⟨_, rfl, rfl, queueInv_init hinit, wakeInv_init hinit⟩

theorem LoggerInv.makeQueue {queueSize : Nat} (h : LoggerInv s)
    (hw : Switching s i (.makeQueue queueSize) .startThread) :
    LoggerInv { s with
      logQue := some { maxSize := queueSize }
      status := if s.queueInUse then .undefined else s.status
      threads := s.threads.set i (.switch .startThread) } := by
  obtain ⟨hasync, hflag, hstage⟩ := h.mode_of_owner hw.place hw.locked
  have hque : s.logQue = none := Option.map_eq_none_iff.mp hflag
  have huse := queueInUse_of_none h hque
  refine ⟨?_, h.fits_set (hw.fits h), hw.lock h, ?_, hw.places h huse, ?_, ?_⟩
  · change (if s.queueInUse then _ else s.status) = _
    rw [huse]
    exact h.running
  · change ModeOk s.isAsync (some true) (consumerOf (s.threads.set i (.switch .startThread))).stage
      _ (phaseOf s.mutex (s.threads.set i (.switch .startThread)))
    rw [hw.phase h, hw.consumer h]
    exact ⟨hasync, rfl, hstage⟩
  · refine queueOk_make ?_
    have hqueue := h.queue_set hw.place hw.quePoint hw.quePoint'
    rw [hque] at hqueue
    exact hqueue
  · change s.dispatched ++ ((consumerOf (s.threads.set i (.switch .startThread))).hand ++ []) =
      s.accepted
    rw [hw.consumer h, ← queued_of_none hque]
    exact h.ledger

/-- The queue is destroyed. -/
theorem LoggerInv.reset (h : LoggerInv s) (hw : Switching s i .reset (.unlock false))
    (hok : s.admits (.switch .reset) = true) :
    LoggerInv { s with
      logQue := none
      status := if s.queueInUse then .undefined else s.status
      threads := s.threads.set i (.switch (.unlock false)) } := by
  obtain ⟨hsync, hdone, -, hstage⟩ := h.mode_of_owner hw.place hw.locked
  have huse : s.queueInUse = false := by simpa [LoggerState.admits] using hok
  obtain ⟨hhand, -⟩ := List.append_eq_nil_iff.mp hdone
  refine ⟨?_, h.fits_set (hw.fits h), hw.lock h, ?_, hw.places h huse, ?_, ?_⟩
  · change (if s.queueInUse then _ else s.status) = _
    rw [huse]
    exact h.running
  · change ModeOk s.isAsync none (consumerOf (s.threads.set i (.switch (.unlock false)))).stage
      _ (phaseOf s.mutex (s.threads.set i (.switch (.unlock false))))
    rw [hw.phase h, hw.consumer h]
    exact ⟨hsync, rfl, hstage⟩
  · rw [map_set_of_eq hw.place (hw.quePoint'.trans hw.quePoint.symm)]
    intro p hp
    obtain ⟨x, hx, rfl⟩ := List.mem_map.mp hp
    simpa using List.any_eq_false.mp huse x hx
  · change s.dispatched ++ ((consumerOf (s.threads.set i (.switch (.unlock false)))).hand ++ []) =
      s.accepted
    have hledger := h.ledger
    rw [hdone] at hledger
    rw [hw.consumer h, show (consumerOf s.threads).hand = [] from hhand]
    exact hledger

/-- Another thread comes into the place of the consumer, or the one that has ended goes. -/
theorem LoggerInv.replace (h : LoggerInv s) (hw : Switching s i w w')
    (hc : s.threads[0]? = some c) (hout : c.locked = false ∧ c.quePoint = none ∧ c.hand = [])
    (hout' : c'.locked = false ∧ c'.quePoint = none ∧ c'.hand = []) (hfits : c'.fits 0 = true)
    (hmode : ModeOk s.isAsync (s.logQue.map SafeQueue.isRunning) c'.stage (s.pending = [])
      (LogPoint.switch w').phase) :
    LoggerInv { s with threads := (s.threads.set 0 c').set i (.switch w') } := by
  have hzero := hw.ne_zero h
  have hplace : (s.threads.set 0 c')[i]? = some (.switch w) := by
    rw [List.getElem?_set_ne (Ne.symm hzero), hw.place]
  have hconsumer : consumerOf ((s.threads.set 0 c').set i (.switch w')) = c' := by
    rw [consumerOf_set_of_ne hzero, consumerOf_set hc]
  have hold : s.consumer = c := consumerOf_eq hc
  have hpending : c'.hand ++ s.queued = s.pending := by
    rw [LoggerState.pending, hold, hout.2.2, hout'.2.2]
  refine ⟨h.running, ?_, ?_, ?_, ?_, ?_, ?_⟩
  · intro j z hj
    rcases getElem?_set_cases hj with ⟨rfl, rfl⟩ | ⟨-, hj⟩
    · exact hw.fits h
    · exact h.fits_set hfits j z hj
  · exact (h.lock.keep hc (hout'.1.trans hout.1.symm)).keep hplace (hw.locked'.trans hw.locked.symm)
  · change ModeOk s.isAsync (s.logQue.map SafeQueue.isRunning)
      (consumerOf ((s.threads.set 0 c').set i (.switch w'))).stage
      ((consumerOf ((s.threads.set 0 c').set i (.switch w'))).hand ++ s.queued = [])
      (phaseOf s.mutex ((s.threads.set 0 c').set i (.switch w')))
    rw [hconsumer, hpending, h.lock.owner_eq hw.place hw.locked, phaseOf_set hplace]
    exact hmode
  · intro j z hj
    rcases getElem?_set_cases hj with ⟨-, rfl⟩ | ⟨-, hj⟩
    · trivial
    · exact h.places_set (placeOk_of_outside hout'.1 hout'.2.1) j z hj
  · rw [map_set_of_eq hplace (hw.quePoint'.trans hw.quePoint.symm)]
    exact h.queue_set hc hout.2.1 hout'.2.1
  · change s.dispatched ++
      ((consumerOf ((s.threads.set 0 c').set i (.switch w'))).hand ++ s.queued) = s.accepted
    rw [hconsumer, hpending]
    exact h.ledger

end Switch

/-! ## Every step -/

section Step

variable {x : LogPoint} {i : Nat} {woken : Option Nat} {r : LogStep} {threads : List LogPoint}

/-- There is a first thread. -/
theorem exists_first {ts : List LogPoint} (hi : ts[i]? = some x) : ∃ c, ts[0]? = some c := by
  obtain ⟨hlt, -⟩ := List.getElem?_eq_some_iff.mp hi
  exact ⟨_, List.getElem?_eq_getElem (Nat.zero_lt_of_lt hlt)⟩

theorem absent_of_stage {c : LogPoint} (hfits : c.fits 0 = true) (hstage : c.stage = .absent) :
    c = .absent := by
  cases c with
  | absent => rfl
  | dispatch caller event d =>
      cases caller with
      | log => simp [LogPoint.fits] at hfits
      | consumer draining => cases draining <;> cases hstage
  | callPop draining | pop draining p => cases draining <;> cases hstage
  | callSize | size p | ended => cases hstage
  | push p => simp [LogPoint.fits] at hfits
  | switch w => cases w <;> simp [LogPoint.fits] at hfits
  | idle | testAsync event | testQueue event => simp [LogPoint.fits] at hfits

/-- `SetAsyncMode` takes `_mutex` when the mode can be changed. -/
theorem LoggerInv.lockSwitch {async : Bool} {queueSize : Nat} (h : LoggerInv s)
    (hi : s.threads[i]? = some (.switch (.lock async queueSize))) (hfree : s.mutex = none)
    (hok : s.admits (.switch (.lock async queueSize)) = true) :
    LoggerInv { s with
      mutex := some i
      threads := s.threads.set i (.switch (.store async queueSize)) } := by
  have hsettled := h.mode_of_free hfree
  have hfits := h.fits i _ hi
  refine h.acquire hi hfree hfits rfl rfl rfl rfl rfl trivial ?_
  cases async with
  | true =>
      have habsent := stage_of_not_joinable (by simpa [LoggerState.admits] using hok)
      refine hsettled.resolve_right fun hasync => ?_
      cases habsent.symm.trans hasync.2.2
  | false =>
      have hdone : s.pending = [] := by simpa [LoggerState.admits] using hok
      exact ⟨hdone, hsettled⟩

/-- The consumer is started where there is none. -/
theorem LoggerInv.startThread (h : LoggerInv s) (hi : s.threads[i]? = some (.switch .startThread))
    (hjoinable : s.joinable = false) :
    LoggerInv { s with
      threads := (s.threads.set 0 (.callPop false)).set i (.switch (.unlock true)) } := by
  obtain ⟨c, hc⟩ := exists_first hi
  obtain rfl : c = .absent := by
    have habsent : s.consumer = .absent := by simpa [LoggerState.joinable] using hjoinable
    exact (consumerOf_eq hc).symm.trans habsent
  obtain ⟨hasync, hflag, -⟩ := h.mode_of_owner hi rfl
  exact h.replace ⟨hi, rfl, rfl, rfl, rfl⟩ hc ⟨rfl, rfl, rfl⟩ ⟨rfl, rfl, rfl⟩ rfl
    ⟨hasync, hflag, rfl⟩

/-- The consumer has ended and is joined. -/
theorem LoggerInv.joined (h : LoggerInv s) (hi : s.threads[i]? = some (.switch .joining))
    (hended : s.consumer = .ended) :
    LoggerInv { s with threads := (s.threads.set 0 .absent).set i (.switch .reset) } := by
  obtain ⟨c, hc⟩ := exists_first hi
  obtain rfl : c = .ended := (consumerOf_eq hc).symm.trans hended
  obtain ⟨hsync, hdone, hflag, -⟩ := h.mode_of_owner hi rfl
  exact h.replace ⟨hi, rfl, rfl, rfl, rfl⟩ hc ⟨rfl, rfl, rfl⟩ ⟨rfl, rfl, rfl⟩ rfl
    ⟨hsync, hdone, hflag, rfl⟩

/-- The consumer has its queue. -/
theorem LoggerInv.logQue_ne_none (h : LoggerInv s) (hi : s.threads[i]? = some x)
    (hx : x.stage ≠ .absent) (hzero : i = 0) : s.logQue ≠ none := by
  intro hque
  have hmode := h.mode
  rw [hque] at hmode
  obtain rfl := hzero
  have habsent := hmode.absent
  rw [consumerOf_eq hi] at habsent
  exact hx habsent

/-- **A step of a thread** keeps the invariant. -/
theorem LoggerInv.move (h : LoggerInv s) (hi : s.threads[i]? = some x) (hmove : LogMove s i x r)
    (hthreads : r.notify.apply LogPoint.isPushParked LogPoint.isPopParked LogPoint.wake
      (r.state.threads.set i r.next) woken = some threads)
    (hok : s.admits x = true) : LoggerInv { r.state with threads } := by
  cases hmove with
  | inQueue hx hque hstep => exact h.inQueue hi hx hque hstep hthreads hok
  | look hlook =>
      obtain rfl := Option.some.inj hthreads
      exact h.look hi hlook hok
  | lockDispatch hfree =>
      obtain rfl := Option.some.inj hthreads
      have hfits := h.fits i _ hi
      exact h.acquire hi hfree hfits rfl (LogPoint.stage_dispatch _ _ _ _)
        (LogPoint.hand_dispatch _ _ _ _) rfl rfl trivial (h.mode_of_free hfree)
  | dispatched =>
      obtain rfl := Option.some.inj hthreads
      exact h.dispatched hi
  | lockSwitch hfree =>
      obtain rfl := Option.some.inj hthreads
      exact h.lockSwitch hi hfree hok
  | turnOn | turnOff =>
      obtain rfl := Option.some.inj hthreads
      exact h.store ⟨hi, rfl, rfl, rfl, rfl⟩ rfl
  | makeQueue =>
      obtain rfl := Option.some.inj hthreads
      exact h.makeQueue ⟨hi, rfl, rfl, rfl, rfl⟩
  | replaceThread hjoinable =>
      -- there is no consumer at this point
      obtain ⟨c, hc⟩ := exists_first hi
      obtain ⟨-, -, hstage⟩ := h.mode_of_owner hi rfl
      rw [consumerOf_eq hc] at hstage
      obtain rfl := absent_of_stage (h.fits 0 c hc) hstage
      have habsent : s.consumer = .absent := consumerOf_eq hc
      exact absurd hjoinable (by simp [LoggerState.joinable, habsent])
  | startThread hjoinable =>
      obtain rfl := Option.some.inj hthreads
      exact h.startThread hi hjoinable
  | joined hended =>
      obtain rfl := Option.some.inj hthreads
      exact h.joined hi hended
  | reset =>
      obtain rfl := Option.some.inj hthreads
      exact h.reset ⟨hi, rfl, rfl, rfl, rfl⟩ hok
  | unlock =>
      obtain rfl := Option.some.inj hthreads
      exact h.unlock hi
  | @popGone draining hque =>
      have hzero : i = 0 := by simpa [LogPoint.fits] using h.fits i _ hi
      refine absurd hque (h.logQue_ne_none hi ?_ hzero)
      cases draining <;> rintro ⟨⟩
  | sizeGone hque =>
      have hzero : i = 0 := by simpa [LogPoint.fits] using h.fits i _ hi
      exact absurd hque (h.logQue_ne_none hi (by rintro ⟨⟩) hzero)

/-- **Every admitted step** keeps the invariant. -/
theorem LoggerInv.step (h : LoggerInv s) (hok : SwitchOk s event t)
    (ht : loggerStep s event = some t) : LoggerInv t := by
  obtain ⟨-, heffect⟩ := effect_of_loggerStep ht
  cases heffect with
  | @call i c hi =>
      have hfits := h.fits i _ hi
      cases c with
      | log e =>
          have hentry : (LogCall.log e).entry s.level = .idle ∨
              (LogCall.log e).entry s.level = .testAsync e := by
            simp only [LogCall.entry]
            split
            · exact Or.inl rfl
            · exact Or.inr rfl
          rcases hentry with heq | heq <;> rw [heq]
          · exact h.quiet hi hfits rfl rfl rfl rfl trivial (h.queue_set hi rfl rfl)
          · exact h.quiet hi hfits rfl rfl rfl rfl trivial (h.queue_set hi rfl rfl)
      | setAsyncMode async queueSize =>
          exact h.quiet hi hfits rfl rfl rfl rfl trivial (h.queue_set hi rfl rfl)
  | @step i woken x r threads hi hr hthreads =>
      exact h.move hi (move_of_loggerStep hr) hthreads (hok i woken x rfl hi)
  | @append i inner caller outer d hi hd =>
      have hfits := h.fits i _ hi
      rcases hd with rfl | rfl
      · exact h.quiet hi hfits rfl rfl rfl rfl trivial (h.queue_set hi rfl rfl)
      · exact h.quiet hi hfits rfl (LogPoint.stage_dispatch _ _ _ _)
          (LogPoint.hand_dispatch _ _ _ _) rfl trivial (h.queue_set hi rfl rfl)
  | @wake i x hi hparked =>
      refine h.quiet hi ?_ x.locked_wake x.stage_wake x.hand_wake x.phase_wake
        (placeOk_wake (h.places i x hi) hparked) ?_
      · rw [LogPoint.fits_wake]
        exact h.fits i x hi
      · rw [List.map_set]
        obtain ⟨p, hx, hp⟩ := LogPoint.quePoint_of_parked hparked
        rw [LogPoint.wake_of_quePoint hx, LogPoint.quePoint_atQueue hx]
        exact h.queue.wake (getElem?_quePoint.mpr ⟨x, hi, hx⟩) hp

theorem loggerInv_make (level : LogLevel) (callers : Nat) : LoggerInv (.make level callers) := by
  have hcases : ∀ (i : Nat) x, (LoggerState.make level callers).threads[i]? = some x →
      (i = 0 ∧ x = .absent) ∨ (i ≠ 0 ∧ x = .idle) := by
    intro i x hi
    cases i with
    | zero => exact Or.inl ⟨rfl, (Option.some.inj hi).symm⟩
    | succ i =>
        have hmem : x ∈ List.replicate callers LogPoint.idle := List.mem_of_getElem? hi
        exact Or.inr ⟨Nat.succ_ne_zero i, List.eq_of_mem_replicate hmem⟩
  refine ⟨rfl, ?_, LockOk.init ?_, ?_, ?_, ?_, rfl⟩
  · intro i x hi
    rcases hcases i x hi with ⟨rfl, rfl⟩ | ⟨hne, rfl⟩
    · rfl
    · simpa [LogPoint.fits] using hne
  · intro x hx
    obtain ⟨i, hi⟩ := List.mem_iff_getElem?.mp hx
    rcases hcases i x hi with ⟨-, rfl⟩ | ⟨-, rfl⟩ <;> rfl
  · exact Or.inl ⟨rfl, rfl, rfl⟩
  · intro i x hi
    rcases hcases i x hi with ⟨-, rfl⟩ | ⟨-, rfl⟩ <;> trivial
  · intro p hp
    obtain ⟨x, hx, rfl⟩ := List.mem_map.mp hp
    obtain ⟨i, hi⟩ := List.mem_iff_getElem?.mp hx
    rcases hcases i x hi with ⟨-, rfl⟩ | ⟨-, rfl⟩ <;> rfl

end Step

/-! ## No deadlock -/

section Stuck

variable {x : LogPoint} {i : Nat} {p : QueuePoint LogEvent} {que : SafeQueue LogEvent}

/-- No thread can take a step. -/
def Stuck (s : LoggerState) : Prop :=
  ∀ (i : Nat) x, s.threads[i]? = some x → s.step i x = none

theorem stuck_of_loggerStep (hrun : s.status = .running)
    (hstuck : ∀ i woken, loggerStep s (.step i woken) = none) : Stuck s := by
  intro i x hi
  cases hr : s.step i x with
  | none => rfl
  | some r =>
      obtain ⟨woken, threads, hthreads⟩ := r.notify.exists_apply LogPoint.isPushParked
        LogPoint.isPopParked LogPoint.wake (r.state.threads.set i r.next)
      have hstep : loggerStep s (.step i woken) = some { r.state with threads } := by
        simp [loggerStep, hrun, hi, hr, hthreads]
      exact absurd hstep (by simp [hstuck])

theorem step_of_quePoint (hx : x.quePoint = some p) : s.step i x = s.callStep i x p := by
  cases LogPoint.inCall hx <;> rfl

/-- **Inside the queue** nobody is stuck but for a reason. -/
theorem LoggerInv.stuck_inQueue (h : LoggerInv s) (hstuck : Stuck s)
    (hi : s.threads[i]? = some x) (hx : x.quePoint = some p) :
    ∃ que, s.logQue = some que ∧ que.isRunning = true ∧
      (p.isPopParked = true ∧ que.queue = [] ∨
        p.isPushParked = true ∧ que.maxSize ≤ que.queue.length) := by
  have hqueue := h.queue
  cases hque : s.logQue with
  | none =>
      rw [hque] at hqueue
      have hnone := hqueue _ (List.mem_map_of_mem (List.mem_of_getElem? hi))
      cases hnone.symm.trans hx
  | some que =>
      rw [hque] at hqueue
      obtain ⟨v, rfl, hv, hinv, hwake⟩ := hqueue
      have hvstuck : ∀ j woken, queueStep v (.step j woken) = none := by
        intro j woken
        cases ht : queueStep v (.step j woken) with
        | none => rfl
        | some t =>
            cases effect_of_queueStep ht with
            | @step _ _ q r threads hj hr hthreads =>
                rw [hv, getElem?_quePoint] at hj
                obtain ⟨y, hy, hyq⟩ := hj
                have hnone := hstuck j y hy
                rw [step_of_quePoint hyq, LoggerState.callStep, hque] at hnone
                simp [hr] at hnone
      refine ⟨v.que, rfl, hinv.stuck hwake hvstuck (i := i) ?_⟩
      rw [hv]
      exact getElem?_quePoint.mpr ⟨x, hi, hx⟩

/-- A thread that is stuck inside the queue is parked in `Push` or in `Pop`. -/
theorem LoggerInv.kind_of_stuck (h : LoggerInv s) (hstuck : Stuck s)
    (hi : s.threads[i]? = some x) (hx : x.quePoint = some p) :
    p.kind = .pop ∧ p = .popParked ∨ p.kind = .push ∧ p.waitsPush = true := by
  obtain ⟨que, -, -, ⟨hp, -⟩ | ⟨hp, -⟩⟩ := h.stuck_inQueue hstuck hi hx
  · cases p with
    | popParked => exact Or.inl ⟨rfl, rfl⟩
    | _ => exact absurd hp Bool.false_ne_true
  · cases p with
    | pushParked data => exact Or.inr ⟨rfl, rfl⟩
    | _ => exact absurd hp Bool.false_ne_true

/-- The places of threads that cannot go on. -/
inductive StuckAt (s : LoggerState) : LogPoint → Prop where
  | resting {x : LogPoint} : x.resting = true → StuckAt s x
  | dispatch {caller event} : s.mutex ≠ none → StuckAt s (.dispatch caller event .lock)
  | switch {async queueSize} : s.mutex ≠ none → StuckAt s (.switch (.lock async queueSize))
  | push {p : QueuePoint LogEvent} : p.waitsPush = true → StuckAt s (.push p)
  | joining : s.consumer ≠ .ended → StuckAt s (.switch .joining)

theorem mutex_ne_none {next : LogPoint} (h : s.lock i next = none) : s.mutex ≠ none := by
  intro hfree
  simp [LoggerState.lock, hfree] at h

theorem LoggerInv.stuckAt (h : LoggerInv s) (hstuck : Stuck s) (hi : s.threads[i]? = some x) :
    StuckAt s x := by
  have hnone := hstuck i x hi
  have hfits := h.fits i x hi
  have hplace := h.places i x hi
  cases x with
  | idle | absent | ended => exact .resting rfl
  | testAsync event | testQueue event | callPop draining | callSize => cases hnone
  | push p =>
      rcases h.kind_of_stuck hstuck hi rfl with ⟨hkind, -⟩ | ⟨-, hwaits⟩
      · cases hkind.symm.trans (kind_of_fits rfl hfits)
      · exact .push hwaits
  | pop draining p =>
      rcases h.kind_of_stuck hstuck hi rfl with ⟨-, rfl⟩ | ⟨hkind, -⟩
      · exact .resting rfl
      · cases hkind.symm.trans (kind_of_fits rfl hfits)
  | size p =>
      rcases h.kind_of_stuck hstuck hi rfl with ⟨hkind, -⟩ | ⟨hkind, -⟩
      · cases hkind.symm.trans (kind_of_fits rfl hfits)
      · cases hkind.symm.trans (kind_of_fits rfl hfits)
  | dispatch caller event d =>
      cases d with
      | lock => exact .dispatch (mutex_ne_none hnone)
      | appending | nestedAsync inner | nestedQueue inner => cases hnone
      | nestedPush p =>
          rcases h.kind_of_stuck hstuck hi rfl with ⟨hkind, -⟩ | ⟨-, hwaits⟩
          · cases hkind.symm.trans (kind_of_fits rfl hfits)
          · cases hwaits.symm.trans hplace
      | nestedLock inner => exact hplace.elim
  | switch w =>
      cases w with
      | lock async queueSize => exact .switch (mutex_ne_none hnone)
      | joining =>
          refine .joining fun hended => ?_
          simp [LoggerState.step, LoggerState.switchStep, hended] at hnone
      | stopping p =>
          rcases h.kind_of_stuck hstuck hi rfl with ⟨hkind, -⟩ | ⟨hkind, -⟩
          · cases hkind.symm.trans (kind_of_fits rfl hfits)
          · cases hkind.symm.trans (kind_of_fits rfl hfits)
      | store async queueSize | makeQueue queueSize | startThread | testQueue | testJoinable
      | reset | unlock async => cases hnone

/-- The consumer, when it is there and has not ended, waits for the next event or has one in
hand. -/
theorem LoggerInv.stuck_consumer (h : LoggerInv s) (hstuck : Stuck s) {c : LogPoint}
    (hc : s.threads[0]? = some c) (hstage : c.stage ≠ .absent) (hended : c ≠ .ended) :
    (∃ draining, c = .pop draining .popParked) ∨ (c.hand ≠ [] ∧ s.mutex ≠ none) := by
  have hfits := h.fits 0 c hc
  cases h.stuckAt hstuck hc with
  | resting hrest =>
      cases c with
      | pop draining p =>
          cases p with
          | popParked => exact Or.inl ⟨draining, rfl⟩
          | _ => exact absurd hrest Bool.false_ne_true
      | absent => exact absurd rfl hstage
      | ended => exact absurd rfl hended
      | idle => exact absurd hfits Bool.false_ne_true
      | _ => exact absurd hrest Bool.false_ne_true
  | @dispatch caller event hmutex =>
      cases caller with
      | log => exact absurd hfits Bool.false_ne_true
      | consumer draining => exact Or.inr ⟨List.cons_ne_nil _ _, hmutex⟩
  | switch | push | joining => exact absurd rfl hstage

theorem stage_first {stage : LogPoint.Stage} (hstage : (consumerOf s.threads).stage = stage)
    (hne : stage ≠ .absent) : ∃ c, s.threads[0]? = some c ∧ s.consumer = c ∧ c.stage = stage := by
  cases hc : s.threads[0]? with
  | none =>
      unfold consumerOf at hstage
      rw [hc] at hstage
      exact absurd hstage.symm hne
  | some c =>
      rw [consumerOf_eq hc] at hstage
      exact ⟨c, rfl, consumerOf_eq hc, hstage⟩

/-- **Who holds `_mutex` can go on**: when it waits for the consumer, the consumer needs
nothing that it holds. -/
theorem LoggerInv.stuck_free (h : LoggerInv s) (hstuck : Stuck s) : s.mutex = none := by
  cases hmutex : s.mutex with
  | none => rfl
  | some j =>
      obtain ⟨x, hj, hlocked⟩ := (h.lock j).mp hmutex
      cases h.stuckAt hstuck hj with
      | resting hrest => cases x <;> simp_all [LogPoint.resting, LogPoint.locked]
      | dispatch | switch | push => exact absurd hlocked Bool.false_ne_true
      | joining hended =>
          obtain ⟨-, hdone, hflag, hstage⟩ := h.mode_of_owner hj rfl
          obtain ⟨c, hc, hconsumer, -⟩ := stage_first rfl hstage
          rw [consumerOf_eq hc] at hstage
          rw [hconsumer] at hended
          rcases h.stuck_consumer hstuck hc hstage hended with ⟨draining, rfl⟩ | ⟨hhand, -⟩
          · -- the queue would run
            obtain ⟨que, hque, hrun, -⟩ := h.stuck_inQueue hstuck hc rfl
            rw [hque, Option.map_some, hrun] at hflag
            cases hflag
          · rw [LoggerState.pending, hconsumer] at hdone
            exact absurd (List.append_eq_nil_iff.mp hdone).1 hhand

/-- Without a queue nothing is left to do. -/
theorem pending_of_inSync
    (h : InSync (s.logQue.map SafeQueue.isRunning) (consumerOf s.threads).stage)
    (hinv : LoggerInv s) : s.pending = [] := by
  have hqueued : s.queued = [] := queued_of_none (Option.map_eq_none_iff.mp h.1)
  have hhand : s.consumer.hand = [] := by
    change (consumerOf s.threads).hand = []
    cases hc : s.threads[0]? with
    | none =>
        unfold consumerOf
        rw [hc]
        rfl
    | some c =>
        have hstage := h.2
        rw [consumerOf_eq hc] at hstage ⊢
        rw [absent_of_stage (hinv.fits 0 c hc) hstage]
        rfl
  rw [LoggerState.pending, hhand, hqueued]
  rfl

/-- **No deadlock.** -/
theorem LoggerInv.not_deadlock (h : LoggerInv s) : ¬ Deadlock s := by
  intro hdead
  have hstuck := stuck_of_loggerStep h.running hdead.stuck
  have hfree := h.stuck_free hstuck
  have hsettled := h.mode_of_free hfree
  -- a consumer that loops waits for an event in an empty queue
  have hpending : s.pending = [] := by
    rcases hsettled with ⟨-, hsync⟩ | ⟨-, -, hloop⟩
    · exact pending_of_inSync hsync h
    · obtain ⟨c, hc, hconsumer, hstage⟩ := stage_first hloop (by simp)
      have hended : c ≠ .ended := by
        rintro rfl
        cases hstage
      have hthere : c.stage ≠ .absent := by
        rw [hstage]
        simp
      rcases h.stuck_consumer hstuck hc hthere hended with ⟨draining, rfl⟩ | ⟨-, hmutex⟩
      · obtain ⟨que, hque, -, ⟨-, hempty⟩ | ⟨hparked, -⟩⟩ := h.stuck_inQueue hstuck hc rfl
        · rw [LoggerState.pending, hconsumer, queued_of_some hque]
          exact hempty
        · exact absurd hparked Bool.false_ne_true
      · exact absurd hfree hmutex
  rcases hdead.unfinished with hne | ⟨x, hx, hrest⟩
  · exact hne hpending
  · obtain ⟨i, hi⟩ := List.mem_iff_getElem?.mp hx
    cases h.stuckAt hstuck hi with
    | resting hrest' => exact absurd hrest (by simp [hrest'])
    | dispatch hmutex | switch hmutex => exact hmutex hfree
    | push hwaits =>
        -- a full queue that has room for something holds something
        obtain ⟨que, hque, -, ⟨hpop, -⟩ | ⟨-, hfull⟩⟩ := h.stuck_inQueue hstuck hi rfl
        · rename_i p
          cases p with
          | popParked => exact absurd hwaits Bool.false_ne_true
          | _ => exact absurd hpop Bool.false_ne_true
        · have hpos := h.places i _ hi hwaits que hque
          have hempty : que.queue = [] :=
            (queued_of_some hque).symm.trans (List.append_eq_nil_iff.mp hpending).2
          rw [hempty] at hfull
          exact absurd hfull (Nat.not_le.mpr hpos)
    | joining =>
        have howner := h.lock.owner_eq hi rfl
        cases hfree.symm.trans howner

end Stuck

/-! ## Whole runs -/

theorem LoggerInv.safe (h : LoggerInv s) : SwitchSafe s := by
  refine ⟨h.running, h.not_deadlock, ?_, h.ledger, ?_⟩
  · intro i hi
    exact (h.mode_of_owner hi rfl).2.1
  · intro i hi
    have hpending := pending_of_inSync (h.mode_of_owner hi rfl).2 h
    have hledger := h.ledger
    rw [hpending, List.append_nil] at hledger
    exact hledger

/-- **Changing the mode neither blocks nor loses**, in every run whose steps are admitted:
for any number of callers, every capacity and every order of their calls, of the steps of
the consumer and of what the appenders log. -/
theorem mode_switch_safe (level : LogLevel) (callers : Nat) {events : List LoggerEvent}
    (hok : AllSteps loggerStep SwitchOk (.make level callers) events) :
    AllStates loggerStep SwitchSafe (.make level callers) events := by
  have hstep : ∀ s event t, LoggerInv s → SwitchOk s event t → loggerStep s event = some t →
      LoggerInv t := fun _ _ _ h => h.step
  exact (allStates_invariant hstep events _ (loggerInv_make level callers) hok).mono
    fun _ h => h.safe

/-- The condition on a step, tested. -/
def switchOk (s : LoggerState) : LoggerEvent → Bool
  | .step i _ => (s.threads[i]?).all s.admits
  | _ => true

theorem switchOk_of_check (h : switchOk s event = true) : SwitchOk s event t := by
  rintro i woken x rfl hi
  simpa [switchOk, hi] using h

/-- An event is logged while the consumer waits, it is dispatched, and the asynchronous mode
is turned off. -/
theorem mode_switch_safe_one_event : ∃ (events : List LoggerEvent) (s : LoggerState),
    run loggerStep (.make .info 2) events = some s ∧ s.accepted = [{ level := .warn }] ∧
      s.dispatched = s.accepted ∧ s.logQue = none ∧
      AllStates loggerStep SwitchSafe (.make .info 2) events := by
  let steps (i n : Nat) : List LoggerEvent := List.replicate n (.step i none)
  let events : List LoggerEvent :=
    [.call 1 (.setAsyncMode true 1)] ++ steps 1 5 ++ steps 0 4 ++
    [.call 2 (.log { level := .warn })] ++ steps 2 5 ++ [.step 2 (some 0)] ++ steps 0 10 ++
    [.call 1 (.setAsyncMode false 0)] ++ steps 1 7 ++ steps 0 6 ++ steps 1 3
  let last : LoggerState := {
    threads := [.absent, .idle, .idle]
    accepted := [{ level := .warn }]
    dispatched := [{ level := .warn }] }
  have hrun : run loggerStep (.make .info 2) events = some last := by decide +kernel
  have hcheck : checkSteps loggerStep switchOk (.make .info 2) events = true := by decide +kernel
  have hok : AllSteps loggerStep SwitchOk (.make .info 2) events :=
    .of_check hcheck fun _ _ _ => switchOk_of_check
  exact ⟨events, last, hrun, rfl, rfl, rfl, mode_switch_safe .info 2 hok⟩

/-- One event is in the queue when `SetAsyncMode(false)` takes `_mutex`: the consumer waits
for `_mutex` to dispatch it, and `SetAsyncMode` for the consumer. -/
theorem switch_with_queued_event_deadlocks : ¬ ∀ (level : LogLevel) (callers : Nat)
    (events : List LoggerEvent), AllStates loggerStep SwitchSafe (.make level callers) events := by
  intro h
  let steps (i n : Nat) : List LoggerEvent := List.replicate n (.step i none)
  let events : List LoggerEvent :=
    [.call 1 (.setAsyncMode true 1)] ++ steps 1 5 ++
    [.call 2 (.log { level := .warn })] ++ steps 2 6 ++
    [.call 1 (.setAsyncMode false 0)] ++ steps 1 7 ++ steps 0 5
  let dead : LoggerState := {
    logQue := some { maxSize := 1, isRunning := false }
    mutex := some 1
    threads := [.dispatch (.consumer false) { level := .warn } .lock, .switch .joining, .idle]
    accepted := [{ level := .warn }] }
  have hrun : run loggerStep (.make .info 2) events = some dead := by decide +kernel
  have hstuck : ∀ i woken, loggerStep dead (.step i woken) = none := by
    rintro (_ | _ | _ | i) woken <;> rfl
  exact ((h .info 2 events).last hrun).live ⟨Or.inl (by decide), hstuck⟩

end AsioServer.Infra
