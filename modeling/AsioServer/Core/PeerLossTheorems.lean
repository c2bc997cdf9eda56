/-
AsioServer.Core.PeerLossTheorems — when the worker survives the loss of a session.

The exception of `remote_endpoint()` leaves `AssistProcessMsg` and `ProcessMsg`, so one lost
session takes the messages of all others with it (`lost_session_ends_worker`). `FrontReached`
is the condition that the session of a message with a registered service can still be reached
when the worker comes to the message, in the loop of `ProcessMsg` or in the one that empties
the queue. `worker_survives_iff` says that nothing else keeps a message from its service.
-/
import AsioServer.Core.LogicSystemTheorems
import AsioServer.Core.PeerLoss

namespace AsioServer.Core

open AsioServer.Lib

variable {registered : UInt16 → Bool}

/-! ## The property and its condition -/

/-- What the other sessions may count on, whoever goes away. -/
structure Survives (registered : UInt16 → Bool) (s : LogicSystem) : Prop where
  /-- No exception has left `ProcessMsg`. -/
  returns : s.worker ≠ .terminated
  /-- The messages taken off the queue and those still in it are the posted ones. -/
  fifo : s.taken ++ s.msgQue = s.posted
  /-- Those with a registered service were handed to it, once each and in order. -/
  dispatched : s.handled = s.taken.filter (LogicNode.known registered)
  /-- While a message is queued, the worker goes on, or an IO thread with the lock does. -/
  goesOn : s.msgQue ≠ [] → s.worker ≠ .ended → ∃ e t, logicStep registered s e = some t ∧
    ((∃ b, e = .worker b) ∨ ∃ i, e = .poster i ∧ s.owner = some (i + 1))
  /-- `ProcessMsg` returns on an empty queue. -/
  empties : ∀ e t, logicStep registered s e = some t → t.worker = .ended → s.worker ≠ .ended →
    s.msgQue = []

/-- `AssistProcessMsg` comes next. -/
def WorkerPoint.assists : WorkerPoint → Bool
  | assisting | draining => true
  | _ => false

/-- When the worker comes to a message with a registered service, its session is reached. -/
def FrontReached (registered : UInt16 → Bool) (s : PeerSystem) (event : PeerEvent)
    (_ : PeerSystem) : Prop :=
  event = .worker → s.logic.worker.assists = true → ∀ node, s.logic.msgQue.head? = some node →
    node.known registered = true → s.reaches node = true

/-! ## The worker -/

section Worker

variable {s t : LogicSystem}

/-- A message that is queued is come to. -/
theorem LogicInv.goesOn (h : LogicInv registered s) (hlive : s.worker ≠ .terminated)
    (hqueue : s.msgQue ≠ []) (hended : s.worker ≠ .ended) :
    ∃ e t, logicStep registered s e = some t ∧
      ((∃ b, e = .worker b) ∨ ∃ i, e = .poster i ∧ s.owner = some (i + 1)) := by
  cases howner : s.owner with
  | some j =>
      rcases h.owner_goesOn howner with ⟨t, ht⟩ | ⟨i, t, rfl, ht⟩
      · exact ⟨.worker true, t, ht, Or.inl ⟨true, rfl⟩⟩
      · exact ⟨.poster i, t, ht, Or.inr ⟨i, rfl, rfl⟩⟩
  | none =>
      have hparked : s.worker ≠ .parked := by
        -- who is about to notify has the lock
        intro hparked
        have hok := h.worker
        rw [hparked] at hok
        obtain ⟨i, p, hi, -, hlocked⟩ := locked_of_wakePending (hok.resolve_left hqueue)
        have hlock := h.lock
        rw [howner] at hlock
        have hfree := hlock.free (posters_locked hi)
        exact absurd (hlocked.symm.trans hfree) (by decide)
      obtain ⟨t, ht⟩ := h.worker_goesOn howner hparked hended hlive
      exact ⟨.worker true, t, ht, Or.inl ⟨true, rfl⟩⟩

/-- `ProcessMsg` returns on an empty queue. -/
theorem queue_of_ended {e : LogicEvent} (ht : logicStep registered s e = some t)
    (hended : t.worker = .ended) (hbefore : s.worker ≠ .ended) : s.msgQue = [] := by
  have hwake : s.worker.wake ≠ .ended := by
    cases hw : s.worker with
    | ended => exact absurd hw hbefore
    | _ => exact WorkerPoint.noConfusion
  cases move_of_logicStep ht with
  | drained hw hnil => exact hnil
  | post | entered | pushed | foundOne | foundMore | left | stopped | joined =>
      exact absurd hended hbefore
  | notified | wake | stopNotified => exact absurd hended hwake
  | drainedOne hw hassist => exact absurd (hassist.worker.symm.trans hended) hbefore
  | _ => exact WorkerPoint.noConfusion hended

/-- The worker survives exactly when no exception leaves it. -/
theorem LogicInv.survives_iff (h : LogicInv registered s) :
    Survives registered s ↔ s.worker ≠ .terminated := by
  constructor
  · exact Survives.returns
  · intro hlive
    exact ⟨hlive, h.ledger, h.handled hlive, fun hqueue hended => h.goesOn hlive hqueue hended,
      fun _ _ ht hended hbefore => queue_of_ended ht hended hbefore⟩

/-- `AssistProcessMsg` throws exactly when the service is registered and the endpoint cannot
be read. -/
theorem assistProcessMsg_throws_iff {b : Bool} {r : LogicSystem × Except Unit Bool}
    (h : s.assistProcessMsg registered b = some r) :
    r.2 = .error () ↔ b = false ∧
      ∃ node, s.msgQue.head? = some node ∧ node.known registered = true := by
  unfold LogicSystem.assistProcessMsg at h
  split at h
  · exact absurd h (by simp)
  · next node rest hque =>
    rw [hque]
    split at h
    · next hunknown =>
      obtain rfl := Option.some.inj h
      have hunknown : node.known registered = false := by
        simpa [LogicNode.known] using hunknown
      simp [hunknown]
    · next hknown =>
      split at h
      · next hthrows =>
        obtain rfl := Option.some.inj h
        simpa [LogicNode.known] using And.intro hthrows hknown
      · next hreturns =>
        obtain rfl := Option.some.inj h
        have hreturns : b = true := by simpa using hreturns
        simp [hreturns]

/-- The worker's step throws exactly when `AssistProcessMsg` comes next and throws. -/
theorem terminated_iff {b : Bool} (ht : logicStep registered s (.worker b) = some t) :
    t.worker = .terminated ↔ s.worker.assists = true ∧ b = false ∧
      ∃ node, s.msgQue.head? = some node ∧ node.known registered = true := by
  have hassist : ∀ {r}, s.assistProcessMsg registered b = some r →
      (t.worker = .terminated ↔ r.2 = .error ()) → s.worker.assists = true →
      (t.worker = .terminated ↔ s.worker.assists = true ∧ b = false ∧
        ∃ node, s.msgQue.head? = some node ∧ node.known registered = true) := by
    intro r hr hthrows hw
    rw [hthrows, assistProcessMsg_throws_iff hr]
    exact ⟨fun h => ⟨hw, h⟩, And.right⟩
  simp only [logicStep] at ht
  cases hw : s.worker <;> rw [hw] at ht hassist <;> simp only [LogicSystem.workerStep] at ht
  case assisting =>
    obtain ⟨⟨u, r⟩, hr, rfl⟩ := Option.map_eq_some_iff.mp ht
    refine hassist hr ?_ rfl
    cases r <;> simp
  case draining =>
    split at ht
    · next hnil =>
      obtain rfl := Option.some.inj ht
      have hnil : s.msgQue = [] := by simpa using hnil
      simp [hnil]
    · obtain ⟨⟨u, r⟩, hr, rfl⟩ := Option.map_eq_some_iff.mp ht
      refine hassist hr ?_ rfl
      have hsame : u.worker = .draining := (assisted_of_some hr).worker.trans hw
      cases r <;> simp [hsame]
  case entering | woken =>
    split at ht
    · obtain rfl := Option.some.inj ht
      simp [WorkerPoint.assists]
    · exact absurd ht (by simp)
  case testing =>
    obtain rfl := Option.some.inj ht
    simp only [WorkerPoint.assists]
    split <;> simp
  case working =>
    obtain rfl := Option.some.inj ht
    simp only [WorkerPoint.assists]
    split <;> simp
  case blocking | leaving =>
    obtain rfl := Option.some.inj ht
    simp [WorkerPoint.assists]
  case parked | ended | terminated => exact absurd ht (by simp)

end Worker

/-! ## Every run -/

section Peers

variable {s t : PeerSystem} {event : PeerEvent}

/-- A step is the loss of a session or a step of the threads. -/
theorem peerStep_cases (ht : peerStep registered s event = some t) :
    (t.logic = s.logic ∧ s.label event = none) ∨
      ∃ e, s.label event = some e ∧ logicStep registered s.logic e = some t.logic := by
  cases event with
  | lose session =>
      obtain rfl := Option.some.inj ht
      exact Or.inl ⟨rfl, rfl⟩
  | post | poster | worker | wake | destructor =>
      simp only [peerStep, Option.bind_eq_bind, Option.pure_def, Option.bind_eq_some_iff,
        Option.some.injEq] at ht
      obtain ⟨e, he, logic, hlogic, rfl⟩ := ht
      exact Or.inr ⟨e, he, hlogic⟩

theorem LogicInv.peerStep (h : LogicInv registered s.logic)
    (ht : peerStep registered s event = some t) : LogicInv registered t.logic := by
  rcases peerStep_cases ht with ⟨hsame, -⟩ | ⟨e, -, he⟩
  · exact hsame ▸ h
  · exact h.step he

/-- **One step**: the worker survives it exactly when the session is reached. -/
theorem terminated_iff_not_reached (hlive : s.logic.worker ≠ .terminated)
    (ht : peerStep registered s event = some t) :
    t.logic.worker ≠ .terminated ↔ FrontReached registered s event t := by
  rcases peerStep_cases ht with ⟨hsame, hnone⟩ | ⟨e, hlabel, he⟩
  · rw [hsame]
    refine iff_of_true hlive fun hevent => ?_
    rw [hevent] at hnone
    exact absurd hnone (by simp [PeerSystem.label])
  · by_cases hevent : event = .worker
    · obtain rfl := hevent
      obtain rfl := Option.some.inj hlabel
      rw [Ne, terminated_iff he]
      constructor
      · intro hno _ hassists node hhead hknown
        by_contra hlost
        refine hno ⟨hassists, ?_, node, hhead, hknown⟩
        simpa [PeerSystem.endpointOk, hhead] using hlost
      · rintro hok ⟨hassists, hendpoint, node, hhead, hknown⟩
        have hreached := hok rfl hassists node hhead hknown
        simp [PeerSystem.endpointOk, hhead, hreached] at hendpoint
    · refine iff_of_true (live_step he hlive ?_) fun heq => absurd heq hevent
      rintro rfl
      cases event <;> simp [PeerSystem.label] at hlabel hevent

end Peers

/-- **The worker survives its peers** exactly when it comes to no message with a registered
service whose session is lost: for every number of IO threads, every order of posts, steps
and losses, and with the stop at any time. -/
theorem worker_survives_iff (registered : UInt16 → Bool) {s : PeerSystem} (h : PeerInit s)
    (events : List PeerEvent) :
    AllStates (peerStep registered) (fun s => Survives registered s.logic) s events ↔
      AllSteps (peerStep registered) (FrontReached registered) s events := by
  have hinv : ∀ s e t, LogicInv registered s.logic → peerStep registered s e = some t →
      LogicInv registered t.logic := fun _ _ _ hs ht => hs.peerStep ht
  have hstep : ∀ s e t, LogicInv registered s.logic → Survives registered s.logic →
      peerStep registered s e = some t →
      (Survives registered t.logic ↔ FrontReached registered s e t) := by
    intro s e t hs hsurvives ht
    rw [(hs.peerStep ht).survives_iff]
    exact terminated_iff_not_reached hsurvives.returns ht
  have hstart : LogicInv registered s.logic := logicInv_init h.1
  refine allStates_iff_allSteps hinv hstep events s hstart (hstart.survives_iff.mpr ?_)
  obtain ⟨n, hn⟩ := h.1
  rw [hn]
  exact WorkerPoint.noConfusion

/-- Whether the worker comes to a message of a lost session. -/
def frontReached (registered : UInt16 → Bool) (s : PeerSystem) : PeerEvent → Bool
  | .worker => !s.logic.worker.assists ||
      s.logic.msgQue.head?.all fun node => !node.known registered || s.reaches node
  | _ => true

theorem frontReached_of_check {s t : PeerSystem} {event : PeerEvent}
    (h : frontReached registered s event = true) : FrontReached registered s event t := by
  rintro rfl hassists node hhead hknown
  simpa [frontReached, hassists, hhead, hknown] using h

/-- Session 7 is lost with a message of an unknown service in the queue, and session 8's
message is dispatched after it. -/
theorem unknown_message_of_lost_session :
    let node (session : Nat) (serviceId : UInt16) : LogicNode :=
      ⟨session, { header := { serviceId := serviceId } }⟩
    let s : PeerSystem := { logic := { posters := [.idle, .idle] } }
    let events : List PeerEvent := [.post 0 (node 7 5), .poster 0, .poster 0, .poster 0, .poster 0,
      .poster 0, .lose 7, .post 1 (node 8 1), .poster 1, .poster 1, .poster 1, .poster 1] ++
      List.replicate 11 .worker
    (run (peerStep fun id => id == 1) s events).map (fun t => t.logic.handled) = some [node 8 1] ∧
      AllStates (peerStep fun id => id == 1) (fun s => Survives (fun id => id == 1) s.logic) s
        events := by
  intro node s events
  have hcheck : checkSteps (peerStep fun id => id == 1) (frontReached fun id => id == 1) s events =
      true := by decide +kernel
  have hok : AllSteps (peerStep fun id => id == 1) (FrontReached fun id => id == 1) s events :=
    .of_check hcheck fun _ _ _ => frontReached_of_check
  exact ⟨by decide +kernel, (worker_survives_iff _ ⟨⟨2, rfl⟩, rfl⟩ events).mpr hok⟩

/-- Session 7 disconnects with a message in the queue: the worker ends with an exception, in
its loop and while it empties the queue at the stop, and the message of session 8 stays. -/
theorem lost_session_ends_worker :
    let node (session : Nat) : LogicNode := ⟨session, { header := { serviceId := 1 } }⟩
    let s : PeerSystem := { logic := { posters := [.idle, .idle] } }
    let post : List PeerEvent := [.post 0 (node 7), .poster 0, .poster 0, .poster 0, .poster 0,
      .poster 0, .lose 7, .post 1 (node 8), .poster 1, .poster 1, .poster 1, .poster 1]
    let work : List PeerEvent := List.replicate 4 .worker
    PeerInit s ∧
      (∀ events, events = post ++ work ∨ events = post ++ .destructor :: work →
        ¬ AllStates (peerStep fun _ => true) (fun s => Survives (fun _ => true) s.logic) s events ∧
        (run (peerStep fun _ => true) s events).map
          (fun t => (t.logic.worker, t.logic.msgQue, t.logic.handled)) =
            some (.terminated, [node 8], [])) := by
  intro node s post work
  refine ⟨⟨⟨2, rfl⟩, rfl⟩, fun events hevents => ?_⟩
  have hview : (run (peerStep fun _ => true) s events).map
      (fun t => (t.logic.worker, t.logic.msgQue, t.logic.handled)) =
        some (.terminated, [node 8], []) := by
    rcases hevents with rfl | rfl <;> decide +kernel
  refine ⟨fun hall => ?_, hview⟩
  obtain ⟨t, ht, hend⟩ := Option.map_eq_some_iff.mp hview
  exact (hall.last ht).returns (congrArg Prod.fst hend)

end AsioServer.Core
