/-
AsioServer.Net.AcceptLoopTheorems — when the accept loop lives.

`AcceptInv` holds in every state: an `async_accept` is outstanding exactly while no
handler runs and none has thrown. So the loop lives as long as no handler throws, and
a handler throws exactly where it asks a socket that is no longer connected for its
endpoint (`accept_loop_alive_iff`).
-/
import AsioServer.Net.AcceptLoop

namespace AsioServer.Net

open AsioServer.Lib

variable {s t : AcceptServer} {event : AcceptEvent}

/-! ## The property and its condition -/

/-- No exception has left a handler; while none runs exactly one `async_accept` is
outstanding, and one that runs goes on to start the next. -/
structure AcceptLoopAlive (s : AcceptServer) : Prop where
  caught : s.handler ≠ .threw
  armed : s.handler = .waiting → s.pending.length = 1
  goesOn : s.handler ≠ .waiting → ∃ t, acceptStep s .proceed = some t

/-- When the handler asks for the remote endpoint of its session, the peer has not
reset the connection and the IO thread has not closed the socket. -/
def EndpointReadable (s : AcceptServer) (event : AcceptEvent) (_ : AcceptServer) : Prop :=
  ∀ (type : AsioType) (i : Nat) (x : AcceptedSession), event = .proceed →
    s.handler = .logging type i → s.sessions[i]? = some x → x.socket = .connected

theorem hasEndpoint_iff (socket : SocketState) :
    socket.hasEndpoint = true ↔ socket = .connected := by
  cases socket <;> simp [SocketState.hasEndpoint]

theorem endpointReadable_logging {type : AsioType} {i : Nat} {x : AcceptedSession}
    (hpoint : s.handler = .logging type i) (hx : s.sessions[i]? = some x) :
    EndpointReadable s .proceed t ↔ x.socket = .connected := by
  constructor
  · exact fun hread => hread type i x rfl hpoint hx
  · intro hconnected type' j y _ hpoint' hy
    obtain ⟨-, rfl⟩ := HandlerPoint.logging.inj (hpoint.symm.trans hpoint')
    exact Option.some.inj (hx.symm.trans hy) ▸ hconnected

/-- No other step asks for an endpoint. -/
theorem endpointReadable_other
    (h : event = .proceed → ∀ type i, s.handler ≠ .logging type i) :
    EndpointReadable s event t :=
  fun type i _ heq hpoint => absurd hpoint (h heq type i)

/-! ## The invariant -/

/-- An `async_accept` is outstanding exactly while the server waits for it, and a
handler that has made a session finds it. -/
structure AcceptInv (s : AcceptServer) : Prop where
  waiting : s.handler = .waiting → s.pending.length = 1
  busy : s.handler ≠ .waiting → s.pending = []
  known : ∀ type i, s.handler = .logging type i → ∃ x, s.sessions[i]? = some x

theorem acceptInv_make (type : AsioType) : AcceptInv (.make type) := by
  cases type <;>
    exact ⟨fun _ => rfl, fun h => absurd rfl h, fun _ _ h => HandlerPoint.noConfusion h⟩

/-- In such a state only an exception ends the loop. -/
theorem AcceptInv.alive_iff (h : AcceptInv s) : AcceptLoopAlive s ↔ s.handler ≠ .threw := by
  constructor
  · exact fun halive => halive.caught
  · intro hcaught
    refine ⟨hcaught, h.waiting, fun hbusy => ?_⟩
    cases hpoint : s.handler with
    | waiting => exact absurd hpoint hbusy
    | threw => exact absurd hpoint hcaught
    | logging type i =>
        obtain ⟨x, hx⟩ := h.known type i hpoint
        exact ⟨_, by simp only [acceptStep, hpoint, hx]; rfl⟩
    | inserting type i => exact ⟨_, by simp only [acceptStep, hpoint]; rfl⟩
    | rearming type => exact ⟨_, by simp only [acceptStep, hpoint]; rfl⟩

/-- The socket of a session changes outside the handler. -/
theorem AcceptInv.setSocket (h : AcceptInv s) {i : Nat} {x : AcceptedSession}
    (hx : s.sessions[i]? = some x) (socket : SocketState) :
    AcceptInv (s.setSocket i x socket) := by
  refine ⟨h.waiting, h.busy, fun type j hpoint => ?_⟩
  obtain ⟨y, hy⟩ := h.known type j hpoint
  by_cases hij : i = j
  · obtain rfl := hij
    exact ⟨_, getElem?_set_self_of_some hx⟩
  · exact ⟨y, by rw [AcceptServer.setSocket, List.getElem?_set_ne hij, hy]⟩

/-- The next `async_accept` is the only one. -/
theorem AcceptInv.startAgain (h : AcceptInv s) (hbusy : s.handler ≠ .waiting)
    (type : AsioType) : AcceptInv { s.startAgain type with handler := .waiting } := by
  refine ⟨fun _ => ?_, fun hne => absurd rfl hne, fun _ _ heq => HandlerPoint.noConfusion heq⟩
  have hnone := h.busy hbusy
  cases type <;> simp [AcceptServer.startAgain, AcceptServer.startCoroutineAccpet,
    AcceptServer.startAsyncAccpet, AcceptServer.startAccept, hnone]

/-! ## The steps -/

/-- A completion starts the handler. -/
theorem AcceptInv.complete (h : AcceptInv s) {result : AcceptResult}
    (hs : acceptStep s (.complete result) = some t) : AcceptInv t ∧ t.handler ≠ .threw := by
  simp only [acceptStep] at hs
  split at hs
  · next type rest hpoint hpending =>
    have hone := h.waiting hpoint
    rw [hpending, List.length_cons] at hone
    have hrest : rest = [] := List.length_eq_zero_iff.mp (by omega)
    cases result with
    | error noDescriptors =>
        obtain rfl := Option.some.inj hs
        exact ⟨⟨fun heq => HandlerPoint.noConfusion heq, fun _ => hrest,
          fun _ _ heq => HandlerPoint.noConfusion heq⟩, HandlerPoint.noConfusion⟩
    | accepted socket =>
        obtain rfl := Option.some.inj hs
        refine ⟨⟨fun heq => HandlerPoint.noConfusion heq, fun _ => hrest, ?_⟩,
          HandlerPoint.noConfusion⟩
        intro type' i hlogging
        obtain ⟨-, rfl⟩ := HandlerPoint.logging.inj hlogging
        exact ⟨_, List.getElem?_concat_length⟩
  · exact absurd hs (by simp)

/-- The handler takes a step: it throws where the endpoint cannot be read. -/
theorem AcceptInv.proceed (h : AcceptInv s) (hs : acceptStep s .proceed = some t) :
    AcceptInv t ∧ (t.handler ≠ .threw ↔ EndpointReadable s .proceed t) := by
  simp only [acceptStep] at hs
  split at hs
  · exact absurd hs (by simp)
  · exact absurd hs (by simp)
  · next type i hpoint =>
    have hpending := h.busy (by simp [hpoint])
    split at hs
    · next x hx =>
      obtain rfl := Option.some.inj hs
      rw [endpointReadable_logging hpoint hx, ← hasEndpoint_iff]
      cases x.socket.hasEndpoint with
      | true =>
          exact ⟨⟨fun heq => HandlerPoint.noConfusion heq, fun _ => hpending,
            fun _ _ heq => HandlerPoint.noConfusion heq⟩, by simp⟩
      | false =>
          exact ⟨⟨fun heq => HandlerPoint.noConfusion heq, fun _ => hpending,
            fun _ _ heq => HandlerPoint.noConfusion heq⟩, by simp⟩
    · exact absurd hs (by simp)
  · next type i hpoint =>
    obtain rfl := Option.some.inj hs
    have hpending := h.busy (by simp [hpoint])
    refine ⟨⟨fun heq => HandlerPoint.noConfusion heq, fun _ => hpending,
      fun _ _ heq => HandlerPoint.noConfusion heq⟩, ?_⟩
    exact iff_of_true HandlerPoint.noConfusion
      (endpointReadable_other fun _ _ _ => by simp [hpoint])
  · next type hpoint =>
    obtain rfl := Option.some.inj hs
    refine ⟨h.startAgain (by simp [hpoint]) type, ?_⟩
    exact iff_of_true HandlerPoint.noConfusion
      (endpointReadable_other fun _ _ _ => by simp [hpoint])

/-- **One step** keeps the invariant, and lets no exception out exactly if the endpoint
it asks for can be read. -/
theorem AcceptInv.step (h : AcceptInv s) (hs : acceptStep s event = some t) :
    AcceptInv t ∧
      (s.handler ≠ .threw → (t.handler ≠ .threw ↔ EndpointReadable s event t)) := by
  cases event with
  | complete result =>
      obtain ⟨hinv, hcaught⟩ := h.complete hs
      exact ⟨hinv, fun _ => iff_of_true hcaught (endpointReadable_other (by simp))⟩
  | proceed =>
      obtain ⟨hinv, hcaught⟩ := h.proceed hs
      exact ⟨hinv, fun _ => hcaught⟩
  | disconnect i =>
      simp only [acceptStep] at hs
      split at hs
      · next x hx =>
        split at hs
        · obtain rfl := Option.some.inj hs
          exact ⟨h.setSocket hx _, fun hlive =>
            iff_of_true hlive (endpointReadable_other (by simp))⟩
        · exact absurd hs (by simp)
      · exact absurd hs (by simp)
  | close i =>
      simp only [acceptStep] at hs
      split at hs
      · next x hx =>
        obtain rfl := Option.some.inj hs
        exact ⟨h.setSocket hx _, fun hlive =>
          iff_of_true hlive (endpointReadable_other (by simp))⟩
      · exact absurd hs (by simp)

/-! ## Whole runs -/

/-- **When the accept loop lives.** For both kinds of server and every sequence of
completions, disconnections and closings: the loop is alive in every state if and only
if each handler that asks for the remote endpoint finds its socket connected. -/
theorem accept_loop_alive_iff (type : AsioType) (events : List AcceptEvent) :
    AllStates acceptStep AcceptLoopAlive (.make type) events ↔
      AllSteps acceptStep EndpointReadable (.make type) events := by
  have hstart := acceptInv_make type
  have hcaught : (AcceptServer.make type).handler ≠ .threw := by
    cases type <;> exact HandlerPoint.noConfusion
  refine allStates_iff_allSteps (fun s event t h ht => (h.step ht).1) ?_ events _ hstart
    (hstart.alive_iff.mpr hcaught)
  intro s event t h halive ht
  obtain ⟨hinv, hthrows⟩ := h.step ht
  rw [hinv.alive_iff, hthrows halive.caught]

/-- A peer that resets its connection before the log line ends the loop of the server:
the exception leaves the handler, and nothing is accepted any more. -/
theorem early_reset_ends_accept_loop : ¬ ∀ (type : AsioType) (events : List AcceptEvent),
    AllStates acceptStep AcceptLoopAlive (.make type) events := by
  intro h
  let events : List AcceptEvent := [.complete (.accepted .connected), .disconnect 0, .proceed]
  let dead : AcceptServer := { handler := .threw, sessions := [⟨.coroutine, .disconnected⟩] }
  have hrun : run acceptStep (.make .coroutine) events = some dead := by decide
  exact ((h .coroutine events).last hrun).caught rfl

end AsioServer.Net
