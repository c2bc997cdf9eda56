/-
AsioServer.Net.SessionOwnersTheorems — when a session outlives its reader.

The read coroutine holds nothing, so it needs an owner that lasts until it is resumed.
Two do: the entry in `_sessionMap` and the watchdog. `LastingOwner` asks that neither goes
before the read coroutine ends unless the other is there, and then one of them is there
in every state (`session_outlives_reader`). A watchdog time-out breaks it: `Close`,
`DelSessionByUuid` and the return of the watchdog leave the session to the closure of
`Close`, which only cancels the read (`time_out_drops_reading_session`). For the registry
the session with its owners is an ordinary session (`owners_registry`).
-/
import AsioServer.Net.SessionOwners
import AsioServer.Net.SessionRegistryTheorems

namespace AsioServer.Net

open AsioServer.Lib

variable {s t : OwnedSession} {event : OwnerEvent}

/-! ## The property and its condition -/

/-- While the read coroutine runs or is suspended, somebody holds the session. -/
def Outlives (s : OwnedSession) : Prop := ¬ s.session.HasEnded → s.owned = true

/-- Before the read coroutine has ended: the watchdog returns neither from a time-out nor,
when it finds `_bStop` set, without an entry of the session in the map, and `ClientClose`
erases the entry only while the watchdog runs. -/
def LastingOwner (s : OwnedSession) (event : OwnerEvent) (_ : OwnedSession) : Prop :=
  ¬ s.session.HasEnded →
    (∀ expired, event = .act (.watch expired) →
      s.session.watchdog ≠ .deleting ∧ (s.session.bStop = true → s.registered = true)) ∧
    (event = .act .delete → s.session.watchdog ≠ .ended)

/-- **The invariant**: one of the two lasting owners is there. -/
def HasLastingOwner (s : OwnedSession) : Prop :=
  ¬ s.session.HasEnded → s.registered = true ∨ s.session.watchdog ≠ .ended

theorem HasLastingOwner.outlives (h : HasLastingOwner s) : Outlives s := by
  intro hreads
  rcases h hreads with hregistered | hwatches
  · simp [OwnedSession.owned, hregistered]
  · simp [OwnedSession.owned, hwatches]

/-! ## The session in the registry -/

namespace OwnedSession

/-- What the registry sees. -/
def entry (s : OwnedSession) : Session × Bool := (s.session, s.registered)

theorem entry_of_act {a : Action} (h : s.act a = some t) :
    entryStep s.entry a = some t.entry := by
  obtain ⟨r, hr, rfl⟩ := Option.map_eq_some_iff.mp h
  rw [entryStep, entry, hr]
  rfl

end OwnedSession

/-- A step with the owners is an action of the session or none. -/
theorem entry_of_ownerStep (h : ownerStep s event = some t) :
    ∃ acts, run entryStep s.entry acts = some t.entry := by
  have hact : ∀ {a : Action} {u : OwnedSession}, s.act a = some u →
      ∃ acts, run entryStep s.entry acts = some u.entry := by
    intro a u hu
    exact ⟨[a], (run_singleton _ _ _).trans (OwnedSession.entry_of_act hu)⟩
  cases event with
  | act a =>
      simp only [ownerStep] at h
      split_ifs at h
      exact hact h
  | dispatch | writeFailed =>
      simp only [ownerStep] at h
      split_ifs at h
      obtain ⟨u, hu, rfl⟩ := Option.map_eq_some_iff.mp h
      have hentry := hact hu
      exact hentry
  | send | handlerDone | runSend | writeDone | runClose =>
      -- the session itself does nothing
      simp only [ownerStep] at h
      split_ifs at h
      all_goals
        obtain rfl := Option.some.inj h
        exact ⟨[], rfl⟩

/-- **The registry follows.** Every run of a session with its owners is, for the registry, a
run of actions of that session. -/
theorem owners_registry {events : List OwnerEvent} {registry : Registry} {i : Nat}
    (h : run ownerStep s events = some t) (hs : registry.Shows i s.entry) :
    ∃ (acts : List Action) (registry' : Registry),
      run registryStep registry (acts.map (.act i)) = some registry' ∧
        registry'.Shows i t.entry := by
  have hsteps : ∀ s event t, ownerStep s event = some t →
      ∃ acts, run entryStep s.entry acts = some t.entry := fun _ _ _ => entry_of_ownerStep
  obtain ⟨acts, hacts⟩ := run_view hsteps h
  exact ⟨acts, hs.run hacts⟩

/-! ## The steps -/

/-- The read coroutine takes a step: it ends, or leaves the two owners alone. -/
theorem owners_of_read {x y : Session} {o : Outcome} {e : MapEdit}
    (h : x.localStep (.read o) = some (y, e)) :
    y.HasEnded ∨ (¬ x.HasEnded ∧ e = .keep ∧ y.watchdog = x.watchdog) := by
  cases effect_of_read h with
  | advance hgoes => exact Or.inr ⟨hgoes, rfl, rfl⟩
  | clean => exact Or.inl ⟨_, rfl⟩
  | leave => exact Or.inl ⟨_, rfl⟩
  | elsewhere hread => exact absurd rfl (hread o)

/-- A strand takes a step. -/
theorem HasLastingOwner.act {a : Action} (h : HasLastingOwner s)
    (hok : LastingOwner s (.act a) t) (hs : s.act a = some t) : HasLastingOwner t := by
  obtain ⟨⟨y, e⟩, hlocal, rfl⟩ := Option.map_eq_some_iff.mp hs
  intro hreads
  cases a with
  | logEndpoint ok =>
      simp only [Session.localStep] at hlocal
      split at hlocal
      · obtain ⟨rfl, rfl⟩ := Prod.mk.inj (Option.some.inj hlocal)
        exact h hreads
      · exact absurd hlocal (by simp)
  | insert =>
      simp only [Session.localStep] at hlocal
      split at hlocal
      · obtain ⟨rfl, rfl⟩ := Prod.mk.inj (Option.some.inj hlocal)
        exact Or.inl rfl
      · exact absurd hlocal (by simp)
  | read o =>
      rcases owners_of_read hlocal with hended | ⟨hgoes, rfl, hwatchdog⟩
      · exact absurd hended hreads
      · exact (h hgoes).imp id fun hne => hwatchdog ▸ hne
  | watch expired =>
      simp only [Session.localStep, Session.watch] at hlocal
      split at hlocal
      · split at hlocal
        · next hstop =>
          obtain ⟨rfl, rfl⟩ := Prod.mk.inj (Option.some.inj hlocal)
          exact Or.inl (((hok hreads).1 expired rfl).2 hstop)
        · split at hlocal
          · obtain ⟨rfl, rfl⟩ := Prod.mk.inj (Option.some.inj hlocal)
            exact Or.inr WatchPoint.noConfusion
          · obtain ⟨rfl, rfl⟩ := Prod.mk.inj (Option.some.inj hlocal)
            exact h hreads
      · next hdeleting =>
        obtain ⟨rfl, rfl⟩ := Prod.mk.inj (Option.some.inj hlocal)
        exact absurd hdeleting ((hok hreads).1 expired rfl).1
      · exact absurd hlocal (by simp)
  | close =>
      obtain ⟨rfl, rfl⟩ := Prod.mk.inj (Option.some.inj hlocal)
      exact h hreads
  | delete =>
      obtain ⟨rfl, rfl⟩ := Prod.mk.inj (Option.some.inj hlocal)
      exact Or.inr ((hok hreads).2 rfl)

/-- A call that the condition does not restrict. -/
theorem HasLastingOwner.act_free {a : Action} (h : HasLastingOwner s) (hs : s.act a = some t)
    (hwatch : ∀ expired, a ≠ .watch expired) (hdelete : a ≠ .delete) : HasLastingOwner t :=
  h.act (fun _ => ⟨fun expired heq => absurd (OwnerEvent.act.inj heq) (hwatch expired),
    fun heq => absurd (OwnerEvent.act.inj heq) hdelete⟩) hs

/-- **One step** keeps a lasting owner. -/
theorem HasLastingOwner.step (h : HasLastingOwner s) (hok : LastingOwner s event t)
    (hs : ownerStep s event = some t) : HasLastingOwner t := by
  cases event with
  | act a =>
      simp only [ownerStep] at hs
      split at hs
      · exact absurd hs (by simp)
      · exact h.act hok hs
  | dispatch | writeFailed =>
      simp only [ownerStep] at hs
      split at hs
      · obtain ⟨u, hu, rfl⟩ := Option.map_eq_some_iff.mp hs
        have hkept : HasLastingOwner u := h.act_free hu (by simp) (by simp)
        exact hkept
      · exact absurd hs (by simp)
  | send =>
      simp only [ownerStep] at hs
      split at hs
      · obtain rfl := Option.some.inj hs
        split <;> exact h
      · exact absurd hs (by simp)
  | handlerDone | runSend starts | writeDone again | runClose =>
      simp only [ownerStep] at hs
      split at hs
      · exact Option.some.inj hs ▸ h
      · exact absurd hs (by simp)

/-! ## Whole runs -/

/-- **A session outlives its reader** in every run in which the entry of the session
and the watchdog do not both go before the read coroutine has ended. -/
theorem session_outlives_reader {events : List OwnerEvent}
    (hok : AllSteps ownerStep LastingOwner {} events) :
    AllStates ownerStep Outlives {} events := by
  have hinit : HasLastingOwner {} := fun _ => Or.inr WatchPoint.noConfusion
  have hstep : ∀ s event t, HasLastingOwner s → LastingOwner s event t →
      ownerStep s event = some t → HasLastingOwner t := fun _ _ _ h => h.step
  exact (allStates_invariant hstep events {} hinit hok).mono fun _ h => h.outlives

/-- The condition on a step, tested. -/
def lastingOwner (s : OwnedSession) : OwnerEvent → Bool
  | .act (.watch _) => s.session.watchdog != .deleting && (!s.session.bStop || s.registered)
  | .act .delete => s.session.watchdog != .ended
  | _ => true

theorem lastingOwner_of_check (h : s.session.HasEnded ∨ lastingOwner s event = true) :
    LastingOwner s event t := by
  intro hreads
  have hcheck := h.resolve_left hreads
  constructor
  · rintro expired rfl
    simp only [lastingOwner, Bool.and_eq_true, Bool.or_eq_true, bne_iff_ne] at hcheck
    refine ⟨hcheck.1, fun hstop => hcheck.2.resolve_left ?_⟩
    simp [hstop]
  · rintro rfl
    exact bne_iff_ne.mp hcheck

/-- A message is served and answered, the peer ends the stream, and the watchdog
returns long after. -/
theorem session_outlives_reader_until_eof : ∃ (events : List OwnerEvent) (s : OwnedSession),
    run ownerStep {} events = some s ∧ s.session.HasEnded ∧ s.owned = false ∧
      AllStates ownerStep Outlives {} events := by
  let events : List OwnerEvent := [.act (.logEndpoint true), .act (.read (.normal false)),
    .act .insert, .act (.read (.normal false)), .act (.read (.normal false)), .dispatch, .send,
    .act (.watch false), .runSend true, .handlerDone, .writeDone false,
    .act (.read (.normal false)), .act (.read .systemError), .act (.read (.normal false)),
    .act (.read (.normal false)), .runClose, .act (.watch false)]
  let gone : OwnedSession := {
    session := {
      accept := .inserted
      reader := .ended .cleaned
      watchdog := .ended
      bStop := true } }
  have hcheck : checkSteps ownerStep (fun s event => s.session.reader == .ended .cleaned ||
      lastingOwner s event) {} events = true := by decide
  have hok : AllSteps ownerStep LastingOwner {} events := .of_check hcheck fun _ _ _ h => by
    rw [Bool.or_eq_true, beq_iff_eq] at h
    exact lastingOwner_of_check (h.imp_left fun hended => ⟨.cleaned, hended⟩)
  exact ⟨events, gone, by decide, ⟨.cleaned, rfl⟩, by decide, session_outlives_reader hok⟩

/-- A time-out drops a session whose read coroutine is still waiting to be resumed. -/
theorem time_out_drops_reading_session : ¬ ∀ events : List OwnerEvent,
    AllStates ownerStep Outlives {} events := by
  intro h
  let events : List OwnerEvent := [.act (.read (.normal false)), .act (.logEndpoint true),
    .act .insert, .act (.watch true), .act (.watch false), .runClose]
  let dropped : OwnedSession := {
    session := { accept := .inserted, reader := .readHeader, watchdog := .ended, bStop := true } }
  have hrun : run ownerStep {} events = some dropped := by decide
  have hreads : ¬ dropped.session.HasEnded := by
    intro hended
    obtain ⟨how, heq⟩ := hended
    exact absurd heq (by simp [dropped])
  exact absurd ((h events).last hrun hreads) (by decide)

end AsioServer.Net
