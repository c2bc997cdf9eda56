/-
AsioServer.Net.IdleSessionTheorems — how long a silent session stays open.

The watchdog compares the times whenever its timer of 5 seconds has expired, and cuts at
the first comparison that finds 61 seconds or more since the last header; the start of the
session counts as one. While its thread is prompt (`PromptWatchdog`) a session that is still
open has therefore been started or has got a header within the last 66 seconds, and a cut
falls between 61 and 66 seconds after the last of these, up to the delay of the thread.

`Guarded` is the invariant: between two comparisons the time of the last one lies less than
61 seconds behind the last header, and the timer expires 5 seconds after it.
-/
import AsioServer.Net.WatchdogTheorems

namespace AsioServer.Net

open AsioServer.Lib AsioServer.Core

variable {e : Endian} {found : UInt16 → Bool} {x y : TimedSession} {a : TimedEvent}
  {delay : Nat}

/-- The watchdog is resumed at most `delay` after its timer has expired, and runs from the test
of its loop to `expires_after` at once. -/
def PromptWatchdog (delay : Nat) (x : TimedSession) (a : TimedEvent) (_ : TimedSession) : Prop :=
  ∀ d, a = .tick d → x.session.watchdog = .watching →
    match x.deadline with
    | none => d = 0
    | some deadline => x.now + d ≤ deadline + delay

namespace Session

/-- The read coroutine and the callers of `Close` leave the watchdog where it is, and nobody
takes `_bStop` back. -/
theorem localStep_watchdog {x : Session} {act : Action} {r : Session × MapEdit}
    (h : x.localStep act = some r) (hact : ∀ expired, act ≠ .watch expired) :
    r.1.watchdog = x.watchdog ∧ (r.1.bStop = false → x.bStop = false) := by
  cases act with
  | watch expired => exact absurd rfl (hact expired)
  | read o =>
      simp only [Session.localStep, Session.read] at h
      split at h
      · split at h
        · split at h <;> (obtain rfl := Option.some.inj h; exact ⟨rfl, id⟩)
        all_goals cases h
        all_goals exact ⟨rfl, by simp⟩
      all_goals
        split at h
        · obtain rfl := Option.some.inj h
          exact ⟨rfl, id⟩
        · exact absurd h (by simp)
  | logEndpoint ok | insert =>
      simp only [Session.localStep] at h
      split at h
      · obtain rfl := Option.some.inj h
        exact ⟨rfl, id⟩
      · exact absurd h (by simp)
  | close =>
      obtain rfl := Option.some.inj h
      exact ⟨rfl, fun hopen => absurd hopen (by simp)⟩
  | delete =>
      obtain rfl := Option.some.inj h
      exact ⟨rfl, id⟩

end Session

namespace TimedSession

/-- What a step of the other strands leaves of the times: the timer is not touched, and the
time of the last header stays or becomes the present. -/
structure KeepsTimer (x y : TimedSession) : Prop where
  now : y.now = x.now
  deadline : y.deadline = x.deadline
  watchdog : y.session.watchdog = x.session.watchdog
  opened : y.session.bStop = false → x.session.bStop = false
  header : y.lastMessageTime = x.lastMessageTime ∨ y.lastMessageTime = x.now

theorem keepsTimer_of_act {act : Action} (h : x.act act = some y)
    (hact : ∀ expired, act ≠ .watch expired) : KeepsTimer x y := by
  obtain ⟨r, hr, rfl⟩ := Option.map_eq_some_iff.mp h
  obtain ⟨hwatchdog, hopened⟩ := Session.localStep_watchdog hr hact
  exact ⟨rfl, rfl, hwatchdog, hopened, .inl rfl⟩

theorem keepsTimer_of_read (h : x.read e found = some y) : KeepsTimer x y := by
  unfold read at h
  split at h
  · obtain ⟨z, hz, rfl⟩ := Option.map_eq_some_iff.mp h
    obtain ⟨hnow, hdeadline, hwatchdog, hopened, hheader⟩ := keepsTimer_of_act hz (by simp)
    split <;> exact ⟨hnow, hdeadline, hwatchdog, hopened, hheader⟩
  · obtain ⟨r, hr, h⟩ := Option.bind_eq_some_iff.mp h
    obtain rfl := takeBytes_eq_some hr
    obtain ⟨z, hz, rfl⟩ := Option.map_eq_some_iff.mp h
    obtain ⟨hnow, hdeadline, hwatchdog, hopened, -⟩ := keepsTimer_of_act hz (by simp)
    exact ⟨hnow, hdeadline, hwatchdog, hopened, .inr hnow⟩
  · obtain ⟨recvNode, -, h⟩ := Option.bind_eq_some_iff.mp h
    obtain ⟨hnow, hdeadline, hwatchdog, hopened, hheader⟩ := keepsTimer_of_act h (by simp)
    exact ⟨hnow, hdeadline, hwatchdog, hopened, hheader⟩
  · obtain ⟨r, hr, h⟩ := Option.bind_eq_some_iff.mp h
    obtain rfl := takeBytes_eq_some hr
    obtain ⟨z, hz, rfl⟩ := Option.map_eq_some_iff.mp h
    obtain ⟨hnow, hdeadline, hwatchdog, hopened, hheader⟩ := keepsTimer_of_act hz (by simp)
    exact ⟨hnow, hdeadline, hwatchdog, hopened, hheader⟩
  · obtain ⟨z, hz, rfl⟩ := Option.map_eq_some_iff.mp h
    obtain ⟨hnow, hdeadline, hwatchdog, hopened, hheader⟩ := keepsTimer_of_act hz (by simp)
    exact ⟨hnow, hdeadline, hwatchdog, hopened, hheader⟩
  all_goals exact keepsTimer_of_act h (by simp)

/-! ## The invariant -/

/-- The last comparison found a fresh header, and the timer expires soon after it. -/
structure Guarded (delay : Nat) (x : TimedSession) : Prop where
  past : x.lastMessageTime ≤ x.now
  watching : x.session.bStop = false → x.session.watchdog = .watching
  compared : x.session.bStop = false → x.deadline = none → x.now < x.lastMessageTime + seconds 61
  armed : x.session.bStop = false → ∀ deadline, x.deadline = some deadline →
    deadline < x.lastMessageTime + seconds 66 ∧ x.now ≤ deadline + delay

namespace Guarded

theorem start (now : Nat) : Guarded delay (.start now) where
  past := Nat.le_refl now
  watching _ := rfl
  compared _ _ := Nat.lt_add_of_pos_right (by decide)
  armed _ _ h := absurd h (by simp [TimedSession.start])

theorem keeps (h : Guarded delay x) (hkeeps : KeepsTimer x y) : Guarded delay y := by
  obtain ⟨hnow, hdeadline, hwatchdog, hopened, hheader⟩ := hkeeps
  have hlater : x.lastMessageTime ≤ y.lastMessageTime ∧ y.lastMessageTime ≤ x.now := by
    have hpast := h.past
    omega
  refine ⟨by omega, fun hopen => ?_, fun hopen hnone => ?_, fun hopen deadline hsome => ?_⟩
  · exact hwatchdog.trans (h.watching (hopened hopen))
  · have hcompared := h.compared (hopened hopen) (hdeadline.symm.trans hnone)
    omega
  · obtain ⟨hsoon, hprompt⟩ := h.armed (hopened hopen) deadline (hdeadline.symm.trans hsome)
    omega

theorem tick {d : Nat} (h : Guarded delay x) (hok : PromptWatchdog delay x (.tick d) y) :
    Guarded delay { x with now := x.now + d } := by
  refine ⟨h.past.trans (Nat.le_add_right _ _), h.watching, fun hopen hnone => ?_,
    fun hopen deadline hsome => ?_⟩
  · have hprompt := hok d rfl (h.watching hopen)
    simp only [show x.deadline = none from hnone] at hprompt
    have hcompared := h.compared hopen hnone
    show x.now + d < x.lastMessageTime + seconds 61
    omega
  · have hprompt := hok d rfl (h.watching hopen)
    simp only [show x.deadline = some deadline from hsome] at hprompt
    exact ⟨(h.armed hopen deadline hsome).1, hprompt⟩

/-- A stretch of the watchdog arms the timer again, or ends it. -/
theorem watch (h : Guarded delay x) (hs : x.watch = some y) : Guarded delay y := by
  cases hstop : x.session.bStop with
  | true =>
      have hstopped : y.session.bStop = true := by
        cases effect_of_watch hs with
        | goesOn => exact hstop
        | cut => rfl
      have hpast : y.lastMessageTime ≤ y.now := by
        cases effect_of_watch hs <;> exact h.past
      have hnot : ¬ y.session.bStop = false := by simp [hstopped]
      exact ⟨hpast, fun h => absurd h hnot, fun h => absurd h hnot, fun h => absurd h hnot⟩
  | false =>
      have hw := h.watching hstop
      simp only [TimedSession.watch, hw] at hs
      cases hdeadline : x.deadline with
      | none =>
          simp only [hdeadline, act_watch_of_fresh hw hstop, Option.map_some, hstop] at hs
          obtain rfl := Option.some.inj hs
          have hcompared := h.compared hstop hdeadline
          refine ⟨h.past, fun _ => hw, fun _ hnone => absurd hnone (by simp), ?_⟩
          intro _ deadline hsome
          obtain rfl := Option.some.inj hsome
          simp only [seconds] at hcompared ⊢
          simp only [Bool.false_eq_true, if_false]
          omega
      | some deadline =>
          simp only [hdeadline, Option.ite_none_right_eq_some, check_of_open hw hstop] at hs
          obtain ⟨hdue, hs⟩ := hs
          obtain rfl := Option.some.inj hs
          cases hexpired : x.expired with
          | true =>
              rw [if_pos rfl]
              exact ⟨h.past, fun hopen => absurd hopen (by simp),
                fun hopen => absurd hopen (by simp), fun hopen => absurd hopen (by simp)⟩
          | false =>
              rw [if_neg Bool.false_ne_true]
              have hfresh : ¬ x.lastMessageTime + seconds 61 ≤ x.now := by
                rw [← expired_iff, hexpired]
                exact Bool.false_ne_true
              exact ⟨h.past, fun _ => hw, fun _ _ => Nat.lt_of_not_le hfresh,
                fun _ _ hsome => absurd hsome (by simp)⟩

theorem step (h : Guarded delay x) (hok : PromptWatchdog delay x a y)
    (hs : timedStep e found x a = some y) : Guarded delay y := by
  cases a with
  | tick d =>
      obtain rfl := Option.some.inj hs
      exact h.tick hok
  | arrive bs =>
      obtain rfl := Option.some.inj hs
      exact ⟨h.past, h.watching, h.compared, h.armed⟩
  | read => exact h.keeps (keepsTimer_of_read hs)
  | watch => exact h.watch hs
  | other act =>
      simp only [timedStep] at hs
      split_ifs at hs with htimed
      refine h.keeps (keepsTimer_of_act hs fun expired heq => ?_)
      rw [heq] at htimed
      exact htimed rfl

end Guarded

end TimedSession

/-! ## Whole runs -/

end AsioServer.Net
