/-
AsioServer.Services.PoolWaitersTheorems — when a waiter of the pool is stranded.

`Acquire` waits for an idle connection or a free place below `_max`, a unit. `Release` and a
failed creation add a unit and wake one waiter, so `Lib.Served` holds: nobody is parked, or
as many wake-ups are pending as there are units. A waiter that times out gives up without
looking at the pool again, and takes the wake-up it was sent with it. `KeepsWakeups` is the
condition that no waiter times out while a wake-up is pending and its unit is there, and
`no_stranded_connection_iff` says that nothing else can strand a connection.
-/
import AsioServer.Lib.Waiters
import AsioServer.Services.DBConnectionPoolTheorems

namespace AsioServer.Services

open AsioServer.Lib

/-! ## Units and wake-ups -/

/-- What a waiter waits for: the idle connections and the free places. -/
def Pool.units (p : Pool) : Nat := p.idle.length + (p.max - p.created)

/-- The request has been woken and has not taken the lock again. -/
def Request.isNotified (r : Request) : Bool := r.place == .notified

namespace PoolState

/-- The pending wake-ups. -/
def wakeups (s : PoolState) : Nat := s.requests.countP Request.isNotified

end PoolState

/-- `Acquire` returns null for a time-out only when there is nothing to return. -/
def TimesOutEmpty (s : PoolState) (a : PoolEvent) (_ : PoolState) : Prop :=
  s.pool.closed = false → ∀ i, a = .resume i true →
    s.pool.idle = [] ∧ s.pool.created = s.pool.max

/-- While somebody is parked, a wake-up is pending for each idle connection and each free
place. -/
def NoneStranded (s : PoolState) : Prop :=
  s.pool.closed = false → (∃ r ∈ s.requests, r.isParked = true) → s.pool.units ≤ s.wakeups

/-- No waiter times out while a wake-up is pending and its unit is there. -/
def KeepsWakeups (s : PoolState) (a : PoolEvent) (_ : PoolState) : Prop :=
  s.pool.closed = false → ∀ i, a = .resume i true →
    ¬ ((∃ r ∈ s.requests, r.isNotified = true) ∧
      (s.pool.idle ≠ [] ∨ s.pool.created < s.pool.max))

/-- A new pool, whether its `Initialize` completed or not. -/
def NewPool (s : PoolState) : Prop := s.pool.created ≤ s.pool.max ∧ s.requests = []

/-- `_created` covers the creations in progress and stays within `_max`. -/
structure PoolCounts (s : PoolState) : Prop where
  bound : s.pool.created ≤ s.pool.max
  creating : s.creating ≤ s.pool.created

/-- Enough waiters are woken, while the pool is open. -/
def WaitersServed (s : PoolState) : Prop :=
  s.pool.closed = false → Served Request.isParked Request.isNotified s.pool.units s.requests

/-! ## The counter -/

section Counts

variable {s t : PoolState} {a : PoolEvent} {i : Nat} {r r' : Request}

/-- A request moves, with the pool. -/
theorem PoolCounts.put {p : Pool} {n : Conn} (h : PoolCounts s) (hr : s.requests[i]? = some r)
    (hbound : p.created ≤ p.max)
    (hcount : contrib Request.isCreating r' + s.pool.created ≤
      p.created + contrib Request.isCreating r) :
    PoolCounts (({ s with pool := p, nextConn := n } : PoolState).put i r') := by
  have hset := countP_set_add Request.isCreating (m := r') hr
  have hcreating := h.creating
  refine ⟨hbound, ?_⟩
  simp only [PoolState.put, PoolState.creating] at hcreating ⊢
  omega

/-- A request moves and neither begins a creation nor ends one. -/
theorem PoolCounts.move {p : Pool} {n : Conn} (h : PoolCounts s) (hr : s.requests[i]? = some r)
    (hmax : p.max = s.pool.max) (hcreated : p.created = s.pool.created)
    (hsame : r'.place.isCreating = r.place.isCreating) :
    PoolCounts (({ s with pool := p, nextConn := n } : PoolState).put i r') := by
  have hcontrib : contrib Request.isCreating r' = contrib Request.isCreating r :=
    contrib_congr hsame
  refine h.put hr (by rw [hmax, hcreated]; exact h.bound) ?_
  omega

theorem PoolCounts.passBy (h : PoolCounts s) (hr : s.requests[i]? = some r)
    (hout : r.place.isCreating = false) : PoolCounts (s.passBy i r) := by
  rcases s.passBy_cases i r with ⟨c, rest, -, heq⟩ | ⟨-, hlt, heq⟩ | ⟨-, -, heq⟩
  · rw [heq]
    exact h.move (n := s.nextConn) hr rfl rfl hout.symm
  · rw [heq]
    refine h.put (n := s.nextConn) hr hlt ?_
    rw [contrib_of_true (p := Request.isCreating) rfl, Request.contrib_not_creating hout]
    exact Nat.le_of_eq (Nat.add_comm _ _)
  · rw [heq]
    exact h.move (p := s.pool) (n := s.nextConn) hr rfl rfl hout.symm

theorem PoolCounts.notify {woken : Option Nat} (h : PoolCounts s) (hn : s.notify woken = some t) :
    PoolCounts t := by
  rw [PoolState.notify, Option.map_eq_some_iff] at hn
  obtain ⟨rs, hrs, rfl⟩ := hn
  have hsame : rs.countP Request.isCreating = s.creating :=
    countP_notifyOne (Request.wake_same Place.isCreating rfl) hrs
  exact ⟨h.bound, Nat.le_trans (Nat.le_of_eq hsame) h.creating⟩

theorem PoolCounts.created_pos (h : PoolCounts s) (hr : s.requests[i]? = some r)
    (hc : r.place.isCreating = true) : 0 < s.pool.created := by
  have hle := contrib_le_countP Request.isCreating hr
  rw [Request.contrib_isCreating hc] at hle
  exact Nat.lt_of_lt_of_le hle h.creating

theorem not_creating_of_waiting (hw : r.isWaiting = true) : r.place.isCreating = false := by
  cases hp : r.place with
  | creating | failed => simp [Request.isWaiting, Place.isWaiting, hp] at hw
  | _ => rfl

/-- **Every step** keeps the counter in order. -/
theorem PoolCounts.step (h : PoolCounts s) (ht : poolStep s a = some t) : PoolCounts t := by
  have hmove : ∀ {i : Nat} {r r' : Request}, s.requests[i]? = some r →
      r'.place.isCreating = r.place.isCreating → PoolCounts (s.put i r') :=
    fun hr hsame => h.move (p := s.pool) (n := s.nextConn) hr rfl rfl hsame
  cases effect_of_step ht with
  | arrive session =>
      refine ⟨h.bound, ?_⟩
      have hcreating := h.creating
      simp only [PoolState.creating, List.countP_append] at hcreating ⊢
      exact hcreating
  | closeAll =>
      refine ⟨h.bound, Nat.le_trans (Nat.le_of_eq ?_) h.creating⟩
      exact countP_notifyAll (Request.wake_same Place.isCreating rfl) s.requests
  | refuse hr hp hc => exact hmove hr (by rw [hp]; rfl)
  | enter hr hp hc => exact h.passBy hr (by rw [hp]; rfl)
  | timeOut hr hw => exact hmove hr (not_creating_of_waiting hw).symm
  | resume hr hw => exact h.passBy hr (not_creating_of_waiting hw)
  | create hr hp =>
      refine h.put (p := s.pool) hr h.bound ?_
      rw [contrib_of_false (p := Request.isCreating) rfl]
      omega
  | createNull hr hp => exact hmove hr (by rw [hp]; rfl)
  | @rollback i r w t hr hp hn =>
      have hpos := h.created_pos hr (by rw [hp]; rfl)
      have hbound := h.bound
      have hcreated : s.pool.rollback.created = s.pool.created - 1 := if_neg (by omega)
      refine PoolCounts.notify (h.put (p := s.pool.rollback) (n := s.nextConn) hr ?_ ?_) hn
      · rw [hcreated]
        exact Nat.le_trans (Nat.sub_le _ _) hbound
      · rw [hcreated, contrib_of_false (p := Request.isCreating) rfl,
          Request.contrib_isCreating (by rw [hp]; rfl)]
        omega
  | execute hr hp => exact hmove hr (by rw [hp]; rfl)
  | releaseClosed hr hp hc => exact hmove hr (by rw [hp]; rfl)
  | @release i r c ok w t hr hp hc hn =>
      refine PoolCounts.notify (h.move (p := { s.pool with idle := s.pool.idle ++ [c] })
        (n := s.nextConn) hr rfl rfl ?_) hn
      rw [hp]
      rfl

theorem poolCounts_new (h : NewPool s) : PoolCounts s := by
  refine ⟨h.1, ?_⟩
  rw [PoolState.creating, h.2]
  exact Nat.zero_le _

end Counts

/-! ## One step -/

section Step

variable {s t : PoolState} {a : PoolEvent} {i : Nat} {r r' : Request}

theorem Request.wake_notified (r : Request) (h : r.isParked = true) :
    r.wake.isParked = false ∧ r.isNotified = false ∧ r.wake.isNotified = true := by
  have hplace : r.place = .parked := by simpa [Request.isParked] using h
  refine ⟨rfl, ?_, rfl⟩
  simp [Request.isNotified, hplace]

theorem Pool.units_eq_zero {p : Pool} (hidle : p.idle = []) (hmax : ¬ p.created < p.max) :
    p.units = 0 := by
  rw [Pool.units, hidle, List.length_nil]
  omega

theorem Pool.units_pos_iff {p : Pool} :
    0 < p.units ↔ p.idle ≠ [] ∨ p.created < p.max := by
  rw [Pool.units, ← List.length_pos_iff]
  omega

/-- A request moves, with the pool, and does not wait afterwards. -/
theorem WaitersServed.put {p : Pool} {n : Conn} (h : WaitersServed s) (hr : s.requests[i]? = some r)
    (hclosed : p.closed = s.pool.closed) (hparked : r'.isParked = false)
    (htakes : p.units + contrib Request.isNotified r ≤ s.pool.units) :
    WaitersServed (({ s with pool := p, nextConn := n } : PoolState).put i r') := by
  intro hopen
  refine (h (hclosed.symm.trans hopen)).set hr (Or.inr ⟨?_, ?_⟩)
  · rw [contrib_of_false hparked]
    exact Nat.zero_le _
  · exact Nat.le_add_right_of_le htakes

/-- A pass through the loop takes a unit, or parks when there is none. -/
theorem WaitersServed.passBy (h : WaitersServed s) (hr : s.requests[i]? = some r) :
    WaitersServed (s.passBy i r) := by
  have hone := contrib_le_one Request.isNotified r
  rcases s.passBy_cases i r with ⟨c, rest, hidle, heq⟩ | ⟨hidle, hlt, heq⟩ | ⟨hidle, hmax, heq⟩
  · rw [heq]
    refine h.put (n := s.nextConn) hr rfl rfl ?_
    simp only [Pool.units, hidle, List.length_cons]
    omega
  · rw [heq]
    refine h.put (n := s.nextConn) hr rfl rfl ?_
    simp only [Pool.units, hidle, List.length_nil]
    omega
  · rw [heq]
    intro hopen
    exact (h hopen).set hr (Or.inl (Pool.units_eq_zero hidle hmax))

/-- A request that does not wait goes on with a new unit, and one waiter is woken. -/
theorem WaitersServed.notify {p : Pool} {woken : Option Nat} (h : WaitersServed s)
    (hr : s.requests[i]? = some r) (hclosed : p.closed = s.pool.closed)
    (hrest : r.isNotified = false) (hparked : r'.isParked = false)
    (hunit : p.units = s.pool.units + 1)
    (hn : (({ s with pool := p } : PoolState).put i r').notify woken = some t) :
    WaitersServed t := by
  rw [PoolState.notify, Option.map_eq_some_iff] at hn
  obtain ⟨rs, hrs, rfl⟩ := hn
  intro hopen
  have hset : Served Request.isParked Request.isNotified s.pool.units (s.requests.set i r') := by
    refine (h (hclosed.symm.trans hopen)).set hr (Or.inr ⟨?_, ?_⟩)
    · rw [contrib_of_false hparked]
      exact Nat.zero_le _
    · rw [contrib_of_false hrest]
      exact Nat.le_add_right _ _
  have hserved := hset.notifyOne Request.wake_notified hrs
  rw [← hunit] at hserved
  exact hserved

/-- **Every step** that keeps the wake-ups serves the waiters. -/
theorem WaitersServed.step (h : WaitersServed s) (hpool : PoolCounts s) (hok : KeepsWakeups s a t)
    (ht : poolStep s a = some t) : WaitersServed t := by
  have hput : ∀ {i : Nat} {r r' : Request}, s.requests[i]? = some r → r.isNotified = false →
      r'.isParked = false → WaitersServed (s.put i r') := by
    intro i r r' hr hrest hparked
    refine h.put (p := s.pool) (n := s.nextConn) hr rfl hparked ?_
    rw [contrib_of_false hrest]
    exact Nat.le_refl _
  cases effect_of_step ht with
  | arrive session =>
      intro hopen
      refine (h hopen).congr ?_ ?_ <;> rw [List.countP_append] <;> rfl
  | closeAll => exact fun hopen => absurd hopen (by simp [Pool.closeAll])
  | refuse hr hp hc => exact hput hr (by simp [Request.isNotified, hp]) rfl
  | enter hr hp hc => exact h.passBy hr
  | @timeOut i r hr hw =>
      intro hopen
      refine (h hopen).set hr ?_
      cases hnotified : r.isNotified with
      | false =>
          refine Or.inr ⟨Nat.zero_le _, ?_⟩
          rw [contrib_of_false hnotified]
          exact Nat.le_add_right _ _
      | true =>
          -- its wake-up is spent, but its unit was not there any more
          refine Or.inl (Nat.eq_zero_of_not_pos fun hpos => ?_)
          exact hok hopen i rfl
            ⟨⟨r, List.mem_of_getElem? hr, hnotified⟩, Pool.units_pos_iff.mp hpos⟩
  | resume hr hw => exact h.passBy hr
  | @create i r hr hp =>
      refine h.put (p := s.pool) hr rfl rfl ?_
      rw [contrib_of_false (by simp [Request.isNotified, hp])]
      exact Nat.le_refl _
  | createNull hr hp => exact hput hr (by simp [Request.isNotified, hp]) rfl
  | @rollback i r w t hr hp hn =>
      have hpos := hpool.created_pos hr (by rw [hp]; rfl)
      have hbound := hpool.bound
      refine h.notify (p := s.pool.rollback) hr rfl (by simp [Request.isNotified, hp]) rfl ?_ hn
      simp only [Pool.units, Pool.rollback, sizeDecr]
      rw [if_neg (by omega)]
      omega
  | execute hr hp => exact hput hr (by simp [Request.isNotified, hp]) rfl
  | releaseClosed hr hp hc => exact hput hr (by simp [Request.isNotified, hp]) rfl
  | @release i r c ok w t hr hp hc hn =>
      refine h.notify (p := { s.pool with idle := s.pool.idle ++ [c] }) hr rfl
        (by simp [Request.isNotified, hp]) rfl ?_ hn
      simp only [Pool.units, List.length_append, List.length_cons, List.length_nil]
      omega

theorem TimesOutEmpty.keepsWakeups (h : TimesOutEmpty s a t) : KeepsWakeups s a t := by
  rintro hopen i rfl ⟨-, hunits⟩
  obtain ⟨hidle, hmax⟩ := h hopen i rfl
  rcases hunits with hne | hlt
  · exact hne hidle
  · exact absurd hmax (Nat.ne_of_lt hlt)

/-- A waiter that times out while a unit is there is woken itself, or somebody else is. -/
theorem WaitersServed.exists_notified (h : WaitersServed s) (hopen : s.pool.closed = false)
    (hr : s.requests[i]? = some r) (hw : r.isWaiting = true) (hunits : 0 < s.pool.units) :
    ∃ q ∈ s.requests, q.isNotified = true := by
  have hmem := List.mem_of_getElem? hr
  cases hnotified : r.isNotified with
  | true => exact ⟨r, hmem, hnotified⟩
  | false =>
      have hparked : r.isParked = true := by
        cases hp : r.place with
        | parked => simp [Request.isParked, hp]
        | notified => simp [Request.isNotified, hp] at hnotified
        | _ => simp [Request.isWaiting, Place.isWaiting, hp] at hw
      by_contra hno
      have hasleep : ∀ q ∈ s.requests, q.isNotified = false := by
        intro q hq
        cases hq' : q.isNotified with
        | false => rfl
        | true => exact absurd ⟨q, hq, hq'⟩ hno
      exact absurd ((h hopen).eq_zero hmem hparked hasleep) (Nat.ne_of_gt hunits)

theorem KeepsWakeups.timesOutEmpty (hok : KeepsWakeups s a t) (h : WaitersServed s)
    (hpool : PoolCounts s) (ht : poolStep s a = some t) : TimesOutEmpty s a t := by
  rintro hopen i rfl
  have hnone : ¬ 0 < s.pool.units := by
    intro hpos
    refine hok hopen i rfl ⟨?_, Pool.units_pos_iff.mp hpos⟩
    cases effect_of_step ht with
    | timeOut hr hw => exact h.exists_notified hopen hr hw hpos
  rw [Pool.units_pos_iff, not_or, not_not] at hnone
  exact ⟨hnone.1, Nat.le_antisymm hpool.bound (Nat.le_of_not_lt hnone.2)⟩

theorem WaitersServed.noneStranded (h : WaitersServed s) : NoneStranded s := by
  rintro hopen ⟨r, hr, hparked⟩
  rcases h hopen with hnone | hserved
  · exact absurd hparked (List.countP_eq_zero.mp hnone r hr)
  · exact hserved

end Step

/-! ## Every run -/

/-- **No stranded connection**: in every run from a new pool, with any requests, deadlines,
releases and failed creations, as long as the pool is open, a time-out is reported only when
nothing is there and no waiter is left without a wake-up, exactly when no time-out spends a
wake-up whose unit is there. -/
theorem no_stranded_connection_iff {s : PoolState} (h : NewPool s) (events : List PoolEvent) :
    AllSteps poolStep TimesOutEmpty s events ∧ AllStates poolStep NoneStranded s events ↔
      AllSteps poolStep KeepsWakeups s events := by
  have hstart : PoolCounts s ∧ WaitersServed s := by
    refine ⟨poolCounts_new h, fun _ => Served.of_none ?_⟩
    rw [h.2]
    exact fun r hr => absurd hr List.not_mem_nil
  have hstep : ∀ s a t, PoolCounts s ∧ WaitersServed s → KeepsWakeups s a t →
      poolStep s a = some t → PoolCounts t ∧ WaitersServed t :=
    fun s a t hs hok ht => ⟨hs.1.step ht, hs.2.step hs.1 hok ht⟩
  constructor
  · rintro ⟨hempty, -⟩
    exact hempty.mono fun _ _ _ hs => hs.keepsWakeups
  · intro hok
    have hall := allStates_invariant hstep events s hstart hok
    refine ⟨?_, AllStates.mono (fun s hs => hs.2.noneStranded) hall⟩
    exact AllSteps.of_allStates
      (fun _ _ _ hs hok ht => hok.timesOutEmpty hs.2 hs.1 ht) hok hall

/-- The test of `KeepsWakeups`. -/
def keepsWakeups (s : PoolState) : PoolEvent → Bool
  | .resume _ true => !(s.requests.any Request.isNotified && decide (0 < s.pool.units))
  | _ => true

theorem keepsWakeups_of_check {s t : PoolState} {a : PoolEvent} (h : keepsWakeups s a = true) :
    KeepsWakeups s a t := by
  rintro - i rfl ⟨⟨r, hr, hnotified⟩, hunits⟩
  have hany : s.requests.any Request.isNotified = true := List.any_eq_true.mpr ⟨r, hr, hnotified⟩
  simp [keepsWakeups, hany, Pool.units_pos_iff.mpr hunits] at h

/-- A pool of one with two waiters: one times out while nothing is there, the other gets the
connection that is released. -/
theorem two_waiters_served :
    let s : PoolState := ⟨⟨[], 1, 0, false⟩, 0, []⟩
    let events : List PoolEvent := [.arrive 7, .arrive 8, .arrive 9, .enter 0, .create 0 true,
      .enter 1, .enter 2, .resume 1 true, .execute 0 true, .release 0 (some 2), .resume 2 false]
    (run poolStep s events).isSome = true ∧
      AllSteps poolStep TimesOutEmpty s events ∧ AllStates poolStep NoneStranded s events := by
  intro s events
  have hcheck : checkSteps poolStep keepsWakeups s events = true := by decide
  have hok : AllSteps poolStep KeepsWakeups s events :=
    .of_check hcheck fun _ _ _ => keepsWakeups_of_check
  exact ⟨by decide, (no_stranded_connection_iff ⟨by decide, rfl⟩ events).mpr hok⟩

/-- A pool of one with two waiters: `Release` wakes the first, whose deadline has passed. It
returns null while the connection is idle, and the second stays parked. -/
theorem late_waiter_strands_connection :
    let s : PoolState := ⟨⟨[], 1, 0, false⟩, 0, []⟩
    let events : List PoolEvent := [.arrive 7, .arrive 8, .arrive 9, .enter 0, .create 0 true,
      .enter 1, .enter 2, .execute 0 true, .release 0 (some 1), .resume 1 true]
    NewPool s ∧ ¬ AllSteps poolStep TimesOutEmpty s events ∧
      ¬ AllStates poolStep NoneStranded s events := by
  intro s events
  let waiting : Request := ⟨9, .parked, 0, 0⟩
  let served : Request := ⟨7, .finished (.executed true), 1, 1⟩
  let before : PoolState := ⟨⟨[0], 1, 1, false⟩, 1, [served, ⟨8, .notified, 0, 0⟩, waiting]⟩
  let after : PoolState :=
    ⟨⟨[0], 1, 1, false⟩, 1, [served, ⟨8, .finished .timedOut, 0, 0⟩, waiting]⟩
  refine ⟨⟨by decide, rfl⟩, ?_, ?_⟩
  · have hrun : run poolStep s (events.take 9) = some before := by decide
    have hstep : poolStep before (.resume 1 true) = some after := by decide
    exact @not_allSteps _ _ _ _ _ _ _ _ [] _ hrun hstep
      fun hempty => absurd (hempty rfl 1 rfl).1 (by decide)
  · intro hall
    have hrun : run poolStep s events = some after := by decide
    have hunits := (hall.last hrun) rfl ⟨waiting, by decide, rfl⟩
    exact absurd hunits (by decide)

end AsioServer.Services
