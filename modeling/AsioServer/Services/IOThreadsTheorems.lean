/-
AsioServer.Services.IOThreadsTheorems — when the blocking wait of `Acquire`
starves the IO threads.

`NoStarve` says of a state that, while a request waits because all connections
are lent, some holder of a connection is on a thread that can still run its
`Release`. Only one step can break it: a request that starts to wait.
`MayWait` is the exact condition on that step, and `no_starvation_iff` carries
the equivalence to whole runs. A step either fades (waiters leave, holders
stay), lends a connection to a thread that is not blocked, or takes one back.
-/
import AsioServer.Services.IOThreads
import AsioServer.Services.DBConnectionPoolTheorems

namespace AsioServer.Services

open AsioServer.Lib

variable {T : Type*} {assign : Nat → T}

/-! ## The property and its condition -/

/-- When a request waits because all connections are lent, some connection is
held on a thread that is not blocked. -/
def NoStarve (assign : Nat → T) (s : PoolState) : Prop :=
  s.lent = s.pool.max → (∃ r ∈ s.requests, r.isWaiting = true) →
    ∃ q ∈ s.requests, q.holds = true ∧ ¬ Blocked assign s (assign q.session)

/-- A request that enters an open pool whose connections are all lent finds one
of them on another thread that is not blocked. -/
def MayWait (assign : Nat → T) (s : PoolState) (a : PoolEvent) (_ : PoolState) : Prop :=
  ∀ i, a = .enter i → ∀ r, s.requests[i]? = some r → s.pool.closed = false →
    s.lent = s.pool.max → ∃ q ∈ s.requests, q.holds = true ∧
      assign q.session ≠ assign r.session ∧ ¬ Blocked assign s (assign q.session)

theorem Request.not_holds_of_waiting {r : Request} (hw : r.isWaiting = true) :
    r.holds = false := by
  cases hp : r.place <;> simp_all [Request.isWaiting, Place.isWaiting, Request.holds, Place.lent]

/-! ## Steps after which fewer requests wait -/

/-- Nobody starts to wait and every holder keeps its connection. -/
structure Fades (s t : PoolState) : Prop where
  max : t.pool.max = s.pool.max
  lent : t.lent = s.lent
  waiting : ∀ r' ∈ t.requests, r'.isWaiting = true →
    ∃ r ∈ s.requests, r.session = r'.session ∧ r.isWaiting = true
  holding : ∀ r ∈ s.requests, r.holds = true →
    ∃ r' ∈ t.requests, r'.session = r.session ∧ r'.holds = true

theorem Fades.trans {s t u : PoolState} (h : Fades s t) (h' : Fades t u) : Fades s u where
  max := h'.max.trans h.max
  lent := h'.lent.trans h.lent
  waiting := by
    intro r hr hw
    obtain ⟨q, hq, hqr, hqw⟩ := h'.waiting r hr hw
    obtain ⟨p, hp, hpq, hpw⟩ := h.waiting q hq hqw
    exact ⟨p, hp, hpq.trans hqr, hpw⟩
  holding := by
    intro r hr hh
    obtain ⟨q, hq, hqr, hqh⟩ := h.holding r hr hh
    obtain ⟨p, hp, hpq, hph⟩ := h'.holding q hq hqh
    exact ⟨p, hp, hpq.trans hqr, hph⟩

theorem Fades.noStarve {s t : PoolState} (h : Fades s t) (hs : NoStarve assign s) :
    NoStarve assign t := by
  intro hlent ⟨w, hw, hwait⟩
  obtain ⟨v, hv, -, hvwait⟩ := h.waiting w hw hwait
  obtain ⟨q, hq, hholds, hfree⟩ := hs (by rw [← h.lent, ← h.max]; exact hlent) ⟨v, hv, hvwait⟩
  obtain ⟨q', hq', hsession, hholds'⟩ := h.holding q hq hholds
  refine ⟨q', hq', hholds', ?_⟩
  rintro ⟨b, hb, hthread, hbwait⟩
  obtain ⟨c, hc, hcb, hcwait⟩ := h.waiting b hb hbwait
  exact hfree ⟨c, hc, by rw [hcb, hthread, hsession], hcwait⟩

/-- A request moves, keeps what it holds and does not start to wait. -/
theorem fades_put {s : PoolState} {p : Pool} {i : Nat} {r : Request}
    (hr : s.requests[i]? = some r) (pl : Place) (hmax : p.max = s.pool.max)
    (hholds : r.holds = pl.lent.isSome) (hwait : pl.isWaiting = true → r.isWaiting = true) :
    Fades s (({ s with pool := p } : PoolState).put i { r with place := pl }) := by
  let r' : Request := { r with place := pl }
  refine ⟨hmax, ?_, ?_, ?_⟩
  · have hcount := countP_set_add Request.holds (m := r') hr
    have hsame : contrib Request.holds r' = contrib Request.holds r := contrib_congr hholds.symm
    show (s.requests.set i r').countP Request.holds = s.requests.countP Request.holds
    omega
  · intro q hq hqwait
    rcases mem_set_cases hq with rfl | hq
    · exact ⟨r, List.mem_of_getElem? hr, rfl, hwait hqwait⟩
    · exact ⟨q, hq, rfl, hqwait⟩
  · intro q hq hqholds
    obtain ⟨j, hj⟩ := List.mem_iff_getElem?.mp hq
    by_cases hij : i = j
    · subst hij
      obtain rfl := Option.some.inj (hr.symm.trans hj)
      exact ⟨r', List.mem_of_getElem? (getElem?_set_self_of_some hr), rfl,
        hholds.symm.trans hqholds⟩
    · refine ⟨q, List.mem_of_getElem? (i := j) ?_, rfl, hqholds⟩
      show (s.requests.set i r')[j]? = some q
      rw [List.getElem?_set_ne hij, hj]

/-- Waking parked requests changes neither who waits nor who holds. -/
theorem fades_woken {s : PoolState} {p : Pool} {rs : List Request} (hmax : p.max = s.pool.max)
    (hlent : rs.countP Request.holds = s.requests.countP Request.holds)
    (hback : ∀ (j : Nat) (x : Request), rs[j]? = some x →
      ∃ r, s.requests[j]? = some r ∧ (x = r ∨ (r.isParked = true ∧ x = r.wake)))
    (hforth : ∀ (j : Nat) (r : Request), s.requests[j]? = some r →
      ∃ x, rs[j]? = some x ∧ (x = r ∨ (r.isParked = true ∧ x = r.wake))) :
    Fades s { s with pool := p, requests := rs } where
  max := hmax
  lent := hlent
  waiting := by
    intro x hx hwait
    obtain ⟨j, hj⟩ := List.mem_iff_getElem?.mp hx
    obtain ⟨r, hr, rfl | ⟨hpark, rfl⟩⟩ := hback j x hj
    · exact ⟨x, List.mem_of_getElem? hr, rfl, hwait⟩
    · refine ⟨r, List.mem_of_getElem? hr, rfl, ?_⟩
      have hplace : r.place = .parked := by simpa [Request.isParked] using hpark
      rw [Request.isWaiting, hplace]
      rfl
  holding := by
    intro r hr hholds
    obtain ⟨j, hj⟩ := List.mem_iff_getElem?.mp hr
    obtain ⟨x, hx, rfl | ⟨hpark, rfl⟩⟩ := hforth j r hj
    · exact ⟨x, List.mem_of_getElem? hx, rfl, hholds⟩
    · have hplace : r.place = .parked := by simpa [Request.isParked] using hpark
      exact absurd hholds (by simp [Request.holds, hplace, Place.lent])

theorem fades_notify {s t : PoolState} {w : Option Nat} (hn : s.notify w = some t) :
    Fades s t := by
  rw [PoolState.notify, Option.map_eq_some_iff] at hn
  obtain ⟨rs, hrs, rfl⟩ := hn
  exact fades_woken (p := s.pool) rfl
    (countP_notifyOne (Request.wake_same (fun p => p.lent.isSome) rfl) hrs)
    (fun _ _ => getElem?_notifyOne hrs) (fun _ _ => notifyOne_getElem? hrs)

theorem fades_closeAll (s : PoolState) : Fades s { s with
    pool := s.pool.closeAll
    requests := notifyAll Request.isParked Request.wake s.requests } :=
  fades_woken rfl (countP_notifyAll (Request.wake_same (fun p => p.lent.isSome) rfl) s.requests)
    (fun _ _ => getElem?_notifyAll) (fun _ _ => notifyAll_getElem?)

theorem fades_arrive (s : PoolState) (session : Nat) :
    Fades s { s with requests := s.requests ++ [{ session }] } where
  max := rfl
  lent := by simp [PoolState.lent, List.countP_append, Request.holds, Place.lent]
  waiting := by
    intro r hr hwait
    rcases List.mem_append.mp hr with hr | hr
    · exact ⟨r, hr, rfl, hwait⟩
    · rw [List.mem_singleton.mp hr] at hwait
      exact absurd hwait (by simp [Request.isWaiting, Place.isWaiting])
  holding := fun r hr hholds => ⟨r, List.mem_append_left _ hr, rfl, hholds⟩

/-! ## Steps that take back or wait -/

/-- Nobody waits for the others when a connection is free to be lent. -/
theorem noStarve_of_lt {s : PoolState} (h : s.lent < s.pool.max) : NoStarve assign s :=
  fun hlent _ => absurd hlent (Nat.ne_of_lt h)

theorem PoolInv.lent_le_max {s : PoolState} (h : PoolInv s) : s.lent ≤ s.pool.max := by
  have htotal := h.total
  have hbound := h.bound
  omega

/-- A release leaves less than `_max` connections lent. -/
theorem noStarve_of_release {s t : PoolState} (h : PoolInv s) {i : Nat} {r r' : Request}
    (hr : s.requests[i]? = some r) (hmax : t.pool.max = s.pool.max)
    (hlent : t.lent = (s.requests.set i r').countP Request.holds) (hholds : r.holds = true)
    (hholds' : r'.holds = false) : NoStarve assign t := by
  have hcount := countP_set_add Request.holds (m := r') hr
  have hone := contrib_of_true (p := Request.holds) hholds
  have hzero := contrib_of_false (p := Request.holds) hholds'
  have hle := h.lent_le_max
  simp only [PoolState.lent] at hle
  exact noStarve_of_lt (by rw [hlent, hmax]; omega)

/-- When all connections are lent on an open pool, a pass through the loop waits. -/
theorem PoolInv.pass_of_full {s : PoolState} (h : PoolInv s) (hlent : s.lent = s.pool.max) :
    s.pool.idle = [] ∧ ¬ s.pool.created < s.pool.max := by
  have htotal := h.total
  have hbound := h.bound
  exact ⟨List.length_eq_zero_iff.mp (by omega), by omega⟩

/-- **A request that starts to wait** starves nobody exactly when it finds a
holder on another thread that is not blocked. -/
theorem noStarve_wait_iff {s : PoolState} {i : Nat} {r : Request}
    (hr : s.requests[i]? = some r) (hp : r.place = .entering) :
    NoStarve assign (s.put i { r with place := .parked }) ↔
      (s.lent = s.pool.max → ∃ q ∈ s.requests, q.holds = true ∧
        assign q.session ≠ assign r.session ∧ ¬ Blocked assign s (assign q.session)) := by
  let r' : Request := { r with place := .parked }
  have hself : r' ∈ (s.put i r').requests :=
    List.mem_of_getElem? (getElem?_set_self_of_some hr)
  have hlent : (s.put i r').lent = s.lent := by
    have hcount := countP_set_add Request.holds (m := r') hr
    have hsame : contrib Request.holds r' = contrib Request.holds r :=
      contrib_congr (by simp [Request.holds, r', hp, Place.lent])
    simp only [PoolState.lent, PoolState.put]
    omega
  -- the other requests are the same before and after
  have hother : ∀ q, q.place ≠ .entering → q ∈ s.requests → q ∈ (s.put i r').requests := by
    intro q hplace hq
    obtain ⟨j, hj⟩ := List.mem_iff_getElem?.mp hq
    refine List.mem_of_getElem? (i := j) ?_
    have hij : i ≠ j := by
      rintro rfl
      rw [hr] at hj
      exact hplace (Option.some.inj hj ▸ hp)
    show (s.requests.set i r')[j]? = some q
    rw [List.getElem?_set_ne hij, hj]
  constructor
  · intro h hfull
    obtain ⟨q, hq, hholds, hfree⟩ := h (hlent.trans hfull) ⟨r', hself, rfl⟩
    have hqs : q ∈ s.requests := by
      rcases mem_set_cases hq with rfl | hq
      · exact absurd hholds (by simp [Request.holds, Place.lent])
      · exact hq
    refine ⟨q, hqs, hholds, fun hthread => hfree ⟨r', hself, hthread.symm, rfl⟩, ?_⟩
    rintro ⟨b, hb, hthread, hwait⟩
    refine hfree ⟨b, hother b ?_ hb, hthread, hwait⟩
    intro hplace
    simp [Request.isWaiting, hplace, Place.isWaiting] at hwait
  · intro h hfull _
    obtain ⟨q, hq, hholds, hthread, hfree⟩ := h (hlent.symm.trans hfull)
    refine ⟨q, hother q ?_ hq, hholds, ?_⟩
    · intro hplace
      simp [Request.holds, hplace, Place.lent] at hholds
    · rintro ⟨b, hb, hbthread, hwait⟩
      rcases mem_set_cases hb with rfl | hb
      · exact hthread hbthread.symm
      · exact hfree ⟨b, hb, hbthread, hwait⟩

/-- Nobody waits before the first request. -/
theorem noStarve_init {s : PoolState} (h : PoolInit s) : NoStarve assign s := by
  obtain ⟨-, -, -, -, hreq⟩ := h
  rintro - ⟨r, hr, -⟩
  simp [hreq] at hr

/-! ## Steps of the threads -/

variable [DecidableEq T]

/-- A step of the threads is a step of the pool, taken on a free thread. -/
theorem poolStep_of_threadStep {s t : PoolState} {a : PoolEvent}
    (h : threadStep assign s a = some t) :
    poolStep s a = some t ∧ ∀ i r, a.actor = some i → s.requests[i]? = some r →
      threadFree assign s i r = true := by
  unfold threadStep at h
  split at h
  · next ha => exact ⟨h, fun i r hi => absurd hi (by simp [ha])⟩
  · next i ha =>
    split at h
    · next r hr =>
      split at h
      · next hfree =>
        refine ⟨h, fun j q hj hq => ?_⟩
        obtain rfl : i = j := Option.some.inj (ha.symm.trans hj)
        obtain rfl : r = q := Option.some.inj (hr.symm.trans hq)
        exact hfree
      · exact absurd h (by simp)
    · exact absurd h (by simp)

theorem not_running_of_threadFree {s : PoolState} {i j : Nat} {r q : Request}
    (hfree : threadFree assign s i r = true) (hq : s.requests[j]? = some q) (hj : j ≠ i)
    (hthread : assign q.session = assign r.session) : q.place.running = false := by
  have hmem : q ∈ s.requests.eraseIdx i := List.mem_eraseIdx_iff_getElem?.mpr ⟨j, hj, hq⟩
  have hall := List.all_eq_true.mp hfree q hmem
  simpa [hthread] using hall

theorem Place.running_of_waiting {p : Place} (h : p.isWaiting = true) : p.running = true := by
  cases p <;> simp_all [Place.isWaiting, Place.running, Place.inAcquire]

/-- A connection that is lent on a free thread can be released. -/
theorem noStarve_of_receive {s t : PoolState} {i : Nat} {r r' : Request}
    (hr : s.requests[i]? = some r) (hfree : threadFree assign s i r = true)
    (ht : t.requests = s.requests.set i r') (hsession : r'.session = r.session)
    (hholds : r'.holds = true) (hwait : r'.isWaiting = false) : NoStarve assign t := by
  intro _ _
  have hmem : r' ∈ t.requests := by
    rw [ht]
    exact List.mem_of_getElem? (getElem?_set_self_of_some hr)
  refine ⟨r', hmem, hholds, ?_⟩
  rintro ⟨b, hb, hthread, hbwait⟩
  rw [ht] at hb
  obtain ⟨j, hj⟩ := List.mem_iff_getElem?.mp hb
  rcases getElem?_set_cases hj with ⟨-, rfl⟩ | ⟨hji, hj⟩
  · simp [hwait] at hbwait
  · have hidle := not_running_of_threadFree hfree hj hji (by rw [hthread, hsession])
    rw [Place.running_of_waiting hbwait] at hidle
    exact absurd hidle (by simp)

/-- A pass through the loop by a request that waits already. -/
theorem noStarve_passBy_waiting {s : PoolState} {i : Nat} {r : Request}
    (hs : NoStarve assign s) (hr : s.requests[i]? = some r)
    (hfree : threadFree assign s i r = true) (hw : r.isWaiting = true) :
    NoStarve assign (s.passBy i r) := by
  have hholds := Request.not_holds_of_waiting hw
  rcases s.passBy_cases i r with ⟨c, rest, -, heq⟩ | ⟨-, -, heq⟩ | ⟨-, -, heq⟩
  · rw [heq]
    exact noStarve_of_receive hr hfree rfl rfl rfl rfl
  · rw [heq]
    exact (fades_put hr .creating rfl hholds fun _ => hw).noStarve hs
  · rw [heq]
    exact (fades_put (p := s.pool) hr .parked rfl hholds fun _ => hw).noStarve hs

/-- The first pass through the loop, by a request that has just entered. -/
theorem noStarve_passBy_entering {s : PoolState} (h : PoolInv s) {i : Nat} {r : Request}
    (hs : NoStarve assign s) (hr : s.requests[i]? = some r)
    (hfree : threadFree assign s i r = true) (hp : r.place = .entering) :
    NoStarve assign (s.passBy i r) ↔
      (s.lent = s.pool.max → ∃ q ∈ s.requests, q.holds = true ∧
        assign q.session ≠ assign r.session ∧ ¬ Blocked assign s (assign q.session)) := by
  have hholds : r.holds = false := by simp [Request.holds, hp, Place.lent]
  rcases s.passBy_cases i r with ⟨c, rest, hidle, heq⟩ | ⟨-, hlt, heq⟩ | ⟨-, -, heq⟩
  · rw [heq]
    refine ⟨fun _ hfull => ?_, fun _ => noStarve_of_receive hr hfree rfl rfl rfl rfl⟩
    exact absurd (h.pass_of_full hfull).1 (by simp [hidle])
  · rw [heq]
    refine ⟨fun _ hfull => absurd hlt (h.pass_of_full hfull).2, fun _ => ?_⟩
    exact (fades_put hr .creating rfl hholds (by simp [Place.isWaiting])).noStarve hs
  · rw [heq]
    exact noStarve_wait_iff hr hp

/-- One step from a state in which nobody starves. -/
theorem noStarve_step_iff {s t : PoolState} {a : PoolEvent} (h : PoolInv s)
    (hs : NoStarve assign s) (hstep : threadStep assign s a = some t) :
    NoStarve assign t ↔ MayWait assign s a t := by
  obtain ⟨hpool, hfree⟩ := poolStep_of_threadStep hstep
  -- every step but `enter` meets the condition
  have hother : (∀ i, a ≠ .enter i) → NoStarve assign t →
      (NoStarve assign t ↔ MayWait assign s a t) :=
    fun hne ht => ⟨fun _ i hi => absurd hi (hne i), fun _ => ht⟩
  cases effect_of_step hpool with
  | arrive session => exact hother (by simp) ((fades_arrive s session).noStarve hs)
  | closeAll => exact hother (by simp) ((fades_closeAll s).noStarve hs)
  | @refuse i r hr hp hc =>
      have ht : NoStarve assign (s.put i { r with place := .finished .refused }) := by
        refine (fades_put (p := s.pool) hr _ rfl ?_ ?_).noStarve hs
        · simp [Request.holds, hp, Place.lent]
        · simp [Place.isWaiting]
      exact ⟨fun _ j _ q _ hopen => absurd hc (by simp [hopen]), fun _ => ht⟩
  | @enter i r hr hp hc =>
      rw [noStarve_passBy_entering h hs hr (hfree i r rfl hr) hp]
      constructor
      · intro hfound j hj q hq _ hfull
        obtain rfl := PoolEvent.enter.inj hj
        obtain rfl := Option.some.inj (hr.symm.trans hq)
        exact hfound hfull
      · exact fun hmay hfull => hmay i rfl r hr hc hfull
  | timeOut hr hw =>
      have hholds := Request.not_holds_of_waiting hw
      exact hother (by simp) ((fades_put (p := s.pool) hr (.finished .timedOut) rfl hholds
        fun _ => hw).noStarve hs)
  | @resume i r hr hw =>
      exact hother (by simp) (noStarve_passBy_waiting hs hr (hfree i r rfl hr) hw)
  | @create i r hr hp =>
      exact hother (by simp) (noStarve_of_receive hr (hfree i r rfl hr) rfl rfl rfl rfl)
  | createNull hr hp =>
      refine hother (by simp) ((fades_put (p := s.pool) hr _ rfl ?_ ?_).noStarve hs)
      · simp [Request.holds, hp, Place.lent]
      · simp [Place.isWaiting]
  | rollback hr hp hn =>
      refine hother (by simp)
        (((fades_put (p := s.pool.rollback) hr _ rfl ?_ ?_).trans (fades_notify hn)).noStarve hs)
      · simp [Request.holds, hp, Place.lent]
      · simp [Place.isWaiting]
  | execute hr hp =>
      refine hother (by simp) ((fades_put (p := s.pool) hr _ rfl ?_ ?_).noStarve hs)
      · simp [Request.holds, hp, Place.lent]
      · simp [Place.isWaiting]
  | releaseClosed hr hp hc =>
      refine hother (by simp) (noStarve_of_release h hr rfl rfl ?_ rfl)
      simp [Request.holds, hp, Place.lent]
  | release hr hp hc hn =>
      have hfade := fades_notify hn
      refine hother (by simp) (noStarve_of_release h hr hfade.max hfade.lent ?_ rfl)
      simp [Request.holds, hp, Place.lent]

/-! ## Whole runs -/

/-- **No starvation, exactly.** For every assignment of sessions to threads, a
run never blocks all the threads that hold the connections if and only if each
request that starts to wait for a lent connection finds one on another thread
that is not blocked. -/
theorem no_starvation_iff (assign : Nat → T) {s : PoolState} (h : PoolInit s)
    (as : List PoolEvent) :
    AllStates (threadStep assign) (NoStarve assign) s as ↔
      AllSteps (threadStep assign) (MayWait assign) s as := by
  have hinv : ∀ s a t, PoolInv s → threadStep assign s a = some t → PoolInv t :=
    fun _ _ _ hs ht => hs.step (poolStep_of_threadStep ht).1
  have hstep : ∀ s a t, PoolInv s → NoStarve assign s → threadStep assign s a = some t →
      (NoStarve assign t ↔ MayWait assign s a t) :=
    fun _ _ _ => noStarve_step_iff
  exact allStates_iff_allSteps hinv hstep as s (poolInv_init h) (noStarve_init h)

/-- One connection and two threads: the second request may wait for the first. -/
theorem no_starvation_two_threads : ∃ s as t,
    PoolInit s ∧ run (threadStep fun session => session % 2 == 0) s as = some t ∧
      AllStates (threadStep fun session => session % 2 == 0)
        (NoStarve fun session => session % 2 == 0) s as := by
  let assign : Nat → Bool := fun session => session % 2 == 0
  let pool : Pool := { idle := [], max := 1, created := 0, closed := false }
  let full : Pool := { pool with created := 1 }
  let s₀ : PoolState := ⟨pool, 0, []⟩
  let s₁ : PoolState := ⟨pool, 0, [⟨0, .entering, 0, 0⟩]⟩
  let s₂ : PoolState := ⟨full, 0, [⟨0, .creating, 0, 0⟩]⟩
  let s₃ : PoolState := ⟨full, 1, [⟨0, .executing 0, 1, 0⟩]⟩
  let s₄ : PoolState := ⟨full, 1, [⟨0, .executing 0, 1, 0⟩, ⟨1, .entering, 0, 0⟩]⟩
  let s₅ : PoolState := ⟨full, 1, [⟨0, .executing 0, 1, 0⟩, ⟨1, .parked, 0, 0⟩]⟩
  have hinit : PoolInit s₀ := ⟨1, fun _ => true, rfl, rfl, rfl⟩
  have hsteps : AllSteps (threadStep assign) (MayWait assign) s₀
      [.arrive 0, .enter 0, .create 0 true, .arrive 1, .enter 1] := by
    refine allSteps_cons (t := s₁) (by decide) (fun i hi => by simp at hi) ?_
    refine allSteps_cons (t := s₂) (by decide) (fun i _ r _ _ hfull => absurd hfull (by decide)) ?_
    refine allSteps_cons (t := s₃) (by decide) (fun i hi => by simp at hi) ?_
    refine allSteps_cons (t := s₄) (by decide) (fun i hi => by simp at hi) ?_
    refine allSteps_cons (t := s₅) (by decide) (fun i hi r hr _ _ => ?_) trivial
    obtain rfl := PoolEvent.enter.inj hi
    obtain rfl := Option.some.inj hr
    exact ⟨⟨0, .executing 0, 1, 0⟩, by decide, rfl, by decide, by decide⟩
  exact ⟨s₀, _, s₅, hinit, by decide, (no_starvation_iff assign hinit _).mpr hsteps⟩

/-- Two connections and one thread: when the third request waits, both holders
are on the thread that it blocks. -/
theorem one_thread_starves : ¬ ∀ (assign : Nat → Nat) (s : PoolState),
    Reachable (threadStep assign) PoolInit s → NoStarve assign s := by
  let start : PoolState :=
    { pool := { idle := [0], max := 2, created := 1, closed := false }, nextConn := 1 }
  let events : List PoolEvent := [.arrive 7, .arrive 8, .arrive 9, .enter 0, .enter 1,
    .create 1 true, .enter 2]
  let final : PoolState :=
    { pool := { idle := [], max := 2, created := 2, closed := false }
      nextConn := 2
      requests := [⟨7, .executing 0, 1, 0⟩, ⟨8, .executing 1, 1, 0⟩, ⟨9, .parked, 0, 0⟩] }
  have hreach : Reachable (threadStep fun _ => 0) PoolInit final :=
    ⟨start, events, ⟨2, fun _ => true, rfl, rfl, rfl⟩, by decide⟩
  intro h
  obtain ⟨q, -, -, hfree⟩ := h (fun _ => 0) final hreach rfl ⟨⟨9, .parked, 0, 0⟩, by decide, rfl⟩
  exact hfree ⟨⟨9, .parked, 0, 0⟩, by decide, rfl, rfl⟩

end AsioServer.Services
