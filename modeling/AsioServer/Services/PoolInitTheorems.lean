/-
AsioServer.Services.PoolInitTheorems — the counter that `Initialize` leaves behind.

`Initialize` pushes its connections one by one and sets `_created` after the last
one. When an attempt fails, the connections before it stay in the idle queue and the
counter stays 0 (`mySqlInitialize_spec`). Counter and queue agree exactly when no
attempt fails or the first one does (`initialize_consistent_iff`).

`Acquire` compares the counter with `_max`, so the connections that the counter does
not know come on top of `_max`: a pool with a surplus of idle connections behaves like a
pool with a counter and a maximum that are higher by the surplus (`poolStep_shift`).
So `_max` bounds the connections of every run exactly when the counter is right
(`live_bounded_iff`).
-/
import AsioServer.Services.DBPoolsTheorems
import AsioServer.Services.PoolWaitersTheorems

namespace AsioServer.Services

open AsioServer.Lib

/-! ## Initialize -/

/-- `_created` is the number of idle connections and at most `_max`. -/
def Pool.Consistent (pool : Pool) : Prop :=
  pool.created = pool.idle.length ∧ pool.created ≤ pool.max

/-- What `Initialize` leaves: the connections before the first failure, and the counter. -/
theorem mySqlInitialize_spec (max : Nat) (valid : Nat → Bool) :
    ∃ k ≤ max / 2, (mySqlInitialize max valid).1.idle = List.range' 0 k ∧
      (∀ j < k, valid j = true) ∧
      (k = max / 2 ∧ (mySqlInitialize max valid).1.created = k ∨
        k < max / 2 ∧ valid k = false ∧ (mySqlInitialize max valid).1.created = 0) := by
  obtain ⟨k, hpushed, hbefore, hend⟩ := @initLoop_spec valid (max / 2) []
  simp only [List.length_nil, Nat.zero_add, List.nil_append] at hpushed hbefore hend
  rcases hend with ⟨hdone, rfl⟩ | ⟨hfail, hlt, hinvalid⟩
  · refine ⟨max / 2, Nat.le_refl _, hpushed, hbefore, .inl ⟨rfl, ?_⟩⟩
    simp [mySqlInitialize, hdone, hpushed]
  · refine ⟨k, Nat.le_of_lt hlt, hpushed, hbefore, .inr ⟨hlt, hinvalid, ?_⟩⟩
    simp [mySqlInitialize, hfail]

/-- **`Initialize` leaves a consistent counter exactly when all its attempts succeed or
the first one fails.** -/
theorem initialize_consistent_iff (max : Nat) (valid : Nat → Bool) :
    (mySqlInitialize max valid).1.Consistent ↔
      (∀ k < max / 2, valid k = true) ∨ valid 0 = false := by
  obtain ⟨k, hk, hidle, hbefore, hend⟩ := mySqlInitialize_spec max valid
  have hmax : (mySqlInitialize max valid).1.max = max := rfl
  rw [Pool.Consistent, hidle, List.length_range', hmax]
  rcases hend with ⟨rfl, hcreated⟩ | ⟨hlt, hinvalid, hcreated⟩
  · exact ⟨fun _ => .inl hbefore, fun _ => ⟨hcreated, by omega⟩⟩
  · rw [hcreated]
    constructor
    · rintro ⟨rfl, -⟩
      exact .inr hinvalid
    · rintro (hall | hfirst)
      · exact absurd (hall k hlt) (by simp [hinvalid])
      · cases k with
        | zero => exact ⟨rfl, Nat.zero_le _⟩
        | succ k => exact absurd (hbefore 0 (by omega)) (by simp [hfirst])

/-- With a maximum of 4 the first attempt succeeds and the second fails: one connection is
idle and the counter is 0. -/
theorem failed_attempt_leaves_connection :
    (mySqlInitialize 4 fun k => k == 0).1 = { idle := [0], max := 4, created := 0, closed := false }
      ∧ ¬ (mySqlInitialize 4 fun k => k == 0).1.Consistent := by
  refine ⟨by decide, fun h => absurd h.1 (by decide)⟩

/-! ## A surplus of connections -/

/-- The connections that exist or are being made. -/
def PoolState.live (s : PoolState) : Nat := s.pool.idle.length + s.lent + s.creating

/-- A counter and a maximum that are higher by `d`. -/
def Pool.shift (d : Nat) (p : Pool) : Pool :=
  { p with created := p.created + d, max := p.max + d }

def PoolState.shift (d : Nat) (s : PoolState) : PoolState := { s with pool := s.pool.shift d }

section Shift

variable {d : Nat} {s t : PoolState} {a : PoolEvent}

theorem Pool.pass_shift (d : Nat) (p : Pool) :
    (p.shift d).pass = (p.pass.1, p.pass.2.shift d) := by
  unfold Pool.pass
  cases hidle : p.idle with
  | cons c rest => simp [Pool.shift, hidle]
  | nil =>
      by_cases hlt : p.created < p.max
      · have hlt' : p.created + d < p.max + d := by omega
        simp [Pool.shift, hidle, hlt, Nat.add_right_comm]
      · have hlt' : ¬ p.created + d < p.max + d := by omega
        simp [Pool.shift, hidle, hlt]

theorem PoolState.passBy_shift (d : Nat) (s : PoolState) (i : Nat) (r : Request) :
    (s.shift d).passBy i r = (s.passBy i r).shift d := by
  have hpass : (s.shift d).pool.pass = (s.pool.pass.1, s.pool.pass.2.shift d) :=
    Pool.pass_shift d s.pool
  unfold PoolState.passBy
  rw [hpass]
  obtain ⟨pass, p⟩ := s.pool.pass
  cases pass <;> rfl

theorem PoolState.notify_shift (d : Nat) (s : PoolState) (woken : Option Nat) :
    (s.shift d).notify woken = (s.notify woken).map (PoolState.shift d) := by
  simp only [PoolState.notify, Option.map_map]
  rfl

theorem Pool.rollback_shift (d : Nat) {p : Pool} (hpos : 0 < p.created) :
    (p.shift d).rollback = p.rollback.shift d := by
  have hshifted : sizeDecr (p.created + d) = sizeDecr p.created + d := by
    rw [sizeDecr, sizeDecr, if_neg (by omega), if_neg (by omega)]
    omega
  simp [Pool.rollback, Pool.shift, hshifted]

theorem Pool.release_shift (d : Nat) (p : Pool) (c : Conn) :
    (p.shift d).release c = (p.release c).shift d := by
  unfold Pool.release
  split <;> split <;> simp_all [Pool.shift]

/-- One step of a request, with the counter and the maximum shifted. -/
theorem requestStep_shift {i : Nat} {r : Request} (h : PoolCounts s)
    (hr : s.requests[i]? = some r) :
    requestStep (s.shift d) i r a = (requestStep s i r a).map (PoolState.shift d) := by
  cases a with
  | arrive | closeAll => rfl
  | enter j =>
      simp only [requestStep]
      cases r.place with
      | entering =>
          dsimp only
          rw [PoolState.passBy_shift]
          cases hc : s.pool.closed <;> simp [PoolState.shift, Pool.shift, hc, PoolState.put]
      | _ => rfl
  | resume j timedOut =>
      simp only [requestStep]
      rw [PoolState.passBy_shift]
      cases r.isWaiting <;> cases timedOut <;> rfl
  | create j ok =>
      simp only [requestStep]
      cases r.place with
      | creating => cases ok <;> rfl
      | _ => rfl
  | rollback j woken =>
      simp only [requestStep]
      cases hp : r.place with
      | failed =>
          have hpos := h.created_pos hr (by rw [hp]; rfl)
          dsimp only
          rw [← PoolState.notify_shift]
          simp only [PoolState.shift, PoolState.put, Pool.rollback_shift d hpos]
      | _ => rfl
  | execute j ok =>
      simp only [requestStep]
      cases r.place <;> rfl
  | release j woken =>
      simp only [requestStep]
      cases r.place with
      | releasing c ok =>
          dsimp only
          have hput : { s.shift d with pool := (s.shift d).pool.release c }.put i (r.giveBack ok) =
              ({ s with pool := s.pool.release c }.put i (r.giveBack ok)).shift d := by
            simp only [PoolState.shift, PoolState.put, Pool.release_shift]
          rw [hput, PoolState.notify_shift]
          cases hc : s.pool.closed <;> simp [PoolState.shift, Pool.shift, hc]
      | _ => rfl

/-- The step of a request. -/
theorem poolStep_of_actor {i : Nat} (ha : a.actor = some i) :
    poolStep s a = s.requests[i]?.bind fun r => requestStep s i r a := by
  cases a with
  | arrive | closeAll => simp [PoolEvent.actor] at ha
  | enter | resume | create | rollback | execute | release =>
      simp only [poolStep, ha]
      cases s.requests[i]? with
      | none => rfl
      | some r => rfl

/-- **A pool with a surplus takes the steps of one with a higher counter and maximum.** -/
theorem poolStep_shift (h : PoolCounts s) :
    poolStep (s.shift d) a = (poolStep s a).map (PoolState.shift d) := by
  cases ha : a.actor with
  | none =>
      cases a with
      | arrive | closeAll => rfl
      | enter | resume | create | rollback | execute | release => simp [PoolEvent.actor] at ha
  | some i =>
      have hsame : (s.shift d).requests = s.requests := rfl
      rw [poolStep_of_actor ha, poolStep_of_actor ha, hsame]
      cases hr : s.requests[i]? with
      | none => rfl
      | some r => exact requestStep_shift h hr

end Shift

/-! ## Lending all there is -/

section Lending

variable {s : PoolState}

/-- A new request gets the connection at the front of the idle queue. -/
theorem lend_front {c : Conn} {rest : List Conn} (hopen : s.pool.closed = false)
    (hidle : s.pool.idle = c :: rest) :
    run poolStep s [.arrive 0, .enter s.requests.length] =
      some { s with
        pool := { s.pool with idle := rest }
        requests := s.requests ++ [{ session := 0, place := .executing c, acquired := 1 }] } := by
  simp [poolStep, PoolEvent.actor, requestStep, hopen, PoolState.passBy, Pool.pass, hidle,
    PoolState.put, Request.receive]

/-- A new request gets a new connection when the counter allows it. -/
theorem lend_new (hopen : s.pool.closed = false) (hidle : s.pool.idle = [])
    (hlt : s.pool.created < s.pool.max) :
    run poolStep s [.arrive 0, .enter s.requests.length, .create s.requests.length true] =
      some { pool := { s.pool with created := s.pool.created + 1 }
             nextConn := s.nextConn + 1
             requests := s.requests ++
               [{ session := 0, place := .executing s.nextConn, acquired := 1 }] } := by
  simp [poolStep, PoolEvent.actor, requestStep, hopen, PoolState.passBy, Pool.pass, hidle, hlt,
    PoolState.put, Request.receive]

theorem live_append_executing {p : Pool} {n c : Conn} :
    PoolState.live ⟨p, n, s.requests ++ [{ session := 0, place := .executing c, acquired := 1 }]⟩ =
      p.idle.length + s.lent + s.creating + 1 := by
  have hlent : [Request.mk 0 (.executing c) 1 0].countP Request.holds = 1 := rfl
  have hcreating : [Request.mk 0 (.executing c) 1 0].countP Request.isCreating = 0 := rfl
  simp only [PoolState.live, PoolState.lent, PoolState.creating, List.countP_append, hlent,
    hcreating]
  omega

/-- Requests can empty the idle queue. -/
theorem exists_drained : ∀ (idle : List Conn) (s : PoolState), s.pool.idle = idle →
    s.pool.closed = false →
    ∃ as t, run poolStep s as = some t ∧ t.pool = { s.pool with idle := [] } ∧ t.live = s.live
  | [], s, hidle, _ => ⟨[], s, rfl, by rw [← hidle], rfl⟩
  | c :: rest, s, hidle, hopen => by
      have hfirst := lend_front hopen hidle
      obtain ⟨as, t, hrun, hpool, hlive⟩ := exists_drained rest
        { s with
          pool := { s.pool with idle := rest }
          requests := s.requests ++ [{ session := 0, place := .executing c, acquired := 1 }] }
        rfl hopen
      refine ⟨_, t, (run_append poolStep s _ as).trans (by rw [hfirst]; exact hrun), hpool, ?_⟩
      have hnext : PoolState.live { s with
          pool := { s.pool with idle := rest }
          requests := s.requests ++ [{ session := 0, place := .executing c, acquired := 1 }] } =
          rest.length + s.lent + s.creating + 1 := live_append_executing
      rw [hlive, hnext, PoolState.live, hidle, List.length_cons]
      omega

/-- Requests can raise the counter to the maximum. -/
theorem exists_full : ∀ (n : Nat) (s : PoolState), s.pool.created + n = s.pool.max →
    s.pool.idle = [] → s.pool.closed = false →
    ∃ as t, run poolStep s as = some t ∧ t.live = s.live + n
  | 0, s, _, _, _ => ⟨[], s, rfl, rfl⟩
  | n + 1, s, hn, hidle, hopen => by
      have hfirst := lend_new hopen hidle (by omega)
      obtain ⟨as, t, hrun, hlive⟩ := exists_full n
        { pool := { s.pool with created := s.pool.created + 1 }
          nextConn := s.nextConn + 1
          requests := s.requests ++
            [{ session := 0, place := .executing s.nextConn, acquired := 1 }] }
        (by dsimp only; omega) hidle hopen
      refine ⟨_, t, (run_append poolStep s _ as).trans (by rw [hfirst]; exact hrun), ?_⟩
      rw [hlive, live_append_executing, PoolState.live, hidle]
      omega

end Lending

/-! ## The bound of Acquire -/

section Bound

variable {s t : PoolState} {as : List PoolEvent}

/-- No step changes the maximum. -/
theorem max_step {a : PoolEvent} (h : poolStep s a = some t) : t.pool.max = s.pool.max := by
  cases effect_of_step h with
  | enter | resume => exact (s.passBy_fields _ _).1
  | rollback hr hp hn => rw [(PoolState.notify_fields hn).1]; rfl
  | release hr hp hc hn => rw [(PoolState.notify_fields hn).1]; rfl
  | _ => rfl

theorem max_run (hrun : run poolStep s as = some t) : t.pool.max = s.pool.max := by
  have hstep : ∀ u a v, u.pool.max = s.pool.max → poolStep u a = some v →
      v.pool.max = s.pool.max := fun _ _ _ hu hv => (max_step hv).trans hu
  exact (AllStates.of_invariant hstep as s rfl).last hrun

theorem run_shift {d : Nat} : ∀ {as : List PoolEvent} {s t : PoolState}, PoolCounts s →
    run poolStep s as = some t → run poolStep (s.shift d) as = some (t.shift d)
  | [], s, t, _, hrun => by
      obtain rfl := Option.some.inj hrun
      rfl
  | a :: as, s, t, h, hrun => by
      rw [run_cons, Option.bind_eq_some_iff] at hrun ⊢
      obtain ⟨u, hu, hrun⟩ := hrun
      refine ⟨u.shift d, ?_, run_shift (h.step hu) hrun⟩
      rw [poolStep_shift h, hu]
      rfl

theorem newPool_initialized (max : Nat) (valid : Nat → Bool) : NewPool (initialized max valid) := by
  obtain ⟨k, hk, -, -, hend⟩ := mySqlInitialize_spec max valid
  have hcreated : (mySqlInitialize max valid).1.created ≤ max := by
    rcases hend with ⟨-, h⟩ | ⟨-, -, h⟩ <;> omega
  exact ⟨hcreated, rfl⟩

/-- The pool that `Initialize` leaves is, but for a surplus, one with a right counter. -/
theorem poolInv_initialized (max : Nat) (valid : Nat → Bool) :
    PoolInv ((initialized max valid).shift
      ((mySqlInitialize max valid).1.idle.length - (mySqlInitialize max valid).1.created)) := by
  obtain ⟨k, hk, hidle, -, hend⟩ := mySqlInitialize_spec max valid
  have hlen : (mySqlInitialize max valid).1.idle.length = k := by rw [hidle, List.length_range']
  rw [hlen]
  refine @poolInv_new _ k hidle ?_ ?_ hlen rfl
  · change (mySqlInitialize max valid).1.created + (k - _) = k
    rcases hend with ⟨-, h⟩ | ⟨-, -, h⟩ <;> omega
  · change k ≤ max + (k - _)
    omega

/-- The idle connections that the counter does not know come on top of the maximum. -/
theorem live_le (max : Nat) (valid : Nat → Bool)
    (hrun : run poolStep (initialized max valid) as = some t) :
    t.live ≤ max +
      ((mySqlInitialize max valid).1.idle.length - (mySqlInitialize max valid).1.created) := by
  have hcounts := poolCounts_new (newPool_initialized max valid)
  have hinv : PoolInv (t.shift _) :=
    (AllStates.of_invariant (fun _ _ _ => PoolInv.step) as _ (poolInv_initialized max valid)).last
      (run_shift hcounts hrun)
  have hmax : t.pool.max = max := max_run hrun
  have hlive := Nat.le_trans hinv.total hinv.bound
  change t.live ≤ t.pool.max + _ at hlive
  rwa [hmax] at hlive

/-- **`_max` bounds the connections of every run exactly when `Initialize` left a
consistent counter.** -/
theorem live_bounded_iff (max : Nat) (valid : Nat → Bool) :
    (∀ as t, run poolStep (initialized max valid) as = some t → t.live ≤ max) ↔
      (mySqlInitialize max valid).1.Consistent := by
  obtain ⟨k, hk, hidle, -, hend⟩ := mySqlInitialize_spec max valid
  have hlen : (mySqlInitialize max valid).1.idle.length = k := by rw [hidle, List.length_range']
  have hmax : (mySqlInitialize max valid).1.max = max := rfl
  constructor
  · intro h
    rcases hend with ⟨hall, hcreated⟩ | ⟨hlt, -, hcreated⟩
    · exact ⟨by omega, by omega⟩
    · -- the idle connections are taken first, and the counter still allows `_max` more
      obtain ⟨as, t, hrun, hpool, hlive⟩ := exists_drained _ (initialized max valid) rfl rfl
      have hfull : t.pool.created + max = t.pool.max := by
        rw [hpool]
        change (mySqlInitialize max valid).1.created + max = max
        omega
      obtain ⟨bs, u, hrun', hlive'⟩ := exists_full max t hfull (by rw [hpool]) (by rw [hpool]; rfl)
      have hbound := h (as ++ bs) u (by rw [run_append, hrun]; exact hrun')
      have hstart : (initialized max valid).live = k := hlen
      exact ⟨by omega, by omega⟩
  · rintro ⟨hcount, -⟩ as t hrun
    have hle := live_le max valid hrun
    omega

end Bound

end AsioServer.Services
