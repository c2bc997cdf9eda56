/-
AsioServer.Services.DBConnectionPoolTheorems — what the connection pool keeps
over every interleaving of its requests.

`Effect` lists what a step can do, guards included, and `effect_of_step` is the
only place where the step function is taken apart. `PoolInv` is the invariant:
the counter bounds the idle connections, the lent ones and those being created,
exactly so while the pool is open; no connection is in two places; and the
ledger of each request agrees with the place it has reached.

`conservation` is the invariant over all runs. `closing_is_final_iff` says
exactly when a run keeps the promise that a closed pool hands out nothing more:
`Acquire` tests `_closed` once, on entry, so the promise is broken by precisely
the waiters that wake and the creations that succeed after `CloseAll`.
-/
import Mathlib.Data.List.Nodup
import AsioServer.Services.DBConnectionPool

namespace AsioServer.Services

open AsioServer.Lib

/-! ## Counting the connections -/

namespace PoolState

/-- The number of connections lent to requests. -/
def lent (s : PoolState) : Nat := s.requests.countP Request.holds

/-- The number of creations in progress. -/
def creating (s : PoolState) : Nat := s.requests.countP Request.isCreating

/-- The number of requests that the connection is lent to. -/
def holders (s : PoolState) (c : Conn) : Nat := s.requests.countP (Request.holdsConn c)

end PoolState

/-- The acquisitions and releases of a request, by the place it has reached. -/
def Request.Ledger (r : Request) : Prop :=
  match r.place with
  | .executing _ | .releasing _ _ => r.acquired = 1 ∧ r.released = 0
  | .finished (.executed _) => r.acquired = 1 ∧ r.released = 1
  | _ => r.acquired = 0 ∧ r.released = 0

/-- The invariant of the pool. -/
structure PoolInv (s : PoolState) : Prop where
  bound : s.pool.created ≤ s.pool.max
  total : s.pool.idle.length + s.lent + s.creating ≤ s.pool.created
  exact : s.pool.closed = false →
    s.pool.idle.length + s.lent + s.creating = s.pool.created
  once : ∀ c, s.pool.idle.count c + s.holders c ≤ made s.nextConn c
  ledger : ∀ r ∈ s.requests, r.Ledger

/-! ## What a step can do -/

/-- The steps of the system, one constructor for each branch of the source. -/
inductive Effect (s : PoolState) : PoolEvent → PoolState → Prop where
  | arrive (session : Nat) :
      Effect s (.arrive session) { s with requests := s.requests ++ [{ session }] }
  | closeAll : Effect s .closeAll { s with
      pool := s.pool.closeAll
      requests := notifyAll Request.isParked Request.wake s.requests }
  | refuse {i r} (hr : s.requests[i]? = some r) (hp : r.place = .entering)
      (hc : s.pool.closed = true) :
      Effect s (.enter i) (s.put i { r with place := .finished .refused })
  | enter {i r} (hr : s.requests[i]? = some r) (hp : r.place = .entering)
      (hc : s.pool.closed = false) : Effect s (.enter i) (s.passBy i r)
  | timeOut {i r} (hr : s.requests[i]? = some r) (hw : r.isWaiting = true) :
      Effect s (.resume i true) (s.put i { r with place := .finished .timedOut })
  | resume {i r} (hr : s.requests[i]? = some r) (hw : r.isWaiting = true) :
      Effect s (.resume i false) (s.passBy i r)
  | create {i r} (hr : s.requests[i]? = some r) (hp : r.place = .creating) :
      Effect s (.create i true)
        ({ s with nextConn := s.nextConn + 1 }.put i (r.receive s.nextConn))
  | createNull {i r} (hr : s.requests[i]? = some r) (hp : r.place = .creating) :
      Effect s (.create i false) (s.put i { r with place := .failed })
  | rollback {i r w t} (hr : s.requests[i]? = some r) (hp : r.place = .failed)
      (hn : ({ s with pool := s.pool.rollback }.put i
        { r with place := .finished .notCreated }).notify w = some t) :
      Effect s (.rollback i w) t
  | execute {i r c ok} (hr : s.requests[i]? = some r) (hp : r.place = .executing c) :
      Effect s (.execute i ok) (s.put i { r with place := .releasing c ok })
  | releaseClosed {i r c ok w} (hr : s.requests[i]? = some r) (hp : r.place = .releasing c ok)
      (hc : s.pool.closed = true) : Effect s (.release i w) (s.put i (r.giveBack ok))
  | release {i r c ok w t} (hr : s.requests[i]? = some r) (hp : r.place = .releasing c ok)
      (hc : s.pool.closed = false)
      (hn : ({ s with pool := { s.pool with idle := s.pool.idle ++ [c] } }.put i
        (r.giveBack ok)).notify w = some t) : Effect s (.release i w) t

/-- What one pass through the loop of `Acquire` comes to. -/
theorem PoolState.passBy_cases (s : PoolState) (i : Nat) (r : Request) :
    (∃ c rest, s.pool.idle = c :: rest ∧
      s.passBy i r = { s with pool := { s.pool with idle := rest } }.put i (r.receive c)) ∨
    (s.pool.idle = [] ∧ s.pool.created < s.pool.max ∧
      s.passBy i r = { s with pool := { s.pool with created := s.pool.created + 1 } }.put i
        { r with place := .creating }) ∨
    (s.pool.idle = [] ∧ ¬ s.pool.created < s.pool.max ∧
      s.passBy i r = s.put i { r with place := .parked }) := by
  unfold PoolState.passBy Pool.pass
  cases hidle : s.pool.idle with
  | cons c rest => exact Or.inl ⟨c, rest, rfl, rfl⟩
  | nil =>
      by_cases hlt : s.pool.created < s.pool.max
      · refine Or.inr (Or.inl ⟨rfl, hlt, ?_⟩)
        simp only [if_pos hlt, hidle]
      · refine Or.inr (Or.inr ⟨rfl, hlt, ?_⟩)
        simp only [if_neg hlt]

/-- A pass neither closes the pool nor makes a connection. -/
theorem PoolState.passBy_fields (s : PoolState) (i : Nat) (r : Request) :
    (s.passBy i r).pool.max = s.pool.max ∧ (s.passBy i r).pool.closed = s.pool.closed ∧
      (s.passBy i r).nextConn = s.nextConn := by
  rcases s.passBy_cases i r with ⟨c, rest, -, heq⟩ | ⟨-, -, heq⟩ | ⟨-, -, heq⟩
  all_goals
    rw [heq]
    exact ⟨rfl, rfl, rfl⟩

/-- A notification changes the requests only. -/
theorem PoolState.notify_fields {s t : PoolState} {w : Option Nat} (h : s.notify w = some t) :
    t.pool = s.pool ∧ t.nextConn = s.nextConn := by
  rw [PoolState.notify, Option.map_eq_some_iff] at h
  obtain ⟨rs, -, rfl⟩ := h
  exact ⟨rfl, rfl⟩

/-- One step of request `i`, from the place it has reached. -/
theorem effect_of_requestStep {s t : PoolState} {a : PoolEvent} {i : Nat} {r : Request}
    (ha : a.actor = some i) (hr : s.requests[i]? = some r) (h : requestStep s i r a = some t) :
    Effect s a t := by
  cases a with
  | arrive | closeAll => exact absurd ha (by simp [PoolEvent.actor])
  | enter j =>
      obtain rfl : j = i := Option.some.inj ha
      simp only [requestStep] at h
      split at h
      · next hp =>
        split at h
        · next hc =>
          obtain rfl := Option.some.inj h
          exact .refuse hr hp hc
        · next hc =>
          obtain rfl := Option.some.inj h
          exact .enter hr hp (Bool.not_eq_true _ ▸ hc)
      · exact absurd h (by simp)
  | resume j timedOut =>
      obtain rfl : j = i := Option.some.inj ha
      simp only [requestStep] at h
      split at h
      · next hw =>
        cases timedOut with
        | true =>
            obtain rfl := Option.some.inj h
            exact .timeOut hr hw
        | false =>
            obtain rfl := Option.some.inj h
            exact .resume hr hw
      · exact absurd h (by simp)
  | create j ok =>
      obtain rfl : j = i := Option.some.inj ha
      simp only [requestStep] at h
      split at h
      · next hp =>
        cases ok with
        | true =>
            obtain rfl := Option.some.inj h
            exact .create hr hp
        | false =>
            obtain rfl := Option.some.inj h
            exact .createNull hr hp
      · exact absurd h (by simp)
  | rollback j w =>
      obtain rfl : j = i := Option.some.inj ha
      simp only [requestStep] at h
      split at h
      · next hp => exact .rollback hr hp h
      · exact absurd h (by simp)
  | execute j ok =>
      obtain rfl : j = i := Option.some.inj ha
      simp only [requestStep] at h
      split at h
      · next c hp =>
        obtain rfl := Option.some.inj h
        exact .execute hr hp
      · exact absurd h (by simp)
  | release j w =>
      obtain rfl : j = i := Option.some.inj ha
      simp only [requestStep] at h
      split at h
      · next c ok hp =>
        split at h
        · next hc =>
          obtain rfl := Option.some.inj h
          have hpool : s.pool.release c = s.pool := by rw [Pool.release, if_pos hc]
          rw [hpool]
          exact .releaseClosed hr hp hc
        · next hc =>
          have hpool : s.pool.release c = { s.pool with idle := s.pool.idle ++ [c] } := by
            rw [Pool.release, if_neg hc]
          rw [hpool] at h
          exact .release hr hp (Bool.not_eq_true _ ▸ hc) h
      · exact absurd h (by simp)

theorem effect_of_step {s t : PoolState} {a : PoolEvent} (h : poolStep s a = some t) :
    Effect s a t := by
  cases a with
  | arrive session =>
      obtain rfl := Option.some.inj h
      exact .arrive session
  | closeAll =>
      obtain rfl := Option.some.inj h
      exact .closeAll
  | enter i | resume i | create i | rollback i | execute i | release i =>
      simp only [poolStep, PoolEvent.actor] at h
      split at h
      · next r hr => exact effect_of_requestStep rfl hr h
      · exact absurd h (by simp)

/-! ## The invariant -/

/-- **The step lemma of the invariant.** When a request moves from `r` to `r'`
and the pool from `s.pool` to `p`, what the two give up covers what they take. -/
theorem PoolInv.put {s : PoolState} (h : PoolInv s) {i : Nat} {r r' : Request}
    (hr : s.requests[i]? = some r) {p : Pool} {n : Conn} (hledger : r'.Ledger)
    (hbound : p.created ≤ p.max)
    (htotal : p.idle.length + contrib Request.holds r' + contrib Request.isCreating r' +
        s.pool.created ≤
      p.created + s.pool.idle.length + contrib Request.holds r + contrib Request.isCreating r)
    (hexact : p.closed = false → s.pool.closed = false ∧
      p.idle.length + contrib Request.holds r' + contrib Request.isCreating r' +
        s.pool.created =
      p.created + s.pool.idle.length + contrib Request.holds r + contrib Request.isCreating r)
    (honce : ∀ c, p.idle.count c + contrib (Request.holdsConn c) r' + made s.nextConn c ≤
      s.pool.idle.count c + contrib (Request.holdsConn c) r + made n c) :
    PoolInv (({ s with pool := p, nextConn := n } : PoolState).put i r') := by
  have hlent := countP_set_add Request.holds (m := r') hr
  have hcreating := countP_set_add Request.isCreating (m := r') hr
  have hold := h.total
  constructor
  · exact hbound
  · simp only [PoolState.put, PoolState.lent, PoolState.creating] at hold ⊢
    omega
  · intro hc
    have heq := h.exact (hexact hc).1
    have hmove := (hexact hc).2
    simp only [PoolState.put, PoolState.lent, PoolState.creating] at heq ⊢
    omega
  · intro c
    have hc := h.once c
    have hmove := honce c
    have hholds := countP_set_add (Request.holdsConn c) (m := r') hr
    simp only [PoolState.put, PoolState.holders] at hc ⊢
    omega
  · intro x hx
    rcases mem_set_cases hx with rfl | hx
    · exact hledger
    · exact h.ledger x hx

/-- Waking a parked request changes nothing that the invariant speaks about. -/
theorem Request.ledger_wake {r : Request} (hp : r.isParked = true) (h : r.Ledger) :
    r.wake.Ledger := by
  have hplace : r.place = .parked := by simpa [Request.isParked] using hp
  simpa [Request.Ledger, Request.wake, hplace] using h

theorem Request.wake_same (p : Place → Bool) (hp : p .notified = p .parked) :
    ∀ r : Request, r.isParked = true → p r.wake.place = p r.place := by
  intro r hr
  have hplace : r.place = .parked := by simpa [Request.isParked] using hr
  rw [hplace]
  exact hp

/-- Notifications keep the invariant: the counts do not tell a parked request
from a woken one. -/
theorem PoolInv.woken {s : PoolState} (h : PoolInv s) {rs : List Request}
    (hcount : ∀ p : Place → Bool, p .notified = p .parked →
      rs.countP (fun r => p r.place) = s.requests.countP (fun r => p r.place))
    (hmem : ∀ r ∈ rs, ∃ q ∈ s.requests, r = q ∨ (q.isParked = true ∧ r = q.wake)) :
    PoolInv { s with requests := rs } where
  bound := h.bound
  total := by
    have hl := hcount (fun p => p.lent.isSome) rfl
    have hc := hcount Place.isCreating rfl
    have htotal := h.total
    simp only [PoolState.lent, PoolState.creating] at htotal ⊢
    exact hl ▸ hc ▸ htotal
  exact := by
    intro hclosed
    have hl := hcount (fun p => p.lent.isSome) rfl
    have hc := hcount Place.isCreating rfl
    have hexact := h.exact hclosed
    simp only [PoolState.lent, PoolState.creating] at hexact ⊢
    exact hl ▸ hc ▸ hexact
  once := by
    intro c
    have hl := hcount (fun p => p.lent == some c) rfl
    have honce := h.once c
    simp only [PoolState.holders] at honce ⊢
    exact hl ▸ honce
  ledger := by
    intro r hr
    obtain ⟨q, hq, rfl | ⟨hp, rfl⟩⟩ := hmem r hr
    · exact h.ledger r hq
    · exact Request.ledger_wake hp (h.ledger q hq)

theorem PoolInv.notify {s t : PoolState} (h : PoolInv s) {w : Option Nat}
    (hn : s.notify w = some t) : PoolInv t := by
  rw [PoolState.notify, Option.map_eq_some_iff] at hn
  obtain ⟨rs, hrs, rfl⟩ := hn
  refine h.woken ?_ ?_
  · intro p hp
    exact countP_notifyOne (Request.wake_same p hp) hrs
  · intro r hr
    obtain ⟨j, hj⟩ := List.mem_iff_getElem?.mp hr
    obtain ⟨q, hq, hqr⟩ := getElem?_notifyOne hrs hj
    exact ⟨q, List.mem_of_getElem? hq, hqr⟩

/-- A step that neither moves a connection nor starts or ends a creation. -/
theorem PoolInv.move {s : PoolState} (h : PoolInv s) {i : Nat} {r r' : Request}
    (hr : s.requests[i]? = some r) (hledger : r'.Ledger) (hl : r'.place.lent = r.place.lent)
    (hc : r'.place.isCreating = r.place.isCreating) : PoolInv (s.put i r') := by
  have hholds : contrib Request.holds r' = contrib Request.holds r :=
    contrib_congr (by rw [Request.holds, Request.holds, hl])
  have hcreating : contrib Request.isCreating r' = contrib Request.isCreating r :=
    contrib_congr (by rw [Request.isCreating, Request.isCreating, hc])
  have hconn : ∀ c, contrib (Request.holdsConn c) r' = contrib (Request.holdsConn c) r :=
    fun c => contrib_congr (by rw [Request.holdsConn, Request.holdsConn, hl])
  refine h.put hr (p := s.pool) (n := s.nextConn) hledger h.bound (by omega)
    (fun hclosed => ⟨hclosed, by omega⟩) fun c => ?_
  have := hconn c
  omega

namespace Request

variable {r : Request}

theorem contrib_holds_none (hl : r.place.lent = none) : contrib holds r = 0 :=
  contrib_of_false (by simp [holds, hl])

theorem contrib_holdsConn_none (hl : r.place.lent = none) (c : Conn) :
    contrib (holdsConn c) r = 0 :=
  contrib_of_false (by simp [holdsConn, hl])

theorem contrib_holds_some {c : Conn} (hl : r.place.lent = some c) : contrib holds r = 1 :=
  contrib_of_true (by simp [holds, hl])

theorem contrib_holdsConn_some {c : Conn} (hl : r.place.lent = some c) (c' : Conn) :
    contrib (holdsConn c') r = if c = c' then 1 else 0 := by
  by_cases h : c = c' <;> simp [contrib, holdsConn, hl, h]

theorem contrib_isCreating (hc : r.place.isCreating = true) : contrib isCreating r = 1 :=
  contrib_of_true hc

theorem contrib_not_creating (hc : r.place.isCreating = false) : contrib isCreating r = 0 :=
  contrib_of_false hc

end Request

/-- A pass through the loop of `Acquire` by a request that has no connection. -/
theorem PoolInv.passBy {s : PoolState} (h : PoolInv s) {i : Nat} {r : Request}
    (hr : s.requests[i]? = some r) (hl : r.place.lent = none)
    (hc : r.place.isCreating = false) (hled : r.acquired = 0 ∧ r.released = 0) :
    PoolInv (s.passBy i r) := by
  have hholds := Request.contrib_holds_none hl
  have hcreating := Request.contrib_not_creating hc
  have hconn := Request.contrib_holdsConn_none hl
  rcases s.passBy_cases i r with ⟨c, rest, hidle, heq⟩ | ⟨hidle, hlt, heq⟩ | ⟨-, -, heq⟩
  · -- the connection leaves the queue and is lent
    have hlen : s.pool.idle.length = rest.length + 1 := by rw [hidle, List.length_cons]
    have hholds' : contrib Request.holds (r.receive c) = 1 := Request.contrib_holds_some rfl
    have hcreating' : contrib Request.isCreating (r.receive c) = 0 :=
      Request.contrib_not_creating rfl
    have hledger : (r.receive c).Ledger := ⟨by simp [Request.receive, hled.1], hled.2⟩
    rw [heq]
    refine h.put hr (n := s.nextConn) hledger h.bound (by dsimp only; omega)
      (fun hclosed => ⟨hclosed, by dsimp only; omega⟩) fun c' => ?_
    have hc' := Request.contrib_holdsConn_some (r := r.receive c) rfl c'
    have hz := hconn c'
    have hcount : s.pool.idle.count c' = rest.count c' + if c = c' then 1 else 0 := by
      rw [hidle, List.count_cons]
      simp only [beq_iff_eq]
    dsimp only
    omega
  · -- the counter is raised for the creation
    have hholds' : contrib Request.holds { r with place := .creating } = 0 :=
      Request.contrib_holds_none rfl
    have hcreating' : contrib Request.isCreating { r with place := .creating } = 1 :=
      Request.contrib_isCreating rfl
    rw [heq]
    refine h.put hr (n := s.nextConn) hled (by dsimp only; omega) (by dsimp only; omega)
      (fun hclosed => ⟨hclosed, by dsimp only; omega⟩) fun c' => ?_
    have hc' := Request.contrib_holdsConn_none (r := { r with place := .creating }) rfl c'
    dsimp only
    omega
  · rw [heq]
    exact h.move hr hled hl.symm hc.symm

/-- The counter cannot wrap in the roll-back: a creation in progress was counted. -/
theorem PoolInv.created_pos {s : PoolState} (h : PoolInv s) {i : Nat} {r : Request}
    (hr : s.requests[i]? = some r) (hc : r.place.isCreating = true) : 0 < s.pool.created := by
  have hle := contrib_le_countP Request.isCreating hr
  have hone : contrib Request.isCreating r = 1 := Request.contrib_isCreating hc
  have htotal := h.total
  unfold PoolState.creating at htotal
  omega

/-- The roll-back of a failed creation. -/
theorem PoolInv.rollback {s : PoolState} (h : PoolInv s) {i : Nat} {r : Request}
    (hr : s.requests[i]? = some r) (hp : r.place = .failed) :
    PoolInv ({ s with pool := s.pool.rollback }.put i
      { r with place := .finished .notCreated }) := by
  have hpos := h.created_pos hr (by rw [hp]; rfl)
  have hled : r.acquired = 0 ∧ r.released = 0 := by
    have := h.ledger r (List.mem_of_getElem? hr)
    simpa [Request.Ledger, hp] using this
  have hpool : s.pool.rollback = { s.pool with created := s.pool.created - 1 } := by
    rw [Pool.rollback, sizeDecr, if_neg (by omega)]
  have hbound := h.bound
  have hholds : contrib Request.holds r = 0 := Request.contrib_holds_none (by rw [hp]; rfl)
  have hcreating : contrib Request.isCreating r = 1 :=
    Request.contrib_isCreating (by rw [hp]; rfl)
  have hholds' : contrib Request.holds { r with place := .finished .notCreated } = 0 :=
    Request.contrib_holds_none rfl
  have hcreating' : contrib Request.isCreating { r with place := .finished .notCreated } = 0 :=
    Request.contrib_not_creating rfl
  rw [hpool]
  refine h.put hr (n := s.nextConn) hled (by dsimp only; omega) (by dsimp only; omega)
    (fun hclosed => ⟨hclosed, by dsimp only; omega⟩) fun c => ?_
  have hc' := Request.contrib_holdsConn_none (r := { r with place := .finished .notCreated }) rfl c
  dsimp only
  omega

/-- A creation that succeeds lends an object that did not exist before. -/
theorem PoolInv.create {s : PoolState} (h : PoolInv s) {i : Nat} {r : Request}
    (hr : s.requests[i]? = some r) (hp : r.place = .creating) :
    PoolInv ({ s with nextConn := s.nextConn + 1 }.put i (r.receive s.nextConn)) := by
  have hled : r.acquired = 0 ∧ r.released = 0 := by
    have := h.ledger r (List.mem_of_getElem? hr)
    simpa [Request.Ledger, hp] using this
  have hholds : contrib Request.holds r = 0 := Request.contrib_holds_none (by rw [hp]; rfl)
  have hcreating : contrib Request.isCreating r = 1 :=
    Request.contrib_isCreating (by rw [hp]; rfl)
  have hholds' : contrib Request.holds (r.receive s.nextConn) = 1 :=
    Request.contrib_holds_some rfl
  have hcreating' : contrib Request.isCreating (r.receive s.nextConn) = 0 :=
    Request.contrib_not_creating rfl
  refine h.put hr (p := s.pool) ⟨by simp [Request.receive, hled.1], hled.2⟩ h.bound (by omega)
    (fun hclosed => ⟨hclosed, by omega⟩) fun c => ?_
  have hc' := Request.contrib_holdsConn_some (r := r.receive s.nextConn) rfl c
  have hmade := made_succ s.nextConn c
  omega

/-- The connection that `Release` gives back is the one acquired. -/
theorem Request.ledger_giveBack {r : Request} {c : Conn} {ok : Bool} (h : r.Ledger)
    (hp : r.place = .releasing c ok) : (r.giveBack ok).Ledger := by
  have hled : r.acquired = 1 ∧ r.released = 0 := by simpa [Request.Ledger, hp] using h
  exact ⟨hled.1, by simp [Request.giveBack, hled.2]⟩

/-- `Release` on an open pool: the connection is idle again. -/
theorem PoolInv.release {s : PoolState} (h : PoolInv s) {i : Nat} {r : Request} {c : Conn}
    {ok : Bool} (hr : s.requests[i]? = some r) (hp : r.place = .releasing c ok) :
    PoolInv ({ s with pool := { s.pool with idle := s.pool.idle ++ [c] } }.put i
      (r.giveBack ok)) := by
  have hled := Request.ledger_giveBack (h.ledger r (List.mem_of_getElem? hr)) hp
  have hlent : r.place.lent = some c := by rw [hp]; rfl
  have hholds := Request.contrib_holds_some hlent
  have hcreating : contrib Request.isCreating r = 0 :=
    Request.contrib_not_creating (by rw [hp]; rfl)
  have hholds' : contrib Request.holds (r.giveBack ok) = 0 := Request.contrib_holds_none rfl
  have hcreating' : contrib Request.isCreating (r.giveBack ok) = 0 :=
    Request.contrib_not_creating rfl
  have hlen : (s.pool.idle ++ [c]).length = s.pool.idle.length + 1 := by simp
  refine h.put hr (n := s.nextConn) hled h.bound (by dsimp only; omega)
    (fun hclosed => ⟨hclosed, by dsimp only; omega⟩) fun c' => ?_
  have hc := Request.contrib_holdsConn_some hlent c'
  have hc' := Request.contrib_holdsConn_none (r := r.giveBack ok) rfl c'
  have hcount : (s.pool.idle ++ [c]).count c' =
      s.pool.idle.count c' + if c = c' then 1 else 0 := by
    rw [List.count_append, List.count_singleton]
    simp only [beq_iff_eq]
  dsimp only
  omega

/-- `Release` on a closed pool lets the connection go. -/
theorem PoolInv.releaseClosed {s : PoolState} (h : PoolInv s) {i : Nat} {r : Request} {c : Conn}
    {ok : Bool} (hr : s.requests[i]? = some r) (hp : r.place = .releasing c ok)
    (hclosed : s.pool.closed = true) : PoolInv (s.put i (r.giveBack ok)) := by
  have hled := Request.ledger_giveBack (h.ledger r (List.mem_of_getElem? hr)) hp
  have hcreating : contrib Request.isCreating r = 0 :=
    Request.contrib_not_creating (by rw [hp]; rfl)
  have hholds' : contrib Request.holds (r.giveBack ok) = 0 := Request.contrib_holds_none rfl
  have hcreating' : contrib Request.isCreating (r.giveBack ok) = 0 :=
    Request.contrib_not_creating rfl
  refine h.put hr (p := s.pool) (n := s.nextConn) hled h.bound (by omega)
    (fun hopen => absurd hclosed (by simp [hopen])) fun c' => ?_
  have hc' := Request.contrib_holdsConn_none (r := r.giveBack ok) rfl c'
  omega

/-- `CloseAll` drops the idle connections and wakes everybody. -/
theorem PoolInv.closeAll {s : PoolState} (h : PoolInv s) : PoolInv { s with
    pool := s.pool.closeAll
    requests := notifyAll Request.isParked Request.wake s.requests } := by
  have hclose : PoolInv { s with pool := s.pool.closeAll } := by
    have htotal := h.total
    refine ⟨h.bound, ?_, fun hopen => absurd hopen (by simp [Pool.closeAll]), ?_, h.ledger⟩
    · simp only [Pool.closeAll, List.length_nil, PoolState.lent, PoolState.creating] at htotal ⊢
      omega
    · intro c
      have honce := h.once c
      simp only [Pool.closeAll, List.count_nil, PoolState.holders] at honce ⊢
      omega
  refine hclose.woken ?_ ?_
  · intro p hp
    exact countP_notifyAll (Request.wake_same p hp) s.requests
  · intro r hr
    obtain ⟨j, hj⟩ := List.mem_iff_getElem?.mp hr
    obtain ⟨q, hq, hqr⟩ := getElem?_notifyAll hj
    exact ⟨q, List.mem_of_getElem? hq, hqr⟩

theorem PoolInv.arrive {s : PoolState} (h : PoolInv s) (session : Nat) :
    PoolInv { s with requests := s.requests ++ [{ session }] } := by
  have hcount : ∀ p : Place → Bool, p .entering = false →
      (s.requests ++ [({ session } : Request)]).countP (fun r => p r.place) =
        s.requests.countP (fun r => p r.place) := by
    intro p hp
    simp [List.countP_append, hp]
  have hl := hcount (fun p => p.lent.isSome) rfl
  have hc := hcount Place.isCreating rfl
  refine ⟨h.bound, ?_, ?_, ?_, ?_⟩
  · have htotal := h.total
    simp only [PoolState.lent, PoolState.creating] at htotal ⊢
    exact hl ▸ hc ▸ htotal
  · intro hopen
    have hexact := h.exact hopen
    simp only [PoolState.lent, PoolState.creating] at hexact ⊢
    exact hl ▸ hc ▸ hexact
  · intro c
    have honce := h.once c
    have hconn := hcount (fun p => p.lent == some c) rfl
    simp only [PoolState.holders] at honce ⊢
    exact hconn ▸ honce
  · intro r hr
    rcases List.mem_append.mp hr with hr | hr
    · exact h.ledger r hr
    · rw [List.mem_singleton.mp hr]
      exact ⟨rfl, rfl⟩

/-- **Every step keeps the invariant.** -/
theorem PoolInv.step {s t : PoolState} {a : PoolEvent} (h : PoolInv s)
    (hs : poolStep s a = some t) : PoolInv t := by
  have hledger : ∀ {i : Nat} {r : Request}, s.requests[i]? = some r → r.Ledger :=
    fun hr => h.ledger _ (List.mem_of_getElem? hr)
  have hwaiting : ∀ {r : Request}, r.isWaiting = true → r.Ledger →
      r.place.lent = none ∧ r.place.isCreating = false ∧ r.acquired = 0 ∧ r.released = 0 := by
    intro r hw hl
    cases hp : r.place <;> simp_all [Request.isWaiting, Place.isWaiting, Place.lent,
      Place.isCreating, Request.Ledger]
  cases effect_of_step hs with
  | arrive session => exact h.arrive session
  | closeAll => exact h.closeAll
  | refuse hr hp hc =>
      have hl := hledger hr
      simp only [Request.Ledger, hp] at hl
      exact h.move hr hl (by rw [hp]; rfl) (by rw [hp]; rfl)
  | enter hr hp hc =>
      have hl := hledger hr
      simp only [Request.Ledger, hp] at hl
      exact h.passBy hr (by rw [hp]; rfl) (by rw [hp]; rfl) hl
  | timeOut hr hw =>
      obtain ⟨hlent, hcreating, hl⟩ := hwaiting hw (hledger hr)
      exact h.move hr hl hlent.symm hcreating.symm
  | resume hr hw =>
      obtain ⟨hlent, hcreating, hl⟩ := hwaiting hw (hledger hr)
      exact h.passBy hr hlent hcreating hl
  | create hr hp => exact h.create hr hp
  | createNull hr hp =>
      have hl := hledger hr
      simp only [Request.Ledger, hp] at hl
      exact h.move hr hl (by rw [hp]; rfl) (by rw [hp]; rfl)
  | rollback hr hp hn => exact (h.rollback hr hp).notify hn
  | execute hr hp =>
      have hl := hledger hr
      simp only [Request.Ledger, hp] at hl
      exact h.move hr hl (by rw [hp]; rfl) (by rw [hp]; rfl)
  | releaseClosed hr hp hc => exact h.releaseClosed hr hp hc
  | release hr hp hc hn => exact (h.release hr hp).notify hn

/-! ## Initialize -/

/-- The loop of `Initialize` pushes a connection for each attempt before the first
that fails. -/
theorem initLoop_spec {valid : Nat → Bool} : ∀ {n : Nat} {idle : List Conn},
    ∃ k, (initLoop valid n idle).1 = idle ++ List.range' idle.length k ∧
      (∀ j < k, valid (idle.length + j) = true) ∧
      ((initLoop valid n idle).2 = true ∧ k = n ∨
        (initLoop valid n idle).2 = false ∧ k < n ∧ valid (idle.length + k) = false)
  | 0, idle => ⟨0, by simp [initLoop], fun _ hj => absurd hj (Nat.not_lt_zero _), .inl ⟨rfl, rfl⟩⟩
  | n + 1, idle => by
      rw [initLoop]
      split
      · next hfirst =>
          obtain ⟨k, hpushed, hbefore, hend⟩ := @initLoop_spec valid n (idle ++ [idle.length])
          rw [List.length_append, List.length_singleton] at hpushed hbefore hend
          refine ⟨k + 1, ?_, fun j hj => ?_, ?_⟩
          · rw [hpushed, List.append_assoc]
            rfl
          · cases j with
            | zero => exact hfirst
            | succ j =>
                have h := hbefore j (by omega)
                rwa [Nat.add_assoc, Nat.add_comm 1 j] at h
          · rcases hend with ⟨hdone, rfl⟩ | ⟨hfail, hlt, hinvalid⟩
            · exact .inl ⟨hdone, rfl⟩
            · refine .inr ⟨hfail, by omega, ?_⟩
              rwa [Nat.add_assoc, Nat.add_comm 1 k] at hinvalid
      · next hfirst =>
          refine ⟨0, by simp, fun _ hj => absurd hj (Nat.not_lt_zero _), .inr ⟨rfl, by omega, ?_⟩⟩
          exact Bool.eq_false_iff.mpr hfirst

/-- When the loop of `Initialize` completes it has pushed all its connections. -/
theorem initLoop_completed {valid : Nat → Bool} {n : Nat} {idle : List Conn}
    (h : (initLoop valid n idle).2 = true) :
    (initLoop valid n idle).1 = idle ++ List.range' idle.length n := by
  obtain ⟨k, hpushed, -, ⟨-, rfl⟩ | ⟨hfail, -, -⟩⟩ := @initLoop_spec valid n idle
  · exact hpushed
  · exact absurd h (by simp [hfail])

/-- The invariant of a new pool whose counter is the number of its connections. -/
theorem poolInv_new {s : PoolState} {k : Nat} (hidle : s.pool.idle = List.range' 0 k)
    (hcreated : s.pool.created = k) (hmax : k ≤ s.pool.max) (hnext : s.nextConn = k)
    (hreq : s.requests = []) : PoolInv s := by
  have hlen : s.pool.idle.length = k := by rw [hidle, List.length_range']
  have hlent : s.lent = 0 := by simp [PoolState.lent, hreq]
  have hcreating : s.creating = 0 := by simp [PoolState.creating, hreq]
  refine ⟨by omega, by omega, fun _ => by omega, ?_, ?_⟩
  · intro c
    have hholders : s.holders c = 0 := by simp [PoolState.holders, hreq]
    have hcount : s.pool.idle.count c ≤ made s.nextConn c := by
      rw [hnext, hidle, made]
      split
      · exact List.nodup_iff_count_le_one.mp List.nodup_range' c
      · next hc => exact Nat.le_of_eq (List.count_eq_zero.mpr (by simpa using hc))
    omega
  · intro r hr
    rw [hreq] at hr
    exact absurd hr (by simp)

/-- A pool whose `Initialize` completed normally satisfies the invariant. -/
theorem poolInv_init {s : PoolState} (h : PoolInit s) : PoolInv s := by
  obtain ⟨max, valid, hinit, hnext, hreq⟩ := h
  obtain ⟨hpool, hdone⟩ := Prod.mk.inj hinit
  have hidle : s.pool.idle = List.range' 0 (max / 2) := by
    have hrange := initLoop_completed hdone
    rw [← hpool]
    simpa using hrange
  have hlen : s.pool.idle.length = max / 2 := by rw [hidle, List.length_range']
  have hcreated : s.pool.created = s.pool.idle.length := by
    rw [← hpool]
    exact if_pos hdone
  have hmax : s.pool.max = max := by rw [← hpool]
  refine poolInv_new hidle (hcreated.trans hlen) ?_ (hnext.trans hlen) hreq
  rw [hmax]
  exact Nat.div_le_self max 2

theorem poolInv_reachable {s : PoolState} (h : Reachable poolStep PoolInit s) : PoolInv s :=
  h.invariant (fun _ => poolInv_init) fun _ _ _ => PoolInv.step

/-! ## Conservation and exclusive lending -/

/-- A request that is about to call `Release` can, whoever is woken by it. -/
theorem exists_release {s : PoolState} {i : Nat} {r : Request} {c : Conn} {ok : Bool}
    (hr : s.requests[i]? = some r) (hp : r.place = .releasing c ok) :
    ∃ w t, poolStep s (.release i w) = some t ∧ t.requests[i]? = some (r.giveBack ok) := by
  have hput : ∀ p : Pool,
      (({ s with pool := p } : PoolState).put i (r.giveBack ok)).requests[i]? =
        some (r.giveBack ok) := fun p => getElem?_set_self_of_some hr
  by_cases hclosed : s.pool.closed = true
  · refine ⟨none, _, ?_, hput (s.pool.release c)⟩
    simp [poolStep, PoolEvent.actor, hr, requestStep, hp, hclosed]
  · let t := ({ s with pool := s.pool.release c } : PoolState).put i (r.giveBack ok)
    obtain ⟨w, rs, hrs⟩ := exists_notifyOne Request.isParked Request.wake t.requests
    have hsame := getElem?_notifyOne_of_not_parked hrs (hput (s.pool.release c)) rfl
    refine ⟨w, { t with requests := rs }, ?_, hsame⟩
    have hnotify : t.notify w = some { t with requests := rs } := by
      rw [PoolState.notify, hrs]
      rfl
    simp only [poolStep, PoolEvent.actor, hr, requestStep, hp, if_neg hclosed]
    exact hnotify

/-- A request that holds a connection can run to the end of `ExecuteRequest`. -/
theorem exists_run_to_release {s : PoolState} {i : Nat} {r : Request}
    (hr : s.requests[i]? = some r) (hh : r.holds = true) :
    ∃ as t ok, run poolStep s as = some t ∧ t.requests[i]? = some (r.giveBack ok) := by
  cases hp : r.place with
  | executing c =>
      let r' : Request := { r with place := .releasing c true }
      have hr' : (s.put i r').requests[i]? = some r' := getElem?_set_self_of_some hr
      have hexec : poolStep s (.execute i true) = some (s.put i r') := by
        simp only [poolStep, PoolEvent.actor, hr, requestStep, hp]
        rfl
      obtain ⟨w, t, hstep, hend⟩ := exists_release hr' rfl
      refine ⟨[.execute i true, .release i w], t, true, ?_, hend⟩
      simp [hexec, hstep]
  | releasing c ok =>
      obtain ⟨w, t, hstep, hend⟩ := exists_release hr hp
      exact ⟨[.release i w], t, ok, by simp [hstep], hend⟩
  | entering | parked | notified | creating | failed | finished =>
      simp [Request.holds, Place.lent, hp] at hh

/-- A connection is idle or held by one request. -/
theorem PoolInv.one_place {s : PoolState} (h : PoolInv s) (c : Conn) :
    s.pool.idle.count c + s.holders c ≤ 1 :=
  Nat.le_trans (h.once c) (made_le_one s.nextConn c)

/-- The roll-back finds a counter that is not 0. -/
theorem PoolInv.rollback_exact {s t : PoolState} (h : PoolInv s) {i : Nat} {w : Option Nat}
    (hstep : poolStep s (.rollback i w) = some t) : t.pool.created + 1 = s.pool.created := by
  cases effect_of_step hstep with
  | rollback hr hp hn =>
      have hpos := h.created_pos hr (by rw [hp]; rfl)
      rw [(PoolState.notify_fields hn).1]
      simp only [PoolState.put, Pool.rollback, sizeDecr]
      rw [if_neg (by omega)]
      omega

theorem Request.Ledger.bounds {r : Request} (h : r.Ledger) :
    r.released ≤ r.acquired ∧ r.acquired ≤ 1 ∧
      ∀ o, r.place = .finished o → r.released = r.acquired := by
  refine ⟨?_, ?_, ?_⟩
  · unfold Request.Ledger at h
    split at h <;> omega
  · unfold Request.Ledger at h
    split at h <;> omega
  · intro o ho
    simp only [Request.Ledger, ho] at h
    cases o <;> simp_all

/-- What is not released is held. -/
theorem Request.Ledger.holds_of_lt {r : Request} (h : r.Ledger) (hlt : r.released < r.acquired) :
    r.holds = true ∧ r.released = 0 := by
  unfold Request.Ledger at h
  split at h
  · next c hp => exact ⟨by simp [Request.holds, hp, Place.lent], h.2⟩
  · next c ok hp => exact ⟨by simp [Request.holds, hp, Place.lent], h.2⟩
  · omega
  · omega

/-- **Conservation and exclusive lending**, in every reachable state. -/
theorem conservation {s : PoolState} (h : Reachable poolStep PoolInit s) :
    s.pool.idle.length + s.lent + s.creating ≤ s.pool.created ∧
    s.pool.created ≤ s.pool.max ∧
    (s.pool.closed = false → s.pool.idle.length + s.lent + s.creating = s.pool.created) ∧
    -- a connection is in one place
    s.pool.idle.Nodup ∧ (∀ c ∈ s.pool.idle, s.holders c = 0) ∧ (∀ c, s.holders c ≤ 1) ∧
    -- the roll-back does not wrap
    (∀ i w t, poolStep s (.rollback i w) = some t → t.pool.created + 1 = s.pool.created) ∧
    -- each connection acquired is released once
    (∀ r ∈ s.requests, r.released ≤ r.acquired ∧ r.acquired ≤ 1 ∧
      ∀ o, r.place = .finished o → r.released = r.acquired) ∧
    (∀ (i : Nat) (r : Request), s.requests[i]? = some r → r.released < r.acquired →
      ∃ as t ok, run poolStep s as = some t ∧ t.requests[i]? = some (r.giveBack ok) ∧
        (r.giveBack ok).released = 1) := by
  have hinv := poolInv_reachable h
  refine ⟨hinv.total, hinv.bound, hinv.exact, ?_, ?_, ?_, ?_, ?_, ?_⟩
  · refine List.nodup_iff_count_le_one.mpr fun c => ?_
    have hone := hinv.one_place c
    omega
  · intro c hc
    have hpos := List.count_pos_iff.mpr hc
    have hone := hinv.one_place c
    omega
  · intro c
    have hone := hinv.one_place c
    omega
  · exact fun i w t hstep => hinv.rollback_exact hstep
  · exact fun r hr => (hinv.ledger r hr).bounds
  · intro i r hr hlt
    obtain ⟨hholds, hnone⟩ := (hinv.ledger r (List.mem_of_getElem? hr)).holds_of_lt hlt
    obtain ⟨as, t, ok, hrun, hend⟩ := exists_run_to_release hr hholds
    exact ⟨as, t, ok, hrun, hend, by simp [Request.giveBack, hnone]⟩

/-- Two requests on a pool of three: one connection is idle again, one is lent. -/
theorem conservation_two_requests : ∃ s : PoolState,
    s.pool.idle = [0] ∧ s.lent = 1 ∧ s.pool.idle.length + s.lent + s.creating = s.pool.created := by
  let start : PoolState :=
    { pool := { idle := [0], max := 3, created := 1, closed := false }, nextConn := 1 }
  let events : List PoolEvent := [.arrive 7, .arrive 8, .enter 0, .enter 1, .create 1 true,
    .execute 0 true, .release 0 none]
  let final : PoolState :=
    { pool := { idle := [0], max := 3, created := 2, closed := false }
      nextConn := 2
      requests := [⟨7, .finished (.executed true), 1, 1⟩, ⟨8, .executing 1, 1, 0⟩] }
  have hreach : Reachable poolStep PoolInit final :=
    ⟨start, events, ⟨3, fun _ => true, rfl, rfl, rfl⟩, by decide⟩
  exact ⟨final, rfl, rfl, (conservation hreach).2.2.1 rfl⟩

/-! ## Closing a pool -/

/-- What "closed is final" asks of a step taken after `CloseAll` returned: no
`Acquire` returns a connection, no creation is started, and a waiter that wakes
returns null. -/
def ClosedFinal (s : PoolState) (a : PoolEvent) (t : PoolState) : Prop :=
  s.pool.closed = true → ∀ (i : Nat) (r r' : Request),
    s.requests[i]? = some r → t.requests[i]? = some r' →
      (r'.holds = true → r.holds = true) ∧
      (r'.place = .creating → r.place = .creating) ∧
      ∀ timedOut, a = .resume i timedOut → ∃ o, r'.place = .finished o

/-- After `CloseAll`, no `wait_until` returns before its deadline and no
`CreateConnection` in progress succeeds. -/
def NoLateSuccess (s : PoolState) (a : PoolEvent) (_ : PoolState) : Prop :=
  s.pool.closed = true → ∀ i, a ≠ .resume i false ∧ a ≠ .create i true

/-- A request that neither got a connection nor started a creation. -/
def Request.Calm (r r' : Request) : Prop :=
  (r'.holds = true → r.holds = true) ∧ (r'.place = .creating → r.place = .creating)

theorem Request.Calm.refl (r : Request) : r.Calm r := ⟨id, id⟩

theorem Request.calm_wake (r : Request) : r.Calm r.wake :=
  ⟨fun h => absurd h (by simp [Request.wake, Request.holds, Place.lent]),
    fun h => absurd h (by simp [Request.wake])⟩

/-- Whoever is notified, or not, is calm. -/
theorem Request.Calm.of_woken {q r r' : Request} (hq : some r = some q)
    (hqr : r' = q ∨ (q.isParked = true ∧ r' = q.wake)) : r.Calm r' := by
  obtain rfl := Option.some.inj hq
  rcases hqr with rfl | ⟨-, rfl⟩
  · exact Request.Calm.refl _
  · exact Request.calm_wake r

theorem Request.Calm.trans {q r r' : Request} (h : q.Calm r) (h' : r.Calm r') : q.Calm r' :=
  ⟨fun hh => h.1 (h'.1 hh), fun hc => h.2 (h'.2 hc)⟩

/-- A request that ends up neither with a connection nor in a creation is calm. -/
theorem Request.calm_of_idle {r r' : Request} (hl : r'.holds = false)
    (hc : r'.place ≠ .creating) : r.Calm r' :=
  ⟨fun h => absurd h (by simp [hl]), fun h => absurd h hc⟩

/-- A calm move of one request leaves all requests calm. -/
theorem calm_put {s : PoolState} {p : Pool} {i : Nat} {q q' : Request}
    (hq : s.requests[i]? = some q) (hcalm : q.Calm q') {j : Nat} {r r' : Request}
    (hr : s.requests[j]? = some r)
    (hr' : (({ s with pool := p } : PoolState).put i q').requests[j]? = some r') :
    r.Calm r' := by
  rcases getElem?_set_cases hr' with ⟨rfl, rfl⟩ | ⟨-, hr'⟩
  · rw [hq] at hr
    exact Option.some.inj hr ▸ hcalm
  · rw [hr] at hr'
    exact Option.some.inj hr' ▸ Request.Calm.refl r

theorem calm_notify {s t : PoolState} {w : Option Nat} (hn : s.notify w = some t) {j : Nat}
    {r r' : Request} (hr : s.requests[j]? = some r) (hr' : t.requests[j]? = some r') :
    r.Calm r' := by
  rw [PoolState.notify, Option.map_eq_some_iff] at hn
  obtain ⟨rs, hrs, rfl⟩ := hn
  obtain ⟨q, hq, hqr⟩ := getElem?_notifyOne hrs hr'
  exact Request.Calm.of_woken (hr.symm.trans hq) hqr

/-- A calm move of one request followed by a notification. -/
theorem calm_put_notify {s t : PoolState} {p : Pool} {i : Nat} {q q' : Request}
    {w : Option Nat} (hq : s.requests[i]? = some q) (hcalm : q.Calm q')
    (hn : (({ s with pool := p } : PoolState).put i q').notify w = some t) {j : Nat}
    {r r' : Request} (hr : s.requests[j]? = some r) (hr' : t.requests[j]? = some r') :
    r.Calm r' := by
  have hlt : j < (s.requests.set i q').length := by
    rw [List.length_set]
    exact (List.getElem?_eq_some_iff.mp hr).1
  have hmid : (({ s with pool := p } : PoolState).put i q').requests[j]? =
      some (s.requests.set i q')[j] := List.getElem?_eq_getElem hlt
  exact (calm_put hq hcalm hr hmid).trans (calm_notify hn hmid hr')

/-- A pass through the loop never returns null. -/
theorem passBy_not_finished {s : PoolState} {i : Nat} {r : Request}
    (hr : s.requests[i]? = some r) :
    ∃ r', (s.passBy i r).requests[i]? = some r' ∧ ∀ o, r'.place ≠ .finished o := by
  rcases s.passBy_cases i r with ⟨c, rest, -, heq⟩ | ⟨-, -, heq⟩ | ⟨-, -, heq⟩
  · refine ⟨r.receive c, ?_, fun o ho => absurd ho (by simp [Request.receive])⟩
    rw [heq]
    exact getElem?_set_self_of_some hr
  · refine ⟨{ r with place := .creating }, ?_, fun o ho => absurd ho (by simp)⟩
    rw [heq]
    exact getElem?_set_self_of_some hr
  · refine ⟨{ r with place := .parked }, ?_, fun o ho => absurd ho (by simp)⟩
    rw [heq]
    exact getElem?_set_self_of_some hr

/-- One step keeps the promise exactly when it is not a late success. -/
theorem closedFinal_iff {s t : PoolState} {a : PoolEvent} (hs : poolStep s a = some t) :
    ClosedFinal s a t ↔ NoLateSuccess s a t := by
  constructor
  · intro hfinal hclosed
    cases effect_of_step hs with
    | @resume i r hr hw =>
        obtain ⟨r', hr', hne⟩ := passBy_not_finished hr
        obtain ⟨o, ho⟩ := (hfinal hclosed i r r' hr hr').2.2 false rfl
        exact absurd ho (hne o)
    | @create i r hr hp =>
        have hr' := getElem?_set_self_of_some (m := r.receive s.nextConn) hr
        have hholds := (hfinal hclosed i r _ hr hr').1 rfl
        simp [Request.holds, Place.lent, hp] at hholds
    | arrive | closeAll | refuse | enter | timeOut | createNull | rollback | execute
      | releaseClosed | release => simp
  · intro hlate hclosed j r r' hr hr'
    -- a calm step that is not a wake-up of `j` meets all three demands
    have hcalm : (∀ timedOut, a ≠ .resume j timedOut) → r.Calm r' →
        (r'.holds = true → r.holds = true) ∧ (r'.place = .creating → r.place = .creating) ∧
          ∀ timedOut, a = .resume j timedOut → ∃ o, r'.place = .finished o :=
      fun hne h => ⟨h.1, h.2, fun b hb => absurd hb (hne b)⟩
    cases effect_of_step hs with
    | arrive session =>
        refine hcalm (by simp) ?_
        rw [List.getElem?_append_left (List.getElem?_eq_some_iff.mp hr).1, hr] at hr'
        exact Option.some.inj hr' ▸ Request.Calm.refl r
    | closeAll =>
        refine hcalm (by simp) ?_
        obtain ⟨q, hq, hqr⟩ := getElem?_notifyAll hr'
        exact Request.Calm.of_woken (hr.symm.trans hq) hqr
    | refuse hq hp hc =>
        exact hcalm (by simp) (calm_put hq (Request.calm_of_idle rfl (by simp)) hr hr')
    | enter hq hp hc => exact absurd hclosed (by simp [hc])
    | @timeOut i q hq hw =>
        have h := calm_put hq (Request.calm_of_idle rfl (by simp)) hr hr'
        refine ⟨h.1, h.2, fun b hb => ?_⟩
        obtain rfl : i = j := (PoolEvent.resume.inj hb).1
        have hself : (s.put i { q with place := .finished .timedOut }).requests[i]? =
            some { q with place := .finished .timedOut } := getElem?_set_self_of_some hq
        rw [hself] at hr'
        exact ⟨.timedOut, by rw [← Option.some.inj hr']⟩
    | resume hq hw => exact absurd rfl (hlate hclosed _).1
    | create hq hp => exact absurd rfl (hlate hclosed _).2
    | createNull hq hp =>
        exact hcalm (by simp) (calm_put hq (Request.calm_of_idle rfl (by simp)) hr hr')
    | rollback hq hp hn =>
        exact hcalm (by simp)
          (calm_put_notify hq (Request.calm_of_idle rfl (by simp)) hn hr hr')
    | execute hq hp =>
        exact hcalm (by simp) (calm_put hq ⟨fun _ => by simp [Request.holds, Place.lent, hp],
          by simp⟩ hr hr')
    | releaseClosed hq hp hc =>
        exact hcalm (by simp)
          (calm_put hq (Request.calm_of_idle rfl (by simp [Request.giveBack])) hr hr')
    | release hq hp hc hn => exact absurd hclosed (by simp [hc])

/-- **Closing is final exactly as long as nobody succeeds late.** A run keeps the
promise of a closed pool if and only if, after `CloseAll`, every waiter wakes by
its deadline and every creation in progress fails. -/
theorem closing_is_final_iff (s : PoolState) (as : List PoolEvent) :
    AllSteps poolStep ClosedFinal s as ↔ AllSteps poolStep NoLateSuccess s as := by
  have hstep : ∀ s a t, poolStep s a = some t → (ClosedFinal s a t ↔ NoLateSuccess s a t) :=
    fun _ _ _ => closedFinal_iff
  exact allSteps_of_iff hstep as s

/-- A pool of two: one connection executes, one is being made and a third
request waits when `CloseAll` runs. The waiter wakes and parks again. -/
theorem closed_waiter_parks_again : ∃ s as,
    PoolInit s ∧ ¬ AllSteps poolStep ClosedFinal s as := by
  let start : PoolState :=
    { pool := { idle := [0], max := 2, created := 1, closed := false }, nextConn := 1 }
  let events : List PoolEvent := [.arrive 7, .arrive 8, .arrive 9, .enter 0, .enter 1,
    .create 1 true, .enter 2, .closeAll]
  let waiting : List Request := [⟨7, .executing 0, 1, 0⟩, ⟨8, .executing 1, 1, 0⟩]
  let closed : Pool := { idle := [], max := 2, created := 2, closed := true }
  let before : PoolState := ⟨closed, 2, waiting ++ [⟨9, .notified, 0, 0⟩]⟩
  let after : PoolState := ⟨closed, 2, waiting ++ [⟨9, .parked, 0, 0⟩]⟩
  have hrun : run poolStep start events = some before := by decide
  have hstep : poolStep before (.resume 2 false) = some after := by decide
  refine ⟨start, events ++ [.resume 2 false], ⟨2, fun _ => true, rfl, rfl, rfl⟩,
    not_allSteps hrun hstep fun hfinal => ?_⟩
  obtain ⟨o, ho⟩ := (hfinal rfl 2 ⟨9, .notified, 0, 0⟩ ⟨9, .parked, 0, 0⟩ rfl rfl).2.2 false rfl
  exact absurd ho (by simp)

end AsioServer.Services
