/-
AsioServer.Services.BrokenConnectionsTheorems — when a broken connection is lent again.

An execution that loses its link leaves the connection with the request, which
releases it; an open pool puts it into the idle queue like any other, and the next
requests take it from there (`exists_lent_again`). Only a closed pool lets it go
(`neverLent_of_closed`). So no broken connection can be lent again exactly as long as
no execution loses its link while the pool is open (`broken_not_lent_iff`).
-/
import AsioServer.Services.BrokenConnections
import AsioServer.Services.PoolInitTheorems

namespace AsioServer.Services

open AsioServer.Core AsioServer.Infra AsioServer.Lib

/-! ## Steps of the pool -/

section Pool

variable {s t : PoolState} {a : PoolEvent}

theorem closed_step (h : poolStep s a = some t) (hclosed : s.pool.closed = true) :
    t.pool.closed = true := by
  cases effect_of_step h with
  | closeAll => rfl
  | enter | resume => rw [(s.passBy_fields _ _).2.1]; exact hclosed
  | rollback hr hp hn => rw [(PoolState.notify_fields hn).1]; exact hclosed
  | release hr hp hc hn => exact absurd hclosed (by simp [hc])
  | _ => exact hclosed

/-- A closed pool has no idle connections. -/
theorem drained_step (h : poolStep s a = some t)
    (hdrained : s.pool.closed = true → s.pool.idle = []) :
    t.pool.closed = true → t.pool.idle = [] := by
  have hpass : ∀ i r, (s.passBy i r).pool.closed = true → (s.passBy i r).pool.idle = [] := by
    intro i r
    rcases s.passBy_cases i r with ⟨c, rest, hidle, heq⟩ | ⟨hidle, -, heq⟩ | ⟨-, -, heq⟩
    all_goals rw [heq]
    · intro hclosed
      exact absurd (hdrained hclosed) (by simp [hidle])
    · exact fun _ => hidle
    · exact hdrained
  cases effect_of_step h with
  | closeAll => exact fun _ => rfl
  | enter | resume => exact hpass _ _
  | rollback hr hp hn => rw [(PoolState.notify_fields hn).1]; exact hdrained
  | release hr hp hc hn =>
      rw [(PoolState.notify_fields hn).1]
      exact fun hclosed => absurd (hc.symm.trans hclosed) (by simp)
  | _ => exact hdrained

theorem nextConn_create {i : Nat} (h : poolStep s (.create i true) = some t) :
    t.nextConn = s.nextConn + 1 := by
  cases effect_of_step h with
  | create hr hp => rfl

/-- Only a creation that succeeds takes a new number. -/
theorem nextConn_step (h : poolStep s a = some t) (ha : ∀ i, a ≠ .create i true) :
    t.nextConn = s.nextConn := by
  cases effect_of_step h with
  | enter | resume => exact (s.passBy_fields _ _).2.2
  | create hr hp => exact absurd rfl (ha _)
  | rollback hr hp hn => exact (PoolState.notify_fields hn).2
  | release hr hp hc hn => exact (PoolState.notify_fields hn).2
  | _ => rfl

/-- Nobody who was woken executes. -/
theorem executing_of_notify {w : Option Nat} {j : Nat} {r' : Request} {c : Conn}
    (hn : s.notify w = some t) (hr' : t.requests[j]? = some r') (hp : r'.place = .executing c) :
    s.requests[j]? = some r' := by
  rw [PoolState.notify, Option.map_eq_some_iff] at hn
  obtain ⟨rs, hrs, rfl⟩ := hn
  obtain ⟨q, hq, rfl | ⟨-, rfl⟩⟩ := getElem?_notifyOne hrs hr'
  · exact hq
  · exact absurd hp (by simp [Request.wake])

/-- Who executes on a connection after a step did so before, or got it from the idle
queue, or had it made. -/
theorem executing_of_step {j : Nat} {r' : Request} {c : Conn} (h : poolStep s a = some t)
    (hr' : t.requests[j]? = some r') (hp : r'.place = .executing c) :
    ∃ r, s.requests[j]? = some r ∧
      (r.place = .executing c ∨ c ∈ s.pool.idle ∨ (c = s.nextConn ∧ a = .create j true)) := by
  have hsame : s.requests[j]? = some r' → ∃ r, s.requests[j]? = some r ∧
      (r.place = .executing c ∨ c ∈ s.pool.idle ∨ (c = s.nextConn ∧ a = .create j true)) :=
    fun hr => ⟨r', hr, .inl hp⟩
  -- the request that moved, when it does not execute afterwards
  have hput : ∀ {i : Nat} {q : Request}, q.place ≠ .executing c →
      (s.requests.set i q)[j]? = some r' → s.requests[j]? = some r' := by
    intro i q hq hset
    rcases getElem?_set_cases hset with ⟨rfl, rfl⟩ | ⟨-, hr⟩
    · exact absurd hp hq
    · exact hr
  have hpass : ∀ {i : Nat} {q : Request}, s.requests[i]? = some q →
      (s.passBy i q).requests[j]? = some r' → ∃ r, s.requests[j]? = some r ∧
        (r.place = .executing c ∨ c ∈ s.pool.idle ∨ (c = s.nextConn ∧ a = .create j true)) := by
    intro i q hq hset
    rcases s.passBy_cases i q with ⟨d, rest, hidle, heq⟩ | ⟨-, -, heq⟩ | ⟨-, -, heq⟩
    · rw [heq] at hset
      rcases getElem?_set_cases hset with ⟨rfl, rfl⟩ | ⟨-, hr⟩
      · have hd : d = c := by simpa [Request.receive] using hp
        exact ⟨q, hq, .inr (.inl (by rw [hidle, hd]; exact List.mem_cons_self))⟩
      · exact hsame hr
    · rw [heq] at hset
      exact hsame (hput (by simp) hset)
    · rw [heq] at hset
      exact hsame (hput (by simp) hset)
  cases effect_of_step h with
  | arrive session =>
      by_cases hlt : j < s.requests.length
      · exact hsame (by rwa [List.getElem?_append_left hlt] at hr')
      · have hmem := List.mem_of_getElem? (by
          rwa [List.getElem?_append_right (Nat.le_of_not_lt hlt)] at hr')
        obtain rfl := List.mem_singleton.mp hmem
        exact absurd hp (by simp)
  | closeAll =>
      obtain ⟨q, hq, rfl | ⟨-, rfl⟩⟩ := getElem?_notifyAll hr'
      · exact hsame hq
      · exact absurd hp (by simp [Request.wake])
  | refuse | timeOut | createNull => exact hsame (hput (by simp) hr')
  | enter hr => exact hpass hr hr'
  | resume hr => exact hpass hr hr'
  | create hr =>
      rcases getElem?_set_cases hr' with ⟨rfl, rfl⟩ | ⟨-, hr⟩
      · have hc : s.nextConn = c := by simpa [Request.receive] using hp
        exact ⟨_, ‹_›, .inr (.inr ⟨hc.symm, rfl⟩)⟩
      · exact hsame hr
  | execute => exact hsame (hput (by simp) hr')
  | releaseClosed => exact hsame (hput (by simp [Request.giveBack]) hr')
  | rollback hr hq hn => exact hsame (hput (by simp) (executing_of_notify hn hr' hp))
  | release hr hq hc hn =>
      exact hsame (hput (by simp [Request.giveBack]) (executing_of_notify hn hr' hp))

end Pool

/-! ## Steps with links -/

/-- The steps, by what they do to the connections. -/
inductive LinkEffect (s : LinkState) : LinkEvent → LinkState → Prop where
  | execute {i answer r c conn conn' ok out base} (hr : s.base.requests[i]? = some r)
      (hp : r.place = .executing c) (hconn : s.conns[c]? = some conn)
      (hexec : conn.execute answer = some (conn', ok, out))
      (hbase : poolStep s.base (.execute i ok) = some base) :
      LinkEffect s (.execute i answer) { base, conns := s.conns.set c conn' }
  | create {i base} (hbase : poolStep s.base (.create i true) = some base) :
      LinkEffect s (.other (.create i true)) { base, conns := s.conns ++ [.connected] }
  | other {a base} (ha : ∀ i ok, a ≠ .execute i ok) (hc : ∀ i, a ≠ .create i true)
      (hbase : poolStep s.base a = some base) : LinkEffect s (.other a) { s with base }

theorem linkEffect_of_step {s t : LinkState} {a : LinkEvent} (h : linkStep s a = some t) :
    LinkEffect s a t := by
  cases a with
  | execute i answer =>
      simp only [linkStep, executeOnLink, bind, Option.bind_eq_some_iff] at h
      obtain ⟨r, hr, h⟩ := h
      split at h
      · next c hp =>
          simp only [Option.bind_eq_some_iff] at h
          obtain ⟨conn, hconn, ⟨conn', ok, out⟩, hexec, base, hbase, h⟩ := h
          obtain rfl := Option.some.inj h
          exact .execute hr hp hconn hexec hbase
      · exact absurd h (by simp)
  | other a =>
      have hmap : ∀ {e : PoolEvent},
          (poolStep s.base e).map (fun base => { s with base }) = some t →
          (∀ i ok, e ≠ .execute i ok) → (∀ i, e ≠ .create i true) →
          LinkEffect s (.other e) t := by
        intro e he ha hc
        obtain ⟨base, hbase, rfl⟩ := Option.map_eq_some_iff.mp he
        exact .other ha hc hbase
      cases a with
      | execute i ok => exact absurd h (by simp [linkStep])
      | create i ok =>
          cases ok with
          | true =>
              obtain ⟨base, hbase, rfl⟩ := Option.map_eq_some_iff.mp h
              exact .create hbase
          | false => exact hmap h (by simp) (by simp)
      | _ => exact hmap h (by simp) (by simp)

/-- A step with links is a step of the pool. -/
theorem LinkEffect.poolStep {s t : LinkState} {a : LinkEvent} (h : LinkEffect s a t) :
    ∃ e, Services.poolStep s.base e = some t.base := by
  cases h with
  | execute hr hp hconn hexec hbase => exact ⟨_, hbase⟩
  | create hbase => exact ⟨_, hbase⟩
  | other ha hc hbase => exact ⟨_, hbase⟩

/-! ## The link of a connection -/

section Link

variable {s t : LinkState} {a : LinkEvent} {c : Conn} {conn conn' : MySQLConnection}
  {answer : ServerAnswer} {ok : Bool} {out : DBResult}

/-- No execution writes `_isConnected`. -/
theorem isValid_execute (h : conn.execute answer = some (conn', ok, out)) :
    conn'.isValid = conn.isValid := by
  cases answer with
  | statement answer =>
      simp only [MySQLConnection.execute] at h
      split at h
      · cases h
      · obtain ⟨rfl, -⟩ := Prod.mk.inj (Option.some.inj h)
        rfl
  | linkLost what =>
      obtain ⟨rfl, -⟩ := Prod.mk.inj (Option.some.inj h)
      rfl

/-- An execution on a valid connection leaves a link exactly if there was one and the
statement was answered. -/
theorem linkAlive_execute (h : conn.execute answer = some (conn', ok, out))
    (hvalid : conn.isValid = true) :
    conn'.linkAlive = true ↔ conn.linkAlive = true ∧ ∀ what, answer ≠ .linkLost what := by
  cases answer with
  | statement answer =>
      simp only [MySQLConnection.execute] at h
      split at h
      · cases h
      · next halive =>
          obtain ⟨rfl, -⟩ := Prod.mk.inj (Option.some.inj h)
          simp
  | linkLost what =>
      obtain ⟨rfl, -⟩ := Prod.mk.inj (Option.some.inj h)
      simp [hvalid]

theorem broken_eq (hconn : s.conns[c]? = some conn) : s.broken c = !conn.linkAlive := by
  rw [LinkState.broken, hconn]

theorem broken_lt (h : s.broken c = true) : c < s.conns.length := by
  unfold LinkState.broken at h
  split at h
  · next conn hconn => exact (List.getElem?_eq_some_iff.mp hconn).1
  · cases h

theorem broken_set {base : PoolState} {d : Conn} (hne : c ≠ d) :
    LinkState.broken { base, conns := s.conns.set d conn' } c = s.broken c := by
  rw [LinkState.broken, LinkState.broken, List.getElem?_set_ne (Ne.symm hne)]

/-- A new connection has a link. -/
theorem broken_append {base : PoolState} :
    LinkState.broken { base, conns := s.conns ++ [.connected] } c = s.broken c := by
  rw [LinkState.broken, LinkState.broken]
  by_cases hlt : c < s.conns.length
  · rw [List.getElem?_append_left hlt]
  · have hnone : s.conns[c]? = none := List.getElem?_eq_none (Nat.le_of_not_lt hlt)
    rw [List.getElem?_append_right (Nat.le_of_not_lt hlt), hnone]
    cases h : [MySQLConnection.connected][c - s.conns.length]? with
    | none => rfl
    | some conn =>
        obtain rfl := List.mem_singleton.mp (List.mem_of_getElem? h)
        rfl

end Link

/-! ## The invariant -/

/-- The pool is in order but for a surplus, and all connections are valid. -/
structure LinkInv (s : LinkState) : Prop where
  counts : PoolCounts s.base
  lends : ∃ d, PoolInv (s.base.shift d)
  drained : s.base.pool.closed = true → s.base.pool.idle = []
  numbered : s.conns.length = s.base.nextConn
  valid : ∀ conn ∈ s.conns, conn.isValid = true

section Inv

variable {s t : LinkState} {a : LinkEvent} {c : Conn} {r q : Request}

/-- A connection is lent to one request at a time. -/
theorem LinkInv.same_holder (h : LinkInv s) (hr : r ∈ s.base.requests) (hq : q ∈ s.base.requests)
    (hrc : r.place.lent = some c) (hqc : q.place.lent = some c) : r = q := by
  by_contra hne
  have htwo : 2 ≤ s.base.holders c :=
    two_le_countP hne (by simp [Request.holdsConn, hrc]) (by simp [Request.holdsConn, hqc]) hr hq
  obtain ⟨d, hinv⟩ := h.lends
  have hone : s.base.pool.idle.count c + s.base.holders c ≤ 1 := hinv.one_place c
  omega

theorem linkInv_new (max : Nat) (valid : Nat → Bool) : LinkInv (LinkState.new max valid) := by
  refine ⟨poolCounts_new (newPool_initialized max valid), ⟨_, poolInv_initialized max valid⟩,
    fun hclosed => ?_, List.length_replicate, ?_⟩
  · exact absurd hclosed (by simp [LinkState.new, initialized, mySqlInitialize])
  · intro conn hconn
    rw [List.eq_of_mem_replicate hconn]
    rfl

theorem LinkInv.step (h : LinkInv s) (ht : linkStep s a = some t) : LinkInv t := by
  have heffect := linkEffect_of_step ht
  obtain ⟨e, hbase⟩ := heffect.poolStep
  obtain ⟨d, hinv⟩ := h.lends
  have hshift : poolStep (s.base.shift d) e = some (t.base.shift d) := by
    rw [poolStep_shift h.counts, hbase]
    rfl
  have hnumbered : t.conns.length = t.base.nextConn := by
    cases heffect with
    | execute hr hp hconn hexec hmoved =>
        rw [List.length_set, h.numbered, nextConn_step hmoved (by simp)]
    | create hmoved =>
        rw [List.length_append, List.length_singleton, h.numbered, nextConn_create hmoved]
    | other ha hc hmoved => rw [h.numbered, nextConn_step hmoved hc]
  have hvalid : ∀ conn ∈ t.conns, conn.isValid = true := by
    cases heffect with
    | execute hr hp hconn hexec hbase =>
        intro conn hmem
        rcases mem_set_cases hmem with rfl | hmem
        · rw [isValid_execute hexec]
          exact h.valid _ (List.mem_of_getElem? hconn)
        · exact h.valid conn hmem
    | create hbase =>
        intro conn hmem
        rcases List.mem_append.mp hmem with hmem | hmem
        · exact h.valid conn hmem
        · rw [List.mem_singleton.mp hmem]
          rfl
    | other ha hc hbase => exact h.valid
  exact ⟨h.counts.step hbase, ⟨d, hinv.step hshift⟩, drained_step hbase h.drained, hnumbered,
    hvalid⟩

/-- A lost link stays lost, and is lost only by an execution on the connection. -/
theorem broken_step (h : LinkInv s) (ht : linkStep s a = some t) :
    t.broken c = true ↔ s.broken c = true ∨
      ∃ i what r, a = .execute i (.linkLost what) ∧ s.base.requests[i]? = some r ∧
        r.place = .executing c := by
  cases linkEffect_of_step ht with
  | @execute i answer r d conn conn' ok out base hr hp hconn hexec hbase =>
      have halive := linkAlive_execute hexec (h.valid conn (List.mem_of_getElem? hconn))
      by_cases hcd : c = d
      · subst hcd
        have hafter : LinkState.broken { base, conns := s.conns.set c conn' } c =
            !conn'.linkAlive := broken_eq (getElem?_set_self_of_some hconn)
        rw [hafter, broken_eq hconn]
        simp only [Bool.not_eq_true', Bool.eq_false_iff, Ne, halive, not_and, not_forall, not_not]
        constructor
        · intro himp
          by_cases hlive : conn.linkAlive = true
          · obtain ⟨what, rfl⟩ := himp hlive
            exact .inr ⟨i, what, r, rfl, hr, hp⟩
          · exact .inl hlive
        · rintro (hdead | ⟨j, what, q, heq, -, -⟩) hlive
          · exact absurd hlive hdead
          · obtain ⟨rfl, rfl⟩ := LinkEvent.execute.inj heq
            exact ⟨what, rfl⟩
      · rw [broken_set hcd]
        refine ⟨.inl, ?_⟩
        rintro (hbroken | ⟨j, what, q, heq, hq, hqc⟩)
        · exact hbroken
        · obtain ⟨rfl, rfl⟩ := LinkEvent.execute.inj heq
          obtain rfl := Option.some.inj (hr.symm.trans hq)
          exact absurd (Place.executing.inj (hqc.symm.trans hp)) hcd
  | create hbase => rw [broken_append]; simp
  | other ha hc hbase =>
      constructor
      · exact .inl
      · rintro (hbroken | ⟨j, what, q, heq, -, -⟩)
        · exact hbroken
        · cases heq

end Inv

/-! ## Lending -/

/-- No `Acquire` returns the connection in this step. -/
def NotLent (c : Conn) (s : LinkState) (_ : LinkEvent) (t : LinkState) : Prop :=
  ∀ (j : Nat) (r r' : Request), s.base.requests[j]? = some r → t.base.requests[j]? = some r' →
    r'.place = .executing c → r.place = .executing c

/-- No `Acquire` returns a connection whose link is lost, whatever comes next. -/
def NeverLentAgain (s : LinkState) : Prop :=
  ∀ c, s.broken c = true → ∀ events, AllSteps linkStep (NotLent c) s events

/-- No execution starts from a link that an earlier one has lost. -/
def RunsOnLink (s : LinkState) (a : LinkEvent) (_ : LinkState) : Prop :=
  ∀ i answer r c, a = .execute i answer → s.base.requests[i]? = some r →
    r.place = .executing c → s.broken c = false

/-- No execution loses its link while the pool is open. -/
def NoLossWhileOpen (s : LinkState) (a : LinkEvent) (_ : LinkState) : Prop :=
  s.base.pool.closed = false → ∀ i what, a ≠ .execute i (.linkLost what)

section Lent

variable {s t : LinkState} {a : LinkEvent} {c : Conn} {r : Request}

/-- A closed pool lends nothing that there is. -/
theorem neverLent_of_closed (h : LinkInv s) (hclosed : s.base.pool.closed = true)
    (hc : c < s.conns.length) (events : List LinkEvent) :
    AllSteps linkStep (NotLent c) s events := by
  refine @AllSteps.of_invariant _ _ linkStep
    (fun s => LinkInv s ∧ s.base.pool.closed = true ∧ c < s.conns.length) (NotLent c)
    ?_ events s ⟨h, hclosed, hc⟩
  rintro s a t ⟨h, hclosed, hc⟩ ht
  obtain ⟨e, hbase⟩ := (linkEffect_of_step ht).poolStep
  have hlength : s.conns.length ≤ t.conns.length := by
    cases linkEffect_of_step ht with
    | execute => rw [List.length_set]
    | create => rw [List.length_append]; exact Nat.le_add_right _ _
    | other => exact Nat.le_refl _
  refine ⟨⟨h.step ht, closed_step hbase hclosed, Nat.lt_of_lt_of_le hc hlength⟩, ?_⟩
  intro j r r' hr hr' hp
  obtain ⟨q, hq, hbefore | hidle | ⟨hnew, -⟩⟩ := executing_of_step hbase hr' hp
  · exact Option.some.inj (hr.symm.trans hq) ▸ hbefore
  · rw [h.drained hclosed] at hidle
    exact absurd hidle (by simp)
  · rw [h.numbered, hnew] at hc
    exact absurd hc (Nat.lt_irrefl _)

/-- **An open pool lends an idle connection again**, broken or not. -/
theorem exists_lent_again : ∀ (idle : List Conn) (s : LinkState), s.base.pool.idle = idle →
    s.base.pool.closed = false → c ∈ idle → ∃ events, ¬ AllSteps linkStep (NotLent c) s events
  | [], _, _, _, hmem => absurd hmem (by simp)
  | d :: rest, s, hidle, hopen, hmem => by
      let first : List LinkEvent :=
        [.other (.arrive 0), .other (.enter s.base.requests.length)]
      let arrived : LinkState :=
        { s with base := { s.base with requests := s.base.requests ++ [{ session := 0 }] } }
      let lent : LinkState := { s with base := { s.base with
        pool := { s.base.pool with idle := rest }
        requests := s.base.requests ++ [{ session := 0, place := .executing d, acquired := 1 }] } }
      have harrive : linkStep s (.other (.arrive 0)) = some arrived := rfl
      have hbase : poolStep arrived.base (.enter s.base.requests.length) = some lent.base := by
        have h := lend_front hopen hidle
        rw [run_cons] at h
        exact (run_singleton _ _ _).symm.trans h
      have henter : linkStep arrived (.other (.enter s.base.requests.length)) = some lent := by
        simp only [linkStep, hbase]
        rfl
      by_cases hcd : c = d
      · subst hcd
        refine ⟨first, fun hall => ?_⟩
        have hstep := ((hall arrived harrive).2 lent henter).1
        have hbefore := hstep s.base.requests.length { session := 0 }
          { session := 0, place := .executing c, acquired := 1 } (by simp [arrived])
          (by simp [lent]) rfl
        exact absurd hbefore (by simp)
      · have hrest : c ∈ rest := (List.mem_cons.mp hmem).resolve_left hcd
        obtain ⟨events, hnot⟩ := exists_lent_again rest lent rfl hopen hrest
        refine ⟨first ++ events, fun hall => hnot ?_⟩
        have hrun : run linkStep s first = some lent := by simp [first, harrive, henter]
        exact allSteps_drop hall hrun

/-- A request that is about to release a connection to an open pool can, and then the
connection can be lent again. -/
theorem exists_released_again {i : Nat} {ok : Bool} (hopen : s.base.pool.closed = false)
    (hr : s.base.requests[i]? = some r) (hp : r.place = .releasing c ok) :
    ∃ events, ¬ AllSteps linkStep (NotLent c) s events := by
  obtain ⟨w, base, hbase, -⟩ := exists_release hr hp
  let released : LinkState := { s with base }
  have hstep : linkStep s (.other (.release i w)) = some released := by
    simp only [linkStep, hbase]
    rfl
  have hpool : base.pool.idle = s.base.pool.idle ++ [c] ∧ base.pool.closed = false := by
    cases effect_of_step hbase with
    | releaseClosed hq hq' hc => exact absurd (hopen.symm.trans hc) (by simp)
    | release hq hq' hc hn =>
        obtain rfl := Option.some.inj (hr.symm.trans hq)
        obtain ⟨rfl, rfl⟩ := Place.releasing.inj (hp.symm.trans hq')
        rw [(PoolState.notify_fields hn).1]
        exact ⟨rfl, hc⟩
  obtain ⟨events, hnot⟩ := exists_lent_again _ released rfl hpool.2
    (by rw [hpool.1]; exact List.mem_append_right _ (List.mem_singleton.mpr rfl))
  exact ⟨.other (.release i w) :: events, fun hall => hnot (hall released hstep).2⟩

/-- One step leaves no broken connection that can be lent exactly if it does not lose a
link while the pool is open. -/
theorem neverLentAgain_step_iff (h : LinkInv s) (hs : NeverLentAgain s)
    (ht : linkStep s a = some t) : NeverLentAgain t ↔ NoLossWhileOpen s a t := by
  constructor
  · rintro hnever hopen i what rfl
    have hinv := h.step ht
    cases linkEffect_of_step ht with
    | @execute i answer r c conn conn' ok out base hr hp hconn hexec hbase =>
        have hbroken : LinkState.broken { base, conns := s.conns.set c conn' } c = true :=
          (broken_step h ht).mpr (.inr ⟨i, what, r, rfl, hr, hp⟩)
        have hbefore : poolStep s.base (.execute i ok) =
            some (s.base.put i { r with place := .releasing c ok }) := by
          simp [poolStep, PoolEvent.actor, hr, requestStep, hp]
        obtain rfl := Option.some.inj (hbase.symm.trans hbefore)
        obtain ⟨events, hnot⟩ := @exists_released_again
          ⟨s.base.put i { r with place := .releasing c ok }, s.conns.set c conn'⟩ c
          { r with place := .releasing c ok } i ok hopen (getElem?_set_self_of_some hr) rfl
        exact hnot (hnever c hbroken events)
  · intro hok c hbroken events
    rcases (broken_step h ht).mp hbroken with hbefore | ⟨i, what, r, rfl, hr, hp⟩
    · exact (hs c hbefore (a :: events) t ht).2
    · have hclosed : s.base.pool.closed = true := by
        by_contra hopen
        exact hok (Bool.eq_false_iff.mpr hopen) i what rfl
      obtain ⟨e, hbase⟩ := (linkEffect_of_step ht).poolStep
      exact neverLent_of_closed (h.step ht) (closed_step hbase hclosed) (broken_lt hbroken) events

/-- Every request that executes has a link. -/
def Running (s : LinkState) : Prop :=
  ∀ r ∈ s.base.requests, ∀ c, r.place = .executing c → s.broken c = false

theorem Running.step (h : LinkInv s) (hs : NeverLentAgain s) (hrunning : Running s)
    (ht : linkStep s a = some t) : Running t := by
  intro r' hr' c hp'
  obtain ⟨j, hj⟩ := List.mem_iff_getElem?.mp hr'
  obtain ⟨e, hbase⟩ := (linkEffect_of_step ht).poolStep
  obtain ⟨r, hr, -⟩ := executing_of_step hbase hj hp'
  -- it executed before, or got the connection in this step and the link is there
  have hbefore : s.broken c = false := by
    by_contra hne
    have hbroken : s.broken c = true := by simpa using hne
    have hp := (hs c hbroken [a] t ht).1 j r r' hr hj hp'
    exact hne (hrunning r (List.mem_of_getElem? hr) c hp)
  rw [Bool.eq_false_iff, Ne, broken_step h ht, not_or]
  refine ⟨by simp [hbefore], ?_⟩
  rintro ⟨i, what, q, rfl, hq, hqc⟩
  -- the request whose execution lost the link is another holder of the connection
  have hsame : ∀ {x : Request}, x ∈ t.base.requests → x.place.lent = some c → r' = x :=
    fun hx hxc => (h.step ht).same_holder hr' hx (by rw [hp']; rfl) hxc
  cases linkEffect_of_step ht with
  | @execute i answer q' d conn conn' ok out base hq' hqd hconn hexec hmoved =>
      obtain rfl := Option.some.inj (hq.symm.trans hq')
      obtain rfl := Place.executing.inj (hqc.symm.trans hqd)
      have hafter : poolStep s.base (.execute i ok) =
          some (s.base.put i { q with place := .releasing c ok }) := by
        simp [poolStep, PoolEvent.actor, hq, requestStep, hqc]
      obtain rfl := Option.some.inj (hmoved.symm.trans hafter)
      have hmem := List.mem_of_getElem?
        (getElem?_set_self_of_some (m := { q with place := Place.releasing c ok }) hq)
      rw [hsame hmem rfl] at hp'
      exact absurd hp' (by simp)

end Lent

/-! ## Every run -/

/-- **In every state of a run no `Acquire` to come returns a connection whose link is
lost, and no execution starts from a lost link, exactly when no execution of the run
loses its link while the pool is open.** -/
theorem broken_not_lent_iff (max : Nat) (valid : Nat → Bool) (events : List LinkEvent) :
    (AllStates linkStep NeverLentAgain (LinkState.new max valid) events ∧
        AllSteps linkStep RunsOnLink (LinkState.new max valid) events) ↔
      AllSteps linkStep NoLossWhileOpen (LinkState.new max valid) events := by
  have hinv := linkInv_new max valid
  have hunbroken : ∀ c, (LinkState.new max valid).broken c = false := by
    intro c
    unfold LinkState.broken
    split
    · next conn hconn =>
        rw [List.eq_of_mem_replicate (List.mem_of_getElem? hconn)]
        rfl
    · rfl
  have hnever : NeverLentAgain (LinkState.new max valid) :=
    fun c hc => absurd hc (by simp [hunbroken c])
  have hall := @allStates_iff_allSteps _ _ linkStep LinkInv NeverLentAgain NoLossWhileOpen
    (fun _ _ _ h ht => h.step ht) (fun _ _ _ h hs ht => neverLentAgain_step_iff h hs ht)
    events (LinkState.new max valid) hinv hnever
  constructor
  · exact fun h => hall.mp h.1
  · intro hok
    refine ⟨hall.mpr hok, ?_⟩
    refine @allSteps_of_invariant _ _ linkStep
      (fun s => LinkInv s ∧ NeverLentAgain s ∧ Running s) NoLossWhileOpen RunsOnLink ?_ events
      (LinkState.new max valid) ⟨hinv, hnever, fun _ hr => absurd hr (by
        simp [LinkState.new, initialized])⟩ hok
    rintro s a t ⟨h, hs, hrunning⟩ hok ht
    refine ⟨⟨h.step ht, (neverLentAgain_step_iff h hs ht).mpr hok, hrunning.step h hs ht⟩, ?_⟩
    rintro i answer r c rfl hr hp
    exact hrunning r (List.mem_of_getElem? hr) c hp

/-- A pool of one: the first request loses the link, the second gets the connection, and
its execution fails as well. -/
theorem broken_connection_is_lent_again :
    let events : List LinkEvent := [.other (.arrive 7), .other (.enter 0), .other (.create 0 true),
      .execute 0 (.linkLost (ascii "broken pipe")), .other (.release 0 none),
      .other (.arrive 8), .other (.enter 1)]
    ∃ t, run linkStep (LinkState.new 1 fun _ => true) events = some t ∧
      t.broken 0 = true ∧ t.base.requests[1]? = some ⟨8, .executing 0, 1, 0⟩ ∧
      ¬ AllStates linkStep NeverLentAgain (LinkState.new 1 fun _ => true) events := by
  intro events
  refine ⟨_, rfl, rfl, rfl, ?_⟩
  intro hall
  have hlost := ((((hall.2 _ rfl).2 _ rfl).2 _ rfl).2 _ rfl).head
  have hlent := (((hlost 0 rfl (events.drop 4) _ rfl).2 _ rfl).2 _ rfl).1
  exact absurd (hlent 1 _ _ rfl rfl rfl) (by decide)

end AsioServer.Services
