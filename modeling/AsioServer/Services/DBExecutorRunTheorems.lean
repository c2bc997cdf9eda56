/-
AsioServer.Services.DBExecutorRunTheorems — many databases under one table.

Whatever the calls on `DBExecutor` do, each pool goes through a run of its own
(`advances_step`), so that what holds of one pool in every run holds of all of them
here (`all_pools_conserve`).

The table only loses entries. An entry goes when its pool has been closed, by `close`
or by `Shutdown` (`ExecutorInv`). From then on the pool has no idle connection, and
none at all when the requests that had found it before are finished; every
`ExecuteRequest` that comes later is told that there is no pool
(`closed_database_is_gone`).
-/
import AsioServer.Services.DBExecutorRun
import AsioServer.Services.DBPoolsTheorems
import AsioServer.Services.BrokenConnectionsTheorems

namespace AsioServer.Services

open AsioServer.Core AsioServer.Infra AsioServer.Lib

variable {s t s₀ : Executor} {a : ExecutorEvent}

/-! ## What a step can do -/

/-- The steps, one constructor for each thing the source does. -/
inductive ExecutorEffect (s : Executor) : ExecutorEvent → Executor → Prop where
  | executeRequest (request : DBRequest) :
      ExecutorEffect s (.executeRequest request) { s with calls := s.calls ++ [{ request }] }
  | notFound {i : Nat} {c : Call} : s.calls[i]? = some c → c.place = .entering →
      (∀ p, s.connPools.lookup c.request.key ≠ some (some p)) →
        ExecutorEffect s (.find i) (s.put i c .notFound)
  | toClose {i p : Nat} {c : Call} : s.calls[i]? = some c → c.place = .entering →
      s.connPools.lookup c.request.key = some (some p) →
        ExecutorEffect s (.find i) (s.put i c (.closing p))
  | arrive {i p : Nat} {c : Call} {x y : PoolState} : s.calls[i]? = some c →
      c.place = .entering → s.connPools.lookup c.request.key = some (some p) →
        s.pools[p]? = some x → poolStep x (.arrive i) = some y →
          ExecutorEffect s (.find i)
            ({ s with pools := s.pools.set p y }.put i c (.atPool p x.requests.length))
  | request {p : Nat} {event : PoolEvent} {x y : PoolState} : s.pools[p]? = some x →
      poolStep x event = some y →
        ExecutorEffect s (.request p event) { s with pools := s.pools.set p y }
  | closeAll {i p : Nat} {c : Call} {x y : PoolState} : s.calls[i]? = some c →
      c.place = .closing p → s.pools[p]? = some x → poolStep x .closeAll = some y →
        ExecutorEffect s (.closeAll i) ({ s with pools := s.pools.set p y }.put i c (.erasing p))
  | erase {i p : Nat} {c : Call} : s.calls[i]? = some c → c.place = .erasing p →
      s.shutdown = none →
        ExecutorEffect s (.erase i)
          ({ s with connPools := Table.erase s.connPools c.request.key }.put i c .closed)
  | lock : s.shutdown = none → ExecutorEffect s .lock { s with shutdown := some s.connPools }
  | closeEntry {key : DBKey} {p : Nat} {entries : List (DBKey × Option Nat)} {x y : PoolState} :
      s.shutdown = some entries → s.pools[p]? = some x → poolStep x .closeAll = some y →
        ExecutorEffect s (.closeEntry (key, some p))
          { s with pools := s.pools.set p y, shutdown := some (entries.erase (key, some p)) }
  | nullEntry {key : DBKey} {entries : List (DBKey × Option Nat)} : s.shutdown = some entries →
      ExecutorEffect s (.closeEntry (key, none))
        { s with shutdown := some (entries.erase (key, none)), nullCall := true }
  | clear : s.shutdown = some [] →
      ExecutorEffect s .clear { s with connPools := [], shutdown := none }

theorem stepPool_eq_some_iff {p : Nat} {event : PoolEvent} :
    s.stepPool p event = some t ↔ ∃ x y, s.pools[p]? = some x ∧ poolStep x event = some y ∧
      t = { s with pools := s.pools.set p y } := by
  simp only [Executor.stepPool, Option.bind_eq_some_iff, Option.map_eq_some_iff]
  constructor
  · rintro ⟨x, hx, y, hy, rfl⟩
    exact ⟨x, y, hx, hy, rfl⟩
  · rintro ⟨x, y, hx, hy, rfl⟩
    exact ⟨x, hx, y, hy, rfl⟩

theorem effect_of_findBy {i : Nat} {c : Call} (hc : s.calls[i]? = some c)
    (hplace : c.place = .entering) (h : s.findBy i c = some t) :
    ExecutorEffect s (.find i) t := by
  unfold Executor.findBy at h
  split at h
  · next p hlookup =>
    split at h
    · obtain rfl := Option.some.inj h
      exact .toClose hc hplace hlookup
    · obtain ⟨x, hx, h⟩ := Option.bind_eq_some_iff.mp h
      obtain ⟨u, hu, rfl⟩ := Option.map_eq_some_iff.mp h
      obtain ⟨x', y, hx', hy, rfl⟩ := stepPool_eq_some_iff.mp hu
      obtain rfl := Option.some.inj (hx.symm.trans hx')
      exact .arrive hc hplace hlookup hx hy
  · next hlookup =>
    obtain rfl := Option.some.inj h
    exact .notFound hc hplace hlookup

theorem effect_of_executorStep (h : executorStep s a = some t) : ExecutorEffect s a t := by
  unfold executorStep at h
  split at h
  · exact absurd h (by simp)
  cases a with
  | executeRequest request =>
      obtain rfl := Option.some.inj h
      exact .executeRequest request
  | find i =>
      obtain ⟨c, hc, h⟩ := Option.bind_eq_some_iff.mp h
      simp only [callStep] at h
      split at h
      · next hplace =>
        split at h
        · exact absurd h (by simp)
        · exact effect_of_findBy hc hplace h
      · exact absurd h (by simp)
  | request p event =>
      dsimp only at h
      split at h
      · obtain ⟨x, y, hx, hy, rfl⟩ := stepPool_eq_some_iff.mp h
        exact .request hx hy
      · exact absurd h (by simp)
  | closeAll i =>
      obtain ⟨c, hc, h⟩ := Option.bind_eq_some_iff.mp h
      simp only [callStep] at h
      split at h
      · next p hplace =>
        obtain ⟨u, hu, rfl⟩ := Option.map_eq_some_iff.mp h
        obtain ⟨x, y, hx, hy, rfl⟩ := stepPool_eq_some_iff.mp hu
        exact .closeAll hc hplace hx hy
      · exact absurd h (by simp)
  | erase i =>
      obtain ⟨c, hc, h⟩ := Option.bind_eq_some_iff.mp h
      simp only [callStep] at h
      split at h
      · next p hplace =>
        split at h
        · exact absurd h (by simp)
        · next hshutdown =>
          obtain rfl := Option.some.inj h
          exact .erase hc hplace (by simpa using hshutdown)
      · exact absurd h (by simp)
  | lock =>
      dsimp only at h
      split at h
      · exact absurd h (by simp)
      · next hshutdown =>
        obtain rfl := Option.some.inj h
        exact .lock (by simpa using hshutdown)
  | closeEntry entry =>
      obtain ⟨key, pool⟩ := entry
      dsimp only at h
      split at h
      · next entries hshutdown =>
        split at h
        · cases pool with
          | none =>
              obtain rfl := Option.some.inj h
              exact .nullEntry hshutdown
          | some p =>
              obtain ⟨x, y, hx, hy, rfl⟩ := stepPool_eq_some_iff.mp h
              exact .closeEntry hshutdown hx hy
        · exact absurd h (by simp)
      · exact absurd h (by simp)
  | clear =>
      dsimp only at h
      split at h
      · next hshutdown =>
        obtain rfl := Option.some.inj h
        exact .clear hshutdown
      · exact absurd h (by simp)

/-- Every pool goes through a run of its own. -/
theorem advances_step (h : executorStep s a = some t) : Advances poolStep s.pools t.pools := by
  cases effect_of_executorStep h with
  | arrive _ _ _ hx hy | request hx hy | closeAll _ _ hx hy | closeEntry _ hx hy =>
      exact .set hx hy
  | _ => exact .refl _ _

/-! ## Pools without an entry -/

/-- The pool is closed and has no idle connection. -/
def PoolState.Drained (x : PoolState) : Prop := x.pool.closed = true ∧ x.pool.idle = []

theorem PoolState.Drained.step {x y : PoolState} {event : PoolEvent} (h : x.Drained)
    (hstep : poolStep x event = some y) : y.Drained := by
  have hclosed := closed_step hstep h.1
  exact ⟨hclosed, drained_step hstep (fun _ => h.2) hclosed⟩

theorem drained_closeAll {x y : PoolState} (h : poolStep x .closeAll = some y) : y.Drained := by
  obtain rfl := Option.some.inj h
  exact ⟨rfl, rfl⟩

/-- Pool `p` is. -/
def Drained (s : Executor) (p : Nat) : Prop := ∃ x, s.pools[p]? = some x ∧ x.Drained

theorem Drained.advances {p : Nat} (h : Drained s p)
    (hadvances : Advances poolStep s.pools t.pools) : Drained t p := by
  obtain ⟨x, hx, hdrained⟩ := h
  exact hadvances.invariant (fun _ _ _ => PoolState.Drained.step) hx hdrained

theorem drained_set {p : Nat} {x y : PoolState} (hx : s.pools[p]? = some x) (hy : y.Drained) :
    Drained { s with pools := s.pools.set p y } p :=
  ⟨y, List.getElem?_set_self (List.getElem?_eq_some_iff.mp hx).1, hy⟩

/-- What the pool that a call has found has to do with its key. -/
def Call.Sound (s₀ s : Executor) (c : Call) : Prop :=
  match c.place with
  | .closing p | .atPool p _ => (c.request.key, some p) ∈ s₀.connPools
  | .erasing p => (c.request.key, some p) ∈ s₀.connPools ∧ Drained s p
  | .entering | .notFound | .closed => True

/-- A call keeps to the pool of its key, for a statement and for a close. -/
theorem Call.Sound.entry {c : Call} {p : Nat} (h : c.Sound s₀ s) (hpool : c.place.pool = some p) :
    (c.request.key, some p) ∈ s₀.connPools := by
  unfold Call.Sound at h
  cases hplace : c.place with
  | closing q | atPool q i =>
      rw [hplace] at h hpool
      exact Option.some.inj hpool ▸ h
  | erasing q =>
      rw [hplace] at h hpool
      exact Option.some.inj hpool ▸ h.1
  | entering | notFound | closed =>
      rw [hplace] at hpool
      exact absurd hpool (by simp [CallPlace.pool])

theorem Call.Sound.advances {c : Call} (h : c.Sound s₀ s)
    (hadvances : Advances poolStep s.pools t.pools) : c.Sound s₀ t := by
  unfold Call.Sound at h ⊢
  split at h
  · exact h
  · exact h
  · exact ⟨h.1, h.2.advances hadvances⟩
  · trivial
  · trivial
  · trivial

/-- The invariant of the executor, from the state `s₀` that it starts in: only entries
whose pool is closed leave the table. -/
structure ExecutorInv (s₀ s : Executor) : Prop where
  pools : Advances poolStep s₀.pools s.pools
  kept : ∀ e ∈ s.connPools, e ∈ s₀.connPools
  gone : ∀ key p, (key, some p) ∈ s₀.connPools → (key, some p) ∉ s.connPools → Drained s p
  shutdown : ∀ entries, s.shutdown = some entries → ∀ key p, (key, some p) ∈ s.connPools →
    (key, some p) ∈ entries ∨ Drained s p
  calls : ∀ c ∈ s.calls, c.Sound s₀ s

/-- A step that writes neither the table nor the list of `Shutdown`. -/
theorem ExecutorInv.move (h : ExecutorInv s₀ s) (hadvances : Advances poolStep s.pools t.pools)
    (htable : t.connPools = s.connPools) (hshutdown : t.shutdown = s.shutdown)
    (hcalls : ∀ c ∈ t.calls, c ∈ s.calls ∨ c.Sound s₀ t) : ExecutorInv s₀ t where
  pools := h.pools.trans hadvances
  kept := htable ▸ h.kept
  gone key p hentry hgone := (h.gone key p hentry (htable ▸ hgone)).advances hadvances
  shutdown entries hentries key p hentry :=
    (h.shutdown entries (hshutdown ▸ hentries) key p (htable ▸ hentry)).imp_right
      fun hdrained => hdrained.advances hadvances
  calls c hc := (hcalls c hc).elim (fun hold => (h.calls c hold).advances hadvances) id

theorem ExecutorInv.step (hkeys : (s₀.connPools.map Prod.fst).Nodup) (h : ExecutorInv s₀ s)
    (hstep : executorStep s a = some t) : ExecutorInv s₀ t := by
  have hadvances := advances_step hstep
  have hput : ∀ {u : Executor} {i : Nat} {c : Call} {place : CallPlace}, u.calls = s.calls →
      Call.Sound s₀ u { c with place } →
        ∀ d ∈ (u.put i c place).calls, d ∈ s.calls ∨ d.Sound s₀ (u.put i c place) := by
    intro u i c place hcalls hsound d hd
    rcases mem_set_cases hd with hnew | hold
    · exact .inr (hnew ▸ hsound)
    · exact .inl (hcalls ▸ hold)
  cases effect_of_executorStep hstep with
  | executeRequest request =>
      refine h.move hadvances rfl rfl fun c hc => ?_
      rcases List.mem_append.mp hc with hold | hnew
      · exact .inl hold
      · obtain rfl := List.mem_singleton.mp hnew
        exact .inr trivial
  | notFound hc hplace hlookup => exact h.move hadvances rfl rfl (hput rfl trivial)
  | toClose hc hplace hlookup =>
      have hentry := h.kept _ (Table.mem_of_lookup hlookup)
      exact h.move hadvances rfl rfl (hput rfl hentry)
  | arrive hc hplace hlookup hx hy =>
      have hentry := h.kept _ (Table.mem_of_lookup hlookup)
      exact h.move hadvances rfl rfl (hput rfl hentry)
  | request hx hy => exact h.move hadvances rfl rfl fun c hc => .inl hc
  | closeAll hc hplace hx hy =>
      have hsound := h.calls _ (List.mem_of_getElem? hc)
      rw [Call.Sound, hplace] at hsound
      exact h.move hadvances rfl rfl
        (hput rfl ⟨hsound, drained_set hx (drained_closeAll hy)⟩)
  | @erase i p c hc hplace hshutdown =>
      have hsound := h.calls _ (List.mem_of_getElem? hc)
      rw [Call.Sound, hplace] at hsound
      refine ⟨h.pools, fun e he => h.kept e (Table.mem_of_erase he), fun key q hentry hgone => ?_,
        fun entries hentries => ?_, fun d hd => ?_⟩
      · by_cases hin : (key, some q) ∈ s.connPools
        · -- it was erased now, so it is the entry of the pool that the call has closed
          have hkey : key = c.request.key := by
            by_contra hne
            exact hgone (List.mem_filter.mpr ⟨hin, by simpa using hne⟩)
          have hsame := List.inj_on_of_nodup_map hkeys hentry hsound.1 hkey
          obtain rfl := Option.some.inj (Prod.mk.inj hsame).2
          exact hsound.2
        · exact h.gone key q hentry hin
      · exact absurd (hshutdown.symm.trans hentries) (by simp)
      · rcases mem_set_cases hd with hnew | hold
        · exact hnew ▸ trivial
        · exact h.calls d hold
  | lock hshutdown =>
      refine ⟨h.pools, h.kept, h.gone, fun entries hentries key p hentry => ?_, h.calls⟩
      obtain rfl := Option.some.inj hentries
      exact .inl hentry
  | @closeEntry key p entries x y hshutdown hx hy =>
      refine ⟨h.pools.trans hadvances, h.kept,
        fun key q hentry hgone => (h.gone key q hentry hgone).advances hadvances,
        fun left hleft key' q hentry => ?_, fun c hc => (h.calls c hc).advances hadvances⟩
      obtain rfl := Option.some.inj hleft
      rcases h.shutdown entries hshutdown key' q hentry with hlisted | hdrained
      · by_cases hsame : (key', some q) = (key, some p)
        · obtain rfl := Option.some.inj (Prod.mk.inj hsame).2
          exact .inr (drained_set hx (drained_closeAll hy))
        · exact .inl ((List.mem_erase_of_ne hsame).mpr hlisted)
      · exact .inr (hdrained.advances hadvances)
  | @nullEntry key entries hshutdown =>
      refine ⟨h.pools, h.kept, h.gone, fun left hleft key' q hentry => ?_, h.calls⟩
      obtain rfl := Option.some.inj hleft
      exact (h.shutdown entries hshutdown key' q hentry).imp_left
        (List.mem_erase_of_ne (by simp)).mpr
  | clear hshutdown =>
      refine ⟨h.pools, nofun, fun key p hentry _ => ?_, nofun, h.calls⟩
      by_cases hin : (key, some p) ∈ s.connPools
      · exact (h.shutdown [] hshutdown key p hin).elim nofun id
      · exact h.gone key p hentry hin

/-! ## Calls without an entry -/

theorem getElem?_put {i j : Nat} {c d : Call} {place : CallPlace}
    (h : (s.put i c place).calls[j]? = some d) :
    i = j ∧ d = { c with place } ∨ s.calls[j]? = some d := by
  by_cases hij : i = j
  · subst hij
    obtain ⟨hlt, hd⟩ := List.getElem?_eq_some_iff.mp h
    exact .inl ⟨rfl, by rw [← hd]; exact List.getElem_set_self hlt⟩
  · exact .inr (by rwa [Executor.put, List.getElem?_set_ne hij] at h)

/-- The key has no entry, and its calls from number `n` on have not found a pool. -/
structure NoEntry (key : DBKey) (n : Nat) (s : Executor) : Prop where
  table : s.connPools.lookup key = none
  calls : ∀ (i : Nat) (c : Call), n ≤ i → s.calls[i]? = some c → c.request.key = key →
    c.place = .entering ∨ c.place = .notFound

theorem NoEntry.step {key : DBKey} {n : Nat} (h : NoEntry key n s)
    (hstep : executorStep s a = some t) : NoEntry key n t := by
  -- a call that goes on had found a pool before
  have hput : ∀ {u : Executor} {i : Nat} {c : Call} {place : CallPlace}, u.calls = s.calls →
      s.calls[i]? = some c → (c.request.key = key → n ≤ i → place = .notFound) →
        ∀ (j : Nat) (d : Call), n ≤ j → (u.put i c place).calls[j]? = some d →
          d.request.key = key → d.place = .entering ∨ d.place = .notFound := by
    intro u i c place hcalls hc hplace j d hj hd hkey
    rcases getElem?_put hd with ⟨rfl, rfl⟩ | hold
    · exact .inr (hplace hkey hj)
    · exact h.calls j d hj (hcalls ▸ hold) hkey
  have hfound : ∀ {i p : Nat} {c : Call}, s.calls[i]? = some c →
      s.connPools.lookup c.request.key = some (some p) → c.request.key ≠ key := by
    rintro i p c hc hlookup rfl
    exact absurd (h.table.symm.trans hlookup) (by simp)
  have hlate : ∀ {i : Nat} {c : Call}, s.calls[i]? = some c → c.place ≠ .entering →
      c.place ≠ .notFound → c.request.key = key → ¬ n ≤ i := by
    intro i c hc hentering hnot hkey hi
    exact (h.calls i c hi hc hkey).elim hentering hnot
  cases effect_of_executorStep hstep with
  | executeRequest request =>
      refine ⟨h.table, fun i c hi hc hkey => ?_⟩
      rw [List.getElem?_append] at hc
      split at hc
      · exact h.calls i c hi hc hkey
      · obtain rfl := List.mem_singleton.mp (List.mem_of_getElem? hc)
        exact .inl rfl
  | notFound hc hplace hlookup => exact ⟨h.table, hput rfl hc fun _ _ => rfl⟩
  | toClose hc hplace hlookup =>
      exact ⟨h.table, hput rfl hc fun hkey => absurd hkey (hfound hc hlookup)⟩
  | arrive hc hplace hlookup hx hy =>
      exact ⟨h.table, hput rfl hc fun hkey => absurd hkey (hfound hc hlookup)⟩
  | request hx hy => exact ⟨h.table, h.calls⟩
  | closeAll hc hplace hx hy =>
      exact ⟨h.table, hput rfl hc fun hkey hi =>
        absurd hi (hlate hc (by simp [hplace]) (by simp [hplace]) hkey)⟩
  | erase hc hplace hshutdown =>
      refine ⟨?_, hput rfl hc fun hkey hi =>
        absurd hi (hlate hc (by simp [hplace]) (by simp [hplace]) hkey)⟩
      exact Table.lookup_eq_none_iff.mpr fun v hmem =>
        Table.lookup_eq_none_iff.mp h.table v (Table.mem_of_erase hmem)
  | lock hshutdown => exact ⟨h.table, h.calls⟩
  | closeEntry hshutdown hx hy => exact ⟨h.table, h.calls⟩
  | nullEntry hshutdown => exact ⟨h.table, h.calls⟩
  | clear hshutdown => exact ⟨rfl, h.calls⟩

/-! ## The executor after `InitializeFromConfig` -/

theorem mem_number {key : DBKey} {p : Nat} : ∀ {table : PoolTable} {n : Nat},
    (key, some p) ∈ Executor.number n table → ∃ k pool, p = n + k ∧ (key, some pool) ∈ table ∧
      (Executor.started table)[k]? = some { pool, nextConn := pool.idle.length }
  | [], n, h => by simp [Executor.number] at h
  | (key', none) :: rest, n, h => by
      rcases List.mem_cons.mp h with heq | h
      · exact absurd heq (by simp)
      · obtain ⟨k, pool, hp, hmem, hpool⟩ := mem_number h
        exact ⟨k, pool, hp, List.mem_cons_of_mem _ hmem, hpool⟩
  | (key', some pool') :: rest, n, h => by
      rcases List.mem_cons.mp h with heq | h
      · obtain ⟨rfl, hp⟩ := Prod.mk.inj heq
        exact ⟨0, pool', Option.some.inj hp, List.mem_cons_self, rfl⟩
      · obtain ⟨k, pool, hp, hmem, hpool⟩ := mem_number h
        exact ⟨k + 1, pool, by omega, List.mem_cons_of_mem _ hmem, hpool⟩

theorem keys_number (table : PoolTable) (n : Nat) :
    (Executor.number n table).map Prod.fst = table.map Prod.fst := by
  induction table generalizing n with
  | nil => rfl
  | cons e table ih =>
      obtain ⟨key, pool⟩ := e
      cases pool with
      | none => rw [Executor.number, List.map_cons, ih, List.map_cons]
      | some pool => rw [Executor.number, List.map_cons, ih, List.map_cons]

theorem nodup_setUpEntries {attempts : Nat → MySQLPool → Nat → Bool} {entries : List Json}
    {table : PoolTable} (h : (table.map Prod.fst).Nodup) :
    ((setUpEntries attempts entries table).2.map Prod.fst).Nodup := by
  induction entries generalizing attempts table with
  | nil => exact h
  | cons db entries ih =>
      simp only [setUpEntries]
      split
      · exact h
      · exact ih h
      · exact ih (Table.nodup_emplace h)

/-- The executor that the configuration sets up. -/
def Executor.configured (attempts : Nat → MySQLPool → Nat → Bool) (cfg : Json) : Executor :=
  Executor.ofTable (setUpFromConfig attempts cfg).2

section Configured

variable {attempts : Nat → MySQLPool → Nat → Bool} {cfg : Json}

theorem nodup_configured :
    ((Executor.configured attempts cfg).connPools.map Prod.fst).Nodup := by
  rw [Executor.configured, Executor.ofTable]
  dsimp only
  rw [keys_number, setUpFromConfig_table]
  exact nodup_setUpEntries List.nodup_nil

theorem executorInv_configured :
    ExecutorInv (Executor.configured attempts cfg) (Executor.configured attempts cfg) where
  pools := .refl _ _
  kept _ he := he
  gone _ _ hentry hgone := absurd hentry hgone
  shutdown _ h := absurd h (by simp [Executor.configured, Executor.ofTable])
  calls := nofun

/-- The pool of an entry is as `Initialize` leaves it. -/
theorem poolInit_configured {key : DBKey} {p : Nat}
    (h : (key, some p) ∈ (Executor.configured attempts cfg).connPools) :
    ∃ x, (Executor.configured attempts cfg).pools[p]? = some x ∧ PoolInit x := by
  obtain ⟨k, pool, rfl, hmem, hpool⟩ := mem_number h
  rw [setUpFromConfig_table] at hmem
  obtain ⟨i, db, -, hbrings⟩ := brought_of_mem hmem
  refine ⟨_, by rw [Nat.zero_add]; exact hpool, ?_⟩
  rcases setUpEntry_iff.mp hbrings with ⟨-, ident, args, -, -, hattempts, -, hentry⟩ | ⟨-, -, hnone⟩
  · obtain rfl := Option.some.inj hentry
    have hdone : completes (attempts i) args = true := completes_iff.mpr hattempts
    exact ⟨args.poolSize, attempts i args, Prod.ext rfl hdone, rfl, rfl⟩
  · exact absurd hnone (by simp)

theorem executorInv_run {events : List ExecutorEvent}
    (hrun : run executorStep (Executor.configured attempts cfg) events = some s) :
    ExecutorInv (Executor.configured attempts cfg) s :=
  (AllStates.of_invariant (fun _ _ _ h ht => h.step nodup_configured ht) events _
    executorInv_configured).last hrun

/-- What holds of one pool in every run: its counter is at most the maximum and covers the
connections that are idle, lent or being created. While the pool is open they are exactly
as many as it counts; a close does not count the idle ones off. No connection is in two
places. -/
structure Conserves (x : PoolState) : Prop where
  total : x.pool.idle.length + x.lent + x.creating ≤ x.pool.created
  bound : x.pool.created ≤ x.pool.max
  exact : x.pool.closed = false → x.pool.idle.length + x.lent + x.creating = x.pool.created
  onePlace : ∀ c, x.pool.idle.count c + x.holders c ≤ 1

theorem PoolInv.conserves {x : PoolState} (h : PoolInv x) : Conserves x :=
  ⟨h.total, h.bound, h.exact, h.one_place⟩

/-- **Whatever runs on the executor, the connections of each database are conserved**, and
every call, be it a statement or a close, uses the pool of its own key only. -/
theorem all_pools_conserve {events : List ExecutorEvent}
    (hrun : run executorStep (Executor.configured attempts cfg) events = some s) :
    (∀ key p, (key, some p) ∈ (Executor.configured attempts cfg).connPools →
      ∃ x, s.pools[p]? = some x ∧ Conserves x) ∧
    ∀ c ∈ s.calls, ∀ p, c.place.pool = some p →
      (c.request.key, some p) ∈ (Executor.configured attempts cfg).connPools := by
  have hinv := executorInv_run hrun
  constructor
  · intro key p hentry
    obtain ⟨x, hx, hinit⟩ := poolInit_configured hentry
    obtain ⟨y, hy, hpool⟩ := hinv.pools.invariant (fun _ _ _ => PoolInv.step) hx
      (poolInv_init hinit)
    exact ⟨y, hy, hpool.conserves⟩
  · exact fun c hc _ hpool => (hinv.calls c hc).entry hpool

/-- Nothing is lent by a pool whose requests are finished. -/
theorem live_of_finished {x : PoolState} (hidle : x.pool.idle = [])
    (h : ∀ r ∈ x.requests, ∃ o, r.place = .finished o) : x.live = 0 := by
  have hlent : x.lent = 0 := List.countP_eq_zero.mpr fun r hr => by
    obtain ⟨o, ho⟩ := h r hr
    simp [Request.holds, Place.lent, ho]
  have hcreating : x.creating = 0 := List.countP_eq_zero.mpr fun r hr => by
    obtain ⟨o, ho⟩ := h r hr
    simp [Request.isCreating, Place.isCreating, ho]
  simp [PoolState.live, hidle, hlent, hcreating]

/-- **A database that has lost its entry is gone for good**: it never has one again, its
pool stays closed and keeps no connection once its requests are finished, and a call
that comes later is told that there is no pool. -/
theorem closed_database_is_gone {events later : List ExecutorEvent}
    (hrun : run executorStep (Executor.configured attempts cfg) events = some s) {key : DBKey}
    {p : Nat} (hentry : (key, some p) ∈ (Executor.configured attempts cfg).connPools)
    (hgone : s.connPools.lookup key = none) (hlater : run executorStep s later = some t) :
    t.connPools.lookup key = none ∧
    (∃ x, t.pools[p]? = some x ∧ x.pool.closed = true ∧ x.pool.idle = [] ∧
      ((∀ r ∈ x.requests, ∃ o, r.place = .finished o) → x.live = 0)) ∧
    ∀ (i : Nat) (c : Call), s.calls.length ≤ i → t.calls[i]? = some c → c.request.key = key →
      c.place = .entering ∨ c.place = .notFound := by
  have hstart : NoEntry key s.calls.length s :=
    ⟨hgone, fun i c hi hc => absurd hc (by simp [List.getElem?_eq_none_iff.mpr hi])⟩
  have hend : NoEntry key s.calls.length t :=
    (AllStates.of_invariant (fun _ _ _ h ht => h.step ht) later s hstart).last hlater
  have hboth : run executorStep (Executor.configured attempts cfg) (events ++ later) = some t := by
    rw [run_append, hrun]
    exact hlater
  obtain ⟨x, hx, hclosed, hidle⟩ := (executorInv_run hboth).gone key p hentry
    (Table.lookup_eq_none_iff.mp hend.table (some p))
  exact ⟨hend.table, ⟨x, hx, hclosed, hidle, live_of_finished hidle⟩, hend.calls⟩

end Configured

/-! ### Two databases, one of which is closed -/

/-- The key of the database `name` on this host. -/
def localKey (name : Bytes) : DBKey :=
  { type := ascii "mysql", ident := ascii "127.0.0.1:3306/" ++ name }

/-- Two databases with pools of four. -/
def twoDatabases : Executor :=
  Executor.configured (fun _ _ _ => true)
    (configOf [mysqlJson (ascii "127.0.0.1") 3306 (ascii "a"),
      mysqlJson (ascii "127.0.0.1") 3306 (ascii "b")])

/-- A statement on `a` holds a connection while another call closes `a`. -/
def closesFirst : List ExecutorEvent :=
  [.executeRequest { key := localKey (ascii "a") }, .find 0, .request 0 (.enter 0),
    .executeRequest { key := localKey (ascii "a"), cmd := ascii "close" }, .find 1, .closeAll 1,
    .erase 1]

theorem all_pools_conserve_two : ∃ s, run executorStep twoDatabases closesFirst = some s ∧
    (∀ key p, (key, some p) ∈ twoDatabases.connPools → ∃ x, s.pools[p]? = some x ∧
      Conserves x) ∧
    ∀ c ∈ s.calls, ∀ p, c.place.pool = some p →
      (c.request.key, some p) ∈ twoDatabases.connPools := by
  have hsome : (run executorStep twoDatabases closesFirst).isSome = true := by decide +kernel
  obtain ⟨s, hs⟩ := Option.isSome_iff_exists.mp hsome
  exact ⟨s, hs, all_pools_conserve hs⟩

/-- The statement ends afterwards, and a later one finds no pool. -/
def afterClose : List ExecutorEvent :=
  [.request 0 (.execute 0 true), .request 0 (.release 0 none),
    .executeRequest { key := localKey (ascii "a") }, .find 2]

theorem closed_database_is_gone_two : ∃ t,
    run executorStep twoDatabases (closesFirst ++ afterClose) = some t ∧
    t.connPools.lookup (localKey (ascii "a")) = none ∧
    (∃ x, t.pools[0]? = some x ∧ x.pool.closed = true ∧ x.pool.idle = [] ∧
      ((∀ r ∈ x.requests, ∃ o, r.place = .finished o) → x.live = 0)) ∧
    ∀ (i : Nat) (c : Call), 2 ≤ i → t.calls[i]? = some c →
      c.request.key = localKey (ascii "a") → c.place = .entering ∨ c.place = .notFound := by
  have hview : (run executorStep twoDatabases closesFirst).map (fun s =>
      (s.connPools.lookup (localKey (ascii "a")), s.calls.length)) = some (none, 2) := by
    decide +kernel
  obtain ⟨s, hs, hview⟩ := Option.map_eq_some_iff.mp hview
  obtain ⟨hgone, hcalls⟩ := Prod.mk.inj hview
  have hentry : (localKey (ascii "a"), some 0) ∈ twoDatabases.connPools := by decide +kernel
  have hall : (run executorStep twoDatabases (closesFirst ++ afterClose)).isSome = true := by
    decide +kernel
  obtain ⟨t, ht⟩ := Option.isSome_iff_exists.mp hall
  have hlater : run executorStep s afterClose = some t := by
    rwa [run_append, hs] at ht
  exact ⟨t, ht, hcalls ▸ closed_database_is_gone hs hentry hgone hlater⟩

end AsioServer.Services
