/-
AsioServer.Services.DBPoolsTheorems — which databases are served, and null pools.

`setUpEntry_iff` says what an entry brings into the table, and `isSome_lookup_setUp`
and `mem_setUp` what the loop makes of all of them. From there:

* a `mysql` entry is served exactly when some entry with its key makes two or more
  connections at once and gets half of them (`reachable_served_iff`);
* the table holds a null pool exactly when a `sqlite` entry was read
  (`no_null_pool_iff`), in every state of every sequence of calls.
-/
import AsioServer.Services.DBPools
import AsioServer.Services.DBConnectionPoolTheorems
import AsioServer.Services.RoutingTheorems

namespace AsioServer.Services

open AsioServer.Core AsioServer.Infra AsioServer.Lib

variable {attempts : MySQLPool → Nat → Bool} {db : Json} {key : DBKey} {entry : Option Pool}

/-! ## The pool of an entry -/

/-- The loop of `Initialize` completes exactly when all its attempts succeed. -/
theorem initLoop_completes_iff {valid : Nat → Bool} {n : Nat} {idle : List Conn} :
    (initLoop valid n idle).2 = true ↔ ∀ k < n, valid (idle.length + k) = true := by
  obtain ⟨k, -, hbefore, ⟨hdone, rfl⟩ | ⟨hfail, hlt, hinvalid⟩⟩ := @initLoop_spec valid n idle
  · exact ⟨fun _ => hbefore, fun _ => hdone⟩
  · constructor
    · intro h
      exact absurd h (by simp [hfail])
    · intro h
      exact absurd (h k hlt) (by simp [hinvalid])

theorem completes_iff {args : MySQLPool} :
    completes attempts args = true ↔ ∀ k < args.poolSize / 2, attempts args k = true := by
  have h := @initLoop_completes_iff (attempts args) (args.poolSize / 2) []
  simp only [List.length_nil, Nat.zero_add] at h
  exact h

/-- `GetConnectionCount` is the counter that `Initialize` leaves. -/
theorem getConnectionCount_eq (args : MySQLPool) :
    args.getConnectionCount (completes attempts) = (createPool (attempts args) args).created := by
  unfold MySQLPool.getConnectionCount
  split
  · next h =>
    have hlen : (initLoop (attempts args) (args.poolSize / 2) []).1.length = args.poolSize / 2 := by
      rw [initLoop_completed h, List.nil_append, List.length_range']
    exact ((if_pos h).trans hlen).symm
  · next h => exact (if_neg h).symm

/-- A pool from which a first `Acquire` takes a connection that is there. -/
structure Ready (pool : Pool) : Prop where
  isOpen : pool.closed = false
  stocked : pool.idle ≠ []

theorem ready_createPool {args : MySQLPool} (hsize : 2 ≤ args.poolSize)
    (hattempts : ∀ k < args.poolSize / 2, attempts args k = true) :
    Ready (createPool (attempts args) args) := by
  have hidle : (createPool (attempts args) args).idle = List.range' 0 (args.poolSize / 2) := by
    exact initLoop_completed (completes_iff.mpr hattempts)
  refine ⟨rfl, fun hnil => ?_⟩
  have hlen := congrArg List.length (hidle.symm.trans hnil)
  rw [List.length_range', List.length_nil] at hlen
  omega

theorem Ready.acquires {pool : Pool} (h : Ready pool) (created : Option Conn) :
    ((pool.acquireAlone created).1).isSome = true := by
  cases hidle : pool.idle with
  | nil => exact absurd hidle h.stocked
  | cons c rest => simp [Pool.acquireAlone, Pool.pass, h.isOpen, hidle]

theorem getConnectionCount_ne_zero_iff {args : MySQLPool} :
    args.getConnectionCount (completes attempts) ≠ 0 ↔
      2 ≤ args.poolSize ∧ ∀ k < args.poolSize / 2, attempts args k = true := by
  unfold MySQLPool.getConnectionCount
  rw [← completes_iff]
  split
  · next h => simp only [h, and_true]; omega
  · next h => simp [h]

/-! ## One entry -/

variable {valid : MySQLPool → Bool} {pool : Option MySQLPool}

theorem readEntry_mysql {ident : Bytes} {args : MySQLPool}
    (htype : db.atKey (ascii "type") = some (.string (ascii "mysql")))
    (hread : readMySQL db = some (ident, args)) :
    readEntry valid db =
      if args.getConnectionCount valid = 0 then some none
      else some (some ({ type := ascii "mysql", ident }, some args)) := by
  unfold readEntry
  rw [htype]
  simp only [Option.bind_eq_bind, Option.bind_some, Json.getString, if_true, hread]
  rfl

theorem readEntry_sqlite (htype : db.atKey (ascii "type") = some (.string (ascii "sqlite"))) :
    readEntry valid db = some (some ({ type := ascii "sqlite" }, none)) := by
  have hne : ¬ ascii "sqlite" = ascii "mysql" := by decide
  unfold readEntry
  rw [htype]
  simp only [Option.bind_eq_bind, Option.bind_some, Json.getString, if_neg hne, if_true]
  rfl

/-- What an entry is when it brings something into the table. -/
theorem type_of_readEntry (h : readEntry valid db = some (some (key, pool))) :
    (db.atKey (ascii "type") = some (.string (ascii "mysql")) ∧
      ∃ ident args, readMySQL db = some (ident, args)) ∨
    db.atKey (ascii "type") = some (.string (ascii "sqlite")) := by
  obtain ⟨j, hj, hbind⟩ := Option.bind_eq_some_iff.mp h
  obtain ⟨type, htype, hrest⟩ := Option.bind_eq_some_iff.mp hbind
  have hstring : j = .string type := by
    cases j with
    | string s => rw [Option.some.inj htype]
    | _ => exact absurd htype (by simp [Json.getString])
  subst hstring
  split at hrest
  · next hmysql =>
    subst hmysql
    obtain ⟨⟨ident, args⟩, hread, -⟩ := Option.bind_eq_some_iff.mp hrest
    exact Or.inl ⟨hj, ident, args, hread⟩
  · split at hrest
    · next hsqlite =>
      subst hsqlite
      exact Or.inr hj
    · exact absurd hrest (by simp)

/-- **What an entry brings into the table**: a `mysql` entry its pool, when half of two or
more connections could be made; a `sqlite` entry a null pointer. -/
theorem setUpEntry_iff : setUpEntry attempts db = some (some (key, entry)) ↔
    (db.atKey (ascii "type") = some (.string (ascii "mysql")) ∧
      ∃ ident args, readMySQL db = some (ident, args) ∧ 2 ≤ args.poolSize ∧
        (∀ k < args.poolSize / 2, attempts args k = true) ∧
        key = { type := ascii "mysql", ident } ∧
        entry = some (createPool (attempts args) args)) ∨
    (db.atKey (ascii "type") = some (.string (ascii "sqlite")) ∧
      key = { type := ascii "sqlite" } ∧ entry = none) := by
  constructor
  · intro h
    obtain ⟨r, hr, hsome⟩ := Option.map_eq_some_iff.mp h
    obtain ⟨⟨key', pool⟩, rfl, hpair⟩ := Option.map_eq_some_iff.mp hsome
    obtain ⟨rfl, rfl⟩ := Prod.mk.inj hpair
    rcases type_of_readEntry hr with ⟨htype, ident, args, hread⟩ | htype
    · rw [readEntry_mysql htype hread] at hr
      split at hr
      · exact absurd hr (by simp)
      · next hcount =>
        obtain ⟨rfl, rfl⟩ := Prod.mk.inj (Option.some.inj (Option.some.inj hr))
        obtain ⟨hsize, hattempts⟩ := getConnectionCount_ne_zero_iff.mp hcount
        exact Or.inl ⟨htype, ident, args, hread, hsize, hattempts, rfl, rfl⟩
    · rw [readEntry_sqlite htype] at hr
      obtain ⟨rfl, rfl⟩ := Prod.mk.inj (Option.some.inj (Option.some.inj hr))
      exact Or.inr ⟨htype, rfl, rfl⟩
  · rintro (⟨htype, ident, args, hread, hsize, hattempts, rfl, rfl⟩ | ⟨htype, rfl, rfl⟩)
    · have hcount := getConnectionCount_ne_zero_iff.mpr ⟨hsize, hattempts⟩
      rw [setUpEntry, readEntry_mysql htype hread, if_neg hcount]
      rfl
    · rw [setUpEntry, readEntry_sqlite htype]
      rfl

/-! ## The loop -/

/-- The entry can be read: neither `at` nor a conversion throws. -/
def readable (db : Json) : Bool := (readEntry (fun _ => true) db).isSome

/-- The entries that the loop comes to and can read. -/
def reached (entries : List Json) : List Json := entries.takeWhile readable

theorem isSome_readEntry : (readEntry valid db).isSome = readable db := by
  unfold readable readEntry
  cases db.atKey (ascii "type") with
  | none => rfl
  | some j =>
      cases hj : j.getString with
      | none => simp [hj]
      | some type =>
          simp only [Option.bind_eq_bind, Option.bind_some, hj]
          split
          · cases readMySQL db with
            | none => rfl
            | some read =>
                simp only [Option.bind_some]
                split <;> split <;> rfl
          · rfl

theorem isSome_setUpEntry : (setUpEntry attempts db).isSome = readable db := by
  rw [setUpEntry, Option.isSome_map, isSome_readEntry]

section Loop

variable {attempts : Nat → MySQLPool → Nat → Bool} {entries : List Json} {table : PoolTable}

/-- The loop, told by its first entry. -/
theorem setUpEntries_cons (attempts : Nat → MySQLPool → Nat → Bool) (db : Json)
    (entries : List Json) (table : PoolTable) :
    (readable db = false ∧ reached (db :: entries) = [] ∧
      setUpEntries attempts (db :: entries) table = (false, table)) ∨
    (reached (db :: entries) = db :: reached entries ∧
      (setUpEntry (attempts 0) db = some none ∧
        setUpEntries attempts (db :: entries) table =
          setUpEntries (fun i => attempts (i + 1)) entries table ∨
      ∃ key entry, setUpEntry (attempts 0) db = some (some (key, entry)) ∧
        setUpEntries attempts (db :: entries) table =
          setUpEntries (fun i => attempts (i + 1)) entries (Table.emplace table key entry))) := by
  have hread := @isSome_setUpEntry (attempts 0) db
  cases hfirst : setUpEntry (attempts 0) db with
  | none =>
      rw [hfirst] at hread
      refine Or.inl ⟨hread.symm, ?_, ?_⟩
      · simp [reached, ← hread]
      · simp [setUpEntries, hfirst]
  | some brought =>
      rw [hfirst] at hread
      refine Or.inr ⟨by simp [reached, ← hread], ?_⟩
      cases brought with
      | none => exact Or.inl ⟨rfl, by simp [setUpEntries, hfirst]⟩
      | some pair => exact Or.inr ⟨pair.1, pair.2, rfl, by simp [setUpEntries, hfirst]⟩

/-- The loop comes to its end exactly when it can read all entries. -/
theorem setUp_returns_iff :
    (setUpEntries attempts entries table).1 = true ↔ reached entries = entries := by
  induction entries generalizing attempts table with
  | nil => simp [setUpEntries, reached]
  | cons db entries ih =>
      rcases setUpEntries_cons attempts db entries table with
        ⟨-, hreached, hloop⟩ | ⟨hreached, ⟨-, hloop⟩ | ⟨key, entry, -, hloop⟩⟩
      · simp [hreached, hloop]
      · simp [hreached, hloop, ih]
      · simp [hreached, hloop, ih]

/-- Every value of the table was brought by an entry. -/
theorem mem_setUp (hmem : (key, entry) ∈ (setUpEntries attempts entries table).2) :
    (key, entry) ∈ table ∨ ∃ i db, (reached entries)[i]? = some db ∧
      setUpEntry (attempts i) db = some (some (key, entry)) := by
  induction entries generalizing attempts table with
  | nil => exact Or.inl hmem
  | cons db entries ih =>
      rcases setUpEntries_cons attempts db entries table with
        ⟨-, hreached, hloop⟩ | ⟨hreached, hrest⟩
      · rw [hloop] at hmem
        exact Or.inl hmem
      · have hlater : (∃ i db', (reached entries)[i]? = some db' ∧
            setUpEntry (attempts (i + 1)) db' = some (some (key, entry))) →
            ∃ i db', (reached (db :: entries))[i]? = some db' ∧
              setUpEntry (attempts i) db' = some (some (key, entry)) := by
          rintro ⟨i, db', hdb', hbrings⟩
          exact ⟨i + 1, db', by rw [hreached]; exact hdb', hbrings⟩
        rcases hrest with ⟨-, hloop⟩ | ⟨key', entry', hfirst, hloop⟩
        · rw [hloop] at hmem
          exact (ih hmem).imp_right hlater
        · rw [hloop] at hmem
          rcases ih hmem with hold | hnew
          · rcases Table.mem_of_emplace hold with hold | hnow
            · exact Or.inl hold
            · obtain ⟨rfl, rfl⟩ := Prod.mk.inj hnow
              exact Or.inr ⟨0, db, by rw [hreached]; rfl, hfirst⟩
          · exact Or.inr (hlater hnew)

/-- The keys of the table are those that the entries brought. -/
theorem isSome_lookup_setUp :
    ((setUpEntries attempts entries table).2.lookup key).isSome = true ↔
      (table.lookup key).isSome = true ∨ ∃ i db entry, (reached entries)[i]? = some db ∧
        setUpEntry (attempts i) db = some (some (key, entry)) := by
  induction entries generalizing attempts table with
  | nil => simp [setUpEntries, reached]
  | cons db entries ih =>
      rcases setUpEntries_cons attempts db entries table with
        ⟨-, hreached, hloop⟩ | ⟨hreached, hrest⟩
      · simp [hreached, hloop]
      · have hsplit : (∃ i db' entry, (reached (db :: entries))[i]? = some db' ∧
            setUpEntry (attempts i) db' = some (some (key, entry))) ↔
            (∃ entry, setUpEntry (attempts 0) db = some (some (key, entry))) ∨
              ∃ i db' entry, (reached entries)[i]? = some db' ∧
                setUpEntry (attempts (i + 1)) db' = some (some (key, entry)) := by
          rw [hreached]
          constructor
          · rintro ⟨i, db', entry, hdb', hbrings⟩
            cases i with
            | zero =>
                obtain rfl := Option.some.inj hdb'
                exact Or.inl ⟨entry, hbrings⟩
            | succ i => exact Or.inr ⟨i, db', entry, hdb', hbrings⟩
          · rintro (⟨entry, hbrings⟩ | ⟨i, db', entry, hdb', hbrings⟩)
            · exact ⟨0, db, entry, rfl, hbrings⟩
            · exact ⟨i + 1, db', entry, hdb', hbrings⟩
        rw [hsplit]
        rcases hrest with ⟨hfirst, hloop⟩ | ⟨key', entry', hfirst, hloop⟩
        · simp [hloop, ih, hfirst]
        · have hkey : (∃ entry, setUpEntry (attempts 0) db = some (some (key, entry))) ↔
              key = key' := by
            constructor
            · rintro ⟨entry, hbrings⟩
              exact (Prod.mk.inj (Option.some.inj (Option.some.inj
                (hbrings.symm.trans hfirst)))).1
            · rintro rfl
              exact ⟨entry', hfirst⟩
          rw [hloop, ih, Table.lookup_emplace_iff, or_assoc, hkey]

/-- Every value of the table that the loop makes was brought by an entry. -/
theorem brought_of_mem (hmem : (key, entry) ∈ (setUpEntries attempts entries []).2) :
    ∃ i db, (reached entries)[i]? = some db ∧
      setUpEntry (attempts i) db = some (some (key, entry)) := by
  rcases mem_setUp hmem with hnil | hbrings
  · exact absurd hnil (by simp)
  · exact hbrings

/-- A key that an entry brings is in the table; its value may be that of an earlier entry
with the same key. -/
theorem lookup_of_brought {i : Nat} (hdb : (reached entries)[i]? = some db)
    (hbrings : setUpEntry (attempts i) db = some (some (key, entry))) :
    ∃ entry' j db', (setUpEntries attempts entries []).2.lookup key = some entry' ∧
      setUpEntry (attempts j) db' = some (some (key, entry')) := by
  have hfound : ((setUpEntries attempts entries []).2.lookup key).isSome = true :=
    isSome_lookup_setUp.mpr (Or.inr ⟨i, db, entry, hdb, hbrings⟩)
  obtain ⟨entry', hlookup⟩ := Option.isSome_iff_exists.mp hfound
  obtain ⟨j, db', -, hbrings'⟩ := brought_of_mem (Table.mem_of_lookup hlookup)
  exact ⟨entry', j, db', hlookup, hbrings'⟩

end Loop

/-! ## Which databases are served -/

section Served

variable {attempts : Nat → MySQLPool → Nat → Bool} {cfg databases : Json} {ident : Bytes}
  {args : MySQLPool} {table : PoolTable} {i : Nat}

/-- The key is mapped to a pool from which a first `Acquire` returns a connection. -/
def Served (table : PoolTable) (key : DBKey) : Prop :=
  ∃ pool, table.lookup key = some (some pool) ∧
    ∀ created, ((pool.acquireAlone created).1).isSome = true

/-- The `mysql` entry at position `i` has the identifier, makes two or more connections,
and gets the half of them that `Initialize` asks for. -/
def Provides (attempts : Nat → MySQLPool → Nat → Bool) (entries : List Json) (i : Nat)
    (ident : Bytes) : Prop :=
  ∃ db args, entries[i]? = some db ∧
    db.atKey (ascii "type") = some (.string (ascii "mysql")) ∧
    readMySQL db = some (ident, args) ∧ 2 ≤ args.poolSize ∧
    ∀ k < args.poolSize / 2, attempts i args k = true

theorem served_iff_provides {entries : List Json}
    (h : setUpEntries attempts entries [] = (true, table)) :
    Served table { type := ascii "mysql", ident } ↔ ∃ i, Provides attempts entries i ident := by
  have hne : ascii "mysql" ≠ ascii "sqlite" := by decide
  have hall : reached entries = entries := setUp_returns_iff.mp (congrArg Prod.fst h)
  have htable : table = (setUpEntries attempts entries []).2 := (congrArg Prod.snd h).symm
  constructor
  · rintro ⟨pool, hlookup, -⟩
    have hmem := Table.mem_of_lookup hlookup
    rw [htable] at hmem
    obtain ⟨i, db, hdb, hbrings⟩ := brought_of_mem hmem
    rw [hall] at hdb
    rcases setUpEntry_iff.mp hbrings with
      ⟨htype, ident', args, hread, hsize, hattempts, hkey, -⟩ | ⟨-, hkey, -⟩
    · obtain rfl := (DBKey.mk.inj hkey).2
      exact ⟨i, db, args, hdb, htype, hread, hsize, hattempts⟩
    · exact absurd (DBKey.mk.inj hkey).1 hne
  · rintro ⟨i, db, args, hdb, htype, hread, hsize, hattempts⟩
    have hbrings := setUpEntry_iff.mpr
      (Or.inl ⟨htype, ident, args, hread, hsize, hattempts, rfl, rfl⟩)
    rw [← hall] at hdb
    obtain ⟨entry, j, db', hlookup, hbrings'⟩ := lookup_of_brought hdb hbrings
    rw [← htable] at hlookup
    rcases setUpEntry_iff.mp hbrings' with
      ⟨-, ident', args', -, hsize', hattempts', -, rfl⟩ | ⟨-, hkey, -⟩
    · exact ⟨_, hlookup, (ready_createPool hsize' hattempts').acquires⟩
    · exact absurd (DBKey.mk.inj hkey).1 hne

/-- **Which reachable databases are served.** When the server accepts every attempt of a
`mysql` entry, the entry's key is served exactly when its pool size is two or more, or
another entry provides for the key. -/
theorem reachable_served_iff {db : Json} (hcfg : cfg.atKey (ascii "databases") = some databases)
    (hdb : databases.elements[i]? = some db)
    (htype : db.atKey (ascii "type") = some (.string (ascii "mysql")))
    (hread : readMySQL db = some (ident, args))
    (haccepts : ∀ k, attempts i args k = true)
    (hreturns : setUpFromConfig attempts cfg = (true, table)) :
    Served table { type := ascii "mysql", ident } ↔
      2 ≤ args.poolSize ∨ ∃ j, j ≠ i ∧ Provides attempts databases.elements j ident := by
  simp only [setUpFromConfig, hcfg] at hreturns
  rw [served_iff_provides hreturns]
  constructor
  · rintro ⟨j, hprovides⟩
    by_cases hj : j = i
    · subst hj
      obtain ⟨db', args', hdb', -, hread', hsize, -⟩ := hprovides
      obtain rfl := Option.some.inj (hdb.symm.trans hdb')
      obtain ⟨-, rfl⟩ := Prod.mk.inj (Option.some.inj (hread.symm.trans hread'))
      exact Or.inl hsize
    · exact Or.inr ⟨j, hj, hprovides⟩
  · rintro (hsize | ⟨j, -, hprovides⟩)
    · exact ⟨i, db, args, hdb, htype, hread, hsize, fun k _ => haccepts k⟩
    · exact ⟨j, hprovides⟩

end Served

/-- A configuration with these entries. -/
def configOf (entries : List Json) : Json := .object [(ascii "databases", .array entries)]

/-- A pool of four. -/
theorem reachable_served_iff_default :
    Served (setUpFromConfig (fun _ _ _ => true)
        (configOf [mysqlJson (ascii "127.0.0.1") 3306 (ascii "mytest")])).2
      { type := ascii "mysql", ident := ascii "127.0.0.1:3306/mytest" } := by
  have hread : readMySQL (mysqlJson (ascii "127.0.0.1") 3306 (ascii "mytest")) =
      some (ascii "127.0.0.1:3306/mytest", localPool) := by decide +kernel
  have hreturns : (setUpFromConfig (fun _ _ _ => true)
      (configOf [mysqlJson (ascii "127.0.0.1") 3306 (ascii "mytest")])).1 = true := by
    decide +kernel
  have hfirst : (Json.elements (.array
      [mysqlJson (ascii "127.0.0.1") 3306 (ascii "mytest")]))[0]? =
        some (mysqlJson (ascii "127.0.0.1") 3306 (ascii "mytest")) := rfl
  exact (reachable_served_iff rfl hfirst rfl hread (fun _ => rfl)
    (Prod.ext hreturns rfl)).mpr (Or.inl (by decide))

/-- The same entry without its `pool` block. -/
def plainMySQLJson : Json :=
  .object [(ascii "type", .string (ascii "mysql")), (ascii "host", .string (ascii "127.0.0.1")),
    (ascii "port", .integer 3306), (ascii "user", .string (ascii "root")),
    (ascii "password", .string (ascii "123456")), (ascii "database", .string (ascii "mytest"))]

/-- Without a `pool` block the pool size is 1, half of it is 0, and the database is dropped
although its server accepts everything. -/
theorem pool_of_one_is_dropped :
    (readMySQL plainMySQLJson).map (fun read => read.2.poolSize) = some 1 ∧
      setUpFromConfig (fun _ _ _ => true) (configOf [plainMySQLJson]) = (true, []) ∧
      ¬ Served (setUpFromConfig (fun _ _ _ => true) (configOf [plainMySQLJson])).2
        { type := ascii "mysql", ident := ascii "127.0.0.1:3306/mytest" } := by
  have hempty : setUpFromConfig (fun _ _ _ => true) (configOf [plainMySQLJson]) = (true, []) := by
    decide +kernel
  refine ⟨by decide +kernel, hempty, ?_⟩
  rintro ⟨pool, hlookup, -⟩
  rw [hempty] at hlookup
  exact absurd hlookup (by simp)

/-! ## The table and its outline -/

/-- The pools that the arguments stand for. -/
def makePools (attempts : MySQLPool → Nat → Bool) (pools : ConnPools) : PoolTable :=
  pools.map fun (key, args) => (key, args.map fun args => createPool (attempts args) args)

theorem lookup_makePools (pools : ConnPools) (key : DBKey) :
    ((makePools attempts pools).lookup key).isSome = (pools.lookup key).isSome := by
  induction pools with
  | nil => rfl
  | cons e pools ih =>
      obtain ⟨key', args⟩ := e
      change (List.lookup key ((key', _) :: makePools attempts pools)).isSome = _
      rw [List.lookup_cons, List.lookup_cons]
      cases key == key' with
      | true => rfl
      | false => exact ih

theorem emplace_makePools (pools : ConnPools) (key : DBKey) (args : Option MySQLPool) :
    Table.emplace (makePools attempts pools) key
        (args.map fun args => createPool (attempts args) args) =
      makePools attempts (pools.emplace key args) := by
  unfold Table.emplace ConnPools.emplace
  rw [lookup_makePools]
  split
  · rfl
  · simp [makePools]

/-- **Refinement.** When the attempts do not depend on the position, the loop makes the
pools of the table that `initializeFromConfig` describes. -/
theorem setUpEntries_eq_makePools (entries : List Json) (pools : ConnPools) :
    setUpEntries (fun _ => attempts) entries (makePools attempts pools) =
      ((readEntries (completes attempts) entries pools).1,
        makePools attempts (readEntries (completes attempts) entries pools).2) := by
  induction entries generalizing pools with
  | nil => rfl
  | cons db entries ih =>
      cases hread : readEntry (completes attempts) db with
      | none => simp [setUpEntries, readEntries, setUpEntry, hread]
      | some brought =>
          cases brought with
          | none => simp [setUpEntries, readEntries, setUpEntry, hread, ih]
          | some pair =>
              simp only [setUpEntries, readEntries, setUpEntry, hread, Option.map_some]
              rw [emplace_makePools, ih]

/-- What one `ExecuteRequest` of the table answers is what the handlers assume. -/
theorem executeOn_result (answer : DBAnswer) (request : DBRequest) (table : PoolTable) :
    (executeOn answer request table).1 =
      executeRequest
        { hasPool := fun key => ((table.lookup key).join).isSome
          acquired := fun key => ((table.lookup key).join).any fun pool =>
            ((pool.acquireAlone answer.created).1).isSome
          statement := fun _ sql => answer.statement sql } request := by
  unfold executeOn executeRequest
  split
  · next pool hlookup =>
    simp only [hlookup, Option.join_some, Option.isSome_some, Option.any_some]
    by_cases hclose : request.cmd = ascii "close"
    · simp [hclose]
    · cases hacquire : pool.acquireAlone answer.created with
      | mk conn pool' => cases conn <;> simp [hclose]
  · next hlookup =>
    have hnone : (table.lookup request.key).join = none := by
      rw [Option.join_eq_none_iff]
      cases h : table.lookup request.key with
      | none => exact Or.inl rfl
      | some entry =>
          cases entry with
          | none => exact Or.inr rfl
          | some pool => exact absurd h (hlookup pool)
    simp [hnone]

/-! ## Null pools -/

section Null

variable {attempts : Nat → MySQLPool → Nat → Bool} {table : PoolTable} {cfg : Json}

/-- No value of the table is null, and `CloseAll` was called on existing pools only. -/
structure NoNull (s : DBExecutor) : Prop where
  table : ∀ e ∈ s.connPools, e.2 ≠ none
  calls : s.nullCall = false

/-- The entries of a configuration. -/
def configured (cfg : Json) : List Json :=
  match cfg.atKey (ascii "databases") with
  | none => []
  | some databases => databases.elements

theorem setUpFromConfig_table :
    (setUpFromConfig attempts cfg).2 = (setUpEntries attempts (configured cfg) []).2 := by
  unfold setUpFromConfig configured
  cases cfg.atKey (ascii "databases") <;> rfl

/-- The loop leaves a null pool exactly when it has read a `sqlite` entry. -/
theorem null_mem_setUp_iff {entries : List Json} :
    (∃ e ∈ (setUpEntries attempts entries []).2, e.2 = none) ↔
      ∃ db ∈ reached entries, db.atKey (ascii "type") = some (.string (ascii "sqlite")) := by
  have hne : ascii "sqlite" ≠ ascii "mysql" := by decide
  constructor
  · rintro ⟨⟨key, entry⟩, hmem, rfl⟩
    obtain ⟨i, db, hdb, hbrings⟩ := brought_of_mem hmem
    rcases setUpEntry_iff.mp hbrings with ⟨-, _, _, -, -, -, -, hnull⟩ | ⟨htype, -, -⟩
    · exact absurd hnull (by simp)
    · exact ⟨db, List.mem_of_getElem? hdb, htype⟩
  · rintro ⟨db, hdb, htype⟩
    obtain ⟨i, hi⟩ := List.mem_iff_getElem?.mp hdb
    have hbrings : setUpEntry (attempts i) db = some (some ({ type := ascii "sqlite" }, none)) :=
      setUpEntry_iff.mpr (Or.inr ⟨htype, rfl, rfl⟩)
    obtain ⟨entry, j, db', hlookup, hbrings'⟩ := lookup_of_brought hi hbrings
    refine ⟨_, Table.mem_of_lookup hlookup, ?_⟩
    -- only `sqlite` entries have that type of key
    rcases setUpEntry_iff.mp hbrings' with ⟨-, _, _, -, -, -, hkey, -⟩ | ⟨-, -, hnull⟩
    · exact absurd (DBKey.mk.inj hkey).1 hne
    · exact hnull

/-- `ExecuteRequest` brings no null pool in. -/
theorem mem_executeOn {answer : DBAnswer} {request : DBRequest} {e : DBKey × Option Pool}
    (hmem : e ∈ (executeOn answer request table).2) : e ∈ table ∨ e.2 ≠ none := by
  unfold executeOn at hmem
  split at hmem
  · split at hmem
    · exact Or.inl (Table.mem_of_erase hmem)
    · split at hmem
      · rcases Table.mem_of_assign hmem with hold | hnew
        · exact Or.inl hold
        · exact Or.inr (by simp [hnew])
      · rcases Table.mem_of_assign hmem with hold | hnew
        · exact Or.inl hold
        · exact Or.inr (by simp [hnew])
  · exact Or.inl hmem

theorem NoNull.step {s t : DBExecutor} {call : DBCall} (h : NoNull s)
    (hs : dbStep s call = some t) : NoNull t := by
  cases call with
  | executeRequest answer request =>
      obtain rfl := Option.some.inj hs
      refine ⟨fun e he => ?_, h.calls⟩
      exact (mem_executeOn he).elim (h.table e) id
  | shutdown =>
      obtain rfl := Option.some.inj hs
      refine ⟨by simp, ?_⟩
      have hnone : (s.connPools.any fun e => e.2.isNone) = false := by
        rw [List.any_eq_false]
        intro e he hnull
        exact h.table e he (Option.isNone_iff_eq_none.mp hnull)
      simp [h.calls, hnone]

/-- **The table of pools.** In every state of every sequence of calls after
`InitializeFromConfig` no pool is null and no `CloseAll` goes through a null pointer, if
and only if the configuration has no `sqlite` entry among those that were read. -/
theorem no_null_pool_iff (attempts : Nat → MySQLPool → Nat → Bool) (cfg : Json)
    (calls : List DBCall) :
    AllStates dbStep NoNull { connPools := (setUpFromConfig attempts cfg).2 } calls ↔
      ∀ db ∈ reached (configured cfg),
        db.atKey (ascii "type") ≠ some (.string (ascii "sqlite")) := by
  rw [setUpFromConfig_table]
  constructor
  · intro h db hdb htype
    have hiff := @null_mem_setUp_iff attempts (configured cfg)
    obtain ⟨e, he, hnull⟩ := hiff.mpr ⟨db, hdb, htype⟩
    exact h.head.table e he hnull
  · intro h
    have hstart : NoNull { connPools := (setUpEntries attempts (configured cfg) []).2 } := by
      refine ⟨fun e he hnull => ?_, rfl⟩
      obtain ⟨db, hdb, htype⟩ := null_mem_setUp_iff.mp ⟨e, he, hnull⟩
      exact h db hdb htype
    exact AllStates.of_invariant (fun _ _ _ hs hstep => hs.step hstep) calls _ hstart

/-- The configuration that the server ships with. -/
def shippedDatabases : Json :=
  configOf [mysqlJson (ascii "127.0.0.1") 3306 (ascii "mytest"),
    .object [(ascii "path", .string (ascii "/data/sqlite/cache.db")),
      (ascii "type", .string (ascii "sqlite"))]]

/-- The shipped configuration puts a null pool into the table, and `Shutdown` calls
`CloseAll` through it. -/
theorem shipped_sqlite_pool_is_null :
    ¬ AllStates dbStep NoNull
        { connPools := (setUpFromConfig (fun _ _ _ => true) shippedDatabases).2 } [.shutdown] ∧
      ((run dbStep { connPools := (setUpFromConfig (fun _ _ _ => true) shippedDatabases).2 }
        [.shutdown]).map DBExecutor.nullCall) = some true := by
  have hnull : ({ type := ascii "sqlite" }, none) ∈
      (setUpFromConfig (fun _ _ _ => true) shippedDatabases).2 := by decide +kernel
  refine ⟨fun h => ?_, by decide +kernel⟩
  exact h.head.table _ hnull rfl

end Null

end AsioServer.Services
