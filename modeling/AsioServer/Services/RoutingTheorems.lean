/-
AsioServer.Services.RoutingTheorems — which requests reach which pool.

The configuration and the request build the identifier `host:port/database` each in its
own way: one converts the port to `uint16_t`, the other to `int`. The text of a port
holds neither `:` nor `/`, so `Lib.Separated` says when two identifiers are equal.
`request_routing_iff` is the condition under which the keys agree exactly when the three
parts do.
-/
import AsioServer.Infra.JsonTheorems
import AsioServer.Lib.Separated
import AsioServer.Services.DBExecutor
import AsioServer.Services.RequestTheorems

namespace AsioServer.Services

open AsioServer.Core AsioServer.Infra AsioServer.Lib

variable {lib : JsonLib} {valid : MySQLPool → Bool} {db : Json} {msg : MsgNode}
  {host host' database database' : Bytes} {port port' : Int} {key : DBKey}
  {pool : Option MySQLPool} {req : DBRequest}

/-! ## Entries and requests -/

/-- A `mysql` entry of the configuration. -/
structure IsMySQLEntry (db : Json) (host : Bytes) (port : Int) (database : Bytes) : Prop where
  type : db.atKey (ascii "type") = some (.string (ascii "mysql"))
  host : db.atKey (ascii "host") = some (.string host)
  port : db.atKey (ascii "port") = some (.integer port)
  database : db.atKey (ascii "database") = some (.string database)

/-- The `connInfo` of a request. -/
structure IsConnInfo (connInfo : Json) (host : Bytes) (port : Int) (database : Bytes) :
    Prop where
  host : connInfo.atKey (ascii "host") = some (.string host)
  port : connInfo.atKey (ascii "port") = some (.integer port)
  database : connInfo.atKey (ascii "database") = some (.string database)

/-- A request for a `mysql` database. -/
def IsMySQLRequest (lib : JsonLib) (msg : MsgNode) (host : Bytes) (port : Int)
    (database : Bytes) : Prop :=
  ∃ reqJson target connInfo, lib.parse msg.text = some reqJson ∧
    reqJson.atKey (ascii "target") = some target ∧
    target.atKey (ascii "type") = some (.string (ascii "mysql")) ∧
    target.atKey (ascii "connInfo") = some connInfo ∧ IsConnInfo connInfo host port database

/-- `host:port/database`. -/
def mysqlIdent (host : Bytes) (port : Int) (database : Bytes) : Bytes :=
  joined 0x3A 0x2F host (integerText port) database

theorem mysqlIdent_eq (host : Bytes) (port : Int) (database : Bytes) :
    host ++ ascii ":" ++ integerText port ++ ascii "/" ++ database =
      mysqlIdent host port database := by
  have hcolon : ascii ":" = [0x3A] := by decide
  have hslash : ascii "/" = [0x2F] := by decide
  simp [mysqlIdent, joined, hcolon, hslash]

/-- What is left of a `do` block once its first read is known. -/
theorem bind_of_some {α β : Type} {x : Option α} {a : α} {f : α → Option β} {b : β}
    (hx : x = some a) (h : x.bind f = some b) : f a = some b := by
  rwa [hx] at h

theorem ident_of_readMySQL (hentry : IsMySQLEntry db host port database) {ident : Bytes}
    {pool : MySQLPool} (hread : readMySQL db = some (ident, pool)) :
    ident = mysqlIdent host (Json.toUInt16 port) database := by
  have hrest := bind_of_some hentry.host hread
  have hrest := bind_of_some rfl hrest
  have hrest := bind_of_some hentry.port hrest
  have hrest := bind_of_some rfl hrest
  -- `user` and `password` are not part of the identifier
  obtain ⟨_, -, hrest⟩ := Option.bind_eq_some_iff.mp hrest
  obtain ⟨user, -, hrest⟩ := Option.bind_eq_some_iff.mp hrest
  obtain ⟨_, -, hrest⟩ := Option.bind_eq_some_iff.mp hrest
  obtain ⟨pwd, -, hrest⟩ := Option.bind_eq_some_iff.mp hrest
  have hrest := bind_of_some hentry.database hrest
  have hrest := bind_of_some rfl hrest
  obtain ⟨poolSize, -, hread⟩ := Option.bind_eq_some_iff.mp hrest
  obtain ⟨rfl, -⟩ := Prod.mk.inj (Option.some.inj hread)
  exact mysqlIdent_eq _ _ _

/-- The key under which the configuration keeps the pool. -/
theorem key_of_readEntry (hentry : IsMySQLEntry db host port database)
    (hread : readEntry valid db = some (some (key, pool))) :
    key = { type := ascii "mysql", ident := mysqlIdent host (Json.toUInt16 port) database } := by
  have hrest := bind_of_some hentry.type hread
  have hrest := bind_of_some rfl hrest
  dsimp only at hrest
  rw [if_pos rfl] at hrest
  obtain ⟨⟨ident, mysql⟩, hmysql, hread⟩ := Option.bind_eq_some_iff.mp hrest
  have hident := ident_of_readMySQL hentry hmysql
  split at hread
  · exact absurd hread (by simp)
  · obtain ⟨rfl, -⟩ := Prod.mk.inj (Option.some.inj (Option.some.inj hread))
    rw [hident]

/-- The key that a request asks for. -/
theorem key_of_parseRequest (hreq : IsMySQLRequest lib msg host port database)
    (hparse : parseRequest lib msg = some req) :
    req.key = { type := ascii "mysql", ident := mysqlIdent host (Json.toInt32 port) database } := by
  obtain ⟨reqJson, target, connInfo, hjson, htarget, htype, hinfo, hconn⟩ := hreq
  unfold parseRequest at hparse
  have hrest := bind_of_some hjson hparse
  have hrest := bind_of_some htarget hrest
  have hrest := bind_of_some htype hrest
  have hrest := bind_of_some rfl hrest
  dsimp only at hrest
  rw [if_pos rfl] at hrest
  have hrest := bind_of_some hinfo hrest
  have hrest := bind_of_some hconn.host hrest
  have hrest := bind_of_some rfl hrest
  have hrest := bind_of_some hconn.port hrest
  have hrest := bind_of_some rfl hrest
  have hrest := bind_of_some hconn.database hrest
  have hrest := bind_of_some rfl (bind_of_some rfl hrest)
  -- `action` and `sql` are not part of the key
  obtain ⟨action, -, hrest⟩ := Option.bind_eq_some_iff.mp hrest
  obtain ⟨_, -, hrest⟩ := Option.bind_eq_some_iff.mp hrest
  obtain ⟨sql, -, hreq⟩ := Option.bind_eq_some_iff.mp hrest
  obtain rfl := Option.some.inj hreq
  rw [mysqlIdent_eq]

/-! ## Entries are found under their keys -/

theorem lookup_emplace_self (pools : ConnPools) :
    ((pools.emplace key pool).lookup key).isSome = true := by
  unfold ConnPools.emplace
  split
  · next h => exact h
  · next h =>
    have hnone : pools.lookup key = none := Option.not_isSome_iff_eq_none.mp h
    simp [List.lookup_append, hnone]

theorem lookup_emplace {key' : DBKey} {pools : ConnPools}
    (h : (pools.lookup key).isSome = true) :
    ((pools.emplace key' pool).lookup key).isSome = true := by
  unfold ConnPools.emplace
  split
  · exact h
  · obtain ⟨x, hx⟩ := Option.isSome_iff_exists.mp h
    simp [List.lookup_append, hx]

theorem lookup_readEntries {entries : List Json} {pools pools' : ConnPools} {ok : Bool}
    (h : readEntries valid entries pools = (ok, pools'))
    (hkey : (pools.lookup key).isSome = true) : (pools'.lookup key).isSome = true := by
  induction entries generalizing pools with
  | nil =>
      obtain ⟨-, rfl⟩ := Prod.mk.inj h
      exact hkey
  | cons db entries ih =>
      simp only [readEntries] at h
      split at h
      · obtain ⟨-, rfl⟩ := Prod.mk.inj h
        exact hkey
      · exact ih h hkey
      · exact ih h (lookup_emplace hkey)

/-- **The loop** leaves every entry that it could read under its key. -/
theorem registered_of_mem {entries : List Json} {pools pools' : ConnPools}
    (h : readEntries valid entries pools = (true, pools')) (hmem : db ∈ entries)
    (hread : readEntry valid db = some (some (key, pool))) :
    (pools'.lookup key).isSome = true := by
  induction entries generalizing pools with
  | nil => exact absurd hmem (by simp)
  | cons first entries ih =>
      rcases List.mem_cons.mp hmem with rfl | hmem
      · simp only [readEntries, hread] at h
        exact lookup_readEntries h (lookup_emplace_self pools)
      · simp only [readEntries] at h
        split at h
        · exact absurd (Prod.mk.inj h).1 (by simp)
        · exact ih h hmem
        · exact ih h hmem

/-! ## Routing -/

theorem not_mem_integerText (i : Int) :
    (0x3A : UInt8) ∉ integerText i ∧ (0x2F : UInt8) ∉ integerText i := by
  constructor
  · intro h
    rcases mem_integerText h with h | h <;> exact absurd h (by decide)
  · intro h
    rcases mem_integerText h with h | h <;> exact absurd h (by decide)

/-- Neither host holds the other one's host and port, with the rest of it at the front of
the other database; and where host and database agree, the ports agree exactly when they
do after their conversions. -/
structure Routable (host : Bytes) (port : Int) (database host' : Bytes) (port' : Int)
    (database' : Bytes) : Prop where
  hostApart : ¬ Shifted 0x3A 0x2F host (integerText (Json.toUInt16 port)) database
    host' (integerText (Json.toInt32 port')) database'
  hostApart' : ¬ Shifted 0x3A 0x2F host' (integerText (Json.toInt32 port')) database'
    host (integerText (Json.toUInt16 port)) database
  portExact : host = host' → database = database' →
    (Json.toUInt16 port = Json.toInt32 port' ↔ port = port')

/-- Hosts without a slash and ports of 16 bits are no obstacle. -/
theorem routable_of_plain (hhost : (0x2F : UInt8) ∉ host) (hhost' : (0x2F : UInt8) ∉ host')
    (hport : 0 ≤ port ∧ port < 65536) (hport' : 0 ≤ port' ∧ port' < 65536) :
    Routable host port database host' port' database' := by
  refine ⟨fun hshift => ?_, fun hshift => ?_, fun _ _ => ?_⟩
  · obtain ⟨between, rfl, -⟩ := hshift
    exact hhost' (by simp [joined])
  · obtain ⟨between, rfl, -⟩ := hshift
    exact hhost (by simp [joined])
  · have hshort : Json.toUInt16 port = port := Int.emod_eq_of_lt hport.1 hport.2
    have hint : Json.toInt32 port' = port' := by
      rw [Json.toInt32, BitVec.toInt_ofInt, Int.bmod_eq_of_le (by omega) (by omega)]
    rw [hshort, hint]

theorem mysqlIdent_eq_iff {i j : Int} : mysqlIdent host i database = mysqlIdent host' j database' ↔
    (host = host' ∧ i = j ∧ database = database') ∨
      Shifted 0x3A 0x2F host (integerText i) database host' (integerText j) database' ∨
      Shifted 0x3A 0x2F host' (integerText j) database' host (integerText i) database := by
  rw [mysqlIdent, mysqlIdent, joined_eq_iff (by decide) (not_mem_integerText i).1
    (not_mem_integerText j).1 (not_mem_integerText i).2 (not_mem_integerText j).2,
    integerText_injective.eq_iff]

/-- **Request routing.** A request's key is the key of an entry exactly when host, port and
database agree, if and only if the two are `Routable`; and the pools of the entries are
found under their keys. -/
theorem request_routing_iff (hentry : IsMySQLEntry db host port database)
    (hread : readEntry valid db = some (some (key, pool)))
    (hreq : IsMySQLRequest lib msg host' port' database')
    (hparse : parseRequest lib msg = some req) :
    ((req.key = key ↔ host = host' ∧ port = port' ∧ database = database') ↔
      Routable host port database host' port' database') ∧
    ∀ cfg databases pools, cfg.atKey (ascii "databases") = some databases →
      db ∈ databases.elements → initializeFromConfig valid cfg [] = (true, pools) →
      (pools.lookup key).isSome = true := by
  constructor
  · have hkeys : req.key = key ↔ mysqlIdent host (Json.toUInt16 port) database =
        mysqlIdent host' (Json.toInt32 port') database' := by
      rw [key_of_readEntry hentry hread, key_of_parseRequest hreq hparse]
      constructor
      · intro h
        exact (DBKey.mk.inj h).2.symm
      · intro h
        rw [h]
    rw [hkeys, mysqlIdent_eq_iff]
    constructor
    · -- a shift makes the keys equal although the hosts differ
      intro h
      refine ⟨fun hshift => ?_, fun hshift => ?_, fun hhost hdatabase => ?_⟩
      · exact hshift.front_ne (h.mp (Or.inr (Or.inl hshift))).1
      · exact hshift.front_ne (h.mp (Or.inr (Or.inr hshift))).1.symm
      · constructor
        · intro hport
          exact (h.mp (Or.inl ⟨hhost, hport, hdatabase⟩)).2.1
        · intro hport
          rcases h.mpr ⟨hhost, hport, hdatabase⟩ with hsame | hshift | hshift
          · exact hsame.2.1
          · exact absurd hhost hshift.front_ne
          · exact absurd hhost.symm hshift.front_ne
    · intro h
      constructor
      · intro hsame
        rcases hsame with ⟨hhost, hport, hdatabase⟩ | hshift | hshift
        · exact ⟨hhost, (h.portExact hhost hdatabase).mp hport, hdatabase⟩
        · exact absurd hshift h.hostApart
        · exact absurd hshift h.hostApart'
      · intro hparts
        obtain ⟨hhost, hport, hdatabase⟩ := hparts
        exact Or.inl ⟨hhost, (h.portExact hhost hdatabase).mpr hport, hdatabase⟩
  · intro cfg databases pools hcfg hmem hinit
    simp only [initializeFromConfig, hcfg] at hinit
    exact registered_of_mem hinit hmem hread

/-- An entry of the configuration, as JSON. -/
def mysqlJson (host : Bytes) (port : Int) (database : Bytes) : Json :=
  .object [(ascii "type", .string (ascii "mysql")), (ascii "host", .string host),
    (ascii "port", .integer port), (ascii "user", .string (ascii "root")),
    (ascii "password", .string (ascii "123456")), (ascii "database", .string database),
    (ascii "pool", .object [(ascii "enable", .boolean true), (ascii "size", .integer 4)])]

/-- The pool that the entry of a local database asks for. -/
def localPool : MySQLPool where
  poolSize := 4
  host := ascii "127.0.0.1"
  port := 3306
  user := ascii "root"
  pwd := ascii "123456"
  database := ascii "mytest"

/-- The body of an EXECUTE, as JSON. -/
def executeJson (host : Bytes) (port : Int) (database : Bytes) : Json :=
  .object [(ascii "target", .object [(ascii "type", .string (ascii "mysql")),
      (ascii "connInfo", .object [(ascii "host", .string host), (ascii "port", .integer port),
        (ascii "database", .string database)])]),
    (ascii "action", .object [(ascii "sql", .string (ascii "SELECT 1"))])]

theorem isMySQLEntry_mysqlJson : IsMySQLEntry (mysqlJson host port database) host port database :=
  ⟨rfl, rfl, rfl, rfl⟩

/-- The text of that body, for a host and a database that need no escapes. -/
def executeBody (host : Bytes) (port : Int) (database : Bytes) : Bytes :=
  ascii "\x7b\"target\":\x7b\"type\":\"mysql\",\"connInfo\":\x7b\"host\":\"" ++ host ++
    ascii "\",\"port\":" ++ integerText port ++ ascii ",\"database\":\"" ++ database ++
    ascii "\"\x7d\x7d,\"action\":\x7b\"sql\":\"SELECT 1\"\x7d\x7d"

/-- An EXECUTE, as the read loop hands it over. -/
def executeRequestNode (host : Bytes) (port : Int) (database : Bytes) : MsgNode where
  header := { magic := 0x55AA, version := 1, serviceId := Const.serviceDb
              cmdId := Const.dbExecute
              length := UInt32.ofNat (executeBody host port database).length, seq := 1 }
  body := executeBody host port database ++ [0]

/-- The library, as far as one request needs it. -/
def executeLib (host : Bytes) (port : Int) (database : Bytes)
    (h : (executeJson host port database).isText = true) : JsonLib :=
  .ofTable [(executeBody host port database, executeJson host port database)] (by simpa using h)

section Execute

variable {h : (executeJson host port database).isText = true}

theorem parse_executeLib (hlen : (executeBody host port database).length < 2 ^ 32) :
    (executeLib host port database h).parse (executeRequestNode host port database).text =
      some (executeJson host port database) := by
  have htext : (executeRequestNode host port database).text = executeBody host port database := by
    simp only [MsgNode.text, MsgNode.getBodyLen, executeRequestNode, UInt32.toNat_ofNat',
      Nat.mod_eq_of_lt hlen]
    exact List.take_left' rfl
  rw [htext]
  exact List.lookup_cons_self

theorem isMySQLRequest_execute (hlen : (executeBody host port database).length < 2 ^ 32) :
    IsMySQLRequest (executeLib host port database h) (executeRequestNode host port database)
      host port database :=
  ⟨_, _, _, parse_executeLib hlen, rfl, rfl, rfl, rfl, rfl, rfl⟩

end Execute

/-- The pool of the default configuration, and a request for another port of its host. -/
theorem request_routing_iff_default : ∃ (lib : JsonLib) (msg : MsgNode) (req : DBRequest)
    (key : DBKey), parseRequest lib msg = some req ∧ req.key ≠ key ∧
      ((req.key = key ↔ ascii "127.0.0.1" = ascii "127.0.0.1" ∧ (3306 : Int) = 3307 ∧
          ascii "mytest" = ascii "mytest") ↔
        Routable (ascii "127.0.0.1") 3306 (ascii "mytest") (ascii "127.0.0.1") 3307
          (ascii "mytest")) := by
  let lib := executeLib (ascii "127.0.0.1") 3307 (ascii "mytest") (by decide +kernel)
  let msg := executeRequestNode (ascii "127.0.0.1") 3307 (ascii "mytest")
  let key : DBKey := { type := ascii "mysql", ident := ascii "127.0.0.1:3306/mytest" }
  let req : DBRequest := {
    key := { type := ascii "mysql", ident := ascii "127.0.0.1:3307/mytest" }
    sql := ascii "SELECT 1" }
  have hrequest : IsMySQLRequest lib msg (ascii "127.0.0.1") 3307 (ascii "mytest") :=
    isMySQLRequest_execute (by decide +kernel)
  have hread : readEntry (fun _ => true) (mysqlJson (ascii "127.0.0.1") 3306 (ascii "mytest")) =
      some (some (key, some localPool)) := by decide +kernel
  have hparse : parseRequest lib msg = some req := by decide +kernel
  exact ⟨lib, msg, req, key, hparse, by decide +kernel,
    (request_routing_iff isMySQLEntry_mysqlJson hread hrequest hparse).1⟩

/-- An entry whose port does not fit into 16 bits catches the requests for another port. -/
theorem wide_port_misroutes : ¬ ∀ (lib : JsonLib) (valid : MySQLPool → Bool) (db : Json)
    (msg : MsgNode) (host database host' database' : Bytes) (port port' : Int) (key : DBKey)
    (pool : Option MySQLPool) (req : DBRequest), IsMySQLEntry db host port database →
      readEntry valid db = some (some (key, pool)) →
      IsMySQLRequest lib msg host' port' database' → parseRequest lib msg = some req →
      (req.key = key ↔ host = host' ∧ port = port' ∧ database = database') := by
  intro h
  let lib := executeLib (ascii "127.0.0.1") 3306 (ascii "mytest") (by decide +kernel)
  let msg := executeRequestNode (ascii "127.0.0.1") 3306 (ascii "mytest")
  let key : DBKey := { type := ascii "mysql", ident := ascii "127.0.0.1:3306/mytest" }
  have hrequest : IsMySQLRequest lib msg (ascii "127.0.0.1") 3306 (ascii "mytest") :=
    isMySQLRequest_execute (by decide +kernel)
  have hread : readEntry (fun _ => true) (mysqlJson (ascii "127.0.0.1") 68842 (ascii "mytest")) =
      some (some (key, some localPool)) := by decide +kernel
  have hparse : parseRequest lib msg = some { key, sql := ascii "SELECT 1" } := by decide +kernel
  have hsame := (h lib _ _ msg _ _ _ _ _ _ key _ _ isMySQLEntry_mysqlJson hread hrequest hparse).mp
    rfl
  exact absurd hsame.2.1 (by decide)

end AsioServer.Services
