/-
AsioServer.Services.BrokenConnections — connections whose link to the server breaks.

Adds to the pool what `services/DBService/MySQLConnection.cpp` keeps in a connection:
`_isConnected`, which the constructor sets, and the link, which is the driver's. An
execution may find that the link is lost; `async_execute` then throws, now and
ever after, and `Execute` returns false. The line that would clear `_isConnected` in the
catch block is commented out, and `Release` looks at nothing.
-/
import AsioServer.Services.DBConnectionPool
import AsioServer.Services.DBConnections

namespace AsioServer.Services

open AsioServer.Core AsioServer.Infra AsioServer.Lib

/-! ## MySQLConnection -/

/-- `MySQLConnection`, with the state of the link that `_conn` stands for. -/
structure MySQLConnection where
  isConnected : Bool
  linkAlive : Bool
  deriving DecidableEq, Repr

/-- What an execution meets at the server. -/
inductive ServerAnswer where
  | statement (answer : MySQLAnswer)
  /-- The link is lost; the text is that of the exception. -/
  | linkLost (what : Bytes)

namespace MySQLConnection

/-- The constructor, when the server accepts the connection. -/
def connected : MySQLConnection := { isConnected := true, linkAlive := true }

/-- `IsValid`. -/
def isValid (conn : MySQLConnection) : Bool := conn.isConnected

/-- `Execute`, with what it leaves in `out`. A statement is answered only over a link;
a connection that is not valid does not ask for one. -/
def execute (conn : MySQLConnection) : ServerAnswer →
    Option (MySQLConnection × Bool × DBResult)
  | .statement answer =>
      if conn.isValid && !conn.linkAlive then none
      else some (conn, mySQLExecute conn.isConnected answer)
  | .linkLost what =>
      some ({ conn with linkAlive := conn.linkAlive && !conn.isValid },
        mySQLExecute conn.isConnected (.throws what))

end MySQLConnection

/-! ## The pool and its connections -/

/-- The pool with its connections, by their numbers. -/
structure LinkState where
  base : PoolState
  conns : List MySQLConnection
  deriving DecidableEq, Repr

namespace LinkState

/-- The link of the connection is lost. -/
def broken (s : LinkState) (c : Conn) : Bool :=
  match s.conns[c]? with
  | some conn => !conn.linkAlive
  | none => false

end LinkState

/-- An execution with the answer of the server, or another step of the pool. -/
inductive LinkEvent where
  | execute (i : Nat) (answer : ServerAnswer)
  | other (a : PoolEvent)

/-- `Execute` on the connection that request `i` holds. -/
def executeOnLink (s : LinkState) (i : Nat) (answer : ServerAnswer) : Option LinkState := do
  let r ← s.base.requests[i]?
  match r.place with
  | .executing c =>
      let conn ← s.conns[c]?
      let (conn', ok, _) ← conn.execute answer
      let base ← poolStep s.base (.execute i ok)
      return { base, conns := s.conns.set c conn' }
  | _ => none

/-- One step. A connection that is created is valid, otherwise it is not returned. -/
def linkStep (s : LinkState) : LinkEvent → Option LinkState
  | .execute i answer => executeOnLink s i answer
  | .other (.execute _ _) => none
  | .other (.create i true) =>
      (poolStep s.base (.create i true)).map fun base =>
        { base, conns := s.conns ++ [.connected] }
  | .other a => (poolStep s.base a).map fun base => { s with base }

/-- A pool after `Initialize`, with connections to the server. -/
def LinkState.new (max : Nat) (valid : Nat → Bool) : LinkState :=
  let base := initialized max valid
  { base, conns := List.replicate base.nextConn .connected }

end AsioServer.Services
