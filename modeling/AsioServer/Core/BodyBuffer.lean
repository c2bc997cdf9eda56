/-
AsioServer.Core.BodyBuffer — the accesses to the body buffer, one by one.

Translated from `MsgNode::Allocate` and `BuildSendBuffer`
(`core/message/MsgNode.cpp`), the reads of the body in
`net/coroutine/CoroutineSession.cpp` and `net/threaded/AsyncSession.cpp`, and
`CSession::Send` (`core/session/CSession.cpp`).

Here every `memset`, `memcpy`, index and read names the range it touches, and
the result is `none` when one of them leaves its buffer. `Core.Message` has the
same functions in closed form.
-/
import AsioServer.Core.Message
import AsioServer.Lib.Buffer

namespace AsioServer.Core

open AsioServer.Lib

/-- `vector<char>::resize`. -/
def resize (n : Nat) (bs : Bytes) : Bytes := bs.take n ++ List.replicate (n - bs.length) 0

namespace MsgNode

/-- `MsgNode::Allocate`. -/
def allocateChecked (bodyLen : UInt32) (node : MsgNode) : Option MsgNode := do
  -- `bodyLen + 1` is computed in 32 bits, here and in the `memset`
  let size := (bodyLen + 1).toNat
  let body := resize size node.body
  let body ← bufWrite body 0 (List.replicate size 0)
  let body ← bufWrite body bodyLen.toNat [0]
  return { node with body, header := { node.header with length := bodyLen } }

/-- `MsgNode::BuildSendBuffer`. -/
def buildSendBufferChecked (e : Endian) (node : MsgNode) : Option MsgNode := do
  let realLen : UInt32 := if node.body.isEmpty then 0 else UInt32.ofNat (node.body.length - 1)
  let sendBuf := resize (MessageHeader.size + realLen.toNat) node.sendBuf
  let sendBuf ← bufWrite sendBuf 0 (node.header.memory e)
  let sendBuf ←
    if 0 < realLen then do
      let body ← bufRead node.body 0 realLen.toNat
      bufWrite sendBuf MessageHeader.size body
    else some sendBuf
  return { node with sendBuf }

/-- What a session does with a header that it has read: `ToHost`, then
`Allocate(header.length)`. -/
def prepareBody (e : Endian) (raw : MessageHeader) (node : MsgNode) : Option MsgNode :=
  let node := { node with header := raw }.toHost e
  node.allocateChecked node.header.length

/-- The `async_read` of the body completes with `bs`. -/
def receiveBody (bs : Bytes) (node : MsgNode) : Option MsgNode :=
  (bufWrite node.body 0 bs).map fun body => { node with body }

/-- `std::string(node->GetBody(), node->GetBodyLen())`. -/
def textChecked (node : MsgNode) : Option Bytes := bufRead node.body 0 node.getBodyLen.toNat

end MsgNode

/-- `CSession::Send(header, body, len)`, where `body` points to the string with
its closing NUL. -/
def buildNodeChecked (e : Endian) (header : MessageHeader) (body : Bytes) (len : UInt32) :
    Option MsgNode := do
  let node ← ({} : MsgNode).allocateChecked len
  let node := { node with header := { header with length := len } }
  let node ←
    if 0 < len then do
      let copied ← bufRead (body ++ [0]) 0 len.toNat
      node.receiveBody copied
    else some node
  (node.toNetwork e).buildSendBufferChecked e

/-- `CSession::Send(header, std::string)`. -/
def sendNodeChecked (e : Endian) (header : MessageHeader) (body : Bytes) : Option MsgNode :=
  buildNodeChecked e header body (UInt32.ofNat body.length)

/-! ## What the accesses are to satisfy -/

/-- A header read from the wire gives a buffer of one byte more than its length
field says, and the read of the body and every later use of it stay inside. -/
def ReceiveSafe (e : Endian) (raw : MessageHeader) (node : MsgNode) : Prop :=
  ∃ allocated, node.prepareBody e raw = some allocated ∧
    allocated.getBodyLen = (raw.toHost e).length ∧
    allocated.body.length = (raw.toHost e).length.toNat + 1 ∧
    ∀ bs : Bytes, bs.length = allocated.getBodyLen.toNat →
      ∃ received, allocated.receiveBody bs = some received ∧ received.textChecked = some bs

/-- A body is sent with its own length, in the node and in the header, and its
copies stay inside. -/
def SendSafe (e : Endian) (header : MessageHeader) (body : Bytes) : Prop :=
  (UInt32.ofNat body.length).toNat = body.length ∧
    ∃ node, sendNodeChecked e header body = some node ∧
      (node.header.toHost e).length.toNat = body.length

end AsioServer.Core
