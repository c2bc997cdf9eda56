/-
AsioServer.Net.ReadLoop — the read loop of `CoroutineSession::Start` as a
function of the byte stream the peer sends.

Translated from `net/coroutine/CoroutineSession.cpp`. `asyncRead n` is
`async_read` on a buffer of `n` bytes: it completes with the whole buffer or
fails because the stream ended. `readNode` is one round of the loop up to the
dispatch, `readLoop` the repetition. The loop keeps one node and reuses it:
a registered service takes the node away and the loop makes a new one, an
unregistered service leaves it to be cleared at the next round. The services
that are registered are a parameter, `found`.

The branch `len == 0` after a read has no counterpart here: a read that
completes has filled its buffer, which is never empty when it is issued.
-/
import AsioServer.Core.Message

namespace AsioServer.Net

open AsioServer.Lib AsioServer.Core

/-- `async_read` of `n` bytes; `none` is the error of a stream that ended. -/
def asyncRead (n : Nat) (s : Bytes) : Option (Bytes × Bytes) :=
  if n ≤ s.length then some (s.take n, s.drop n) else none

/-- How one round of the loop ends. -/
inductive Read where
  /-- A read failed. -/
  | eof
  /-- `Allocate` wrote outside its buffer. -/
  | fault
  /-- A whole message, and the rest of the stream. -/
  | message (node : MsgNode) (rest : Bytes)
  deriving DecidableEq, Repr

/-- One round: clear the node, read and convert the header, allocate, read the
body when there is one. -/
def readNode (e : Endian) (recvNode : MsgNode) (s : Bytes) : Read :=
  let node := recvNode.clear
  match asyncRead MessageHeader.size s with
  | none => .eof
  | some (head, s) =>
      let node := { node with header := MessageHeader.ofMemory e head }.toHost e
      let length := node.header.length
      match node.allocate length with
      | none => .fault
      | some node =>
          -- an empty body is not read at all
          if 0 < length then
            match asyncRead node.getBodyLen.toNat s with
            | none => .eof
            | some (body, s) => .message (node.fillBody body) s
          else .message node s

/-- The messages the loop dispatches or drops, in order, and the undecoded rest
of the stream; the fuel bounds the number of rounds. -/
def readLoop (e : Endian) (found : UInt16 → Bool) :
    Nat → MsgNode → Bytes → List (MessageHeader × Bytes) × Bytes
  | 0, _, s => ([], s)
  | fuel + 1, recvNode, s =>
      match readNode e recvNode s with
      | .eof => ([], s)
      | .fault => ([], s)
      | .message node rest =>
          let recvNode := if found node.header.serviceId then {} else node
          let next := readLoop e found fuel recvNode rest
          ((node.header, node.text) :: next.1, next.2)

/-- The loop from a fresh session. A round takes at least the header, so the
length of the stream is fuel enough. -/
def decode (e : Endian) (found : UInt16 → Bool) (s : Bytes) :
    List (MessageHeader × Bytes) × Bytes :=
  readLoop e found s.length {} s

/-- The length fields the loop reads: of every message, and of the header that
the undecoded rest begins with when it holds a whole one. -/
def lengthFields (e : Endian) (found : UInt16 → Bool) (s : Bytes) : List UInt32 :=
  let tail := (decode e found s).2
  (decode e found s).1.map (fun m => m.1.length) ++
    (if MessageHeader.size ≤ tail.length then
      [((MessageHeader.ofMemory e (tail.take MessageHeader.size)).toHost e).length] else [])

/-- The bytes the loop needs before it has the next message of the stream. -/
def frameSize (e : Endian) (s : Bytes) : Nat :=
  if MessageHeader.size ≤ s.length then
    MessageHeader.size +
      ((MessageHeader.ofMemory e (s.take MessageHeader.size)).toHost e).length.toNat
  else MessageHeader.size

end AsioServer.Net
