/-
AsioServer.Core.Message — the message header, the message node and the frame a
session puts on the wire.

Translated from `core/protocol/MessageHeader.h`, `core/message/MsgNode.{h,cpp}`
and the frame-building half of `CSession::Send` in `core/session/CSession.cpp`.

A header lives in memory as a packed struct in the byte order of the host,
which is a parameter here (`Endian`), because the read loop and the sender copy
that struct to and from the wire byte by byte.

A `vector<char>` is its list of bytes. `allocate` answers `none` where the
source writes outside its buffer: `bodyLen + 1` is a 32-bit sum, so the largest
length leaves an empty vector and the write of the closing NUL has no room.
-/
import AsioServer.Lib.Words

namespace AsioServer.Core

open AsioServer.Lib

/-- The bytes of a `std::string` or a `vector<char>`. -/
abbrev Bytes := List UInt8

/-! ## MessageHeader.h -/

/-- `MessageHeader`, packed to 16 bytes. -/
structure MessageHeader where
  magic : UInt16 := 0
  version : UInt16 := 0
  serviceId : UInt16 := 0
  cmdId : UInt16 := 0
  length : UInt32 := 0
  seq : UInt32 := 0
  deriving DecidableEq, Repr

namespace MessageHeader

/-- `host_to_network_short` and `network_to_host_short`. -/
def swapShort (e : Endian) (x : UInt16) : UInt16 := UInt16.ofNat (hostToNetwork e 2 x.toNat)

/-- `host_to_network_long` and `network_to_host_long`. -/
def swapLong (e : Endian) (x : UInt32) : UInt32 := UInt32.ofNat (hostToNetwork e 4 x.toNat)

/-- `MessageHeader::ToNetwork`. -/
def toNetwork (e : Endian) (h : MessageHeader) : MessageHeader where
  magic := swapShort e h.magic
  version := swapShort e h.version
  serviceId := swapShort e h.serviceId
  cmdId := swapShort e h.cmdId
  length := swapLong e h.length
  seq := swapLong e h.seq

/-- `MessageHeader::ToHost`. -/
def toHost (e : Endian) (h : MessageHeader) : MessageHeader where
  magic := swapShort e h.magic
  version := swapShort e h.version
  serviceId := swapShort e h.serviceId
  cmdId := swapShort e h.cmdId
  length := swapLong e h.length
  seq := swapLong e h.seq

/-- `sizeof(MessageHeader)`, which `MsgNode::GetHeaderSize` returns. -/
def size : Nat := 16

/-- The memory image of the packed struct. -/
def memory (e : Endian) (h : MessageHeader) : Bytes :=
  store e 2 h.magic.toNat ++ store e 2 h.version.toNat ++ store e 2 h.serviceId.toNat ++
    store e 2 h.cmdId.toNat ++ store e 4 h.length.toNat ++ store e 4 h.seq.toNat

/-- The struct whose memory image the bytes are (`GetHeaderData` as a read buffer). -/
def ofMemory (e : Endian) (bs : Bytes) : MessageHeader where
  magic := UInt16.ofNat (load e (bs.take 2))
  version := UInt16.ofNat (load e ((bs.drop 2).take 2))
  serviceId := UInt16.ofNat (load e ((bs.drop 4).take 2))
  cmdId := UInt16.ofNat (load e ((bs.drop 6).take 2))
  length := UInt32.ofNat (load e ((bs.drop 8).take 4))
  seq := UInt32.ofNat (load e ((bs.drop 12).take 4))

end MessageHeader

/-! ## MsgNode -/

/-- `MsgNode`: the header, the body buffer and the send buffer. -/
structure MsgNode where
  header : MessageHeader := {}
  body : Bytes := []
  sendBuf : Bytes := []
  deriving DecidableEq, Repr

namespace MsgNode

/-- `MsgNode::Allocate`: `resize`, `memset`, the closing NUL and the header's
length. `none` is the write of the NUL outside the buffer. -/
def allocate (bodyLen : UInt32) (node : MsgNode) : Option MsgNode :=
  -- `bodyLen + 1` is computed in 32 bits
  let size := (bodyLen + 1).toNat
  if bodyLen.toNat < size then
    some { node with
      body := List.replicate size 0
      header := { node.header with length := bodyLen } }
  else none

/-- `MsgNode::Clear`. -/
def clear (node : MsgNode) : MsgNode := { node with body := [], header := {} }

/-- `MsgNode::BuildSendBuffer`: the header's memory image, then the body without
its closing NUL. -/
def buildSendBuffer (e : Endian) (node : MsgNode) : MsgNode :=
  let realLen : UInt32 := if node.body.isEmpty then 0 else UInt32.ofNat (node.body.length - 1)
  { node with sendBuf := node.header.memory e ++ node.body.take realLen.toNat }

/-- `MsgNode::GetBodyLen`. -/
def getBodyLen (node : MsgNode) : UInt32 := node.header.length

/-- `std::string(node->GetBody(), node->GetBodyLen())`. -/
def text (node : MsgNode) : Bytes := node.body.take node.getBodyLen.toNat

/-- Overwrite the front of the body buffer (`memcpy`, or the buffer of a read). -/
def fillBody (bs : Bytes) (node : MsgNode) : MsgNode :=
  { node with body := bs ++ node.body.drop bs.length }

/-- `node->GetHeader().ToNetwork()`. -/
def toNetwork (e : Endian) (node : MsgNode) : MsgNode :=
  { node with header := node.header.toNetwork e }

/-- `node->GetHeader().ToHost()`. -/
def toHost (e : Endian) (node : MsgNode) : MsgNode :=
  { node with header := node.header.toHost e }

end MsgNode

/-! ## The frame that CSession::Send builds -/

/-- `CSession::Send(header, body, len)` up to the hand-over of the node: allocate,
copy the header and set its length, copy the body, convert, build the buffer. -/
def buildNode (e : Endian) (header : MessageHeader) (body : Bytes) (len : UInt32) :
    Option MsgNode := do
  let node ← ({} : MsgNode).allocate len
  let node := { node with header := { header with length := len } }
  let node := if 0 < len then node.fillBody (body.take len.toNat) else node
  return (node.toNetwork e).buildSendBuffer e

/-- `CSession::Send(header, std::string)`: the length is narrowed to 32 bits. -/
def sendNode (e : Endian) (header : MessageHeader) (body : Bytes) : Option MsgNode :=
  buildNode e header body (UInt32.ofNat body.length)

/-- The bytes that a message puts on the wire. -/
def encode (e : Endian) (m : MessageHeader × Bytes) : Bytes :=
  match sendNode e m.1 m.2 with
  | some node => node.sendBuf
  | none => []

end AsioServer.Core
