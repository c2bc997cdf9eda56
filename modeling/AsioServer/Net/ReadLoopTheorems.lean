/-
AsioServer.Net.ReadLoopTheorems — the wire format round trip.

`readNode_eq` is the specification of one round of the read loop: a stream with
less than a header, or less than the announced body, ends the loop; the largest
length leaves no room for the closing NUL; any other stream gives the message
that its first bytes spell. The reused node plays no part in it, so the loop is
an instance of `Lib.Framing` (`decode_eq_decodeAll`), and the two laws of a
codec that `Lib.Framing` lifts to whole streams are `next_encode` (reading
undoes `CSession::Send`) and `encode_next` (what was read is what `Send` would
write).
-/
import AsioServer.Lib.Framing
import AsioServer.Core.MessageTheorems
import AsioServer.Net.ReadLoop

namespace AsioServer.Net

open AsioServer.Lib AsioServer.Core

variable (e : Endian)

/-! ## One round of the loop -/

theorem asyncRead_of_le {n : Nat} {s : Bytes} (h : n ≤ s.length) :
    asyncRead n s = some (s.take n, s.drop n) := if_pos h

theorem asyncRead_of_lt {n : Nat} {s : Bytes} (h : s.length < n) : asyncRead n s = none :=
  if_neg (by omega)

/-- The header that the first sixteen bytes of the stream spell. -/
def headerOf (s : Bytes) : MessageHeader :=
  (MessageHeader.ofMemory e (s.take MessageHeader.size)).toHost e

/-- The node a round ends with: the header, the body and its closing NUL. -/
def nodeOf (sendBuf : Bytes) (h : MessageHeader) (body : Bytes) : MsgNode where
  header := h
  body := body ++ [0]
  sendBuf := sendBuf

@[simp] theorem nodeOf_header (b : Bytes) (h : MessageHeader) (body : Bytes) :
    (nodeOf b h body).header = h := rfl

/-- `std::string(GetBody(), GetBodyLen())` leaves the closing NUL out. -/
theorem nodeOf_text {b : Bytes} {h : MessageHeader} {body : Bytes}
    (hlen : body.length = h.length.toNat) : (nodeOf b h body).text = body := by
  simp [nodeOf, MsgNode.text, MsgNode.getBodyLen, ← hlen]

/-- A stream long enough for a message holds the whole announced body. -/
theorem length_bodyOf {n : Nat} {s : Bytes} (h : ¬ s.length < MessageHeader.size + n) :
    ((s.drop MessageHeader.size).take n).length = n := by
  rw [List.length_take, List.length_drop]
  omega

/-- **The specification of one round.** -/
theorem readNode_eq (recvNode : MsgNode) (s : Bytes) :
    readNode e recvNode s =
      if s.length < MessageHeader.size then .eof
      else if ¬ (headerOf e s).length.toNat < 2 ^ 32 - 1 then .fault
      else if s.length < MessageHeader.size + (headerOf e s).length.toNat then .eof
      else .message
        (nodeOf recvNode.sendBuf (headerOf e s)
          ((s.drop MessageHeader.size).take (headerOf e s).length.toNat))
        (s.drop (MessageHeader.size + (headerOf e s).length.toNat)) := by
  unfold readNode
  by_cases hhead : s.length < MessageHeader.size
  · rw [asyncRead_of_lt hhead, if_pos hhead]
  rw [asyncRead_of_le (by omega), if_neg hhead]
  have hh : (MsgNode.toHost e { recvNode.clear with
      header := MessageHeader.ofMemory e (s.take MessageHeader.size) }).header = headerOf e s := rfl
  simp only [hh]
  by_cases hroom : (headerOf e s).length.toNat < 2 ^ 32 - 1
  swap
  · rw [MsgNode.allocate_eq_none_iff.mpr hroom, if_pos hroom]
  rw [MsgNode.allocate_of_lt hroom, if_neg (not_not.mpr hroom)]
  simp only [MsgNode.getBodyLen]
  by_cases hpos : (0 : UInt32) < (headerOf e s).length
  · rw [if_pos hpos]
    by_cases hbody : s.length < MessageHeader.size + (headerOf e s).length.toNat
    · rw [asyncRead_of_lt (by rw [List.length_drop]; omega), if_pos hbody]
    · rw [asyncRead_of_le (by rw [List.length_drop]; omega), if_neg hbody, List.drop_drop]
      simp only [MsgNode.fillBody, length_bodyOf hbody, List.drop_replicate,
        Nat.add_sub_cancel_left]
      rfl
  · have hzero : (headerOf e s).length.toNat = 0 := by
      rw [UInt32.lt_iff_toNat_lt] at hpos
      simpa using hpos
    rw [if_neg hpos, if_neg (by omega)]
    simp only [hzero, List.take_zero, Nat.add_zero]
    rfl

/-! ## The loop as a framing -/

/-- One message off the front of the stream. -/
def next (s : Bytes) : Option ((MessageHeader × Bytes) × Bytes) :=
  match readNode e {} s with
  | .message node rest => some ((node.header, node.text), rest)
  | _ => none

theorem next_eq (s : Bytes) :
    next e s =
      if s.length < MessageHeader.size then none
      else if ¬ (headerOf e s).length.toNat < 2 ^ 32 - 1 then none
      else if s.length < MessageHeader.size + (headerOf e s).length.toNat then none
      else some ((headerOf e s, (s.drop MessageHeader.size).take (headerOf e s).length.toNat),
        s.drop (MessageHeader.size + (headerOf e s).length.toNat)) := by
  unfold next
  rw [readNode_eq]
  by_cases hhead : s.length < MessageHeader.size
  · simp only [if_pos hhead]
  by_cases hroom : (headerOf e s).length.toNat < 2 ^ 32 - 1
  swap
  · simp only [if_neg hhead, if_pos hroom]
  by_cases hbody : s.length < MessageHeader.size + (headerOf e s).length.toNat
  · simp only [if_neg hhead, if_neg (not_not.mpr hroom), if_pos hbody]
  · simp only [if_neg hhead, if_neg (not_not.mpr hroom), if_neg hbody, nodeOf_header,
      nodeOf_text (length_bodyOf hbody)]

/-- The round trip laws speak about streams cut at a message. -/
theorem next_eq_some_iff {s r : Bytes} {m : MessageHeader × Bytes} :
    next e s = some (m, r) ↔ ∃ head, s = head ++ (m.2 ++ r) ∧
      head.length = MessageHeader.size ∧ m.1 = headerOf e head ∧
      m.2.length = m.1.length.toNat ∧ m.2.length < 2 ^ 32 - 1 := by
  obtain ⟨h, body⟩ := m
  rw [next_eq]
  constructor
  · intro hs
    split at hs
    · exact absurd hs (by simp)
    split at hs
    · exact absurd hs (by simp)
    split at hs
    · exact absurd hs (by simp)
    · next hhead hroom hlen =>
      simp only [Option.some.injEq, Prod.mk.injEq] at hs
      obtain ⟨⟨rfl, rfl⟩, rfl⟩ := hs
      refine ⟨s.take MessageHeader.size, ?_, ?_, ?_, ?_, ?_⟩
      · rw [← List.drop_drop, List.take_append_drop, List.take_append_drop]
      · rw [List.length_take]
        omega
      · rw [headerOf, headerOf, List.take_take, Nat.min_self]
      · exact length_bodyOf hlen
      · rw [length_bodyOf hlen]
        exact not_not.mp hroom
  · rintro ⟨head, rfl, hhead, hh, hlen, hroom⟩
    simp only at hh hlen hroom
    have hsame : headerOf e (head ++ (body ++ r)) = h := by
      rw [hh, headerOf, headerOf, ← hhead, List.take_left', List.take_length]
      rfl
    rw [hsame, if_neg (by simp [hhead]), if_neg (by omega),
      if_neg (by simp only [List.length_append]; omega)]
    have hdrop : (head ++ (body ++ r)).drop MessageHeader.size = body ++ r :=
      List.drop_left' hhead
    rw [← List.drop_drop, hdrop, ← hlen, List.take_left' rfl, List.drop_left' rfl]

/-- The read loop as a framing of the byte stream. -/
def framing : Framing UInt8 (MessageHeader × Bytes) where
  next := next e
  shrinks := by
    intro s m r h
    obtain ⟨head, rfl, hhead, -, -, -⟩ := (next_eq_some_iff e).mp h
    have hpos : 0 < MessageHeader.size := by decide
    simp only [List.length_append]
    omega

/-- With fuel for every round, the loop decodes what the framing decodes,
whichever services are registered and whatever the reused node holds. -/
theorem readLoop_eq_decodeFuel (found : UInt16 → Bool) :
    ∀ (fuel : Nat) (recvNode : MsgNode) (s : Bytes),
      readLoop e found fuel recvNode s = (framing e).decodeFuel fuel s
  | 0, _, _ => rfl
  | fuel + 1, recvNode, s => by
      have hnext : (framing e).next s = next e s := rfl
      rw [readLoop, Framing.decodeFuel, hnext, next_eq, readNode_eq]
      by_cases hhead : s.length < MessageHeader.size
      · simp only [if_pos hhead]
      by_cases hroom : (headerOf e s).length.toNat < 2 ^ 32 - 1
      swap
      · simp only [if_neg hhead, if_pos hroom]
      by_cases hbody : s.length < MessageHeader.size + (headerOf e s).length.toNat
      · simp only [if_neg hhead, if_neg (not_not.mpr hroom), if_pos hbody]
      · simp only [if_neg hhead, if_neg (not_not.mpr hroom), if_neg hbody, nodeOf_header,
          nodeOf_text (length_bodyOf hbody), readLoop_eq_decodeFuel found fuel]

theorem decode_eq_decodeAll (found : UInt16 → Bool) (s : Bytes) :
    decode e found s = (framing e).decodeAll s :=
  readLoop_eq_decodeFuel e found s.length {} s

/-! ## The two laws of the codec -/

/-- The message as it arrives: the header's length is the length of the body. -/
def delivered (m : MessageHeader × Bytes) : MessageHeader × Bytes :=
  ({ m.1 with length := UInt32.ofNat m.2.length }, m.2)

theorem toNat_delivered_length {m : MessageHeader × Bytes} (h : m.2.length < 2 ^ 32 - 1) :
    (delivered m).1.length.toNat = m.2.length := by
  rw [delivered, UInt32.toNat_ofNat']
  exact Nat.mod_eq_of_lt (by omega)

/-- Reading undoes `CSession::Send` in front of every continuation, also when the
two hosts differ in byte order. -/
theorem next_encode (e' : Endian) {m : MessageHeader × Bytes} (h : m.2.length < 2 ^ 32 - 1)
    (r : Bytes) : next e (encode e' m ++ r) = some (delivered m, r) := by
  refine (next_eq_some_iff e).mpr ⟨(delivered m).1.networkBytes, ?_, ?_, ?_, ?_, h⟩
  · rw [show m = (m.1, m.2) from rfl, encode_eq e' m.1 h, List.append_assoc]
    rfl
  · exact MessageHeader.length_networkBytes _
  · rw [headerOf, List.take_of_length_le (by simp),
      MessageHeader.toHost_ofMemory_networkBytes]
  · exact (toNat_delivered_length h).symm

/-- What was read off the stream is what `CSession::Send` writes for it. -/
theorem encode_next (e' : Endian) {s r : Bytes} {m : MessageHeader × Bytes}
    (h : next e s = some (m, r)) : encode e' m ++ r = s := by
  obtain ⟨head, rfl, hhead, hh, hlen, hroom⟩ := (next_eq_some_iff e).mp h
  have hlength : UInt32.ofNat m.2.length = m.1.length := by
    rw [hlen]
    exact UInt32.ofNat_toNat
  have hbytes : m.1.networkBytes = head := by
    rw [hh, headerOf, List.take_of_length_le (by omega)]
    exact MessageHeader.networkBytes_toHost_ofMemory e hhead
  rw [show m = (m.1, m.2) from rfl, encode_eq e' m.1 hroom, hlength, List.append_assoc]
  exact congrArg (· ++ (m.2 ++ r)) hbytes

/-- The tail that the loop leaves is shorter than the frame it begins, unless
its header announces the one length that `Allocate` has no room for. -/
theorem length_tail_lt {t : Bytes} (h : next e t = none)
    (hroom : MessageHeader.size ≤ t.length → (headerOf e t).length.toNat < 2 ^ 32 - 1) :
    t.length < frameSize e t := by
  rw [next_eq] at h
  by_cases hhead : t.length < MessageHeader.size
  · rw [frameSize, if_neg (by omega)]
    exact hhead
  rw [if_neg hhead, if_neg (not_not.mpr (hroom (by omega)))] at h
  by_cases hbody : t.length < MessageHeader.size + (headerOf e t).length.toNat
  · rw [frameSize, if_pos (by omega)]
    exact hbody
  · rw [if_neg hbody] at h
    exact absurd h (by simp)

/-- **The wire format round trip.** Whatever the byte orders of the sending host
`e'` and the receiving host `e`, and whichever services are registered: a
stream of frames decodes to the messages that were sent, and a stream is made
up of the frames of its decoded messages and an incomplete tail. -/
theorem wire_round_trip (e' : Endian) (found : UInt16 → Bool) :
    (∀ ms : List (MessageHeader × Bytes), (∀ m ∈ ms, m.2.length < 2 ^ 32 - 1) →
      decode e found (ms.flatMap (encode e')) = (ms.map delivered, []) ∧
        ∀ m ∈ ms, (delivered m).1.length.toNat = m.2.length) ∧
    (∀ s : Bytes, (∀ n ∈ lengthFields e found s, n.toNat < 2 ^ 32 - 1) →
      (decode e found s).1.flatMap (encode e') ++ (decode e found s).2 = s ∧
        (decode e found s).2.length < frameSize e (decode e found s).2) := by
  constructor
  · intro ms hms
    have hall : (framing e).decodeAll (ms.flatMap (encode e') ++ []) = (ms.map delivered, []) :=
      Framing.decodeAll_flatMap ms (fun m hm => next_encode e e' (hms m hm)) Framing.next_nil
    rw [List.append_nil] at hall
    exact ⟨(decode_eq_decodeAll e found _).trans hall,
      fun m hm => toNat_delivered_length (hms m hm)⟩
  · intro s hs
    have hdec := decode_eq_decodeAll e found s
    refine ⟨?_, length_tail_lt e ?_ ?_⟩
    · rw [hdec]
      exact Framing.flatMap_decodeAll (F := framing e) (fun s m r => encode_next e e') s
    · rw [hdec]
      exact Framing.next_decodeAll_tail (F := framing e) s
    · intro hlen
      have hmem : (headerOf e (decode e found s).2).length ∈ lengthFields e found s := by
        rw [lengthFields, if_pos hlen]
        exact List.mem_append_right _ (List.mem_singleton.mpr rfl)
      exact hs _ hmem

/-- The round trip at an empty body, a body of NUL bytes and an incomplete tail. -/
theorem wire_round_trip_two_frames :
    decode .big (fun id => id = 1)
        ([(({ magic := 0x55AA, seq := 7 } : MessageHeader), []),
          ({ serviceId := 1, length := 99 }, [0, 65, 0])].flatMap (encode .little)) =
      ([({ magic := 0x55AA, seq := 7 }, []), ({ serviceId := 1, length := 3 }, [0, 65, 0])], []) ∧
    (decode .little (fun _ => false) (List.replicate 20 0)).1.flatMap (encode .big) ++
        (decode .little (fun _ => false) (List.replicate 20 0)).2 = List.replicate 20 0 := by
  have hlengths : (lengthFields .little (fun _ => false) (List.replicate 20 0)).all
      (fun n => n.toNat < 2 ^ 32 - 1) = true := by decide
  have hroom : ∀ n ∈ lengthFields .little (fun _ => false) (List.replicate 20 0),
      n.toNat < 2 ^ 32 - 1 :=
    fun n hn => of_decide_eq_true (List.all_eq_true.mp hlengths n hn)
  exact ⟨((wire_round_trip .big .little _).1 _ (by decide)).1,
    ((wire_round_trip .little .big (fun _ => false)).2 (List.replicate 20 0) hroom).1⟩

end AsioServer.Net
