/-
AsioServer.Core.BodyBufferTheorems — for which lengths the accesses to the body
buffer stay inside.

The checked functions agree with the closed forms of `Core.Message`
(`allocateChecked_eq`, `sendNodeChecked_eq`). A length field read from the wire
is safe unless it is the largest 32-bit number, for which the sum
`bodyLen + 1` wraps to zero (`receiveSafe_iff`); a body can be sent exactly if
it is shorter than that number (`sendSafe_iff`), since a longer one is narrowed
to another length. `body_buffer_iff` puts both together.
-/
import AsioServer.Core.BodyBuffer
import AsioServer.Core.MessageTheorems

namespace AsioServer.Core

open AsioServer.Lib

@[simp] theorem length_resize (n : Nat) (bs : Bytes) : (resize n bs).length = n := by
  rw [resize, List.length_append, List.length_take, List.length_replicate]
  omega

/-- A buffer that is overwritten as a whole. -/
theorem bufWrite_all {buf bs : Bytes} (h : bs.length = buf.length) :
    bufWrite buf 0 bs = some bs := by
  rw [bufWrite_of_le (by omega), Nat.zero_add, h, List.drop_length]
  simp

namespace MsgNode

/-! ## The checked functions are the functions -/

/-- **`Allocate` leaves its buffer only with the write of the closing NUL.** -/
theorem allocateChecked_eq (len : UInt32) (node : MsgNode) :
    node.allocateChecked len = node.allocate len := by
  have hmemset : bufWrite (resize (len + 1).toNat node.body) 0
      (List.replicate (len + 1).toNat 0) = some (List.replicate (len + 1).toNat 0) :=
    bufWrite_all (by simp)
  simp only [allocateChecked, Option.bind_eq_bind, hmemset, Option.bind_some, allocate]
  split
  · next h =>
    have hnul : bufWrite (List.replicate (len + 1).toNat (0 : UInt8)) len.toNat [0] =
        some (List.replicate (len + 1).toNat 0) := by
      have hfits : len.toNat + ([0] : Bytes).length ≤
          (List.replicate (len + 1).toNat (0 : UInt8)).length := by
        rw [List.length_replicate, List.length_singleton]
        exact h
      rw [bufWrite_of_le hfits, List.take_replicate, List.drop_replicate]
      have hone : ([0] : Bytes) = List.replicate 1 0 := rfl
      simp only [hone, List.length_replicate, List.replicate_append_replicate, Option.some.injEq]
      congr 1
      omega
    rw [hnul]
    rfl
  · next h =>
    have hnul : bufWrite (List.replicate (len + 1).toNat (0 : UInt8)) len.toNat [0] = none := by
      rw [bufWrite_eq_none_iff, List.length_replicate, List.length_singleton]
      omega
    rw [hnul]
    rfl

theorem receiveBody_eq {bs : Bytes} {node : MsgNode} (h : bs.length ≤ node.body.length) :
    node.receiveBody bs = some (node.fillBody bs) := by
  rw [receiveBody, bufWrite_of_le (by omega)]
  simp [fillBody]

/-- A body of the announced length is read into a buffer that has room for it, and
is what the services see. -/
theorem receiveBody_text {bs : Bytes} {node : MsgNode} (hlen : bs.length = node.getBodyLen.toNat)
    (hle : bs.length ≤ node.body.length) :
    ∃ received, node.receiveBody bs = some received ∧ received.textChecked = some bs := by
  obtain ⟨body, hwrite⟩ : ∃ body, bufWrite node.body 0 bs = some body :=
    ⟨_, bufWrite_of_le (by omega)⟩
  have hread := bufRead_bufWrite hwrite
  rw [hlen] at hread
  exact ⟨{ node with body }, by rw [receiveBody, hwrite]; rfl, hread⟩

@[simp] theorem length_memory (e : Endian) (h : MessageHeader) :
    (h.memory e).length = MessageHeader.size := by
  simp [MessageHeader.memory, MessageHeader.size]

/-- `BuildSendBuffer` stays inside its buffers. -/
theorem buildSendBufferChecked_eq (e : Endian) (node : MsgNode) :
    node.buildSendBufferChecked e = some (node.buildSendBuffer e) := by
  simp only [buildSendBufferChecked, buildSendBuffer, Option.bind_eq_bind]
  set realLen : UInt32 := if node.body.isEmpty then 0 else UInt32.ofNat (node.body.length - 1)
    with hreal
  have hle : realLen.toNat ≤ node.body.length := by
    rw [hreal]
    split
    · exact Nat.zero_le _
    · rw [UInt32.toNat_ofNat']
      have hmod := Nat.mod_le (node.body.length - 1) (2 ^ 32)
      omega
  have hhead : bufWrite (resize (MessageHeader.size + realLen.toNat) node.sendBuf) 0
      (node.header.memory e) = some (node.header.memory e ++
        (resize (MessageHeader.size + realLen.toNat) node.sendBuf).drop MessageHeader.size) := by
    rw [bufWrite_of_le (by simp)]
    simp
  rw [hhead, Option.bind_some]
  split
  · next hpos =>
    rw [bufRead_of_le (by omega), Option.bind_some, bufWrite_of_le]
    · simp [hle]
    · simp [hle]
  · next hpos =>
    have hzero : realLen.toNat = 0 := by
      rw [UInt32.lt_iff_toNat_lt] at hpos
      simpa using hpos
    simp [hzero]

end MsgNode

/-- **`Send` leaves its buffers only in `Allocate`.** -/
theorem sendNodeChecked_eq (e : Endian) (h : MessageHeader) (body : Bytes) :
    sendNodeChecked e h body = sendNode e h body := by
  simp only [sendNodeChecked, sendNode, buildNodeChecked, buildNode, Option.bind_eq_bind,
    MsgNode.allocateChecked_eq]
  cases halloc : ({} : MsgNode).allocate (UInt32.ofNat body.length) with
  | none => rfl
  | some node =>
      simp only [Option.bind_some, MsgNode.buildSendBufferChecked_eq, Option.pure_def]
      obtain ⟨-, rfl⟩ := MsgNode.allocate_eq_some_iff.mp halloc
      have hle : (UInt32.ofNat body.length).toNat ≤ body.length := by
        rw [UInt32.toNat_ofNat']
        exact Nat.mod_le _ _
      split
      · have hcopy : ((body ++ [0]).drop 0).take (UInt32.ofNat body.length).toNat =
            body.take (UInt32.ofNat body.length).toNat := by
          rw [List.drop_zero, List.take_append_of_le_length hle]
        rw [bufRead_of_le (by simp; omega), hcopy, Option.bind_some, MsgNode.receiveBody_eq]
        · rfl
        · simp
      · rfl

/-! ## Which lengths are safe -/

/-- **A length field is safe unless it is the largest 32-bit number.** -/
theorem receiveSafe_iff (e : Endian) (raw : MessageHeader) (node : MsgNode) :
    ReceiveSafe e raw node ↔ (raw.toHost e).length.toNat < 2 ^ 32 - 1 := by
  constructor
  · intro h
    obtain ⟨allocated, halloc, -⟩ := h
    rw [MsgNode.prepareBody, MsgNode.allocateChecked_eq, MsgNode.allocate_eq_some_iff] at halloc
    exact halloc.1
  · intro hlt
    have halloc := MsgNode.allocate_of_lt hlt ({ node with header := raw }.toHost e)
    rw [← MsgNode.allocateChecked_eq] at halloc
    refine ⟨_, halloc, rfl, by simp, fun bs hbs => MsgNode.receiveBody_text hbs ?_⟩
    have hlen : bs.length = (raw.toHost e).length.toNat := hbs
    simp [hlen]

/-- **A body can be sent exactly if it is shorter than the largest 32-bit number.** -/
theorem sendSafe_iff (e : Endian) (h : MessageHeader) (body : Bytes) :
    SendSafe e h body ↔ body.length < 2 ^ 32 - 1 := by
  unfold SendSafe
  rw [sendNodeChecked_eq]
  constructor
  · intro hsafe
    obtain ⟨hlen, node, hnode, -⟩ := hsafe
    simp only [sendNode, buildNode, Option.bind_eq_bind, Option.bind_eq_some_iff] at hnode
    obtain ⟨allocated, halloc, -⟩ := hnode
    have hlt := (MsgNode.allocate_eq_some_iff.mp halloc).1
    rwa [hlen] at hlt
  · intro hlt
    have hlen : (UInt32.ofNat body.length).toNat = body.length := by
      rw [UInt32.toNat_ofNat']
      exact Nat.mod_eq_of_lt (by omega)
    refine ⟨hlen, _, sendNode_eq e h hlt, ?_⟩
    rw [MessageHeader.toHost_toNetwork]
    exact hlen

/-- **Body buffer arithmetic**: every length field below the largest 32-bit number
is safe to receive, every body shorter than that is safe to send, and no other. -/
theorem body_buffer_iff (e : Endian) :
    (∀ (raw : MessageHeader) (node : MsgNode),
      ReceiveSafe e raw node ↔ (raw.toHost e).length.toNat < 2 ^ 32 - 1) ∧
    ∀ (header : MessageHeader) (body : Bytes),
      SendSafe e header body ↔ body.length < 2 ^ 32 - 1 :=
  ⟨receiveSafe_iff e, sendSafe_iff e⟩

/-- Sixteen bytes with the length field `FF FF FF FF`: the buffer is empty and
the closing NUL is written 4 GiB behind it. -/
theorem largest_length_overflows : ¬ ∀ (e : Endian),
    (∀ (raw : MessageHeader) (node : MsgNode), ReceiveSafe e raw node) ∧
      ∀ (header : MessageHeader) (body : Bytes), SendSafe e header body := by
  intro hall
  have hsafe := (hall .little).1 { length := 0xFFFFFFFF } {}
  rw [receiveSafe_iff] at hsafe
  exact absurd hsafe (by decide)

end AsioServer.Core
