/-
AsioServer.Core.MessageTheorems — what the message node and the frame builder
guarantee.

`allocate_eq_some_iff` says for which lengths `MsgNode::Allocate` stays inside
its buffer (all but the largest 32-bit number) and what the node then is.
`sendNode_eq` gives the node that `CSession::Send` hands over in closed form,
and `encode_eq` the bytes of a frame: sixteen header bytes in network order,
independent of the host, then the body.

`toHost_ofMemory_networkBytes` is the header half of the round trip: the bytes
that `networkBytes` writes, read into the struct and converted, are the header
again. `networkBytes_toHost_ofMemory` is the converse on sixteen bytes.
-/
import AsioServer.Core.Message

namespace AsioServer.Core

open AsioServer.Lib

namespace MessageHeader

/-- The header as it travels: every field most significant byte first. -/
def networkBytes (h : MessageHeader) : Bytes :=
  (bytesLE 2 h.magic.toNat).reverse ++ (bytesLE 2 h.version.toNat).reverse ++
    (bytesLE 2 h.serviceId.toNat).reverse ++ (bytesLE 2 h.cmdId.toNat).reverse ++
    (bytesLE 4 h.length.toNat).reverse ++ (bytesLE 4 h.seq.toNat).reverse

@[simp] theorem length_networkBytes (h : MessageHeader) : h.networkBytes.length = size := by
  simp [networkBytes, size]

theorem toNat_swapShort (e : Endian) (x : UInt16) :
    (swapShort e x).toNat = hostToNetwork e 2 x.toNat := by
  have hx : hostToNetwork e 2 x.toNat < 256 ^ 2 := hostToNetwork_lt x.toNat_lt
  rw [swapShort, UInt16.toNat_ofNat']
  exact Nat.mod_eq_of_lt hx

theorem toNat_swapLong (e : Endian) (x : UInt32) :
    (swapLong e x).toNat = hostToNetwork e 4 x.toNat := by
  have hx : hostToNetwork e 4 x.toNat < 256 ^ 4 := hostToNetwork_lt x.toNat_lt
  rw [swapLong, UInt32.toNat_ofNat']
  exact Nat.mod_eq_of_lt hx

@[simp] theorem swapShort_swapShort (e : Endian) (x : UInt16) :
    swapShort e (swapShort e x) = x := by
  have hx : hostToNetwork e 2 (hostToNetwork e 2 x.toNat) = x.toNat :=
    networkToHost_hostToNetwork e x.toNat_lt
  apply UInt16.toNat_inj.mp
  rw [toNat_swapShort, toNat_swapShort, hx]

@[simp] theorem swapLong_swapLong (e : Endian) (x : UInt32) :
    swapLong e (swapLong e x) = x := by
  have hx : hostToNetwork e 4 (hostToNetwork e 4 x.toNat) = x.toNat :=
    networkToHost_hostToNetwork e x.toNat_lt
  apply UInt32.toNat_inj.mp
  rw [toNat_swapLong, toNat_swapLong, hx]

/-- `ToHost` undoes `ToNetwork` on every host. -/
@[simp] theorem toHost_toNetwork (e : Endian) (h : MessageHeader) :
    (h.toNetwork e).toHost e = h := by
  simp [toHost, toNetwork]

/-- On every host the memory image of a converted header is its network bytes. -/
theorem memory_toNetwork (e : Endian) (h : MessageHeader) :
    (h.toNetwork e).memory e = h.networkBytes := by
  simp only [memory, toNetwork, toNat_swapShort, toNat_swapLong, store_hostToNetwork, networkBytes]

/-- A converted two-byte field read from memory is its big-endian reading. -/
theorem swapShort_load (e : Endian) {bs : Bytes} (h : bs.length = 2) :
    (swapShort e (UInt16.ofNat (load e bs))).toNat = ofBytesLE bs.reverse := by
  have hlt : load e bs < 2 ^ 16 := by simpa [h] using load_lt e bs
  have hswap := networkToHost_load e bs
  rw [h] at hswap
  rw [toNat_swapShort, UInt16.toNat_ofNat', Nat.mod_eq_of_lt hlt]
  exact hswap

/-- A converted four-byte field read from memory is its big-endian reading. -/
theorem swapLong_load (e : Endian) {bs : Bytes} (h : bs.length = 4) :
    (swapLong e (UInt32.ofNat (load e bs))).toNat = ofBytesLE bs.reverse := by
  have hlt : load e bs < 2 ^ 32 := by simpa [h] using load_lt e bs
  have hswap := networkToHost_load e bs
  rw [h] at hswap
  rw [toNat_swapLong, UInt32.toNat_ofNat', Nat.mod_eq_of_lt hlt]
  exact hswap

/-- Writing a two-byte field that was read and converted gives back its bytes. -/
theorem bytesLE_swapShort_load (e : Endian) {bs : Bytes} (h : bs.length = 2) :
    (bytesLE 2 (swapShort e (UInt16.ofNat (load e bs))).toNat).reverse = bs := by
  have hb := bytesLE_ofBytesLE bs.reverse
  rw [List.length_reverse, h] at hb
  rw [swapShort_load e h, hb, List.reverse_reverse]

/-- Writing a four-byte field that was read and converted gives back its bytes. -/
theorem bytesLE_swapLong_load (e : Endian) {bs : Bytes} (h : bs.length = 4) :
    (bytesLE 4 (swapLong e (UInt32.ofNat (load e bs))).toNat).reverse = bs := by
  have hb := bytesLE_ofBytesLE bs.reverse
  rw [List.length_reverse, h] at hb
  rw [swapLong_load e h, hb, List.reverse_reverse]

/-- A string of sixteen bytes is the concatenation of its six field windows. -/
theorem windows_append {bs : Bytes} (h : bs.length = size) :
    bs.take 2 ++ (bs.drop 2).take 2 ++ (bs.drop 4).take 2 ++ (bs.drop 6).take 2 ++
      (bs.drop 8).take 4 ++ (bs.drop 12).take 4 = bs := by
  have h12 : (bs.drop 12).take 4 = bs.drop 12 := by
    rw [List.take_of_length_le]
    simp [h, size]
  have h8 : bs.drop 12 = (bs.drop 8).drop 4 := by simp
  have h6 : bs.drop 8 = (bs.drop 6).drop 2 := by simp
  have h4 : bs.drop 6 = (bs.drop 4).drop 2 := by simp
  have h2 : bs.drop 4 = (bs.drop 2).drop 2 := by simp
  rw [h12]
  simp only [List.append_assoc]
  rw [h8, List.take_append_drop, h6, List.take_append_drop, h4, List.take_append_drop, h2,
    List.take_append_drop, List.take_append_drop]

/-- **Sixteen bytes read into the struct and converted write back to themselves.** -/
theorem networkBytes_toHost_ofMemory (e : Endian) {bs : Bytes} (h : bs.length = size) :
    ((ofMemory e bs).toHost e).networkBytes = bs := by
  have hw := windows_append h
  have hlen : bs.length = 16 := h
  simp only [networkBytes, toHost, ofMemory]
  rw [bytesLE_swapShort_load e (by simp [hlen]), bytesLE_swapShort_load e (by simp [hlen]),
    bytesLE_swapShort_load e (by simp [hlen]), bytesLE_swapShort_load e (by simp [hlen]),
    bytesLE_swapLong_load e (by simp [hlen]), bytesLE_swapLong_load e (by simp [hlen])]
  exact hw

/-- Headers with the same network bytes are equal. -/
theorem networkBytes_injective {h k : MessageHeader} (hk : h.networkBytes = k.networkBytes) :
    h = k := by
  have short : ∀ {x y : UInt16}, (bytesLE 2 x.toNat).reverse = (bytesLE 2 y.toNat).reverse →
      x = y := by
    intro x y hxy
    have hn := congrArg ofBytesLE (List.reverse_inj.mp hxy)
    rw [ofBytesLE_bytesLE_of_lt x.toNat_lt, ofBytesLE_bytesLE_of_lt y.toNat_lt] at hn
    exact UInt16.toNat_inj.mp hn
  have long : ∀ {x y : UInt32}, (bytesLE 4 x.toNat).reverse = (bytesLE 4 y.toNat).reverse →
      x = y := by
    intro x y hxy
    have hn := congrArg ofBytesLE (List.reverse_inj.mp hxy)
    rw [ofBytesLE_bytesLE_of_lt x.toNat_lt, ofBytesLE_bytesLE_of_lt y.toNat_lt] at hn
    exact UInt32.toNat_inj.mp hn
  unfold networkBytes at hk
  obtain ⟨hk, hseq⟩ := List.append_inj' hk (by simp)
  obtain ⟨hk, hlength⟩ := List.append_inj' hk (by simp)
  obtain ⟨hk, hcmd⟩ := List.append_inj' hk (by simp)
  obtain ⟨hk, hservice⟩ := List.append_inj' hk (by simp)
  obtain ⟨hmagic, hversion⟩ := List.append_inj' hk (by simp)
  cases h; cases k
  simp only [mk.injEq]
  exact ⟨short hmagic, short hversion, short hservice, short hcmd, long hlength, long hseq⟩

/-- **The network bytes of a header, read into the struct and converted, are the
header.** -/
theorem toHost_ofMemory_networkBytes (e : Endian) (h : MessageHeader) :
    (ofMemory e h.networkBytes).toHost e = h :=
  networkBytes_injective (networkBytes_toHost_ofMemory e h.length_networkBytes)

end MessageHeader

/-! ## Allocate and the frame builder -/

namespace MsgNode

/-- The largest length is the only one for which `bodyLen + 1` overflows. -/
theorem lt_succ_toNat_iff (len : UInt32) :
    len.toNat < (len + 1).toNat ↔ len.toNat < 2 ^ 32 - 1 := by
  have hlt := len.toNat_lt
  have hadd : (len + 1).toNat = (len.toNat + 1) % 2 ^ 32 := by
    rw [UInt32.toNat_add]
    rfl
  rw [hadd]
  omega

/-- What `Allocate` makes of a node when it stays inside the buffer. -/
theorem allocate_eq_some_iff {len : UInt32} {node node' : MsgNode} :
    node.allocate len = some node' ↔ len.toNat < 2 ^ 32 - 1 ∧
      node' = { node with
        body := List.replicate (len.toNat + 1) 0
        header := { node.header with length := len } } := by
  have hadd : len.toNat < 2 ^ 32 - 1 → (len + 1).toNat = len.toNat + 1 := by
    intro h
    rw [UInt32.toNat_add]
    exact Nat.mod_eq_of_lt (by
      have hone : (1 : UInt32).toNat = 1 := rfl
      omega)
  simp only [allocate, lt_succ_toNat_iff]
  split
  · next h =>
    rw [hadd h]
    constructor
    · intro heq
      exact ⟨h, (Option.some.inj heq).symm⟩
    · rintro ⟨-, rfl⟩
      rfl
  · next h => exact ⟨fun heq => (nomatch heq), fun hlt => absurd hlt.1 h⟩

theorem allocate_of_lt {len : UInt32} (h : len.toNat < 2 ^ 32 - 1) (node : MsgNode) :
    node.allocate len = some { node with
      body := List.replicate (len.toNat + 1) 0
      header := { node.header with length := len } } :=
  allocate_eq_some_iff.mpr ⟨h, rfl⟩

theorem allocate_eq_none_iff {len : UInt32} {node : MsgNode} :
    node.allocate len = none ↔ ¬ len.toNat < 2 ^ 32 - 1 := by
  simp only [allocate, lt_succ_toNat_iff]
  split <;> simp_all

end MsgNode

/-- The node that `Send` hands over: the converted header with the length of the
body, the body with its closing NUL, and the bytes to write. -/
theorem sendNode_eq (e : Endian) (h : MessageHeader) {body : Bytes}
    (hlen : body.length < 2 ^ 32 - 1) :
    sendNode e h body = some
      { header := { h with length := UInt32.ofNat body.length }.toNetwork e
        body := body ++ [0]
        sendBuf := { h with length := UInt32.ofNat body.length }.networkBytes ++ body } := by
  have hnat : (UInt32.ofNat body.length).toNat = body.length := by
    rw [UInt32.toNat_ofNat']
    exact Nat.mod_eq_of_lt (by omega)
  have hreal : (UInt32.ofNat ((body ++ [0]).length - 1)).toNat = body.length := by
    simpa using hnat
  have hbuf : ∀ node : MsgNode, node.body = body ++ [0] →
      (node.toNetwork e).buildSendBuffer e = { node with
        header := node.header.toNetwork e
        sendBuf := node.header.networkBytes ++ body } := by
    intro node hbody
    have hne : (body ++ [0]).isEmpty = false := by simp
    simp only [MsgNode.buildSendBuffer, MsgNode.toNetwork, hbody, hne, Bool.false_eq_true,
      if_false, hreal, MessageHeader.memory_toNetwork, List.take_left']
  simp only [sendNode, buildNode, Option.bind_eq_bind,
    MsgNode.allocate_of_lt (show (UInt32.ofNat body.length).toNat < 2 ^ 32 - 1 by omega),
    Option.bind_some, hnat, Option.pure_def]
  by_cases hpos : (0 : UInt32) < UInt32.ofNat body.length
  · rw [if_pos hpos, hbuf]
    · simp [MsgNode.fillBody]
    · simp [MsgNode.fillBody]
  · have hzero : body = [] := by
      rw [UInt32.lt_iff_toNat_lt, hnat] at hpos
      exact List.length_eq_zero_iff.mp (by simpa using hpos)
    rw [if_neg hpos, hbuf]
    · simp [hzero]
    · simp [hzero]

/-- **The bytes of a frame**: the header in network order, then the body. -/
theorem encode_eq (e : Endian) (h : MessageHeader) {body : Bytes}
    (hlen : body.length < 2 ^ 32 - 1) :
    encode e (h, body) = { h with length := UInt32.ofNat body.length }.networkBytes ++ body := by
  simp [encode, sendNode_eq e h hlen]

end AsioServer.Core
