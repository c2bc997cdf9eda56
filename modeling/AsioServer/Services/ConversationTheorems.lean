/-
AsioServer.Services.ConversationTheorems — what the client of a session reads.

A session's frames come from many requests: the replies to its own, and the pushes that
the others' make. The read loop spawns a coroutine for each message, and these may handle
two of them in another order than they came in: `requestsOf` lists the requests of a session
in the order in which they are handled, `writtenTo` the frames that are written to it.

Two invariants put them together. What is written, queued and posted is in the order of the
calls of `Send` for the session (`InOrder`), and the replies among these calls are in the
order in which the requests are handled, one for each at most (`InTurn`).
`replies_in_request_order` adds the bytes: whatever part of them has arrived, the client
reads its replies in the order in which its requests were handled.
-/
import AsioServer.Net.WireOrderTheorems
import AsioServer.Services.ServerTheorems
import AsioServer.Services.RequestTheorems

namespace AsioServer.Services

open AsioServer.Core AsioServer.Infra AsioServer.Lib AsioServer.Net

/-- What a reply and its request have in common. -/
abbrev RequestKey := UInt16 × UInt32

/-- The request that a frame replies to. A push replies to none. -/
def repliesWith (header : MessageHeader) : Option RequestKey :=
  if isPush header then none else some (header.serviceId, header.seq)

/-- The request of session `u` that an event is. -/
def ServerEvent.requestOf (u : Uuid) : ServerEvent → List RequestKey
  | .request _ v msg => if v = u then [(msg.header.serviceId, msg.header.seq)] else []
  | _ => []

/-- The requests of session `u`, in the order in which they are handled. -/
def requestsOf (u : Uuid) (as : List ServerEvent) : List RequestKey :=
  as.flatMap (ServerEvent.requestOf u)

/-- The frame that a step writes to session `u`. -/
def frontWritten (u : Uuid) (s : Server) (a : ServerEvent) (_ : Server) : List Outgoing :=
  match a with
  | .written v => if v = u then (s.session u).sendQue.take 1 else []
  | _ => []

/-- The frames that a run writes to session `u`. -/
def writtenTo (lib : JsonLib) (u : Uuid) (as : List ServerEvent) : List Outgoing :=
  gather (serverStep lib) (frontWritten u) {} as

/-- The frames that `Send` was given for session `u`. -/
def Server.sentTo (s : Server) (u : Uuid) : List Outgoing :=
  (s.calls.filter fun c => c.session == u).map SendCall.message

variable {lib : JsonLib} {env : Env} {s t base : Server} {a : ServerEvent} {u v w : Uuid}
  {msg : MsgNode} {frames : List Outgoing} {past : List RequestKey}

/-! ## The frames of a session -/

theorem Server.sentTo_send {header : MessageHeader} {body : Bytes} {status : Option Int} :
    (s.send v header body status).sentTo u =
      s.sentTo u ++ (if v = u then [Server.outgoing header body] else []) := by
  rw [Server.sentTo, Server.send_calls, List.filter_append, List.map_append, Server.sentTo]
  by_cases hv : v = u <;> simp [hv]

theorem Server.sentTo_of_calls (h : t.calls = s.calls) : t.sentTo u = s.sentTo u := by
  rw [Server.sentTo, h, Server.sentTo]

theorem Server.destroy_calls : (s.destroy v).calls = s.calls := by
  cases hd : destroyedName s v with
  | none => rw [Server.destroy_of_none hd]
  | some n => rw [Server.destroy_of_name hd, Server.removeClient_calls]

/-- **What is written, queued and posted** are the frames of the session in the order of
their calls of `Send`, some of them left out. -/
def InOrder (u : Uuid) (frames : List Outgoing) (s : Server) : Prop :=
  (frames ++ (s.session u).sendQue ++ (s.session u).posted).Sublist (s.sentTo u)

/-- A step that calls no `Send` and adds nothing to the queues. -/
theorem InOrder.of_sublist {frames' : List Outgoing} (h : InOrder u frames s)
    (hcalls : t.calls = s.calls)
    (hsub : (frames' ++ (t.session u).sendQue ++ (t.session u).posted).Sublist
      (frames ++ (s.session u).sendQue ++ (s.session u).posted)) : InOrder u frames' t := by
  rw [InOrder, Server.sentTo_of_calls hcalls]
  exact hsub.trans h

theorem InOrder.of_eq (h : InOrder u frames s) (hcalls : t.calls = s.calls)
    (hque : (t.session u).sendQue = (s.session u).sendQue)
    (hposted : (t.session u).posted = (s.session u).posted) : InOrder u frames t :=
  h.of_sublist hcalls (by rw [hque, hposted])

theorem InOrder.send (h : InOrder u frames s) {header : MessageHeader} {body : Bytes}
    {status : Option Int} : InOrder u frames (s.send v header body status) := by
  have hque : ((s.send v header body status).session u).sendQue = (s.session u).sendQue :=
    Server.send_field CSession.sendQue (fun _ _ => rfl) u
  rw [InOrder, hque, Server.send_posted, Server.sentTo_send, ← List.append_assoc]
  refine List.Sublist.append h ?_
  by_cases hv : v = u
  · subst hv
    rw [if_pos rfl]
    split
    · exact .refl _
    · exact List.nil_sublist _
  · rw [if_neg hv, if_neg fun hu => hv hu.1.symm]

theorem InOrder.prepared (h : InOrder u frames s) (hbase : Prepared s base) :
    InOrder u frames base :=
  h.of_eq hbase.calls (hbase.sendQue u) (hbase.posted u)

/-- A request may call `Send` for its own session and for one other. -/
theorem InOrder.request (h : InOrder u frames s) (ht : RequestOutcome lib s v msg t) :
    InOrder u frames t := by
  obtain ⟨w, text, -, rfl⟩ | ⟨base, hprepared, ⟨-, rfl⟩ | ⟨_, _, _, -, -, rfl⟩⟩ :=
    ht.forwards_or_answers
  · exact h.send.send
  · exact h.prepared hprepared
  · exact (h.prepared hprepared).send

/-- `DoSend` moves its frame to the queue, or drops it. -/
theorem InOrder.runPosted (h : InOrder u frames s) {m : Outgoing} {rest : List Outgoing}
    (hposted : (s.session v).posted = m :: rest) :
    InOrder u frames (s.setSession v ({ s.session v with posted := rest }.doSend m)) := by
  by_cases hv : u = v
  · subst hv
    refine h.of_sublist rfl ?_
    rw [Server.setSession_session_self, hposted]
    unfold CSession.doSend
    split
    · exact (List.Sublist.refl _).append (List.sublist_cons_self m rest)
    · split
      · exact (List.Sublist.refl _).append (List.sublist_cons_self m rest)
      · simp
  · exact h.of_eq rfl (by rw [Server.setSession_session_ne hv])
      (by rw [Server.setSession_session_ne hv])

/-- A session that is connected has empty queues. -/
theorem InOrder.connect (h : InOrder u frames s) {endpoint : Endpoint}
    (hcalls : t.calls = s.calls)
    (hsession : t.session = (s.setSession v { endpoint := some endpoint }).session) :
    InOrder u frames t := by
  by_cases hv : u = v
  · subst hv
    refine h.of_sublist hcalls ?_
    rw [hsession, Server.setSession_session_self, List.append_nil, List.append_nil,
      List.append_assoc]
    exact List.sublist_append_left _ _
  · exact h.of_eq hcalls (by rw [hsession, Server.setSession_session_ne hv])
      (by rw [hsession, Server.setSession_session_ne hv])

/-- The front of the queue is written. -/
theorem InOrder.written (h : InOrder u frames s) {m : Outgoing} {rest : List Outgoing}
    (hque : (s.session v).sendQue = m :: rest) :
    InOrder u (frames ++ (if v = u then (s.session u).sendQue.take 1 else []))
      (s.setSession v { s.session v with sendQue := rest }) := by
  by_cases hv : v = u
  · subst hv
    refine h.of_sublist rfl ?_
    rw [if_pos rfl, Server.setSession_session_self, hque]
    simp
  · have hne : u ≠ v := fun hu => hv hu.symm
    rw [if_neg hv, List.append_nil]
    exact h.of_eq rfl (by rw [Server.setSession_session_ne hne])
      (by rw [Server.setSession_session_ne hne])

/-- **One step.** -/
theorem InOrder.step (h : InOrder u frames s) (hs : serverStep lib s a = some t) :
    InOrder u (frames ++ frontWritten u s a t) t := by
  have hsame : ∀ t, InOrder u frames t → InOrder u (frames ++ []) t := by simp
  cases effect_of_serverStep hs with
  | connect => exact hsame _ (h.connect rfl rfl)
  | request _ ht => exact hsame _ (h.request ht)
  | disconnect =>
      exact hsame _ (h.of_eq rfl (Server.setSession_field CSession.sendQue (by rfl) u)
        (Server.setSession_field CSession.posted (by rfl) u))
  | close => exact hsame _ (h.prepared (.close s _))
  | delete => exact hsame _ h
  | runPosted hposted => exact hsame _ (h.runPosted hposted)
  | written hque => exact h.written hque
  | destroy =>
      exact hsame _ (h.of_eq Server.destroy_calls (by rw [Server.destroy_session])
        (by rw [Server.destroy_session]))

/-! ## The replies among them -/

/-- The requests that some frames reply to. -/
def repliedTo (frames : List Outgoing) : List RequestKey :=
  frames.filterMap fun m => repliesWith m.header

/-- **The replies of a session** are in the order in which its requests were handled, one for
each at most. -/
def InTurn (u : Uuid) (past : List RequestKey) (s : Server) : Prop :=
  (repliedTo (s.sentTo u)).Sublist past

theorem repliesWith_of_isReply {header : MessageHeader} (h : IsReply msg.header header) :
    repliesWith header = some (msg.header.serviceId, msg.header.seq) := by
  rw [repliesWith, h.isPush, if_neg Bool.false_ne_true, h.serviceId, h.seq]

theorem repliedTo_send {header : MessageHeader} {body : Bytes} {status : Option Int} :
    repliedTo ((s.send v header body status).sentTo u) =
      repliedTo (s.sentTo u) ++ (if v = u then (repliesWith header).toList else []) := by
  have hkey : repliesWith (Server.outgoing header body).header = repliesWith header := rfl
  rw [repliedTo, Server.sentTo_send, List.filterMap_append, repliedTo]
  congr 1
  split
  · rw [List.filterMap_cons, hkey]
    cases repliesWith header <;> rfl
  · rfl

/-- A reply to the request, after what does not call `Send`. -/
theorem InTurn.reply (h : InTurn u past s) (hcalls : base.calls = s.calls)
    {header : MessageHeader} (hheader : IsReply msg.header header) {body : Bytes}
    {status : Option Int} :
    InTurn u (past ++ (ServerEvent.request env v msg).requestOf u)
      (base.send v header body status) := by
  rw [InTurn, repliedTo_send, Server.sentTo_of_calls hcalls, repliesWith_of_isReply hheader]
  exact List.Sublist.append h (.refl _)

/-- **A request** is answered once at most, and nothing else is a reply. -/
theorem InTurn.request (h : InTurn u past s) (ht : RequestOutcome lib s v msg t) :
    InTurn u (past ++ (ServerEvent.request env v msg).requestOf u) t := by
  cases ht with
  | silent hbase =>
      rw [InTurn, Server.sentTo_of_calls (Prepared.of_base hbase).calls]
      exact List.Sublist.trans h (List.sublist_append_left _ _)
  | replied hbase hheader => exact h.reply (Prepared.of_base hbase).calls hheader
  | registered hcommand =>
      exact h.reply (Prepared.register s v _).calls (.of_commandOf hcommand)
  | closed hcommand =>
      exact h.reply (Prepared.clientClose s v _).calls (.of_commandOf hcommand)
  | @forwarded w text hforwards =>
      have hpush : repliesWith (forwardHeader msg.header) = none := by
        rw [repliesWith, isPush_forwardHeader (serviceId_of_commandOf hforwards.command),
          if_pos rfl]
      have hpushed : InTurn u past (s.send w (forwardHeader msg.header) text none) := by
        rw [InTurn, repliedTo_send, hpush, Option.toList_none, ite_self, List.append_nil]
        exact h
      exact hpushed.reply rfl (.of_commandOf hforwards.command)

/-- **One step.** -/
theorem InTurn.step (h : InTurn u past s) (hs : serverStep lib s a = some t) :
    InTurn u (past ++ a.requestOf u) t := by
  have hsame : t.calls = s.calls → InTurn u (past ++ []) t := fun hcalls => by
    rw [InTurn, List.append_nil, Server.sentTo_of_calls hcalls]
    exact h
  cases effect_of_serverStep hs with
  | request _ ht => exact h.request ht
  | destroy => exact hsame Server.destroy_calls
  | connect | disconnect | close | delete | runPosted | written => exact hsame rfl

/-! ## The client -/

/-- The bytes that are written to session `u`. -/
def wireTo (lib : JsonLib) (e : Endian) (u : Uuid) (as : List ServerEvent) : Bytes :=
  (writtenTo lib u as).flatMap fun m => encode e (m.header, m.body)

/-- **What has arrived** are frames that `Send` was given for the session, each once at most
and in the order of the calls. -/
theorem received_in_order {as : List ServerEvent} {e e' : Endian} {found : UInt16 → Bool}
    (hr : run (serverStep lib) {} as = some s)
    (hfits : ∀ c ∈ s.calls, c.message.body.length < 2 ^ 32 - 1) {received : Bytes}
    (hreceived : received <+: wireTo lib e u as) :
    (decode e' found received).1.Sublist
      ((s.sentTo u).map fun m => delivered (m.header, m.body)) := by
  have hstart : InOrder u [] {} := .refl _
  have horder : InOrder u (writtenTo lib u as) s :=
    gather_invariant (fun _ _ _ _ h hs => h.step hs) hstart hr
  have hwritten : (writtenTo lib u as).Sublist (s.sentTo u) := by
    refine List.Sublist.trans ?_ horder
    rw [List.append_assoc]
    exact List.sublist_append_left _ _
  have hframes : ∀ m ∈ (writtenTo lib u as).map fun m => (m.header, m.body),
      m.2.length < 2 ^ 32 - 1 := by
    intro m hm
    obtain ⟨x, hx, rfl⟩ := List.mem_map.mp hm
    obtain ⟨c, hc, rfl⟩ := List.mem_map.mp (hwritten.subset hx)
    exact hfits c (List.mem_of_mem_filter hc)
  rw [wireTo, ← List.flatMap_map (fun m : Outgoing => (m.header, m.body)) (encode e)] at hreceived
  have hread : (decode e' found received).1 <+:
      (writtenTo lib u as).map fun m => delivered (m.header, m.body) := by
    have hprefix : (decode e' found received).1 <+:
        ((writtenTo lib u as).map fun m => (m.header, m.body)).map delivered :=
      decode_prefix hframes hreceived
    rwa [List.map_map] at hprefix
  exact hread.sublist.trans (hwritten.map fun m => delivered (m.header, m.body))

/-- **A client reads its replies in the order in which its requests are handled.** Whatever
the others do, and whatever part of the bytes has arrived: the client reads frames that
`Send` was given for its session, each once at most and in that order, and the replies among
them answer its requests in the order in which these were handled, each once at most. -/
theorem replies_in_request_order {as : List ServerEvent} (e e' : Endian) (found : UInt16 → Bool)
    (hr : run (serverStep lib) {} as = some s)
    (hfits : ∀ c ∈ s.calls, c.message.body.length < 2 ^ 32 - 1) {received : Bytes}
    (hreceived : received <+: wireTo lib e u as) :
    (decode e' found received).1.Sublist
        ((s.sentTo u).map fun m => delivered (m.header, m.body)) ∧
      ((decode e' found received).1.filterMap fun m => repliesWith m.1).Sublist
        (requestsOf u as) := by
  have hsent : (decode e' found received).1.Sublist
      ((s.sentTo u).map fun m => delivered (m.header, m.body)) :=
    received_in_order hr hfits hreceived
  have hstart : InTurn u [] {} := .refl _
  have hturn : InTurn u (requestsOf u as) s := by
    have hlabels := gather_invariant (fun _ _ _ _ h hs => h.step hs) hstart hr
    rwa [gather_labels hr] at hlabels
  have hreplies : (((s.sentTo u).map fun m => delivered (m.header, m.body)).filterMap
      fun m => repliesWith m.1) = repliedTo (s.sentTo u) := by
    rw [List.filterMap_map]
    rfl
  exact ⟨hsent, (hsent.filterMap _).trans (hreplies ▸ hturn)⟩

/-- A session that registers a name and asks for the list. -/
def conversation : List ServerEvent :=
  [.connect 0 ⟨ascii "10.0.0.1", 50000⟩,
    .request {} 0 (clientRequest Const.communicationRegister (nameBody (ascii "a"))),
    .runPosted 0, .request {} 0 (clientRequest Const.communicationShow []), .written 0,
    .runPosted 0, .written 0]

/-- Two requests, the second of them while the first reply is still to be written. -/
theorem replies_in_request_order_two_requests : ∃ s : Server,
    s.calls.map SendCall.status = [some 0, some 0] ∧
    ((decode .big (fun _ => false) (wireTo tableLib .little 0 conversation)).1.filterMap
      fun m => repliesWith m.1).Sublist (requestsOf 0 conversation) := by
  have hrun : ((run (serverStep tableLib) {} conversation).map fun s =>
      (s.calls.map SendCall.status,
        s.calls.all fun c => decide (c.message.body.length < 2 ^ 32 - 1))) =
        some ([some 0, some 0], true) := by decide +kernel
  obtain ⟨s, hs, hview⟩ := Option.map_eq_some_iff.mp hrun
  obtain ⟨hstatus, hsmall⟩ := Prod.mk.inj hview
  have hfits : ∀ c ∈ s.calls, c.message.body.length < 2 ^ 32 - 1 := fun c hc =>
    of_decide_eq_true (List.all_eq_true.mp hsmall c hc)
  exact ⟨s, hstatus, (replies_in_request_order .little .big (fun _ => false) hs hfits
    (List.prefix_refl _)).2⟩

end AsioServer.Services
