/-
AsioServer.Services.DeliveryTheorems — an acknowledged message is a queued one.

For each session the RECV frames are kept in a ledger: a SEND that is answered
with code 0 takes the frame in, the `DoSend` closure that is posted holds it,
and the `DoSend` that puts it in the send queue gives it out. A ledger that
balances says that the frames queued so far, followed by those still posted, are
those acknowledged so far: no frame is lost, no frame is queued twice or without
an acknowledgement, and none overtakes another.

`acknowledged_is_queued_iff` says for which runs that holds, for every order of
the steps between the answer and the `DoSend`.
-/
import AsioServer.Lib.Ledger
import AsioServer.Services.RequestTheorems

namespace AsioServer.Services

open AsioServer.Core AsioServer.Infra AsioServer.Lib

variable {lib : JsonLib} {env : Env} {s t : Server} {a : ServerEvent} {u v w : Uuid}
  {msg : MsgNode}

/-! ## The ledger of a session -/

/-- The RECV frames among some messages. -/
def pushes (messages : List Outgoing) : List Outgoing :=
  messages.filter fun m => isPush m.header

@[simp] theorem pushes_nil : pushes [] = [] := rfl

@[simp] theorem pushes_append (l₁ l₂ : List Outgoing) :
    pushes (l₁ ++ l₂) = pushes l₁ ++ pushes l₂ :=
  List.filter_append l₁ l₂

/-- The RECV frames for a session that a step acknowledges: that of a SEND which
is answered with code 0. -/
def acknowledged (lib : JsonLib) (v : Uuid) (s : Server) (a : ServerEvent) (t : Server) :
    List Outgoing :=
  match a with
  | .request _ u msg =>
      if commandOf msg.header = some .send ∧ (t.calls.drop s.calls.length).any
          (fun c => c.session == u && c.status == some 0) then
        match sendRequest lib msg with
        | some (client, message) =>
            if s.getClient client = some v then
              [Server.outgoing (forwardHeader msg.header)
                (((pushJson (s.senderName u) message).dump lib).getD [])]
            else []
        | none => []
      else []
  | _ => []

/-- The RECV frames that a step puts in the send queue of a session. -/
def queued (v : Uuid) (s : Server) (_ : ServerEvent) (t : Server) : List Outgoing :=
  pushes ((t.session v).sendQue.drop (s.session v).sendQue.length)

/-- The ledger of a session. -/
def deliveries (lib : JsonLib) (v : Uuid) : Ledger Server ServerEvent Outgoing where
  held s := pushes (s.session v).posted
  taken := acknowledged lib v
  given := queued v

/-! ## What is posted and queued -/

/-- Sessions in the map exist, and only those that exist have something posted. -/
structure PostedInv (s : Server) : Prop where
  mapped : s.sessionMap ⊆ s.live
  posted : ∀ v, v ∉ s.live → (s.session v).posted = []

/-- A SEND that finds an open recipient; a `DoSend` of a RECV frame that finds the
session open and its queue not full. -/
def Delivers (lib : JsonLib) (s : Server) (a : ServerEvent) (_ : Server) : Prop :=
  match a with
  | .request _ u msg => ∀ v text, Forwards lib s u msg v text → (s.session v).bStop = false
  | .runPosted u => ∀ m rest, (s.session u).posted = m :: rest → isPush m.header = true →
      (s.session u).bStop = false ∧ (s.session u).sendQue.length < maxSendQueLen
  | _ => True

theorem Server.send_sendQue {header : MessageHeader} {body : Bytes} {status : Option Int}
    (w : Uuid) : ((s.send u header body status).session w).sendQue = (s.session w).sendQue :=
  Server.send_field CSession.sendQue (fun _ _ => rfl) w

/-- A reply posts no push. -/
theorem Server.pushes_send {header : MessageHeader} {body : Bytes} {status : Option Int}
    (h : isPush header = false) (w : Uuid) :
    pushes ((s.send u header body status).session w).posted = pushes (s.session w).posted := by
  have hnot : isPush (Server.outgoing header body).header = false := h
  rw [Server.send_posted, pushes_append]
  split <;> simp [pushes, hnot]

/-- What a forwarding posts to a session. -/
theorem Forwards.pushes_posted {text : Bytes} (h : Forwards lib s u msg v text) (w : Uuid) :
    pushes ((s.forward lib u msg.header v text).session w).posted =
      pushes (s.session w).posted ++
        (if w = v ∧ (s.session v).bStop = false then
          [Server.outgoing (forwardHeader msg.header) text] else []) := by
  have hpush : isPush (Server.outgoing (forwardHeader msg.header) text).header = true :=
    isPush_forwardHeader (serviceId_of_commandOf h.command)
  rw [Server.forward, Server.reply, Server.pushes_send (isPush_of_commandOf h.command),
    Server.send_posted, pushes_append]
  split <;> simp [pushes, hpush]

/-- A forwarding is acknowledged, to its recipient's ledger. -/
theorem Forwards.acknowledged_eq {text : Bytes} (h : Forwards lib s u msg v text) (w : Uuid) :
    acknowledged lib w s (.request env u msg) (s.forward lib u msg.header v text) =
      if w = v then [Server.outgoing (forwardHeader msg.header) text] else [] := by
  obtain ⟨client, message, hread, hv, htext⟩ := h.request
  have hanswered : ((s.forward lib u msg.header v text).calls.drop s.calls.length).any
      (fun c => c.session == u && c.status == some 0) = true := by
    rw [Server.newCalls_forward]
    simp
  rw [acknowledged, if_pos ⟨h.command, hanswered⟩, hread]
  simp only [hv, htext, Option.getD_some, Option.some.injEq]
  simp only [eq_comm]

/-- No other request is acknowledged. -/
theorem Answers.acknowledged_eq {base : Server} (h : Answers lib s u msg base t) (w : Uuid) :
    acknowledged lib w s (.request env u msg) t = [] := by
  rw [acknowledged, if_neg]
  rintro ⟨hsend, hanswered⟩
  obtain ⟨hprepared, ⟨hnot, -⟩ | ⟨header, body, status, -, hstatus, rfl⟩⟩ := h
  · exact hnot hsend
  · rw [Server.newCalls_send hprepared.calls] at hanswered
    simp [(hstatus hsend).1] at hanswered

/-! ## One step -/

theorem queued_of_eq (h : (t.session w).sendQue = (s.session w).sendQue) :
    queued w s a t = [] := by
  rw [queued, h, List.drop_length]
  rfl

/-- A step that leaves a session's queues alone and acknowledges nothing to it
balances. -/
theorem balances_of_eq (hq : (t.session w).sendQue = (s.session w).sendQue)
    (hp : pushes (t.session w).posted = pushes (s.session w).posted)
    (ha : acknowledged lib w s a t = []) : (deliveries lib w).Balances s a t := by
  simp only [Ledger.Balances, deliveries, queued_of_eq hq, hp, ha, List.nil_append,
    List.append_nil]

theorem Answers.balances {base : Server} (h : Answers lib s u msg base t) (w : Uuid) :
    (deliveries lib w).Balances s (.request env u msg) t := by
  have ha : acknowledged lib w s (.request env u msg) t = [] := h.acknowledged_eq w
  obtain ⟨hprepared, ⟨-, rfl⟩ | ⟨header, body, status, hheader, -, rfl⟩⟩ := h
  · exact balances_of_eq (hprepared.sendQue w) (by rw [hprepared.posted w]) ha
  · refine balances_of_eq ?_ ?_ ha
    · rw [Server.send_sendQue, hprepared.sendQue w]
    · rw [Server.pushes_send hheader, hprepared.posted w]

/-- **A forwarding** balances exactly if its recipient is open. -/
theorem Forwards.balances_iff {text : Bytes} (h : Forwards lib s u msg v text) :
    (∀ w, (deliveries lib w).Balances s (.request env u msg)
      (s.forward lib u msg.header v text)) ↔ (s.session v).bStop = false := by
  have hq : ∀ w, queued w s (.request env u msg) (s.forward lib u msg.header v text) = [] := by
    intro w
    refine queued_of_eq ?_
    rw [Server.forward, Server.reply, Server.send_sendQue, Server.send_sendQue]
  simp only [Ledger.Balances, deliveries, hq, h.pushes_posted, h.acknowledged_eq, List.nil_append,
    List.append_cancel_left_eq]
  constructor
  · intro hall
    have hv := hall v
    cases hb : (s.session v).bStop with
    | false => rfl
    | true => simp [hb] at hv
  · intro hb w
    simp [hb]

/-- **A request** balances exactly if it delivers. -/
theorem RequestOutcome.balances_iff (h : RequestOutcome lib s u msg t) :
    (∀ w, (deliveries lib w).Balances s (.request env u msg) t) ↔
      Delivers lib s (.request env u msg) t := by
  obtain ⟨v, text, hforwards, rfl⟩ | ⟨base, hanswers⟩ := h.forwards_or_answers
  · rw [hforwards.balances_iff]
    constructor
    · intro hopen v' text' hforwards'
      exact hforwards.unique hforwards' ▸ hopen
    · intro hdelivers
      exact hdelivers v text hforwards
  · exact ⟨fun _ v text hforwards => absurd hforwards hanswers.not_forwards,
      fun _ w => hanswers.balances w⟩

theorem CSession.doSend_posted (x : CSession) (m : Outgoing) : (x.doSend m).posted = x.posted := by
  unfold CSession.doSend
  split_ifs <;> rfl

theorem CSession.doSend_sendQue (x : CSession) (m : Outgoing) : (x.doSend m).sendQue =
    x.sendQue ++ (if x.bStop = false ∧ x.sendQue.length < maxSendQueLen then [m] else []) := by
  unfold CSession.doSend
  split_ifs <;> simp_all
  omega

/-- **A `DoSend`** balances exactly if it does not drop a push. -/
theorem runPosted_balances_iff {m : Outgoing} {rest : List Outgoing}
    (hposted : (s.session u).posted = m :: rest) :
    (∀ w, (deliveries lib w).Balances s (.runPosted u)
      (s.setSession u ({ s.session u with posted := rest }.doSend m))) ↔
      Delivers lib s (.runPosted u) t := by
  have hself : (deliveries lib u).Balances s (.runPosted u)
      (s.setSession u ({ s.session u with posted := rest }.doSend m)) ↔
      (isPush m.header = true →
        (s.session u).bStop = false ∧ (s.session u).sendQue.length < maxSendQueLen) := by
    simp only [Ledger.Balances, deliveries, acknowledged, queued, List.append_nil,
      Server.setSession_session_self, CSession.doSend_posted, CSession.doSend_sendQue,
      List.drop_left, hposted]
    cases hpush : isPush m.header <;> split <;> simp_all [pushes]
  rw [Delivers]
  constructor
  · intro hall m' rest' hposted' hpush
    obtain ⟨rfl, -⟩ := List.cons_eq_cons.mp (hposted.symm.trans hposted')
    exact hself.mp (hall u) hpush
  · intro hdelivers w
    by_cases hw : w = u
    · obtain rfl := hw
      exact hself.mpr (hdelivers m rest hposted)
    · have hsession := @Server.setSession_session_ne s u w
        ({ s.session u with posted := rest }.doSend m) hw
      exact balances_of_eq (by rw [hsession]) (by rw [hsession]) rfl

/-- **Every step** balances all ledgers exactly if it delivers. -/
theorem balances_step_iff (h : PostedInv s) (hs : serverStep lib s a = some t) :
    (∀ w, (deliveries lib w).Balances s a t) ↔ Delivers lib s a t := by
  cases effect_of_serverStep hs with
  | request _ houtcome => exact houtcome.balances_iff
  | runPosted hposted => exact runPosted_balances_iff hposted
  | @connect u endpoint hlive =>
      refine iff_of_true (fun w => ?_) trivial
      by_cases hw : w = u
      · obtain rfl := hw
        simp [Ledger.Balances, deliveries, acknowledged, queued, h.posted w hlive]
      · have hsession := @Server.setSession_session_ne s u w { endpoint := some endpoint } hw
        exact balances_of_eq (congrArg CSession.sendQue hsession)
          (congrArg (fun x : CSession => pushes x.posted) hsession) rfl
  | disconnect | close =>
      refine iff_of_true (fun w => ?_) trivial
      refine balances_of_eq ?_ (congrArg pushes ?_) rfl
      · exact Server.setSession_field CSession.sendQue (by rfl) w
      · exact Server.setSession_field CSession.posted (by rfl) w
  | delete => exact iff_of_true (fun w => balances_of_eq rfl rfl rfl) trivial
  | @written u m rest hque =>
      refine iff_of_true (fun w => ?_) trivial
      by_cases hw : w = u
      · obtain rfl := hw
        have hdrop : rest.drop (rest.length + 1) = [] :=
          List.drop_eq_nil_of_le (Nat.le_succ rest.length)
        simp [Ledger.Balances, deliveries, acknowledged, queued, hque, hdrop]
      · have hsession := @Server.setSession_session_ne s u w
          { s.session u with sendQue := rest } hw
        exact balances_of_eq (by rw [hsession]) (by rw [hsession]) rfl
  | destroy =>
      refine iff_of_true (fun w => ?_) trivial
      exact balances_of_eq (by rw [Server.destroy_session]) (by rw [Server.destroy_session]) rfl

/-! ## Whole runs -/

/-- A request posts only to sessions that exist. -/
theorem RequestOutcome.posted (h : RequestOutcome lib s u msg t) (hinv : PostedInv s)
    (hu : u ∈ s.live) (hw : w ∉ s.live) : (t.session w).posted = [] := by
  have hwu : w ≠ u := fun heq => hw (heq ▸ hu)
  obtain ⟨v, text, hforwards, rfl⟩ | ⟨base, hprepared, ⟨-, rfl⟩ | ⟨_, _, _, -, -, rfl⟩⟩ :=
    h.forwards_or_answers
  · have hwv : w ≠ v := fun heq => hw (heq ▸ hinv.mapped hforwards.present)
    simp [Server.forward, Server.reply, Server.send_posted, hwu, hwv, hinv.posted w hw]
  · rw [hprepared.posted w, hinv.posted w hw]
  · simp [Server.send_posted, hwu, hprepared.posted w, hinv.posted w hw]

theorem RequestOutcome.sessionMap (h : RequestOutcome lib s u msg t) :
    t.sessionMap ⊆ s.sessionMap := by
  obtain ⟨v, text, -, rfl⟩ | ⟨base, hprepared, ⟨-, rfl⟩ | ⟨_, _, _, -, -, rfl⟩⟩ :=
    h.forwards_or_answers
  · rw [Server.forward, Server.reply, Server.send_sessionMap, Server.send_sessionMap]
  · exact hprepared.sessionMap
  · rw [Server.send_sessionMap]
    exact hprepared.sessionMap

theorem PostedInv.step (h : PostedInv s) (hs : serverStep lib s a = some t) : PostedInv t := by
  cases effect_of_serverStep hs with
  | @connect u endpoint =>
      refine ⟨Finset.insert_subset_insert u h.mapped, fun v hv => ?_⟩
      rw [Finset.mem_insert, not_or] at hv
      exact (congrArg CSession.posted (Server.setSession_session_ne hv.1)).trans (h.posted v hv.2)
  | request hu houtcome =>
      refine ⟨?_, fun v hv => ?_⟩
      · rw [houtcome.live]
        exact houtcome.sessionMap.trans h.mapped
      · exact houtcome.posted h hu (houtcome.live ▸ hv)
  | disconnect | close | written =>
      refine ⟨h.mapped, fun v hv => ?_⟩
      exact (Server.setSession_field CSession.posted (by rfl) v).trans (h.posted v hv)
  | @delete u => exact ⟨(Finset.erase_subset u s.sessionMap).trans h.mapped, h.posted⟩
  | @runPosted u m rest hposted =>
      refine ⟨h.mapped, fun v hv => ?_⟩
      have hvu : v ≠ u := by
        intro heq
        rw [← heq, h.posted v hv] at hposted
        simp at hposted
      rw [Server.setSession_session_ne hvu, h.posted v hv]
  | @destroy u _ hmap hposted =>
      refine ⟨?_, fun v hv => ?_⟩
      · rw [Server.destroy_live, Server.destroy_sessionMap]
        exact Finset.subset_erase.mpr ⟨h.mapped, hmap⟩
      · rw [Server.destroy_session]
        rw [Server.destroy_live, Finset.mem_erase, not_and] at hv
        by_cases hvu : v = u
        · rw [hvu, hposted]
        · exact h.posted v (hv hvu)

/-- **An acknowledged message is queued, exactly.** At every moment of a run the
RECV frames queued for each session, followed by those whose `DoSend` is still
to run, are the ones acknowledged to their senders, if and only if every SEND
that finds its recipient finds it open and every `DoSend` of a RECV frame finds
its session open with room in the queue. -/
theorem acknowledged_is_queued_iff (lib : JsonLib) (as : List ServerEvent) :
    (∀ v bs t, bs <+: as → run (serverStep lib) {} bs = some t →
      gather (serverStep lib) (queued v) {} bs ++ pushes (t.session v).posted =
        gather (serverStep lib) (acknowledged lib v) {} bs) ↔
      AllSteps (serverStep lib) (Delivers lib) {} as := by
  have hinit : PostedInv {} := ⟨Finset.Subset.refl _, fun _ _ => rfl⟩
  have hiff : ∀ s a t, PostedInv s → serverStep lib s a = some t →
      ((∀ v, (deliveries lib v).Balances s a t) ↔ Delivers lib s a t) :=
    fun _ _ _ h hs => balances_step_iff h hs
  rw [← allSteps_congr (fun _ _ _ h hs => PostedInv.step h hs) hiff as {} hinit,
    ← allSteps_forall]
  exact forall_congr' fun v => (deliveries lib v).balances_iff as {}

/-- Session 0 is closed after a failed write but still in the map: a SEND to it
is answered with code 0, and its message is in no queue. -/
theorem message_to_closed_session_is_lost : ¬ ∀ (lib : JsonLib) (as : List ServerEvent) (t : Server)
    (v : Uuid), run (serverStep lib) {} as = some t → (t.session v).posted = [] →
      gather (serverStep lib) (queued v) {} as =
        gather (serverStep lib) (acknowledged lib v) {} as := by
  let events : List ServerEvent := [.connect 0 ⟨ascii "10.0.0.1", 50000⟩,
    .connect 1 ⟨ascii "10.0.0.2", 50001⟩,
    .request {} 0 (clientRequest Const.communicationRegister (nameBody (ascii "a"))),
    .runPosted 0, .close 0,
    .request {} 1 (clientRequest Const.communicationSend (sendBody (ascii "a")))]
  have hrun : ((run (serverStep tableLib) {} events).map fun t => (t.session 0).posted) =
      some [] := by decide +kernel
  obtain ⟨t, ht, hposted⟩ := Option.map_eq_some_iff.mp hrun
  have hqueued : (gather (serverStep tableLib) (queued 0) {} events).length = 0 := by
    decide +kernel
  have hacknowledged : (gather (serverStep tableLib) (acknowledged tableLib 0) {} events).length
      = 1 := by decide +kernel
  intro h
  have hequal := congrArg List.length (h tableLib events t 0 ht hposted)
  rw [hqueued, hacknowledged] at hequal
  exact absurd hequal (by decide)

end AsioServer.Services
