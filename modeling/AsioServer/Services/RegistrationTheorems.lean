/-
AsioServer.Services.RegistrationTheorems — what a refused REGISTER leaves behind.

A REGISTER writes two stores, first the session's `ClientInfo` and then the client
manager, and is refused in two ways. A request that cannot be read is answered with
29999 before either is written (`run_unread`). A name that is taken is answered with
20001 when the `ClientInfo` is already the one of the request (`run_taken`), so the
session speaks under a name that it did not get. `refusals_keep_iff` is the equivalence
over whole runs, `refused_registration_renames` a run where a refusal changes the session.
-/
import AsioServer.Services.RequestTheorems

namespace AsioServer.Services

open AsioServer.Core AsioServer.Infra AsioServer.Lib

variable {lib : JsonLib} {env : Env} {s t base : Server} {a : ServerEvent} {u : Uuid}
  {msg : MsgNode} {info : ClientInfo}

/-! ## The property and its condition -/

/-- The session has been sent one of the errors of a REGISTER. -/
def Refused (s t : Server) (u : Uuid) : Prop :=
  ∃ c ∈ t.calls.drop s.calls.length, c.session = u ∧
    (c.status = some 20001 ∨ c.status = some 29999)

/-- A REGISTER that is refused leaves the client manager and the session's `ClientInfo`
as they are. -/
def RefusalKeeps (s : Server) (a : ServerEvent) (t : Server) : Prop :=
  ∀ env u msg, a = .request env u msg → commandOf msg.header = some .register →
    Refused s t u →
      t.clientMap = s.clientMap ∧ (t.session u).clientInfo = (s.session u).clientInfo

/-- The `ClientInfo` that a REGISTER makes, if it can be read. -/
def registeredInfo (lib : JsonLib) (env : Env) (s : Server) (u : Uuid) (msg : MsgNode) :
    Option ClientInfo :=
  if commandOf msg.header = some .register then
    (s.session u).endpoint.bind fun endpoint =>
      (targetString lib msg (ascii "name")).map fun name =>
        { ip := endpoint.address, port := endpoint.port.toNat, name, connectTime := env.now }
  else none

/-- A REGISTER that can be read names a free name, or it makes the `ClientInfo` that the
session has. -/
def RegistersFree (lib : JsonLib) (s : Server) (a : ServerEvent) (_ : Server) : Prop :=
  ∀ env u msg info, a = .request env u msg → registeredInfo lib env s u msg = some info →
    s.clientMap.lookup info.name = none ∨ (s.session u).clientInfo = some info

/-! ## The handler -/

/-- **A REGISTER that cannot be read** is answered and nothing else happens. -/
theorem Server.run_unread (hc : commandOf msg.header = some .register)
    (h : registeredInfo lib env s u msg = none) :
    s.run (handle lib env u msg) = s.replyInvalid lib u msg.header := by
  rw [registeredInfo, if_pos hc, Option.bind_eq_none_iff] at h
  have hunread : (s.session u).endpoint = none ∨ targetString lib msg (ascii "name") = none := by
    cases he : (s.session u).endpoint with
    | none => exact .inl rfl
    | some endpoint => exact .inr (Option.map_eq_none_iff.mp (h endpoint he))
  rw [Server.run_command hc, Command.callback, Server.run_of_ok (onCreate_invalid hunread)]

/-- A REGISTER that can be read sets the `ClientInfo`, then asks the client manager. -/
theorem Server.run_read (h : registeredInfo lib env s u msg = some info) :
    s.run (handle lib env u msg) =
      (let r := (s.setClientInfo u info).addClient info.name u
       r.2.reply lib u msg.header
        (if r.1 then JsonResponse.ok msg.header
          else JsonResponse.error msg.header 20001 (ascii "client name already exists"))) := by
  unfold registeredInfo at h
  split_ifs at h with hc
  obtain ⟨endpoint, he, hmap⟩ := Option.bind_eq_some_iff.mp h
  obtain ⟨name, hn, rfl⟩ := Option.map_eq_some_iff.mp hmap
  rw [Server.run_command hc, Command.callback, Server.run_of_ok (onCreate_registers he hn)]

/-- **A REGISTER of a free name** is accepted. -/
theorem Server.run_free (h : registeredInfo lib env s u msg = some info)
    (hfree : s.clientMap.lookup info.name = none) :
    s.run (handle lib env u msg) = ((s.setClientInfo u info).addClient info.name u).2.reply lib u
      msg.header (JsonResponse.ok msg.header) := by
  have hadded : ((s.setClientInfo u info).addClient info.name u).1 = true :=
    congrArg Prod.fst (if_pos (Option.isNone_iff_eq_none.mpr hfree))
  rw [Server.run_read h]
  simp only [hadded, if_true]

/-- **A REGISTER of a taken name** is refused, and the session has its `ClientInfo`. -/
theorem Server.run_taken (h : registeredInfo lib env s u msg = some info)
    (htaken : s.clientMap.lookup info.name ≠ none) :
    s.run (handle lib env u msg) = (s.setClientInfo u info).reply lib u msg.header
      (JsonResponse.error msg.header 20001 (ascii "client name already exists")) := by
  have hkept : (s.setClientInfo u info).addClient info.name u = (false, s.setClientInfo u info) :=
    if_neg fun hfree => htaken (Option.isNone_iff_eq_none.mp hfree)
  rw [Server.run_read h, hkept]
  rfl

/-! ## Refusals -/

/-- A handler that calls `Send` for its answer only refuses by the code of the answer. -/
theorem refused_reply {header : MessageHeader} {resp : Json} (hcalls : base.calls = s.calls) :
    Refused s (base.reply lib u header resp) u ↔
      JsonResponse.statusCode resp = some 20001 ∨ JsonResponse.statusCode resp = some 29999 := by
  rw [Refused, Server.reply, Server.newCalls_send hcalls]
  simp

/-- **An accepted REGISTER** is no refusal. -/
theorem not_refused_free (h : registeredInfo lib env s u msg = some info)
    (hfree : s.clientMap.lookup info.name = none) :
    ¬ Refused s (s.run (handle lib env u msg)) u := by
  rw [Server.run_free h hfree, refused_reply (Prepared.register s u info).calls,
    JsonResponse.statusCode_ok]
  simp

theorem command_of_registeredInfo (h : registeredInfo lib env s u msg = some info) :
    commandOf msg.header = some .register := by
  unfold registeredInfo at h
  split_ifs at h with hc
  exact hc

/-- **A refusal of a name** keeps the session's `ClientInfo` exactly if the session has
the one of the request. -/
theorem taken_keeps_iff (h : registeredInfo lib env s u msg = some info)
    (htaken : s.clientMap.lookup info.name ≠ none) :
    ((s.run (handle lib env u msg)).session u).clientInfo = (s.session u).clientInfo ↔
      (s.session u).clientInfo = some info := by
  rw [Server.run_taken h htaken, Server.reply, Server.send_clientInfo,
    Server.setClientInfo_session_self]
  exact eq_comm

/-- **One REGISTER** keeps the stores, if it is refused, exactly under the condition. -/
theorem register_keeps_iff (hc : commandOf msg.header = some .register) :
    (Refused s (s.run (handle lib env u msg)) u →
      (s.run (handle lib env u msg)).clientMap = s.clientMap ∧
        ((s.run (handle lib env u msg)).session u).clientInfo = (s.session u).clientInfo) ↔
      ∀ info, registeredInfo lib env s u msg = some info →
        s.clientMap.lookup info.name = none ∨ (s.session u).clientInfo = some info := by
  cases hinfo : registeredInfo lib env s u msg with
  | none =>
      refine iff_of_true (fun _ => ?_) (by simp)
      rw [Server.run_unread hc hinfo]
      exact ⟨Server.send_clientMap, Server.send_clientInfo u⟩
  | some info =>
      simp only [Option.some.injEq, forall_eq']
      by_cases hfree : s.clientMap.lookup info.name = none
      · exact iff_of_true (fun h => absurd h (not_refused_free hinfo hfree)) (.inl hfree)
      · have hrefused : Refused s (s.run (handle lib env u msg)) u := by
          have hcalls : (s.setClientInfo u info).calls = s.calls := rfl
          rw [Server.run_taken hinfo hfree, refused_reply hcalls, JsonResponse.statusCode_error]
          exact .inl rfl
        have hmap : (s.run (handle lib env u msg)).clientMap = s.clientMap := by
          rw [Server.run_taken hinfo hfree]
          exact Server.send_clientMap
        simp only [hrefused, hmap, hfree, true_and, false_or, forall_const]
        exact taken_keeps_iff hinfo hfree

/-- **One step** keeps the stores in its refusals exactly under the condition. -/
theorem refusalKeeps_iff (h : serverStep lib s a = some t) :
    RefusalKeeps s a t ↔ RegistersFree lib s a t := by
  cases a with
  | request env u msg =>
      simp only [serverStep] at h
      split_ifs at h with hu
      obtain rfl := Option.some.inj h
      constructor
      · rintro hkeeps _ _ _ info ⟨⟩ hinfo
        have hc := command_of_registeredInfo hinfo
        exact (register_keeps_iff hc).mp (hkeeps env u msg rfl hc) info hinfo
      · rintro hfree _ _ _ ⟨⟩ hc
        exact (register_keeps_iff hc).mpr fun info => hfree env u msg info rfl
  | connect | disconnect | close | delete | runPosted | written | destroy =>
      exact iff_of_true (fun _ _ _ heq => by simp at heq) (fun _ _ _ _ heq => by simp at heq)

/-! ## Whole runs -/

/-- **A refused registration changes nothing, exactly.** From every state and for every
order of the steps: every REGISTER that is refused leaves the client manager and the
session's `ClientInfo` as they are, if and only if every REGISTER that can be read names a
name that is free at that moment, or makes the `ClientInfo` that the session has. -/
theorem refusals_keep_iff (lib : JsonLib) (s : Server) (as : List ServerEvent) :
    AllSteps (serverStep lib) RefusalKeeps s as ↔
      AllSteps (serverStep lib) (RegistersFree lib) s as := by
  have hstep : ∀ s a t, serverStep lib s a = some t →
      (RefusalKeeps s a t ↔ RegistersFree lib s a t) := fun _ _ _ => refusalKeeps_iff
  exact allSteps_of_iff hstep as s

/-- Session 1 registers the name of session 0. It is refused and has the name in its
`ClientInfo`. -/
theorem refused_registration_renames : ¬ ∀ (lib : JsonLib) (as : List ServerEvent),
    AllSteps (serverStep lib) RefusalKeeps {} as := by
  let events : List ServerEvent := [.connect 0 ⟨ascii "10.0.0.1", 50000⟩,
    .connect 1 ⟨ascii "10.0.0.2", 50001⟩,
    .request {} 0 (clientRequest Const.communicationRegister (nameBody (ascii "a")))]
  let refused : ServerEvent :=
    .request {} 1 (clientRequest Const.communicationRegister (nameBody (ascii "a")))
  have hrun : ((run (serverStep tableLib) {} events).bind fun s =>
      (serverStep tableLib s refused).map fun t =>
        ((s.session 1).clientInfo.isSome, (t.session 1).clientInfo.isSome,
          (t.calls.drop s.calls.length).any fun c =>
            c.session == 1 && c.status == some 20001)) = some (false, true, true) := by
    decide +kernel
  obtain ⟨s, hs, hrun⟩ := Option.bind_eq_some_iff.mp hrun
  obtain ⟨t, ht, hview⟩ := Option.map_eq_some_iff.mp hrun
  simp only [Prod.mk.injEq, List.any_eq_true, Bool.and_eq_true, beq_iff_eq] at hview
  obtain ⟨hbefore, hafter, c, hc, hsession, hstatus⟩ := hview
  have hnot : ¬ RefusalKeeps s refused t := by
    intro hkeeps
    obtain ⟨-, hsame⟩ := hkeeps _ 1 _ rfl (by decide +kernel) ⟨c, hc, hsession, .inl hstatus⟩
    rw [hsame, hbefore] at hafter
    exact absurd hafter (by decide)
  exact fun h => not_allSteps hs ht hnot (h tableLib (events ++ [refused]))

end AsioServer.Services
