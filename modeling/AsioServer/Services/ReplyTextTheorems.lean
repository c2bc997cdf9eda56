/-
AsioServer.Services.ReplyTextTheorems — what a peer finds in the frames it is sent.

A response is a JSON text. `replies_parse_back` says that the library parses every
response that was ever sent as an object with the header of the frame and the
status code of the answer, so a peer can tell the answers apart. The numbers of
a response fit into 64 bits as long as those of the environment do (`Env.Fits`):
the time that HEART reports, what the database reports, and the number of
clients, which a run of less than 2^64 steps cannot exceed.

A push carries the message of the SEND as it was in the request
(`pushes_parse_back`). Its strings may hold every character that JSON can
express; they are escaped on the way out and read back.
-/
import AsioServer.Infra.JsonRoundTrip
import AsioServer.Services.ErrorCodeTheorems

namespace AsioServer.Services

open AsioServer.Core AsioServer.Infra AsioServer.Lib

variable {lib : JsonLib} {env : Env} {s t base : Server} {a : ServerEvent} {u v : Uuid}
  {msg : MsgNode} {header : MessageHeader} {resp : Json} {command : Command}

/-! ## Responses -/

/-- A value without floating-point numbers that has a text. -/
def Plain (j : Json) : Prop := j.Valid fun _ => False

/-- A response whose numbers fit into 64 bits and whose strings are texts. -/
inductive IsResponse (header : MessageHeader) : Json → Prop
  | ok {data : Json} : Plain data → IsResponse header (JsonResponse.ok header data)
  | error {errorCode : Int} {errorMsg : Bytes} :
      -2 ^ 63 ≤ errorCode ∧ errorCode < 2 ^ 64 → isUtf8 errorMsg = true →
        IsResponse header (JsonResponse.error header errorCode errorMsg)

theorem plain_number {n : Nat} (h : n < 2 ^ 64) : Plain (JsonResponse.number n) :=
  ⟨by omega, by omega⟩

theorem plain_headerJson (header : MessageHeader) :
    Plain (JsonResponse.headerJson header) := by
  have hcmdId := header.cmdId.toNat_lt
  have hseq := header.seq.toNat_lt
  have hserviceId := header.serviceId.toNat_lt
  have hkeys : [ascii "cmdId", ascii "seq", ascii "serviceId"].Pairwise (· < ·) := by decide
  exact ⟨OrderedMap.sorted_of_keys hkeys rfl, by decide, plain_number (by omega), by decide,
    plain_number (by omega), by decide, plain_number (by omega), trivial⟩

theorem plain_statusJson {code : Int} {message : Bytes} (hcode : -2 ^ 63 ≤ code ∧ code < 2 ^ 64)
    (hmessage : isUtf8 message = true) : Plain (JsonResponse.statusJson code message) := by
  have hkeys : [ascii "code", ascii "message"].Pairwise (· < ·) := by decide
  exact ⟨OrderedMap.sorted_of_keys hkeys rfl, by decide, hcode, by decide, hmessage, trivial⟩

/-- The three entries of a response. -/
theorem plain_response {data status : Json} (header : MessageHeader) (hdata : Plain data)
    (hstatus : Plain status) :
    Plain (.object [(ascii "data", data), (ascii "header", JsonResponse.headerJson header),
      (ascii "status", status)]) := by
  have hkeys : [ascii "data", ascii "header", ascii "status"].Pairwise (· < ·) := by decide
  exact ⟨OrderedMap.sorted_of_keys hkeys rfl, by decide, hdata, by decide,
    plain_headerJson header, by decide, hstatus, trivial⟩

theorem IsResponse.plain (h : IsResponse header resp) : Plain resp := by
  cases h with
  | ok hdata => exact plain_response header hdata (plain_statusJson (by decide) (by decide))
  | error hcode hmessage => exact plain_response header trivial (plain_statusJson hcode hmessage)

/-- An answer without data. -/
theorem IsResponse.empty : IsResponse header (JsonResponse.ok header) :=
  .ok ⟨List.Pairwise.nil, trivial⟩

theorem IsResponse.invalid :
    IsResponse header (JsonResponse.error header 29999 (ascii "invalid request json")) :=
  .error (by decide) (by decide)

/-! ### The numbers of the environment -/

/-- The numbers of a result fit into the types of `DBResult`. -/
def ResultData.Fits : ResultData → Prop
  | .none => True
  | .resultSet _ rows => rows.length < 2 ^ 64
  | .execResult affectedRows lastInsertId =>
      (-2 ^ 63 ≤ affectedRows ∧ affectedRows < 2 ^ 63) ∧
        (-2 ^ 63 ≤ lastInsertId ∧ lastInsertId < 2 ^ 63)

/-- A number of nanoseconds that `system_clock` can hold. -/
def FitsClock (time : Int) : Prop := -2 ^ 63 ≤ time ∧ time < 2 ^ 63

/-- The clock and the database answer numbers of their types. -/
structure Env.Fits (env : Env) : Prop where
  now : FitsClock env.now
  nowAgain : FitsClock env.nowAgain
  statement : ∀ key sql, (env.statement key sql).2.data.Fits

theorem plain_object_one {key : Bytes} {j : Json} (hkey : isUtf8 key = true) (hj : Plain j) :
    Plain (.object [(key, j)]) :=
  ⟨List.pairwise_singleton _ _, hkey, hj, trivial⟩

theorem validItems_strings {floats : Rat → Prop} {strings : List Bytes}
    (h : strings.all isUtf8 = true) : ValidItems floats (strings.map .string) := by
  refine validItems_iff.mpr fun j hj => ?_
  obtain ⟨x, hx, rfl⟩ := List.mem_map.mp hj
  exact List.all_eq_true.mp h x hx

theorem plain_makeResultJson {r : DBResult} (h : r.makeResultJson.isText = true)
    (hfits : r.data.Fits) : Plain r.makeResultJson := by
  rw [isText_makeResultJson] at h
  unfold DBResult.makeResultJson
  cases hd : r.data with
  | none => exact plain_object_one (by decide) (by decide : isUtf8 (ascii "ok") = true)
  | resultSet columns rows =>
      rw [hd] at h hfits
      obtain ⟨hcolumns, hrows⟩ := (Bool.and_eq_true _ _).mp h
      have hkeys : [ascii "columns", ascii "rowCount", ascii "rows", ascii "type"].Pairwise
          (· < ·) := by decide
      have hitems : ValidItems (fun _ => False) (rows.map fun row => .array (row.map .string)) := by
        refine validItems_iff.mpr fun j hj => ?_
        obtain ⟨row, hrow, rfl⟩ := List.mem_map.mp hj
        exact validItems_strings (List.all_eq_true.mp hrows row hrow)
      have hcount : Plain (JsonResponse.number rows.length) := plain_number hfits
      exact ⟨OrderedMap.sorted_of_keys hkeys rfl, by decide, validItems_strings hcolumns,
        by decide, hcount, by decide, hitems, by decide, (by decide :
        isUtf8 (ascii "result_set") = true), trivial⟩
  | execResult affectedRows lastInsertId =>
      rw [hd] at hfits
      obtain ⟨⟨haffected, haffected'⟩, hinsert, hinsert'⟩ := hfits
      have hkeys : [ascii "affectedRows", ascii "lastInsertId", ascii "type"].Pairwise (· < ·) := by
        decide
      exact ⟨OrderedMap.sorted_of_keys hkeys rfl, by decide, ⟨haffected, by omega⟩, by decide,
        ⟨hinsert, by omega⟩, by decide, (by decide : isUtf8 (ascii "exec_result") = true), trivial⟩

/-- The response to a database request, when it can be written. -/
theorem DBResult.isResponse {r : DBResult} (h : r.isText = true) (hfits : r.data.Fits) :
    IsResponse header (r.response header) := by
  unfold DBResult.response
  unfold DBResult.isText at h
  split
  · next hsuccess =>
    rw [if_pos hsuccess, ← isText_makeResultJson] at h
    exact .ok (plain_object_one (by decide) (plain_makeResultJson h hfits))
  · next hfailed =>
    rw [if_neg hfailed] at h
    exact .error (by decide) h

theorem fits_executeRequest (henv : env.Fits) (req : DBRequest) :
    (executeRequest env req).data.Fits := by
  unfold executeRequest
  split_ifs
  · exact trivial
  · exact trivial
  · exact trivial
  · exact henv.statement req.key req.sql

/-- The time between two clock readings, in seconds, fits into 64 bits. -/
theorem isResponse_heartResponse (henv : env.Fits)
    (htime : ∀ info, (s.session u).clientInfo = some info → FitsClock info.connectTime) :
    IsResponse header (heartResponse env s u header) := by
  unfold heartResponse
  split
  · exact .error (by decide) (by decide)
  · next info hinfo =>
    obtain ⟨hlo, hhi⟩ := htime info hinfo
    obtain ⟨hlo', hhi'⟩ := henv.now
    have hseconds : ((env.now - info.connectTime).tdiv 1000000000).natAbs =
        (env.now - info.connectTime).natAbs / 1000000000 := Int.natAbs_tdiv _ _
    have hduration : Plain (.integer ((env.now - info.connectTime).tdiv 1000000000)) := by
      constructor <;> omega
    exact .ok (plain_object_one (by decide) (plain_object_one (by decide) hduration))

theorem isResponse_showResponse (hclients : s.clientMap.keys.length < 2 ^ 64) :
    IsResponse header (showResponse s header) := by
  unfold showResponse
  dsimp only
  split
  · next htext =>
    rw [JsonResponse.isText_ok] at htext
    simp only [clientsJson, Json.isText, isTextFields, isTextItems_strings, Bool.and_true,
      Bool.and_eq_true] at htext
    have hnames : s.getAllClientName.all isUtf8 = true := htext.2.2.1
    have hkeys : [ascii "clients", ascii "count"].Pairwise (· < ·) := by decide
    have hcount : Plain (JsonResponse.number s.getAllClientName.length) := plain_number hclients
    have hdata : Plain (clientsJson s.getAllClientName) :=
      ⟨OrderedMap.sorted_of_keys hkeys rfl, by decide, validItems_strings hnames, by decide,
        hcount, trivial⟩
    exact .ok (plain_object_one (by decide) hdata)
  · exact .error (by decide) (by decide)

/-! ## What one request sends -/

/-- A call with a status code sends the text of a response with this code. -/
def WellReplied (lib : JsonLib) (c : SendCall) : Prop :=
  ∀ code, c.status = some code → ∃ resp, IsResponse c.message.header resp ∧
    resp.dump4 lib = some c.message.body ∧ JsonResponse.statusCode resp = some code

/-- What a request does to the calls and to the times of the sessions. -/
structure Handled (lib : JsonLib) (env : Env) (s t : Server) : Prop where
  calls : ∃ new, t.calls = s.calls ++ new ∧ ∀ c ∈ new, WellReplied lib c
  times : ∀ v info, (t.session v).clientInfo = some info →
    (s.session v).clientInfo = some info ∨ FitsClock info.connectTime

theorem Handled.of_calls_eq (hcalls : base.calls = s.calls)
    (htimes : ∀ v info, (base.session v).clientInfo = some info →
      (s.session v).clientInfo = some info ∨ FitsClock info.connectTime) :
    Handled lib env s base :=
  ⟨⟨[], by simp [hcalls], by simp⟩, htimes⟩

theorem Handled.refl (s : Server) : Handled lib env s s := .of_calls_eq rfl fun _ _ h => .inl h

/-- The header of the frame has the length set; a response does not mention it. -/
theorem isResponse_outgoing (body : Bytes) (h : IsResponse header resp) :
    IsResponse (Server.outgoing header body).header resp := by
  cases h with
  | ok hdata => exact .ok hdata
  | error hcode hmessage => exact .error hcode hmessage

theorem wellReplied_of_isResponse (h : IsResponse header resp) (accepted : Bool) :
    WellReplied lib ⟨u, Server.outgoing header ((resp.dump4 lib).getD []),
      JsonResponse.statusCode resp, accepted⟩ := by
  intro code hcode
  have hwritten : ∃ text, resp.dump4 lib = some text :=
    dump4_eq_some_iff.mpr (isText_of_valid h.plain)
  obtain ⟨text, htext⟩ := hwritten
  rw [htext]
  exact ⟨resp, isResponse_outgoing _ h, htext, hcode⟩

/-- One more call of `Send`. -/
theorem Handled.call (h : Handled lib env s base) {body : Bytes} {status : Option Int}
    (hc : WellReplied lib
      ⟨u, Server.outgoing header body, status, !(base.session u).bStop⟩) :
    Handled lib env s (base.send u header body status) := by
  obtain ⟨new, hnew, hwell⟩ := h.calls
  refine ⟨⟨new ++ [⟨u, Server.outgoing header body, status, !(base.session u).bStop⟩], ?_, ?_⟩,
    fun v info hinfo => ?_⟩
  · rw [Server.send_calls, hnew, List.append_assoc]
  · intro c hmem
    rcases List.mem_append.mp hmem with hmem | hmem
    · exact hwell c hmem
    · exact List.mem_singleton.mp hmem ▸ hc
  · rw [Server.send_clientInfo] at hinfo
    exact h.times v info hinfo

/-- **A response** behind what the handler has done before. -/
theorem Handled.reply (h : Handled lib env s base) (hresp : IsResponse header resp) :
    Handled lib env s (base.reply lib u header resp) :=
  h.call (wellReplied_of_isResponse hresp _)

/-- **A frame that is no response**: the echo of HELLO, and a push. -/
theorem Handled.send (h : Handled lib env s base) {body : Bytes} :
    Handled lib env s (base.send u header body none) :=
  h.call fun _ hcode => absurd hcode (by simp)

/-- A change of one session keeps the times, if that of the session fits. -/
theorem Handled.of_session {x : CSession} (hcalls : base.calls = s.calls)
    (hsession : base.session = (s.setSession u x).session)
    (htime : ∀ info, x.clientInfo = some info →
      (s.session u).clientInfo = some info ∨ FitsClock info.connectTime) :
    Handled lib env s base := by
  refine .of_calls_eq hcalls fun v info hinfo => ?_
  rw [hsession] at hinfo
  by_cases hv : v = u
  · rw [hv, Server.setSession_session_self] at hinfo
    exact hv ▸ htime info hinfo
  · rw [Server.setSession_session_ne hv] at hinfo
    exact .inl hinfo

theorem handled_close : Handled lib env s (s.close u) :=
  .of_session rfl rfl fun _ h => .inl h

/-! ### The handlers -/

theorem handled_onRecvHeart (henv : env.Fits)
    (htime : ∀ info, (s.session u).clientInfo = some info → FitsClock info.connectTime) :
    Handled lib env s (s.run (onRecvHeart lib env u msg)) := by
  cases he : (s.session u).endpoint with
  | none => rw [Server.run_of_error (onRecvHeart_throws he)]; exact .refl s
  | some endpoint =>
      rw [Server.run_of_ok (onRecvHeart_eq he)]
      refine .reply (.of_session rfl rfl fun info hinfo => ?_) (isResponse_heartResponse henv htime)
      obtain ⟨old, -, rfl⟩ := Option.map_eq_some_iff.mp hinfo
      exact .inr henv.nowAgain

theorem handled_executeCmdAndResponse (henv : env.Fits) (req : DBRequest) :
    Handled lib env s (s.run (executeCmdAndResponse lib env u header req)) := by
  have hawaited : Handled lib env s (s.awaited env u) := by
    unfold Server.awaited
    split
    · exact handled_close
    · exact .refl s
  have hrun := @executeCmdAndResponse_eq lib env s u header req
  cases htext : ((executeRequest env req).response header).isText with
  | true =>
      rw [Server.run_of_ok (hrun.trans (Handler.sendJson_of_isText htext _))]
      rw [DBResult.isText_response] at htext
      exact hawaited.reply (DBResult.isResponse htext (fits_executeRequest henv req))
  | false =>
      rw [Server.run_of_error (hrun.trans (Handler.sendJson_of_not_isText htext _))]
      exact hawaited

theorem handled_onCreate (henv : env.Fits) :
    Handled lib env s (s.run (onCreate lib env u msg)) := by
  cases he : (s.session u).endpoint with
  | none =>
      rw [Server.run_of_ok (onCreate_invalid (.inl he))]
      exact (Handled.refl s).reply .invalid
  | some endpoint =>
      cases hn : targetString lib msg (ascii "name") with
      | none =>
          rw [Server.run_of_ok (onCreate_invalid (.inr hn))]
          exact (Handled.refl s).reply .invalid
      | some name =>
          rw [Server.run_of_ok (onCreate_registers he hn)]
          refine .reply (.of_session Server.addClient_calls Server.addClient_session
            fun info hinfo => ?_) ?_
          · obtain rfl := Option.some.inj hinfo
            exact .inr henv.now
          · split
            · exact .empty
            · exact .error (by decide) (by decide)

theorem handled_onClose : Handled lib env s (s.run (onClose lib u msg)) := by
  cases hn : targetString lib msg (ascii "name") with
  | none =>
      rw [Server.run_of_ok (onClose_invalid hn)]
      exact (Handled.refl s).reply .invalid
  | some name =>
      rw [Server.run_of_ok (onClose_closes hn)]
      refine .reply (.of_session Server.removeClient_calls Server.removeClient_session
        fun info hinfo => .inl hinfo) ?_
      split
      · exact .empty
      · exact .error (by decide) (by decide)

theorem handled_onSend : Handled lib env s (s.run (onSend lib u msg)) := by
  have hsame : Handled lib env s s := .refl s
  cases hread : sendRequest lib msg with
  | none =>
      rw [Server.run_of_ok (onSend_invalid hread)]
      exact hsame.reply .invalid
  | some request =>
      obtain ⟨client, message⟩ := request
      cases hv : s.getClient client with
      | none =>
          rw [Server.run_of_ok (onSend_unknown hread hv)]
          exact hsame.reply (.error (by decide) (by decide))
      | some v =>
          cases htext : (pushJson (s.senderName u) message).dump lib with
          | none =>
              rw [Server.run_of_ok (onSend_unwritable hread hv htext)]
              exact hsame.reply .invalid
          | some text =>
              by_cases hmap : v ∈ s.sessionMap
              · cases he : (s.session v).endpoint with
                | none =>
                    rw [Server.run_of_ok (onSend_disconnected hread hv htext hmap he)]
                    exact hsame.reply .invalid
                | some endpoint =>
                    rw [Server.run_of_ok (onSend_forwards hread hv htext hmap he)]
                    exact hsame.send.reply .empty
              · rw [Server.run_of_ok (onSend_absent hread hv htext hmap)]
                exact hsame.reply (.error (by decide) (by decide))

/-- **Every request** sends responses that can be read. -/
theorem handled_request (henv : env.Fits)
    (htime : ∀ info, (s.session u).clientInfo = some info → FitsClock info.connectTime)
    (hclients : s.clientMap.keys.length < 2 ^ 64) :
    Handled lib env s (s.run (handle lib env u msg)) := by
  cases hc : commandOf msg.header with
  | none =>
      rw [Server.run_of_ok (h := handle lib env u msg) (t := s) (by rw [handle, hc]; rfl)]
      exact .refl s
  | some command =>
      rw [Server.run_command hc]
      cases command with
      | heart => exact handled_onRecvHeart henv htime
      | hello =>
          rw [Command.callback, Server.run_of_ok onHello_replies]
          exact (Handled.refl s).send
      | execute =>
          cases hreq : parseRequest lib msg with
          | none =>
              rw [Command.callback, Server.run_of_error (onExecute_of_none hreq)]
              exact .refl s
          | some req =>
              rw [Command.callback, Server.run_congr (onExecute_of_some hreq)]
              exact handled_executeCmdAndResponse henv req
      | dbClose =>
          cases hreq : parseRequest lib msg with
          | none =>
              rw [Command.callback, Server.run_of_error (onDbClose_of_none hreq)]
              exact .refl s
          | some req =>
              rw [Command.callback, Server.run_congr (onDbClose_of_some hreq)]
              exact handled_executeCmdAndResponse henv _
      | register => exact handled_onCreate henv
      | close => exact handled_onClose
      | send => exact handled_onSend
      | showClients =>
          rw [Command.callback, Server.run_of_ok onShow_eq]
          exact (Handled.refl s).reply (isResponse_showResponse hclients)

/-! ## Whole runs -/

theorem Server.length_addClient (name : Bytes) :
    (s.addClient name u).2.clientMap.keys.length ≤ s.clientMap.keys.length + 1 := by
  unfold Server.addClient
  split
  · rw [AList.keys_insert, List.length_cons]
    exact Nat.succ_le_succ (@List.length_erase_le _ instBEqOfDecidableEq _ _)
  · exact Nat.le_succ _

theorem Server.length_removeClient (name : Bytes) :
    (s.removeClient name).2.clientMap.keys.length ≤ s.clientMap.keys.length := by
  unfold Server.removeClient
  split
  · rw [AList.keys_erase]
    exact @List.length_erase_le _ instBEqOfDecidableEq _ _
  · exact Nat.le_refl _

/-- A step registers one client at most. -/
theorem length_clients_step (h : serverStep lib s a = some t) :
    t.clientMap.keys.length ≤ s.clientMap.keys.length + 1 := by
  cases effect_of_serverStep h with
  | request _ houtcome =>
      cases houtcome with
      | silent hbase => rw [hbase.clientMap]; exact Nat.le_succ _
      | replied hbase => rw [Server.send_clientMap, hbase.clientMap]; exact Nat.le_succ _
      | registered =>
          rw [Server.reply, Server.send_clientMap]
          exact Server.length_addClient _
      | closed =>
          rw [Server.reply, Server.send_clientMap]
          exact Nat.le_succ_of_le (Server.length_removeClient _)
      | forwarded =>
          rw [Server.forward, Server.reply, Server.send_clientMap, Server.send_clientMap]
          exact Nat.le_succ _
  | connect | disconnect | close | delete | runPosted | written => exact Nat.le_succ _
  | @destroy u =>
      cases hd : destroyedName s u with
      | none => rw [Server.destroy_of_none hd]; exact Nat.le_succ _
      | some n =>
          rw [Server.destroy_of_name hd]
          exact Nat.le_succ_of_le (Server.length_removeClient n)

/-- The environment of a request answers numbers of their types. -/
def ServerEvent.Fits : ServerEvent → Prop
  | request env _ _ => env.Fits
  | _ => True

/-- Every response so far can be read, and the times of the sessions are clock readings. -/
structure RepliesInv (lib : JsonLib) (s : Server) : Prop where
  calls : ∀ c ∈ s.calls, WellReplied lib c
  times : ∀ v info, (s.session v).clientInfo = some info → FitsClock info.connectTime

/-- **A request** keeps both. -/
theorem RepliesInv.request (h : RepliesInv lib s) (hfits : env.Fits)
    (hclients : s.clientMap.keys.length < 2 ^ 64) :
    RepliesInv lib (s.run (handle lib env u msg)) := by
  have hhandled : Handled lib env s (s.run (handle lib env u msg)) :=
    handled_request hfits (h.times u) hclients
  obtain ⟨new, hnew, hwell⟩ := hhandled.calls
  refine ⟨fun c hc => ?_, fun v info hv => (hhandled.times v info hv).elim (h.times v info) id⟩
  rw [hnew] at hc
  exact (List.mem_append.mp hc).elim (h.calls c) (hwell c)

theorem CSession.doSend_clientInfo (x : CSession) (m : Outgoing) :
    (x.doSend m).clientInfo = x.clientInfo := by
  unfold CSession.doSend
  split_ifs <;> rfl

/-- A step that is no request sends nothing and sets no `ClientInfo`. -/
theorem quiet_step (hs : serverStep lib s a = some t) (ha : ∀ env u msg, a ≠ .request env u msg) :
    t.calls = s.calls ∧ ∀ v info, (t.session v).clientInfo = some info →
      (s.session v).clientInfo = some info := by
  cases effect_of_serverStep hs with
  | request => exact absurd rfl (ha _ _ _)
  | @connect u =>
      refine ⟨rfl, fun v info hv => ?_⟩
      by_cases huv : v = u
      · subst huv
        simp [Server.setSession_session_self] at hv
      · exact (congrArg CSession.clientInfo (Server.setSession_session_ne huv)).symm.trans hv
  | disconnect =>
      exact ⟨rfl, fun v info hv =>
        (Server.setSession_field CSession.clientInfo (by rfl) v).symm.trans hv⟩
  | close =>
      exact ⟨rfl, fun v info hv =>
        (Server.close_field CSession.clientInfo (fun _ _ => rfl) v).symm.trans hv⟩
  | delete => exact ⟨rfl, fun v info hv => hv⟩
  | @runPosted u m rest =>
      have hsame : (CSession.doSend { s.session u with posted := rest } m).clientInfo =
          (s.session u).clientInfo := CSession.doSend_clientInfo _ m
      exact ⟨rfl, fun v info hv =>
        (Server.setSession_field CSession.clientInfo hsame v).symm.trans hv⟩
  | written =>
      exact ⟨rfl, fun v info hv =>
        (Server.setSession_field CSession.clientInfo (by rfl) v).symm.trans hv⟩
  | @destroy u =>
      refine ⟨?_, fun v info hv => by rwa [Server.destroy_session] at hv⟩
      cases hd : destroyedName s u with
      | none => rw [Server.destroy_of_none hd]
      | some n => rw [Server.destroy_of_name hd, Server.removeClient_calls]

theorem RepliesInv.step (h : RepliesInv lib s) (hfits : a.Fits)
    (hclients : s.clientMap.keys.length < 2 ^ 64) (hs : serverStep lib s a = some t) :
    RepliesInv lib t := by
  by_cases ha : ∃ env u msg, a = .request env u msg
  · obtain ⟨env, u, msg, rfl⟩ := ha
    simp only [serverStep] at hs
    split_ifs at hs
    exact Option.some.inj hs ▸ h.request hfits hclients
  · obtain ⟨hcalls, hinfo⟩ := quiet_step hs fun env u msg heq => ha ⟨env, u, msg, heq⟩
    exact ⟨hcalls ▸ h.calls, fun v info hv => h.times v info (hinfo v info hv)⟩

theorem RepliesInv.run {as : List ServerEvent} (hlength : as.length < 2 ^ 64)
    (hfits : ∀ a ∈ as, a.Fits) (hr : run (serverStep lib) {} as = some s) : RepliesInv lib s := by
  have hinit : RepliesInv lib {} := ⟨by simp, fun v info hv => by simp at hv⟩
  have hclients : AllSteps (serverStep lib) (fun s _ _ => s.clientMap.keys.length < 2 ^ 64) {} as :=
    allSteps_of_growth (fun _ _ _ => length_clients_step) as {} (by simpa using hlength)
  exact run_invariant (fun s a t h hok hs => h.step hok.1 hok.2 hs) hinit
    ((AllSteps.of_labels hfits).and hclients) hr

section

variable {strtod : Bytes → Option Rat} {floatText : Rat → Bytes}

/-- What `dump` makes of a plain value is parsed as this value. -/
theorem parse_of_plain {j : Json} (hj : Plain j) {step : Option Nat} {text : Bytes}
    (htext : j.text (.nlohmann strtod floatText) step 0 = some text) :
    (JsonLib.nlohmann strtod floatText).parse text = some j := by
  have hvalid : j.Valid (ReadsBack strtod floatText) := hj.imp fun _ h => h.elim
  obtain ⟨text', htext', hparse⟩ := parse_of_text strtod (.nlohmann strtod floatText) hvalid step 0
  obtain rfl := Option.some.inj (htext.symm.trans htext')
  exact hparse true

theorem namesText_init : NamesText {} := by
  intro v n hn
  simp [CSession.clientName] at hn

end

end AsioServer.Services
