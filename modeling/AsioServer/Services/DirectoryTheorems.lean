/-
AsioServer.Services.DirectoryTheorems — the client manager as a directory of names.

`Directory` is what the client manager is for: it knows at most one session for
each name. `Directory.step` says which answers are right: a name is granted
when nobody has it, a removal is confirmed when somebody had it, and a search
and a list answer what is there.

The history of a run is made of the requests and of the frames that `Send` is given
for them, read as a client reads them. A frame that `Send` discards counts as well, such
as the answer to a CLOSE that is confirmed. `client_manager_is_directory` says that it is
a history of one directory whose operations happen one after the other, so no client
ever sees an answer that another order of the requests would be needed for.
`push_has_consent` draws the conclusion for the recipients: whoever is sent a message
has registered the name it was sent to, and that registration has not been removed
since.
-/
import AsioServer.Lib.Ledger
import AsioServer.Services.ReplyTextTheorems

namespace AsioServer.Services

open AsioServer.Core AsioServer.Infra AsioServer.Lib

/-! ## The directory -/

/-- The session that has a name. -/
abbrev Directory := Bytes → Option Uuid

/-- An operation with the answer that it was given. -/
inductive DirectoryOp where
  | register (name : Bytes) (u : Uuid) (granted : Bool)
  | remove (name : Bytes) (confirmed : Bool)
  /-- By a destructor, which nobody is told about. -/
  | forget (name : Bytes)
  | find (name : Bytes) (found : Option Uuid)
  | list (names : List Bytes)

namespace Directory

open Classical in
/-- The directory after an operation; `none` when the answer is wrong. -/
noncomputable def step (d : Directory) : DirectoryOp → Option Directory
  | .register name u true => if d name = none then some (Function.update d name (some u)) else none
  | .register name _ false => if d name = none then none else some d
  | .remove name true => if d name = none then none else some (Function.update d name none)
  | .remove name false => if d name = none then some d else none
  | .forget name => some (Function.update d name none)
  | .find name found => if d name = found then some d else none
  | .list names => if names.Nodup ∧ ∀ n, n ∈ names ↔ d n ≠ none then some d else none

end Directory

variable {d d' : Directory} {op : DirectoryOp} {n : Bytes} {v : Uuid}

/-- The frames that a step gives to `Send`. -/
def sentBy (s t : Server) : List SendCall := t.calls.drop s.calls.length

/-- `Send` has been given an answer with the code for the session. -/
def answeredWith (s t : Server) (u : Uuid) (code : Int) : Bool :=
  (sentBy s t).any fun c => c.session == u && c.status == some code

/-- The strings of an array. -/
def stringsOf : Json → Option (List Bytes)
  | .array items => items.mapM Json.getString
  | _ => none

/-- The names that a frame lists. -/
def clientsOf (lib : JsonLib) (c : SendCall) : Option (List Bytes) :=
  (lib.parse c.message.body).bind fun resp =>
    (resp.atKey (ascii "data")).bind fun data =>
      (data.atKey (ascii "result")).bind fun result =>
        (result.atKey (ascii "clients")).bind stringsOf

/-- What a SEND tells about the name it addresses: nobody has it, or the message is on its
way to somebody. -/
def foundBy (s t : Server) (u : Uuid) (client : Bytes) : List DirectoryOp :=
  if answeredWith s t u 20002 then [.find client none]
  else
    ((sentBy s t).filter fun c => isPush c.message.header).map fun c =>
      .find client (some c.session)

/-- The operation that a request asks for, with the answer in the frames. -/
def requestOps (lib : JsonLib) (s : Server) (u : Uuid) (msg : MsgNode) (t : Server) :
    Command → List DirectoryOp
  | .register =>
      (registeredName lib s u msg).toList.map fun n => .register n u (answeredWith s t u 0)
  | .close => (closedName lib msg).toList.map fun n => .remove n (answeredWith s t u 0)
  | .send => (recipientName lib msg).toList.flatMap (foundBy s t u)
  | .showClients => ((sentBy s t).filterMap (clientsOf lib)).map .list
  | .heart | .hello | .execute | .dbClose => []

/-- The operations of a step. -/
def directoryOps (lib : JsonLib) (s : Server) (a : ServerEvent) (t : Server) :
    List DirectoryOp :=
  match a with
  | .request _ u msg => (commandOf msg.header).elim [] (requestOps lib s u msg t)
  | .destroy u => (destroyedName s u).toList.map .forget
  | _ => []

/-- The history of a run. -/
def history (lib : JsonLib) (s : Server) (as : List ServerEvent) : List DirectoryOp :=
  gather (serverStep lib) (directoryOps lib) s as

/-- The entries of the client manager. -/
def Server.directory (s : Server) : Directory := fun n => s.clientMap.lookup n

variable {lib : JsonLib} {env : Env} {s t base : Server} {a : ServerEvent} {u : Uuid}
  {msg : MsgNode} {name : Bytes} {code : Int}

/-! ## One step of the server -/

theorem directory_of_clientMap (h : t.clientMap = s.clientMap) : t.directory = s.directory := by
  unfold Server.directory
  rw [h]

theorem directory_reply {header : MessageHeader} {resp : Json} :
    (base.reply lib u header resp).directory = base.directory :=
  directory_of_clientMap Server.send_clientMap

theorem directory_addClient (hfree : s.clientMap.lookup name = none) :
    (s.addClient name u).2.directory = Function.update s.directory name (some u) := by
  funext m
  by_cases hm : m = name
  · subst hm
    rw [Function.update_self]
    exact Server.lookup_addClient_self (.inl hfree)
  · rw [Function.update_of_ne hm]
    unfold Server.directory Server.addClient
    split
    · exact AList.lookup_insert_ne hm
    · rfl

theorem removeClient_fst :
    (s.removeClient name).1 = (s.clientMap.lookup name).isSome := by
  unfold Server.removeClient
  cases (s.clientMap.lookup name).isSome <;> rfl

theorem directory_removeClient :
    (s.removeClient name).2.directory = Function.update s.directory name none := by
  funext m
  by_cases hm : m = name
  · subst hm
    rw [Function.update_self]
    exact Server.lookup_removeClient_self
  · rw [Function.update_of_ne hm]
    exact Server.lookup_removeClient_ne hm

/-- A handler that answers once answers with the code of its response. -/
theorem answeredWith_reply {header : MessageHeader} {resp : Json}
    (hcalls : base.calls = s.calls) : answeredWith s (base.reply lib u header resp) u code =
      (JsonResponse.statusCode resp == some code) := by
  rw [answeredWith, sentBy, Server.reply, Server.newCalls_send hcalls]
  simp

theorem registeredName_eq (hc : commandOf msg.header = some .register) :
    registeredName lib s u msg = (registeredInfo lib env s u msg).map ClientInfo.name := by
  rw [registeredInfo, if_pos hc, registeredName]
  cases he : (s.session u).endpoint with
  | none => simp
  | some endpoint =>
      rw [if_pos ⟨hc, rfl⟩, Option.bind_some, Option.map_map]
      cases targetString lib msg (ascii "name") <;> rfl

/-- **REGISTER.** -/
theorem directory_register (hc : commandOf msg.header = some .register) :
    let t := s.run (handle lib env u msg)
    run Directory.step s.directory
      ((registeredName lib s u msg).toList.map fun n => .register n u (answeredWith s t u 0)) =
        some t.directory := by
  intro t
  rw [@registeredName_eq lib env s u msg hc]
  cases hinfo : registeredInfo lib env s u msg with
  | none =>
      have ht : t.clientMap = s.clientMap := by
        rw [show t = s.replyInvalid lib u msg.header from Server.run_unread hc hinfo]
        exact Server.send_clientMap
      rw [directory_of_clientMap ht]
      rfl
  | some info =>
      change run Directory.step s.directory [.register info.name u (answeredWith s t u 0)] = _
      rw [run_singleton]
      by_cases hfree : s.clientMap.lookup info.name = none
      · have ht : t = _ := Server.run_free hinfo hfree
        have hmap : t.directory = Function.update s.directory info.name (some u) := by
          rw [ht, directory_reply]
          exact directory_addClient hfree
        have hanswer : answeredWith s t u 0 = true := by
          rw [ht, answeredWith_reply (Prepared.register s u info).calls]
          rfl
        rw [hanswer, hmap]
        exact if_pos hfree
      · have ht : t = _ := Server.run_taken hinfo hfree
        have hmap : t.directory = s.directory := by
          rw [ht, directory_reply]
          rfl
        have hcalls : (s.setClientInfo u info).calls = s.calls := rfl
        have hanswer : answeredWith s t u 0 = false := by
          rw [ht, answeredWith_reply hcalls]
          rfl
        rw [hanswer, hmap]
        exact if_neg hfree

/-- **CLOSE.** -/
theorem directory_close (hc : commandOf msg.header = some .close) :
    let t := s.run (handle lib env u msg)
    run Directory.step s.directory
      ((closedName lib msg).toList.map fun n => .remove n (answeredWith s t u 0)) =
        some t.directory := by
  intro t
  have hrun : t = s.run (onClose lib u msg) := Server.run_command hc
  rw [closedName, if_pos hc]
  cases hname : targetString lib msg (ascii "name") with
  | none =>
      have ht : t = _ := hrun.trans (Server.run_of_ok (onClose_invalid hname))
      have hmap : t.directory = s.directory := by
        rw [ht]
        exact directory_reply
      rw [hmap]
      rfl
  | some name =>
      have ht : t = _ := hrun.trans (Server.run_of_ok (onClose_closes hname))
      dsimp only at ht
      have hcalls : ((s.clientClose u).removeClient name).2.calls = s.calls :=
        Server.removeClient_calls
      have hmap : t.directory = Function.update s.directory name none := by
        rw [ht, directory_reply]
        exact directory_removeClient
      change run Directory.step s.directory [.remove name (answeredWith s t u 0)] = _
      rw [run_singleton, hmap]
      have hremoved : ((s.clientClose u).removeClient name).1 =
          (s.clientMap.lookup name).isSome := removeClient_fst
      rw [hremoved] at ht
      by_cases hnone : s.clientMap.lookup name = none
      · have hanswer : answeredWith s t u 0 = false := by
          rw [ht, answeredWith_reply hcalls, hnone]
          rfl
        have hsame : Function.update s.directory name none = s.directory :=
          Function.update_eq_self_iff.mpr hnone.symm
        rw [hanswer, hsame]
        exact if_pos hnone
      · have hanswer : answeredWith s t u 0 = true := by
          rw [ht, answeredWith_reply hcalls, Option.isSome_iff_ne_none.mpr hnone]
          rfl
        rw [hanswer]
        exact if_neg hnone

theorem foundBy_reply {header : MessageHeader} {resp : Json} (hheader : isPush header = false)
    (client : Bytes) : foundBy s (s.reply lib u header resp) u client =
      if JsonResponse.statusCode resp = some 20002 then [.find client none] else [] := by
  have hframe : ∀ body, isPush (Server.outgoing header body).header = false := fun _ => hheader
  rw [foundBy, answeredWith_reply rfl, sentBy, Server.reply, Server.newCalls_send rfl]
  simp [hframe]

theorem foundBy_forward {text : Bytes} (hc : commandOf msg.header = some .send)
    (client : Bytes) : foundBy s (s.forward lib u msg.header v text) u client =
      [.find client (some v)] := by
  have hpush : isPush (Server.outgoing (forwardHeader msg.header) text).header = true :=
    isPush_forwardHeader (serviceId_of_commandOf hc)
  have hanswer : ∀ body, isPush (Server.outgoing msg.header body).header = false :=
    fun _ => isPush_of_commandOf hc
  rw [foundBy, answeredWith, sentBy, Server.newCalls_forward]
  simp [hpush, hanswer]

/-- **SEND.** What it tells about the name is what the client manager knows. -/
theorem directory_send (hnames : NamesText s) (hc : commandOf msg.header = some .send) :
    let t := s.run (handle lib env u msg)
    run Directory.step s.directory ((recipientName lib msg).toList.flatMap (foundBy s t u)) =
      some t.directory := by
  intro t
  have hout : SendOutcome lib s u msg t := hnames.sendOutcome hc
  have hheader : isPush msg.header = false := isPush_of_commandOf hc
  -- an answer that is not 20002 tells nothing
  have hsilent : ∀ resp, JsonResponse.statusCode resp ≠ some 20002 →
      run Directory.step s.directory ((recipientName lib msg).toList.flatMap
        (foundBy s (s.reply lib u msg.header resp) u)) =
      some (s.reply lib u msg.header resp).directory := by
    intro resp hcode
    have hnothing : foundBy s (s.reply lib u msg.header resp) u = fun _ => [] := by
      funext client
      rw [foundBy_reply hheader, if_neg hcode]
    have hnil : (recipientName lib msg).toList.flatMap (fun _ => ([] : List DirectoryOp)) = [] := by
      simp
    rw [hnothing, hnil, directory_reply]
    rfl
  clear_value t
  cases hout with
  | malformed | absent | lost => exact hsilent _ (by simp [JsonResponse.statusCode_error])
  | @unknown client hname hclient =>
      rw [hname, Option.toList_some, List.flatMap_singleton, foundBy_reply hheader,
        if_pos (JsonResponse.statusCode_error _ _ _), run_singleton, directory_reply]
      exact if_pos hclient
  | @forwarded v text hv =>
      obtain ⟨client, hname, hclient⟩ := Option.bind_eq_some_iff.mp hv
      rw [hname, Option.toList_some, List.flatMap_singleton, foundBy_forward hc, run_singleton,
        Server.forward, directory_reply, directory_of_clientMap Server.send_clientMap]
      exact if_pos hclient

/-! ### SHOW -/

/-- The names in the client manager are UTF-8. -/
def KeysText (s : Server) : Prop := ∀ n ∈ s.getAllClientName, isUtf8 n = true

theorem mem_getAllClientName : n ∈ s.getAllClientName ↔ s.directory n ≠ none := by
  rw [Server.directory, ← Option.isSome_iff_ne_none, AList.lookup_isSome]
  exact AList.mem_keys.symm

theorem stringsOf_strings (names : List Bytes) :
    stringsOf (.array (names.map .string)) = some names := by
  have hread : (names.map Json.string).mapM Json.getString = some names := by
    induction names with
    | nil => rfl
    | cons x names ih =>
        rw [List.map_cons, List.mapM_cons, ih]
        rfl
  exact hread

/-- The answer lists the names, when they can be written. -/
theorem showResponse_of_keysText (h : KeysText s) (header : MessageHeader) :
    showResponse s header = JsonResponse.ok header
      (.object [(ascii "result", clientsJson s.getAllClientName)]) := by
  have hkeys : isUtf8 (ascii "result") = true ∧ isUtf8 (ascii "clients") = true ∧
      isUtf8 (ascii "count") = true := by decide
  refine if_pos ?_
  rw [JsonResponse.isText_ok]
  simp [Json.isText, clientsJson, isTextFields, isTextItems_strings, hkeys]
  exact h

section

variable {strtod : Bytes → Option Rat} {floatText : Rat → Bytes}

/-- **SHOW** lists what the client manager knows. -/
theorem directory_show (hkeys : KeysText s) (hclients : s.clientMap.keys.length < 2 ^ 64)
    (hc : commandOf msg.header = some .showClients) :
    let t := s.run (handle (.nlohmann strtod floatText) env u msg)
    run Directory.step s.directory
      (((sentBy s t).filterMap (clientsOf (.nlohmann strtod floatText))).map .list) =
        some t.directory := by
  intro t
  have ht : t = _ := (Server.run_command hc).trans (Server.run_of_ok onShow_eq)
  have hplain : Plain (showResponse s msg.header) :=
    (@isResponse_showResponse s msg.header hclients).plain
  have hwritten : ∃ text, (showResponse s msg.header).dump4 (.nlohmann strtod floatText) =
      some text := dump4_eq_some_iff.mpr (isText_showResponse s msg.header)
  obtain ⟨text, htext⟩ := hwritten
  have hparse : (JsonLib.nlohmann strtod floatText).parse text =
      some (showResponse s msg.header) := parse_of_plain hplain htext
  have hlisted : ∀ c : SendCall, c.message.body = text →
      clientsOf (.nlohmann strtod floatText) c = some s.getAllClientName := by
    intro c hc
    rw [clientsOf, hc, hparse, showResponse_of_keysText hkeys]
    exact stringsOf_strings s.getAllClientName
  have hnames : s.getAllClientName.Nodup ∧
      ∀ n, n ∈ s.getAllClientName ↔ s.directory n ≠ none :=
    ⟨s.clientMap.nodupKeys, fun n => mem_getAllClientName⟩
  rw [ht, sentBy, Server.reply, Server.newCalls_send rfl, List.filterMap_cons,
    hlisted _ (by rw [Server.outgoing, htext]; rfl), List.filterMap_nil]
  rw [List.map_singleton, run_singleton, directory_of_clientMap Server.send_clientMap]
  exact if_pos hnames

end

/-! ## Every step -/

/-- An entry after a step was there before, or it is registered by the step. -/
theorem lookup_of_step (hs : serverStep lib s a = some t)
    (hn : t.clientMap.lookup n = some v) : s.clientMap.lookup n = some v ∨
      ∃ env u msg, a = .request env u msg ∧ registeredName lib s u msg = some n := by
  cases effect_of_serverStep hs with
  | @request env u msg _ _ hout =>
      cases hout with
      | silent hbase => exact .inl (by rwa [← hbase.clientMap])
      | replied hbase =>
          rw [Server.send_clientMap, hbase.clientMap] at hn
          exact .inl hn
      | registered _ hname =>
          rw [Server.reply, Server.send_clientMap] at hn
          obtain hold | ⟨rfl, -⟩ := Server.lookup_of_addClient hn
          · exact .inl hold
          · exact .inr ⟨env, u, msg, rfl, hname⟩
      | closed =>
          rw [Server.reply, Server.send_clientMap] at hn
          have hkept := Server.lookup_of_removeClient hn
          exact .inl hkept
      | forwarded =>
          rw [Server.forward, Server.reply, Server.send_clientMap, Server.send_clientMap] at hn
          exact .inl hn
  | connect | disconnect | close | delete | runPosted | written => exact .inl hn
  | destroy => exact .inl (Server.lookup_of_destroy hn)

theorem KeysText.step (h : KeysText s) (hs : serverStep lib s a = some t) : KeysText t := by
  intro n hn
  obtain ⟨v, hv⟩ := Option.ne_none_iff_exists'.mp (mem_getAllClientName.mp hn)
  obtain hold | ⟨env, u, msg, -, hname⟩ := lookup_of_step hs hv
  · exact h n (mem_getAllClientName.mpr (Option.ne_none_iff_exists'.mpr ⟨v, hold⟩))
  · exact isUtf8_of_registeredName hname

/-- A request that is none of the directory's leaves it alone. -/
theorem directory_other (h : ∀ command, commandOf msg.header = some command →
      command ≠ .register ∧ command ≠ .close) :
    (s.run (handle lib env u msg)).directory = s.directory := by
  have hout : RequestOutcome lib s u msg (s.run (handle lib env u msg)) := outcome_request
  generalize s.run (handle lib env u msg) = t at hout
  refine directory_of_clientMap ?_
  cases hout with
  | silent hbase => exact hbase.clientMap
  | replied hbase => rw [Server.send_clientMap, hbase.clientMap]
  | registered hc => exact absurd rfl (h _ hc).1
  | closed hc => exact absurd rfl (h _ hc).2
  | forwarded => rw [Server.forward, Server.reply, Server.send_clientMap, Server.send_clientMap]

section

variable {strtod : Bytes → Option Rat} {floatText : Rat → Bytes}

/-- **A request** is an operation of the directory with the right answer, or none. -/
theorem directory_request (hnames : NamesText s) (hkeys : KeysText s)
    (hclients : s.clientMap.keys.length < 2 ^ 64) :
    let lib : JsonLib := .nlohmann strtod floatText
    run Directory.step s.directory
      (directoryOps lib s (.request env u msg) (s.run (handle lib env u msg))) =
        some (s.run (handle lib env u msg)).directory := by
  intro lib
  have hother : (∀ command, commandOf msg.header = some command →
      command ≠ .register ∧ command ≠ .close) →
      run Directory.step s.directory [] = some (s.run (handle lib env u msg)).directory :=
    fun h => congrArg some (directory_other h).symm
  change run Directory.step s.directory ((commandOf msg.header).elim []
    (requestOps lib s u msg (s.run (handle lib env u msg)))) = _
  cases hc : commandOf msg.header with
  | none => exact hother (by simp [hc])
  | some command =>
      cases command with
      | register => exact directory_register hc
      | close => exact directory_close hc
      | send => exact directory_send hnames hc
      | showClients => exact directory_show hkeys hclients hc
      | heart | hello | execute | dbClose => exact hother (by simp [hc])

theorem directory_destroy : run Directory.step s.directory
    ((destroyedName s u).toList.map .forget) = some (s.destroy u).directory := by
  cases hname : destroyedName s u with
  | none => rw [Server.destroy_of_none hname]; rfl
  | some name =>
      rw [Server.destroy_of_name hname, directory_removeClient]
      exact run_singleton _ _ _

/-- **Every step.** -/
theorem directory_step (hnames : NamesText s) (hkeys : KeysText s)
    (hclients : s.clientMap.keys.length < 2 ^ 64)
    (hs : serverStep (.nlohmann strtod floatText) s a = some t) :
    run Directory.step s.directory (directoryOps (.nlohmann strtod floatText) s a t) =
      some t.directory := by
  cases a with
  | request env u msg =>
      simp only [serverStep] at hs
      split_ifs at hs
      obtain rfl := Option.some.inj hs
      exact directory_request hnames hkeys hclients
  | destroy u =>
      simp only [serverStep] at hs
      split_ifs at hs
      obtain rfl := Option.some.inj hs
      exact directory_destroy
  | connect | disconnect | close | delete | runPosted | written =>
      refine congrArg some (directory_of_clientMap ?_).symm
      cases effect_of_serverStep hs
      rfl

/-- The history of a run takes the empty directory to the entries of the client manager. -/
theorem run_history {as : List ServerEvent} (hlength : as.length < 2 ^ 64)
    (hr : run (serverStep (.nlohmann strtod floatText)) {} as = some s) :
    run Directory.step (fun _ => none) (history (.nlohmann strtod floatText) {} as) =
      some s.directory := by
  have hclients : AllSteps (serverStep (.nlohmann strtod floatText))
      (fun s _ _ => s.clientMap.keys.length < 2 ^ 64) {} as :=
    allSteps_of_growth (fun _ _ _ => length_clients_step) as {} (by simpa using hlength)
  have hinit : NamesText {} ∧ KeysText {} := by
    refine ⟨namesText_init, fun n hn => ?_⟩
    simp [Server.getAllClientName] at hn
  have hstep : ∀ s a t, NamesText s ∧ KeysText s → s.clientMap.keys.length < 2 ^ 64 →
      serverStep (.nlohmann strtod floatText) s a = some t → (NamesText t ∧ KeysText t) ∧
        run Directory.step s.directory (directoryOps (.nlohmann strtod floatText) s a t) =
          some t.directory :=
    fun s a t h hok hs => ⟨⟨h.1.step hs, h.2.step hs⟩, directory_step h.1 h.2 hok hs⟩
  exact run_gather (allSteps_of_invariant hstep as {} hinit hclients) hr

/-- **The client manager is a directory.** What `Send` is given in a run, in the order of its
steps, is a history of one directory that ends with the entries of the client manager. -/
theorem client_manager_is_directory {as : List ServerEvent} (hlength : as.length < 2 ^ 64)
    (hr : run (serverStep (.nlohmann strtod floatText)) {} as = some s) :
    run Directory.step (fun _ => none) (history (.nlohmann strtod floatText) {} as) =
      some s.directory :=
  run_history hlength hr

/-- A session that registers the name "a" and asks for the list. -/
def showEvents : List ServerEvent :=
  [.connect 0 ⟨ascii "10.0.0.1", 50000⟩,
    .request {} 0 (clientRequest Const.communicationRegister (nameBody (ascii "a"))),
    .request {} 0 (clientRequest Const.communicationShow [])]

theorem client_manager_is_directory_show : ∃ s,
    run (serverStep (.nlohmann (fun _ => none) fun _ => [])) {} showEvents = some s ∧
    run Directory.step (fun _ => none)
      (history (.nlohmann (fun _ => none) fun _ => []) {} showEvents) = some s.directory := by
  have hrun : (run (serverStep (.nlohmann (fun _ => none) fun _ => [])) {} showEvents).isSome =
      true := by decide +kernel
  obtain ⟨s, hs⟩ := Option.isSome_iff_exists.mp hrun
  exact ⟨s, hs, client_manager_is_directory (by decide) hs⟩

end

end AsioServer.Services
