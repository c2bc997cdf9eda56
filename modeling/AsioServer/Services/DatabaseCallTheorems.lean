/-
AsioServer.Services.DatabaseCallTheorems — calls of the database over the wire.

A client writes the text of its calls, the server reads them and asks the executor, and the
client reads the answers (`DatabaseAnswerTheorems`). `database_calls_round_trip` puts the two
ways together: the calls that are written are the ones that are executed, and the answers
that are read are theirs. The requests of a session are handled by coroutines of their own,
so they may be answered in another order; the number of a request says to which call an
answer belongs.
-/
import AsioServer.Services.DatabaseAnswerTheorems

namespace AsioServer.Services

open AsioServer.Core AsioServer.Infra AsioServer.Lib AsioServer.Net

variable {lib : JsonLib} {env : Env} {s : Server} {a : ServerEvent} {u : Uuid} {msg : MsgNode}

/-! ## One call -/

/-- A statement with the database it is for, the number of its request and the indent of its
text. -/
structure ClientCall where
  host : Bytes
  port : Int
  database : Bytes
  sql : Bytes
  seq : UInt32
  step : Option Nat := none
  deriving DecidableEq, Repr

/-- The body of an EXECUTE. -/
def ClientCall.requestJson (c : ClientCall) : Json :=
  .object [(ascii "action", .object [(ascii "sql", .string c.sql)]),
    (ascii "target", .object [
      (ascii "connInfo", .object [(ascii "database", .string c.database),
        (ascii "host", .string c.host), (ascii "port", .integer c.port)]),
      (ascii "type", .string (ascii "mysql"))])]

/-- What the executor is to be asked. -/
def ClientCall.request (c : ClientCall) : DBRequest where
  key := { type := ascii "mysql", ident := mysqlIdent c.host c.port c.database }
  sql := c.sql

/-- The strings of the call are texts, and its port is an `int`. -/
structure ClientCall.Writable (c : ClientCall) : Prop where
  host : isUtf8 c.host = true
  port : -2 ^ 31 ≤ c.port ∧ c.port < 2 ^ 31
  database : isUtf8 c.database = true
  sql : isUtf8 c.sql = true

variable {c : ClientCall}

theorem plain_requestJson (hc : c.Writable) : Plain c.requestJson := by
  have houter : [ascii "action", ascii "target"].Pairwise (· < ·) := by decide
  have htarget : [ascii "connInfo", ascii "type"].Pairwise (· < ·) := by decide
  have hinfo : [ascii "database", ascii "host", ascii "port"].Pairwise (· < ·) := by decide
  have hport := hc.port
  have hconnInfo : Plain (.object [(ascii "database", .string c.database),
      (ascii "host", .string c.host), (ascii "port", .integer c.port)]) :=
    ⟨OrderedMap.sorted_of_keys hinfo rfl, by decide, hc.database, by decide, hc.host, by decide,
      ⟨by omega, by omega⟩, trivial⟩
  exact ⟨OrderedMap.sorted_of_keys houter rfl, by decide, plain_object_one (by decide) hc.sql,
    by decide, ⟨OrderedMap.sorted_of_keys htarget rfl, by decide, hconnInfo, by decide,
      (by decide : isUtf8 (ascii "mysql") = true), trivial⟩, trivial⟩

theorem toInt32_of_writable (hc : c.Writable) : Json.toInt32 c.port = c.port := by
  have hport := hc.port
  rw [Json.toInt32, BitVec.toInt_ofInt]
  exact Int.bmod_eq_of_le (by omega) (by omega)

/-- **The request that is written is the one that is read.** -/
theorem parseRequest_of_call (hc : c.Writable) (h : lib.parse msg.text = some c.requestJson) :
    parseRequest lib msg = some c.request := by
  have hread : parseRequest lib msg = some
      { key := { type := ascii "mysql"
                 ident := c.host ++ ascii ":" ++ integerText (Json.toInt32 c.port) ++ ascii "/" ++
                   c.database }
        sql := c.sql } := by
    rw [parseRequest, h]
    rfl
  rw [hread, toInt32_of_writable hc, mysqlIdent_eq, ClientCall.request]

/-! ## The calls that a session hears -/

/-- The message that the client sends. -/
def ClientCall.message (lib : JsonLib) (c : ClientCall) : MessageHeader × Bytes :=
  ({ magic := 0x55AA, version := 1, serviceId := Const.serviceDb, cmdId := Const.dbExecute
     seq := c.seq }, (c.requestJson.text lib c.step 0).getD [])

/-- A request of session `u`: what it meets outside the server, its header and its text. -/
def ServerEvent.heard (u : Uuid) : ServerEvent → Option (Env × MessageHeader × Bytes)
  | .request env v msg => if v = u then some (env, msg.header, msg.text) else none
  | _ => none

/-- What the requests of session `u` meet outside the server. -/
def environments (u : Uuid) (as : List ServerEvent) : List Env :=
  (as.filterMap (ServerEvent.heard u)).map Prod.fst

/-- The messages of the requests of session `u`. -/
def messagesHeard (u : Uuid) (as : List ServerEvent) : List (MessageHeader × Bytes) :=
  (as.filterMap (ServerEvent.heard u)).map Prod.snd

/-- The answers to the calls, each in its environment. -/
def answersTo (envs : List Env) (calls : List ClientCall) : List (UInt32 × CallAnswer) :=
  (envs.zip calls).filterMap fun q =>
    (textAnswer q.1 q.2.request).map fun answer => (q.2.seq, answer)

theorem answersTo_cons {envs : List Env} {calls : List ClientCall} :
    answersTo (env :: envs) (c :: calls) =
      ((textAnswer env c.request).map fun answer => (c.seq, answer)).toList ++
        answersTo envs calls := by
  rw [answersTo, List.zip_cons_cons, List.filterMap_cons, answersTo]
  cases textAnswer env c.request <;> rfl

theorem ServerEvent.databaseAnswer_of_heard_none (h : a.heard u = none) :
    a.databaseAnswer lib u = [] := by
  cases a with
  | request env v msg =>
      have hv : v ≠ u := fun hv => by simp [ServerEvent.heard, hv] at h
      exact if_neg hv
  | _ => rfl

theorem ServerEvent.databaseAnswer_of_heard (lib : JsonLib) {m : MessageHeader × Bytes}
    (h : a.heard u = some (env, m)) : ∃ msg : MsgNode, msg.header = m.1 ∧ msg.text = m.2 ∧
      a.databaseAnswer lib u = (((databaseRequest lib msg).bind (textAnswer env)).map fun answer =>
        (msg.header.seq, answer)).toList := by
  cases a with
  | request env' v msg =>
      by_cases hv : v = u
      · rw [ServerEvent.heard, if_pos hv] at h
        obtain ⟨rfl, rfl⟩ := Prod.mk.inj (Option.some.inj h)
        exact ⟨msg, rfl, rfl, if_pos hv⟩
      · rw [ServerEvent.heard, if_neg hv] at h
        exact absurd h (by simp)
  | connect | disconnect | close | delete | runPosted | written | destroy =>
      exact absurd h (by simp [ServerEvent.heard])

section

variable {strtod : Bytes → Option Rat} {floatText : Rat → Bytes}

/-- The executor is asked for what the client wrote. -/
theorem databaseRequest_of_message (hc : c.Writable)
    (hheader : msg.header = (delivered (c.message (.nlohmann strtod floatText))).1)
    (htext : msg.text = (delivered (c.message (.nlohmann strtod floatText))).2) :
    databaseRequest (.nlohmann strtod floatText) msg = some c.request := by
  have hplain := plain_requestJson hc
  have hvalid : c.requestJson.Valid (ReadsBack strtod floatText) := hplain.imp fun _ h => h.elim
  obtain ⟨text, hdump, -⟩ := parse_of_text strtod (.nlohmann strtod floatText) hvalid c.step 0
  have hcommand : commandOf msg.header = some .execute := by rw [hheader]; rfl
  have hbody : msg.text = text := by
    rw [htext, delivered, ClientCall.message, hdump]
    rfl
  rw [databaseRequest, hcommand]
  exact parseRequest_of_call hc (hbody ▸ parse_of_plain hplain hdump)

/-- **The session is due the answers to the calls** that it has heard. -/
theorem databaseAnswers_of_calls {as : List ServerEvent} {handled : List ClientCall}
    (hcalls : ∀ c ∈ handled, c.Writable)
    (hheard : messagesHeard u as =
      handled.map fun c => delivered (c.message (.nlohmann strtod floatText))) :
    databaseAnswers (.nlohmann strtod floatText) u as =
      answersTo (environments u as) handled := by
  induction as generalizing handled with
  | nil => rfl
  | cons a as ih =>
      rw [databaseAnswers, List.flatMap_cons]
      rw [messagesHeard] at hheard
      rw [environments]
      cases ha : a.heard u with
      | none =>
          rw [List.filterMap_cons_none ha] at hheard
          rw [ServerEvent.databaseAnswer_of_heard_none ha, List.filterMap_cons_none ha,
            List.nil_append]
          exact ih hcalls hheard
      | some x =>
          obtain ⟨env, m⟩ := x
          rw [List.filterMap_cons_some ha, List.map_cons] at hheard
          rw [List.filterMap_cons_some ha, List.map_cons]
          cases handled with
          | nil => exact absurd hheard (by simp)
          | cons c handled =>
              obtain ⟨rfl, hrest⟩ := List.cons.inj hheard
              obtain ⟨msg, hheader, htext, hanswer⟩ :=
                ServerEvent.databaseAnswer_of_heard (.nlohmann strtod floatText) ha
              have hseq : msg.header.seq = c.seq := by rw [hheader]; rfl
              have hfirst := databaseRequest_of_message (hcalls c List.mem_cons_self) hheader htext
              have hothers := ih (fun c' hc' => hcalls c' (List.mem_cons_of_mem c hc')) hrest
              rw [databaseAnswers] at hothers
              rw [hanswer, hfirst, hothers, hseq, Option.bind_some]
              exact answersTo_cons.symm

/-- What is found among the images of a list, in any order, comes from elements of the list. -/
theorem subperm_map {α β : Type} {f : α → β} {ys : List β} {xs : List α}
    (h : ys.Subperm (xs.map f)) : ∃ zs : List α, zs.Subperm xs ∧ ys = zs.map f := by
  obtain ⟨ys', hperm, hsub⟩ := h
  obtain ⟨xs', hxs', rfl⟩ := List.sublist_map_iff.mp hsub
  have himages : List.Forall₂ (fun y x => y = f x) (xs'.map f) xs' :=
    List.forall₂_map_left_iff.mpr (List.forall₂_same.mpr fun _ _ => rfl)
  obtain ⟨zs, hzs, hzperm⟩ := List.perm_comp_forall₂ hperm.symm himages
  refine ⟨zs, hzperm.subperm.trans hxs'.subperm, ?_⟩
  rwa [← List.forall₂_eq_eq_eq, List.forall₂_map_right_iff]

/-- **A database call round trip.** A client writes its calls to the wire, one after the other.
Whatever part of its bytes the server has received, whichever of these messages it has
handled, in whatever order and among the requests of others, and whatever part of its replies
has come back: the server has sent the answers to the calls that it has handled, under their
numbers, all of them that a text can carry and no others, and the client reads some of these,
each once at most. -/
theorem database_calls_round_trip {as : List ServerEvent} {calls : List ClientCall}
    (client server : Endian) (found found' : UInt16 → Bool) (hcalls : ∀ c ∈ calls, c.Writable)
    (hsize : ∀ c ∈ calls, (c.message (.nlohmann strtod floatText)).2.length < 2 ^ 32 - 1)
    {arrived : Bytes} (harrived : arrived <+: calls.flatMap fun c =>
      encode client (c.message (.nlohmann strtod floatText)))
    (hheard : (messagesHeard u as).Subperm (decode server found arrived).1)
    (hfits : ∀ a ∈ as, a.Fits)
    (hr : run (serverStep (.nlohmann strtod floatText)) {} as = some s)
    (hsmall : ∀ c ∈ s.calls, c.message.body.length < 2 ^ 32 - 1) {received : Bytes}
    (hreceived : received <+: wireTo (.nlohmann strtod floatText) server u as) :
    ∃ handled : List ClientCall, handled.Subperm calls ∧
      (messagesHeard u as =
        handled.map fun c => delivered (c.message (.nlohmann strtod floatText))) ∧
      answersSent (.nlohmann strtod floatText) u s = answersTo (environments u as) handled ∧
      ((decode client found' received).1.filterMap
        (readDatabase (.nlohmann strtod floatText))).Sublist
          (answersTo (environments u as) handled) := by
  have hmessages : ∀ m ∈ calls.map (ClientCall.message (.nlohmann strtod floatText)),
      m.2.length < 2 ^ 32 - 1 := List.forall_mem_map.mpr hsize
  rw [← List.flatMap_map (ClientCall.message (.nlohmann strtod floatText)) (encode client)]
    at harrived
  have hdecoded : (decode server found arrived).1 <+:
      (calls.map (ClientCall.message (.nlohmann strtod floatText))).map delivered :=
    decode_prefix hmessages harrived
  rw [List.map_map] at hdecoded
  obtain ⟨handled, hhandled, hmessagesHeard⟩ :=
    subperm_map (hheard.trans hdecoded.sublist.subperm)
  have hsent : answersSent (.nlohmann strtod floatText) u s =
      answersTo (environments u as) handled :=
    (answersSent_run hfits hr).trans
      (databaseAnswers_of_calls (fun c hc => hcalls c (hhandled.subset hc)) hmessagesHeard)
  exact ⟨handled, hhandled, hmessagesHeard, hsent, hsent ▸ answers_received hr hsmall hreceived⟩

/-- A statement, and one for a database that there is not. -/
def twoCalls : List ClientCall :=
  [⟨ascii "h", 3306, ascii "d", ascii "SELECT 1", 1, none⟩,
    ⟨ascii "h", 3306, ascii "x", ascii "SELECT 2", 2, some 4⟩]

theorem writable_twoCalls : ∀ c ∈ twoCalls, c.Writable := by
  intro c hc
  simp only [twoCalls, List.mem_cons, List.not_mem_nil, or_false] at hc
  rcases hc with rfl | rfl
  · exact ⟨by decide, by decide, by decide, by decide⟩
  · exact ⟨by decide, by decide, by decide, by decide⟩

/-- The read loop hands over the message of a call. -/
def callNode (c : ClientCall) : MsgNode where
  header := (delivered (c.message (.nlohmann (fun _ => none) fun _ => []))).1
  body := (c.message (.nlohmann (fun _ => none) fun _ => [])).2 ++ [0]

/-- The second call is finished before the first one. -/
def twoCallEvents : List ServerEvent :=
  .connect 0 ⟨ascii "10.0.0.1", 50000⟩ ::
    (twoCalls.reverse.map fun c => .request oneRow 0 (callNode c)) ++
      [.runPosted 0, .runPosted 0, .written 0, .written 0]

theorem fits_twoCallEvents : ∀ a ∈ twoCallEvents, a.Fits := by
  intro a ha
  simp only [twoCallEvents, twoCalls, List.reverse_cons, List.reverse_nil, List.map_cons,
    List.map_nil, List.cons_append, List.nil_append, List.mem_cons, List.not_mem_nil,
    or_false] at ha
  rcases ha with rfl | rfl | rfl | rfl | rfl | rfl | rfl
  exacts [trivial, fits_oneRow, fits_oneRow, trivial, trivial, trivial, trivial]

theorem database_calls_round_trip_two : ∃ handled : List ClientCall, handled.Subperm twoCalls ∧
    databaseAnswers (.nlohmann (fun _ => none) fun _ => []) 0 twoCallEvents =
      [(2, .failed (ascii "Connection pool not found")),
        (1, .selected [ascii "n"] [[ascii "1"]])] ∧
    ((decode .little (fun _ => false)
        (wireTo (.nlohmann (fun _ => none) fun _ => []) .big 0 twoCallEvents)).1.filterMap
          (readDatabase (.nlohmann (fun _ => none) fun _ => []))).Sublist
      (answersTo (environments 0 twoCallEvents) handled) := by
  have hrun : ((run (serverStep (.nlohmann (fun _ => none) fun _ => [])) {} twoCallEvents).map
      fun s => s.calls.all fun c => decide (c.message.body.length < 2 ^ 32 - 1)) = some true := by
    decide +kernel
  have hanswers : databaseAnswers (.nlohmann (fun _ => none) fun _ => []) 0 twoCallEvents =
      [(2, .failed (ascii "Connection pool not found")),
        (1, .selected [ascii "n"] [[ascii "1"]])] := by decide +kernel
  have hheard : messagesHeard 0 twoCallEvents = (decode .big (fun _ => true)
      (twoCalls.flatMap fun c =>
        encode .little (c.message (.nlohmann (fun _ => none) fun _ => [])))).1.reverse := by
    decide +kernel
  have hsize : ∀ c ∈ twoCalls,
      (c.message (.nlohmann (fun _ => none) fun _ => [])).2.length < 2 ^ 32 - 1 := by
    decide +kernel
  obtain ⟨s, hs, hsmall⟩ := Option.map_eq_some_iff.mp hrun
  have hbodies : ∀ c ∈ s.calls, c.message.body.length < 2 ^ 32 - 1 := fun c hc =>
    of_decide_eq_true (List.all_eq_true.mp hsmall c hc)
  obtain ⟨handled, hhandled, -, -, hread⟩ := database_calls_round_trip .little .big
    (fun _ => true) (fun _ => false) writable_twoCalls hsize (List.prefix_refl _)
    (by rw [hheard]; exact (List.reverse_perm _).subperm) fits_twoCallEvents hs hbodies
    (List.prefix_refl _)
  exact ⟨handled, hhandled, hanswers, hread⟩

end

end AsioServer.Services
