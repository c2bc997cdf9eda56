/-
AsioServer.Services.NameTheorems — who owns a name, and who may speak under it.

A name belongs to the session that the client manager maps it to. Two paths
erase names, CLOSE and the destructor, and neither asks whose name it erases:
`name_ownership_iff` says for which runs no session loses a name to another one,
`destroyed_session_erases_anothers_name` is a run where one does.

A SEND takes its sender's name from the session's `ClientInfo`, which REGISTER
sets before it knows whether the name is free. `sender_authenticity` says under
which steps the two agree (`OwnsName` is the invariant that links them), and
`refused_registration_forges` is a run where they do not.
-/
import AsioServer.Services.RequestTheorems

namespace AsioServer.Services

open AsioServer.Core AsioServer.Infra AsioServer.Lib

variable {lib : JsonLib} {env : Env} {s t : Server} {a : ServerEvent} {u v w : Uuid}
  {msg : MsgNode} {n : Bytes}

/-! ## Which names a step erases -/

/-- The name that a step removes from the client manager. -/
def erasedName (lib : JsonLib) (s : Server) : ServerEvent → Option Bytes
  | .request _ _ msg => closedName lib msg
  | .destroy u => destroyedName s u
  | _ => none

theorem RequestOutcome.lookup (h : RequestOutcome lib s u msg t)
    (hn : s.clientMap.lookup n = some v) (he : closedName lib msg ≠ some n) :
    t.clientMap.lookup n = some v := by
  cases h with
  | silent hbase => rwa [hbase.clientMap]
  | replied hbase => rwa [Server.send_clientMap, hbase.clientMap]
  | registered =>
      rw [Server.reply, Server.send_clientMap]
      exact Server.lookup_addClient hn
  | closed hcommand hname =>
      have hne : n ≠ _ := fun heq => he (heq ▸ hname)
      rw [Server.reply, Server.send_clientMap, Server.lookup_removeClient_ne hne]
      exact hn
  | forwarded =>
      rw [Server.forward, Server.reply, Server.send_clientMap, Server.send_clientMap]
      exact hn

theorem RequestOutcome.lookup_closedName (h : RequestOutcome lib s u msg t)
    (he : closedName lib msg = some n) : t.clientMap.lookup n = none := by
  cases h with
  | silent _ hunguarded => simp [hunguarded.closedName] at he
  | replied _ _ _ hclose => simp [hclose] at he
  | registered hcommand => simp [closedName_of_command hcommand] at he
  | closed _ hname =>
      obtain rfl := Option.some.inj (hname.symm.trans he)
      rw [Server.reply, Server.send_clientMap, Server.lookup_removeClient_self]
  | forwarded hforwards => simp [closedName_of_command hforwards.command] at he

/-- **An entry stays** unless the step erases its name. -/
theorem lookup_step (h : serverStep lib s a = some t) (hn : s.clientMap.lookup n = some v)
    (he : erasedName lib s a ≠ some n) : t.clientMap.lookup n = some v := by
  cases effect_of_serverStep h with
  | request _ houtcome => exact houtcome.lookup hn he
  | connect | disconnect | close | delete | runPosted | written => exact hn
  | @destroy u =>
      cases hd : destroyedName s u with
      | none => rw [Server.destroy_of_none hd, hn]
      | some m =>
          have hne : n ≠ m := fun heq => he (heq ▸ hd)
          rw [Server.destroy_of_name hd, Server.lookup_removeClient_ne hne]
          exact hn

/-- The name that a step erases is free afterwards, whoever had it. -/
theorem lookup_step_erased (h : serverStep lib s a = some t)
    (he : erasedName lib s a = some n) : t.clientMap.lookup n = none := by
  cases effect_of_serverStep h with
  | request _ houtcome => exact houtcome.lookup_closedName he
  | destroy => rw [Server.destroy_of_name he, Server.lookup_removeClient_self]
  | connect | disconnect | close | delete | runPosted | written => simp [erasedName] at he

/-! ## Ownership -/

/-- A step on behalf of a session leaves the entries of other sessions as they
are. -/
def Framed (s : Server) (a : ServerEvent) (t : Server) : Prop :=
  ∀ u, a.actor = some u → ∀ n v, s.clientMap.lookup n = some v → v ≠ u →
    t.clientMap.lookup n = some v

/-- The name is free or belongs to the session. -/
def Server.ownOrFree (s : Server) (u : Uuid) (n : Bytes) : Bool :=
  s.clientMap.lookup n == none || s.clientMap.lookup n == some u

/-- A CLOSE and a destructor erase no name that belongs to another session. -/
def erasesOwn (lib : JsonLib) (s : Server) : ServerEvent → Bool
  | .request _ u msg => (closedName lib msg).all (s.ownOrFree u)
  | .destroy u => (destroyedName s u).all (s.ownOrFree u)
  | _ => true

/-- `erasesOwn` as a condition on a step. -/
def ErasesOwn (lib : JsonLib) (s : Server) (a : ServerEvent) (_ : Server) : Prop :=
  erasesOwn lib s a = true

theorem Server.not_ownOrFree (hn : s.clientMap.lookup n = some v) (hv : v ≠ u) :
    s.ownOrFree u n = false := by
  simp [Server.ownOrFree, hn, hv]

theorem erasesOwn_iff : erasesOwn lib s a = true ↔ ∀ u, a.actor = some u →
    ∀ n, erasedName lib s a = some n → s.ownOrFree u n = true := by
  cases a with
  | request env u msg => simp [erasesOwn, ServerEvent.actor, erasedName, Option.all_eq_true]
  | destroy u => simp [erasesOwn, ServerEvent.actor, erasedName, Option.all_eq_true]
  | connect | disconnect | close | delete | runPosted | written =>
      simp [erasesOwn, ServerEvent.actor]

/-- Only a step on behalf of a session erases a name. -/
theorem actor_of_erasedName (he : erasedName lib s a = some n) : ∃ u, a.actor = some u := by
  cases a with
  | request env u msg => exact ⟨u, rfl⟩
  | destroy u => exact ⟨u, rfl⟩
  | connect | disconnect | close | delete | runPosted | written => simp [erasedName] at he

/-- **One step** frames the other sessions' entries exactly if it erases none of
them. -/
theorem framed_iff_erasesOwn (h : serverStep lib s a = some t) :
    Framed s a t ↔ ErasesOwn lib s a t := by
  rw [ErasesOwn, erasesOwn_iff]
  constructor
  · intro hframed u hu n he
    cases hn : s.clientMap.lookup n with
    | none => simp [Server.ownOrFree, hn]
    | some v =>
        have hv : v = u := by
          by_contra hne
          have hkept := hframed u hu n v hn hne
          rw [lookup_step_erased h he] at hkept
          simp at hkept
        simp [Server.ownOrFree, hn, hv]
  · intro hown u hu n v hn hv
    refine lookup_step h hn fun he => ?_
    have hfree := hown u hu n he
    simp [Server.not_ownOrFree hn hv] at hfree

/-- An entry outlives every step that is not taken on behalf of its session. -/
theorem lookup_of_erasesOwn (h : serverStep lib s a = some t) (hown : ErasesOwn lib s a t)
    (hn : s.clientMap.lookup n = some v) (ha : a.actor ≠ some v) :
    t.clientMap.lookup n = some v := by
  refine lookup_step h hn fun he => ?_
  obtain ⟨u, hu⟩ := actor_of_erasedName he
  have hv : v ≠ u := by
    rintro rfl
    exact ha hu
  have hfree := erasesOwn_iff.mp hown u hu n he
  simp [Server.not_ownOrFree hn hv] at hfree

theorem allStates_lookup (as : List ServerEvent) {s : Server}
    (hown : AllSteps (serverStep lib) (ErasesOwn lib) s as)
    (hn : s.clientMap.lookup n = some v) (has : ∀ a ∈ as, a.actor ≠ some v) :
    AllStates (serverStep lib) (fun t => t.clientMap.lookup n = some v) s as := by
  induction as generalizing s with
  | nil => exact hn
  | cons a as ih =>
      refine ⟨hn, fun t ht => ?_⟩
      have hkept := lookup_of_erasesOwn ht (hown t ht).1 hn (has a List.mem_cons_self)
      exact ih (hown t ht).2 hkept fun b hb => has b (List.mem_cons_of_mem a hb)

/-- **Name ownership, exactly.** From every state and for every order of the
steps, no session loses a name to a step of another one if and only if no CLOSE
and no destructor erases a name that belongs to another session. In such a run a
name stays with its session as long as that session takes no step. -/
theorem name_ownership_iff (lib : JsonLib) (s : Server) (as : List ServerEvent) :
    (AllSteps (serverStep lib) Framed s as ↔
      AllSteps (serverStep lib) (ErasesOwn lib) s as) ∧
    (AllSteps (serverStep lib) (ErasesOwn lib) s as →
      ∀ n v, s.clientMap.lookup n = some v → (∀ a ∈ as, a.actor ≠ some v) →
        AllStates (serverStep lib) (fun t => t.clientMap.lookup n = some v) s as) := by
  have hstep : ∀ s a t, serverStep lib s a = some t → (Framed s a t ↔ ErasesOwn lib s a t) :=
    fun _ _ _ => framed_iff_erasesOwn
  exact ⟨allSteps_of_iff hstep as s, fun hown n v hn has => allStates_lookup as hown hn has⟩

/-- Session 0 registers a name and closes, session 1 registers the name, and the
destructor of session 0 takes it from session 1. -/
theorem destroyed_session_erases_anothers_name : ¬ ∀ (lib : JsonLib) (as : List ServerEvent),
    AllSteps (serverStep lib) Framed {} as := by
  let events : List ServerEvent := [.connect 0 ⟨ascii "10.0.0.1", 50000⟩,
    .connect 1 ⟨ascii "10.0.0.2", 50001⟩,
    .request {} 0 (clientRequest Const.communicationRegister (nameBody (ascii "a"))),
    .request {} 0 (clientRequest Const.communicationClose (nameBody (ascii "a"))),
    .request {} 1 (clientRequest Const.communicationRegister (nameBody (ascii "a"))),
    .runPosted 0]
  have hrun : ((run (serverStep tableLib) {} events).bind fun s =>
      (serverStep tableLib s (.destroy 0)).map fun t =>
        (s.clientMap.lookup (ascii "a"), t.clientMap.lookup (ascii "a"))) =
      some (some 1, none) := by decide +kernel
  obtain ⟨s, hs, hrun⟩ := Option.bind_eq_some_iff.mp hrun
  obtain ⟨t, ht, hlookup⟩ := Option.map_eq_some_iff.mp hrun
  obtain ⟨hbefore, hafter⟩ := Prod.mk.inj hlookup
  have hnot : ¬ Framed s (.destroy 0) t := by
    intro hframed
    have hkept := hframed 0 rfl _ 1 hbefore (by decide)
    rw [hafter] at hkept
    simp at hkept
  exact fun h => not_allSteps hs ht hnot (h tableLib (events ++ [.destroy 0]))

/-! ## Authenticity -/

/-- A step in which a session forwards a RECV frame from a name that it takes
from its `ClientInfo`. -/
def ForwardsAs (lib : JsonLib) (s : Server) (a : ServerEvent) (t : Server) (u : Uuid)
    (n : Bytes) : Prop :=
  (∃ env msg, a = .request env u msg) ∧ (∃ info, (s.session u).clientInfo = some info ∧
    info.name = n) ∧ ∃ c ∈ t.calls.drop s.calls.length, isPush c.message.header = true ∧
      ∃ message, (pushJson n message).dump lib = some c.message.body

/-- Whoever forwards under a name has the name. -/
def Authentic (lib : JsonLib) (s : Server) (a : ServerEvent) (t : Server) : Prop :=
  ∀ u n, ForwardsAs lib s a t u n → s.clientMap.lookup n = some u

/-- No two sessions can forward under one name, by steps that are allowed. -/
def SoleSender (lib : JsonLib) (allowed : Server → ServerEvent → Bool) (s : Server) : Prop :=
  ∀ a b t t' u v n, allowed s a = true → allowed s b = true →
    serverStep lib s a = some t → serverStep lib s b = some t' →
    ForwardsAs lib s a t u n → ForwardsAs lib s b t' v n → u = v

/-- A REGISTER names a free name or the session's own, a CLOSE and a destructor
erase no other session's name, and no SEND comes after the session's CLOSE. -/
def keepsNames (lib : JsonLib) (s : Server) : ServerEvent → Bool
  | .request env u msg =>
      (registeredName lib s u msg).all (s.ownOrFree u) && erasesOwn lib s (.request env u msg) &&
        (commandOf msg.header != some .send || !(s.session u).clientClosed)
  | a => erasesOwn lib s a

/-- `keepsNames` as a condition on a step. -/
def KeepsNames (lib : JsonLib) (s : Server) (a : ServerEvent) (_ : Server) : Prop :=
  keepsNames lib s a = true

theorem KeepsNames.erasesOwn (h : KeepsNames lib s a t) : ErasesOwn lib s a t := by
  unfold KeepsNames keepsNames at h
  split at h
  · simp only [Bool.and_eq_true] at h
    exact h.1.2
  · exact h

/-- The name in the session's `ClientInfo`. -/
def CSession.clientName (x : CSession) : Option Bytes := x.clientInfo.map ClientInfo.name

/-- What the ownership of a name depends on in a session. -/
def CSession.identity (x : CSession) : Option Bytes × Bool := (x.clientName, x.clientClosed)

/-- Until it closes, the session has the name in its `ClientInfo`. -/
def OwnsName (s : Server) (w : Uuid) : Prop :=
  (s.session w).clientClosed = false → ∀ info, (s.session w).clientInfo = some info →
    s.clientMap.lookup info.name = some w

/-- **The invariant** that links the sessions and the client manager. -/
def NamesOwned (s : Server) : Prop := ∀ w ∈ s.live, OwnsName s w

theorem OwnsName.keep (h : OwnsName s w)
    (hid : (t.session w).identity = (s.session w).identity)
    (hkeep : ∀ n, s.clientMap.lookup n = some w → t.clientMap.lookup n = some w) :
    OwnsName t w := by
  obtain ⟨hinfo, hclosed⟩ := Prod.mk.inj hid
  intro hopen info hi
  rw [CSession.clientName, hi, Option.map_some] at hinfo
  obtain ⟨info', hi', hname⟩ := Option.map_eq_some_iff.mp hinfo.symm
  exact hkeep _ (hname ▸ h (hclosed ▸ hopen) info' hi')

theorem OwnsName.of_closed (h : (s.session w).clientClosed = true) : OwnsName s w := by
  intro hopen
  simp [h] at hopen

theorem Server.send_identity {header : MessageHeader} {body : Bytes} {status : Option Int}
    (w : Uuid) : ((s.send u header body status).session w).identity =
      (s.session w).identity :=
  Server.send_field CSession.identity (fun _ _ => rfl) w

theorem Server.close_identity (w : Uuid) :
    ((s.close u).session w).identity = (s.session w).identity :=
  Server.close_field CSession.identity (fun _ _ => rfl) w

theorem ReplyBase.identity {base : Server} (h : ReplyBase s u msg base) (w : Uuid) :
    (base.session w).identity = (s.session w).identity := by
  cases h with
  | same => rfl
  | closed => exact Server.close_identity w
  | beaten =>
      refine Server.setLastConnectTime_field CSession.identity (fun x => ?_) w
      rw [CSession.identity, CSession.clientName, Option.map_map]
      rfl

theorem OwnsName.send {header : MessageHeader} {body : Bytes} {status : Option Int}
    (h : OwnsName s w) : OwnsName (s.send u header body status) w :=
  h.keep (Server.send_identity w) fun n hn => by rwa [Server.send_clientMap]

/-- A request does not touch the identity of other sessions. -/
theorem RequestOutcome.identity (h : RequestOutcome lib s u msg t) (hw : w ≠ u) :
    (t.session w).identity = (s.session w).identity := by
  cases h with
  | silent hbase => exact hbase.identity w
  | replied hbase => rw [Server.send_identity, hbase.identity]
  | registered =>
      rw [Server.reply, Server.send_identity, Server.addClient_session,
        Server.setClientInfo_session_ne hw]
  | closed =>
      rw [Server.reply, Server.send_identity, Server.removeClient_session,
        Server.clientClose_session_ne hw]
  | forwarded => rw [Server.forward, Server.reply, Server.send_identity, Server.send_identity]

/-- The session that makes a request owns its name afterwards, if the name it
registers is free or its own. -/
theorem RequestOutcome.ownsName (h : RequestOutcome lib s u msg t) (hown : OwnsName s u)
    (hfree : ∀ n, registeredName lib s u msg = some n → s.ownOrFree u n = true) :
    OwnsName t u := by
  have hkeep : closedName lib msg = none →
      ∀ n, s.clientMap.lookup n = some u → t.clientMap.lookup n = some u :=
    fun hclose n hn => h.lookup hn (by simp [hclose])
  cases h with
  | silent hbase hunguarded =>
      exact hown.keep (hbase.identity u) (hkeep hunguarded.closedName)
  | replied hbase _ _ hclose =>
      refine hown.keep ?_ (hkeep hclose)
      rw [Server.send_identity, hbase.identity]
  | registered hcommand hname =>
      refine OwnsName.send fun _ info hinfo => ?_
      rw [Server.addClient_session, Server.setClientInfo_session_self] at hinfo
      obtain rfl := Option.some.inj hinfo
      have hname := hfree _ hname
      simp only [Server.ownOrFree, Bool.or_eq_true, beq_iff_eq] at hname
      exact Server.lookup_addClient_self hname
  | closed =>
      refine OwnsName.send (OwnsName.of_closed ?_)
      rw [Server.removeClient_session, Server.clientClose_session_self]
  | forwarded hforwards =>
      refine hown.keep ?_ (hkeep (closedName_of_command hforwards.command (by decide)))
      rw [Server.forward, Server.reply, Server.send_identity, Server.send_identity]

theorem CSession.doSend_identity (x : CSession) (m : Outgoing) :
    (x.doSend m).identity = x.identity := by
  unfold CSession.doSend
  split_ifs <;> rfl

/-- **One step** keeps the invariant, if it keeps the names. -/
theorem NamesOwned.step (h : NamesOwned s) (hs : serverStep lib s a = some t)
    (hk : KeepsNames lib s a t) : NamesOwned t := by
  -- a step on behalf of another session leaves the entries of this one
  have hkeep : ∀ w, a.actor ≠ some w → ∀ n, s.clientMap.lookup n = some w →
      t.clientMap.lookup n = some w :=
    fun w hw n hn => lookup_of_erasesOwn hs hk.erasesOwn hn hw
  intro w hw
  cases effect_of_serverStep hs with
  | @connect u =>
      by_cases hwu : w = u
      · rw [hwu]
        intro _ info hinfo
        simp at hinfo
      · have hlive : w ∈ s.live := Finset.mem_of_mem_insert_of_ne hw hwu
        refine (h w hlive).keep ?_ (hkeep w (by simp [ServerEvent.actor]))
        exact congrArg CSession.identity (Server.setSession_session_ne hwu)
  | @request env u msg t _ houtcome =>
      rw [houtcome.live] at hw
      by_cases hwu : w = u
      · obtain rfl := hwu
        refine houtcome.ownsName (h w hw) fun n hn => ?_
        simp only [KeepsNames, keepsNames, Bool.and_eq_true] at hk
        exact (Option.all_eq_true _ _).mp hk.1.1 n hn
      · refine (h w hw).keep (houtcome.identity hwu) (hkeep w ?_)
        simpa [ServerEvent.actor] using Ne.symm hwu
  | disconnect | close | written =>
      refine (h w hw).keep ?_ (hkeep w (by simp [ServerEvent.actor]))
      exact Server.setSession_field CSession.identity (by rfl) w
  | delete => exact (h w hw).keep rfl (hkeep w (by simp [ServerEvent.actor]))
  | runPosted =>
      refine (h w hw).keep ?_ (hkeep w (by simp [ServerEvent.actor]))
      exact Server.setSession_field CSession.identity (by rw [CSession.doSend_identity]; rfl) w
  | @destroy u =>
      rw [Server.destroy_live] at hw
      refine (h w (Finset.mem_of_mem_erase hw)).keep (by rw [Server.destroy_session])
        (hkeep w ?_)
      simpa [ServerEvent.actor] using (Finset.ne_of_mem_erase hw).symm

/-- A step that keeps the names is authentic, when the names are owned. -/
theorem NamesOwned.authentic (h : NamesOwned s) (hs : serverStep lib s a = some t)
    (hk : KeepsNames lib s a t) : Authentic lib s a t := by
  intro u n hforwards
  obtain ⟨⟨env, msg, rfl⟩, ⟨info, hinfo, rfl⟩, c, hc, hpush, -⟩ := hforwards
  obtain ⟨hlive, houtcome⟩ := effect_of_request hs
  have hsend := houtcome.command_of_push hc hpush
  simp only [KeepsNames, keepsNames, Bool.and_eq_true, hsend, bne_self_eq_false, Bool.false_or,
    Bool.not_eq_true'] at hk
  exact h u hlive hk.2 info hinfo

/-- As the client manager is a map, authentic forwarding has one sender a name. -/
theorem NamesOwned.soleSender (h : NamesOwned s) : SoleSender lib (keepsNames lib) s := by
  intro a b t t' u v n ha hb hs hs' hu hv
  have hfirst := h.authentic hs ha u n hu
  have hsecond := h.authentic hs' hb v n hv
  exact Option.some.inj (hfirst.symm.trans hsecond)

/-- **Sender authenticity.** In every run in which a session registers only free
names or its own, no CLOSE and no destructor erases another session's name, and
no session sends after its CLOSE: whoever forwards under a name has the name,
and no two sessions can forward under one. -/
theorem sender_authenticity (lib : JsonLib) (as : List ServerEvent)
    (h : AllSteps (serverStep lib) (KeepsNames lib) {} as) :
    AllSteps (serverStep lib) (Authentic lib) {} as ∧
      AllStates (serverStep lib) (SoleSender lib (keepsNames lib)) {} as := by
  have hinit : NamesOwned {} := fun w hw => absurd hw (Finset.notMem_empty w)
  have hstep : ∀ s a t, NamesOwned s → KeepsNames lib s a t → serverStep lib s a = some t →
      NamesOwned t ∧ Authentic lib s a t :=
    fun _ _ _ hs hk ht => ⟨hs.step ht hk, hs.authentic ht hk⟩
  have hstates : AllStates (serverStep lib) NamesOwned {} as :=
    allStates_invariant (fun s a t hs hk ht => (hstep s a t hs hk ht).1) as {} hinit h
  exact ⟨allSteps_of_invariant hstep as {} hinit h, hstates.mono fun _ hs => hs.soleSender⟩

/-- Two sessions with names of their own, one of which sends to the other. -/
theorem sender_authenticity_two_sessions : ∃ as s,
    run (serverStep tableLib) {} as = some s ∧
      (s.calls.any fun c => isPush c.message.header) = true ∧
      AllSteps (serverStep tableLib) (Authentic tableLib) {} as ∧
      AllStates (serverStep tableLib) (SoleSender tableLib (keepsNames tableLib)) {} as := by
  let events : List ServerEvent := [.connect 0 ⟨ascii "10.0.0.1", 50000⟩,
    .connect 1 ⟨ascii "10.0.0.2", 50001⟩,
    .request {} 0 (clientRequest Const.communicationRegister (nameBody (ascii "a"))),
    .request {} 1 (clientRequest Const.communicationRegister (nameBody (ascii "b"))),
    .request {} 1 (clientRequest Const.communicationSend (sendBody (ascii "a")))]
  have hrun : ((run (serverStep tableLib) {} events).map fun s =>
      s.calls.any fun c => isPush c.message.header) = some true := by decide +kernel
  obtain ⟨s, hs, hpush⟩ := Option.map_eq_some_iff.mp hrun
  have hcheck : checkSteps (serverStep tableLib) (keepsNames tableLib) {} events = true := by
    decide +kernel
  exact ⟨events, s, hs, hpush, sender_authenticity tableLib events (allSteps_of_checkSteps hcheck)⟩

/-- Session 1 registers the name of session 0 and is refused, but it sends under
that name from then on. -/
theorem refused_registration_forges : ¬ ∀ (lib : JsonLib) (as : List ServerEvent),
    AllSteps (serverStep lib) (Authentic lib) {} as := by
  let events : List ServerEvent := [.connect 0 ⟨ascii "10.0.0.1", 50000⟩,
    .connect 1 ⟨ascii "10.0.0.2", 50001⟩,
    .request {} 0 (clientRequest Const.communicationRegister (nameBody (ascii "a"))),
    .request {} 1 (clientRequest Const.communicationRegister (nameBody (ascii "a")))]
  let forged : ServerEvent :=
    .request {} 1 (clientRequest Const.communicationSend (sendBody (ascii "a")))
  have hrun : ((run (serverStep tableLib) {} events).bind fun s =>
      (serverStep tableLib s forged).map fun t =>
        (s.clientMap.lookup (ascii "a"), (s.session 1).clientInfo.map ClientInfo.name,
          (t.calls.drop s.calls.length).any fun c => isPush c.message.header &&
            (pushJson (ascii "a") (ascii "hi")).dump tableLib == some c.message.body)) =
      some (some 0, some (ascii "a"), true) := by decide +kernel
  obtain ⟨s, hs, hrun⟩ := Option.bind_eq_some_iff.mp hrun
  obtain ⟨t, ht, hview⟩ := Option.map_eq_some_iff.mp hrun
  simp only [Prod.mk.injEq, List.any_eq_true, Bool.and_eq_true, beq_iff_eq] at hview
  obtain ⟨hlookup, hname, c, hc, hpush, hbody⟩ := hview
  have hnot : ¬ Authentic tableLib s forged t := by
    intro hauthentic
    have hinfo := Option.map_eq_some_iff.mp hname
    have howner := hauthentic 1 _ ⟨⟨_, _, rfl⟩, hinfo, c, hc, hpush, _, hbody⟩
    exact absurd (Option.some.inj (hlookup.symm.trans howner)) (by decide)
  exact fun h => not_allSteps hs ht hnot (h tableLib (events ++ [forged]))

end AsioServer.Services
