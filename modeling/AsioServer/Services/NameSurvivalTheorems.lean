/-
AsioServer.Services.NameSurvivalTheorems — when no name survives its session.

A session remembers one name, in its `ClientInfo`, and the client manager keeps every
name that it was given. `NamesAlive` says that the two agree: whoever has a name exists
and remembers it. A step breaks the agreement in two ways only (`SoleName`): a session
REGISTERs another name while it has one, or it is destroyed while the empty name is its
own, which the destructor does not remove. `names_survive_iff` is the equivalence over
whole runs, `second_name_outlives_its_session` a run where a name is lost for ever.
-/
import AsioServer.Services.NameTheorems

namespace AsioServer.Services

open AsioServer.Core AsioServer.Infra AsioServer.Lib

variable {lib : JsonLib} {env : Env} {s t : Server} {a : ServerEvent} {u v : Uuid}
  {msg : MsgNode} {n name : Bytes}

/-! ## The property and its condition -/

/-- The session remembers the name. -/
def Server.remembers (s : Server) (u : Uuid) (n : Bytes) : Prop :=
  ∃ info, (s.session u).clientInfo = some info ∧ info.name = n

theorem Server.remembers_iff : s.remembers u n ↔ (s.session u).clientName = some n :=
  Option.map_eq_some_iff.symm

/-- Every name belongs to a session that exists and remembers it. -/
def NamesAlive (s : Server) : Prop :=
  ∀ n u, s.clientMap.lookup n = some u → u ∈ s.live ∧ s.remembers u n

/-- A session REGISTERs a name while it has no other, and is destroyed while the empty
name is not its own. -/
def SoleName (lib : JsonLib) (s : Server) (a : ServerEvent) (_ : Server) : Prop :=
  (∀ env u msg name, a = .request env u msg → registeredName lib s u msg = some name →
    ∀ n, s.clientMap.lookup n = some u → n = name) ∧
  (∀ u, a = .destroy u → s.clientMap.lookup [] ≠ some u)

/-! ## Entries do not come from nowhere -/

theorem Server.lookup_of_addClient (h : (s.addClient name u).2.clientMap.lookup n = some v) :
    s.clientMap.lookup n = some v ∨ (n = name ∧ v = u) := by
  unfold Server.addClient at h
  split at h
  · by_cases hn : n = name
    · obtain rfl := hn
      rw [AList.lookup_insert] at h
      exact Or.inr ⟨rfl, (Option.some.inj h).symm⟩
    · rw [AList.lookup_insert_ne hn] at h
      exact Or.inl h
  · exact Or.inl h

theorem Server.lookup_of_removeClient
    (h : (s.removeClient name).2.clientMap.lookup n = some v) :
    s.clientMap.lookup n = some v := by
  by_cases hn : n = name
  · obtain rfl := hn
    rw [Server.lookup_removeClient_self] at h
    exact absurd h (by simp)
  · rwa [Server.lookup_removeClient_ne hn] at h

theorem Server.lookup_of_destroy (h : (s.destroy u).clientMap.lookup n = some v) :
    s.clientMap.lookup n = some v := by
  cases hd : destroyedName s u with
  | none =>
      rw [Server.destroy_of_none hd] at h
      exact h
  | some m =>
      rw [Server.destroy_of_name hd] at h
      have hkept := Server.lookup_of_removeClient h
      exact hkept

/-- The entries of the client manager and the names remembered, where a step takes no
session away and leaves a name that it does not erase. -/
theorem NamesAlive.keep (h : NamesAlive s)
    (hlookup : ∀ n v, t.clientMap.lookup n = some v → s.clientMap.lookup n = some v)
    (hlive : s.live ⊆ t.live)
    (hname : ∀ v ∈ s.live, (t.session v).clientName = (s.session v).clientName) :
    NamesAlive t := by
  intro n v hn
  obtain ⟨hv, hremembers⟩ := h n v (hlookup n v hn)
  exact ⟨hlive hv, Server.remembers_iff.mpr
    ((hname v hv).trans (Server.remembers_iff.mp hremembers))⟩

/-! ## Requests -/

theorem Server.clientClose_clientInfo (v : Uuid) :
    ((s.clientClose u).session v).clientInfo = (s.session v).clientInfo :=
  Server.setSession_field CSession.clientInfo (by rfl) v

theorem ReplyBase.clientName {base : Server} (h : ReplyBase s u msg base) (v : Uuid) :
    (base.session v).clientName = (s.session v).clientName :=
  congrArg Prod.fst (h.identity v)

/-- A request that is no REGISTER that can be read keeps all names alive. -/
theorem NamesAlive.request (h : NamesAlive s) (hout : RequestOutcome lib s u msg t)
    (hregister : registeredName lib s u msg = none) : NamesAlive t := by
  refine h.keep ?_ hout.live.ge ?_
  · intro n v hn
    cases hout with
    | silent hbase => rwa [← hbase.clientMap]
    | replied hbase => rwa [Server.send_clientMap, hbase.clientMap] at hn
    | registered _ hname => simp [hregister] at hname
    | closed =>
        rw [Server.reply, Server.send_clientMap] at hn
        have hkept := Server.lookup_of_removeClient hn
        exact hkept
    | forwarded =>
        rw [Server.forward, Server.reply, Server.send_clientMap, Server.send_clientMap] at hn
        exact hn
  · intro v _
    cases hout with
    | silent hbase => exact hbase.clientName v
    | replied hbase => rw [CSession.clientName, Server.send_clientInfo]; exact hbase.clientName v
    | registered _ hname => simp [hregister] at hname
    | closed =>
        rw [CSession.clientName, Server.reply, Server.send_clientInfo,
          Server.removeClient_session, Server.clientClose_clientInfo, CSession.clientName]
    | forwarded =>
        rw [CSession.clientName, Server.forward, Server.reply, Server.send_clientInfo,
          Server.send_clientInfo, CSession.clientName]

/-- **A REGISTER** keeps all names alive exactly if the session has no other name. -/
theorem NamesAlive.registered (h : NamesAlive s) (hu : u ∈ s.live)
    (hout : RequestOutcome lib s u msg t) (hname : registeredName lib s u msg = some name) :
    NamesAlive t ↔ ∀ n, s.clientMap.lookup n = some u → n = name := by
  have hlive := hout.live
  cases hout with
  | silent _ hunguarded => simp [hunguarded.registeredName] at hname
  | replied _ _ hregister => simp [hregister] at hname
  | closed hcommand => simp [registeredName_of_command hcommand] at hname
  | forwarded hforwards => simp [registeredName_of_command hforwards.command] at hname
  | @registered info resp hcommand hname' =>
      obtain rfl := Option.some.inj (hname'.symm.trans hname)
      have hself : ((((s.setClientInfo u info).addClient info.name u).2.reply lib u msg.header
          resp).session u).clientInfo = some info := by
        rw [Server.reply, Server.send_clientInfo, Server.addClient_session,
          Server.setClientInfo_session_self]
      have hother : ∀ w, w ≠ u → ((((s.setClientInfo u info).addClient info.name u).2.reply lib u
          msg.header resp).session w).clientInfo = (s.session w).clientInfo := by
        intro w hw
        rw [Server.reply, Server.send_clientInfo, Server.addClient_session,
          Server.setClientInfo_session_ne hw]
      constructor
      · intro ht n hn
        have hkept := @Server.lookup_addClient (s.setClientInfo u info) u u info.name n hn
        obtain ⟨-, info', hinfo', rfl⟩ :=
          ht n u (by rw [Server.reply, Server.send_clientMap, hkept])
        rw [Option.some.inj (hinfo'.symm.trans hself)]
      · intro hsole n v hn
        rw [Server.reply, Server.send_clientMap] at hn
        rcases Server.lookup_of_addClient hn with hold | ⟨rfl, rfl⟩
        · obtain ⟨hv, info', hinfo', rfl⟩ := h n v hold
          refine ⟨hlive ▸ hv, ?_⟩
          by_cases hvu : v = u
          · obtain rfl := hvu
            exact ⟨info, hself, (hsole _ hold).symm⟩
          · exact ⟨info', (hother v hvu).trans hinfo', rfl⟩
        · exact ⟨hlive ▸ hu, info, hself, rfl⟩

/-! ## The other steps -/

/-- **A destructor** keeps all names alive exactly if the empty name is not the
session's. -/
theorem NamesAlive.destroyed (h : NamesAlive s) :
    NamesAlive (s.destroy u) ↔ s.clientMap.lookup [] ≠ some u := by
  constructor
  · intro ht hempty
    obtain ⟨-, info, hinfo, hname⟩ := h [] u hempty
    have hnone : destroyedName s u = none := by
      simp [destroyedName, hinfo, hname]
    have hstays : (s.destroy u).clientMap.lookup [] = some u := by
      rw [Server.destroy_of_none hnone, hempty]
    have hlive := (ht [] u hstays).1
    rw [Server.destroy_live] at hlive
    exact Finset.notMem_erase u s.live hlive
  · intro hempty n v hn
    have hold := Server.lookup_of_destroy hn
    obtain ⟨hv, info, hinfo, rfl⟩ := h n v hold
    have hvu : v ≠ u := by
      rintro rfl
      have hname : destroyedName s v = some info.name := by
        have hne : info.name ≠ [] := fun heq => hempty (heq ▸ hold)
        simp [destroyedName, hinfo, hne]
      rw [Server.destroy_of_name hname, Server.lookup_removeClient_self] at hn
      exact absurd hn (by simp)
    refine ⟨?_, info, by rw [Server.destroy_session, hinfo], rfl⟩
    rw [Server.destroy_live]
    exact Finset.mem_erase_of_ne_of_mem hvu hv

theorem soleName_other (hrequest : ∀ env u msg, a ≠ .request env u msg)
    (hdestroy : ∀ u, a ≠ .destroy u) : SoleName lib s a t :=
  ⟨fun env u msg _ heq => absurd heq (hrequest env u msg), fun u heq => absurd heq (hdestroy u)⟩

/-- **One step** keeps all names alive exactly under the condition. -/
theorem namesAlive_step_iff (h : NamesAlive s) (hs : serverStep lib s a = some t) :
    NamesAlive t ↔ SoleName lib s a t := by
  cases effect_of_serverStep hs with
  | @connect u endpoint hu =>
      refine iff_of_true ?_ (soleName_other (by simp) (by simp))
      refine h.keep (fun _ _ hn => hn) (Finset.subset_insert u s.live) fun v hv => ?_
      have hvu : v ≠ u := fun heq => hu (heq ▸ hv)
      exact congrArg CSession.clientName (Server.setSession_session_ne hvu)
  | @request env u msg t hu hout =>
      cases hregister : registeredName lib s u msg with
      | none =>
          refine iff_of_true (h.request hout hregister) ⟨?_, by simp⟩
          rintro _ _ _ name ⟨⟩ hname
          simp [hregister] at hname
      | some name =>
          rw [h.registered hu hout hregister]
          constructor
          · intro hsole
            refine ⟨?_, by simp⟩
            rintro _ _ _ name' ⟨⟩ hname
            exact Option.some.inj (hregister.symm.trans hname) ▸ hsole
          · exact fun hsole => hsole.1 env u msg name rfl hregister
  | disconnect | close | written =>
      refine iff_of_true ?_ (soleName_other (by simp) (by simp))
      exact h.keep (fun _ _ hn => hn) (Finset.Subset.refl _) fun v _ =>
        Server.setSession_field CSession.clientName (by rfl) v
  | delete => exact iff_of_true h (soleName_other (by simp) (by simp))
  | runPosted =>
      refine iff_of_true ?_ (soleName_other (by simp) (by simp))
      refine h.keep (fun _ _ hn => hn) (Finset.Subset.refl _) fun v _ => ?_
      refine Server.setSession_field CSession.clientName ?_ v
      exact congrArg Prod.fst (CSession.doSend_identity _ _)
  | @destroy u =>
      rw [h.destroyed]
      constructor
      · intro hempty
        refine ⟨by simp, ?_⟩
        rintro _ ⟨⟩
        exact hempty
      · exact fun hsole => hsole.2 u rfl

/-! ## Whole runs -/

/-- **No name survives its session, exactly.** In every run from the start of the
server: every entry of the client manager belongs in every state to a session that
exists and remembers it, if and only if no session REGISTERs a name while it has another
and none is destroyed while the empty name is its own. -/
theorem names_survive_iff (lib : JsonLib) (as : List ServerEvent) :
    AllStates (serverStep lib) NamesAlive {} as ↔
      AllSteps (serverStep lib) (SoleName lib) {} as := by
  have hinit : NamesAlive {} := by
    intro n u hn
    exact absurd hn (by simp)
  have hstep : ∀ s a t, True → NamesAlive s → serverStep lib s a = some t →
      (NamesAlive t ↔ SoleName lib s a t) := fun _ _ _ _ h => namesAlive_step_iff h
  exact allStates_iff_allSteps (fun _ _ _ _ _ => trivial) hstep as {} trivial hinit

/-- A session registers two names and goes: the first one stays with nobody. -/
theorem second_name_outlives_its_session : ¬ ∀ (lib : JsonLib) (as : List ServerEvent),
    AllStates (serverStep lib) NamesAlive {} as := by
  let events : List ServerEvent := [.connect 0 ⟨ascii "10.0.0.1", 50000⟩,
    .request {} 0 (clientRequest Const.communicationRegister (nameBody (ascii "a"))),
    .request {} 0 (clientRequest Const.communicationRegister (nameBody (ascii "b"))),
    .runPosted 0, .runPosted 0, .close 0, .delete 0, .destroy 0]
  have hrun : (run (serverStep tableLib) {} events).map (fun s =>
      (s.clientMap.lookup (ascii "a"), decide (0 ∈ s.live))) = some (some 0, false) := by
    decide +kernel
  obtain ⟨s, hs, hview⟩ := Option.map_eq_some_iff.mp hrun
  obtain ⟨hlookup, hgone⟩ := Prod.mk.inj hview
  intro h
  have hlive := (((h tableLib events).last hs) _ 0 hlookup).1
  exact absurd hlive (of_decide_eq_false hgone)

end AsioServer.Services
