/-
AsioServer.Services.ServerTheorems — what each call on the shared data changes.

Every operation gets the lemmas that say which fields of the `Server` it leaves
alone and what it does to the others; the later modules do not unfold one. A
field of all sessions is kept by a change of one session that keeps it there
(`setSession_field`), so the lemmas about `send`, `clientClose` and
`setClientInfo` are about the field of the one session.
-/
import AsioServer.Services.Server

namespace AsioServer.Services

open AsioServer.Core AsioServer.Infra

namespace Server

variable {s : Server} {u v : Uuid} {x : CSession} {header : MessageHeader} {body name : Bytes}
  {status : Option Int} {info : ClientInfo}

/-! ## Sessions -/

@[simp] theorem setSession_live : (s.setSession u x).live = s.live := rfl

@[simp] theorem setSession_sessionMap : (s.setSession u x).sessionMap = s.sessionMap := rfl

@[simp] theorem setSession_clientMap : (s.setSession u x).clientMap = s.clientMap := rfl

@[simp] theorem setSession_calls : (s.setSession u x).calls = s.calls := rfl

@[simp] theorem setSession_session_self : (s.setSession u x).session u = x := by
  simp only [setSession, Function.update_self]

theorem setSession_session_ne (h : v ≠ u) : (s.setSession u x).session v = s.session v := by
  simp only [setSession, Function.update_of_ne h]

/-- A field that the new value of one session keeps is kept by all sessions. -/
theorem setSession_field {α : Type*} (f : CSession → α) (h : f x = f (s.session u)) (v : Uuid) :
    f ((s.setSession u x).session v) = f (s.session v) := by
  by_cases hv : v = u
  · rw [hv, setSession_session_self, h]
  · rw [setSession_session_ne hv]

/-! ## Send -/

/-- The message that `Send` makes. -/
def outgoing (header : MessageHeader) (body : Bytes) : Outgoing :=
  ⟨{ header with length := UInt32.ofNat body.length }, body⟩

theorem send_of_stopped (h : (s.session u).bStop = true) : s.send u header body status =
    { s with calls := s.calls ++ [(⟨u, outgoing header body, status, false⟩ : SendCall)] } := by
  simp only [send, h, if_true, Bool.not_true]
  rfl

theorem send_of_open (h : (s.session u).bStop = false) : s.send u header body status =
    { s with
      calls := s.calls ++ [(⟨u, outgoing header body, status, true⟩ : SendCall)] }.setSession u
        { s.session u with posted := (s.session u).posted ++ [outgoing header body] } := by
  simp only [send, h, Bool.false_eq_true, if_false, Bool.not_false]
  rfl

@[simp] theorem send_live : (s.send u header body status).live = s.live := by
  cases h : (s.session u).bStop with
  | true => rw [send_of_stopped h]
  | false => rw [send_of_open h, setSession_live]

@[simp] theorem send_sessionMap : (s.send u header body status).sessionMap = s.sessionMap := by
  cases h : (s.session u).bStop with
  | true => rw [send_of_stopped h]
  | false => rw [send_of_open h, setSession_sessionMap]

@[simp] theorem send_clientMap : (s.send u header body status).clientMap = s.clientMap := by
  cases h : (s.session u).bStop with
  | true => rw [send_of_stopped h]
  | false => rw [send_of_open h, setSession_clientMap]

@[simp] theorem send_calls : (s.send u header body status).calls =
    s.calls ++ [⟨u, outgoing header body, status, !(s.session u).bStop⟩] := by
  cases h : (s.session u).bStop with
  | true => rw [send_of_stopped h, Bool.not_true]
  | false => rw [send_of_open h, setSession_calls, Bool.not_false]

/-- `Send` changes nothing of a session but what is posted. -/
theorem send_field {α : Type*} (f : CSession → α)
    (h : ∀ x : CSession, ∀ posted, f { x with posted } = f x) (v : Uuid) :
    f ((s.send u header body status).session v) = f (s.session v) := by
  cases hb : (s.session u).bStop with
  | true => rw [send_of_stopped hb]
  | false =>
      rw [send_of_open hb]
      exact setSession_field f (h _ _) v

theorem send_clientInfo (v : Uuid) :
    ((s.send u header body status).session v).clientInfo = (s.session v).clientInfo :=
  send_field CSession.clientInfo (fun _ _ => rfl) v

/-- What is posted to a session after a `Send`. -/
theorem send_posted (v : Uuid) : ((s.send u header body status).session v).posted =
    (s.session v).posted ++
      (if v = u ∧ (s.session u).bStop = false then [outgoing header body] else []) := by
  cases hb : (s.session u).bStop with
  | true => simp [send_of_stopped hb]
  | false =>
      rw [send_of_open hb]
      by_cases hv : v = u
      · simp [hv]
      · simp [hv, setSession_session_ne hv]

/-! ## Close and ClientClose -/

/-- `Close` sets `_bStop` and nothing else. -/
theorem close_field {α : Type*} (f : CSession → α)
    (h : ∀ x : CSession, ∀ bStop, f { x with bStop } = f x) (v : Uuid) :
    f ((s.close u).session v) = f (s.session v) :=
  setSession_field f (h _ _) v

@[simp] theorem clientClose_sessionMap :
    (s.clientClose u).sessionMap = s.sessionMap.erase u := rfl

@[simp] theorem clientClose_session_self : (s.clientClose u).session u =
    { s.session u with bStop := true, clientClosed := true } :=
  setSession_session_self

theorem clientClose_session_ne (h : v ≠ u) : (s.clientClose u).session v = s.session v :=
  setSession_session_ne h

/-! ## ClientInfo -/

@[simp] theorem setClientInfo_sessionMap : (s.setClientInfo u info).sessionMap = s.sessionMap :=
  rfl

@[simp] theorem setClientInfo_session_self : (s.setClientInfo u info).session u =
    { s.session u with clientInfo := some info } :=
  setSession_session_self

theorem setClientInfo_session_ne (h : v ≠ u) :
    (s.setClientInfo u info).session v = s.session v :=
  setSession_session_ne h

/-- `SetClientInfo` changes nothing else of a session. -/
theorem setClientInfo_field {α : Type*} (f : CSession → α)
    (h : ∀ x : CSession, ∀ clientInfo, f { x with clientInfo } = f x) (v : Uuid) :
    f ((s.setClientInfo u info).session v) = f (s.session v) :=
  setSession_field f (h _ _) v

/-- `SetLastConnectTime` changes nothing else of a session. -/
theorem setLastConnectTime_field {α : Type*} {connectTime : Int} (f : CSession → α)
    (h : ∀ x : CSession, f { x with clientInfo := x.clientInfo.map fun info =>
      { info with connectTime } } = f x) (v : Uuid) :
    f ((s.setLastConnectTime u connectTime).session v) = f (s.session v) :=
  setSession_field f (h _) v

/-- A session without `ClientInfo` has no time to set. -/
theorem setLastConnectTime_of_none {connectTime : Int} (h : (s.session u).clientInfo = none) :
    s.setLastConnectTime u connectTime = s := by
  have hsame : { s.session u with clientInfo := (s.session u).clientInfo.map fun info =>
      { info with connectTime } } = s.session u := by
    rw [h, Option.map_none, ← h]
  rw [setLastConnectTime, hsame, setSession, Function.update_eq_self]

/-! ## ClientManager -/

@[simp] theorem addClient_live : (s.addClient name u).2.live = s.live := by
  unfold addClient
  split <;> rfl

@[simp] theorem addClient_sessionMap : (s.addClient name u).2.sessionMap = s.sessionMap := by
  unfold addClient
  split <;> rfl

@[simp] theorem addClient_session : (s.addClient name u).2.session = s.session := by
  unfold addClient
  split <;> rfl

@[simp] theorem addClient_calls : (s.addClient name u).2.calls = s.calls := by
  unfold addClient
  split <;> rfl

/-- **`AddClient`** keeps every entry. -/
theorem lookup_addClient {n : Bytes} (h : s.clientMap.lookup n = some v) :
    (s.addClient name u).2.clientMap.lookup n = some v := by
  unfold addClient
  split
  · next hfree =>
      have hn : n ≠ name := by
        rintro rfl
        simp [h] at hfree
      exact (AList.lookup_insert_ne hn).trans h
  · exact h

/-- After `AddClient` of a name that is free or one's own, the name is one's own. -/
theorem lookup_addClient_self
    (h : s.clientMap.lookup name = none ∨ s.clientMap.lookup name = some u) :
    (s.addClient name u).2.clientMap.lookup name = some u := by
  cases h with
  | inl hfree =>
      rw [addClient, if_pos (by rw [hfree, Option.isNone_none])]
      exact AList.lookup_insert s.clientMap
  | inr hown => exact lookup_addClient hown

@[simp] theorem removeClient_live : (s.removeClient name).2.live = s.live := by
  unfold removeClient
  split <;> rfl

@[simp] theorem removeClient_sessionMap :
    (s.removeClient name).2.sessionMap = s.sessionMap := by
  unfold removeClient
  split <;> rfl

@[simp] theorem removeClient_session : (s.removeClient name).2.session = s.session := by
  unfold removeClient
  split <;> rfl

@[simp] theorem removeClient_calls : (s.removeClient name).2.calls = s.calls := by
  unfold removeClient
  split <;> rfl

/-- **`RemoveClient`** keeps every entry under another name. -/
theorem lookup_removeClient_ne {n : Bytes} (h : n ≠ name) :
    (s.removeClient name).2.clientMap.lookup n = s.clientMap.lookup n := by
  unfold removeClient
  split
  · exact AList.lookup_erase_ne h
  · rfl

/-- `RemoveClient` erases the entry under its name, whoever has it. -/
theorem lookup_removeClient_self : (s.removeClient name).2.clientMap.lookup name = none := by
  unfold removeClient
  split
  · exact AList.lookup_erase name s.clientMap
  · next h => simpa using h

end Server

end AsioServer.Services
