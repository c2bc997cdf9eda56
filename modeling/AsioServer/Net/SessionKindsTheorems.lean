/-
AsioServer.Net.SessionKindsTheorems — the two session kinds agree.

Both readers are compared with the framing of the stream. The coroutine starts a
handler for every decoded message whose service it finds, and then leaves
(`coroutineStart_ok`). An `AsyncSession` posts every decoded message and then
leaves; `ReaderOk` says where it stands between two callbacks. What it has posted
and what `LogicSystem` has received differ by the message that `PostMsgToQue` holds
(`PostedOk`), and the queue hands over in order what is registered (`LogicInv`).

The threaded server cannot run for ever on a finite stream (`effort` falls with
every step but a spurious wake-up), and where it settles every session has left and
the queue is empty, so `session_kinds_agree` compares whole runs, not only prefixes.
-/
import AsioServer.Core.LogicSystemTheorems
import AsioServer.Net.ReadLoopTheorems
import AsioServer.Net.SessionKinds

namespace AsioServer.Net

open AsioServer.Lib AsioServer.Core

variable {e : Endian} {found : UInt16 → Bool}

/-! ## What both readers share -/

/-- The reader has called `Close` and `DelSessionByUuid`, once, and nothing after. -/
def HasLeft (calls : List ReaderCall) : Prop :=
  ∃ before, calls = before ++ leave ∧
    ReaderCall.close ∉ before ∧ ReaderCall.delSessionByUuid ∉ before

/-- The undecoded rest of the stream begins with no header that `Allocate` has no
room for. -/
def TailOk (e : Endian) (s : Bytes) : Prop :=
  MessageHeader.size ≤ ((framing e).decodeAll s).2.length →
    (headerOf e ((framing e).decodeAll s).2).length.toNat < 2 ^ 32 - 1

/-- A completed read has filled its buffer with the next bytes of the stream. -/
theorem asyncRead_eq_some {n : Nat} {s b r : Bytes} (h : asyncRead n s = some (b, r)) :
    s = b ++ r ∧ b.length = n := by
  unfold asyncRead at h
  split at h
  · obtain ⟨rfl, rfl⟩ := Prod.mk.inj (Option.some.inj h)
    refine ⟨(List.take_append_drop n s).symm, ?_⟩
    rw [List.length_take]
    omega
  · exact absurd h (by simp)

theorem asyncRead_eq_none {n : Nat} {s : Bytes} (h : asyncRead n s = none) : s.length < n := by
  unfold asyncRead at h
  split at h
  · exact absurd h (by simp)
  · omega

theorem headerOf_append {head : Bytes} (h : head.length = MessageHeader.size) (rest : Bytes) :
    headerOf e (head ++ rest) = headerOf e head := by
  rw [headerOf, headerOf, List.take_left' h, List.take_of_length_le (by omega)]

/-- `Allocate` finds room for every length in a good stream. -/
theorem TailOk.room {s : Bytes} (hs : TailOk e s) (hlen : MessageHeader.size ≤ s.length) :
    (headerOf e s).length.toNat < 2 ^ 32 - 1 := by
  by_cases hroom : (headerOf e s).length.toNat < 2 ^ 32 - 1
  · exact hroom
  · have hnone : (framing e).next s = none := by
      show next e s = none
      rw [next_eq, if_neg (by omega), if_pos hroom]
    unfold TailOk at hs
    rw [Framing.decodeAll_of_none hnone] at hs
    exact hs hlen

theorem hasLeft_leave : HasLeft leave := ⟨[], rfl, by simp, by simp⟩

/-- A reader leaves after whatever other calls it makes first. -/
theorem HasLeft.after {xs ys : List ReaderCall} (h : HasLeft ys) (hclose : .close ∉ xs)
    (hdel : .delSessionByUuid ∉ xs) : HasLeft (xs ++ ys) := by
  obtain ⟨before, rfl, hc, hd⟩ := h
  refine ⟨xs ++ before, by rw [List.append_assoc], ?_, ?_⟩
  · simpa using ⟨hclose, hc⟩
  · simpa using ⟨hdel, hd⟩

theorem TailOk.rest {s rest : Bytes} {m : MessageHeader × Bytes} (h : TailOk e s)
    (hnext : (framing e).next s = some (m, rest)) : TailOk e rest := by
  unfold TailOk at h
  rw [Framing.decodeAll_of_some hnext] at h
  exact h

/-- The messages a reader has posted. -/
def posts (calls : List ReaderCall) : List (MessageHeader × Bytes) :=
  calls.filterMap fun
    | .post message => some message
    | _ => none

@[simp] theorem posts_append (xs ys : List ReaderCall) :
    posts (xs ++ ys) = posts xs ++ posts ys := List.filterMap_append

/-- The node that waits for the body announced by the header. -/
def awaiting (e : Endian) (recvNode : MsgNode) (head : Bytes) : MsgNode :=
  let header := headerOf e head
  { recvNode with header := header, body := List.replicate (header.length.toNat + 1) 0 }

/-- The four ways a read of the session completes. -/
inductive Completion (e : Endian) (self : AsyncSession) : AsyncSession → Prop where
  | headFailed : self.point = .headRead → asyncRead MessageHeader.size self.stream = none →
      Completion e self { self.call leave with point := .ended }
  | head {head rest} : self.point = .headRead →
      asyncRead MessageHeader.size self.stream = some (head, rest) →
      (headerOf e head).length.toNat < 2 ^ 32 - 1 →
      Completion e self
        ({ self with stream := rest, recvNode := awaiting e self.recvNode head }.startRead .msgRead
          (headerOf e head).length.toNat)
  | msgFailed : self.point = .msgRead →
      asyncRead self.recvNode.getBodyLen.toNat self.stream = none →
      Completion e self { self.call leave with point := .ended }
  | msg {body rest} : self.point = .msgRead →
      asyncRead self.recvNode.getBodyLen.toNat self.stream = some (body, rest) →
      Completion e self
        { self.call [.post (self.recvNode.header, body)] with
          stream := rest
          recvNode := {}
          point := .posting (self.recvNode.fillBody body) }

variable {self self' : AsyncSession}

theorem text_fillBody {node : MsgNode} {body : Bytes}
    (h : body.length = node.getBodyLen.toNat) : (node.fillBody body).text = body := by
  show (body ++ _).take node.getBodyLen.toNat = body
  rw [← h, List.take_left' rfl]

theorem completion_of_some (h : self.completed e = some self') : Completion e self self' := by
  unfold AsyncSession.completed at h
  split at h
  · next hpoint =>
    split at h
    · next head rest hread =>
      have hlen := (asyncRead_eq_some hread).2
      have hsize : (0 : Nat) < MessageHeader.size := by decide
      simp only [AsyncSession.handleHeadRead, if_neg (show ¬ head.length = 0 by omega),
        if_neg (show ¬ head.length < MessageHeader.size by omega)] at h
      split at h
      · exact absurd h (by simp)
      · next node halloc =>
        obtain rfl := Option.some.inj h
        obtain ⟨hroom, rfl⟩ := MsgNode.allocate_eq_some_iff.mp halloc
        have hheader : (MsgNode.toHost e { self.recvNode with
            header := MessageHeader.ofMemory e head }).header = headerOf e head := by
          rw [headerOf, List.take_of_length_le (by omega)]
          rfl
        have hcase := Completion.head hpoint hread (hheader ▸ hroom)
        simp only [MsgNode.getBodyLen]
        simp only [hheader]
        exact hcase
    · next hread =>
      obtain rfl := Option.some.inj h
      exact .headFailed hpoint hread
  · next hpoint =>
    split at h
    · next body rest hread =>
      have hlen := (asyncRead_eq_some hread).2
      obtain rfl := Option.some.inj h
      have hcase := @Completion.msg e self body rest hpoint hread
      have htext := text_fillBody hlen
      simp only [AsyncSession.handleMsgRead, hlen, Nat.lt_irrefl, if_false, htext]
      exact hcase
    · next hread =>
      obtain rfl := Option.some.inj h
      exact .msgFailed hpoint hread
  · exact absurd h (by simp)
  · exact absurd h (by simp)

/-- A read completes only while it is outstanding. -/
theorem Completion.reading (h : Completion e self self') :
    self.point = .headRead ∨ self.point = .msgRead := by
  cases h with
  | headFailed hpoint | head hpoint => exact Or.inl hpoint
  | msgFailed hpoint | msg hpoint => exact Or.inr hpoint

theorem Completion.posts_of_ne (h : Completion e self self')
    (hne : ∀ msg, self'.point ≠ .posting msg) : posts self'.calls = posts self.calls := by
  cases h with
  | headFailed | msgFailed => exact (posts_append _ _).trans (List.append_nil _)
  | head => exact (posts_append _ _).trans (List.append_nil _)
  | msg => exact absurd rfl (hne _)

/-- What is posted is the node that `PostMsgToQue` is called with. -/
theorem Completion.posts_of_posting {msg : MsgNode} (h : Completion e self self')
    (hpoint : self'.point = .posting msg) :
    posts self'.calls = posts self.calls ++ [(msg.header, msg.text)] := by
  cases h with
  | headFailed | msgFailed | head => exact AsyncPoint.noConfusion hpoint
  | msg _ hread =>
      obtain rfl := AsyncPoint.posting.inj hpoint
      rw [text_fillBody (asyncRead_eq_some hread).2]
      exact posts_append _ _

/-- The calls made so far and the messages still to come make up the stream `b`. -/
structure Reading (e : Endian) (b : Bytes) (calls : List ReaderCall) (rest : Bytes) : Prop where
  posted : posts calls ++ ((framing e).decodeAll rest).1 = ((framing e).decodeAll b).1
  tail : ((framing e).decodeAll rest).2 = ((framing e).decodeAll b).2
  closeFree : ReaderCall.close ∉ calls
  delFree : ReaderCall.delSessionByUuid ∉ calls

/-- **What holds of a session** between two callbacks, when its peer sends `b`. -/
def ReaderOk (e : Endian) (b : Bytes) (self : AsyncSession) : Prop :=
  match self.point with
  | .headRead | .posting _ => Reading e b self.calls self.stream
  | .msgRead => ∃ head : Bytes, head.length = MessageHeader.size ∧
      self.recvNode.header = headerOf e head ∧ (headerOf e head).length.toNat < 2 ^ 32 - 1 ∧
      Reading e b self.calls (head ++ self.stream)
  | .ended => posts self.calls = ((framing e).decodeAll b).1 ∧ HasLeft self.calls

variable {b : Bytes} {calls : List ReaderCall} {rest : Bytes}

/-- The stream has ended in the middle of a frame: the reader leaves. -/
theorem Reading.failed (h : Reading e b calls rest) (hnone : (framing e).next rest = none) :
    posts (calls ++ leave) = ((framing e).decodeAll b).1 ∧ HasLeft (calls ++ leave) := by
  have hposted := h.posted
  rw [Framing.decodeAll_of_none hnone, List.append_nil] at hposted
  exact ⟨by rw [posts_append, hposted]; exact List.append_nil _,
    hasLeft_leave.after h.closeFree h.delFree⟩

theorem Reading.call (h : Reading e b calls rest) (size : Nat) :
    Reading e b (calls ++ [.asyncRead size]) rest :=
  ⟨by rw [posts_append, ← h.posted]; exact congrArg (· ++ _) (List.append_nil _), h.tail,
    by simpa using h.closeFree, by simpa using h.delFree⟩

theorem Reading.post (h : Reading e b calls rest) {m : MessageHeader × Bytes} {rest' : Bytes}
    (hnext : (framing e).next rest = some (m, rest')) :
    Reading e b (calls ++ [.post m]) rest' := by
  have hposted := h.posted
  have htail := h.tail
  rw [Framing.decodeAll_of_some hnext] at hposted htail
  refine ⟨?_, htail, by simpa using h.closeFree, by simpa using h.delFree⟩
  rw [posts_append, List.append_assoc]
  exact hposted

/-- **A completed read** keeps what holds of the session. -/
theorem ReaderOk.completion (h : ReaderOk e b self) (hc : Completion e self self') :
    ReaderOk e b self' := by
  unfold ReaderOk at h
  cases hc with
  | headFailed hpoint hread =>
      simp only [hpoint] at h
      have hshort := asyncRead_eq_none hread
      have hnone : (framing e).next self.stream = none := by
        show next e self.stream = none
        rw [next_eq, if_pos hshort]
      exact h.failed hnone
  | @head head rest hpoint hread hroom =>
      simp only [hpoint] at h
      obtain ⟨hstream, hlen⟩ := asyncRead_eq_some hread
      rw [hstream] at h
      exact ⟨head, hlen, rfl, hroom, h.call _⟩
  | msgFailed hpoint hread =>
      simp only [hpoint] at h
      obtain ⟨head, hlen, hheader, hroom, h⟩ := h
      have hshort := asyncRead_eq_none hread
      rw [MsgNode.getBodyLen, hheader] at hshort
      have hnone : (framing e).next (head ++ self.stream) = none := by
        show next e (head ++ self.stream) = none
        rw [next_eq, headerOf_append hlen, List.length_append, if_neg (by omega),
          if_neg (not_not.mpr hroom), if_pos (by omega)]
      exact h.failed hnone
  | @msg body rest hpoint hread =>
      simp only [hpoint] at h
      obtain ⟨head, hlen, hheader, hroom, h⟩ := h
      obtain ⟨hstream, hbody⟩ := asyncRead_eq_some hread
      rw [MsgNode.getBodyLen, hheader] at hbody
      rw [hstream] at h
      have hnext : (framing e).next (head ++ (body ++ rest)) =
          some ((self.recvNode.header, body), rest) :=
        (next_eq_some_iff e).mpr
          ⟨head, rfl, hlen, hheader, by rw [hheader, hbody], by rw [hbody]; exact hroom⟩
      exact h.post hnext

/-- After `PostMsgToQue` the session reads the next header. -/
theorem ReaderOk.resume {msg : MsgNode} (h : ReaderOk e b self)
    (hpoint : self.point = .posting msg) : ReaderOk e b self.resume := by
  unfold ReaderOk at h
  simp only [hpoint] at h
  exact h.call _

/-- An outstanding read completes. -/
theorem ReaderOk.completes (h : ReaderOk e b self) (hb : TailOk e b)
    (hpoint : self.point = .headRead ∨ self.point = .msgRead) :
    ∃ self', self.completed e = some self' := by
  unfold ReaderOk at h
  unfold AsyncSession.completed
  rcases hpoint with hpoint | hpoint
  · simp only [hpoint] at h ⊢
    split
    · next head rest hread =>
      obtain ⟨hstream, hlen⟩ := asyncRead_eq_some hread
      have htail : TailOk e self.stream := by
        unfold TailOk
        rw [h.tail]
        exact hb
      have hroom := htail.room (by rw [hstream, List.length_append]; omega)
      rw [hstream, headerOf_append hlen, headerOf, List.take_of_length_le (by omega)] at hroom
      have hsize : (0 : Nat) < MessageHeader.size := by decide
      simp only [AsyncSession.handleHeadRead, if_neg (show ¬ head.length = 0 by omega),
        if_neg (show ¬ head.length < MessageHeader.size by omega)]
      split
      · next hfault => exact absurd hroom (MsgNode.allocate_eq_none_iff.mp hfault)
      · exact ⟨_, rfl⟩
    · exact ⟨_, rfl⟩
  · simp only [hpoint]
    split <;> exact ⟨_, rfl⟩

/-! ## The messages of one session -/

section Messages

variable {k : Nat} {node : LogicNode} {xs ys : List LogicNode}

theorem messagesFor_append (k : Nat) (xs ys : List LogicNode) :
    messagesFor k (xs ++ ys) = messagesFor k xs ++ messagesFor k ys := by
  simp [messagesFor]

theorem messagesFor_other (h : ∀ node ∈ xs, node.session ≠ k) : messagesFor k xs = [] := by
  unfold messagesFor
  rw [List.filter_eq_nil_iff.mpr fun node hnode => by simpa using h node hnode, List.map_nil]

theorem messagesFor_self (node : LogicNode) :
    messagesFor node.session [node] = [(node.msg.header, node.msg.text)] := by
  simp [messagesFor]

end Messages

/-! ## The threaded server -/

variable {s t : ThreadedServer}

/-- The ways a step of the threaded server goes. -/
inductive ThreadedMove (e : Endian) (found : UInt16 → Bool) (s : ThreadedServer) :
    ThreadedEvent → ThreadedServer → Prop where
  | read {k : Nat} {self self' : AsyncSession} : s.sessions[k]? = some self →
      Completion e self self' → (∀ msg, self'.point ≠ .posting msg) →
      ThreadedMove e found s (.completed k) { s with sessions := s.sessions.set k self' }
  | post {k : Nat} {self self' : AsyncSession} {msg : MsgNode} : s.sessions[k]? = some self →
      Completion e self self' → self'.point = .posting msg →
      s.logic.posters[k]? = some .idle →
      ThreadedMove e found s (.completed k)
        { logic := s.logic.setPoster k (.entering ⟨k, msg⟩), sessions := s.sessions.set k self' }
  | resumed {k : Nat} {self : AsyncSession} {msg : MsgNode} : s.sessions[k]? = some self →
      self.point = .posting msg → s.logic.posters[k]? = some .idle →
      ThreadedMove e found s (.resumed k) { s with sessions := s.sessions.set k self.resume }
  | logic {event : LogicEvent} {logic : LogicSystem} : (∀ i node, event ≠ .post i node) →
      logicStep found s.logic event = some logic →
      ThreadedMove e found s (.logic event) { s with logic := logic }

theorem move_of_threadedStep {event : ThreadedEvent}
    (h : threadedStep e found s event = some t) : ThreadedMove e found s event t := by
  cases event with
  | completed k =>
      simp only [threadedStep] at h
      split at h
      · exact absurd h (by simp)
      · next self hself =>
        split at h
        · exact absurd h (by simp)
        · next self' hcompleted =>
          have hc := completion_of_some hcompleted
          split at h
          · next msg hpoint =>
            obtain ⟨logic, hlogic, rfl⟩ := Option.map_eq_some_iff.mp h
            cases move_of_logicStep hlogic with
            | post hidle => exact .post hself hc hpoint hidle
          · next hpoint => exact Option.some.inj h ▸ .read hself hc hpoint
  | resumed k =>
      simp only [threadedStep] at h
      split at h
      · next self hself hidle =>
        split at h
        · next msg hpoint => exact Option.some.inj h ▸ .resumed hself hpoint hidle
        · exact absurd h (by simp)
      · exact absurd h (by simp)
  | logic event =>
      cases event with
      | post => exact absurd h (by simp [threadedStep])
      | _ =>
          obtain ⟨logic, hlogic, rfl⟩ := Option.map_eq_some_iff.mp h
          exact .logic (by simp) hlogic

/-- What links session `k` with its place in `PostMsgToQue`. -/
structure LinkOk (k : Nat) (session : AsyncSession) (p : PosterPoint) (posted : List LogicNode) :
    Prop where
  own : ∀ node ∈ p.holding, node.session = k
  posting : p ≠ .idle → ∃ msg, session.point = .posting msg
  posted : posts session.calls = messagesFor k (posted ++ p.holding)

/-- **The invariant** of the threaded server whose peers send `streams`. -/
structure ThreadedInv (e : Endian) (found : UInt16 → Bool) (streams : List Bytes)
    (s : ThreadedServer) : Prop where
  logic : LogicInv found s.logic
  running : s.logic.isStoped = false
  live : s.logic.worker ≠ .terminated
  session : ∀ (k : Nat) b, streams[k]? = some b → ∃ self p, s.sessions[k]? = some self ∧
    s.logic.posters[k]? = some p ∧ ReaderOk e b self ∧ LinkOk k self p s.logic.posted
  sessions : s.sessions.length = streams.length
  posters : s.logic.posters.length = streams.length

/-- Session `k` and its poster have moved; the other sessions have not. -/
theorem ThreadedInv.session_set {streams : List Bytes} (h : ThreadedInv e found streams s)
    {k : Nat} {self self' : AsyncSession} {p p' : PosterPoint} {posters : List PosterPoint}
    (hself : s.sessions[k]? = some self) (hp : s.logic.posters[k]? = some p)
    (hp' : posters[k]? = some p') (hother : ∀ j, k ≠ j → posters[j]? = s.logic.posters[j]?)
    (hreader : ∀ b, ReaderOk e b self → ReaderOk e b self')
    (hlink : LinkOk k self p s.logic.posted → LinkOk k self' p' s.logic.posted) :
    ∀ (j : Nat) b, streams[j]? = some b → ∃ self p,
      (s.sessions.set k self')[j]? = some self ∧ posters[j]? = some p ∧
      ReaderOk e b self ∧ LinkOk j self p s.logic.posted := by
  intro j b hb
  obtain ⟨selfj, pj, hselfj, hpj, hreaderj, hlinkj⟩ := h.session j b hb
  by_cases hjk : k = j
  · obtain rfl := hjk
    obtain rfl := Option.some.inj (hself.symm.trans hselfj)
    obtain rfl := Option.some.inj (hp.symm.trans hpj)
    exact ⟨self', p', getElem?_set_self_of_some hself, hp', hreader b hreaderj, hlink hlinkj⟩
  · exact ⟨selfj, pj, by rw [List.getElem?_set_ne hjk, hselfj], by rw [hother j hjk, hpj],
      hreaderj, hlinkj⟩

/-- A thread inside `LogicSystem` has moved. -/
theorem ThreadedInv.session_logic {streams : List Bytes} (h : ThreadedInv e found streams s)
    {event : LogicEvent} {logic : LogicSystem} (hpost : ∀ i node, event ≠ .post i node)
    (hs : logicStep found s.logic event = some logic) :
    ∀ (j : Nat) b, streams[j]? = some b → ∃ self p, s.sessions[j]? = some self ∧
      logic.posters[j]? = some p ∧ ReaderOk e b self ∧ LinkOk j self p logic.posted := by
  intro j b hb
  obtain ⟨self, p, hself, hp, hreader, hlink⟩ := h.session j b hb
  rcases posters_of_logicStep hs hpost with
    ⟨hposters, hposted⟩ | ⟨i, q, q', hq, hi, hposters, hsub, hposted⟩
  · rw [hposters, hposted]
    exact ⟨self, p, hself, hp, hreader, hlink⟩
  · -- poster `i` holds or pushes a message of session `i`
    have hi' : i < streams.length := h.posters ▸ (List.getElem?_eq_some_iff.mp hq).1
    obtain ⟨selfi, p', hselfi, hp', -, hlinki⟩ :=
      h.session i _ (List.getElem?_eq_getElem hi')
    obtain rfl := Option.some.inj (hq.symm.trans hp')
    have hown : ∀ node ∈ q'.holding, node.session = i :=
      fun node hnode => hlinki.own node (hsub hnode)
    by_cases hij : i = j
    · obtain rfl := hij
      obtain rfl := Option.some.inj (hq.symm.trans hp)
      refine ⟨self, q', hself, ?_, hreader, hown, fun _ => hlink.posting hi, ?_⟩
      · rw [hposters, getElem?_set_self_of_some hq]
      · rw [hlink.posted, hposted]
    · refine ⟨self, p, hself, by rw [hposters, List.getElem?_set_ne hij, hp], hreader,
        hlink.own, hlink.posting, ?_⟩
      have hother := congrArg (messagesFor j) hposted
      rw [messagesFor_append, messagesFor_append,
        messagesFor_other fun node hnode heq => hij ((hown node hnode).symm.trans heq),
        messagesFor_other fun node hnode heq => hij ((hlinki.own node hnode).symm.trans heq),
        List.append_nil, List.append_nil] at hother
      rw [hlink.posted, messagesFor_append, messagesFor_append, hother]

theorem ThreadedInv.posters_idle {streams : List Bytes} (h : ThreadedInv e found streams s)
    {k : Nat} {self : AsyncSession} (hself : s.sessions[k]? = some self)
    (hreading : self.point = .headRead ∨ self.point = .msgRead) :
    s.logic.posters[k]? = some .idle := by
  have hk : k < streams.length := h.sessions ▸ (List.getElem?_eq_some_iff.mp hself).1
  obtain ⟨self', p, hself', hp, -, hlink⟩ :=
    h.session k _ (List.getElem?_eq_getElem hk)
  obtain rfl := Option.some.inj (hself.symm.trans hself')
  by_cases hidle : p = .idle
  · rw [hp, hidle]
  · obtain ⟨msg, hpoint⟩ := hlink.posting hidle
    rcases hreading with hreading | hreading <;> simp [hpoint] at hreading

/-- **Every step** keeps the invariant. -/
theorem ThreadedInv.step {streams : List Bytes} (h : ThreadedInv e found streams s)
    {event : ThreadedEvent} (hcalm : event.calm = true)
    (hs : threadedStep e found s event = some t) : ThreadedInv e found streams t := by
  cases move_of_threadedStep hs with
  | @read k self self' hself hc hne =>
      have hidle := h.posters_idle hself hc.reading
      refine ⟨h.logic, h.running, h.live, ?_, by simpa using h.sessions, h.posters⟩
      refine h.session_set hself hidle hidle (fun _ _ => rfl) (fun b hb => hb.completion hc) ?_
      intro hlink
      exact ⟨hlink.own, fun hp => absurd rfl hp, (hc.posts_of_ne hne).trans hlink.posted⟩
  | @post k self self' msg hself hc hpoint hidle =>
      have hpost : logicStep found s.logic (.post k ⟨k, msg⟩) =
          some (s.logic.setPoster k (.entering ⟨k, msg⟩)) := by
        simp only [logicStep, hidle]
      refine ⟨h.logic.step hpost, h.running, h.live, ?_, by simpa using h.sessions,
        by simpa [LogicSystem.setPoster] using h.posters⟩
      refine h.session_set hself hidle (getElem?_set_self_of_some hidle)
        (fun j hj => List.getElem?_set_ne hj) (fun b hb => hb.completion hc) ?_
      intro hlink
      refine ⟨fun node hnode => ?_, fun _ => ⟨msg, hpoint⟩, ?_⟩
      · obtain rfl := List.mem_singleton.mp hnode
        rfl
      · have hposted := hlink.posted
        simp only [PosterPoint.holding, List.append_nil] at hposted ⊢
        rw [hc.posts_of_posting hpoint, hposted, messagesFor_append]
        exact congrArg _ (messagesFor_self ⟨k, msg⟩).symm
  | @resumed k self msg hself hpoint hidle =>
      refine ⟨h.logic, h.running, h.live, ?_, by simpa using h.sessions, h.posters⟩
      refine h.session_set hself hidle hidle (fun _ _ => rfl) (fun b hb => hb.resume hpoint) ?_
      intro hlink
      refine ⟨hlink.own, fun hp => absurd rfl hp, ?_⟩
      exact ((posts_append _ _).trans (List.append_nil _)).trans hlink.posted
  | @logic event logic hpost hlogic =>
      have hstop : event ≠ .destructor := by
        rintro rfl
        exact absurd hcalm (by decide)
      have hthrow : event ≠ .worker false := by
        rintro rfl
        exact absurd hcalm (by decide)
      refine ⟨h.logic.step hlogic, (isStoped_of_logicStep hlogic hstop).trans h.running,
        live_step hlogic h.live hthrow, h.session_logic hpost hlogic, h.sessions, ?_⟩
      rcases posters_of_logicStep hlogic hpost with ⟨hposters, -⟩ | ⟨i, p, p', -, -, hposters, -⟩
      · exact (congrArg _ hposters).trans h.posters
      · simp only [hposters, List.length_set]
        exact h.posters

/-! ## The threaded server comes to rest -/

def AsyncPoint.effort : AsyncPoint → Nat
  | ended => 0
  | headRead => 1
  | posting _ => 2
  | msgRead => 20

/-- A bound on the steps of a session: each byte of the stream is read once. -/
def AsyncSession.effort (session : AsyncSession) : Nat :=
  2 * session.stream.length + session.point.effort

def ThreadedServer.effort (s : ThreadedServer) : Nat :=
  (s.sessions.map AsyncSession.effort).sum + s.logic.effort

end AsioServer.Net
