/-
AsioServer.Net.WatchdogTheorems — which connections the watchdog cuts.

The watchdog goes by `_last_message_time`, and the read coroutine writes it at one place:
after a whole header. Bytes of a body, and of a header that is not complete, do not count,
so a message that comes slowly is cut off while its bytes are coming.

`run_registry` links the session with its clock to the registry of the server, and
`round_of_message` its reads to the read loop. `ByteTimes` says of every byte that it came
before the last header was read, or belongs to that header's body, or is not read yet; with
it `watchdog_cuts_idle_iff` names the bytes that decide, over whole runs.
`slow_body_is_cut` is a run where the watchdog cuts an upload.
-/
import AsioServer.Net.SessionRegistryTheorems
import AsioServer.Net.Watchdog

namespace AsioServer.Net

open AsioServer.Lib AsioServer.Core

variable {e : Endian} {found : UInt16 → Bool} {x y : TimedSession} {a : TimedEvent}
  {s : Registry} {i : Nat}

/-! ## The property and its condition -/

namespace TimedSession

/-- No byte has come in the last 60 seconds. -/
def Idle (x : TimedSession) : Prop := ∀ b ∈ x.arrivals, b + seconds 60 ≤ x.now

/-- The session is closed or unregistered. -/
def Cuts (x y : TimedSession) : Prop :=
  (x.session.bStop = false ∧ y.session.bStop = true) ∨
    (x.registered = true ∧ y.registered = false)

/-- The watchdog is about to compare the times. -/
def Due (x : TimedSession) : Prop :=
  x.session.watchdog = .watching ∧ x.session.bStop = false ∧
    ∃ deadline, x.deadline = some deadline ∧ deadline ≤ x.now

/-- A byte of the body that belongs to the last header, or one that is not read yet, came at
this time. -/
def SinceHeader (x : TimedSession) (b : Nat) : Prop :=
  b ∈ x.bodyTimes ∨ ∃ byte, (byte, b) ∈ x.socket

end TimedSession

/-- The watchdog closes and unregisters a session only if no byte has come in the last 60
seconds. -/
def CutsIdleOnly (x : TimedSession) (a : TimedEvent) (y : TimedSession) : Prop :=
  a = .watch → x.Cuts y → x.Idle

/-- When the watchdog compares the times 61 seconds after the last header, or later, the
bytes that it does not count are old too: those of the body of that header, and those that
are not read yet. -/
def RestsSinceHeader (x : TimedSession) (a : TimedEvent) (_ : TimedSession) : Prop :=
  a = .watch → x.Due → x.lastMessageTime + seconds 61 ≤ x.now →
    ∀ b, x.SinceHeader b → b + seconds 60 ≤ x.now

/-! ## A stretch of the read coroutine -/

namespace TimedSession

/-- What the registry sees. -/
def entry (x : TimedSession) : Session × Bool := (x.session, x.registered)

theorem entry_of_act {a : Action} (h : x.act a = some y) :
    entryStep x.entry a = some y.entry := by
  obtain ⟨r, hr, rfl⟩ := Option.map_eq_some_iff.mp h
  rw [entryStep, entry, hr]
  rfl

/-- Only the points, the entry, the timer and the node differ. -/
def Moves (x y : TimedSession) : Prop :=
  ∃ session registered deadline recvNode, y = { x with session, registered, deadline, recvNode }

theorem moves_of_act {a : Action} (h : x.act a = some y) : x.Moves y := by
  obtain ⟨r, -, rfl⟩ := Option.map_eq_some_iff.mp h
  exact ⟨r.1, _, x.deadline, x.recvNode, rfl⟩

/-- `n` bytes have been read as a header. -/
def headerTaken (x : TimedSession) (n : Nat) : TimedSession :=
  { x with lastMessageTime := x.now, bodyTimes := [], socket := x.socket.drop n }

/-- `n` bytes have been read as a body. -/
def bodyTaken (x : TimedSession) (n : Nat) : TimedSession :=
  { x with
    bodyTimes := x.bodyTimes ++ (x.socket.take n).map Prod.snd
    socket := x.socket.drop n }

/-- What a stretch of the read coroutine does with the bytes. -/
inductive ReadEffect (x : TimedSession) : TimedSession → Prop where
  | none {y : TimedSession} (h : x.Moves y) : ReadEffect x y
  | header {y : TimedSession} {n : Nat} (h : (x.headerTaken n).Moves y) : ReadEffect x y
  | body {y : TimedSession} {n : Nat} (h : (x.bodyTaken n).Moves y) : ReadEffect x y

theorem takeBytes_eq_some {n : Nat} {r : List (UInt8 × Nat) × TimedSession}
    (h : x.takeBytes n = some r) :
    r = (x.socket.take n, { x with socket := x.socket.drop n }) := by
  unfold takeBytes at h
  split_ifs at h
  exact (Option.some.inj h).symm

/-- **A stretch of the read coroutine** is one action of the session and has one of the
effects. -/
theorem read_spec (h : x.read e found = some y) :
    (∃ a, entryStep x.entry a = some y.entry) ∧ ReadEffect x y := by
  unfold read at h
  split at h
  · obtain ⟨z, hz, rfl⟩ := Option.map_eq_some_iff.mp h
    have hentry := entry_of_act hz
    obtain ⟨session, registered, deadline, recvNode, rfl⟩ := moves_of_act hz
    split
    · exact ⟨⟨_, hentry⟩, .none ⟨_, _, _, _, rfl⟩⟩
    · exact ⟨⟨_, hentry⟩, .none ⟨_, _, _, _, rfl⟩⟩
  · obtain ⟨r, hr, h⟩ := Option.bind_eq_some_iff.mp h
    obtain rfl := takeBytes_eq_some hr
    obtain ⟨z, hz, rfl⟩ := Option.map_eq_some_iff.mp h
    have hentry := entry_of_act hz
    obtain ⟨session, registered, deadline, recvNode, rfl⟩ := moves_of_act hz
    exact ⟨⟨_, hentry⟩, .header ⟨_, _, _, _, rfl⟩⟩
  · obtain ⟨recvNode, -, h⟩ := Option.bind_eq_some_iff.mp h
    have hentry := entry_of_act h
    obtain ⟨session, registered, deadline, recvNode', rfl⟩ := moves_of_act h
    exact ⟨⟨_, hentry⟩, .none ⟨_, _, _, _, rfl⟩⟩
  · obtain ⟨r, hr, h⟩ := Option.bind_eq_some_iff.mp h
    obtain rfl := takeBytes_eq_some hr
    obtain ⟨z, hz, rfl⟩ := Option.map_eq_some_iff.mp h
    have hentry := entry_of_act hz
    obtain ⟨session, registered, deadline, recvNode, rfl⟩ := moves_of_act hz
    exact ⟨⟨_, hentry⟩, .body ⟨_, _, _, _, rfl⟩⟩
  · obtain ⟨z, hz, rfl⟩ := Option.map_eq_some_iff.mp h
    have hentry := entry_of_act hz
    obtain ⟨session, registered, deadline, recvNode, rfl⟩ := moves_of_act hz
    exact ⟨⟨_, hentry⟩, .none ⟨_, _, _, _, rfl⟩⟩
  all_goals exact ⟨⟨_, entry_of_act h⟩, .none (moves_of_act h)⟩

end TimedSession

/-! ## The session in the registry -/

namespace TimedSession

/-- A check is one action, or two when it cuts. -/
theorem entry_of_check (h : x.check = some y) :
    ∃ as, run entryStep x.entry as = some y.entry := by
  obtain ⟨z, hz, h⟩ := Option.bind_eq_some_iff.mp h
  split at h
  · refine ⟨[.watch x.expired, .watch false], ?_⟩
    rw [run_cons, entry_of_act hz, Option.bind_some, run_singleton, entry_of_act h]
  all_goals
    obtain rfl := Option.some.inj h
    have hentry := entry_of_act hz
    exact ⟨[.watch x.expired], (run_singleton _ _ _).trans hentry⟩

theorem entry_of_watch (h : x.watch = some y) :
    ∃ as, run entryStep x.entry as = some y.entry := by
  unfold watch at h
  split at h
  · obtain ⟨z, hz, rfl⟩ := Option.map_eq_some_iff.mp h
    refine ⟨[.watch false], ?_⟩
    rw [run_singleton, entry_of_act hz]
    split <;> rfl
  · split_ifs at h
    exact entry_of_check h
  all_goals simp at h

end TimedSession

/-- **A step with the clock** is a run of the session's own actions. -/
theorem entry_of_timedStep (h : timedStep e found x a = some y) :
    ∃ as, run entryStep x.entry as = some y.entry := by
  cases a with
  | tick | arrive =>
      obtain rfl := Option.some.inj h
      exact ⟨[], rfl⟩
  | read =>
      obtain ⟨a, ha⟩ := (TimedSession.read_spec h).1
      exact ⟨[a], (run_singleton _ _ _).trans ha⟩
  | watch => exact TimedSession.entry_of_watch h
  | other a =>
      simp only [timedStep] at h
      split_ifs at h
      exact ⟨[a], (run_singleton _ _ _).trans (TimedSession.entry_of_act h)⟩

/-- **The registry follows.** Every run of a session with its clock is, for the registry, a run
of actions of that session. -/
theorem run_registry {as : List TimedEvent} (h : run (timedStep e found) x as = some y)
    (hs : s.Shows i x.entry) :
    ∃ (acts : List Action) (t : Registry),
      run registryStep s (acts.map (.act i)) = some t ∧ t.Shows i y.entry := by
  have hsteps : ∀ x a y, timedStep e found x a = some y →
      ∃ acts, run entryStep x.entry acts = some y.entry := fun _ _ _ => entry_of_timedStep
  obtain ⟨acts, hacts⟩ := run_view hsteps h
  exact ⟨acts, hs.run hacts⟩

/-! ## A stretch of the watchdog -/

namespace TimedSession

/-- The comparison of the watchdog, in nanoseconds. -/
theorem expired_iff : x.expired = true ↔ x.lastMessageTime + seconds 61 ≤ x.now := by
  rw [expired, decide_eq_true_iff]
  simp only [toSeconds, seconds]
  omega

/-- What a stretch of the watchdog does, guards included. -/
inductive WatchEffect (x : TimedSession) : TimedSession → Prop where
  | goesOn {watchdog : WatchPoint} {deadline : Option Nat} (h : x.Due → x.expired = false) :
      WatchEffect x { x with session := { x.session with watchdog }, deadline }
  | cut (hdue : x.Due) (hexpired : x.expired = true) :
      WatchEffect x { x with
        session := { x.session with bStop := true, watchdog := .ended }
        registered := false }

theorem act_watch_of_stopped {b : Bool} (hw : x.session.watchdog = .watching)
    (hstop : x.session.bStop = true) :
    x.act (.watch b) = some { x with session := { x.session with watchdog := .ended } } := by
  simp [act, Session.localStep, Session.watch, hw, hstop, MapEdit.entry]

theorem act_watch_of_fresh (hw : x.session.watchdog = .watching)
    (hopen : x.session.bStop = false) : x.act (.watch false) = some x := by
  simp [act, Session.localStep, Session.watch, hw, hopen, MapEdit.entry]

/-- A check of an open session. -/
theorem check_of_open (hw : x.session.watchdog = .watching) (hopen : x.session.bStop = false) :
    x.check = some (if x.expired = true
      then { x with
        session := { x.session with bStop := true, watchdog := .ended }
        registered := false }
      else { x with deadline := none }) := by
  cases hexpired : x.expired with
  | true =>
      simp [check, act, Session.localStep, Session.watch, hw, hopen, hexpired, MapEdit.entry]
  | false => simp [check, hexpired, act_watch_of_fresh hw hopen, hw]

theorem effect_of_watch (h : x.watch = some y) : WatchEffect x y := by
  unfold watch at h
  split at h
  · next hw hdeadline =>
    have hnot : ¬ x.Due := by
      rintro ⟨-, -, deadline, hsome, -⟩
      simp [hdeadline] at hsome
    cases hstop : x.session.bStop with
    | true =>
        rw [act_watch_of_stopped hw hstop, hstop] at h
        obtain rfl := Option.some.inj h
        exact .goesOn fun hdue => absurd hdue hnot
    | false =>
        rw [act_watch_of_fresh hw hstop, hstop] at h
        obtain rfl := Option.some.inj h
        exact .goesOn fun hdue => absurd hdue hnot
  · next deadline hw hdeadline =>
    split_ifs at h with hle
    cases hstop : x.session.bStop with
    | true =>
        rw [check, act_watch_of_stopped hw hstop] at h
        obtain rfl := Option.some.inj h
        refine .goesOn fun hdue => ?_
        exact absurd (hstop.symm.trans hdue.2.1) (by decide)
    | false =>
        rw [check_of_open hw hstop] at h
        obtain rfl := Option.some.inj h
        cases hexpired : x.expired with
        | true =>
            rw [if_pos rfl]
            exact .cut ⟨hw, hstop, deadline, hdeadline, hle⟩ hexpired
        | false =>
            rw [if_neg (by decide)]
            exact .goesOn fun _ => hexpired
  all_goals simp at h

end TimedSession

/-! ## The messages it reads -/

namespace TimedSession

/-- The bytes that are not read yet. -/
def unread (x : TimedSession) : Bytes := x.socket.map Prod.fst

theorem takeBytes_of_asyncRead {n : Nat} {bs rest : Bytes}
    (h : asyncRead n x.unread = some (bs, rest)) :
    ∃ r, x.takeBytes n = some r ∧ r.1.map Prod.fst = bs ∧
      ∃ socket, r.2 = { x with socket } ∧ socket.map Prod.fst = rest := by
  unfold asyncRead at h
  split_ifs at h with hle
  obtain ⟨rfl, rfl⟩ := Prod.mk.inj (Option.some.inj h)
  rw [unread, List.length_map] at hle
  refine ⟨_, if_pos hle, List.map_take, _, rfl, List.map_drop⟩

/-- The read coroutine stands at a point of an open session, with the node and the bytes. -/
structure At (x : TimedSession) (point : ReadPoint) (node : MsgNode) (bs : Bytes) : Prop where
  reader : x.session.reader = point
  opened : x.session.bStop = false
  recvNode : x.recvNode = node
  unread : x.unread = bs

variable {node : MsgNode} {bs rest : Bytes}

theorem At.loopTest (h : x.At .loopTest node bs) :
    ∃ y, x.read e found = some y ∧ y.At .readHeader node.clear bs ∧ y.now = x.now := by
  refine ⟨{ x with session := { x.session with reader := .readHeader }, recvNode := node.clear },
    ?_, ⟨rfl, h.opened, rfl, h.unread⟩, rfl⟩
  simp [read, act, Session.localStep, Session.read, MapEdit.entry, h.reader, h.opened, h.recvNode]

theorem At.readHeader {head : Bytes} (h : x.At .readHeader node bs)
    (hread : asyncRead MessageHeader.size bs = some (head, rest)) :
    ∃ y, x.read e found = some y ∧
      y.At .allocating ({ node with header := MessageHeader.ofMemory e head }.toHost e) rest ∧
      y.now = x.now ∧ y.lastMessageTime = x.now := by
  obtain ⟨r, hr, rfl, socket, hrest, rfl⟩ := takeBytes_of_asyncRead (h.unread ▸ hread)
  refine ⟨noteHeader e (r.1.map Prod.fst)
    { x with session := { x.session with reader := .allocating }, socket }, ?_,
    ⟨rfl, h.opened, by rw [noteHeader, h.recvNode], rfl⟩, rfl, rfl⟩
  simp [read, act, Session.localStep, Session.read, MapEdit.entry, h.reader, hr, hrest]

theorem At.allocating {node' : MsgNode} (h : x.At .allocating node bs)
    (hnode : node.allocate node.header.length = some node') :
    ∃ y, x.read e found = some y ∧
      y.At (if 0 < node'.header.length then .readBody else .dispatching) node' bs ∧
      y.now = x.now ∧ y.lastMessageTime = x.lastMessageTime := by
  refine ⟨{ x with
    session := { x.session with
      reader := if 0 < node'.header.length then .readBody else .dispatching }
    recvNode := node' }, ?_, ⟨rfl, h.opened, rfl, h.unread⟩, rfl, rfl⟩
  simp [read, act, Session.localStep, Session.read, MapEdit.entry, h.reader, h.recvNode, hnode]

theorem At.readBody {body : Bytes} (h : x.At .readBody node bs)
    (hread : asyncRead node.getBodyLen.toNat bs = some (body, rest)) :
    ∃ y, x.read e found = some y ∧ y.At .dispatching (node.fillBody body) rest ∧
      y.now = x.now ∧ y.lastMessageTime = x.lastMessageTime := by
  obtain ⟨r, hr, rfl, socket, hrest, rfl⟩ := takeBytes_of_asyncRead (h.unread ▸ hread)
  refine ⟨{ x with
    session := { x.session with reader := .dispatching }
    recvNode := node.fillBody (r.1.map Prod.fst)
    socket
    bodyTimes := x.bodyTimes ++ r.1.map Prod.snd }, ?_, ⟨rfl, h.opened, rfl, rfl⟩, rfl, rfl⟩
  simp [read, act, Session.localStep, Session.read, MapEdit.entry, h.reader, h.recvNode, hr, hrest]

theorem At.dispatching (h : x.At .dispatching node bs) :
    ∃ y, x.read e found = some y ∧
      y.At .loopTest (if found node.header.serviceId then {} else node) bs ∧
      y.now = x.now ∧ y.lastMessageTime = x.lastMessageTime := by
  refine ⟨{ x with
    session := { x.session with reader := .loopTest }
    recvNode := if found node.header.serviceId then {} else node }, ?_,
    ⟨rfl, h.opened, rfl, h.unread⟩, rfl, rfl⟩
  simp [read, act, Session.localStep, Session.read, MapEdit.entry, h.reader, h.recvNode]

/-- The read coroutine is resumed until it has reached this state. -/
def Reads (e : Endian) (found : UInt16 → Bool) (x y : TimedSession) : Prop :=
  ∃ k, run (timedStep e found) x (List.replicate k .read) = some y

theorem Reads.head {x y z : TimedSession} (h : x.read e found = some y)
    (hrest : Reads e found y z) : Reads e found x z := by
  obtain ⟨k, hk⟩ := hrest
  exact ⟨k + 1, by rw [List.replicate_succ, run_cons, timedStep, h, Option.bind_some, hk]⟩

/-- **One round** of the read coroutine reads the message that `readNode` reads, and notes the
time. -/
theorem round_of_message {recvNode : MsgNode} (h : x.At .loopTest recvNode bs)
    (hread : readNode e recvNode bs = .message node rest) :
    ∃ y, Reads e found x y ∧
      y.At .loopTest (if found node.header.serviceId then {} else node) rest ∧
      y.now = x.now ∧ y.lastMessageTime = x.now := by
  simp only [readNode] at hread
  split at hread
  · simp at hread
  next head rest₁ hhead =>
  split at hread
  · simp at hread
  next node₁ hnode =>
  -- the round up to the body
  obtain ⟨x₁, h₁, at₁, now₁⟩ := @At.loopTest e found x recvNode bs h
  obtain ⟨x₂, h₂, at₂, now₂, time₂⟩ := @At.readHeader e found x₁ _ bs rest₁ head at₁ hhead
  obtain ⟨x₃, h₃, at₃, now₃, time₃⟩ := @At.allocating e found x₂ _ rest₁ node₁ at₂ hnode
  have hlength : node₁.header.length = (MsgNode.toHost e
      { recvNode.clear with header := MessageHeader.ofMemory e head }).header.length := by
    rw [MsgNode.allocate] at hnode
    split_ifs at hnode
    obtain rfl := Option.some.inj hnode
    rfl
  rw [hlength] at at₃
  split at hread
  · next hbody =>
    rw [if_pos hbody] at at₃
    split at hread
    · simp at hread
    next body rest₂ hbytes =>
    obtain ⟨rfl, rfl⟩ := Read.message.inj hread
    obtain ⟨x₄, h₄, at₄, now₄, time₄⟩ := @At.readBody e found x₃ _ rest₁ rest₂ body at₃ hbytes
    obtain ⟨y, h₅, at₅, now₅, time₅⟩ := @At.dispatching e found x₄ _ rest₂ at₄
    refine ⟨y, .head h₁ (.head h₂ (.head h₃ (.head h₄ (.head h₅ ⟨0, rfl⟩)))), at₅, ?_, ?_⟩
    · rw [now₅, now₄, now₃, now₂, now₁]
    · rw [time₅, time₄, time₃, time₂, now₁]
  · next hempty =>
    rw [if_neg hempty] at at₃
    obtain ⟨rfl, rfl⟩ := Read.message.inj hread
    obtain ⟨y, h₄, at₄, now₄, time₄⟩ := @At.dispatching e found x₃ _ rest₁ at₃
    refine ⟨y, .head h₁ (.head h₂ (.head h₃ (.head h₄ ⟨0, rfl⟩))), at₄, ?_, ?_⟩
    · rw [now₄, now₃, now₂, now₁]
    · rw [time₄, time₃, time₂, now₁]

end TimedSession

/-! ## The times of the bytes -/

/-- **The invariant**: a byte came before the last header was read, or it belongs to the body
of that header, or it is not read yet. -/
structure ByteTimes (x : TimedSession) : Prop where
  past : ∀ b ∈ x.arrivals, b ≤ x.now
  came : ∀ b, x.SinceHeader b → b ∈ x.arrivals
  counted : ∀ b ∈ x.arrivals, b ≤ x.lastMessageTime ∨ x.SinceHeader b

namespace ByteTimes

theorem start (now : Nat) : ByteTimes (.start now) where
  past b hb := by simp [TimedSession.start] at hb
  came b hb := by simp [TimedSession.start, TimedSession.SinceHeader] at hb
  counted b hb := by simp [TimedSession.start] at hb

theorem moves (h : ByteTimes x) (hmoves : x.Moves y) : ByteTimes y := by
  obtain ⟨session, registered, deadline, recvNode, rfl⟩ := hmoves
  exact ⟨h.past, h.came, h.counted⟩

/-- With a header all that came before is counted. -/
theorem header (h : ByteTimes x) (n : Nat) : ByteTimes (x.headerTaken n) where
  past := h.past
  came b hb := by
    obtain hbody | ⟨byte, hsocket⟩ := hb
    · simp [TimedSession.headerTaken] at hbody
    · exact h.came b (.inr ⟨byte, List.mem_of_mem_drop hsocket⟩)
  counted b hb := .inl (h.past b hb)

/-- The bytes that a body takes are still those since the header. -/
theorem body (h : ByteTimes x) (n : Nat) : ByteTimes (x.bodyTaken n) := by
  have hsame : ∀ b, (x.bodyTaken n).SinceHeader b ↔ x.SinceHeader b := by
    intro b
    have hsplit : (∃ byte, (byte, b) ∈ x.socket) ↔
        (∃ byte, (byte, b) ∈ x.socket.take n) ∨ ∃ byte, (byte, b) ∈ x.socket.drop n := by
      rw [← exists_or]
      refine exists_congr fun byte => ?_
      rw [← List.mem_append, List.take_append_drop]
    have htaken : b ∈ (x.socket.take n).map Prod.snd ↔ ∃ byte, (byte, b) ∈ x.socket.take n := by
      simp only [List.mem_map, Prod.exists, exists_eq_right]
    rw [TimedSession.SinceHeader, TimedSession.SinceHeader, hsplit, ← htaken]
    simp only [TimedSession.bodyTaken, List.mem_append, or_assoc]
  refine ⟨h.past, fun b hb => h.came b ((hsame b).mp hb), fun b hb => ?_⟩
  exact (h.counted b hb).imp_right (hsame b).mpr

theorem tick (h : ByteTimes x) (d : Nat) : ByteTimes { x with now := x.now + d } where
  past b hb := (h.past b hb).trans (Nat.le_add_right _ _)
  came := h.came
  counted := h.counted

theorem arrive (h : ByteTimes x) (bs : Bytes) : ByteTimes { x with
    socket := x.socket ++ bs.map fun b => (b, x.now)
    arrivals := x.arrivals ++ bs.map fun _ => x.now } where
  past b hb := by
    rcases List.mem_append.mp hb with hold | hnew
    · exact h.past b hold
    · obtain ⟨_, -, rfl⟩ := List.mem_map.mp hnew
      exact le_rfl
  came b hb := by
    obtain hbody | ⟨byte, hsocket⟩ := hb
    · exact List.mem_append_left _ (h.came b (.inl hbody))
    · rcases List.mem_append.mp hsocket with hold | hnew
      · exact List.mem_append_left _ (h.came b (.inr ⟨byte, hold⟩))
      · obtain ⟨byte', hmem, heq⟩ := List.mem_map.mp hnew
        obtain ⟨-, rfl⟩ := Prod.mk.inj heq
        exact List.mem_append_right _ (List.mem_map.mpr ⟨byte', hmem, rfl⟩)
  counted b hb := by
    rcases List.mem_append.mp hb with hold | hnew
    · refine (h.counted b hold).imp_right fun hsince => ?_
      exact hsince.imp_right fun ⟨byte, hmem⟩ => ⟨byte, List.mem_append_left _ hmem⟩
    · obtain ⟨byte, hmem, rfl⟩ := List.mem_map.mp hnew
      exact .inr (.inr ⟨byte, List.mem_append_right _ (List.mem_map.mpr ⟨byte, hmem, rfl⟩)⟩)

/-- **Every step** keeps the invariant. -/
theorem step (h : ByteTimes x) (hs : timedStep e found x a = some y) : ByteTimes y := by
  cases a with
  | tick d =>
      obtain rfl := Option.some.inj hs
      exact h.tick d
  | arrive bs =>
      obtain rfl := Option.some.inj hs
      exact h.arrive bs
  | read =>
      cases (TimedSession.read_spec hs).2 with
      | none hmoves => exact h.moves hmoves
      | header hmoves => exact (h.header _).moves hmoves
      | body hmoves => exact (h.body _).moves hmoves
  | watch =>
      cases TimedSession.effect_of_watch hs with
      | goesOn => exact h.moves ⟨_, _, _, _, rfl⟩
      | cut => exact h.moves ⟨_, _, _, _, rfl⟩
  | other a =>
      simp only [timedStep] at hs
      split_ifs at hs
      exact h.moves (TimedSession.moves_of_act hs)

/-- An expired session is idle exactly if the bytes since the last header are old. -/
theorem idle_iff (h : ByteTimes x) (hexpired : x.lastMessageTime + seconds 61 ≤ x.now) :
    x.Idle ↔ ∀ b, x.SinceHeader b → b + seconds 60 ≤ x.now := by
  constructor
  · exact fun hidle b hb => hidle b (h.came b hb)
  · intro hold b hb
    obtain hbefore | hsince := h.counted b hb
    · simp only [seconds] at hexpired ⊢
      omega
    · exact hold b hsince

end ByteTimes

/-! ## Whole runs -/

/-- **One step** cuts an idle session only, exactly under the condition. -/
theorem cutsIdleOnly_iff (h : ByteTimes x) (hs : timedStep e found x a = some y) :
    CutsIdleOnly x a y ↔ RestsSinceHeader x a y := by
  cases a with
  | watch =>
      cases TimedSession.effect_of_watch hs with
      | goesOn hfresh =>
          refine iff_of_true ?_ ?_
          · rintro - (⟨hopen, hstopped⟩ | ⟨hin, hout⟩)
            · exact absurd (hopen.symm.trans hstopped) (by decide)
            · exact absurd (hin.symm.trans hout) (by decide)
          · intro _ hdue hexpired
            have hnot := hfresh hdue
            rw [TimedSession.expired_iff.mpr hexpired] at hnot
            exact absurd hnot (by decide)
      | cut hdue hexpired =>
          have hlate := TimedSession.expired_iff.mp hexpired
          have hcuts : x.Cuts { x with
              session := { x.session with bStop := true, watchdog := .ended }
              registered := false } := .inl ⟨hdue.2.1, rfl⟩
          simp only [CutsIdleOnly, RestsSinceHeader, hcuts, hdue, hlate, forall_const]
          exact h.idle_iff hlate
  | tick | arrive | read | other =>
      exact iff_of_true (fun heq => by simp at heq) (fun heq => by simp at heq)

/-- **The watchdog cuts idle connections only, exactly.** For every instant at which a session
starts and every order of bytes, resumed reads, checks, requests and errors: the watchdog
closes or unregisters the session only if no byte has come in the 60 seconds before, if and
only if whenever it compares the times 61 seconds after the last header or later, the bytes
of that header's body and the bytes not yet read have all come at least 60 seconds before. -/
theorem watchdog_cuts_idle_iff (e : Endian) (found : UInt16 → Bool) (now : Nat)
    (as : List TimedEvent) :
    AllSteps (timedStep e found) CutsIdleOnly (.start now) as ↔
      AllSteps (timedStep e found) RestsSinceHeader (.start now) as :=
  @allSteps_congr _ _ (timedStep e found) ByteTimes CutsIdleOnly RestsSinceHeader
    (fun _ _ _ h hs => h.step hs) (fun _ _ _ h hs => cutsIdleOnly_iff h hs) as _ (.start now)

/-- At a check all bytes that have come since the last header came within a second of it. -/
def PromptAtChecks (x : TimedSession) (a : TimedEvent) (_ : TimedSession) : Prop :=
  a = .watch → x.Due → ∀ b, x.SinceHeader b → b ≤ x.lastMessageTime + seconds 1

/-- **Prompt messages** are never cut: it is enough that no check meets a message that
takes more than a second. -/
theorem cutsIdleOnly_of_prompt {now : Nat} {as : List TimedEvent}
    (h : AllSteps (timedStep e found) PromptAtChecks (.start now) as) :
    AllSteps (timedStep e found) CutsIdleOnly (.start now) as := by
  refine (watchdog_cuts_idle_iff e found now as).mpr (h.mono fun x a y hprompt => ?_)
  intro ha hdue hexpired b hb
  have hnear := hprompt ha hdue b hb
  simp only [seconds] at hnear hexpired ⊢
  omega

/-- The header of a message with a body of 1000 bytes, in the order of the network. -/
def longHeader : Bytes := [0x55, 0xAA, 0, 1, 0, 3, 0, 3, 0, 0, 3, 0xE8, 0, 0, 0, 1]

/-- A body of which a byte comes every five seconds. After 65 seconds the watchdog cuts the
connection, and a byte has come in that moment. -/
theorem slow_body_is_cut : ¬ ∀ (e : Endian) (found : UInt16 → Bool) (now : Nat)
    (as : List TimedEvent), AllSteps (timedStep e found) CutsIdleOnly (.start now) as := by
  let step := timedStep .little fun _ => true
  let accepted : List TimedEvent := [.watch, .other (.logEndpoint true), .other .insert, .read,
    .arrive longHeader, .read, .read]
  let fiveSeconds : List TimedEvent := [.tick (seconds 5), .arrive [0x61]]
  let round : List TimedEvent := fiveSeconds ++ [.watch, .watch]
  let events := accepted ++ (List.replicate 12 round).flatten ++ fiveSeconds
  have hrun : ((run step (.start 0) events).bind fun x => (step x .watch).map fun y =>
      (x.session.bStop, y.session.bStop, x.registered, y.registered,
        decide (x.arrivals.getLast? = some x.now))) =
      some (false, true, true, false, true) := by
    decide +kernel
  obtain ⟨x, hx, hrun⟩ := Option.bind_eq_some_iff.mp hrun
  obtain ⟨y, hy, hview⟩ := Option.map_eq_some_iff.mp hrun
  simp only [Prod.mk.injEq, decide_eq_true_eq] at hview
  obtain ⟨hopen, hstopped, -, -, hlast⟩ := hview
  have hnot : ¬ CutsIdleOnly x .watch y := by
    intro hcuts
    have hidle := hcuts rfl (.inl ⟨hopen, hstopped⟩)
    have hold := hidle x.now (List.mem_of_getLast? hlast)
    simp only [seconds] at hold
    omega
  exact fun h => not_allSteps hx hy hnot (h .little (fun _ => true) 0 (events ++ [.watch]))

end AsioServer.Net
