/-
AsioServer.Core.SendPipelineTheorems — the send path of a session is an
exactly-once FIFO.

The right to write is a token that lives in exactly one place while the queue
is not empty: a call of `DoWrite` or `async_write` that is to come (`pending`),
a write in flight, a `HandleWrite` that has not popped yet (`handling`), or a
write that failed (`lost`), after which nobody writes any more. `QueueInv` ties
the token to the queue and to what was accepted and passed on; `FreshInv` says
that each frame is in one place; `StopInv` that a failed write stops the
session.
-/
import Mathlib.Data.List.Nodup
import AsioServer.Core.SendPipeline

namespace AsioServer.Core

open AsioServer.Lib

variable {e : Endian}

/-! ## Where the token is -/

namespace Task

/-- A call that is about to write. -/
def isPending : Task → Bool
  | doWrite => true
  | asyncWrite _ => true
  | _ => false

/-- A completion without an error that has not popped its frame yet. -/
def isHandling : Task → Bool
  | handleWrite false => true
  | _ => false

/-- A handler of the session is running. -/
def isHandler : Task → Bool
  | posting _ => false
  | ended => false
  | _ => true

/-- The call of `Send` or `DoSend` that has the frame of address `a`. -/
def carries (a : Nat) : Task → Bool
  | posting f => f.addr == a
  | doSend f => f.addr == a
  | _ => false

end Task

/-- The closure that has the frame of address `a`. -/
def Posted.carries (a : Nat) : Posted → Bool
  | doSend f => f.addr == a
  | closeSocket => false

namespace Pipeline

def pending (p : Pipeline) : Nat := p.tasks.countP Task.isPending

def handling (p : Pipeline) : Nat := p.tasks.countP Task.isHandling

def lost (p : Pipeline) : Nat := if p.failed then 1 else 0

/-- The frames at the front of the queue that were handed to `async_write`. -/
def started (p : Pipeline) : Nat := p.inFlight.length + p.handling + p.lost

end Pipeline

/-- The queue, the token and the two histories. -/
structure QueueInv (p : Pipeline) : Prop where
  token : p.pending + p.started = if p.sendQue = [] then 0 else 1
  front : ∀ f, f ∈ p.inFlight ∨ .asyncWrite f ∈ p.tasks → p.sendQue.head? = some f
  fifo : ∃ popped, p.accepted = popped ++ p.sendQue ∧
    p.passed = popped ++ p.sendQue.take p.started
  bound : p.sendQue.length ≤ maxSendQueLen

/-- A frame is made once, and is then in one place at most. -/
def FreshInv (p : Pipeline) : Prop :=
  ∀ a, p.accepted.countP (fun f => f.addr == a) + p.posted.countP (Posted.carries a) +
    p.tasks.countP (Task.carries a) ≤ made p.nextAddr a

/-- After a write has failed the session is stopped, or `HandleWrite` is about to. -/
def StopInv (p : Pipeline) : Prop :=
  p.failed = true → p.bStop = true ∨ .handleWrite true ∈ p.tasks

/-! ## What a step can do -/

/-- The steps of the send path, one constructor for each branch of the source. -/
inductive PipeEffect (e : Endian) (p : Pipeline) : PipeEvent → Pipeline → Prop where
  | dropped {header body} (hs : p.bStop = true) : PipeEffect e p (.send header body) p
  | send {header body node} (hs : p.bStop = false) (hn : sendNode e header body = some node) :
      PipeEffect e p (.send header body)
        ({ p with nextAddr := p.nextAddr + 1 }.spawn (.posting ⟨p.nextAddr, node⟩))
  | post {i f} (hk : p.tasks[i]? = some (.posting f)) :
      PipeEffect e p (.task i)
        ({ p with posted := p.posted ++ [Posted.doSend f] }.put i .ended)
  | full {i f} (hk : p.tasks[i]? = some (.doSend f)) (hq : maxSendQueLen ≤ p.sendQue.length) :
      PipeEffect e p (.task i) (p.put i .ended)
  | push {i f} (hk : p.tasks[i]? = some (.doSend f)) (hq : p.sendQue.length < maxSendQueLen) :
      PipeEffect e p (.task i)
        ({ p with sendQue := p.sendQue ++ [f], accepted := p.accepted ++ [f] }.put i
          (if p.sendQue = [] then .doWrite else .ended))
  | noWrite {i} (hk : p.tasks[i]? = some .doWrite) (hq : p.sendQue = []) :
      PipeEffect e p (.task i) (p.put i .ended)
  | takeFront {i f} (hk : p.tasks[i]? = some .doWrite) (hq : p.sendQue.head? = some f) :
      PipeEffect e p (.task i) (p.put i (.asyncWrite f))
  | asyncWrite {i f} (hk : p.tasks[i]? = some (.asyncWrite f)) :
      PipeEffect e p (.task i)
        ({ p with inFlight := p.inFlight ++ [f], passed := p.passed ++ [f] }.put i .ended)
  | popLast {i} (hk : p.tasks[i]? = some (.handleWrite false)) (hq : p.sendQue.tail = []) :
      PipeEffect e p (.task i) ({ p with sendQue := [] }.put i .ended)
  | popNext {i f rest} (hk : p.tasks[i]? = some (.handleWrite false))
      (hq : p.sendQue.tail = f :: rest) :
      PipeEffect e p (.task i) ({ p with sendQue := f :: rest }.put i (.asyncWrite f))
  | fail {i} (hk : p.tasks[i]? = some (.handleWrite true)) :
      PipeEffect e p (.task i) (p.close.put i .ended)
  | closeSocket {rest} (hp : p.posted = .closeSocket :: rest) :
      PipeEffect e p .runPosted { p with posted := rest }
  | stale {f rest} (hp : p.posted = .doSend f :: rest) (hs : p.bStop = true) :
      PipeEffect e p .runPosted { p with posted := rest }
  | begin {f rest} (hp : p.posted = .doSend f :: rest) (hs : p.bStop = false) :
      PipeEffect e p .runPosted ({ p with posted := rest }.spawn (.doSend f))
  | complete {i f error} (hf : p.inFlight[i]? = some f) :
      PipeEffect e p (.complete i error)
        ({ p with inFlight := p.inFlight.eraseIdx i, failed := p.failed || error }.spawn
          (.handleWrite error))
  | close : PipeEffect e p .close p.close

/-- One step of a task, from the point it has reached. -/
theorem pipeEffect_of_taskStep {p q : Pipeline} {i : Nat} {k : Task}
    (hk : p.tasks[i]? = some k) (h : p.taskStep i k = some q) :
    PipeEffect e p (.task i) q := by
  cases k with
  | posting f =>
      obtain rfl := Option.some.inj h
      exact .post hk
  | doSend f =>
      obtain rfl := Option.some.inj h
      unfold Pipeline.doSend
      split
      · next hq => exact .full hk hq
      · next hq =>
        cases hque : p.sendQue with
        | nil =>
            have heff := PipeEffect.push (e := e) hk (Nat.lt_of_not_le hq)
            simpa [hque] using heff
        | cons g rest =>
            have heff := PipeEffect.push (e := e) hk (Nat.lt_of_not_le hq)
            simpa [hque] using heff
  | doWrite =>
      obtain rfl := Option.some.inj h
      unfold Pipeline.doWrite
      split
      · next hq => exact .noWrite hk hq
      · next f rest hq => exact .takeFront hk (by rw [hq]; rfl)
  | asyncWrite f =>
      obtain rfl := Option.some.inj h
      exact .asyncWrite hk
  | handleWrite error =>
      cases error with
      | false =>
          obtain rfl := Option.some.inj h
          unfold Pipeline.handleWrite
          split
          · next hq => exact .popLast hk hq
          · next f rest hq => exact .popNext hk hq
      | true =>
          obtain rfl := Option.some.inj h
          exact .fail hk
  | ended => exact absurd h (by simp [Pipeline.taskStep])

theorem pipeEffect_of_step {p q : Pipeline} {a : PipeEvent} (h : pipeStep e p a = some q) :
    PipeEffect e p a q := by
  cases a with
  | send header body =>
      simp only [pipeStep, Pipeline.send] at h
      split at h
      · next hs =>
        obtain rfl := Option.some.inj h
        exact .dropped hs
      · next hs =>
        obtain ⟨node, hn, rfl⟩ := Option.map_eq_some_iff.mp h
        exact .send (Bool.not_eq_true _ ▸ hs) hn
  | task i =>
      obtain ⟨k, hk, hstep⟩ := Option.bind_eq_some_iff.mp h
      exact pipeEffect_of_taskStep hk hstep
  | runPosted =>
      simp only [pipeStep, Pipeline.runPosted] at h
      split at h
      · exact absurd h (by simp)
      · next rest hp =>
        obtain rfl := Option.some.inj h
        exact .closeSocket hp
      · next f rest hp =>
        split at h
        · next hs =>
          obtain rfl := Option.some.inj h
          exact .stale hp hs
        · next hs =>
          obtain rfl := Option.some.inj h
          exact .begin hp (Bool.not_eq_true _ ▸ hs)
  | complete i error =>
      obtain ⟨f, hf, rfl⟩ := Option.map_eq_some_iff.mp h
      exact .complete hf
  | close =>
      obtain rfl := Option.some.inj h
      exact .close

/-! ## The token -/

namespace Pipeline

variable {p q : Pipeline} {i : Nat} {k m : Task}

theorem pending_spawn (p : Pipeline) (k : Task) :
    (p.spawn k).pending = p.pending + contrib Task.isPending k := by
  simp only [pending, spawn, List.countP_append, List.countP_singleton]
  rfl

theorem handling_spawn (p : Pipeline) (k : Task) :
    (p.spawn k).handling = p.handling + contrib Task.isHandling k := by
  simp only [handling, spawn, List.countP_append, List.countP_singleton]
  rfl

theorem pending_put (hk : p.tasks[i]? = some k) (hq : q.tasks = p.tasks.set i m) :
    q.pending + contrib Task.isPending k = p.pending + contrib Task.isPending m := by
  rw [pending, hq]
  exact countP_set_add Task.isPending hk

theorem handling_put (hk : p.tasks[i]? = some k) (hq : q.tasks = p.tasks.set i m) :
    q.handling + contrib Task.isHandling k = p.handling + contrib Task.isHandling m := by
  rw [handling, hq]
  exact countP_set_add Task.isHandling hk

/-- Without a pending call nobody is about to write. -/
theorem not_asyncWrite_of_pending (h : p.pending = 0) (f : Frame) :
    .asyncWrite f ∉ p.tasks := by
  intro hf
  have hnone := List.countP_eq_zero.mp h (.asyncWrite f) hf
  exact absurd rfl hnone

end Pipeline

/-- A step that leaves the queue, the token and the histories alone. -/
structure SameQueue (p q : Pipeline) : Prop where
  sendQue : q.sendQue = p.sendQue
  accepted : q.accepted = p.accepted
  passed : q.passed = p.passed
  inFlight : q.inFlight = p.inFlight
  failed : q.failed = p.failed
  pending : q.pending = p.pending
  handling : q.handling = p.handling
  writes : ∀ f, .asyncWrite f ∈ q.tasks → .asyncWrite f ∈ p.tasks

theorem SameQueue.queueInv {p q : Pipeline} (h : SameQueue p q) (hp : QueueInv p) :
    QueueInv q := by
  have hstarted : q.started = p.started := by
    rw [Pipeline.started, Pipeline.started, Pipeline.lost, Pipeline.lost, h.inFlight, h.handling,
      h.failed]
  refine ⟨?_, ?_, ?_, ?_⟩
  · rw [h.pending, hstarted, h.sendQue]
    exact hp.token
  · rintro f (hf | hf)
    · rw [h.sendQue]
      exact hp.front f (Or.inl (h.inFlight ▸ hf))
    · rw [h.sendQue]
      exact hp.front f (Or.inr (h.writes f hf))
  · rw [h.accepted, h.passed, h.sendQue, hstarted]
    exact hp.fifo
  · rw [h.sendQue]
    exact hp.bound

/-- A task that has not got the token moves without taking it. -/
theorem sameQueue_put {p : Pipeline} {i : Nat} {k : Task} (hk : p.tasks[i]? = some k)
    (posted : List Posted) (m : Task) (hpending : k.isPending = m.isPending)
    (hhandling : k.isHandling = m.isHandling) (hm : ∀ f, m ≠ .asyncWrite f) :
    SameQueue p ({ p with posted := posted }.put i m) where
  sendQue := rfl
  accepted := rfl
  passed := rfl
  inFlight := rfl
  failed := rfl
  pending := by
    have hput := Pipeline.pending_put hk (q := { p with posted := posted }.put i m) rfl
    have hsame := contrib_congr hpending
    omega
  handling := by
    have hput := Pipeline.handling_put hk (q := { p with posted := posted }.put i m) rfl
    have hsame := contrib_congr hhandling
    omega
  writes := by
    intro f hf
    rcases mem_set_cases hf with heq | hf
    · exact absurd heq.symm (hm f)
    · exact hf

theorem sameQueue_spawn {p : Pipeline} {posted : List Posted} {n : Nat} {k : Task}
    (hpending : k.isPending = false) (hhandling : k.isHandling = false) :
    SameQueue p ({ p with posted := posted, nextAddr := n }.spawn k) where
  sendQue := rfl
  accepted := rfl
  passed := rfl
  inFlight := rfl
  failed := rfl
  pending := by
    rw [Pipeline.pending_spawn, contrib_of_false hpending]
    rfl
  handling := by
    rw [Pipeline.handling_spawn, contrib_of_false hhandling]
    rfl
  writes := by
    intro f hf
    rcases List.mem_append.mp hf with hf | hf
    · exact hf
    · rw [← List.mem_singleton.mp hf] at hpending
      exact absurd hpending (by simp [Task.isPending])

theorem sameQueue_posted (p : Pipeline) (posted : List Posted) :
    SameQueue p { p with posted := posted } :=
  ⟨rfl, rfl, rfl, rfl, rfl, rfl, rfl, fun _ hf => hf⟩

theorem sameQueue_close (p : Pipeline) : SameQueue p p.close := by
  unfold Pipeline.close
  split <;> exact ⟨rfl, rfl, rfl, rfl, rfl, rfl, rfl, fun _ hf => hf⟩

theorem tasks_close (p : Pipeline) : p.close.tasks = p.tasks := by
  unfold Pipeline.close
  split <;> rfl

namespace QueueInv

variable {p : Pipeline} {i : Nat} {f : Frame}

/-- `DoSend` pushes a frame on an empty queue and takes the token. -/
theorem pushFirst (h : QueueInv p) (hk : p.tasks[i]? = some (.doSend f)) (hq : p.sendQue = []) :
    QueueInv ({ p with sendQue := [f], accepted := p.accepted ++ [f] }.put i .doWrite) := by
  let q := ({ p with sendQue := [f], accepted := p.accepted ++ [f] } : Pipeline).put i .doWrite
  have hpending : q.pending + 0 = p.pending + 1 :=
    Pipeline.pending_put (q := q) (m := .doWrite) hk rfl
  have hhandling : q.handling + 0 = p.handling + 0 :=
    Pipeline.handling_put (q := q) (m := .doWrite) hk rfl
  have htoken : p.pending + p.started = 0 := by rw [h.token, if_pos hq]
  have hnone : p.pending = 0 := by omega
  have hstarted : q.started = 0 := by
    have hsame : q.started = p.inFlight.length + q.handling + p.lost := rfl
    have hold : p.started = p.inFlight.length + p.handling + p.lost := rfl
    omega
  have hnoFlight : p.inFlight = [] := by
    have hold : p.started = p.inFlight.length + p.handling + p.lost := rfl
    exact List.length_eq_zero_iff.mp (by omega)
  obtain ⟨popped, haccepted, hpassed⟩ := h.fifo
  refine ⟨?_, ?_, ⟨popped, ?_, ?_⟩, ?_⟩
  · show q.pending + q.started = 1
    omega
  · rintro g (hg | hg)
    · have hnil : g ∈ p.inFlight := hg
      simp [hnoFlight] at hnil
    · rcases mem_set_cases hg with heq | hg
      · exact absurd heq (by simp)
      · exact absurd hg (Pipeline.not_asyncWrite_of_pending hnone g)
  · show p.accepted ++ [f] = popped ++ [f]
    rw [haccepted, hq, List.append_nil]
  · show p.passed = popped ++ [f].take q.started
    rw [hpassed, hq, hstarted, List.take_zero, List.take_nil]
  · show 1 ≤ maxSendQueLen
    decide

/-- `DoSend` pushes a frame behind others: somebody else has the token. -/
theorem pushNext (h : QueueInv p) (hk : p.tasks[i]? = some (.doSend f)) (hq : p.sendQue ≠ [])
    (hlen : p.sendQue.length < maxSendQueLen) :
    QueueInv ({ p with sendQue := p.sendQue ++ [f], accepted := p.accepted ++ [f] }.put i
      .ended) := by
  let q := ({ p with sendQue := p.sendQue ++ [f], accepted := p.accepted ++ [f] } : Pipeline).put i
    .ended
  have hpending : q.pending + 0 = p.pending + 0 :=
    Pipeline.pending_put (q := q) (m := .ended) hk rfl
  have hhandling : q.handling + 0 = p.handling + 0 :=
    Pipeline.handling_put (q := q) (m := .ended) hk rfl
  have htoken : p.pending + p.started = 1 := by rw [h.token, if_neg hq]
  have hstarted : q.started = p.started := by
    have hsame : q.started = p.inFlight.length + q.handling + p.lost := rfl
    have hold : p.started = p.inFlight.length + p.handling + p.lost := rfl
    omega
  have hhead : (p.sendQue ++ [f]).head? = p.sendQue.head? := List.head?_append_of_ne_nil _ hq
  obtain ⟨popped, haccepted, hpassed⟩ := h.fifo
  refine ⟨?_, ?_, ⟨popped, ?_, ?_⟩, ?_⟩
  · show q.pending + q.started = if p.sendQue ++ [f] = [] then 0 else 1
    rw [if_neg (by simp)]
    omega
  · rintro g (hg | hg)
    · exact hhead.trans (h.front g (Or.inl hg))
    · rcases mem_set_cases hg with heq | hg
      · exact absurd heq (by simp)
      · exact hhead.trans (h.front g (Or.inr hg))
  · show p.accepted ++ [f] = popped ++ (p.sendQue ++ [f])
    rw [haccepted, List.append_assoc]
  · show p.passed = popped ++ (p.sendQue ++ [f]).take q.started
    have hpos : 0 < p.sendQue.length := List.length_pos_iff.mpr hq
    rw [hpassed, hstarted, List.take_append_of_le_length (by omega)]
  · show (p.sendQue ++ [f]).length ≤ maxSendQueLen
    rw [List.length_append, List.length_singleton]
    omega

/-- `DoWrite` finds the frame it was called for. -/
theorem takeFront (h : QueueInv p) (hk : p.tasks[i]? = some .doWrite)
    (hf : p.sendQue.head? = some f) : QueueInv (p.put i (.asyncWrite f)) := by
  let q := p.put i (.asyncWrite f)
  have hpending : q.pending + 1 = p.pending + 1 :=
    Pipeline.pending_put (q := q) (m := .asyncWrite f) hk rfl
  have hhandling : q.handling + 0 = p.handling + 0 :=
    Pipeline.handling_put (q := q) (m := .asyncWrite f) hk rfl
  have hstarted : q.started = p.started := by
    have hsame : q.started = p.inFlight.length + q.handling + p.lost := rfl
    have hold : p.started = p.inFlight.length + p.handling + p.lost := rfl
    omega
  refine ⟨?_, ?_, ?_, h.bound⟩
  · have htoken := h.token
    show q.pending + q.started = if p.sendQue = [] then 0 else 1
    omega
  · rintro g (hg | hg)
    · exact h.front g (Or.inl hg)
    · rcases mem_set_cases hg with heq | hg
      · obtain rfl := Task.asyncWrite.inj heq
        exact hf
      · exact h.front g (Or.inr hg)
  · obtain ⟨popped, haccepted, hpassed⟩ := h.fifo
    refine ⟨popped, haccepted, ?_⟩
    show p.passed = popped ++ p.sendQue.take q.started
    rw [hpassed, hstarted]

/-- The write is started: it is the only one, and the frame is the front of the queue. -/
theorem asyncWrite (h : QueueInv p) (hk : p.tasks[i]? = some (.asyncWrite f)) :
    QueueInv ({ p with inFlight := p.inFlight ++ [f], passed := p.passed ++ [f] }.put i
      .ended) := by
  let q := ({ p with inFlight := p.inFlight ++ [f], passed := p.passed ++ [f] } : Pipeline).put i
    .ended
  have hpending : q.pending + 1 = p.pending + 0 :=
    Pipeline.pending_put (q := q) (m := .ended) hk rfl
  have hhandling : q.handling + 0 = p.handling + 0 :=
    Pipeline.handling_put (q := q) (m := .ended) hk rfl
  have hhead := h.front f (Or.inr (List.mem_of_getElem? hk))
  obtain ⟨rest, hque⟩ := List.head?_eq_some_iff.mp hhead
  have htoken : p.pending + p.started = 1 := by rw [h.token, if_neg (by simp [hque])]
  have hstarted : q.started = p.started + 1 := by
    have hsame : q.started = (p.inFlight ++ [f]).length + q.handling + p.lost := rfl
    have hold : p.started = p.inFlight.length + p.handling + p.lost := rfl
    rw [List.length_append, List.length_singleton] at hsame
    omega
  have hzero : p.started = 0 := by omega
  obtain ⟨popped, haccepted, hpassed⟩ := h.fifo
  refine ⟨?_, ?_, ⟨popped, haccepted, ?_⟩, h.bound⟩
  · show q.pending + q.started = if p.sendQue = [] then 0 else 1
    rw [if_neg (by simp [hque])]
    omega
  · rintro g (hg | hg)
    · rcases List.mem_append.mp hg with hg | hg
      · exact h.front g (Or.inl hg)
      · rw [List.mem_singleton.mp hg]
        exact hhead
    · rcases mem_set_cases hg with heq | hg
      · exact absurd heq (by simp)
      · exact h.front g (Or.inr hg)
  · show p.passed ++ [f] = popped ++ p.sendQue.take q.started
    rw [hpassed, hstarted, hzero, hque]
    simp

/-- When a completion is being handled nothing else has the token, and the queue
still begins with the frame that was written. -/
theorem handling_cases (h : QueueInv p) (hk : p.tasks[i]? = some (.handleWrite false)) :
    p.pending = 0 ∧ p.inFlight = [] ∧ p.handling = 1 ∧ p.lost = 0 ∧
      ∃ f rest, p.sendQue = f :: rest := by
  have hone : 1 ≤ p.handling := contrib_le_countP Task.isHandling hk
  have hold : p.started = p.inFlight.length + p.handling + p.lost := rfl
  have htoken := h.token
  cases hque : p.sendQue with
  | nil =>
      rw [if_pos hque] at htoken
      omega
  | cons f rest =>
      rw [if_neg (by simp [hque])] at htoken
      exact ⟨by omega, List.length_eq_zero_iff.mp (by omega), by omega, by omega, f, rest, rfl⟩

/-- `HandleWrite` pops the last frame and gives the token up. -/
theorem popLast (h : QueueInv p) (hk : p.tasks[i]? = some (.handleWrite false))
    (hq : p.sendQue.tail = []) : QueueInv ({ p with sendQue := [] }.put i .ended) := by
  let q := ({ p with sendQue := [] } : Pipeline).put i .ended
  obtain ⟨hnone, hflight, hone, hlost, f, rest, hque⟩ := h.handling_cases hk
  have hpending : q.pending + 0 = p.pending + 0 :=
    Pipeline.pending_put (q := q) (m := .ended) hk rfl
  have hhandling : q.handling + 1 = p.handling + 0 :=
    Pipeline.handling_put (q := q) (m := .ended) hk rfl
  have hlen : p.inFlight.length = 0 := by rw [hflight, List.length_nil]
  have hold : p.started = p.inFlight.length + p.handling + p.lost := rfl
  have hstarted : q.started = p.inFlight.length + q.handling + p.lost := rfl
  have hone' : p.started = 1 := by omega
  obtain ⟨popped, haccepted, hpassed⟩ := h.fifo
  refine ⟨?_, ?_, ⟨p.accepted, ?_, ?_⟩, ?_⟩
  · show q.pending + q.started = 0
    omega
  · rintro g (hg | hg)
    · have hnil : g ∈ p.inFlight := hg
      simp [hflight] at hnil
    · rcases mem_set_cases hg with heq | hg
      · exact absurd heq (by simp)
      · exact absurd hg (Pipeline.not_asyncWrite_of_pending hnone g)
  · exact (List.append_nil p.accepted).symm
  · show p.passed = p.accepted ++ List.take q.started []
    have hrest : rest = [] := by simpa [hque] using hq
    rw [hpassed, haccepted, hone', hque, hrest]
    simp
  · exact Nat.zero_le _

/-- `HandleWrite` pops a frame and keeps the token for the next one. -/
theorem popNext {rest : List Frame} (h : QueueInv p)
    (hk : p.tasks[i]? = some (.handleWrite false)) (hq : p.sendQue.tail = f :: rest) :
    QueueInv ({ p with sendQue := f :: rest }.put i (.asyncWrite f)) := by
  let q := ({ p with sendQue := f :: rest } : Pipeline).put i (.asyncWrite f)
  obtain ⟨hnone, hflight, hone, hlost, g, tail, hque⟩ := h.handling_cases hk
  obtain rfl : tail = f :: rest := by simpa [hque] using hq
  have hpending : q.pending + 0 = p.pending + 1 :=
    Pipeline.pending_put (q := q) (m := .asyncWrite f) hk rfl
  have hhandling : q.handling + 1 = p.handling + 0 :=
    Pipeline.handling_put (q := q) (m := .asyncWrite f) hk rfl
  have hlen : p.inFlight.length = 0 := by rw [hflight, List.length_nil]
  have hold : p.started = p.inFlight.length + p.handling + p.lost := rfl
  have hstarted : q.started = p.inFlight.length + q.handling + p.lost := rfl
  have hone' : p.started = 1 := by omega
  have hzero : q.started = 0 := by omega
  obtain ⟨popped, haccepted, hpassed⟩ := h.fifo
  refine ⟨?_, ?_, ⟨popped ++ [g], ?_, ?_⟩, ?_⟩
  · show q.pending + q.started = 1
    omega
  · rintro x (hx | hx)
    · have hnil : x ∈ p.inFlight := hx
      simp [hflight] at hnil
    · rcases mem_set_cases hx with heq | hx
      · obtain rfl := Task.asyncWrite.inj heq
        rfl
      · exact absurd hx (Pipeline.not_asyncWrite_of_pending hnone x)
  · show p.accepted = popped ++ [g] ++ f :: rest
    rw [haccepted, hque]
    simp
  · show p.passed = popped ++ [g] ++ List.take q.started (f :: rest)
    rw [hpassed, hone', hque, hzero]
    simp
  · show (f :: rest).length ≤ maxSendQueLen
    have hbound := h.bound
    rw [hque, List.length_cons] at hbound
    omega

/-- A completed write hands its token to `HandleWrite`, or loses it. -/
theorem complete (h : QueueInv p) (hf : p.inFlight[i]? = some f) (error : Bool) :
    QueueInv ({ p with inFlight := p.inFlight.eraseIdx i, failed := p.failed || error }.spawn
      (.handleWrite error)) := by
  let q := ({ p with inFlight := p.inFlight.eraseIdx i, failed := p.failed || error } :
    Pipeline).spawn (.handleWrite error)
  obtain ⟨hi, -⟩ := List.getElem?_eq_some_iff.mp hf
  have hlen : (p.inFlight.eraseIdx i).length + 1 = p.inFlight.length := by
    rw [List.length_eraseIdx_of_lt hi]
    omega
  have hpending : q.pending = p.pending + 0 := by
    rw [Pipeline.pending_spawn]
    cases error <;> rfl
  have hhandling : q.handling = p.handling + if error then 0 else 1 := by
    rw [Pipeline.handling_spawn]
    cases error <;> rfl
  have hold : p.started = p.inFlight.length + p.handling + p.lost := rfl
  have hque : p.sendQue ≠ [] := by
    have hhead := h.front f (Or.inl (List.mem_of_getElem? hf))
    rintro hnil
    simp [hnil] at hhead
  have htoken : p.pending + p.started = 1 := by rw [h.token, if_neg hque]
  have hstarted : q.started = p.started := by
    have hsame : q.started = (p.inFlight.eraseIdx i).length + q.handling + q.lost := rfl
    have hlost : q.lost = if error then 1 else 0 := by
      have hnone : p.lost = 0 := by omega
      have hopen : p.failed = false := by
        by_contra hfailed
        simp [Pipeline.lost, hfailed] at hnone
      show (if p.failed || error then 1 else 0) = _
      rw [hopen, Bool.false_or]
    have hnone : p.lost = 0 := by omega
    cases error <;> simp only [Bool.false_eq_true, if_false, if_true] at hlost hhandling <;> omega
  refine ⟨?_, ?_, ?_, h.bound⟩
  · show q.pending + q.started = if p.sendQue = [] then 0 else 1
    rw [if_neg hque]
    omega
  · rintro g (hg | hg)
    · exact h.front g (Or.inl (List.mem_of_mem_eraseIdx hg))
    · rcases List.mem_append.mp hg with hg | hg
      · exact h.front g (Or.inr hg)
      · exact absurd (List.mem_singleton.mp hg) (by simp)
  · obtain ⟨popped, haccepted, hpassed⟩ := h.fifo
    refine ⟨popped, haccepted, ?_⟩
    show p.passed = popped ++ p.sendQue.take q.started
    rw [hpassed, hstarted]

/-- **Every step keeps the queue, the token and the histories together.** -/
theorem step {q : Pipeline} {a : PipeEvent} (h : QueueInv p) (hs : pipeStep e p a = some q) :
    QueueInv q := by
  cases pipeEffect_of_step hs with
  | dropped hstop => exact h
  | send hstop hn => exact (sameQueue_spawn rfl rfl).queueInv h
  | post hk => exact (sameQueue_put hk _ .ended rfl rfl (by simp)).queueInv h
  | full hk hlen => exact (sameQueue_put hk _ .ended rfl rfl (by simp)).queueInv h
  | push hk hlen =>
      by_cases hque : p.sendQue = []
      · have hfirst := h.pushFirst hk hque
        simpa [hque] using hfirst
      · have hnext := h.pushNext hk hque hlen
        simpa [hque] using hnext
  | @noWrite i hk hque =>
      -- the caller of `DoWrite` has the token, so the queue is not empty
      have hone : 1 ≤ p.pending := contrib_le_countP Task.isPending hk
      have htoken := h.token
      rw [if_pos hque] at htoken
      omega
  | takeFront hk hf => exact h.takeFront hk hf
  | asyncWrite hk => exact h.asyncWrite hk
  | popLast hk hque => exact h.popLast hk hque
  | popNext hk hque => exact h.popNext hk hque
  | @fail i hk =>
      have hclosed := (sameQueue_close p).queueInv h
      have hk' : p.close.tasks[i]? = some (.handleWrite true) := by rw [tasks_close, hk]
      exact (sameQueue_put hk' _ .ended rfl rfl (by simp)).queueInv hclosed
  | closeSocket hp => exact (sameQueue_posted p _).queueInv h
  | stale hp hstop => exact (sameQueue_posted p _).queueInv h
  | begin hp hstop => exact (sameQueue_spawn rfl rfl).queueInv h
  | complete hf => exact h.complete hf _
  | close => exact (sameQueue_close p).queueInv h

end QueueInv

/-! ## Each frame is in one place -/

/-- 1 for the address of the frame, 0 for the others. -/
def Frame.at (f : Frame) (a : Nat) : Nat := if f.addr = a then 1 else 0

theorem contrib_posting (f : Frame) (a : Nat) :
    contrib (Task.carries a) (.posting f) = f.at a := by
  simp [contrib, Task.carries, Frame.at]

theorem contrib_doSend (f : Frame) (a : Nat) :
    contrib (Task.carries a) (.doSend f) = f.at a := by
  simp [contrib, Task.carries, Frame.at]

theorem countP_accept (fs : List Frame) (f : Frame) (a : Nat) :
    (fs ++ [f]).countP (fun g => g.addr == a) = fs.countP (fun g => g.addr == a) + f.at a := by
  simp [List.countP_append, List.countP_singleton, Frame.at]

theorem countP_post (ps : List Posted) (f : Frame) (a : Nat) :
    (ps ++ [Posted.doSend f]).countP (Posted.carries a) =
      ps.countP (Posted.carries a) + f.at a := by
  simp [List.countP_append, List.countP_singleton, Posted.carries, Frame.at]

theorem countP_posted (ps : List Posted) (f : Frame) (a : Nat) :
    (.doSend f :: ps).countP (Posted.carries a) = ps.countP (Posted.carries a) + f.at a := by
  simp [List.countP_cons, Posted.carries, Frame.at]

namespace FreshInv

variable {p : Pipeline} {i : Nat} {k m : Task}

/-- A task moves: what the three places gain, it gives up or makes. -/
theorem put (h : FreshInv p) {q : Pipeline} (hk : p.tasks[i]? = some k)
    (htasks : q.tasks = p.tasks.set i m) (hmove : ∀ a,
      q.accepted.countP (fun f => f.addr == a) + q.posted.countP (Posted.carries a) +
        contrib (Task.carries a) m + made p.nextAddr a ≤
      p.accepted.countP (fun f => f.addr == a) + p.posted.countP (Posted.carries a) +
        contrib (Task.carries a) k + made q.nextAddr a) : FreshInv q := by
  intro a
  have hcount := countP_set_add (Task.carries a) (m := m) hk
  have hold := h a
  have hnew := hmove a
  rw [htasks]
  omega

theorem spawn (h : FreshInv p) {q : Pipeline} (htasks : q.tasks = p.tasks ++ [k])
    (hmove : ∀ a,
      q.accepted.countP (fun f => f.addr == a) + q.posted.countP (Posted.carries a) +
        contrib (Task.carries a) k + made p.nextAddr a ≤
      p.accepted.countP (fun f => f.addr == a) + p.posted.countP (Posted.carries a) +
        made q.nextAddr a) : FreshInv q := by
  intro a
  have hold := h a
  have hnew := hmove a
  have hcount : (p.tasks ++ [k]).countP (Task.carries a) =
      p.tasks.countP (Task.carries a) + contrib (Task.carries a) k := by
    rw [List.countP_append, List.countP_singleton]
    rfl
  rw [htasks, hcount]
  omega

/-- A task that has no frame moves to one that has none. -/
theorem putEmpty (h : FreshInv p) {q : Pipeline} (hk : p.tasks[i]? = some k)
    (htasks : q.tasks = p.tasks.set i m) (haccepted : q.accepted = p.accepted)
    (hposted : ∀ a, q.posted.countP (Posted.carries a) = p.posted.countP (Posted.carries a))
    (hnext : q.nextAddr = p.nextAddr) (hm : ∀ a, m.carries a = false) : FreshInv q := by
  refine h.put hk htasks fun a => ?_
  have hzero := contrib_of_false (hm a)
  have hpost := hposted a
  rw [haccepted, hnext]
  omega

theorem close (h : FreshInv p) : FreshInv p.close := by
  unfold Pipeline.close
  split
  · exact h
  · intro a
    have hold := h a
    have hpost : (p.posted ++ [Posted.closeSocket]).countP (Posted.carries a) =
        p.posted.countP (Posted.carries a) := by
      rw [List.countP_append]
      rfl
    show p.accepted.countP _ + (p.posted ++ [Posted.closeSocket]).countP (Posted.carries a) +
      p.tasks.countP (Task.carries a) ≤ made p.nextAddr a
    omega

/-- **Every step keeps each frame in one place.** -/
theorem step {q : Pipeline} {a : PipeEvent} (h : FreshInv p) (hs : pipeStep e p a = some q) :
    FreshInv q := by
  cases pipeEffect_of_step hs with
  | dropped hstop => exact h
  | @send _ _ node hstop hn =>
      refine h.spawn rfl fun a => ?_
      have hmade := made_succ p.nextAddr a
      have hone := contrib_posting ⟨p.nextAddr, node⟩ a
      have hat : (⟨p.nextAddr, node⟩ : Frame).at a = if p.nextAddr = a then 1 else 0 := rfl
      dsimp only [Pipeline.spawn]
      omega
  | @post i f hk =>
      refine h.put hk (m := .ended) rfl fun a => ?_
      have hold := contrib_posting f a
      have hzero : contrib (Task.carries a) .ended = 0 := rfl
      have hpost := countP_post p.posted f a
      dsimp only [Pipeline.put]
      omega
  | full hk hlen => exact h.putEmpty hk rfl rfl (fun _ => rfl) rfl (fun _ => rfl)
  | @push i f hk hlen =>
      refine h.put hk rfl fun a => ?_
      have hold := contrib_doSend f a
      have hzero : contrib (Task.carries a) (if p.sendQue = [] then .doWrite else .ended) = 0 := by
        split <;> rfl
      have haccept := countP_accept p.accepted f a
      dsimp only [Pipeline.put]
      omega
  | noWrite hk hque => exact h.putEmpty hk rfl rfl (fun _ => rfl) rfl (fun _ => rfl)
  | takeFront hk hf => exact h.putEmpty hk rfl rfl (fun _ => rfl) rfl (fun _ => rfl)
  | asyncWrite hk => exact h.putEmpty hk rfl rfl (fun _ => rfl) rfl (fun _ => rfl)
  | popLast hk hque => exact h.putEmpty hk rfl rfl (fun _ => rfl) rfl (fun _ => rfl)
  | popNext hk hque => exact h.putEmpty hk rfl rfl (fun _ => rfl) rfl (fun _ => rfl)
  | @fail i hk =>
      have hk' : p.close.tasks[i]? = some (.handleWrite true) := by rw [tasks_close, hk]
      exact h.close.putEmpty hk' rfl rfl (fun _ => rfl) rfl (fun _ => rfl)
  | @closeSocket rest hp =>
      intro a
      have hold := h a
      have hpost : p.posted.countP (Posted.carries a) = rest.countP (Posted.carries a) := by
        rw [hp]
        rfl
      dsimp only
      omega
  | @stale f rest hp hstop =>
      intro a
      have hold := h a
      have hpost := countP_posted rest f a
      rw [hp] at hold
      dsimp only
      omega
  | @begin f rest hp hstop =>
      refine h.spawn rfl fun a => ?_
      have hpost := countP_posted rest f a
      have hone := contrib_doSend f a
      rw [hp]
      dsimp only [Pipeline.spawn]
      omega
  | @complete i f error hf =>
      refine h.spawn rfl fun a => ?_
      have hzero : contrib (Task.carries a) (.handleWrite error) = 0 := rfl
      dsimp only [Pipeline.spawn]
      omega
  | close => exact h.close

end FreshInv

/-! ## Stopping -/

theorem bStop_close (p : Pipeline) : p.close.bStop = true := by
  unfold Pipeline.close
  split
  · next h => exact h
  · rfl

/-- A stopped session stays stopped. -/
theorem bStop_step {p q : Pipeline} {a : PipeEvent} (h : p.bStop = true)
    (hs : pipeStep e p a = some q) : q.bStop = true := by
  cases pipeEffect_of_step hs with
  | fail => exact bStop_close p
  | close => exact bStop_close p
  | dropped | send | post | full | push | noWrite | takeFront | asyncWrite | popLast | popNext
    | closeSocket | stale | begin | complete => exact h

/-- **Every step keeps the promise to stop after a failed write.** -/
theorem StopInv.step {p q : Pipeline} {a : PipeEvent} (h : StopInv p)
    (hs : pipeStep e p a = some q) : StopInv q := by
  -- the pending `HandleWrite` stays where another task acts
  have keep : ∀ {i : Nat} {k m : Task}, p.tasks[i]? = some k → k ≠ .handleWrite true →
      p.failed = true → p.bStop = true ∨ .handleWrite true ∈ p.tasks.set i m := by
    intro i k m hk hne hfailed
    rcases h hfailed with hstop | hmem
    · exact Or.inl hstop
    · obtain ⟨j, hj⟩ := List.mem_iff_getElem?.mp hmem
      have hij : i ≠ j := by
        rintro rfl
        exact hne (Option.some.inj (hk.symm.trans hj))
      exact Or.inr (List.mem_of_getElem? (i := j) (by rw [List.getElem?_set_ne hij, hj]))
  have more : ∀ k : Task, p.failed = true →
      p.bStop = true ∨ .handleWrite true ∈ p.tasks ++ [k] :=
    fun k hfailed => (h hfailed).imp_right (List.mem_append_left [k])
  cases pipeEffect_of_step hs with
  | dropped | closeSocket | stale => exact h
  | send | begin => exact more _
  | post hk | full hk | push hk | noWrite hk | takeFront hk | asyncWrite hk | popLast hk
    | popNext hk => exact keep hk (by simp)
  | fail hk => exact fun _ => Or.inl (bStop_close p)
  | @complete i f error hf =>
      cases error with
      | true => exact fun _ => Or.inr (List.mem_append_right _ (List.mem_singleton.mpr rfl))
      | false =>
          intro hfailed
          have hold : p.failed = true := by simpa [Pipeline.spawn] using hfailed
          exact more _ hold
  | close => exact fun _ => Or.inl (bStop_close p)

/-- The frames that were accepted or that a running `DoSend` may still push. -/
def Pipeline.Admitted (p : Pipeline) (f : Frame) : Prop :=
  f ∈ p.accepted ∨ .doSend f ∈ p.tasks

/-- On a stopped session no further frame is admitted. -/
theorem admitted_step {p q : Pipeline} {a : PipeEvent} (hstop : p.bStop = true)
    (hs : pipeStep e p a = some q) {f : Frame} (hf : q.Admitted f) : p.Admitted f := by
  have moved : ∀ {i : Nat} {m : Task}, (∀ g, m ≠ .doSend g) →
      .doSend f ∈ p.tasks.set i m → p.Admitted f := by
    intro i m hm hmem
    rcases mem_set_cases hmem with heq | hmem
    · exact absurd heq.symm (hm f)
    · exact Or.inr hmem
  cases pipeEffect_of_step hs with
  | dropped | closeSocket | stale => exact hf
  | send hopen | begin _ hopen => exact absurd hstop (by simp [hopen])
  | post hk | full hk | noWrite hk | takeFront hk | asyncWrite hk | popLast hk | popNext hk =>
      exact hf.elim Or.inl (moved (by simp))
  | @push i g hk hlen =>
      rcases hf with hf | hf
      · rcases List.mem_append.mp hf with hf | hf
        · exact Or.inl hf
        · rw [List.mem_singleton.mp hf]
          exact Or.inr (List.mem_of_getElem? hk)
      · refine moved (fun g => ?_) hf
        split <;> simp
  | @fail i hk =>
      have hsame : p.close = p := by rw [Pipeline.close, if_pos hstop]
      rw [hsame] at hf
      exact hf.elim Or.inl (moved (by simp))
  | complete =>
      refine hf.imp_right fun hmem => ?_
      rcases List.mem_append.mp hmem with hmem | hmem
      · exact hmem
      · exact absurd (List.mem_singleton.mp hmem) (by simp)
  | close =>
      have hsame : p.close = p := by rw [Pipeline.close, if_pos hstop]
      exact hsame ▸ hf

/-- Whatever a stopped session accepts later was admitted when it stopped. -/
theorem admitted_run {p q : Pipeline} {as : List PipeEvent} (hstop : p.bStop = true)
    (hr : run (pipeStep e) p as = some q) {f : Frame} (hf : f ∈ q.accepted) : p.Admitted f := by
  have hstep : ∀ s a t, (s.bStop = true ∧ ∀ g : Frame, s.Admitted g → p.Admitted g) →
      pipeStep e s a = some t → t.bStop = true ∧ ∀ g : Frame, t.Admitted g → p.Admitted g :=
    fun s a t hs ht =>
      ⟨bStop_step hs.1 ht, fun g hg => hs.2 g (admitted_step hs.1 ht hg)⟩
  have hreach : Reachable (pipeStep e) (fun s => s = p) q := ⟨p, as, rfl, hr⟩
  have hinit : ∀ s, s = p → s.bStop = true ∧ ∀ g : Frame, s.Admitted g → p.Admitted g := by
    rintro s rfl
    exact ⟨hstop, fun _ hg => hg⟩
  have hinv := hreach.invariant hinit hstep
  exact hinv.2 f (Or.inl hf)

/-! ## The send pipeline -/

theorem queueInv_init : QueueInv {} :=
  ⟨rfl, by simp, ⟨[], rfl, rfl⟩, Nat.zero_le _⟩

theorem freshInv_init : FreshInv {} := fun _ => Nat.zero_le _

/-- A frame that is still posted, about to be posted or not made is not admitted. -/
theorem FreshInv.not_admitted {p : Pipeline} (h : FreshInv p) {f : Frame}
    (hf : .doSend f ∈ p.posted ∨ .posting f ∈ p.tasks ∨ p.nextAddr ≤ f.addr) :
    ¬ p.Admitted f := by
  intro hadm
  have hone := h f.addr
  have hmade := made_le_one p.nextAddr f.addr
  have haccepted : f ∈ p.accepted → 0 < p.accepted.countP (fun g => g.addr == f.addr) :=
    fun hmem => List.countP_pos_iff.mpr ⟨f, hmem, by simp⟩
  have hrunning : .doSend f ∈ p.tasks → 0 < p.tasks.countP (Task.carries f.addr) :=
    fun hmem => List.countP_pos_iff.mpr ⟨_, hmem, by simp [Task.carries]⟩
  rcases hf with hf | hf | hf
  · have hposted : 0 < p.posted.countP (Posted.carries f.addr) :=
      List.countP_pos_iff.mpr ⟨_, hf, by simp [Posted.carries]⟩
    rcases hadm with hadm | hadm
    · have := haccepted hadm
      omega
    · have := hrunning hadm
      omega
  · have hposting : 0 < p.tasks.countP (Task.carries f.addr) :=
      List.countP_pos_iff.mpr ⟨_, hf, by simp [Task.carries]⟩
    rcases hadm with hadm | hadm
    · have := haccepted hadm
      omega
    · have htwo := two_le_countP (p := Task.carries f.addr) (by simp) (by simp [Task.carries])
        (by simp [Task.carries]) hf hadm
      omega
  · rw [made_of_le hf] at hone
    rcases hadm with hadm | hadm
    · have := haccepted hadm
      omega
    · have := hrunning hadm
      omega

theorem FreshInv.nodup_accepted {p : Pipeline} (h : FreshInv p) : p.accepted.Nodup := by
  refine List.nodup_iff_count_le_one.mpr fun f => ?_
  have hone := h f.addr
  have hmade := made_le_one p.nextAddr f.addr
  have hle : p.accepted.count f ≤ p.accepted.countP (fun g => g.addr == f.addr) := by
    refine List.countP_mono_left fun g _ hg => ?_
    rw [eq_of_beq hg]
    exact beq_self_eq_true f.addr
  omega

/-- While no handler runs, nobody is about to write and no completion waits. -/
theorem quiet_of_no_handler {p : Pipeline} (h : ∀ k ∈ p.tasks, k.isHandler = false) :
    p.pending = 0 ∧ p.handling = 0 := by
  constructor
  · refine List.countP_eq_zero.mpr fun k hk => ?_
    have hidle := h k hk
    cases k <;> simp_all [Task.isHandler, Task.isPending]
  · refine List.countP_eq_zero.mpr fun k hk => ?_
    have hidle := h k hk
    cases k <;> simp_all [Task.isHandler, Task.isHandling]

/-- **The send pipeline is an exactly-once FIFO**, in every reachable state. -/
theorem send_pipeline_fifo (e : Endian) {s : Pipeline}
    (h : Reachable (pipeStep e) PipeInit s) :
    -- one write at most is in flight
    s.inFlight.length ≤ 1 ∧
    -- without a failed write, it is there exactly when the queue is not empty
    (s.failed = false → (∀ k ∈ s.tasks, k.isHandler = false) →
      (s.sendQue ≠ [] ↔ s.inFlight.length = 1) ∧
        ∀ f ∈ s.inFlight, s.sendQue.head? = some f) ∧
    -- what is passed to `async_write` is what was accepted, in order and once
    (s.passed <+: s.accepted ∧ s.passed.Nodup) ∧
    s.sendQue.length ≤ maxSendQueLen ∧
    -- a write error that has been handled has stopped the session, and a `DoSend`
    -- that starts on a stopped session accepts nothing
    (s.failed = true → .handleWrite true ∉ s.tasks → s.bStop = true) ∧
    (s.bStop = true → ∀ as t, run (pipeStep e) s as = some t → ∀ f : Frame,
      (.doSend f ∈ s.posted ∨ .posting f ∈ s.tasks ∨ s.nextAddr ≤ f.addr) →
        f ∉ t.accepted) := by
  have hqueue : QueueInv s := h.invariant (fun _ hs => hs ▸ queueInv_init)
    fun _ _ _ hp hstep => hp.step hstep
  have hfresh : FreshInv s := h.invariant (fun _ hs => hs ▸ freshInv_init)
    fun _ _ _ hp hstep => hp.step hstep
  have hstop : StopInv s := h.invariant (fun _ hs => hs ▸ fun hfailed => absurd hfailed (by simp))
    fun _ _ _ hp hstep => hp.step hstep
  have htoken := hqueue.token
  have hstarted : s.started = s.inFlight.length + s.handling + s.lost := rfl
  obtain ⟨popped, haccepted, hpassed⟩ := hqueue.fifo
  have hpre : s.passed <+: s.accepted := by
    rw [hpassed, haccepted]
    exact (List.prefix_append_right_inj popped).mpr (List.take_prefix _ _)
  refine ⟨?_, ?_, ⟨hpre, ?_⟩, hqueue.bound, ?_, ?_⟩
  · split at htoken <;> omega
  · intro hopen hidle
    obtain ⟨hpending, hhandling⟩ := quiet_of_no_handler hidle
    have hlost : s.lost = 0 := by rw [Pipeline.lost, hopen]; rfl
    refine ⟨?_, fun f hf => hqueue.front f (Or.inl hf)⟩
    constructor
    · intro hque
      rw [if_neg hque] at htoken
      omega
    · intro hone hque
      rw [if_pos hque] at htoken
      omega
  · exact hfresh.nodup_accepted.sublist hpre.sublist
  · intro hfailed hhandled
    exact (hstop hfailed).resolve_right hhandled
  · intro hstopped as t hrun f hf hmem
    exact hfresh.not_admitted hf (admitted_run hstopped hrun hmem)

/-- A frame is sent and written while a second one waits: the first is popped
and the second is in flight. -/
theorem send_pipeline_fifo_two_frames : ∃ s : Pipeline,
    s.passed.length = 2 ∧ s.accepted.length = 2 ∧ s.sendQue.length = 1 ∧ s.passed <+: s.accepted ∧
      (s.sendQue ≠ [] ↔ s.inFlight.length = 1) := by
  let events : List PipeEvent := [.send {} [], .task 0, .send {} [], .task 1, .runPosted, .task 2,
    .task 2, .task 2, .runPosted, .task 3, .complete 0 false, .task 4, .task 4]
  have hrun : ((run (pipeStep .little) {} events).map fun s =>
      ((s.passed.length, s.accepted.length, s.sendQue.length), s.failed,
        s.tasks.all fun k => !k.isHandler)) = some ((2, 2, 1), false, true) := by decide
  obtain ⟨s, hs, hview⟩ := Option.map_eq_some_iff.mp hrun
  simp only [Prod.mk.injEq] at hview
  obtain ⟨⟨hpassed, haccepted, hque⟩, hfailed, hidle⟩ := hview
  have hall : ∀ k ∈ s.tasks, k.isHandler = false := by
    intro k hk
    simpa using List.all_eq_true.mp hidle k hk
  have h := send_pipeline_fifo .little ⟨{}, events, rfl, hs⟩
  exact ⟨s, hpassed, haccepted, hque, h.2.2.1.1, (h.2.1 hfailed hall).1⟩

end AsioServer.Core
