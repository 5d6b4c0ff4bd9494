import Silence.Lib.SerialQueue
import Silence.Server.Framing

/-!
# Silence.Client.WriteQueue

The queue of the frames that a client writes.

`async_write` posts a handler that pushes its frame, and the handler that runs when a
write has completed pops the frame and writes the next one. A write uses the front
element of the queue while it is outstanding. The handlers are run one at a time, in any
order; those of one kind are told apart by their position among the handlers that can
run. The queue and its outstanding write are a serial queue of frames
(`Represents`), whose current job is the front element.
-/

namespace Silence.Client

open Silence.Lib
open Server (frame)

structure WriteState where
  /-- The messages of the handlers that are posted and have not run. -/
  posted : List Bytes
  writeQueue : List Bytes
  /-- The frames that were handed to `boost::asio::async_write`, where the write has not
  completed. -/
  outstanding : List Bytes
  /-- All frames that were pushed to the queue. -/
  pushed : List Bytes
  /-- All frames that were handed to `boost::asio::async_write`. -/
  handed : List Bytes

def WriteState.init : WriteState := ⟨[], [], [], [], []⟩

namespace WriteState

def doWrite (s : WriteState) : WriteState :=
  match s.writeQueue with
  | [] => s
  | front :: _ =>
      { s with
        outstanding := s.outstanding ++ [front]
        handed := s.handed ++ [front] }

/-- `async_write`, which posts a handler. -/
def asyncWrite (s : WriteState) (message : Bytes) (isConnected : Bool) : WriteState :=
  if !isConnected then s else { s with posted := s.posted ++ [message] }

/-- The handler that `async_write` posts. -/
def runPosted (s : WriteState) (message : Bytes) : WriteState :=
  let writeInProgress := !s.writeQueue.isEmpty
  let s := { s with
    writeQueue := s.writeQueue ++ [frame message]
    pushed := s.pushed ++ [frame message] }
  if !writeInProgress then s.doWrite else s

/-- `handle_async_write`, without an error. -/
def handleAsyncWrite (s : WriteState) : WriteState :=
  { s with writeQueue := s.writeQueue.tail }.doWrite

end WriteState

inductive WriteEvent where
  | asyncWrite (message : Bytes) (isConnected : Bool)
  /-- A posted handler runs. -/
  | posted (i : Nat)
  /-- A write has completed, and its handler runs. -/
  | written (i : Nat)

def WriteState.step (s : WriteState) : WriteEvent → WriteState
  | .asyncWrite message isConnected => s.asyncWrite message isConnected
  | .posted i =>
      match s.posted[i]? with
      | none => s
      | some message => { s with posted := s.posted.eraseIdx i }.runPosted message
  | .written i =>
      if i < s.outstanding.length then
        { s with outstanding := s.outstanding.eraseIdx i }.handleAsyncWrite
      else s

/-- The state after some events. -/
def WriteState.run (s : WriteState) (events : List WriteEvent) : WriteState :=
  events.foldl step s

/-- The client's queue is a serial queue: the front element is the frame that is written. -/
structure Represents (s : WriteState) (q : SerialQueue Bytes) : Prop where
  writeQueue : s.writeQueue = q.pending
  outstanding : s.outstanding = q.current.toList
  handed : s.handed = q.started
  pushed : s.pushed = q.submitted

namespace Represents

variable {s : WriteState} {q : SerialQueue Bytes}

theorem init : Represents .init .empty := ⟨rfl, rfl, rfl, rfl⟩

/-- A frame is pushed, and written at once if the queue was empty. -/
theorem runPosted (h : Represents s q) (message : Bytes) :
    Represents (s.runPosted message) (q.submit (frame message)) := by
  have hpushed := SerialQueue.submitted_submit q (frame message)
  cases hcurrent : q.current with
  | none =>
      have hempty : s.writeQueue = [] := by
        rw [h.writeQueue, q.pending_eq_nil_iff.mpr hcurrent]
      have hrun : s.runPosted message =
          { s with
            writeQueue := [frame message]
            outstanding := s.outstanding ++ [frame message]
            pushed := s.pushed ++ [frame message]
            handed := s.handed ++ [frame message] } := by
        simp [WriteState.runPosted, WriteState.doWrite, hempty]
      rw [hrun]
      constructor
      · simp [SerialQueue.pending, SerialQueue.submit, hcurrent]
      · simp [SerialQueue.submit, hcurrent, h.outstanding]
      · simp [SerialQueue.submit, SerialQueue.started, hcurrent, h.handed]
      · exact (congrArg (· ++ [frame message]) h.pushed).trans hpushed.symm
  | some front =>
      have hfull : s.writeQueue.isEmpty = false := by
        rw [h.writeQueue, SerialQueue.pending, hcurrent]
        rfl
      have hrun : s.runPosted message =
          { s with
            writeQueue := s.writeQueue ++ [frame message]
            pushed := s.pushed ++ [frame message] } := by
        simp [WriteState.runPosted, hfull]
      rw [hrun]
      constructor
      · simp [SerialQueue.pending, SerialQueue.submit, hcurrent, h.writeQueue]
      · simp [SerialQueue.submit, hcurrent, h.outstanding]
      · simp [SerialQueue.submit, SerialQueue.started, hcurrent, h.handed]
      · exact (congrArg (· ++ [frame message]) h.pushed).trans hpushed.symm

/-- The current frame has been written: it is popped, and the next one is written. -/
theorem handleAsyncWrite (h : Represents s q) {front : Bytes} (hcurrent : q.current = some front) :
    Represents { s with outstanding := [] }.handleAsyncWrite q.finish := by
  have hpushed := SerialQueue.submitted_finish q
  have hqueue : s.writeQueue.tail = q.waiting := by
    rw [h.writeQueue, SerialQueue.pending, hcurrent]
    rfl
  cases hwaiting : q.waiting with
  | nil =>
      have hrun : { s with outstanding := [] }.handleAsyncWrite =
          { s with writeQueue := [], outstanding := [] } := by
        simp [WriteState.handleAsyncWrite, WriteState.doWrite, hqueue, hwaiting]
      rw [hrun]
      constructor
      · rw [SerialQueue.pending_finish, hwaiting]
      · simp [SerialQueue.finish, hwaiting]
      · simp [SerialQueue.finish, SerialQueue.started, hwaiting, h.handed]
      · exact h.pushed.trans hpushed.symm
  | cons next rest =>
      have hrun : { s with outstanding := [] }.handleAsyncWrite =
          { s with
            writeQueue := next :: rest
            outstanding := [next]
            handed := s.handed ++ [next] } := by
        simp [WriteState.handleAsyncWrite, WriteState.doWrite, hqueue, hwaiting]
      rw [hrun]
      constructor
      · rw [SerialQueue.pending_finish, hwaiting]
      · simp [SerialQueue.finish, hwaiting]
      · simp [SerialQueue.finish, SerialQueue.started, hwaiting, h.handed]
      · exact h.pushed.trans hpushed.symm

/-- The completion of the only outstanding write. -/
theorem step_written (h : Represents s q) {front : Bytes} (hcurrent : q.current = some front) :
    Represents (s.step (.written 0)) q.finish := by
  have hone : s.outstanding = [front] := by
    rw [h.outstanding, hcurrent]
    rfl
  have hstep : s.step (.written 0) = { s with outstanding := [] }.handleAsyncWrite := by
    simp [WriteState.step, hone]
  rw [hstep]
  exact h.handleAsyncWrite hcurrent

/-- Whatever happens, the client's queue stays a serial queue. -/
theorem step (h : Represents s q) (event : WriteEvent) : ∃ q', Represents (s.step event) q' := by
  cases event with
  | asyncWrite message isConnected =>
      refine ⟨q, ?_⟩
      unfold WriteState.step WriteState.asyncWrite
      cases isConnected with
      | false => exact h
      | true => exact ⟨h.writeQueue, h.outstanding, h.handed, h.pushed⟩
  | posted i =>
      cases hmessage : s.posted[i]? with
      | none =>
          refine ⟨q, ?_⟩
          simp only [WriteState.step, hmessage]
          exact h
      | some message =>
          have hposted : Represents { s with posted := s.posted.eraseIdx i } q :=
            ⟨h.writeQueue, h.outstanding, h.handed, h.pushed⟩
          refine ⟨q.submit (frame message), ?_⟩
          simp only [WriteState.step, hmessage]
          exact hposted.runPosted message
  | written i =>
      by_cases hi : i < s.outstanding.length
      · cases hcurrent : q.current with
        | none =>
            rw [h.outstanding, hcurrent] at hi
            exact absurd hi (Nat.not_lt_zero i)
        | some front =>
            have hlen : s.outstanding.length = 1 := by
              rw [h.outstanding, hcurrent]
              rfl
            obtain rfl : i = 0 := by omega
            exact ⟨_, h.step_written hcurrent⟩
      · refine ⟨q, ?_⟩
        rw [WriteState.step, if_neg hi]
        exact h

theorem run (h : Represents s q) (events : List WriteEvent) :
    ∃ q', Represents (s.run events) q' := by
  induction events generalizing s q with
  | nil => exact ⟨q, h⟩
  | cons event events ih =>
      obtain ⟨q', h'⟩ := h.step event
      exact ih h'

end Represents

end Silence.Client
