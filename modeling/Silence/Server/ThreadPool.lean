import Mathlib.Data.List.Count
import Mathlib.Data.List.Nodup
import Mathlib.Data.List.Perm.Basic
import Silence.Server.State

/-!
# Silence.Server.ThreadPool

How `Server` accepts connections and hands them to its threads.

The thread that calls `start` and those of the pool run the handlers of one `io_service`.
`handle_request` returns when its connection has ended, so it keeps its thread until then.
Every connection is handed to one thread, once, and the loop that accepts them is always
at one place (`connections_served_once`). It is a handler like the others: while all
threads are kept, nobody else is served (`serves_more_iff`).
-/

namespace Silence.Server

/-- A handler of the `io_service` that can run. -/
inductive Task where
  /-- `async_accept` has completed. -/
  | accepted (socket : Socket) (error : Bool)
  | handleRequest (socket : Socket)
  /-- The timer of `start_request_handling` has expired. -/
  | timer
  deriving DecidableEq, Repr

/-- The handlers that go on with accepting. -/
def Task.isAccepting : Task → Bool
  | .accepted _ _ => true
  | .handleRequest _ => false
  | .timer => true

structure ThreadPool where
  /-- The process has not been terminated. -/
  alive : Bool
  /-- The sockets of the calls of `async_accept` that have not completed. -/
  accepting : List Socket
  /-- How many timers are waiting. -/
  timers : Nat
  ready : List Task
  /-- The connection that each thread is in `handle_request` with. The first one is the thread that
  called `start`. -/
  threads : List (Option Socket)
  /-- All connections that were posted. -/
  posted : List Socket
  /-- The connections with which `handle_request` has returned. -/
  ended : List Socket
  /-- The next socket that is made. -/
  next : Socket
  deriving Repr

inductive PoolEvent where
  /-- An `async_accept` completes. -/
  | accept (i : Nat) (error : Bool)
  /-- A timer expires. -/
  | expire
  /-- A thread that is free runs a handler. What it does may fail: to post a connection, and to
  accept the next one. -/
  | run (i thread : Nat) (posts accepts : Bool)
  /-- A connection ends, and `handle_request` returns. -/
  | finish (thread : Nat)
  /-- An exception leaves `handle_request`. -/
  | throw (thread : Nat)
  deriving Repr

namespace ThreadPool

/-- `start_request_handling`. If it fails it is called again by a timer. -/
def startRequestHandling (t : ThreadPool) (accepts : Bool) : ThreadPool :=
  if accepts then { t with accepting := t.accepting ++ [t.next], next := t.next + 1 }
  else { t with timers := t.timers + 1 }

/-- `Server::start` behind the constructor, with a pool of this size. -/
def start (poolSize : Nat) (accepts : Bool) : ThreadPool :=
  startRequestHandling ⟨true, [], 0, [], List.replicate (poolSize + 1) none, [], [], 0⟩ accepts

/-- A thread runs a handler. -/
def perform (t : ThreadPool) (thread : Nat) (posts accepts : Bool) : Task → ThreadPool
  | .accepted socket error =>
      let t :=
        if !error && posts then
          { t with ready := t.ready ++ [.handleRequest socket], posted := t.posted ++ [socket] }
        else t
      t.startRequestHandling accepts
  | .handleRequest socket => { t with threads := t.threads.set thread (some socket) }
  | .timer => t.startRequestHandling accepts

/-- What can happen while the process is alive; anything else changes nothing. -/
def happen (t : ThreadPool) : PoolEvent → ThreadPool
  | .accept i error =>
      match t.accepting[i]? with
      | none => t
      | some socket =>
          { t with
            accepting := t.accepting.eraseIdx i
            ready := t.ready ++ [.accepted socket error] }
  | .expire =>
      if t.timers = 0 then t
      else { t with timers := t.timers - 1, ready := t.ready ++ [.timer] }
  | .run i thread posts accepts =>
      match t.ready[i]?, t.threads[thread]? with
      | some task, some none =>
          { t with ready := t.ready.eraseIdx i }.perform thread posts accepts task
      | _, _ => t
  | .finish thread =>
      match t.threads[thread]? with
      | some (some socket) =>
          { t with threads := t.threads.set thread none, ended := t.ended ++ [socket] }
      | _ => t
  | .throw thread =>
      match t.threads[thread]? with
      | some (some socket) =>
          -- `start` catches it and runs on; it terminates the process on a thread of the pool
          if thread = 0 then
            { t with threads := t.threads.set thread none, ended := t.ended ++ [socket] }
          else { t with alive := false }
      | _ => t

def step (t : ThreadPool) (event : PoolEvent) : ThreadPool :=
  if t.alive then t.happen event else t

/-- The state after some events. -/
def run (t : ThreadPool) (events : List PoolEvent) : ThreadPool := events.foldl step t

/-! ### The invariant -/

/-- The threads are those of a pool of this size, accepting is going on at so many places, and each
connection that was posted is ready, or on a thread, or has ended. -/
structure Sound (poolSize loops : Nat) (t : ThreadPool) : Prop where
  size : t.threads.length = poolSize + 1
  accepting : t.accepting.length + t.timers + t.ready.countP Task.isAccepting = loops
  places : ∀ socket, t.ready.count (.handleRequest socket) + t.threads.count (some socket) +
    t.ended.count socket = t.posted.count socket
  nodup : t.posted.Nodup
  posted_lt : ∀ socket ∈ t.posted, socket < t.next
  accepting_new : ∀ socket ∈ t.accepting, socket < t.next ∧ socket ∉ t.posted
  accepted_new : ∀ socket error, .accepted socket error ∈ t.ready →
    socket < t.next ∧ socket ∉ t.posted

namespace Sound

variable {poolSize loops : Nat} {t : ThreadPool}

theorem startRequestHandling (h : t.Sound poolSize loops) (accepts : Bool) :
    (t.startRequestHandling accepts).Sound poolSize (loops + 1) := by
  unfold ThreadPool.startRequestHandling
  have hloops := h.accepting
  cases accepts with
  | false =>
      refine { h with accepting := ?_ }
      simp only [Bool.false_eq_true, if_false]
      omega
  | true =>
      refine { h with accepting := ?_, posted_lt := ?_, accepting_new := ?_, accepted_new := ?_ }
      · simp only [if_true, List.length_append, List.length_singleton]
        omega
      · exact fun socket hmem => Nat.lt_succ_of_lt (h.posted_lt socket hmem)
      · intro socket hmem
        rcases List.mem_append.mp hmem with hold | hnew
        · obtain ⟨hlt, hnew⟩ := h.accepting_new socket hold
          exact ⟨Nat.lt_succ_of_lt hlt, hnew⟩
        · obtain rfl := List.mem_singleton.mp hnew
          exact ⟨Nat.lt_succ_self _, fun hposted => Nat.lt_irrefl _ (h.posted_lt _ hposted)⟩
      · intro socket error hmem
        obtain ⟨hlt, hnew⟩ := h.accepted_new socket error hmem
        exact ⟨Nat.lt_succ_of_lt hlt, hnew⟩

/-- The order of the handlers does not matter. -/
theorem perm (h : t.Sound poolSize loops) {ready : List Task} (hperm : t.ready.Perm ready) :
    { t with ready := ready }.Sound poolSize loops where
  size := h.size
  accepting := by
    rw [← h.accepting, hperm.countP_eq]
  places socket := by
    rw [← h.places socket, hperm.count_eq]
  nodup := h.nodup
  posted_lt := h.posted_lt
  accepting_new := h.accepting_new
  accepted_new socket error hmem := h.accepted_new socket error (hperm.mem_iff.mpr hmem)

/-- A handler that goes on with accepting is taken. -/
theorem take {task : Task} {rest : List Task} (htask : task.isAccepting = true)
    (h : { t with ready := task :: rest }.Sound poolSize (loops + 1)) :
    { t with ready := rest }.Sound poolSize loops := by
  have hloops := h.accepting
  rw [List.countP_cons_of_pos htask] at hloops
  refine { h with accepting := ?_, places := fun s => ?_, accepted_new := fun s e hmem => ?_ }
  · dsimp only at hloops ⊢
    omega
  · have hplace := h.places s
    have hne : task ≠ Task.handleRequest s := by
      rintro rfl
      cases htask
    rwa [List.count_cons_of_ne hne] at hplace
  · exact h.accepted_new s e (List.mem_cons_of_mem _ hmem)

/-- A connection is posted while no accept is going on. -/
theorem post (h : t.Sound poolSize 0) {socket : Socket} (hlt : socket < t.next)
    (hnew : socket ∉ t.posted) :
    { t with
      ready := t.ready ++ [Task.handleRequest socket]
      posted := t.posted ++ [socket] }.Sound poolSize 0 := by
  have hnone := h.accepting
  refine { h with
    accepting := ?_, places := fun s => ?_, nodup := ?_, posted_lt := fun s hmem => ?_,
    accepting_new := fun s hmem => ?_, accepted_new := fun s e hmem => ?_ }
  · rw [List.countP_append]
    exact hnone
  · have hplace := h.places s
    by_cases hs : s = socket
    · subst hs
      simp only [List.count_append, List.count_singleton_self]
      omega
    · have hne : Task.handleRequest socket ≠ .handleRequest s := fun heq => hs (by cases heq; rfl)
      simpa [List.count_append, hne, Ne.symm hs] using hplace
  · rw [List.nodup_append_comm]
    exact List.nodup_cons.mpr ⟨hnew, h.nodup⟩
  · rcases List.mem_append.mp hmem with hold | hlast
    · exact h.posted_lt s hold
    · rw [List.mem_singleton.mp hlast]
      exact hlt
  · have hempty : t.accepting = [] := List.length_eq_zero_iff.mp (by omega)
    rw [show t.accepting = [] from hempty] at hmem
    cases hmem
  · have hnotReady : t.ready.countP Task.isAccepting = 0 := by omega
    rcases List.mem_append.mp hmem with hold | hlast
    · exact absurd rfl (List.countP_eq_zero.mp hnotReady _ hold)
    · cases List.mem_singleton.mp hlast

/-- A thread runs a handler that was taken. -/
theorem perform {task : Task} {rest : List Task}
    (h : { t with ready := task :: rest }.Sound poolSize 1) {thread : Nat}
    (hfree : t.threads[thread]? = some none) (posts accepts : Bool) :
    ({ t with ready := rest }.perform thread posts accepts task).Sound poolSize 1 := by
  cases task with
  | accepted socket error =>
      obtain ⟨hlt, hnew⟩ := h.accepted_new socket error List.mem_cons_self
      have htaken := h.take rfl
      unfold ThreadPool.perform
      dsimp only
      split
      · exact (htaken.post hlt hnew).startRequestHandling accepts
      · exact htaken.startRequestHandling accepts
  | handleRequest socket =>
      obtain ⟨hlt, hget⟩ := List.getElem?_eq_some_iff.mp hfree
      have hloops := h.accepting
      refine { h with
        size := ?_, accepting := ?_, places := fun s => ?_, accepted_new := fun s e hmem => ?_ }
      · exact List.length_set.trans h.size
      · rwa [List.countP_cons_of_neg (by simp [Task.isAccepting])] at hloops
      · have hplace := h.places s
        unfold ThreadPool.perform
        dsimp only
        rw [List.count_set hlt, hget]
        by_cases hs : s = socket
        · subst hs
          simp at hplace ⊢
          omega
        · have hne : Task.handleRequest socket ≠ .handleRequest s := by
            simpa [eq_comm] using hs
          simpa [hne, Ne.symm hs, List.count_cons_of_ne] using hplace
      · exact h.accepted_new s e (List.mem_cons_of_mem _ hmem)
  | timer => exact (h.take rfl).startRequestHandling accepts

/-- A connection ends on its thread. -/
theorem finish (h : t.Sound poolSize 1) {thread : Nat} {socket : Socket}
    (hbusy : t.threads[thread]? = some (some socket)) :
    { t with
      threads := t.threads.set thread none
      ended := t.ended ++ [socket] }.Sound poolSize 1 := by
  obtain ⟨hlt, hget⟩ := List.getElem?_eq_some_iff.mp hbusy
  refine { h with size := List.length_set.trans h.size, places := fun s => ?_ }
  have hplace := h.places s
  have hthread : 0 < t.threads.count (some socket) :=
    List.count_pos_iff.mpr (List.mem_of_getElem? hbusy)
  dsimp only
  rw [List.count_set hlt, hget, List.count_append]
  by_cases hs : s = socket
  · subst hs
    simp
    omega
  · simpa [Ne.symm hs] using hplace

/-- One event. -/
theorem step (h : t.Sound poolSize 1) (event : PoolEvent) : (t.step event).Sound poolSize 1 := by
  unfold ThreadPool.step
  split
  · cases event with
    | accept i error =>
        unfold happen
        dsimp only
        split
        · exact h
        · rename_i socket hsocket
          have hloops := h.accepting
          have hlen : (t.accepting.eraseIdx i).length + 1 = t.accepting.length := by
            obtain ⟨hlt, -⟩ := List.getElem?_eq_some_iff.mp hsocket
            rw [List.length_eraseIdx_of_lt hlt]
            omega
          refine { h with
            accepting := ?_, places := fun s => ?_, accepting_new := fun s hmem => ?_,
            accepted_new := fun s e hmem => ?_ }
          · have hcount : [Task.accepted socket error].countP Task.isAccepting = 1 := rfl
            rw [List.countP_append, hcount]
            dsimp only
            omega
          · have hplace := h.places s
            rwa [List.count_append, List.count_singleton, if_neg (by simp), Nat.add_zero]
          · exact h.accepting_new s (List.mem_of_mem_eraseIdx hmem)
          · rcases List.mem_append.mp hmem with hold | hlast
            · exact h.accepted_new s e hold
            · cases List.mem_singleton.mp hlast
              exact h.accepting_new _ (List.mem_of_getElem? hsocket)
    | expire =>
        unfold happen
        dsimp only
        split
        · exact h
        · have hloops := h.accepting
          refine { h with
            accepting := ?_, places := fun s => ?_, accepted_new := fun s e hmem => ?_ }
          · have hcount : [Task.timer].countP Task.isAccepting = 1 := rfl
            rw [List.countP_append, hcount]
            dsimp only
            omega
          · have hplace := h.places s
            rwa [List.count_append, List.count_singleton, if_neg (by simp), Nat.add_zero]
          · rcases List.mem_append.mp hmem with hold | hlast
            · exact h.accepted_new s e hold
            · cases List.mem_singleton.mp hlast
    | run i thread posts accepts =>
        unfold happen
        dsimp only
        split
        · rename_i task htask hfree
          obtain ⟨hlt, rfl⟩ := List.getElem?_eq_some_iff.mp htask
          have htaken := h.perm (List.getElem_cons_eraseIdx_perm hlt).symm
          exact htaken.perform hfree posts accepts
        · exact h
    | finish thread =>
        unfold happen
        dsimp only
        split
        · rename_i socket hbusy
          exact h.finish hbusy
        · exact h
    | throw thread =>
        unfold happen
        dsimp only
        split
        · rename_i socket hbusy
          split
          · exact h.finish hbusy
          · exact { h with }
        · exact h
  · exact h

theorem run (h : t.Sound poolSize 1) (events : List PoolEvent) :
    (t.run events).Sound poolSize 1 := by
  induction events generalizing t with
  | nil => exact h
  | cons event events ih => exact ih (h.step event)

theorem start (poolSize : Nat) (accepts : Bool) :
    (ThreadPool.start poolSize accepts).Sound poolSize 1 := by
  refine startRequestHandling ?_ accepts
  exact {
    size := List.length_replicate
    accepting := rfl
    places := fun socket => by simp [List.count_replicate]
    nodup := List.nodup_nil
    posted_lt := by simp
    accepting_new := by simp
    accepted_new := by simp }

end Sound

/-- In every run each connection that was posted is in one place and in one only: it is ready, or on
one of the threads, or has ended. Accepting goes on at one place. -/
theorem connections_served_once (poolSize : Nat) (accepts : Bool) (events : List PoolEvent) :
    let t := (ThreadPool.start poolSize accepts).run events
    t.threads.length = poolSize + 1 ∧
      t.accepting.length + t.timers + t.ready.countP Task.isAccepting = 1 ∧
      ∀ socket, t.ready.count (.handleRequest socket) + t.threads.count (some socket) +
        t.ended.count socket = if socket ∈ t.posted then 1 else 0 := by
  intro t
  have h : t.Sound poolSize 1 := (Sound.start poolSize accepts).run events
  refine ⟨h.size, h.accepting, fun socket => ?_⟩
  rw [h.places]
  split
  · rename_i hmem
    exact List.count_eq_one_of_mem h.nodup hmem
  · rename_i hmem
    exact List.count_eq_zero.mpr hmem

/-! ### Free threads -/

/-- `handle_request` returns, or is left by an exception. -/
def PoolEvent.ends : PoolEvent → Bool
  | .finish _ => true
  | .throw _ => true
  | _ => false

/-- One more connection may be served before any ends. -/
def ServesMore (t : ThreadPool) : Prop :=
  ∃ events, (∀ event ∈ events, PoolEvent.ends event = false) ∧
    ∃ socket, some socket ∉ t.threads ∧ some socket ∈ (t.run events).threads

section ServesMore

variable {poolSize : Nat} {t : ThreadPool}

theorem ServesMore.of_step {event : PoolEvent} (h : (t.step event).ServesMore)
    (hthreads : (t.step event).threads = t.threads) (hends : PoolEvent.ends event = false) :
    t.ServesMore := by
  obtain ⟨events, hevents, socket, hbefore, hafter⟩ := h
  exact ⟨event :: events, List.forall_mem_cons.mpr ⟨hends, hevents⟩, socket,
    hthreads ▸ hbefore, hafter⟩

/-- While all threads are kept nothing is run. -/
theorem threads_step_of_full (hfull : none ∉ t.threads) {event : PoolEvent}
    (hends : PoolEvent.ends event = false) : (t.step event).threads = t.threads := by
  unfold step
  split
  · cases event with
    | accept i error =>
        unfold happen
        dsimp only
        split <;> rfl
    | expire =>
        unfold happen
        dsimp only
        split <;> rfl
    | run i thread posts accepts =>
        unfold happen
        dsimp only
        split
        · rename_i hfree
          exact absurd (List.mem_of_getElem? hfree) hfull
        · rfl
    | finish thread => cases hends
    | throw thread => cases hends
  · rfl

theorem threads_run_of_full (hfull : none ∉ t.threads) {events : List PoolEvent}
    (hends : ∀ event ∈ events, PoolEvent.ends event = false) :
    (t.run events).threads = t.threads := by
  induction events generalizing t with
  | nil => rfl
  | cons event events ih =>
      obtain ⟨hevent, hevents⟩ := List.forall_mem_cons.mp hends
      have hstep := threads_step_of_full hfull hevent
      exact (ih (hstep.symm ▸ hfull) hevents).trans hstep

/-- The event runs the handler. -/
theorem step_run (halive : t.alive = true) {i thread : Nat} {task : Task}
    (htask : t.ready[i]? = some task) (hfree : t.threads[thread]? = some none)
    (posts accepts : Bool) : t.step (.run i thread posts accepts) =
      { t with ready := t.ready.eraseIdx i }.perform thread posts accepts task := by
  simp only [step, halive, if_true, happen, htask, hfree]

/-- A connection that is ready gets a free thread. -/
theorem exists_served (halive : t.alive = true) (hfree : none ∈ t.threads) {socket : Socket}
    (hready : .handleRequest socket ∈ t.ready) :
    ∃ event, PoolEvent.ends event = false ∧ some socket ∈ (t.step event).threads := by
  obtain ⟨i, hi⟩ := List.getElem?_of_mem hready
  obtain ⟨thread, hthread⟩ := List.getElem?_of_mem hfree
  refine ⟨.run i thread true true, rfl, ?_⟩
  obtain ⟨hlt, -⟩ := List.getElem?_eq_some_iff.mp hthread
  rw [step_run halive hi hthread]
  exact List.mem_iff_getElem.mpr ⟨thread, by simpa [perform] using hlt, by simp [perform]⟩

theorem servesMore_of_ready (h : t.Sound poolSize 1) (halive : t.alive = true)
    (hfree : none ∈ t.threads) {socket : Socket} (hready : .handleRequest socket ∈ t.ready) :
    t.ServesMore := by
  obtain ⟨event, hends, hserved⟩ := exists_served halive hfree hready
  refine ⟨[event], by simpa using hends, socket, ?_, hserved⟩
  -- a connection that is ready is not on a thread as well
  have hplace := h.places socket
  have hready := List.count_pos_iff.mpr hready
  have hone := List.nodup_iff_count_le_one.mp h.nodup socket
  exact List.count_eq_zero.mp (by omega)

/-- A connection that was accepted is posted. -/
theorem servesMore_of_accepted (h : t.Sound poolSize 1) (halive : t.alive = true)
    (hfree : none ∈ t.threads) {socket : Socket} (hready : .accepted socket false ∈ t.ready) :
    t.ServesMore := by
  obtain ⟨i, hi⟩ := List.getElem?_of_mem hready
  obtain ⟨thread, hthread⟩ := List.getElem?_of_mem hfree
  have hstep := step_run halive hi hthread true true
  refine @ServesMore.of_step _ (.run i thread true true) ?_ (by rw [hstep]; rfl) rfl
  have hsound := h.step (.run i thread true true)
  rw [hstep] at hsound ⊢
  exact servesMore_of_ready hsound halive hfree
    (List.mem_append_right _ (List.mem_singleton.mpr rfl))

theorem servesMore_of_accepting (h : t.Sound poolSize 1) (halive : t.alive = true)
    (hfree : none ∈ t.threads) {socket : Socket} (haccepting : socket ∈ t.accepting) :
    t.ServesMore := by
  obtain ⟨i, hi⟩ := List.getElem?_of_mem haccepting
  have hstep : t.step (.accept i false) =
      { t with
        accepting := t.accepting.eraseIdx i
        ready := t.ready ++ [.accepted socket false] } := by
    simp only [step, halive, if_true, happen, hi]
  refine @ServesMore.of_step _ (.accept i false) ?_ (by rw [hstep]) rfl
  have hsound := h.step (.accept i false)
  rw [hstep] at hsound ⊢
  exact servesMore_of_accepted hsound halive hfree
    (List.mem_append_right _ (List.mem_singleton.mpr rfl))

/-- A handler that goes on with accepting is run. -/
theorem servesMore_of_isAccepting (h : t.Sound poolSize 1) (halive : t.alive = true)
    (hfree : none ∈ t.threads) {task : Task} (hready : task ∈ t.ready)
    (htask : task.isAccepting = true) : t.ServesMore := by
  obtain ⟨i, hi⟩ := List.getElem?_of_mem hready
  obtain ⟨thread, hthread⟩ := List.getElem?_of_mem hfree
  have hstep := step_run halive hi hthread false true
  have hsound := h.step (.run i thread false true)
  have hperform : { t with ready := t.ready.eraseIdx i }.perform thread false true task =
      { t with ready := t.ready.eraseIdx i }.startRequestHandling true := by
    cases task with
    | accepted socket error => simp [perform]
    | handleRequest socket => cases htask
    | timer => rfl
  refine @ServesMore.of_step _ (.run i thread false true) ?_ (by rw [hstep, hperform]; rfl) rfl
  rw [hstep, hperform] at hsound ⊢
  exact servesMore_of_accepting hsound halive hfree
    (List.mem_append_right _ (List.mem_singleton.mpr rfl))

theorem servesMore_of_timers (h : t.Sound poolSize 1) (halive : t.alive = true)
    (hfree : none ∈ t.threads) (htimers : t.timers ≠ 0) : t.ServesMore := by
  have hstep : t.step .expire =
      { t with timers := t.timers - 1, ready := t.ready ++ [.timer] } := by
    simp only [step, halive, if_true, happen, if_neg htimers]
  refine @ServesMore.of_step _ .expire ?_ (by rw [hstep]) rfl
  have hsound := h.step .expire
  rw [hstep] at hsound ⊢
  exact servesMore_of_isAccepting hsound halive hfree
    (List.mem_append_right _ (List.mem_singleton.mpr rfl)) rfl

theorem none_mem_of_servesMore (h : t.ServesMore) : none ∈ t.threads := by
  obtain ⟨events, hends, socket, hbefore, hafter⟩ := h
  by_contra hfull
  rw [threads_run_of_full hfull hends] at hafter
  exact hbefore hafter

/-- Accepting is going on at some place, and from there a connection can come to a free thread. -/
theorem servesMore_of_none_mem (h : t.Sound poolSize 1) (halive : t.alive = true)
    (hfree : none ∈ t.threads) : t.ServesMore := by
  have hloops := h.accepting
  by_cases htimers : t.timers = 0
  · by_cases hready : t.ready.countP Task.isAccepting = 0
    · have hpos : 0 < t.accepting.length := by omega
      exact servesMore_of_accepting h halive hfree (List.getElem_mem hpos)
    · obtain ⟨task, hmem, htask⟩ := List.countP_pos_iff.mp (Nat.pos_of_ne_zero hready)
      exact servesMore_of_isAccepting h halive hfree hmem htask
  · exact servesMore_of_timers h halive hfree htimers

/-- When the connection of a thread has ended the thread is free. -/
theorem step_finish (halive : t.alive = true) {thread : Nat} (hlt : thread < t.threads.length) :
    ∃ ended, t.step (.finish thread) =
      { t with threads := t.threads.set thread none, ended := ended } := by
  simp only [step, halive, if_true, happen]
  cases hthread : t.threads[thread]? with
  | none =>
      have hle := List.getElem?_eq_none_iff.mp hthread
      omega
  | some connection =>
      cases connection with
      | some socket => exact ⟨_, rfl⟩
      | none =>
          -- the thread is free already
          obtain ⟨_, hnone⟩ := List.getElem?_eq_some_iff.mp hthread
          have hset : t.threads.set thread none = t.threads := by
            rw [← hnone, List.set_getElem_self]
          exact ⟨t.ended, by rw [hset, ← halive]⟩

end ServesMore

/-- In every run, as long as the process is alive: one more connection may be served before any ends
if and only if a thread is free; and each connection that is ready may be the next one on any of the
threads, once this thread is free. -/
theorem serves_more_iff (poolSize : Nat) (accepts : Bool) (events : List PoolEvent) :
    let t := (ThreadPool.start poolSize accepts).run events
    t.alive = true → (t.ServesMore ↔ none ∈ t.threads) ∧
      ∀ socket, .handleRequest socket ∈ t.ready → ∀ thread ≤ poolSize, ∃ i,
        (t.run [.finish thread, .run i thread true true]).threads[thread]? =
          some (some socket) := by
  intro t halive
  have h : t.Sound poolSize 1 := (Sound.start poolSize accepts).run events
  refine ⟨⟨none_mem_of_servesMore, servesMore_of_none_mem h halive⟩, ?_⟩
  intro socket hready thread hthread
  have hlt : thread < t.threads.length := by
    have hsize := h.size
    omega
  obtain ⟨i, hi⟩ := List.getElem?_of_mem hready
  obtain ⟨ended, hfinish⟩ := step_finish halive hlt
  have hfree : (t.threads.set thread none)[thread]? = some none := by
    simp [hlt]
  have hrun : t.run [.finish thread, .run i thread true true] =
      (t.step (.finish thread)).step (.run i thread true true) := rfl
  refine ⟨i, ?_⟩
  rw [hrun, hfinish, step_run (by exact halive) (by exact hi) (by exact hfree)]
  simp [perform, hlt]

/-- Without a pool the second connection waits until the first one has ended. -/
theorem serves_more_iff_alone :
    let t := (ThreadPool.start 0 true).run [.accept 0 false, .run 0 0 true true, .accept 0 false,
      .run 1 0 true true, .run 0 0 true true]
    t.threads = [some 0] ∧ ¬ t.ServesMore ∧
      ∃ i, (t.run [.finish 0, .run i 0 true true]).threads[0]? = some (some 1) := by
  obtain ⟨hiff, hnext⟩ := serves_more_iff 0 true [.accept 0 false, .run 0 0 true true,
    .accept 0 false, .run 1 0 true true, .run 0 0 true true] rfl
  refine ⟨rfl, fun hmore => ?_, hnext 1 (List.mem_singleton.mpr rfl) 0 (Nat.le_refl 0)⟩
  exact absurd (hiff.mp hmore) (by decide)

end ThreadPool

end Silence.Server
