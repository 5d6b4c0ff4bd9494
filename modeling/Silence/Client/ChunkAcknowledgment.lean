import Silence.Client.KeySet
import Silence.Client.SendFile
import Silence.Lib.Run

/-!
# Silence.Client.ChunkAcknowledgment

Which acknowledgments `send_file_chunks` takes for that of its chunk.

`handle_chunk_acknowledgment` sets one flag for every success, whatever file and
chunk it names, and the flag outlives a transfer that has timed out. So a chunk may
be followed by the next one, and a transfer reported as completed, because of an
acknowledgment of another chunk. `justified_of_run` proves that there is no other way:
if no success arrives but for the chunk that is waited for, every chunk is
acknowledged before the next one is sent.
-/

namespace Silence.Client

open Silence.Lib Silence.Lib.Effect
open Server (Json)

/-! ### Acknowledgments -/

/-- The message reports a success. -/
structure IsSuccessAck (message : Json) : Prop where
  type : message.member? "type" = some (.string "chunk_acknowledgment")
  status : message.member? "status" = some (.string "success")

/-- The message reports the success of the chunk. -/
structure Acknowledges (message : Json) (filename : Bytes) (chunkNumber : Nat) : Prop where
  success : IsSuccessAck message
  filename : ∃ text, message.member? "filename" = some (.string text) ∧ bytesOf text = filename
  chunkNumber : message.member? "chunk_number" = some (.number chunkNumber)

/-- The latest call of `send_file_chunks`, with what has happened since. -/
structure Call where
  filename : Bytes
  content : Bytes
  actions : List Action

def Call.follow : Option Call → Action → Option Call
  | _, .started filename content => some ⟨filename, content, []⟩
  | some call, action => some { call with actions := call.actions ++ [action] }
  | none, _ => none

def latestCall (trace : List Action) : Option Call := trace.foldl Call.follow none

/-- The latest call is for the file, and the success of the chunk has arrived since it sent it. -/
def Confirmed (trace : List Action) (filename : Bytes) (chunkNumber : Nat) : Prop :=
  ∃ content front back, latestCall trace = some ⟨filename, content, front ++ back⟩ ∧
    (∃ chunkData isLast, .sent filename chunkNumber chunkData isLast ∈ front) ∧
    ∃ message, .received message ∈ back ∧ Acknowledges message filename chunkNumber

/-- What must have happened before an action: a chunk is only sent after the success of the
previous one, a transfer only completed after that of every chunk. -/
def Justified (before : List Action) : Action → Prop
  | .sent filename chunkNumber _ _ =>
      ∀ n, 1 ≤ n → chunkNumber = n + 1 → Confirmed before filename n
  | .completed filename _ chunks =>
      (∃ content actions, latestCall before = some ⟨filename, content, actions⟩ ∧
        chunks = chunkCount content) ∧
      ∀ n, 1 ≤ n → n ≤ chunks → Confirmed before filename n
  | _ => True

def AllJustified (trace : List Action) : Prop :=
  ∀ before action after, trace = before ++ action :: after → Justified before action

/-- The condition: a success only arrives for the chunk that is waited for, or while the flag is
set anyway. -/
def Sender.Awaited (s : Sender) : SenderEvent → Prop
  | .message message => IsSuccessAck message → s.client.chunkAcknowledged = true ∨
      ∃ transfer, s.transfer = some transfer ∧
        Acknowledges message transfer.filename transfer.chunkNumber
  | _ => True

/-! ### The latest call -/

theorem latestCall_started (trace : List Action) (filename content : Bytes) :
    latestCall (trace ++ [.started filename content]) = some ⟨filename, content, []⟩ := by
  rw [latestCall, List.foldl_append]
  rfl

theorem latestCall_snoc {trace : List Action} {call : Call} (h : latestCall trace = some call)
    {action : Action} (hstart : ∀ filename content, action ≠ .started filename content) :
    latestCall (trace ++ [action]) = some { call with actions := call.actions ++ [action] } := by
  rw [latestCall, List.foldl_append, ← latestCall, h]
  cases action with
  | started filename content => exact absurd rfl (hstart filename content)
  | _ => rfl

theorem Confirmed.snoc {trace : List Action} {filename : Bytes} {n : Nat}
    (h : Confirmed trace filename n) {action : Action}
    (hstart : ∀ filename content, action ≠ .started filename content) :
    Confirmed (trace ++ [action]) filename n := by
  obtain ⟨content, front, back, hcall, hsent, message, hmem, hack⟩ := h
  refine ⟨content, front, back ++ [action], ?_, hsent, message, List.mem_append_left _ hmem, hack⟩
  rw [latestCall_snoc hcall hstart, List.append_assoc]

theorem AllJustified.snoc {trace : List Action} (h : AllJustified trace) {action : Action}
    (haction : Justified trace action) : AllJustified (trace ++ [action]) := by
  intro before action' after heq
  rcases List.eq_nil_or_concat after with rfl | ⟨after, last, rfl⟩
  · obtain ⟨rfl, hlast⟩ := List.append_inj' heq rfl
    obtain rfl := List.singleton_inj.mp hlast
    exact haction
  · rw [List.concat_eq_append, ← List.cons_append, ← List.append_assoc] at heq
    exact h before action' after (List.append_inj' heq rfl).1

/-! ### The flag -/

/-- The flag is not set. -/
def State.Unset (client : State) : Prop := client.chunkAcknowledged = false

theorem preserves_unset_incomingFile (message : Json) :
    Preserves State.Unset (handleIncomingFile message) :=
  preserves_attempt_bind fun _ _ => preserves_attempt_bind fun _ _ =>
    preserves_modify fun _ h => h

theorem preserves_unset_incomingFileChunk (message : Json) :
    Preserves State.Unset (handleIncomingFileChunk message) := by
  refine preserves_attempt_bind fun filename _ => preserves_attempt_bind fun chunkData _ =>
    preserves_attempt_bind fun chunkNumber _ => preserves_attempt_bind fun isLast _ => ?_
  refine triple_get_bind fun client h => ?_
  cases client.incomingFiles.find? filename with
  | none => exact triple_pure fun s hs => hs ▸ h
  | some path =>
      refine triple_bind (R := fun _ => State.Unset) (triple_modify fun s hs => ?_) fun _ => ?_
      · rw [hs]
        exact h
      · cases isLast with
        | true => exact preserves_modify fun _ h => h
        | false => exact preserves_pure _

theorem preserves_unset_chunkAcknowledgment {message : Json}
    (h : message.member? "status" ≠ some (.string "success")) :
    Preserves State.Unset (handleChunkAcknowledgment message) := by
  refine preserves_attempt_bind fun status hstatus => triple_ite (fun htext => ?_) fun _ => ?_
  · have hread := mapError_eq_ok.mp hstatus
    rw [Json.isText_iff.mp htext] at hread
    exact absurd (Json.at?_eq_ok_iff.mp hread) h
  · exact preserves_attempt_bind fun _ _ => preserves_pure _

/-- Only a success sets the flag. -/
theorem chunkAcknowledged_dispatchMessage (system : Crypto.HybridCryptoSystem) (message : Json)
    (client : State)
    (h : (exec (dispatchMessage system message) client).2.chunkAcknowledged = true) :
    client.chunkAcknowledged = true ∨ IsSuccessAck message := by
  by_contra hnot
  rw [not_or, Bool.not_eq_true] at hnot
  obtain ⟨hunset, hack⟩ := hnot
  have hkeeps : Preserves State.Unset (dispatchMessage system message) := by
    refine preserves_attempt_bind fun type htype => ?_
    refine triple_ite (fun htext => ?_) fun _ => ?_
    · refine preserves_unset_chunkAcknowledgment fun hstatus => hack ⟨?_, hstatus⟩
      refine typeOf_eq_ok_iff.mp ?_
      rw [mapError_eq_ok.mp htype, Json.isText_iff.mp htext]
    refine triple_ite (fun _ => preserves_unset_incomingFile message) fun _ => ?_
    refine triple_ite (fun _ => preserves_unset_incomingFileChunk message) fun _ => ?_
    refine triple_ite (fun _ => preserves_receiveUserPublicKeys message fun _ _ _ h => h)
      fun _ => ?_
    exact triple_ite (fun _ => preserves_receiveAesKey system message fun _ _ _ h => h) fun _ =>
      preserves_pure _
  have hkept : (exec (dispatchMessage system message) client).2.Unset := hkeeps.exec_snd hunset
  rw [hkept] at h
  cases h

/-! ### The loop -/

/-- The call waits for the acknowledgment of a chunk. -/
structure Transfer.Waits (transfer : Transfer) (trace : List Action) : Prop where
  file : transfer.file.AfterChunks transfer.chunkNumber
  sent : ∃ actions chunkData isLast,
    latestCall trace = some ⟨transfer.filename, transfer.file.content, actions⟩ ∧
      .sent transfer.filename transfer.chunkNumber chunkData isLast ∈ actions
  confirmed : ∀ n, 1 ≤ n → n < transfer.chunkNumber → Confirmed trace transfer.filename n

/-- The actions so far are justified, and the flag stands for the chunk that is waited for. -/
structure Sender.Sound (s : Sender) : Prop where
  justified : AllJustified s.trace
  flag : s.client.chunkAcknowledged = true → ∃ transfer, s.transfer = some transfer ∧
    Confirmed s.trace transfer.filename transfer.chunkNumber
  waits : ∀ transfer, s.transfer = some transfer → transfer.Waits s.trace

theorem Transfer.Waits.snoc {transfer : Transfer} {trace : List Action} (h : transfer.Waits trace)
    {action : Action} (hstart : ∀ filename content, action ≠ .started filename content) :
    transfer.Waits (trace ++ [action]) := by
  obtain ⟨actions, chunkData, isLast, hcall, hsent⟩ := h.sent
  exact ⟨h.file, ⟨actions ++ [action], chunkData, isLast, latestCall_snoc hcall hstart,
    List.mem_append_left _ hsent⟩, fun n h1 hn => (h.confirmed n h1 hn).snoc hstart⟩

/-- The loop sends the next chunk, or is completed, when all chunks before are confirmed. -/
theorem sound_sendNext {s : Sender} {transfer : Transfer} {n : Nat}
    (hjustified : AllJustified s.trace) (hflag : s.client.chunkAcknowledged = false)
    (hnumber : transfer.chunkNumber = n + 1) (hfile : transfer.file.AfterChunks n)
    (hcall : ∃ actions,
      latestCall s.trace = some ⟨transfer.filename, transfer.file.content, actions⟩)
    (hconfirmed : ∀ k, 1 ≤ k → k ≤ n → Confirmed s.trace transfer.filename k) :
    (s.sendNext transfer).Sound := by
  obtain ⟨actions, hcall⟩ := hcall
  -- both ways out of the loop: the end of the file, and an empty chunk
  have hcomplete : transfer.file.eof = true ∨ (transfer.file.read chunkSize).1.length = 0 →
      (s.complete transfer).Sound := by
    intro hend
    have hcount := hfile.chunkCount_eq hend
    refine ⟨hjustified.snoc ?_, fun h => ?_, nofun⟩
    · rw [hnumber, Nat.add_sub_cancel]
      exact ⟨⟨_, actions, hcall, hcount.symm⟩, hconfirmed⟩
    · rw [show s.client.chunkAcknowledged = true from h] at hflag
      cases hflag
  rw [Sender.sendNext]
  split
  · exact hcomplete (.inl ‹_›)
  · dsimp only
    split
    · exact hcomplete (.inr ‹_›)
    · rename_i hsome
      split
      · refine ⟨hjustified, fun h => ?_, nofun⟩
        rw [show s.client.chunkAcknowledged = true from h] at hflag
        cases hflag
      · refine ⟨hjustified.snoc ?_, fun h => ?_, ?_⟩
        · intro m h1 hm
          refine hconfirmed m h1 ?_
          omega
        · rw [show s.client.chunkAcknowledged = true from h] at hflag
          cases hflag
        · intro transfer' htransfer
          obtain rfl := Option.some.inj htransfer
          refine ⟨?_, ?_, fun k h1 hk => ?_⟩
          · dsimp only
            rw [hnumber]
            exact hfile.read hsome
          · exact ⟨_, _, _, latestCall_snoc hcall nofun,
              List.mem_append_right _ (List.mem_singleton.mpr rfl)⟩
          · refine (hconfirmed k h1 ?_).snoc nofun
            dsimp only at hk
            omega

/-! ### Steps -/

section Steps

variable (system : Crypto.HybridCryptoSystem) {s : Sender}

theorem Sender.Sound.sendFileChunks (h : s.Sound) (filename : Bytes) (content : Option Bytes) :
    (s.sendFileChunks filename content).Sound := by
  cases content with
  | none => exact h
  | some content =>
      rw [Sender.sendFileChunks]
      cases htransfer : s.transfer with
      | some transfer => exact h
      | none =>
          -- a flag that is set stands for a chunk of a transfer, and there is none
          have hflag : s.client.chunkAcknowledged = false := by
            rw [← Bool.not_eq_true]
            intro hset
            obtain ⟨transfer, htransfer', -⟩ := h.flag hset
            rw [htransfer] at htransfer'
            cases htransfer'
          refine sound_sendNext (h.justified.snoc trivial) hflag rfl
            (FileStream.afterChunks_zero content) ⟨[], latestCall_started _ _ _⟩ fun k h1 hk => ?_
          omega

theorem Sender.Sound.receive (h : s.Sound) {message : Json}
    (hawaited : s.Awaited (.message message)) : (s.receive system message).Sound := by
  have hnext : ∀ client running,
      (client.chunkAcknowledged = true → s.client.chunkAcknowledged = true ∨ IsSuccessAck message) →
      ({ s with client := client, running := running }.act (.received message)).Sound := by
    intro client running hflag
    refine ⟨h.justified.snoc trivial, fun hset => ?_, fun transfer htransfer =>
      (h.waits transfer htransfer).snoc nofun⟩
    -- a success is the one that is waited for, or changes nothing
    have hcases : s.client.chunkAcknowledged = true ∨ ∃ transfer, s.transfer = some transfer ∧
        Acknowledges message transfer.filename transfer.chunkNumber := by
      rcases hflag hset with hold | hack
      · exact .inl hold
      · exact hawaited hack
    rcases hcases with hold | ⟨transfer, htransfer, hack⟩
    · obtain ⟨transfer, htransfer, hconfirmed⟩ := h.flag hold
      exact ⟨transfer, htransfer, hconfirmed.snoc nofun⟩
    · obtain ⟨actions, chunkData, isLast, hcall, hsent⟩ := (h.waits transfer htransfer).sent
      exact ⟨transfer, htransfer, _, actions, [.received message], latestCall_snoc hcall nofun,
        ⟨chunkData, isLast, hsent⟩, message, List.mem_singleton.mpr rfl, hack⟩
  have hflag := chunkAcknowledged_dispatchMessage system message s.client
  rw [Sender.receive]
  rcases hrun : exec (dispatchMessage system message) s.client with ⟨_ | _, client⟩
  · rw [hrun] at hflag
    exact hnext client false hflag
  · rw [hrun] at hflag
    exact hnext client s.running hflag

theorem Sender.Sound.wake (h : s.Sound) : s.wake.Sound := by
  rw [Sender.wake]
  cases htransfer : s.transfer with
  | none => exact h
  | some transfer =>
      dsimp only
      split
      · rename_i hset
        obtain ⟨hfile, ⟨actions, chunkData, isLast, hcall, -⟩, hconfirmed⟩ := h.waits _ htransfer
        refine sound_sendNext h.justified rfl rfl hfile ⟨actions, hcall⟩ fun k h1 hk => ?_
        -- the flag stands for the last of the chunks
        rcases Nat.lt_or_eq_of_le hk with hlt | rfl
        · exact hconfirmed k h1 hlt
        · obtain ⟨transfer', htransfer', hlast⟩ := h.flag hset
          rw [htransfer, Option.some.injEq] at htransfer'
          rw [← htransfer'] at hlast
          exact hlast
      · exact h

theorem Sender.Sound.timeout (h : s.Sound) : s.timeout.Sound := by
  rw [Sender.timeout]
  cases htransfer : s.transfer with
  | none => exact h
  | some transfer =>
      dsimp only
      split
      · exact h
      · rename_i hunset
        exact ⟨h.justified.snoc trivial, fun hset => absurd hset hunset, nofun⟩

theorem Sender.Sound.step (h : s.Sound) {event : SenderEvent} (hawaited : s.Awaited event) :
    (s.step system event).Sound := by
  unfold Sender.step
  split
  · cases event with
    | sendFileChunks filename content => exact h.sendFileChunks filename content
    | message message => exact h.receive system hawaited
    | wake => exact h.wake
    | timeout => exact h.timeout
  · exact h

end Steps

/-- In every run in which a success only arrives for the chunk that is waited for, a chunk is only
sent after the success of the previous one of its file, and a transfer is only reported as
completed after the success of every chunk of its file. -/
theorem justified_of_run {system : Crypto.HybridCryptoSystem} {client : State}
    {history : List (SenderEvent × Sender)} {s : Sender}
    (hrun : Run (Sender.step system) Sender.Awaited (.start client) history s) :
    AllJustified s.trace := by
  refine (hrun.invariant (I := fun _ (s : Sender) => s.Sound) ?_ ?_).justified
  · exact ⟨fun before action after h => by simp [Sender.start] at h, nofun, nofun⟩
  · exact fun _ s event h hawaited => h.step system hawaited

/-! ### An acknowledgment that is late -/

/-- The acknowledgment of a chunk. -/
def acknowledgment (filename : String) (chunkNumber : Int) : Json :=
  .object [("chunk_number", .number chunkNumber), ("filename", .string filename),
    ("status", .string "success"), ("type", .string "chunk_acknowledgment")]

/-- A client without keys. -/
def senderStart : Sender := .start (.withKeys .empty)

/-- The file `a` times out. Its acknowledgment comes after that, and counts for the file `b`. -/
def lateAcknowledgment : List SenderEvent := [
  .sendFileChunks (bytesOf "a") (some (bytesOf "x")), .timeout, .message (acknowledgment "a" 1),
  .sendFileChunks (bytesOf "b") (some (bytesOf "y")), .wake]

/-- What has happened before `b` is reported as completed. -/
def beforeCompletion : List Action := [
  .started (bytesOf "a") (bytesOf "x"), .sent (bytesOf "a") 1 (bytesOf "x") true,
  .timedOut (bytesOf "a") 1, .received (acknowledgment "a" 1),
  .started (bytesOf "b") (bytesOf "y"), .sent (bytesOf "b") 1 (bytesOf "y") true]

/-- The transfer of `b` is reported as completed, and no chunk of it is acknowledged. -/
theorem not_justified_late :
    let s := lateAcknowledgment.foldl (Sender.step (.ofKeys 4 2)) senderStart
    s.trace = beforeCompletion ++ [.completed (bytesOf "b") 1 1] ∧ ¬ AllJustified s.trace := by
  intro s
  have htrace : s.trace = beforeCompletion ++ [.completed (bytesOf "b") 1 1] := rfl
  refine ⟨htrace, fun h => ?_⟩
  obtain ⟨content, front, back, hcall, -, message, hmem, -⟩ :=
    (h beforeCompletion _ [] htrace).2 1 (Nat.le_refl 1) (Nat.le_refl 1)
  have hactions : [Action.sent (bytesOf "b") 1 (bytesOf "y") true] = front ++ back :=
    congrArg Call.actions (Option.some.inj hcall)
  have hreceived := List.mem_append_right front hmem
  rw [← hactions, List.mem_singleton] at hreceived
  cases hreceived

/-- One file, whose chunk is acknowledged in time. -/
theorem justified_in_time :
    AllJustified ([SenderEvent.sendFileChunks (bytesOf "a") (some (bytesOf "x")),
      .message (acknowledgment "a" 1), .wake].foldl (Sender.step (.ofKeys 4 2))
        senderStart).trace := by
  have hawaited : Run.Allowed (Sender.step (.ofKeys 4 2)) Sender.Awaited senderStart
      [.sendFileChunks (bytesOf "a") (some (bytesOf "x")), .message (acknowledgment "a" 1),
        .wake] := by
    refine ⟨trivial, fun hack => .inr ⟨_, rfl, hack, ⟨"a", rfl, rfl⟩, rfl⟩, trivial, trivial⟩
  exact justified_of_run (Run.run_historyOf hawaited)

end Silence.Client
