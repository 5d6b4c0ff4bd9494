import Silence.Client.ChunkAcknowledgment
import Silence.Lib.Blocks
import Silence.Server.JsonText

/-!
# Silence.Client.FileChunks

The chunks that one call of `send_file_chunks` sends.

The loop marks a chunk as the last one if the read for it came to the end of the
file. A read that is filled exactly does not, so the last chunk of a file whose
size is a multiple of 512 is not marked. The only other way in which a call with
all its chunks acknowledged goes wrong is a text that `dump` does not take.
-/

namespace Silence.Client

open Silence.Lib Silence.Lib.Effect
open Server (Json dumpedText validUtf8_of_dumpedText exists_dumpedText)

structure SentChunk where
  number : Nat
  data : Bytes
  isLast : Bool
  deriving DecidableEq, Repr

def Action.chunk? : Action → Option SentChunk
  | .sent _ chunkNumber chunkData isLast => some ⟨chunkNumber, chunkData, isLast⟩
  | _ => none

/-- The chunks that were sent, in order. -/
def sentChunks (trace : List Action) : List SentChunk := trace.filterMap Action.chunk?

/-- The chunks are numbered from 1, have a size that is allowed, carry the content, and the final
one and no other is marked as the last one. -/
structure Transmits (content : Bytes) (chunks : List SentChunk) : Prop where
  numbered : chunks.map (·.number) = List.range' 1 chunks.length
  sized : ∀ chunk ∈ chunks, chunk.data ≠ [] ∧ chunk.data.length ≤ chunkSize
  data : (chunks.map (·.data)).flatten = content
  marked : ∃ front final, chunks = front ++ [final] ∧ final.isLast = true ∧
    ∀ chunk ∈ front, chunk.isLast = false

/-! ### The chunks of a file -/

/-- Chunk `i + 1` of a file, as the loop sends it. -/
def chunkOf (content : Bytes) (i : Nat) : SentChunk where
  number := i + 1
  data := (content.drop (chunkSize * i)).take chunkSize
  isLast := decide (content.length < chunkSize * (i + 1))

def firstChunks (content : Bytes) (n : Nat) : List SentChunk := (List.range n).map (chunkOf content)

section Chunks

variable {content : Bytes} {n : Nat}

theorem firstChunks_succ (content : Bytes) (n : Nat) :
    firstChunks content (n + 1) = firstChunks content n ++ [chunkOf content n] := by
  unfold firstChunks
  rw [List.range_succ, List.map_append, List.map_singleton]

theorem length_firstChunks : (firstChunks content n).length = n := by
  unfold firstChunks
  rw [List.length_map, List.length_range]

theorem numbers_firstChunks : (firstChunks content n).map (·.number) = List.range' 1 n := by
  unfold firstChunks
  rw [List.map_map, List.range'_eq_map_range]
  refine List.map_congr_left fun i _ => ?_
  exact Nat.add_comm i 1

theorem take_succ_chunkOf (content : Bytes) (n : Nat) :
    content.take (chunkSize * (n + 1)) =
      content.take (chunkSize * n) ++ (chunkOf content n).data := by
  rw [Nat.mul_succ, List.take_add]
  rfl

theorem data_firstChunks :
    ((firstChunks content n).map (·.data)).flatten = content.take (chunkSize * n) := by
  induction n with
  | zero => simp [firstChunks]
  | succ n ih =>
      rw [firstChunks_succ, List.map_append, List.flatten_append, ih, take_succ_chunkOf]
      simp

/-- A chunk that is not behind the end of the file is not empty. -/
theorem length_chunkOf (h : chunkSize * n < content.length) :
    (chunkOf content n).data ≠ [] ∧ (chunkOf content n).data.length ≤ chunkSize := by
  have hlength : (chunkOf content n).data.length =
      min chunkSize (content.length - chunkSize * n) := by
    rw [chunkOf, List.length_take, List.length_drop]
  have hsize : chunkSize = 512 := rfl
  rw [← List.length_pos_iff]
  omega

/-- The first chunks of a file carry it if they are all of them and the last one is not full. -/
theorem transmits_firstChunks_iff (hcontent : content ≠ []) (hn : n ≤ chunkCount content) :
    Transmits content (firstChunks content n) ↔
      n = chunkCount content ∧ content.length % chunkSize ≠ 0 := by
  have hpos : 0 < content.length := List.length_pos_iff.mpr hcontent
  unfold chunkCount chunkSize at hn
  unfold chunkCount
  constructor
  · intro h
    have hdata := congrArg List.length h.data
    rw [data_firstChunks, List.length_take] at hdata
    unfold chunkSize at hdata
    obtain ⟨m, rfl⟩ : ∃ m, n = m + 1 := ⟨n - 1, by omega⟩
    obtain ⟨front, final, hchunks, hfinal, -⟩ := h.marked
    rw [firstChunks_succ] at hchunks
    obtain rfl := List.singleton_inj.mp (List.append_inj' hchunks rfl).2
    have hlast : content.length < chunkSize * (m + 1) := of_decide_eq_true hfinal
    unfold chunkSize at hlast ⊢
    omega
  · intro h
    unfold chunkSize at h
    obtain ⟨m, rfl⟩ : ∃ m, n = m + 1 := ⟨n - 1, by omega⟩
    refine ⟨?_, ?_, ?_, firstChunks content m, chunkOf content m, firstChunks_succ _ _, ?_, ?_⟩
    · rw [length_firstChunks, numbers_firstChunks]
    · intro chunk hmem
      obtain ⟨i, hi, rfl⟩ := List.mem_map.mp hmem
      have hlt := List.mem_range.mp hi
      refine length_chunkOf ?_
      unfold chunkSize
      omega
    · rw [data_firstChunks, List.take_of_length_le]
      unfold chunkSize
      omega
    · refine decide_eq_true ?_
      unfold chunkSize
      omega
    · intro chunk hmem
      obtain ⟨i, hi, rfl⟩ := List.mem_map.mp hmem
      have hlt := List.mem_range.mp hi
      refine decide_eq_false ?_
      unfold chunkSize
      omega

end Chunks

/-! ### The loop -/

/-- `dump` takes the message with the chunk. -/
def Sendable (filename content : Bytes) (n : Nat) : Prop :=
  ValidUtf8 filename ∧ ValidUtf8 (chunkOf content n).data

theorem fileChunkRequest_ok_iff {filename chunkData : Bytes} {chunkNumber : Nat} {isLast : Bool} :
    (∃ request, fileChunkRequest filename chunkData chunkNumber isLast = .ok request) ↔
      ValidUtf8 filename ∧ ValidUtf8 chunkData := by
  unfold fileChunkRequest
  constructor
  · intro h
    obtain ⟨request, hrequest⟩ := h
    cases hfilename : dumpedText filename with
    | error e => simp [hfilename, bind, Except.bind] at hrequest
    | ok filenameText =>
        cases hdata : dumpedText chunkData with
        | error e => simp [hfilename, hdata, bind, Except.bind] at hrequest
        | ok dataText => exact ⟨validUtf8_of_dumpedText hfilename, validUtf8_of_dumpedText hdata⟩
  · intro h
    obtain ⟨filenameText, hfilename, -⟩ := exists_dumpedText h.1
    obtain ⟨dataText, hdata, -⟩ := exists_dumpedText h.2
    rw [hfilename, hdata]
    exact ⟨_, rfl⟩

/-- What a call has sent since it started in `start`: the first `n` chunks. -/
structure Sent (start : Sender) (filename content : Bytes) (n : Nat) (s : Sender) : Prop where
  trace : ∃ since, s.trace = start.trace ++ since ∧ sentChunks since = firstChunks content n
  sendable : ∀ i < n, Sendable filename content i

/-- The call waits for the acknowledgment of chunk `n`. -/
structure Waiting (start : Sender) (filename content : Bytes) (n : Nat) (s : Sender) : Prop where
  sent : Sent start filename content n s
  transfer : ∃ transfer, s.transfer = some transfer ∧ transfer.filename = filename ∧
    transfer.file.content = content ∧ transfer.chunkNumber = n ∧ transfer.file.AfterChunks n

/-- The call has returned after `n` chunks: they were all, or the next one could not be sent. -/
structure Returned (start : Sender) (filename content : Bytes) (n : Nat) (s : Sender) : Prop where
  sent : Sent start filename content n s
  transfer : s.transfer = none
  reason : n = chunkCount content ∨ n < chunkCount content ∧ ¬ Sendable filename content n

/-- How far a call is. -/
def InCall (start : Sender) (filename content : Bytes) (s : Sender) : Prop :=
  ∃ n, Waiting start filename content n s ∨ Returned start filename content n s

section Call

variable {start s : Sender} {filename content : Bytes} {n : Nat}

/-- Actions that send nothing do not count. -/
theorem Sent.act (h : Sent start filename content n s) {action : Action}
    (hnone : action.chunk? = none) {s' : Sender} (htrace : s'.trace = s.trace ++ [action]) :
    Sent start filename content n s' := by
  obtain ⟨since, hsince, hchunks⟩ := h.trace
  refine ⟨⟨since ++ [action], ?_, ?_⟩, h.sendable⟩
  · rw [htrace, hsince, List.append_assoc]
  · unfold sentChunks at hchunks ⊢
    rw [List.filterMap_append, hchunks, List.filterMap_cons_none hnone, List.filterMap_nil,
      List.append_nil]

/-- The next chunk is sent. -/
theorem Sent.snoc (h : Sent start filename content n s) (hsendable : Sendable filename content n)
    {action : Action} (hchunk : action.chunk? = some (chunkOf content n)) {s' : Sender}
    (htrace : s'.trace = s.trace ++ [action]) : Sent start filename content (n + 1) s' := by
  obtain ⟨since, hsince, hchunks⟩ := h.trace
  refine ⟨⟨since ++ [action], ?_, ?_⟩, ?_⟩
  · rw [htrace, hsince, List.append_assoc]
  · unfold sentChunks at hchunks ⊢
    rw [List.filterMap_append, hchunks, List.filterMap_cons_some hchunk, List.filterMap_nil,
      firstChunks_succ]
  · intro i hi
    rcases Nat.lt_succ_iff_lt_or_eq.mp hi with hlt | rfl
    · exact h.sendable i hlt
    · exact hsendable

/-- The read for chunk `n + 1`. -/
theorem data_read {file : FileStream} (h : file.AfterChunks n) :
    (file.read chunkSize).1 = (chunkOf file.content n).data := by
  show (file.content.drop file.position).take chunkSize =
    (file.content.drop (chunkSize * n)).take chunkSize
  rw [h.position]
  rcases Nat.le_total (chunkSize * n) file.content.length with hle | hge
  · rw [Nat.min_eq_left hle]
  · rw [Nat.min_eq_right hge, List.drop_length, List.drop_of_length_le hge]

theorem isLast_read {file : FileStream} (h : file.AfterChunks n)
    (hsome : (file.read chunkSize).1.length ≠ 0) :
    ((file.read chunkSize).2.eof || decide ((file.read chunkSize).1.length < chunkSize)) =
      (chunkOf file.content n).isLast := by
  have heof := (h.read hsome).eof
  have hdef : (file.read chunkSize).2.eof = decide ((file.read chunkSize).1.length < chunkSize) :=
    rfl
  rw [← hdef, Bool.or_self, heof]
  rfl

/-- From the head of the loop the call comes to the next wait or to its end. -/
theorem sendNext_cases {transfer : Transfer} (hsent : Sent start transfer.filename content n s)
    (hcontent : transfer.file.content = content) (hnumber : transfer.chunkNumber = n + 1)
    (hfile : transfer.file.AfterChunks n) :
    (Waiting start transfer.filename content (n + 1) (s.sendNext transfer) ∧
        (s.sendNext transfer).running = s.running) ∨
      Returned start transfer.filename content n (s.sendNext transfer) := by
  -- both ways out of the loop: the end of the file, and an empty chunk
  have hcomplete : transfer.file.eof = true ∨ (transfer.file.read chunkSize).1.length = 0 →
      Returned start transfer.filename content n (s.complete transfer) := by
    intro hend
    have hcount := hfile.chunkCount_eq hend
    rw [hcontent] at hcount
    exact ⟨hsent.act rfl rfl, rfl, .inl hcount.symm⟩
  unfold Sender.sendNext
  split
  · rename_i heof
    exact .inr (hcomplete (.inl heof))
  · dsimp only
    split
    · rename_i hnone
      exact .inr (hcomplete (.inr hnone))
    · rename_i hsome
      have hdata := data_read hfile
      have hlast := isLast_read hfile hsome
      have hnext := hfile.read hsome
      rw [hcontent] at hdata hlast
      have hrequest := @fileChunkRequest_ok_iff transfer.filename (transfer.file.read chunkSize).1
        transfer.chunkNumber ((transfer.file.read chunkSize).2.eof ||
          decide ((transfer.file.read chunkSize).1.length < chunkSize))
      have hmore : n + 1 ≤ chunkCount content := by
        rcases hnext.nonempty with hzero | hlt
        · omega
        · have hsame : (transfer.file.read chunkSize).2.content = content := hcontent
          rw [hsame, Nat.add_sub_cancel] at hlt
          unfold chunkCount
          unfold chunkSize at hlt ⊢
          omega
      split
      · rename_i e herror
        refine .inr ⟨⟨hsent.trace, hsent.sendable⟩, rfl, .inr ⟨hmore, ?_⟩⟩
        intro hsendable
        unfold Sendable at hsendable
        rw [← hdata] at hsendable
        obtain ⟨request, hok⟩ := hrequest.mpr hsendable
        rw [herror] at hok
        cases hok
      · rename_i request hok
        have hsendable := hrequest.mp ⟨request, hok⟩
        rw [hdata] at hsendable
        have hchunk : (Action.sent transfer.filename transfer.chunkNumber
            (transfer.file.read chunkSize).1 ((transfer.file.read chunkSize).2.eof ||
              decide ((transfer.file.read chunkSize).1.length < chunkSize))).chunk? =
            some (chunkOf content n) := by
          rw [hlast, hdata, hnumber]
          rfl
        exact .inl ⟨⟨hsent.snoc hsendable hchunk rfl, _, rfl, rfl, hcontent, hnumber, hnext⟩, rfl⟩

/-! ### The call -/

/-- What may happen while every chunk is acknowledged in time, and there is one call. -/
def SenderEvent.InTime : SenderEvent → Prop
  | .message _ => True
  | .wake => True
  | _ => False

variable (system : Crypto.HybridCryptoSystem)

/-- The call starts with the first chunk. -/
theorem sendFileChunks_cases (hrunning : start.running = true) (hidle : start.transfer = none) :
    (Waiting start filename content 1
        (start.step system (.sendFileChunks filename (some content))) ∧
      (start.step system (.sendFileChunks filename (some content))).running = true) ∨
    Returned start filename content 0
      (start.step system (.sendFileChunks filename (some content))) := by
  have hstep : start.step system (.sendFileChunks filename (some content)) =
      (start.act (.started filename content)).sendNext ⟨⟨content, 0, false⟩, filename, 1, 0⟩ := by
    unfold Sender.step Sender.sendFileChunks
    rw [if_pos hrunning, hidle]
  have hsent : Sent start filename content 0 (start.act (.started filename content)) :=
    ⟨⟨[.started filename content], rfl, rfl⟩, fun i hi => absurd hi (Nat.not_lt_zero i)⟩
  rw [hstep]
  have hnext := @sendNext_cases _ _ _ _ ⟨⟨content, 0, false⟩, filename, 1, 0⟩ hsent rfl rfl
    (FileStream.afterChunks_zero content)
  rcases hnext with ⟨hwaiting, hsame⟩ | hreturned
  · exact .inl ⟨hwaiting, hsame.trans hrunning⟩
  · exact .inr hreturned

/-- A message only counts for the flag. -/
theorem receive_eq (s : Sender) (message : Json) :
    ∃ client running, s.receive system message =
      { s with client := client, running := running }.act (.received message) := by
  unfold Sender.receive
  rcases exec (dispatchMessage system message) s.client with ⟨_ | _, client⟩
  · exact ⟨client, false, rfl⟩
  · exact ⟨client, s.running, rfl⟩

/-- With the flag set the waiting call goes on. -/
theorem wake_cases (h : Waiting start filename content n s)
    (hset : s.client.chunkAcknowledged = true) :
    (Waiting start filename content (n + 1) s.wake ∧ s.wake.running = s.running) ∨
      Returned start filename content n s.wake := by
  obtain ⟨transfer, htransfer, rfl, hcontent, hnumber, hfile⟩ := h.transfer
  unfold Sender.wake
  rw [htransfer]
  dsimp only
  rw [if_pos hset]
  exact @sendNext_cases _ _ _ _ { transfer with chunkNumber := transfer.chunkNumber + 1 }
    ⟨h.sent.trace, h.sent.sendable⟩ hcontent (congrArg (· + 1) hnumber) hfile

theorem Waiting.receive (h : Waiting start filename content n s) (message : Json) :
    Waiting start filename content n (s.receive system message) := by
  obtain ⟨client, running, heq⟩ := receive_eq system s message
  rw [heq]
  exact ⟨h.sent.act rfl rfl, h.transfer⟩

theorem InCall.step (h : InCall start filename content s) {event : SenderEvent}
    (hevent : event.InTime) : InCall start filename content (s.step system event) := by
  obtain ⟨n, hcall⟩ := h
  unfold Sender.step
  split
  · cases event with
    | message message =>
        rcases hcall with hwaiting | hreturned
        · exact ⟨n, .inl (hwaiting.receive system message)⟩
        · obtain ⟨client, running, heq⟩ := receive_eq system s message
          refine ⟨n, .inr ?_⟩
          dsimp only
          rw [heq]
          exact ⟨hreturned.sent.act rfl rfl, hreturned.transfer, hreturned.reason⟩
    | wake =>
        rcases hcall with hwaiting | hreturned
        · by_cases hset : s.client.chunkAcknowledged = true
          · rcases wake_cases hwaiting hset with ⟨hnext, -⟩ | hreturned
            · exact ⟨n + 1, .inl hnext⟩
            · exact ⟨n, .inr hreturned⟩
          · obtain ⟨transfer, htransfer, -⟩ := hwaiting.transfer
            have hsame : s.wake = s := by
              unfold Sender.wake
              rw [htransfer]
              exact if_neg hset
            refine ⟨n, .inl ?_⟩
            show Waiting start filename content n s.wake
            rw [hsame]
            exact hwaiting
        · have hsame : s.wake = s := by
            unfold Sender.wake
            rw [hreturned.transfer]
          refine ⟨n, .inr ?_⟩
          show Returned start filename content n s.wake
          rw [hsame]
          exact hreturned
    | sendFileChunks filename content => exact absurd hevent id
    | timeout => exact absurd hevent id
  · exact ⟨n, hcall⟩

theorem InCall.foldl (h : InCall start filename content s) {events : List SenderEvent}
    (hevents : ∀ event ∈ events, event.InTime) :
    InCall start filename content (events.foldl (Sender.step system) s) := by
  induction events generalizing s with
  | nil => exact h
  | cons event events ih =>
      obtain ⟨hevent, hevents⟩ := List.forall_mem_cons.mp hevents
      exact ih (h.step system hevent) hevents

theorem Waiting.le (h : Waiting start filename content n s) : n ≤ chunkCount content := by
  obtain ⟨transfer, -, -, rfl, -, hfile⟩ := h.transfer
  have hnonempty := hfile.nonempty
  unfold chunkCount
  unfold chunkSize at hnonempty ⊢
  omega

/-- The acknowledgment of the chunk that is waited for, and the end of the wait. -/
def acknowledging (name : String) (number : Int) : List SenderEvent :=
  [.message (acknowledgment name number), .wake]

theorem Waiting.foldl_acknowledging (h : Waiting start filename content n s)
    (hrunning : s.running = true) (name : String) (number : Int) :
    (Waiting start filename content (n + 1)
        ((acknowledging name number).foldl (Sender.step system) s) ∧
      ((acknowledging name number).foldl (Sender.step system) s).running = true) ∨
    ((acknowledging name number).foldl (Sender.step system) s).transfer = none := by
  have hwaiting := h.receive system (acknowledgment name number)
  have hafter : (s.receive system (acknowledgment name number)).running = true := hrunning
  have hreceive : s.step system (.message (acknowledgment name number)) =
      s.receive system (acknowledgment name number) := if_pos hrunning
  have hsteps : (acknowledging name number).foldl (Sender.step system) s =
      (s.receive system (acknowledgment name number)).wake := by
    show Sender.step system (Sender.step system s _) .wake = _
    rw [hreceive]
    exact if_pos hafter
  rw [hsteps]
  rcases wake_cases hwaiting rfl with ⟨hnext, hsame⟩ | hreturned
  · exact .inl ⟨hnext, hsame.trans hafter⟩
  · exact .inr hreturned.transfer

/-- As long as the chunks are acknowledged the call comes to its end. The induction is on the chunks
that are left. -/
theorem Waiting.exists_returned (h : Waiting start filename content n s)
    (hrunning : s.running = true) (name : String) :
    ∃ events : List SenderEvent, (∀ event ∈ events, event.InTime) ∧
      (events.foldl (Sender.step system) s).transfer = none := by
  have hinTime : ∀ number, ∀ event ∈ acknowledging name number, event.InTime := by
    intro number event hmem
    rcases List.mem_pair.mp hmem with rfl | rfl
    · trivial
    · trivial
  generalize hleft : chunkCount content - n = left
  induction left generalizing n s with
  | zero =>
      rcases h.foldl_acknowledging system hrunning name n with ⟨hnext, -⟩ | hnone
      · have := hnext.le
        omega
      · exact ⟨_, hinTime n, hnone⟩
  | succ left ih =>
      rcases h.foldl_acknowledging system hrunning name n with ⟨hnext, hrunning'⟩ | hnone
      · obtain ⟨events, hevents, hend⟩ := ih hnext hrunning' (by omega)
        refine ⟨acknowledging name n ++ events, ?_, ?_⟩
        · exact List.forall_mem_append.mpr ⟨hinTime n, hevents⟩
        · rw [List.foldl_append]
          exact hend
      · exact ⟨_, hinTime n, hnone⟩

end Call

/-- The call with all that happens until it has returned, without a timeout and without another
call. -/
structure AcknowledgedCall (system : Crypto.HybridCryptoSystem) (start : Sender)
    (filename content : Bytes) (events : List SenderEvent) (s : Sender) : Prop where
  inTime : ∀ event ∈ events, event.InTime
  state : s = events.foldl (Sender.step system)
    (start.step system (.sendFileChunks filename (some content)))
  returned : s.transfer = none

section AcknowledgedCall

variable (system : Crypto.HybridCryptoSystem) {start : Sender} {filename content : Bytes}

/-- A call can always be acknowledged until it returns. -/
theorem exists_acknowledgedCall (hrunning : start.running = true) (hidle : start.transfer = none)
    (filename content : Bytes) :
    ∃ events s, AcknowledgedCall system start filename content events s := by
  rcases @sendFileChunks_cases start filename content system hrunning hidle with
    ⟨hwaiting, hrunning'⟩ | hreturned
  · obtain ⟨events, hevents, hend⟩ := hwaiting.exists_returned system hrunning' ""
    exact ⟨events, _, hevents, rfl, hend⟩
  · exact ⟨[], _, by simp, rfl, hreturned.transfer⟩

variable {system} {events : List SenderEvent} {s : Sender}

theorem AcknowledgedCall.exists_returned
    (hcall : AcknowledgedCall system start filename content events s)
    (hrunning : start.running = true) (hidle : start.transfer = none) :
    ∃ n, Returned start filename content n s := by
  have hinCall : InCall start filename content
      (start.step system (.sendFileChunks filename (some content))) := by
    rcases @sendFileChunks_cases start filename content system hrunning hidle with
      ⟨hwaiting, -⟩ | hreturned
    · exact ⟨1, .inl hwaiting⟩
    · exact ⟨0, .inr hreturned⟩
  obtain ⟨n, hwaiting | hreturned⟩ := hcall.state ▸ hinCall.foldl system hcall.inTime
  · obtain ⟨transfer, htransfer, -⟩ := hwaiting.transfer
    rw [hcall.returned] at htransfer
    cases htransfer
  · exact ⟨n, hreturned⟩

/-- All chunks of a file can be sent if the name and the data of every chunk are valid texts. -/
theorem Returned.all_iff {n : Nat} (h : Returned start filename content n s)
    (hcontent : content ≠ []) :
    n = chunkCount content ↔ ValidUtf8 filename ∧
      ∀ i, ValidUtf8 ((content.drop (chunkSize * i)).take chunkSize) := by
  constructor
  · intro hall
    have hpos : 0 < content.length := List.length_pos_iff.mpr hcontent
    have hcount : chunkCount content * chunkSize ≥ content.length ∧ 0 < chunkCount content := by
      unfold chunkCount chunkSize
      omega
    refine ⟨(h.sent.sendable 0 (by omega)).1, ?_⟩
    intro i
    rcases Nat.lt_or_ge i n with hlt | hge
    · exact (h.sent.sendable i hlt).2
    · -- behind the end of the file
      have hempty : content.drop (chunkSize * i) = [] := by
        refine List.drop_of_length_le (hcount.1.trans ?_)
        rw [Nat.mul_comm]
        exact Nat.mul_le_mul_left chunkSize (by omega)
      rw [hempty, List.take_nil]
      decide
  · intro hvalid
    rcases h.reason with heq | ⟨-, hnot⟩
    · exact heq
    · exact absurd ⟨hvalid.1, hvalid.2 n⟩ hnot

theorem AcknowledgedCall.transmits_iff
    (hcall : AcknowledgedCall system start filename content events s)
    (hrunning : start.running = true) (hidle : start.transfer = none) (hcontent : content ≠ []) :
    Transmits content (sentChunks (s.trace.drop start.trace.length)) ↔
      content.length % chunkSize ≠ 0 ∧ ValidUtf8 filename ∧
        ∀ i, ValidUtf8 ((content.drop (chunkSize * i)).take chunkSize) := by
  obtain ⟨n, hreturned⟩ := hcall.exists_returned hrunning hidle
  obtain ⟨since, hsince, hchunks⟩ := hreturned.sent.trace
  have hle : n ≤ chunkCount content := by
    rcases hreturned.reason with heq | ⟨hlt, -⟩
    · exact heq.le
    · exact hlt.le
  rw [hsince, List.drop_left, hchunks, transmits_firstChunks_iff hcontent hle,
    hreturned.all_iff hcontent, and_comm]

end AcknowledgedCall

/-- A call of `send_file_chunks` can always be acknowledged until it returns. Its chunks then carry
the content and are marked right if and only if the size of the file is not a multiple of 512 and
`dump` takes the messages. -/
theorem fileChunks_transmit_iff (system : Crypto.HybridCryptoSystem) {start : Sender}
    (hrunning : start.running = true) (hidle : start.transfer = none) (filename : Bytes)
    {content : Bytes} (hcontent : content ≠ []) :
    (∃ events s, AcknowledgedCall system start filename content events s) ∧
      ∀ events s, AcknowledgedCall system start filename content events s →
        (Transmits content (sentChunks (s.trace.drop start.trace.length)) ↔
          content.length % chunkSize ≠ 0 ∧ ValidUtf8 filename ∧
            ∀ i, ValidUtf8 ((content.drop (chunkSize * i)).take chunkSize)) :=
  ⟨exists_acknowledgedCall system hrunning hidle filename content,
    fun _ _ hcall => hcall.transmits_iff hrunning hidle hcontent⟩

/-- A file of three chunks. -/
def threeChunks : Bytes := List.replicate 1300 0x78

theorem chunkCount_threeChunks : chunkCount threeChunks = 3 := by
  unfold chunkCount threeChunks
  rw [List.length_replicate]
  rfl

theorem validUtf8_threeChunks (i : Nat) :
    ValidUtf8 ((threeChunks.drop (chunkSize * i)).take chunkSize) := by
  refine validUtf8_of_ascii fun b hb => ?_
  rw [List.eq_of_mem_replicate (List.mem_of_mem_drop (List.mem_of_mem_take hb))]
  decide

/-- Its chunks are acknowledged, and all of them are right. -/
theorem fileChunks_transmit_iff_three :
    let system := Crypto.HybridCryptoSystem.ofKeys 4 2
    chunkCount threeChunks = 3 ∧
      (∃ events s, AcknowledgedCall system senderStart (bytesOf "a") threeChunks events s) ∧
      ∀ events s, AcknowledgedCall system senderStart (bytesOf "a") threeChunks events s →
        Transmits threeChunks (sentChunks (s.trace.drop senderStart.trace.length)) := by
  intro system
  have hcontent : threeChunks ≠ [] := by
    rw [threeChunks, ne_eq, List.replicate_eq_nil_iff]
    decide
  obtain ⟨hexists, hall⟩ := fileChunks_transmit_iff system
    (show senderStart.running = true from rfl) rfl (bytesOf "a") hcontent
  refine ⟨chunkCount_threeChunks, hexists, fun events s hcall => (hall events s hcall).mpr ?_⟩
  refine ⟨?_, validUtf8_bytesOf "a", validUtf8_threeChunks⟩
  rw [threeChunks, List.length_replicate]
  decide

/-- A file of 512 bytes is sent and acknowledged, and its only chunk is not marked as the last
one. -/
theorem fileChunks_notMarked :
    ∃ events s, AcknowledgedCall (.ofKeys 4 2) senderStart (bytesOf "a") (List.replicate 512 0x78)
        events s ∧
      ¬ Transmits (List.replicate 512 0x78)
        (sentChunks (s.trace.drop senderStart.trace.length)) := by
  obtain ⟨events, s, hcall⟩ := exists_acknowledgedCall (.ofKeys 4 2)
    (show senderStart.running = true from rfl) rfl (bytesOf "a") (List.replicate 512 0x78)
  refine ⟨events, s, hcall, ?_⟩
  intro htransmits
  have hcontent : List.replicate 512 (0x78 : UInt8) ≠ [] := by
    rw [ne_eq, List.replicate_eq_nil_iff]
    decide
  have hsize := ((hcall.transmits_iff rfl rfl hcontent).mp htransmits).1
  rw [List.length_replicate] at hsize
  exact absurd rfl hsize

end Silence.Client
