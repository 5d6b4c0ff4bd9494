import Silence.System.FileProgress

/-!
# Silence.System.FileUpload

A file is only reported as completed when the file server has all of it.

What the client reports depends on what is on the way between it and the server. `Phase`
says what that can be while it waits for a chunk, and `completed_stored` follows.
-/

namespace Silence.System

open Silence.Lib Silence.Lib.Effect
open Silence.Client (Sender Transfer Action Call latestCall chunkOf chunkSize chunkCount
  fileChunkRequest IsSuccessAck)
open Silence.Server (Json JsonParser World Environment Event Socket Chunk Brings IsAck)

/-! ### What is on its way -/

/-- Where the chunk is that the call waits for. The file server has the file up to this chunk, or up
to the one before; nothing is said of it once the chunk is refused or its answer lost, because
then the call only ends with the timeout. -/
inductive Phase (l : Link) (transfer : Transfer) : Prop
  | sent (n : Nat) (front back : List Json.Members) (request : Json.Members) :
      l.pending = front ++ request :: back → (∀ r ∈ front, NoChunk r) → (∀ r ∈ back, NoChunk r) →
      BringsChunk request transfer.filename transfer.file.content n →
      transfer.chunkNumber = n + 1 → NoSuccess l.frames →
      l.sender.client.chunkAcknowledged = false →
      l.world.fileServer.stored transfer.filename =
        transfer.file.content.take (chunkSize * n) → Phase l transfer
  | acknowledged (front back : List Json.Members) (frame : Json.Members) :
      (∀ r ∈ l.pending, NoChunk r) → l.frames = front ++ frame :: back → NoSuccess front →
      NoSuccess back → IsSuccessAck (.object frame) →
      l.sender.client.chunkAcknowledged = false →
      l.world.fileServer.stored transfer.filename =
        transfer.file.content.take (chunkSize * transfer.chunkNumber) → Phase l transfer
  | confirmed : l.Quiet → l.sender.client.chunkAcknowledged = true →
      l.world.fileServer.stored transfer.filename =
        transfer.file.content.take (chunkSize * transfer.chunkNumber) → Phase l transfer
  | refused : l.Quiet → l.sender.client.chunkAcknowledged = false → Phase l transfer

/-- The invariant: outside of a call nothing is on its way, in a call its chunk is in one of the
phases, and a completed file is stored. -/
structure Link.Consistent (l : Link) : Prop where
  handled : l.handled ≤ l.sender.client.written.length
  idle : l.sender.transfer = none → l.Quiet ∧ l.sender.client.chunkAcknowledged = false
  waits : ∀ transfer, l.sender.transfer = some transfer →
    Ongoing l.sender.trace transfer.filename transfer.file.content ∧
      transfer.file.AfterChunks transfer.chunkNumber ∧ Phase l transfer
  completed : ∀ call, latestCall l.sender.trace = some call → Completed call →
    l.world.fileServer.stored call.filename = call.content

/-! ### Steps of the sender -/

section Sender

variable {l : Link} {s : Sender} {transfer : Transfer}

/-- The loop goes on when nothing is on its way and its chunks so far are stored. -/
theorem consistent_sendNext {n : Nat} (hnumber : transfer.chunkNumber = n + 1)
    (hfile : transfer.file.AfterChunks n)
    (hongoing : Ongoing s.trace transfer.filename transfer.file.content)
    (hhandled : l.handled ≤ s.client.written.length)
    (hpending : ∀ r ∈ s.client.written.drop l.handled, NoChunk r) (hframes : NoSuccess l.frames)
    (hflag : s.client.chunkAcknowledged = false)
    (hstored : l.world.fileServer.stored transfer.filename =
      transfer.file.content.take (chunkSize * n)) :
    { l with sender := s.sendNext transfer }.Consistent := by
  rcases sendNext_cases s hnumber hfile with
    ⟨request, transfer', chunkData, isLast, hrequest, hname, hcontent, hnumber', hfile', heq⟩ |
      ⟨hcount, heq⟩ | ⟨-, heq⟩
  · -- the next chunk is sent
    rw [heq]
    have hongoing' := hongoing.snoc (.sent transfer.filename (n + 1) chunkData isLast) nofun nofun
    refine ⟨?_, nofun, fun transfer₁ htransfer => ?_, fun call hcall hcompleted =>
      absurd hcompleted (hongoing'.not_completed hcall)⟩
    · exact hhandled.trans (by simp [Client.Sender.act, Client.State.asyncWrite])
    · obtain rfl := Option.some.inj htransfer
      rw [hname, hcontent, hnumber']
      refine ⟨hongoing', hfile', .sent n (s.client.written.drop l.handled) [] request
        (List.drop_append_of_le_length hhandled) hpending nofun ?_ hnumber' hframes hflag ?_⟩
      · rw [hname, hcontent]
        exact bringsChunk_of_fileChunkRequest hrequest
      · rw [hname, hcontent]
        exact hstored
  · -- the file is completed
    rw [heq]
    refine ⟨hhandled, fun _ => ⟨⟨hpending, hframes⟩, hflag⟩, nofun, fun call hcall _ => ?_⟩
    obtain ⟨actions, hlatest, -⟩ := hongoing
    have hsnoc := @Client.latestCall_snoc _ _ hlatest (.completed transfer.filename
      transfer.totalBytesSent (transfer.chunkNumber - 1)) nofun
    obtain rfl := Option.some.inj (hsnoc.symm.trans hcall)
    rw [← hcount, take_chunkCount] at hstored
    exact hstored
  · -- the chunk cannot be dumped
    rw [heq]
    exact ⟨hhandled, fun _ => ⟨⟨hpending, hframes⟩, hflag⟩, nofun, fun call hcall hcompleted =>
      absurd hcompleted (hongoing.not_completed hcall)⟩

theorem Link.Consistent.request (h : l.Consistent) {message : Json.Members}
    (hidle : l.sender.transfer = none) (hmessage : NoChunk message) :
    Link.Consistent { l with
      sender := { l.sender with client := l.sender.client.asyncWrite message } } := by
  obtain ⟨hquiet, hflag⟩ := h.idle hidle
  refine ⟨?_, fun _ => ⟨⟨?_, hquiet.frames⟩, hflag⟩, fun transfer htransfer => ?_, h.completed⟩
  · exact h.handled.trans (by simp [Client.State.asyncWrite])
  · show ∀ r ∈ (l.sender.client.written ++ [message]).drop l.handled, NoChunk r
    rw [List.drop_append_of_le_length h.handled]
    exact List.forall_mem_append.mpr ⟨hquiet.pending, List.forall_mem_singleton.mpr hmessage⟩
  · rw [show l.sender.transfer = some transfer from htransfer] at hidle
    cases hidle

theorem Link.Consistent.sendFileChunks (h : l.Consistent) {filename : Bytes}
    (content : Option Bytes) (hfresh : l.world.fileServer.stored filename = []) :
    { l with sender := l.sender.sendFileChunks filename content }.Consistent := by
  cases content with
  | none => exact h
  | some content =>
      unfold Sender.sendFileChunks
      cases hidle : l.sender.transfer with
      | some transfer => exact h
      | none =>
          obtain ⟨hquiet, hflag⟩ := h.idle hidle
          refine consistent_sendNext rfl (Client.FileStream.afterChunks_zero content)
            ⟨[], Client.latestCall_started _ _ _, nofun⟩ h.handled hquiet.pending hquiet.frames
            hflag ?_
          rw [hfresh]
          rfl

theorem Link.Consistent.wake (h : l.Consistent) :
    { l with sender := l.sender.wake }.Consistent := by
  unfold Sender.wake
  cases htransfer : l.sender.transfer with
  | none => exact h
  | some transfer =>
      dsimp only
      split
      · rename_i hset
        obtain ⟨hongoing, hfile, hphase⟩ := h.waits transfer htransfer
        cases hphase with
        | sent _ _ _ _ _ _ _ _ _ _ hflag =>
            rw [hflag] at hset
            cases hset
        | acknowledged _ _ _ _ _ _ _ _ hflag =>
            rw [hflag] at hset
            cases hset
        | refused _ hflag =>
            rw [hflag] at hset
            cases hset
        | confirmed hquiet _ hstored =>
            exact consistent_sendNext rfl hfile hongoing h.handled hquiet.pending hquiet.frames rfl
              hstored
      · exact h

theorem Link.Consistent.timeout (h : l.Consistent) (hquiet : l.Quiet) :
    { l with sender := l.sender.timeout }.Consistent := by
  unfold Sender.timeout
  cases htransfer : l.sender.transfer with
  | none => exact h
  | some transfer =>
      dsimp only
      split
      · exact h
      · rename_i hunset
        obtain ⟨hongoing, -, -⟩ := h.waits transfer htransfer
        have hongoing' :=
          hongoing.snoc (.timedOut transfer.filename transfer.chunkNumber) nofun nofun
        refine ⟨h.handled, fun _ => ⟨⟨hquiet.pending, hquiet.frames⟩, ?_⟩, nofun,
          fun call hcall hcompleted => absurd hcompleted (hongoing'.not_completed hcall)⟩
        exact Bool.eq_false_iff.mpr hunset

/-- A frame is handled. Only a success sets the flag, and then it is the one that is waited
for. -/
theorem Link.Consistent.receive (h : l.Consistent) {frame : Json.Members}
    {frames : List Json.Members} (hframes : l.frames = frame :: frames) {client : Client.State}
    {running : Bool} (hgrew : Grew l.sender.client client)
    (hflag : client.chunkAcknowledged = true →
      l.sender.client.chunkAcknowledged = true ∨ IsSuccessAck (.object frame))
    (hset : IsSuccessAck (.object frame) → client.chunkAcknowledged = true) :
    Link.Consistent { l with
      sender := { l.sender with client := client, running := running }.act
        (.received (.object frame))
      frames := frames } := by
  obtain ⟨more, hmore, hnone⟩ := hgrew.written
  have hpending : client.written.drop l.handled = l.pending ++ more := by
    rw [hmore, List.drop_append_of_le_length h.handled]
    rfl
  have hpending' : (∀ r ∈ l.pending, NoChunk r) → ∀ r ∈ client.written.drop l.handled, NoChunk r :=
    fun hold => hpending ▸ List.forall_mem_append.mpr ⟨hold, hnone⟩
  have hrest : NoSuccess l.frames → NoSuccess frames ∧ ¬ IsSuccessAck (.object frame) := by
    intro hnone
    rw [hframes] at hnone
    exact ⟨fun f hmem => hnone f (List.mem_cons_of_mem _ hmem), hnone frame List.mem_cons_self⟩
  have hunset : NoSuccess l.frames → l.sender.client.chunkAcknowledged = false →
      client.chunkAcknowledged = false := by
    intro hnone hfalse
    refine Bool.eq_false_iff.mpr fun htrue => ?_
    rcases hflag htrue with hold | hack
    · rw [hfalse] at hold
      cases hold
    · exact (hrest hnone).2 hack
  refine ⟨?_, fun hidle => ?_, fun transfer htransfer => ?_, fun call' hcall' hcompleted => ?_⟩
  · refine h.handled.trans ?_
    show _ ≤ client.written.length
    rw [hmore, List.length_append]
    exact Nat.le_add_right _ _
  · obtain ⟨hquiet, hfalse⟩ := h.idle hidle
    exact ⟨⟨hpending' hquiet.pending, (hrest hquiet.frames).1⟩, hunset hquiet.frames hfalse⟩
  · obtain ⟨hongoing, hfile, hphase⟩ := h.waits transfer htransfer
    refine ⟨hongoing.snoc _ nofun nofun, hfile, ?_⟩
    cases hphase with
    | sent n front back request hsent hfront hback hbrings hnumber hno hfalse hstored =>
        refine .sent n front (back ++ more) request ?_ hfront
          (List.forall_mem_append.mpr ⟨hback, hnone⟩) hbrings hnumber (hrest hno).1
          (hunset hno hfalse) hstored
        show client.written.drop l.handled = _
        rw [hpending, hsent, List.append_assoc, List.cons_append]
    | acknowledged front back ack hold hon hfront hback hack hfalse hstored =>
        rw [hframes] at hon
        cases front with
        | nil =>
            -- this is the success that is waited for
            obtain ⟨rfl, rfl⟩ := List.cons.inj hon
            exact .confirmed ⟨hpending' hold, hback⟩ (hset hack) hstored
        | cons frame' front =>
            obtain ⟨rfl, rfl⟩ := List.cons.inj hon
            refine .acknowledged front back ack (hpending' hold) rfl
              (fun f hmem => hfront f (List.mem_cons_of_mem _ hmem)) hback hack ?_ hstored
            refine Bool.eq_false_iff.mpr fun htrue => ?_
            rcases hflag htrue with hold | hack'
            · rw [hfalse] at hold
              cases hold
            · exact hfront frame List.mem_cons_self hack'
    | confirmed hquiet htrue hstored =>
        exact .confirmed ⟨hpending' hquiet.pending, (hrest hquiet.frames).1⟩ (hgrew.flag htrue)
          hstored
    | refused hquiet hfalse =>
        exact .refused ⟨hpending' hquiet.pending, (hrest hquiet.frames).1⟩
          (hunset hquiet.frames hfalse)
  · obtain ⟨call, hcall, hname, hcontent, hcompletes⟩ :=
      exists_call_of_snoc (.received (.object frame)) hcall' nofun nofun
    rw [hname, hcontent]
    exact h.completed call hcall (hcompletes hcompleted)

theorem step_message (system : Crypto.HybridCryptoSystem) (hrunning : s.running = true)
    (message : Json) :
    ∃ running, s.step system (.message message) =
      { s with
        client := (exec (Client.dispatchMessage system message) s.client).2
        running := running }.act (.received message) := by
  unfold Sender.step
  rw [if_pos hrunning]
  dsimp only
  unfold Sender.receive
  rcases exec (Client.dispatchMessage system message) s.client with ⟨_ | _, client⟩
  · exact ⟨false, rfl⟩
  · exact ⟨s.running, rfl⟩

theorem Link.Consistent.deliver (system : Crypto.HybridCryptoSystem) (h : l.Consistent) :
    (l.deliver system).Consistent := by
  unfold Link.deliver
  split
  · exact h
  · rename_i frame frames hframes
    split
    · rename_i hrunning
      have hgrew := grew_dispatchMessage system (.object frame) l.sender.client
      have hflag := Client.chunkAcknowledged_dispatchMessage system (.object frame) l.sender.client
      have hset : IsSuccessAck (.object frame) →
          (exec (Client.dispatchMessage system (.object frame))
            l.sender.client).2.chunkAcknowledged = true := by
        intro hack
        rw [exec_dispatchMessage_success system hack]
      obtain ⟨running, heq⟩ := step_message system hrunning (.object frame)
      rw [heq]
      exact h.receive hframes hgrew hflag hset
    · exact h

end Sender

/-! ### Steps of the server -/

section Serving

variable {parse : JsonParser} {socket : Socket} {l : Link}

theorem noSuccess_append {frames more : List Json.Members} (h : NoSuccess frames)
    (hmore : ∀ frame ∈ more, ¬ IsAck frame) : NoSuccess (frames ++ more) := by
  intro frame hmem
  rcases List.mem_append.mp hmem with hold | hnew
  · exact h frame hold
  · exact fun hack => hmore frame hnew hack.type

/-- Frames that are no acknowledgments, and uploads of other files, change nothing. A request that
is handled was the first one, and no chunk. -/
theorem Link.Consistent.serve (h : l.Consistent) {l' : Link} {more : List Json.Members}
    (hsender : l'.sender = l.sender) (hframes : l'.frames = l.frames ++ more)
    (hmore : ∀ frame ∈ more, ¬ IsAck frame)
    (hhandled : l'.handled = l.handled ∨ ∃ request rest, l'.handled = l.handled + 1 ∧
      l.pending = request :: rest ∧ NoChunk request)
    (hstored : ∀ call, latestCall l.sender.trace = some call →
      l'.world.fileServer.stored call.filename = l.world.fileServer.stored call.filename) :
    l'.Consistent := by
  have hpending : l'.pending = l.pending ∨
      ∃ request, l.pending = request :: l'.pending ∧ NoChunk request := by
    unfold Link.pending
    rw [hsender]
    rcases hhandled with hsame | ⟨request, rest, hnext, hfirst, hnone⟩
    · exact .inl (by rw [hsame])
    · refine .inr ⟨request, ?_, hnone⟩
      unfold Link.pending at hfirst
      rw [hnext, ← List.tail_drop, hfirst]
      rfl
  have hnone : (∀ r ∈ l.pending, NoChunk r) → ∀ r ∈ l'.pending, NoChunk r := by
    intro hold
    rcases hpending with hsame | ⟨request, hfirst, -⟩
    · rwa [hsame]
    · rw [hfirst] at hold
      exact fun r hmem => hold r (List.mem_cons_of_mem _ hmem)
  have hsuccess : NoSuccess l.frames → NoSuccess l'.frames := by
    intro hold
    rw [hframes]
    exact noSuccess_append hold hmore
  have hquiet : l.Quiet → l'.Quiet := fun hold => ⟨hnone hold.pending, hsuccess hold.frames⟩
  refine ⟨?_, ?_, fun transfer htransfer => ?_, fun call hcall hcompleted => ?_⟩
  · rw [hsender]
    rcases hhandled with hsame | ⟨request, rest, hnext, hfirst, -⟩
    · rw [hsame]
      exact h.handled
    · have hlength := congrArg List.length hfirst
      unfold Link.pending at hlength
      rw [List.length_drop, List.length_cons] at hlength
      omega
  · rw [hsender]
    exact fun hidle => ⟨hquiet (h.idle hidle).1, (h.idle hidle).2⟩
  · rw [hsender] at htransfer ⊢
    obtain ⟨hongoing, hfile, hphase⟩ := h.waits transfer htransfer
    refine ⟨hongoing, hfile, ?_⟩
    have hkept : l'.world.fileServer.stored transfer.filename =
        l.world.fileServer.stored transfer.filename := by
      obtain ⟨actions, hlatest, -⟩ := hongoing
      exact hstored _ hlatest
    cases hphase with
    | sent n front back request hsent hfront hback hbrings hnumber hno hfalse hsofar =>
        have hsent' : ∃ front', l'.pending = front' ++ request :: back ∧
            ∀ r ∈ front', NoChunk r := by
          rcases hpending with hsame | ⟨request', hfirst, hother⟩
          · exact ⟨front, by rw [hsame, hsent], hfront⟩
          · rw [hsent] at hfirst
            cases front with
            | nil =>
                -- the request that is handled is not the chunk
                obtain ⟨chunk, hb, -⟩ := hbrings
                obtain ⟨rfl, -⟩ := List.cons.inj hfirst
                exact absurd hb (hother chunk)
            | cons r front =>
                exact ⟨front, (List.cons.inj hfirst).2.symm,
                  fun r' hmem => hfront r' (List.mem_cons_of_mem _ hmem)⟩
        obtain ⟨front', hsent', hfront'⟩ := hsent'
        exact .sent n front' back request hsent' hfront' hback hbrings hnumber (hsuccess hno)
          (by rw [hsender, hfalse]) (hkept.trans hsofar)
    | acknowledged front back ack hold hon hfront hback hack hfalse hsofar =>
        exact .acknowledged front (back ++ more) ack (hnone hold)
          (by rw [hframes, hon, List.append_assoc, List.cons_append]) hfront
          (noSuccess_append hback hmore) hack (by rw [hsender, hfalse]) (hkept.trans hsofar)
    | confirmed hold htrue hsofar =>
        exact .confirmed (hquiet hold) (by rw [hsender, htrue]) (hkept.trans hsofar)
    | refused hold hfalse => exact .refused (hquiet hold) (by rw [hsender, hfalse])
  · rw [hsender] at hcall
    rw [hstored call hcall]
    exact h.completed call hcall hcompleted

/-- A chunk that is handled is the one that is waited for. -/
theorem Link.Consistent.exists_sent (h : l.Consistent) {request : Json.Members}
    {rest : List Json.Members} (hnext : l.pending = request :: rest) {chunk : Chunk}
    (hb : Brings (.object request) chunk) :
    ∃ transfer n, l.sender.transfer = some transfer ∧
      Ongoing l.sender.trace transfer.filename transfer.file.content ∧
      transfer.file.AfterChunks transfer.chunkNumber ∧ (∀ r ∈ rest, NoChunk r) ∧
      bytesOf chunk.filename = transfer.filename ∧
      bytesOf chunk.chunkData = (chunkOf transfer.file.content n).data ∧
      chunk.isLast = (chunkOf transfer.file.content n).isLast ∧
      transfer.chunkNumber = n + 1 ∧ NoSuccess l.frames ∧
      l.sender.client.chunkAcknowledged = false ∧
      l.world.fileServer.stored transfer.filename =
        transfer.file.content.take (chunkSize * n) := by
  have hsome : ¬ ∀ r ∈ l.pending, NoChunk r := by
    intro hnone
    rw [hnext] at hnone
    exact hnone request List.mem_cons_self chunk hb
  cases htransfer : l.sender.transfer with
  | none => exact absurd (h.idle htransfer).1.pending hsome
  | some transfer =>
      obtain ⟨hongoing, hfile, hphase⟩ := h.waits transfer htransfer
      cases hphase with
      | acknowledged _ _ _ hnone => exact absurd hnone hsome
      | confirmed hquiet => exact absurd hquiet.pending hsome
      | refused hquiet => exact absurd hquiet.pending hsome
      | sent n front back request' hsent hfront hback hbrings hnumber hno hfalse hstored =>
          rw [hsent] at hnext
          cases front with
          | nil =>
              obtain ⟨rfl, rfl⟩ := List.cons.inj hnext
              obtain ⟨chunk', hb', hname, hdata, hlast⟩ := hbrings
              obtain rfl := hb'.unique hb
              exact ⟨transfer, n, rfl, hongoing, hfile, hback, hname, hdata, hlast, hnumber, hno,
                hfalse, hstored⟩
          | cons r front =>
              obtain ⟨rfl, -⟩ := List.cons.inj hnext
              exact absurd hb (hfront r List.mem_cons_self chunk)

theorem Link.Consistent.serveChunk (h : l.Consistent) {env : Environment} {line : Bytes}
    {request : Json.Members} {rest : List Json.Members} (hnext : l.pending = request :: rest)
    (hparse : parse line = .ok (.object request)) {chunk : Chunk}
    (hb : Brings (.object request) chunk) (hname : HandledByName env chunk) :
    Link.Consistent { l.serverStep parse socket (.request socket env line) with
      handled := l.handled + 1 } := by
  obtain ⟨transfer, n, htransfer, hongoing, hfile, hrest, hfilename, hdata, -, hnumber, hno,
    hfalse, hstored⟩ := h.exists_sent hnext hb
  have hbrings : Brings (parse.value line) chunk := by rwa [JsonParser.value_of_ok hparse]
  obtain ⟨front, back, hframes, hfront, hback⟩ :=
    @Server.framesTo_step_chunk parse env line l.world chunk hbrings socket
  have hpending : l.sender.client.written.drop (l.handled + 1) = rest := by
    unfold Link.pending at hnext
    rw [← List.tail_drop, hnext]
    rfl
  have hlength : l.handled + 1 ≤ l.sender.client.written.length := by
    have hlength := congrArg List.length hnext
    unfold Link.pending at hlength
    rw [List.length_drop, List.length_cons] at hlength
    omega
  have hfrontNo : NoSuccess (l.frames ++ front) := noSuccess_append hno hfront
  have hall : l.frames ++ (l.world.step parse (.request socket env line)).framesTo socket =
      l.frames ++ front ++ back := by rw [hframes, List.append_assoc]
  refine ⟨hlength, fun hidle => ?_, fun transfer' htransfer' => ?_, fun call hcall hcompleted =>
    absurd hcompleted (hongoing.not_completed hcall)⟩
  · rw [show l.sender.transfer = none from hidle] at htransfer
    cases htransfer
  · obtain rfl := Option.some.inj (htransfer.symm.trans htransfer')
    refine ⟨hongoing, hfile, ?_⟩
    have hrefused : NoSuccess back → Phase { l.serverStep parse socket (.request socket env line)
        with handled := l.handled + 1 } transfer := by
      intro hbackNo
      refine .refused ⟨?_, ?_⟩ hfalse
      · show ∀ r ∈ l.sender.client.written.drop (l.handled + 1), NoChunk r
        rwa [hpending]
      · show NoSuccess (l.frames ++ _)
        rw [hall]
        exact List.forall_mem_append.mpr ⟨hfrontNo, hbackNo⟩
    rcases hback with rfl | rfl
    · exact hrefused nofun
    · have hstatus := @Server.lookup_status_chunkAnswer l.world.beginRequest env chunk
      by_cases haccepts : l.world.beginRequest.Accepts env chunk
      · -- the chunk is stored and its success is on the way
        refine .acknowledged (l.frames ++ front) [] _ ?_ hall hfrontNo nofun
          ⟨Server.isAck_chunkAnswer _ _ _, hstatus.mpr haccepts⟩ hfalse ?_
        · show ∀ r ∈ l.sender.client.written.drop (l.handled + 1), NoChunk r
          rwa [hpending]
        · have happended := stored_handleChunk haccepts hname
          show (l.world.step parse (.request socket env line)).fileServer.stored _ = _
          rw [Server.step_chunk hbrings socket, hnumber, Client.take_succ_chunkOf, ← hstored,
            ← hfilename, ← hdata]
          exact happended
      · refine hrefused ?_
        intro frame hmem
        rw [List.mem_singleton.mp hmem]
        exact fun hack => haccepts (hstatus.mp hack.status)

end Serving

/-! ### Every run -/

/-- Each event keeps the invariant if it meets the condition. -/
theorem Link.Consistent.step {parse : JsonParser} {system : Crypto.HybridCryptoSystem}
    {socket : Socket} {l : Link} (h : l.Consistent) {event : LinkEvent}
    (hguard : l.Guard parse socket event) : (l.step parse system socket event).Consistent := by
  have hrunning : ∀ {s : Sender}, { l with sender := s }.Consistent →
      { l with sender := if l.sender.running then s else l.sender }.Consistent := by
    intro s hs
    split
    · exact hs
    · exact h
  cases event with
  | request message => exact h.request hguard.2.1 hguard.2.2
  | sendFileChunks filename content => exact hrunning (h.sendFileChunks content hguard)
  | wake => exact hrunning h.wake
  | timeout => exact hrunning (h.timeout hguard)
  | deliver => exact h.deliver system
  | other event =>
      obtain ⟨hother, hleaves⟩ := hguard
      exact h.serve rfl rfl (fun frame hmem => Server.not_isAck_of_other hother hmem) (.inl rfl)
        fun call hcall => stored_step (hleaves call hcall)
  | serve env line =>
      obtain ⟨request, rest, hnext, hparse, hname⟩ := hguard
      by_cases hchunk : ∃ chunk, Brings (.object request) chunk
      · obtain ⟨chunk, hb⟩ := hchunk
        exact h.serveChunk hnext hparse hb (hname chunk hb)
      · have hnone : ∀ chunk, ¬ Brings (parse.value line) chunk := by
          rw [JsonParser.value_of_ok hparse]
          exact not_exists.mp hchunk
        refine h.serve rfl rfl (fun frame hmem => ?_)
          (.inr ⟨request, rest, rfl, hnext, not_exists.mp hchunk⟩) fun call _ => ?_
        · have hordinary : (l.world.step parse (.request socket env line)).Wrote
              Server.IsOrdinary := Server.ordinary_step hnone
          exact (hordinary.mem_framesTo hmem).1
        · exact stored_step fun chunk hb => absurd hb (hnone chunk)

end Silence.System
