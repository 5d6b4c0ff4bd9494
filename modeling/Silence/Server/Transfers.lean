import Silence.Server.Attribution

/-!
# Silence.Server.Transfers

To whom a completed file goes.

`handle_file_chunk` finds the receiver by searching the pending transfers for the
name of the file and takes the first match. Transfers stay pending while their
receiver is offline, and nothing keeps a name from being announced again, so the
first match may belong to an older announcement than the upload.
`delivered_announced` proves that this is the only way for it to go wrong.
-/

namespace Silence.Server

open Silence.Lib Silence.Lib.Effect

/-! ### Deliveries -/

/-- A frame of the file is sent to the user. -/
def Observation.Delivers (o : Observation) (userId : Int) (filename : String) : Prop :=
  match o with
  | .wrote _ recipient frame _ => recipient = some userId ∧ CarriesFile frame filename
  | _ => False

/-- The event is a request that announces the transfer. -/
def Event.Announces (parse : JsonParser) (clients : ConnectedClients)
    (transfer : PendingFileTransfer) : Event → Prop
  | .request _ env line => Server.Announces env clients (parse.value line) transfer
  | .disconnect _ => False

/-- A request with a chunk announces nothing. -/
theorem not_brings_of_announces {parse : JsonParser} {clients : ConnectedClients}
    {transfer : PendingFileTransfer} {event : Event} {chunk : Chunk}
    (ha : event.Announces parse clients transfer) : ¬ Brings (event.parsed parse) chunk := by
  intro hb
  cases event with
  | request socket env line => exact absurd (Option.some.inj (ha.type.symm.trans hb.type)) (by simp)
  | disconnect socket => exact ha

/-- A name is announced only while all transfers that are pending for it have the same sender
and receiver. -/
def AnnouncesOnce (parse : JsonParser) (w : World) (event : Event) : Prop :=
  ∀ transfer, event.Announces parse w.connectedClients transfer →
    ∀ pending ∈ w.pendingFileTransfers, pending.filename = transfer.filename → pending = transfer

/-! ### One step -/

/-- What an event does to the pending transfers. -/
inductive PendingChange (parse : JsonParser) (w₀ : World) (event : Event) (w : World) :
    Prop
  | kept (hlog : w.log.filterMap Observation.announcement = [])
      (h : w.pendingFileTransfers = w₀.pendingFileTransfers)
  | announced (transfer : PendingFileTransfer)
      (ha : event.Announces parse w₀.connectedClients transfer)
      (hlog : w.log.filterMap Observation.announcement = [transfer])
      (h : w.pendingFileTransfers = w₀.pendingFileTransfers ++ [transfer])
  | erased (chunk : Chunk) (hb : Brings (event.parsed parse) chunk)
      (hlog : w.log.filterMap Observation.announcement = [])
      (h : w.pendingFileTransfers =
        w₀.pendingFileTransfers.eraseP (·.filename = chunk.filename))

/-- The deliveries and the pending transfers after an event. -/
structure Transferred (parse : JsonParser) (w₀ : World) (event : Event) (w : World) :
    Prop where
  delivers : ∀ o ∈ w.log, ∀ userId filename, o.Delivers userId filename →
    DeliversFile w₀ (event.parsed parse) (some userId) filename
  change : PendingChange parse w₀ event w

theorem announcement_of_makes {env : Environment} {w₀ : World} {requester : Socket}
    {request : Json} {o : Observation} (h : Makes env w₀ requester request o) :
    o.announcement = none := by
  cases o with
  | announced => exact h.elim
  | _ => rfl

theorem delivers_of_makes {env : Environment} {w₀ : World} {requester : Socket}
    {request : Json} {o : Observation} (h : Makes env w₀ requester request o) {userId : Int}
    {filename : String} (hd : o.Delivers userId filename) :
    DeliversFile w₀ request (some userId) filename := by
  cases o with
  | wrote socket recipient frame ok =>
      obtain ⟨rfl, hcarries⟩ := hd
      exact h.2.2.1 filename hcarries
  | _ => exact hd.elim

section Step

variable {parse : JsonParser} {w₀ w w' : World} {event : Event}

/-- Recording something that delivers and announces nothing new. -/
theorem Transferred.append (h : Transferred parse w₀ event w) {o : Observation}
    (hlog : w'.log = w.log ++ [o]) (hnone : o.announcement = none)
    (hd : ∀ userId filename, o.Delivers userId filename →
      DeliversFile w₀ (event.parsed parse) (some userId) filename)
    (hpending : w'.pendingFileTransfers = w.pendingFileTransfers) :
    Transferred parse w₀ event w' := by
  have hfilter : w'.log.filterMap Observation.announcement =
      w.log.filterMap Observation.announcement := by simp [hlog, hnone]
  refine ⟨forall_mem_log hlog h.delivers hd, ?_⟩
  cases h.change with
  | kept hfilter' h => exact .kept (hfilter.trans hfilter') (hpending.trans h)
  | announced transfer ha hfilter' h =>
      exact .announced transfer ha (hfilter.trans hfilter') (hpending.trans h)
  | erased chunk hb hfilter' h =>
      exact .erased chunk hb (hfilter.trans hfilter') (hpending.trans h)

theorem closed_transferred {socket : Socket} {env : Environment} {line : Bytes} :
    Closed env w₀ socket (parse.value line)
      (Transferred parse w₀ (.request socket env line)) := by
  have hfilter : ∀ w, w₀.Grows env socket (parse.value line) w →
      w.log.filterMap Observation.announcement = [] := fun w hw =>
    List.filterMap_eq_nil_iff.mpr fun o ho => announcement_of_makes (hw.log o ho)
  have hgrows : ∀ w, w₀.Grows env socket (parse.value line) w →
      Transferred parse w₀ (.request socket env line) w := fun w hw =>
    ⟨fun o ho userId filename hd => delivers_of_makes (hw.log o ho) hd,
      .kept (hfilter w hw) hw.pendingFileTransfers⟩
  exact {
    unchanged := hgrows
    authorize := fun w userId hw _ =>
      (hgrows w hw).append rfl rfl (fun _ _ hd => hd.elim) rfl
    announce := fun w transfer hw ha => by
      have hlog : (w.announce transfer).log = w.log ++ [.announced transfer] := rfl
      refine ⟨forall_mem_log hlog (hgrows w hw).delivers ?_, .announced transfer ha ?_ ?_⟩
      · intro userId filename hd
        exact hd.elim
      · rw [hlog, List.filterMap_append, hfilter w hw]
        rfl
      · show w.pendingFileTransfers ++ [transfer] = _
        rw [hw.pendingFileTransfers]
    takeChunk := fun w chunk hw _ => by
      rcases takeChunk_log w env chunk with hlog | hlog
      · refine ⟨fun o ho => ?_, .kept ?_ ?_⟩
        · rw [hlog] at ho
          exact (hgrows w hw).delivers o ho
        · rw [hlog, hfilter w hw]
        · rw [takeChunk_pendingFileTransfers, hw.pendingFileTransfers]
      · exact (hgrows w hw).append hlog rfl (fun _ _ hd => hd.elim)
          (takeChunk_pendingFileTransfers w env chunk)
    recordWrite := fun w o hmakes hw =>
      hw.append rfl (announcement_of_makes hmakes) (fun _ _ => delivers_of_makes hmakes) rfl
    eraseTransfer := fun w chunk hb hpending hw => by
      have hfilter' : w.log.filterMap Observation.announcement = [] := by
        cases hw.change with
        | kept hlog _ => exact hlog
        | announced transfer ha _ _ => exact (not_brings_of_announces ha hb).elim
        | erased _ _ hlog _ => exact hlog
      refine ⟨hw.delivers, .erased chunk hb hfilter' ?_⟩
      rw [World.eraseTransfer, hpending] }

theorem transferred_step (parse : JsonParser) (w : World) (event : Event) :
    Transferred parse w.beginRequest event (w.step parse event) := by
  cases event with
  | request socket env line => exact step_request closed_transferred
  | disconnect socket => exact ⟨fun o ho => (List.not_mem_nil ho).elim, .kept rfl rfl⟩

end Step

/-! ### The announcements of a run -/

theorem lastAnnouncement_snoc (filename : String) (history : History) (entry : Event × World) :
    lastAnnouncement filename (history ++ [entry]) =
      ((entry.2.log.filterMap Observation.announcement).reverse.find?
        (·.filename = filename)).or (lastAnnouncement filename history) := by
  simp [lastAnnouncement, List.find?_append]

/-- Every pending transfer is the latest announcement of its name, and every announcement was
made by a request. -/
structure PendingAnnounced (parse : JsonParser) (history : History) (w : World) :
    Prop where
  latest : ∀ transfer ∈ w.pendingFileTransfers,
    lastAnnouncement transfer.filename history = some transfer
  requested : ∀ filename transfer, lastAnnouncement filename history = some transfer →
    ∃ entry ∈ history, ∃ clients, entry.1.Announces parse clients transfer

/-- A step that announces nothing and at most removes pending transfers. -/
theorem PendingAnnounced.shrink {parse : JsonParser} {history : History} {w w' : World}
    {event : Event} (h : PendingAnnounced parse history w)
    (hlog : w'.log.filterMap Observation.announcement = [])
    (hsub : w'.pendingFileTransfers ⊆ w.pendingFileTransfers) :
    PendingAnnounced parse (history ++ [(event, w')]) w' := by
  have hlast : ∀ filename, lastAnnouncement filename (history ++ [(event, w')]) =
      lastAnnouncement filename history := by
    intro filename
    rw [lastAnnouncement_snoc, hlog]
    rfl
  constructor
  · intro transfer ht
    rw [hlast]
    exact h.latest transfer (hsub ht)
  · intro filename transfer ht
    rw [hlast] at ht
    obtain ⟨entry, hentry, hannounces⟩ := h.requested filename transfer ht
    exact ⟨entry, List.mem_append_left _ hentry, hannounces⟩

/-- A step that announces a transfer, when all transfers pending for its name equal it. -/
theorem PendingAnnounced.announce {parse : JsonParser} {history : History}
    {w w' : World} {event : Event} {transfer : PendingFileTransfer} {clients : ConnectedClients}
    (h : PendingAnnounced parse history w) (ha : event.Announces parse clients transfer)
    (honce : ∀ pending ∈ w.pendingFileTransfers, pending.filename = transfer.filename →
      pending = transfer)
    (hlog : w'.log.filterMap Observation.announcement = [transfer])
    (hpending : w'.pendingFileTransfers = w.pendingFileTransfers ++ [transfer]) :
    PendingAnnounced parse (history ++ [(event, w')]) w' := by
  have hself : lastAnnouncement transfer.filename (history ++ [(event, w')]) = some transfer := by
    simp [lastAnnouncement_snoc, hlog]
  have hother : ∀ filename ≠ transfer.filename,
      lastAnnouncement filename (history ++ [(event, w')]) =
        lastAnnouncement filename history := by
    intro filename hne
    simp [lastAnnouncement_snoc, hlog, Ne.symm hne]
  constructor
  · intro pending hmem
    rw [hpending] at hmem
    rcases List.mem_append.mp hmem with hold | hnew
    · by_cases hname : pending.filename = transfer.filename
      · rw [honce pending hold hname]
        exact hself
      · rw [hother _ hname]
        exact h.latest pending hold
    · rw [List.mem_singleton.mp hnew]
      exact hself
  · intro filename transfer' ht
    by_cases hname : filename = transfer.filename
    · rw [hname, hself, Option.some.injEq] at ht
      subst ht
      exact ⟨(event, w'), List.mem_append_right _ List.mem_cons_self, clients, ha⟩
    · rw [hother _ hname] at ht
      obtain ⟨entry, hentry, hannounces⟩ := h.requested filename transfer' ht
      exact ⟨entry, List.mem_append_left _ hentry, hannounces⟩

theorem pendingAnnounced_run {parse : JsonParser} {fileServer : FileServer.State}
    {history : History} {w : World}
    (hrun : Run (World.step parse) (AnnouncesOnce parse) (World.start fileServer) history w) :
    PendingAnnounced parse history w := by
  refine hrun.invariant ⟨by simp [World.start], by simp [lastAnnouncement]⟩ ?_
  intro history w event h hguard
  cases (transferred_step parse w event).change with
  | kept hlog hpending => exact h.shrink hlog (by rw [hpending]; exact fun _ ht => ht)
  | announced transfer ha hlog hpending => exact h.announce ha (hguard transfer ha) hlog hpending
  | erased chunk _ hlog hpending =>
      exact h.shrink hlog (by rw [hpending]; exact List.eraseP_subset)

/-! ### Deliveries of a run -/

/-- Erasing the first match erases what is found. -/
theorem eraseP_eq_erase {α : Type} [DecidableEq α] {p : α → Bool} {l : List α} {a : α}
    (h : l.find? p = some a) : l.eraseP p = l.erase a := by
  induction l with
  | nil => cases h
  | cons b l ih =>
      by_cases hb : p b = true
      · rw [List.find?_cons_of_pos hb, Option.some.injEq] at h
        rw [List.eraseP_cons_of_pos hb, h, List.erase_cons_head]
      · rw [List.find?_cons_of_neg hb] at h
        have hne : b ≠ a := by
          rintro rfl
          exact hb (List.find?_some h)
        rw [List.eraseP_cons_of_neg hb, List.erase_cons_tail (by simpa using hne), ih h]

/-- In every run whose steps meet the condition, with any step after it: if the step sends a
file to a user, this is the receiver that the request which started the upload has named, and no
other pending transfer is removed. -/
theorem delivered_announced {parse : JsonParser} {fileServer : FileServer.State}
    {history : History} {w : World}
    (hrun : Run (World.step parse) (AnnouncesOnce parse) (World.start fileServer) history w)
    {event : Event} {o : Observation} (ho : o ∈ (w.step parse event).log) {userId : Int}
    {filename : String} (hdelivers : o.Delivers userId filename) :
    ∃ transfer, lastAnnouncement filename history = some transfer ∧
      transfer.receiverId = userId ∧
      (∃ entry ∈ history, ∃ clients, entry.1.Announces parse clients transfer) ∧
      ((w.step parse event).pendingFileTransfers = w.pendingFileTransfers ∨
        (w.step parse event).pendingFileTransfers = w.pendingFileTransfers.erase transfer) := by
  have hpending := pendingAnnounced_run hrun
  obtain ⟨hdelivers', hchange⟩ := transferred_step parse w event
  obtain ⟨⟨chunk, hb, rfl⟩, transfer, hfind, huser⟩ := hdelivers' o ho userId filename hdelivers
  obtain rfl : userId = transfer.receiverId := Option.some.inj huser
  have hname : transfer.filename = chunk.filename := by simpa using List.find?_some hfind
  -- the first pending transfer of the name is the latest that was announced
  have hlast := hpending.latest transfer (List.mem_of_find?_eq_some hfind)
  rw [hname] at hlast
  refine ⟨transfer, hlast, rfl, hpending.requested _ _ hlast, ?_⟩
  cases hchange with
  | kept _ h => exact Or.inl h
  | announced transfer' ha _ _ => exact (not_brings_of_announces ha hb).elim
  | erased chunk' hb' _ h =>
      have hsame : chunk'.filename = chunk.filename :=
        Except.ok.inj (hb'.filename.symm.trans hb.filename)
      rw [hsame] at h
      exact Or.inr (h.trans (eraseP_eq_erase hfind))

/-! ### A file that is announced to two users -/

/-- User 1 is called `a`, every other one is user 2; the file consists of one chunk. -/
def twoUsers : Environment :=
  { Environment.working with
    getUserId := fun nickname => if nickname = "a" then 1 else 2
    downloadFileChunks := fun _ => [bytesOf "d"] }

def loginRequest : Json.Members := authorizeRequest "a" 1

/-- The file of user 7 for user 1. -/
def fileForA : Json.Members := fileMessage 7 "a" "0123456789abcdef"

/-- The file of user 7 for user 2. -/
def fileForB : Json.Members := fileMessage 7 "b" "0123456789abcdef"

def lastChunk : Json.Members := fileChunk "0123456789abcdef" "d" 1 true

def parseTwoUsers : JsonParser :=
  parseLines [loginRequest, fileForA, fileForB, lastChunk]

/-- The notification for the receiver. -/
def incomingFile : Observation :=
  .wrote 1 (some 1) [("filename", .string "0123456789abcdef"), ("sender_id", .number 7),
    ("type", .string "incoming_file")] true

set_option maxRecDepth 2000 in
/-- The file is announced to user 1, who is connected, and then to user 2. Its chunk completes
the upload that was started for user 2, but goes to user 1, whose transfer is removed. -/
theorem delivered_elsewhere :
    let events := [loginRequest, fileForA, fileForB].map fun request =>
      Event.request 1 twoUsers (lineOf request)
    let w := events.foldl (World.step parseTwoUsers) (.start .fresh)
    let w' := w.step parseTwoUsers (.request 1 twoUsers (lineOf lastChunk))
    ServerRun parseTwoUsers .fresh (historyFrom parseTwoUsers .fresh events) w ∧
      incomingFile ∈ w'.log ∧ incomingFile.Delivers 1 "0123456789abcdef" ∧
      lastAnnouncement "0123456789abcdef" (historyFrom parseTwoUsers .fresh events) =
        some ⟨"0123456789abcdef", 7, 2⟩ ∧
      w.pendingFileTransfers = [⟨"0123456789abcdef", 7, 1⟩, ⟨"0123456789abcdef", 7, 2⟩] ∧
      w'.pendingFileTransfers = [⟨"0123456789abcdef", 7, 2⟩] := by
  intro events w w'
  refine ⟨serverRun_historyFrom _ _ _, List.mem_of_getElem? (i := 1) rfl,
    ⟨rfl, Or.inl rfl, rfl⟩, rfl, rfl, rfl⟩

set_option maxRecDepth 2000 in
/-- Without the second announcement the file goes where it should. -/
theorem delivered_announced_once :
    let events := [loginRequest, fileForA].map fun request =>
      Event.request 1 twoUsers (lineOf request)
    let w := events.foldl (World.step parseTwoUsers) (.start .fresh)
    let w' := w.step parseTwoUsers (.request 1 twoUsers (lineOf lastChunk))
    let history := historyFrom parseTwoUsers .fresh events
    ∃ transfer, lastAnnouncement "0123456789abcdef" history = some transfer ∧
      transfer.receiverId = 1 ∧
      (∃ entry ∈ history, ∃ clients, entry.1.Announces parseTwoUsers clients transfer) ∧
      (w'.pendingFileTransfers = w.pendingFileTransfers ∨
        w'.pendingFileTransfers = w.pendingFileTransfers.erase transfer) := by
  intro events w w' history
  have hallowed : Run.Allowed (World.step parseTwoUsers) (AnnouncesOnce parseTwoUsers)
      (.start .fresh) events :=
    ⟨fun transfer ha => absurd (Option.some.inj ha.type) (by simp),
      ⟨fun _ _ _ hp => (List.not_mem_nil hp).elim, trivial⟩⟩
  have hsent : incomingFile ∈ w'.log := List.mem_of_getElem? (i := 1) rfl
  exact delivered_announced (Run.run_historyOf hallowed) hsent ⟨rfl, Or.inl rfl, rfl⟩

end Silence.Server
