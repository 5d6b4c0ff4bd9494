import Silence.Basic
import Mathlib.Algebra.GroupWithZero.Nat
import Mathlib.Data.List.Forall2
import Mathlib.Data.List.Infix
import Mathlib.Data.List.TakeWhile

/-!
# Silence.Server.Framing

How the loop of `RequestHandler::handle_request` cuts the bytes of a socket into
request lines.

Boost's `read_until` appends what each read of the socket returns to
`request_buf` until the delimiter is in it. The loop then takes one line with
`std::getline` and consumes the whole buffer, including what the last read
brought in behind the delimiter.
-/

namespace Silence.Server

/-- What one read of the socket inside `read_until` gives. -/
inductive ReadOutcome where
  | segment (bytes : Bytes)
  | eof
  | error
  deriving DecidableEq, Repr

def newline : UInt8 := 0x0A

def carriageReturn : UInt8 := 0x0D

/-- The delimiter `"\r\n\r\n"`. -/
def delimiter : Bytes := [carriageReturn, newline, carriageReturn, newline]

/-- `std::getline` on the buffer: up to the first newline, or to the end. -/
def requestLine (requestBuf : Bytes) : Bytes := requestBuf.takeWhile (· ≠ newline)

/-- The request lines that the loop of `handle_request` processes, in order, from
the outcomes of its reads. `read_until` is waiting with `requestBuf`; the loop
itself starts each iteration with an empty buffer. A read error other than the
end of the stream is logged, and what is in the buffer is processed. -/
def requestLines (requestBuf : Bytes) : List ReadOutcome → List Bytes
  | [] => []
  | .segment bytes :: reads =>
      let requestBuf := requestBuf ++ bytes
      if delimiter <:+: requestBuf then requestLine requestBuf :: requestLines [] reads
      else requestLines requestBuf reads
  | .eof :: _ => []
  | .error :: reads => requestLine requestBuf :: requestLines [] reads

/-! ### The client's frames -/

/-- A request as `Client::async_write` puts it on the socket. -/
def frame (request : Bytes) : Bytes := request ++ delimiter

/-- The byte stream of a sequence of requests. -/
def stream (requests : List Bytes) : Bytes := requests.flatMap frame

/-- The reads of a connection on which the client writes `segments` and then
closes. -/
def reads (segments : List Bytes) : List ReadOutcome := segments.map .segment ++ [.eof]

/-- Every request ends where a segment ends: no read brings in bytes behind a
delimiter. -/
def Aligned (requests segments : List Bytes) : Prop :=
  ∀ rs, rs <+: requests → ∃ ss, ss <+: segments ∧ ss.flatten = stream rs

instance (requests segments : List Bytes) : Decidable (Aligned requests segments) :=
  decidable_of_iff (∀ rs ∈ requests.inits, ∃ ss ∈ segments.inits, ss.flatten = stream rs)
    (by simp [Aligned])

@[simp] theorem stream_nil : stream [] = [] := rfl

@[simp] theorem stream_cons (r : Bytes) (rs : List Bytes) :
    stream (r :: rs) = frame r ++ stream rs := rfl

theorem stream_append (rs ts : List Bytes) : stream (rs ++ ts) = stream rs ++ stream ts :=
  List.flatMap_append

@[simp] theorem length_frame (r : Bytes) : (frame r).length = r.length + 4 := by
  simp [frame, delimiter]

/-! ### Finding the delimiter -/

/-- A delimiter needs two newlines. -/
theorem two_le_count_of_delimiter {x : Bytes} (h : delimiter <:+: x) : 2 ≤ x.count newline :=
  h.sublist.count_le newline

/-- Before its last byte a frame has at most one newline. -/
theorem count_dropLast_frame {r : Bytes} (hr : newline ∉ r) {x : Bytes} (hx : x <+: frame r)
    (hlt : x.length < (frame r).length) : x.count newline ≤ 1 := by
  have hpre : x <+: r ++ [carriageReturn, newline, carriageReturn] := by
    have hsplit : frame r = (r ++ [carriageReturn, newline, carriageReturn]) ++ [newline] := by
      simp [frame, delimiter]
    rw [hsplit] at hx
    rw [length_frame] at hlt
    exact List.prefix_of_prefix_length_le hx (List.prefix_append _ _) (by simp; omega)
  calc x.count newline
      ≤ (r ++ [carriageReturn, newline, carriageReturn]).count newline :=
        hpre.sublist.count_le newline
    _ = 1 := by rw [List.count_append, List.count_eq_zero.mpr hr]; decide

/-- Up to the end of its frame the buffer shows no delimiter. -/
theorem not_delimiter_of_lt {r x tail : Bytes} (hr : newline ∉ r) (hx : x <+: frame r ++ tail)
    (hlt : x.length < (frame r).length) : ¬ delimiter <:+: x := by
  intro h
  have hpre : x <+: frame r :=
    List.prefix_of_prefix_length_le hx (List.prefix_append _ _) hlt.le
  have := count_dropLast_frame hr hpre hlt
  have := two_le_count_of_delimiter h
  omega

/-- A line goes up to the first newline. -/
theorem requestLine_append {x : Bytes} (hx : newline ∉ x) (tail : Bytes) :
    requestLine (x ++ newline :: tail) = x := by
  have hkeep : ∀ b ∈ x, decide (b ≠ newline) = true :=
    fun b hb => decide_eq_true fun heq => hx (heq ▸ hb)
  rw [requestLine, List.takeWhile_append_of_pos hkeep]
  simp

theorem newline_notMem_line {r : Bytes} (hr : newline ∉ r) : newline ∉ r ++ [carriageReturn] := by
  rw [List.mem_append, List.mem_singleton]
  rintro (h | h)
  · exact hr h
  · exact absurd h (by decide)

/-- The line taken from a buffer that starts with a frame. -/
theorem requestLine_frame_append {r : Bytes} (hr : newline ∉ r) (tail : Bytes) :
    requestLine (frame r ++ tail) = r ++ [carriageReturn] := by
  have hsplit : frame r ++ tail =
      (r ++ [carriageReturn]) ++ newline :: ([carriageReturn, newline] ++ tail) := by
    simp [frame, delimiter]
  rw [hsplit, requestLine_append (newline_notMem_line hr)]

/-- A line ends before any newline of the buffer. -/
theorem length_requestLine_append_le (x tail : Bytes) :
    (requestLine (x ++ newline :: tail)).length ≤ x.length := by
  induction x with
  | nil => simp [requestLine]
  | cons b x ih =>
      by_cases hb : b = newline
      · simp [requestLine, hb]
      · simpa [requestLine, hb] using ih

/-- A buffer that is processed is at least three bytes longer than its line. -/
theorem length_requestLine_le {x : Bytes} (h : delimiter <:+: x) :
    (requestLine x).length + 3 ≤ x.length := by
  obtain ⟨front, back, rfl⟩ := h
  have hsplit : front ++ delimiter ++ back =
      (front ++ [carriageReturn]) ++ newline :: ([carriageReturn, newline] ++ back) := by
    simp [delimiter]
  have hline := length_requestLine_append_le (front ++ [carriageReturn])
    ([carriageReturn, newline] ++ back)
  rw [← hsplit] at hline
  simp only [List.length_append, delimiter, List.length_cons, List.length_nil] at hline ⊢
  omega

/-! ### The lines of a connection -/

/-- The lines account for at most the bytes that were read, three more for each
than its length. -/
theorem sum_length_requestLines_le (buf : Bytes) (segments : List Bytes) :
    ((requestLines buf (reads segments)).map fun line => line.length + 3).sum ≤
      buf.length + segments.flatten.length := by
  induction segments generalizing buf with
  | nil => simp [reads, requestLines]
  | cons s segments ih =>
      rw [reads, List.map_cons, List.cons_append, requestLines, ← reads]
      split
      · rename_i hdelim
        have hline := length_requestLine_le hdelim
        have hrest := ih []
        simp only [List.map_cons, List.sum_cons, List.flatten_cons, List.length_append,
          List.length_nil] at hline hrest ⊢
        omega
      · have hrest := ih (buf ++ s)
        simp only [List.flatten_cons, List.length_append] at hrest ⊢
        omega

/-- Once bytes of the stream are lost, the lines cannot be those of all the
requests that were still to come. -/
theorem requestLines_ne_of_lost {lost : Bytes} (hlost : lost ≠ []) {requests segments : List Bytes}
    (h : lost ++ segments.flatten = stream requests) :
    requestLines [] (reads segments) ≠ requests.map (· ++ [carriageReturn]) := by
  intro hlines
  have hstream : ∀ rs : List Bytes,
      ((rs.map (· ++ [carriageReturn])).map fun line => line.length + 3).sum =
        (stream rs).length := by
    intro rs
    induction rs with
    | nil => rfl
    | cons r rs ih => rw [List.map_cons, List.map_cons, List.sum_cons, ih]; simp
  have hsum := sum_length_requestLines_le [] segments
  rw [hlines, hstream, ← h, List.length_append, List.length_nil] at hsum
  have := List.length_pos_iff.mpr hlost
  omega

/-! ### Aligned segments -/

/-- `Aligned` while `buf` holds the beginning of the first request. -/
def AlignedFrom (buf : Bytes) (requests segments : List Bytes) : Prop :=
  ∀ rs, rs ≠ [] → rs <+: requests → ∃ ss, ss <+: segments ∧ buf ++ ss.flatten = stream rs

theorem alignedFrom_nil (buf : Bytes) (segments : List Bytes) : AlignedFrom buf [] segments :=
  fun _ hne hrs => absurd (List.prefix_nil.mp hrs) hne

theorem aligned_iff_alignedFrom (requests segments : List Bytes) :
    Aligned requests segments ↔ AlignedFrom [] requests segments := by
  constructor
  · intro h rs _ hrs
    exact h rs hrs
  · intro h rs hrs
    rcases rs with _ | ⟨r, rs⟩
    · exact ⟨[], List.nil_prefix, rfl⟩
    · exact h _ (by simp) hrs

/-- A segment that does not complete the first request. -/
theorem alignedFrom_cons_of_lt {buf s r : Bytes} {rs segments : List Bytes}
    (hlt : buf.length < (frame r).length) :
    AlignedFrom buf (r :: rs) (s :: segments) ↔ AlignedFrom (buf ++ s) (r :: rs) segments := by
  constructor
  · intro h ts hne hts
    obtain ⟨ss, hss, hflat⟩ := h ts hne hts
    rcases ss with _ | ⟨s', ss⟩
    · -- the request is longer than what is in the buffer
      obtain ⟨t, ts, rfl⟩ := List.exists_cons_of_ne_nil hne
      obtain ⟨rfl, -⟩ := List.cons_prefix_cons.mp hts
      have hlen := congrArg List.length hflat
      simp at hlen hlt
      omega
    · obtain ⟨rfl, htail⟩ := List.cons_prefix_cons.mp hss
      exact ⟨ss, htail, by rw [← hflat]; simp⟩
  · intro h ts hne hts
    obtain ⟨ss, hss, hflat⟩ := h ts hne hts
    exact ⟨s :: ss, List.cons_prefix_cons.mpr ⟨rfl, hss⟩, by rw [← hflat]; simp⟩

/-- A segment that ends with the first request. -/
theorem alignedFrom_cons_of_eq {buf s r : Bytes} {rs segments : List Bytes}
    (hlt : buf.length < (frame r).length) (heq : buf ++ s = frame r) :
    AlignedFrom buf (r :: rs) (s :: segments) ↔ Aligned rs segments := by
  rw [alignedFrom_cons_of_lt hlt, heq]
  constructor
  · intro h ts hts
    obtain ⟨ss, hss, hflat⟩ := h (r :: ts) (by simp) (List.cons_prefix_cons.mpr ⟨rfl, hts⟩)
    exact ⟨ss, hss, List.append_cancel_left hflat⟩
  · intro h ts hne hts
    obtain ⟨t, ts, rfl⟩ := List.exists_cons_of_ne_nil hne
    obtain ⟨rfl, htail⟩ := List.cons_prefix_cons.mp hts
    obtain ⟨ss, hss, hflat⟩ := h ts htail
    exact ⟨ss, hss, by rw [hflat, stream_cons]⟩

/-- A segment that brings in bytes behind the first request. -/
theorem not_alignedFrom_of_extra {buf s r extra : Bytes} {rs segments : List Bytes}
    (hlt : buf.length < (frame r).length) (hextra : extra ≠ [])
    (heq : buf ++ s = frame r ++ extra) :
    ¬ AlignedFrom buf (r :: rs) (s :: segments) := by
  intro h
  obtain ⟨ss, hss, hflat⟩ := (alignedFrom_cons_of_lt hlt).mp h [r] (by simp) (by simp)
  have hlen := congrArg List.length hflat
  have hpos := List.length_pos_iff.mpr hextra
  simp only [heq, stream_cons, stream_nil, List.length_append, List.length_nil] at hlen
  omega

/-- Either the first request is not complete yet, or `extra` is what is read behind it. -/
theorem segment_cases {buf s r : Bytes} {rs segments : List Bytes} (hr : newline ∉ r)
    (hstream : (buf ++ s) ++ segments.flatten = stream (r :: rs)) :
    ((buf ++ s).length < (frame r).length ∧ ¬ delimiter <:+: buf ++ s) ∨
    ∃ extra, buf ++ s = frame r ++ extra ∧ delimiter <:+: buf ++ s ∧
      extra ++ segments.flatten = stream rs := by
  rw [stream_cons] at hstream
  have hstart : buf ++ s <+: frame r ++ stream rs := ⟨_, hstream⟩
  by_cases hlt : (buf ++ s).length < (frame r).length
  · exact .inl ⟨hlt, not_delimiter_of_lt hr hstart hlt⟩
  · obtain ⟨extra, hextra⟩ : frame r <+: buf ++ s :=
      List.prefix_of_prefix_length_le (List.prefix_append _ _) hstart (Nat.le_of_not_lt hlt)
    refine .inr ⟨extra, hextra.symm, ⟨r, extra, by rw [← hextra, frame]⟩, ?_⟩
    rw [← hextra, List.append_assoc] at hstream
    exact List.append_cancel_left hstream

/-- The lines are those of the requests exactly when the segments are aligned.
The induction is on the segments, with the part of the current request that is
in the buffer. -/
theorem requestLines_eq_iff_from {buf : Bytes} {requests segments : List Bytes}
    (hnl : ∀ r ∈ requests, newline ∉ r) (hstream : buf ++ segments.flatten = stream requests)
    (hbuf : ∀ r ∈ requests.head?, buf.length < (frame r).length) :
    requestLines buf (reads segments) = requests.map (· ++ [carriageReturn]) ↔
      AlignedFrom buf requests segments := by
  induction segments generalizing buf requests with
  | nil =>
      rcases requests with _ | ⟨r, rs⟩
      · simp [reads, requestLines, alignedFrom_nil]
      · have hlt := hbuf r (by simp)
        have hlen := congrArg List.length hstream
        simp at hlen hlt
        omega
  | cons s segments ih =>
      rw [reads, List.map_cons, List.cons_append, requestLines, ← reads]
      have hstream' : (buf ++ s) ++ segments.flatten = stream requests := by
        rw [← hstream, List.flatten_cons, List.append_assoc]
      rcases requests with _ | ⟨r, rs⟩
      · -- nothing is left to read
        have hx : buf ++ s = [] := (List.append_eq_nil_iff.mp hstream').1
        have hih := ih hnl hstream' (by simp)
        rw [hx] at hih ⊢
        rw [if_neg (by decide), hih]
        simp [alignedFrom_nil]
      · have hlt := hbuf r (by simp)
        have hr : newline ∉ r := hnl r (by simp)
        rcases segment_cases hr hstream' with ⟨hlt', hnot⟩ | ⟨extra, hextra, hdelim, hrest⟩
        · rw [if_neg hnot, alignedFrom_cons_of_lt hlt]
          exact ih hnl hstream' (by simpa using hlt')
        · rw [if_pos hdelim, hextra, requestLine_frame_append hr, List.map_cons, List.cons.injEq]
          by_cases hnil : extra = []
          · subst hnil
            rw [List.append_nil] at hextra
            rw [alignedFrom_cons_of_eq hlt hextra, aligned_iff_alignedFrom,
              ← ih (fun r' hr' => hnl r' (by simp [hr'])) hrest (by simp)]
            simp
          · have hne := requestLines_ne_of_lost hnil hrest
            have hnot := @not_alignedFrom_of_extra _ _ _ _ rs segments hlt hnil hextra
            exact ⟨fun h => absurd h.2 hne, fun h => absurd h hnot⟩

/-! ### What is left of lost requests -/

/-- Any beginning of the stream is some whole requests and a part of the next. -/
theorem exists_split_of_prefix {x : Bytes} {requests : List Bytes} (h : x <+: stream requests) :
    ∃ front back part, requests = front ++ back ∧ x = stream front ++ part ∧
      ∀ r ∈ back.head?, part.length < (frame r).length := by
  induction requests generalizing x with
  | nil => exact ⟨[], [], x, rfl, rfl, by simp⟩
  | cons r rs ih =>
      by_cases hlt : x.length < (frame r).length
      · exact ⟨[], r :: rs, x, rfl, rfl, by simpa using hlt⟩
      · obtain ⟨y, rfl⟩ : frame r <+: x :=
          List.prefix_of_prefix_length_le (List.prefix_append _ _) h (Nat.le_of_not_lt hlt)
        obtain ⟨front, back, part, rfl, rfl, hpart⟩ := ih ((List.prefix_append_right_inj _).mp h)
        exact ⟨r :: front, back, part, rfl, by simp, hpart⟩

/-- The line taken from the rest of a frame is the end of the request. -/
theorem requestLine_suffix {r q : Bytes} (hr : newline ∉ r) (hq : q <:+ frame r) (hne : q ≠ [])
    (tail : Bytes) : requestLine (q ++ tail) <:+ r ++ [carriageReturn] := by
  have hsplit : frame r =
      (r ++ [carriageReturn]) ++ [newline, carriageReturn, newline] := by
    simp [frame, delimiter]
  rw [hsplit] at hq
  rcases List.suffix_or_suffix_of_suffix hq (List.suffix_append _ _) with hshort | ⟨front, rfl⟩
  · -- only bytes of the delimiter are left
    simp only [List.suffix_cons_iff, List.suffix_nil] at hshort
    rcases hshort with rfl | rfl | rfl | rfl
    · exact List.nil_suffix
    · exact List.suffix_append _ _
    · exact List.nil_suffix
    · exact absurd rfl hne
  · have hfront : front <:+ r ++ [carriageReturn] := List.suffix_append_self_iff.mp hq
    have hnl : newline ∉ front := fun h => newline_notMem_line hr (hfront.mem h)
    rw [List.append_assoc, List.cons_append, requestLine_append hnl]
    exact hfront

/-- Each line is the end of a request, and the requests come in order. -/
def EndsOf (lines requests : List Bytes) : Prop :=
  ∃ chosen, chosen.Sublist requests ∧
    List.Forall₂ (fun line r => line <:+ r ++ [carriageReturn]) lines chosen

/-- However the segments are cut, the lines are ends of the requests. `lost` is
what was consumed of the current request before the buffer started. -/
theorem endsOf_requestLines {lost buf : Bytes} {requests segments : List Bytes}
    (hnl : ∀ r ∈ requests, newline ∉ r)
    (hstream : lost ++ buf ++ segments.flatten = stream requests)
    (hlost : ∀ r ∈ requests.head?, lost.length < (frame r).length) :
    EndsOf (requestLines buf (reads segments)) requests := by
  induction segments generalizing lost buf requests with
  | nil => exact ⟨[], List.nil_sublist _, by simp [reads, requestLines]⟩
  | cons s segments ih =>
      rw [reads, List.map_cons, List.cons_append, requestLines, ← reads]
      have hstream' : lost ++ (buf ++ s) ++ segments.flatten = stream requests := by
        rw [← hstream]
        simp
      by_cases hdelim : delimiter <:+: buf ++ s
      · rw [if_pos hdelim]
        rcases requests with _ | ⟨r, rs⟩
        · have hnil := (List.append_eq_nil_iff.mp (List.append_eq_nil_iff.mp hstream').1).2
          rw [hnil] at hdelim
          exact absurd hdelim (by decide)
        · have hr : newline ∉ r := hnl r (by simp)
          have hlost := hlost r (by simp)
          -- the delimiter in the buffer lies behind the end of the current request
          obtain ⟨extra, hextra, hrest'⟩ : ∃ extra, frame r ++ extra = lost ++ (buf ++ s) ∧
              extra ++ segments.flatten = stream rs := by
            rcases segment_cases hr hstream' with ⟨-, hnot⟩ | ⟨extra, hextra, -, hrest⟩
            · exact absurd (hdelim.trans (List.suffix_append _ _).isInfix) hnot
            · exact ⟨extra, hextra.symm, hrest⟩
          obtain ⟨rest, hrest⟩ : lost <+: frame r :=
            List.prefix_of_prefix_length_le (List.prefix_append _ _) ⟨extra, hextra⟩ hlost.le
          have hne : rest ≠ [] := by
            rintro rfl
            rw [List.append_nil] at hrest
            exact absurd hlost (by rw [hrest]; exact lt_irrefl _)
          have hx : buf ++ s = rest ++ extra := by
            rw [← hrest, List.append_assoc] at hextra
            exact (List.append_cancel_left hextra).symm
          have hline : requestLine (buf ++ s) <:+ r ++ [carriageReturn] := by
            rw [hx]
            exact requestLine_suffix hr ⟨lost, hrest⟩ hne extra
          obtain ⟨front, back, part, rfl, rfl, hpart⟩ := exists_split_of_prefix ⟨_, hrest'⟩
          have hback : part ++ [] ++ segments.flatten = stream back := by
            rw [List.append_nil]
            rw [List.append_assoc, stream_append] at hrest'
            exact List.append_cancel_left hrest'
          obtain ⟨chosen, hsub, hends⟩ := ih (fun r' hr' => hnl r' (by simp [hr'])) hback hpart
          exact ⟨r :: chosen, (hsub.trans (List.sublist_append_right _ _)).cons_cons r,
            List.Forall₂.cons hline hends⟩
      · rw [if_neg hdelim]
        exact ih hnl hstream' hlost

end Silence.Server
