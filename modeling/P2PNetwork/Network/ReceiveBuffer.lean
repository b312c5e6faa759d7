import P2PNetwork.Network.FrameBacklog
import P2PNetwork.Network.VersionLayout

/-!
# The size of the receive buffer

The parser waits for the announced number of bytes before it compares any
length with `MAX_SIZE_PAYLOAD`, and the reader drains one frame a read.  The
buffer stays bounded as long as no header of a frame in the stream announces a
large payload and the reader is never behind for more than one read's bytes.
-/

namespace P2PNetwork.ReceiveBuffer

open P2PNetwork.Backlog
open P2PNetwork.ByteAccess
open P2PNetwork.Endian
open P2PNetwork.EventLoop
open P2PNetwork.Events
open P2PNetwork.FrameBacklog
open P2PNetwork.FrameParser
open P2PNetwork.Framing
open P2PNetwork.TaskRead
open P2PNetwork.TaskWrite
open P2PNetwork.VersionLayout
open P2PNetwork.Wire
open P2PNetwork.WireRoundTrip

/-- Header, largest payload and one read. -/
def bufferBound : ℕ := lenHeaderMessage + maxSizePayload + temporaryBufferSize

/-- The header at the front announces more than the largest payload. -/
def AnnouncesLarge (buffer : Bytes) : Prop :=
  ∃ header : HeaderMessage, ∃ payload,
    buffer = header.serializeHeaderMessage ++ payload ∧
      header.magicBytes = Wire.magicBytes ∧
      maxSizePayload < header.length.toNat

variable (sha256 : Bytes → ByteArr 32)

/-- A header at which a frame begins announces more than the largest payload. -/
def LargeAnnounced (received : Bytes) : Prop :=
  ∃ count, AnnouncesLarge (afterFrames sha256 count received)

/-- Up to this read nothing large is announced, and the reader has kept up at
some moment, with at most the bytes of one read from then on. -/
structure Steady (reads : List Bytes) (read : Bytes) : Prop where
  announced : ¬LargeAnnounced sha256 (reads.flatten ++ read)
  caughtUp : ∃ earlier later, reads = earlier ++ later ∧
    KeepsUp (completeFrames sha256) earlier ∧
    later.flatten.length + read.length ≤ temporaryBufferSize

variable {sha256}

/-! ## Headers -/

section Headers

variable {buffer rest : Bytes}

theorem announcesLarge_header {header : HeaderMessage} (payload : Bytes)
    (hmagic : header.magicBytes = Wire.magicBytes) :
    AnnouncesLarge (header.serializeHeaderMessage ++ payload) ↔
      maxSizePayload < header.length.toNat := by
  constructor
  · rintro ⟨other, rest, heq, -, hlarge⟩
    have hother := @readArray_header_length ErrorParsing .invalidCommand other rest
    rw [← heq, readArray_header_length] at hother
    have hfield := congrArg u32FromLeBytes (Except.ok.inj hother)
    rw [u32FromLeBytes_u32ToLeBytes, u32FromLeBytes_u32ToLeBytes] at hfield
    rwa [hfield]
  · exact fun hlarge => ⟨header, payload, rfl, hmagic, hlarge⟩

/-- A header that has arrived is followed by a part of what follows it later. -/
theorem exists_payload {header : HeaderMessage} {payload : Bytes}
    (heq : buffer ++ rest = header.serializeHeaderMessage ++ payload)
    (hlength : lenHeaderMessage ≤ buffer.length) :
    ∃ front, buffer = header.serializeHeaderMessage ++ front ∧
      payload = front ++ rest := by
  have hheader : header.serializeHeaderMessage <+: buffer := by
    refine List.prefix_of_prefix_length_le ⟨payload, heq.symm⟩ ⟨rest, rfl⟩ ?_
    rwa [HeaderMessage.length_serializeHeaderMessage]
  obtain ⟨front, rfl⟩ := hheader
  rw [List.append_assoc, List.append_cancel_left_eq] at heq
  exact ⟨front, rfl, heq.symm⟩

/-- The header is the same when more bytes have arrived. -/
theorem announcesLarge_append (hlength : lenHeaderMessage ≤ buffer.length) :
    AnnouncesLarge (buffer ++ rest) ↔ AnnouncesLarge buffer := by
  constructor
  · rintro ⟨header, payload, heq, hmagic, hlarge⟩
    obtain ⟨front, hbuffer, -⟩ := exists_payload heq hlength
    exact ⟨header, front, hbuffer, hmagic, hlarge⟩
  · rintro ⟨header, payload, rfl, hmagic, hlarge⟩
    exact ⟨header, payload ++ rest, List.append_assoc _ _ _, hmagic, hlarge⟩

theorem lenHeaderMessage_le_of_large (hlarge : AnnouncesLarge buffer) :
    lenHeaderMessage ≤ buffer.length := by
  obtain ⟨header, payload, rfl, -⟩ := hlarge
  simp [lenHeaderMessage]

/-- What is announced stays announced. -/
theorem LargeAnnounced.append (hlarge : LargeAnnounced sha256 buffer)
    (rest : Bytes) : LargeAnnounced sha256 (buffer ++ rest) := by
  obtain ⟨count, hlarge⟩ := hlarge
  have hheader := lenHeaderMessage_le_of_large hlarge
  obtain hcount | hcount := le_total count (completeFrames sha256 buffer)
  · refine ⟨count, ?_⟩
    rw [afterFrames_append hcount]
    exact (announcesLarge_append hheader).mpr hlarge
  · rw [afterFrames_of_le hcount] at hlarge hheader
    refine ⟨completeFrames sha256 buffer, ?_⟩
    rw [afterFrames_append le_rfl]
    exact (announcesLarge_append hheader).mpr hlarge

end Headers

/-! ## What is awaited -/

section Awaited

variable {buffer rest : Bytes} {message : MessagePayload} {length : ℕ}

/-- A frame that is accepted later is accepted already when a header and the
largest payload have arrived. -/
theorem frameAtFront_of_append
    (hframe : FrameAtFront sha256 (buffer ++ rest) message length)
    (hsmall : ¬AnnouncesLarge (buffer ++ rest))
    (hlong : lenHeaderMessage + maxSizePayload ≤ buffer.length) :
    FrameAtFront sha256 buffer message length := by
  have hheader := (Nat.le_add_right _ _).trans hlong
  cases hframe with
  | @version header payload message length harrived hdecode hsize hchecksum =>
      obtain ⟨heq, hmagic, hcommand, -⟩ := harrived
      have hannounced : header.length.toNat ≤ maxSizePayload := by
        by_contra hannounced
        exact hsmall ⟨header, payload, heq, hmagic, not_le.mp hannounced⟩
      obtain ⟨front, rfl, rfl⟩ := exists_payload heq hheader
      have hfront : maxSizePayload ≤ front.length := by
        rw [List.length_append, HeaderMessage.length_serializeHeaderMessage,
          lenHeaderMessage] at hlong
        omega
      -- The decoder takes at most what has arrived.
      obtain ⟨haddressable, rfl, relay, hbegins⟩ :=
        unserializeVersionMessage_ok_iff.mp hdecode
      have hprefix : beforeRelay message ++ [relay] <+: front := by
        refine List.prefix_of_prefix_length_le hbegins.front ⟨rest, rfl⟩ ?_
        rw [List.length_append, List.length_singleton]
        exact hsize.trans hfront
      exact .version ⟨rfl, hmagic, hcommand, hannounced.trans hfront⟩
        (unserializeVersionMessage_ok_iff.mpr
          ⟨haddressable, rfl, relay, hbegins.flag, hprefix⟩) hsize hchecksum
  | verack heq hmagic hcommand hchecksum =>
      obtain ⟨front, rfl, -⟩ := exists_payload heq hheader
      exact .verack rfl hmagic hcommand hchecksum

/-- Less than a header and the largest payload has arrived of a frame that is
still to be settled. -/
theorem length_lt_of_incomplete (hnone : Incomplete sha256 buffer)
    (hsettles : Settles sha256 (buffer ++ rest))
    (hsmall : ¬AnnouncesLarge (buffer ++ rest)) :
    buffer.length < lenHeaderMessage + maxSizePayload := by
  cases hsettles with
  | @frame message length hframe =>
      by_contra hlong
      exact hnone message length
        (frameAtFront_of_append hframe hsmall (not_lt.mp hlong))
  | @awaited header payload hawaited =>
      obtain ⟨heq, hmagic, -, hshort⟩ := hawaited
      have hannounced : header.length.toNat ≤ maxSizePayload := by
        by_contra hannounced
        exact hsmall ⟨header, payload, heq, hmagic, not_le.mp hannounced⟩
      have hlength := congrArg List.length heq
      rw [List.length_append, List.length_append,
        HeaderMessage.length_serializeHeaderMessage] at hlength
      rw [lenHeaderMessage]
      omega

end Awaited

/-! ## Reads -/

section Reads

variable {reads : List Bytes} {read storageBuffer : Bytes}

theorem largeAnnounced_of_front
    (hlarge : AnnouncesLarge (pending sha256 reads ++ read)) :
    LargeAnnounced sha256 (reads.flatten ++ read) := by
  rw [← pending_append_eq] at hlarge
  exact ⟨_, hlarge⟩

/-- A large header in the buffer is one in the stream. -/
theorem LargeAnnounced.of_pending
    (hlarge : LargeAnnounced sha256 (pending sha256 reads)) :
    LargeAnnounced sha256 reads.flatten := by
  obtain ⟨count, hlarge⟩ := hlarge
  rw [pending, ← afterFrames_add] at hlarge
  exact ⟨_, hlarge⟩

/-- After a steady read the buffer is within the bound. -/
theorem Steady.length_pending_le (hsteady : Steady sha256 reads read)
    (hcalm : Calm sha256 (reads ++ [read])) :
    (pending sha256 (reads ++ [read])).length ≤ bufferBound := by
  obtain ⟨hannounced, earlier, later, rfl, hkeeps, hrecent⟩ := hsteady
  obtain ⟨next, more, hmore⟩ := List.exists_cons_of_ne_nil
    (List.append_ne_nil_of_right_ne_nil later (List.cons_ne_nil read []))
  have hstream : (earlier ++ later).flatten ++ read =
      earlier.flatten ++ next ++ more.flatten := by
    have hflatten := congrArg List.flatten hmore
    rw [List.flatten_append, List.flatten_singleton, List.flatten_cons] at hflatten
    rw [List.flatten_append, List.append_assoc, hflatten, List.append_assoc]
  have hnext : ¬AnnouncesLarge (pending sha256 earlier ++ next) := by
    intro hlarge
    rw [hstream] at hannounced
    exact hannounced ((largeAnnounced_of_front hlarge).append more.flatten)
  rw [List.append_assoc, hmore] at hcalm
  have hshort := length_lt_of_incomplete (incomplete_pending_iff.mpr hkeeps)
    (hcalm earlier next more rfl) hnext
  have hgrown := @length_pending_append_le sha256 earlier (later ++ [read])
  rw [List.flatten_append, List.flatten_singleton, List.length_append] at hgrown
  rw [List.append_assoc, bufferBound]
  omega

theorem incomplete_of_tooLarge (hlarge : TooLarge storageBuffer) :
    Incomplete sha256 storageBuffer := by
  intro message length hframe
  have hparse := rawByteProcessing_some_iff.mpr hframe
  rw [rawByteProcessing_large_iff.mpr hlarge] at hparse
  cases hparse

theorem length_of_tooLarge (hlarge : TooLarge storageBuffer) :
    lenHeaderMessage + maxSizePayload < storageBuffer.length := by
  obtain ⟨harrived, hdecode, hsize⟩ := hlarge
  have hinside := (length_unserializeVersionMessage hdecode).2
  rw [harrived.eq, List.length_append, HeaderMessage.length_serializeHeaderMessage,
    lenHeaderMessage]
  omega

/-- A read that brings the header of a large payload is not refused for it. -/
theorem not_tooLarge_of_announced (hbefore : ¬LargeAnnounced sha256 reads.flatten)
    (hlarge : LargeAnnounced sha256 (reads.flatten ++ read))
    (hbounded : read.length ≤ temporaryBufferSize) :
    ¬TooLarge (pending sha256 reads ++ read) := by
  intro hrefused
  obtain ⟨count, hlarge⟩ := hlarge
  -- A header that was there before announces the same.
  have hnew {front : Bytes} (hlarge : AnnouncesLarge (front ++ read))
      (hfront : ¬AnnouncesLarge front) : front.length < lenHeaderMessage := by
    by_contra hlength
    exact hfront ((announcesLarge_append (not_lt.mp hlength)).mp hlarge)
  obtain hcount | hcount := lt_or_ge count (taken sha256 reads)
  · -- the header of a frame that is taken out
    rw [afterFrames_append (hcount.le.trans taken_le)] at hlarge
    have hshort := hnew hlarge fun hfront => hbefore ⟨count, hfront⟩
    obtain hnone | ⟨message, length, hframe⟩ :=
      @incomplete_or_frame sha256 (afterFrames sha256 count reads.flatten)
    · rw [← completeFrames_eq_zero_iff, completeFrames_afterFrames] at hnone
      have htaken := @taken_le sha256 reads
      omega
    · have hlength := hframe.length_le
      omega
  · -- the header at the front of the buffer
    obtain ⟨more, rfl⟩ := Nat.exists_eq_add_of_le hcount
    rw [afterFrames_add, pending_append_eq,
      afterFrames_of_incomplete (incomplete_of_tooLarge hrefused)] at hlarge
    have hshort := hnew hlarge fun hfront => hbefore ⟨taken sha256 reads, hfront⟩
    have hlong := length_of_tooLarge hrefused
    rw [List.length_append] at hlong
    have hless : temporaryBufferSize < maxSizePayload := by decide
    omega

theorem not_largeAnnounced_nil : ¬LargeAnnounced sha256 [] := by
  rintro ⟨count, hlarge⟩
  have hnone : Incomplete sha256 [] := by
    intro message length hframe
    have hlength := hframe.length_le
    simp [lenHeaderMessage] at hlength
  rw [afterFrames_of_incomplete hnone] at hlarge
  have hlength := lenHeaderMessage_le_of_large hlarge
  simp [lenHeaderMessage] at hlength

end Reads

/-! ## Runs -/

section Runs

variable {labels : List (LoopLabel ReadInput EventsTaskRead Bool)}
  {last : ReadTurn × Account}

variable (sha256) in
/-- The reads of a run are steady. -/
def ReadsSteady (before : ReadTurn × Account) :
    LoopLabel ReadInput EventsTaskRead Bool → Prop
  | .take (.resultRead (.ok read)) => read ≠ [] → Steady sha256 before.2.reads read
  | _ => True

theorem steady_last
    (run : Run (Restrict (LoopStep (startTaskReadTurn sha256) account)
      (ReadsSteady sha256)) (.done [] .next, {}) labels last) :
    ∀ front read, last.2.reads = front ++ [read] → Steady sha256 front read := by
  refine run.invariant (fun reached => ∀ front read,
    reached.2.reads = front ++ [read] → Steady sha256 front read) (by simp) ?_
  rintro before label after hbefore ⟨hcondition, hstep⟩
  cases hstep with
  | @take storageBuffer past input =>
      rcases input with (reason | (_ | ⟨byte, bytes⟩)) | incident
      · exact hbefore
      · exact hbefore
      · intro front read heq
        rw [account_take_read (List.cons_ne_nil byte bytes)] at heq
        obtain ⟨rfl, hread⟩ := List.append_inj' heq rfl
        cases hread
        exact hcondition (List.cons_ne_nil byte bytes)
      · exact hbefore
  | @answer storageBuffer event resume past reply =>
      cases reply <;> exact hbefore

/-- In a run whose reads are all steady the buffer between two reads is within
the bound and holds no header of a large payload, and a further read that brings
one is not refused for it. -/
theorem buffer_bounded_of_steady {storageBuffer : Bytes}
    (run : Run (Restrict (LoopStep (startTaskReadTurn sha256) account)
      (ReadsSteady sha256)) (.done [] .next, {}) labels last)
    (hidle : last.1 = .done storageBuffer .next) :
    storageBuffer.length ≤ bufferBound ∧ ¬LargeAnnounced sha256 storageBuffer ∧
      ∀ read, read ≠ [] → read.length ≤ temporaryBufferSize →
        LargeAnnounced sha256 (last.2.reads.flatten ++ read) →
        startTaskReadTurn sha256 (.resultRead (.ok read)) storageBuffer ≠
          .done (storageBuffer ++ read)
            (.leave (.error (.errorParsing .largePayloadSize))) := by
  have hlast := steady_last run
  obtain ⟨rfl, -, hcalm⟩ := accounted_run run.of_restrict hidle
  obtain ⟨hlength, hsmall⟩ : (pending sha256 last.2.reads).length ≤ bufferBound ∧
      ¬LargeAnnounced sha256 last.2.reads.flatten := by
    obtain hnil | ⟨front, read, hreads⟩ := last.2.reads.eq_nil_or_concat'
    · rw [hnil, pending_nil]
      exact ⟨Nat.zero_le _, not_largeAnnounced_nil⟩
    · have hsteady := hlast front read hreads
      rw [hreads] at hcalm ⊢
      refine ⟨hsteady.length_pending_le hcalm, ?_⟩
      rw [List.flatten_append, List.flatten_singleton]
      exact hsteady.announced
  refine ⟨hlength, fun hlarge => hsmall hlarge.of_pending, ?_⟩
  intro read hread hbounded hannounced hturn
  apply not_tooLarge_of_announced hsmall hannounced hbounded
  obtain ⟨byte, bytes, rfl⟩ := List.exists_cons_of_ne_nil hread
  simp only [startTaskReadTurn] at hturn
  split at hturn
  case h_1 =>
    split at hturn <;> cases hturn
  case h_2 => cases hturn
  case h_3 => cases hturn
  case h_4 reason hparse =>
    cases hturn
    exact rawByteProcessing_large_iff.mp hparse

theorem not_announcesLarge_plainFrame (payload : Bytes) :
    ¬AnnouncesLarge (plainFrame.take 24 ++ payload) := by
  have hheader : plainFrame.take 24 = (createHeaderMessage zeroDigest
      (.version plainVersion)).serializeHeaderMessage := by
    rw [plainFrame, frame_eq, List.take_append_of_le_length (by simp),
      List.take_of_length_le (by simp)]
  rw [hheader, announcesLarge_header payload rfl]
  decide

theorem steady_frameAndHeader : Steady zeroDigest [] frameAndHeader := by
  constructor
  · rintro ⟨_ | count, hlarge⟩
    · rw [afterFrames, List.flatten_nil, List.nil_append, frameAndHeader,
        ← List.take_append_drop 24 plainFrame, List.append_assoc] at hlarge
      exact not_announcesLarge_plainFrame _ hlarge
    · rw [List.flatten_nil, List.nil_append,
        afterFrames_of_frame frameAtFront_frameAndHeader, drop_frameAndHeader,
        afterFrames_of_incomplete incomplete_plainFrame_header] at hlarge
      rw [← List.append_nil (plainFrame.take 24)] at hlarge
      exact not_announcesLarge_plainFrame _ hlarge
  · refine ⟨[], [], rfl, keepsUp_nil, ?_⟩
    rw [length_frameAndHeader]
    decide

/-- A frame and the header of the next one in one steady read: the frame is
delivered, and the header is within the bound. -/
theorem buffer_bounded_frameAndHeader :
    ∃ labels last, Run (Restrict
        (LoopStep (startTaskReadTurn zeroDigest) account)
        (ReadsSteady zeroDigest)) (.done [] .next, {}) labels last ∧
      last.2.reads = [frameAndHeader] ∧
      last.2.delivered = [.version plainVersion] ∧
      (plainFrame.take 24).length ≤ bufferBound ∧
      ¬LargeAnnounced zeroDigest (plainFrame.take 24) := by
  obtain ⟨labels, run⟩ := @frameAndHeader_run (ReadsSteady zeroDigest)
    (fun _ => steady_frameAndHeader) fun _ _ _ => trivial
  obtain ⟨hlength, hsmall, -⟩ := buffer_bounded_of_steady run rfl
  exact ⟨labels, _, run, rfl, rfl, hlength, hsmall⟩

end Runs

/-! ## Two runs -/

/-- A nonempty read behind which the parser waits. -/
theorem loopStep_of_none {sha256 : Bytes → ByteArr 32}
    {storageBuffer read : Bytes} (hread : read ≠ [])
    (hwait : rawByteProcessing sha256 (storageBuffer ++ read) = .ok none) :
    LoopStep (startTaskReadTurn sha256) noHistory
      (.done storageBuffer .next, ()) (.take (.resultRead (.ok read)))
      (.done (storageBuffer ++ read) .next, ()) := by
  rw [← startTaskReadTurn_of_none sha256 hread hwait]
  exact .take _

/-- A version header that announces 2^32 - 1 bytes. -/
def largeHeader : HeaderMessage :=
  HeaderMessage.createHeaderMessage bytesVersion 0xffffffff
    ⟨[0, 0, 0, 0], rfl⟩

def zeros (count : ℕ) : Bytes := List.replicate count 0

theorem rawByteProcessing_largeHeader {sha256 : Bytes → ByteArr 32}
    {arrived : ℕ} (hsize : arrived < 0xffffffff) :
    rawByteProcessing sha256
        (largeHeader.serializeHeaderMessage ++ zeros arrived) = .ok none := by
  rw [rawByteProcessing_version_none_iff rfl rfl, zeros, List.length_replicate]
  exact hsize

/-- The reader waits behind the large header as long as less than announced
has arrived. -/
theorem largeHeader_run (sha256 : Bytes → ByteArr 32) {reads : ℕ}
    (hsize : temporaryBufferSize * reads < 0xffffffff) :
    ∃ labels, Run (LoopStep (startTaskReadTurn sha256) noHistory)
        (.done [] .next, ()) labels
        (.done (largeHeader.serializeHeaderMessage ++
          zeros (temporaryBufferSize * reads)) .next, ()) ∧
      ∀ read, .take (.resultRead (.ok read)) ∈ labels →
        read.length ≤ temporaryBufferSize := by
  induction reads with
  | zero =>
      have hwait := @rawByteProcessing_largeHeader sha256 0 (by decide)
      rw [zeros, List.replicate_zero, List.append_nil] at hwait
      have hstep := @loopStep_of_none sha256 []
        largeHeader.serializeHeaderMessage
        (List.ne_nil_of_length_pos (by simp)) hwait
      refine ⟨_, by simpa [zeros] using (Run.refl _).tail hstep, ?_⟩
      intro read hread
      simp only [List.mem_singleton, LoopLabel.take.injEq,
        ReadInput.resultRead.injEq, Except.ok.injEq] at hread
      rw [hread, HeaderMessage.length_serializeHeaderMessage]
      decide
  | succ reads ih =>
      rw [Nat.mul_succ] at hsize ⊢
      obtain ⟨labels, run, hreads⟩ := ih (by omega)
      have hbuffer : largeHeader.serializeHeaderMessage ++
          zeros (temporaryBufferSize * reads) ++ zeros temporaryBufferSize =
            largeHeader.serializeHeaderMessage ++
              zeros (temporaryBufferSize * reads + temporaryBufferSize) := by
        rw [List.append_assoc, zeros, zeros, zeros,
          List.replicate_append_replicate]
      have hwait := @rawByteProcessing_largeHeader sha256 _ hsize
      rw [← hbuffer] at hwait
      have hnonempty : zeros temporaryBufferSize ≠ [] := by
        rw [zeros, ne_eq, List.replicate_eq_nil_iff]
        decide
      have hstep := loopStep_of_none hnonempty hwait
      rw [hbuffer] at hstep
      refine ⟨_, run.tail hstep, ?_⟩
      intro read hread
      simp only [List.mem_append, List.mem_singleton, LoopLabel.take.injEq,
        ReadInput.resultRead.injEq, Except.ok.injEq] at hread
      obtain hread | rfl := hread
      · exact hreads read hread
      · simp [zeros]

/-- A header that announces 2^32 - 1 bytes, then 1026 full reads: the reader
is between two reads with more in its buffer than the bound, and the header
has not been refused. -/
theorem buffer_unbounded_largeHeader :
    ∃ labels storageBuffer,
      Run (LoopStep (startTaskReadTurn zeroDigest) noHistory)
          (.done [] .next, ()) labels (.done storageBuffer .next, ()) ∧
        (∀ read, .take (.resultRead (.ok read)) ∈ labels →
          read.length ≤ temporaryBufferSize) ∧
        bufferBound < storageBuffer.length ∧
        AnnouncesLarge storageBuffer ∧
        rawByteProcessing zeroDigest storageBuffer = .ok none := by
  have hsize : temporaryBufferSize * 1026 < 0xffffffff := by decide
  obtain ⟨labels, run, hreads⟩ := largeHeader_run zeroDigest hsize
  refine ⟨labels, _, run, hreads, ?_, ?_, rawByteProcessing_largeHeader hsize⟩
  · rw [List.length_append, HeaderMessage.length_serializeHeaderMessage, zeros,
      List.length_replicate]
    decide
  · exact (announcesLarge_header _ rfl).mpr (by decide)

end P2PNetwork.ReceiveBuffer
