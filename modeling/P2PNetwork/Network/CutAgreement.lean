import P2PNetwork.Network.FrameBacklog

/-!
# Two cuts of one stream

What the reader does on a cut of a stream into reads, up to the end of file: it
delivers the frames that one a read takes out, and it ends with the end of file
unless a read ends where the parser refuses the bytes or slices outside them.
Two cuts agree exactly when these are the same.
-/

namespace P2PNetwork.CutAgreement

open P2PNetwork.Backlog
open P2PNetwork.ByteAccess
open P2PNetwork.Events
open P2PNetwork.FrameBacklog
open P2PNetwork.FrameParser
open P2PNetwork.Framing
open P2PNetwork.Handler
open P2PNetwork.Segmentation
open P2PNetwork.TaskRead
open P2PNetwork.Wire

variable {sha256 : Bytes → ByteArr 32}

/-! ## One read -/

section Reads

variable {storageBuffer read : Bytes}

theorem startTaskRead_of_front {message : MessagePayload} {length : ℕ}
    (following : List (Except IoError Bytes)) (hnonempty : read ≠ [])
    (hframe : FrameAtFront sha256 (storageBuffer ++ read) message length) :
    startTaskRead sha256 storageBuffer (.ok read :: following) =
      (.lowRawMessage message ::
          (startTaskRead sha256 ((storageBuffer ++ read).drop
            (lenHeaderMessage + length)) following).1,
        (startTaskRead sha256 ((storageBuffer ++ read).drop
          (lenHeaderMessage + length)) following).2) := by
  have hturn := startTaskReadTurn_of_some sha256 hnonempty
    (rawByteProcessing_some_iff.mpr hframe) hframe.length_le rfl
  simp only [startTaskRead, hturn, Await.runWith_issue, if_true,
    Await.runWith_done, List.cons_append, List.nil_append]

theorem startTaskRead_of_refused {reason : ErrorParsing}
    (following : List (Except IoError Bytes)) (hnonempty : read ≠ [])
    (hparse : rawByteProcessing sha256 (storageBuffer ++ read) = fail reason) :
    startTaskRead sha256 storageBuffer (.ok read :: following) =
      ([], some (.returned (.error (.errorParsing reason)))) := by
  obtain ⟨byte, bytes, rfl⟩ := List.exists_cons_of_ne_nil hnonempty
  simp [startTaskRead, startTaskReadTurn, hparse, fail]

theorem startTaskRead_of_panic (following : List (Except IoError Bytes))
    (hnonempty : read ≠ [])
    (hparse : rawByteProcessing sha256 (storageBuffer ++ read) = .error .panic) :
    startTaskRead sha256 storageBuffer (.ok read :: following) =
      ([], some .panicked) := by
  obtain ⟨byte, bytes, rfl⟩ := List.exists_cons_of_ne_nil hnonempty
  simp [startTaskRead, startTaskReadTurn, hparse]

end Reads

/-! ## One cut -/

/-- A read ends where the parser refuses what stands behind the frames taken
out, `count` of them; the reads before it are calm. -/
inductive Refused (sha256 : Bytes → ByteArr 32) (reads : List Bytes) (count : ℕ)
    (reason : ErrorParsing) : Prop where
  | intro {front : List Bytes} {read : Bytes} {rest : List Bytes}
      (heq : reads = front ++ read :: rest) (hcalm : Calm sha256 front)
      (hcount : taken sha256 front = count)
      (hparse : rawByteProcessing sha256 (pending sha256 front ++ read) =
        fail reason)

/-- A read ends where the parser slices outside what stands behind the frames
taken out; the reads before it are calm. -/
inductive Overruns (sha256 : Bytes → ByteArr 32) (reads : List Bytes) : Prop where
  | intro {front : List Bytes} {read : Bytes} {rest : List Bytes}
      (heq : reads = front ++ read :: rest) (hcalm : Calm sha256 front)
      (hparse : rawByteProcessing sha256 (pending sha256 front ++ read) =
        .error .panic)

/-- What becomes of a cut. -/
inductive CutResult (sha256 : Bytes → ByteArr 32) (reads : List Bytes) : Prop where
  | calm (hcalm : Calm sha256 reads)
  | refused {count : ℕ} {reason : ErrorParsing}
      (hrefused : Refused sha256 reads count reason)
  | overruns (hoverruns : Overruns sha256 reads)

theorem cutResult (reads : List Bytes) : CutResult sha256 reads := by
  induction reads using List.reverseRecOn with
  | nil => exact .calm calm_nil
  | append_singleton reads read ih =>
      cases ih with
      | refused hrefused =>
          obtain ⟨rfl, hcalm, hcount, hparse⟩ := hrefused
          exact .refused ⟨List.append_assoc _ _ _, hcalm, hcount, hparse⟩
      | overruns hoverruns =>
          obtain ⟨rfl, hcalm, hparse⟩ := hoverruns
          exact .overruns ⟨List.append_assoc _ _ _, hcalm, hparse⟩
      | calm hcalm =>
          cases hparse : rawByteProcessing sha256 (pending sha256 reads ++ read) with
          | error fault =>
              cases fault with
              | panic => exact .overruns ⟨rfl, hcalm, hparse⟩
              | error reason => exact .refused ⟨rfl, hcalm, rfl, hparse⟩
          | ok result =>
              refine .calm (calm_append.mpr ⟨hcalm, ?_⟩)
              rcases result with _ | ⟨message, length⟩
              · obtain ⟨header, payload, hawaited⟩ :=
                  rawByteProcessing_none_iff.mp hparse
                exact .awaited hawaited
              · exact .frame (rawByteProcessing_some_iff.mp hparse)

/-- Calm reads deliver the messages that one a read takes out. -/
theorem startTaskRead_calm {front reads : List Bytes}
    (hnonempty : ∀ read ∈ reads, read ≠ []) (hcalm : Calm sha256 (front ++ reads))
    (following : List (Except IoError Bytes)) :
    ∃ messages, takenMessages sha256 (front ++ reads) =
        takenMessages sha256 front ++ messages ∧
      startTaskRead sha256 (pending sha256 front) (reads.map .ok ++ following) =
        (messages.map .lowRawMessage ++ (startTaskRead sha256
            (pending sha256 (front ++ reads)) following).1,
          (startTaskRead sha256 (pending sha256 (front ++ reads)) following).2) := by
  induction reads generalizing front with
  | nil => exact ⟨[], by simp, by simp⟩
  | cons read reads ih =>
      have hread := hnonempty read List.mem_cons_self
      have hsettles := hcalm front read reads rfl
      have hlater := fun other hother =>
        hnonempty other (List.mem_cons_of_mem read hother)
      rw [← List.singleton_append, ← List.append_assoc] at hcalm
      obtain ⟨messages, hmessages, hrun⟩ := ih hlater hcalm
      rw [List.append_assoc, List.singleton_append] at hmessages hrun
      rw [List.map_cons, List.cons_append]
      cases hsettles with
      | @frame message length hframe =>
          rw [takenMessages_append_of_frame hframe] at hmessages
          rw [pending_append_of_frame hframe] at hrun
          refine ⟨message :: messages, by rw [hmessages]; simp, ?_⟩
          rw [startTaskRead_of_front _ hread hframe, hrun]
          rfl
      | @awaited header payload hawaited =>
          have hnone := @incomplete_of_awaited sha256 _ _ _ hawaited
          rw [takenMessages_append_of_incomplete hnone] at hmessages
          rw [pending_append_of_incomplete hnone] at hrun
          refine ⟨messages, hmessages, ?_⟩
          rw [startTaskRead_of_none sha256 _ hread
            (rawByteProcessing_none_iff.mpr ⟨header, payload, hawaited⟩), hrun]

theorem startTaskRead_front {reads : List Bytes}
    (hnonempty : ∀ read ∈ reads, read ≠ []) (hcalm : Calm sha256 reads)
    (following : List (Except IoError Bytes)) :
    startTaskRead sha256 [] (reads.map .ok ++ following) =
      ((takenMessages sha256 reads).map .lowRawMessage ++
          (startTaskRead sha256 (pending sha256 reads) following).1,
        (startTaskRead sha256 (pending sha256 reads) following).2) := by
  obtain ⟨messages, hmessages, hrun⟩ :=
    @startTaskRead_calm sha256 [] reads hnonempty hcalm following
  rw [takenMessages_nil, List.nil_append, List.nil_append] at hmessages
  rw [pending_nil, List.nil_append, ← hmessages] at hrun
  exact hrun

section Cuts

variable {stream : Bytes} {segments left right : Segments stream}

theorem readToEnd_of_calm (hcalm : Calm sha256 segments.reads) :
    readToEnd sha256 segments =
      (((decodeFrames sha256 stream).1.take
          (taken sha256 segments.reads)).map .lowRawMessage,
        some (.returned (.ok .successfulEOF))) := by
  have hend (storageBuffer : Bytes) :
      startTaskRead sha256 storageBuffer [.ok []] =
        ([], some (.returned (.ok .successfulEOF))) := by
    simp [startTaskRead, startTaskReadTurn]
  rw [readToEnd, startTaskRead_front segments.nonempty hcalm, hend, takenMessages,
    segments.flatten_reads, List.append_nil]

/-- The reads up to one that does not settle, and that one. -/
theorem readToEnd_of_front {front rest : List Bytes} {read : Bytes}
    {result : TaskEnd ResultTaskRead}
    (heq : segments.reads = front ++ read :: rest) (hcalm : Calm sha256 front)
    (hlast : ∀ following, startTaskRead sha256 (pending sha256 front)
      (.ok read :: following) = ([], some result)) :
    readToEnd sha256 segments =
      (((decodeFrames sha256 stream).1.take (taken sha256 front)).map .lowRawMessage,
        some result) := by
  have hnonempty : ∀ other ∈ front, other ≠ [] := fun other hother =>
    segments.nonempty other (by rw [heq]; exact List.mem_append_left _ hother)
  have hstream : stream = front.flatten ++ (read :: rest).flatten := by
    rw [← List.flatten_append, ← heq, segments.flatten_reads]
  have hmessages : (decodeFrames sha256 stream).1.take (taken sha256 front) =
      takenMessages sha256 front := by
    rw [hstream, decodeFrames_pending, List.take_left' length_takenMessages]
  rw [readToEnd, heq, List.map_append, List.append_assoc,
    startTaskRead_front hnonempty hcalm, List.map_cons, List.cons_append, hlast,
    hmessages, List.append_nil]

theorem readToEnd_of_refused {count : ℕ} {reason : ErrorParsing}
    (hrefused : Refused sha256 segments.reads count reason) :
    count ≤ completeFrames sha256 stream ∧
      readToEnd sha256 segments =
        (((decodeFrames sha256 stream).1.take count).map .lowRawMessage,
          some (.returned (.error (.errorParsing reason)))) := by
  obtain ⟨heq, hcalm, rfl, hparse⟩ := hrefused
  rename_i front read rest
  have hread : read ≠ [] := segments.nonempty read (by rw [heq]; simp)
  constructor
  · rw [← segments.flatten_reads, heq, List.flatten_append]
    exact taken_le.trans (completeFrames_mono _ _)
  · exact readToEnd_of_front heq hcalm fun following =>
      startTaskRead_of_refused following hread hparse

theorem readToEnd_of_overruns (hoverruns : Overruns sha256 segments.reads) :
    (readToEnd sha256 segments).2 = some .panicked := by
  obtain ⟨heq, hcalm, hparse⟩ := hoverruns
  rename_i front read rest
  have hread : read ≠ [] := segments.nonempty read (by rw [heq]; simp)
  rw [readToEnd_of_front heq hcalm fun following =>
    startTaskRead_of_panic following hread hparse]

theorem taken_add_backlog (segments : Segments stream) :
    taken sha256 segments.reads + backlog (completeFrames sha256) segments.reads =
      completeFrames sha256 stream := by
  have hle := @backlog_le_count _ (completeFrames sha256) segments.reads
  rw [segments.flatten_reads] at hle
  rw [taken, segments.flatten_reads]
  omega

/-- The messages that are delivered tell how many frames have been taken out. -/
theorem eq_of_messages_eq {first second : ℕ}
    (hfirst : first ≤ completeFrames sha256 stream)
    (hsecond : second ≤ completeFrames sha256 stream)
    (heq : ((decodeFrames sha256 stream).1.take first).map
        EventsTaskRead.lowRawMessage =
      ((decodeFrames sha256 stream).1.take second).map .lowRawMessage) :
    first = second := by
  have hlength := congrArg List.length heq
  rw [completeFrames] at hfirst hsecond
  simpa [min_eq_left hfirst, min_eq_left hsecond] using hlength

/-- Calm cuts agree when they leave equally many frames behind. -/
theorem agree_of_calm (hleft : Calm sha256 left.reads)
    (hright : Calm sha256 right.reads)
    (hbacklog : backlog (completeFrames sha256) left.reads =
      backlog (completeFrames sha256) right.reads) :
    Agree sha256 left right := by
  have htaken : taken sha256 left.reads = taken sha256 right.reads := by
    have hleftTotal := @taken_add_backlog sha256 stream left
    have hrightTotal := @taken_add_backlog sha256 stream right
    omega
  rw [Agree, readToEnd_of_calm hleft, readToEnd_of_calm hright, htaken]
  simp

/-- Calm cuts that keep up with the frames agree. -/
theorem agree_of_keepsUp (hleft : Calm sha256 left.reads)
    (hright : Calm sha256 right.reads)
    (hleftKeeps : KeepsUp (completeFrames sha256) left.reads)
    (hrightKeeps : KeepsUp (completeFrames sha256) right.reads) :
    Agree sha256 left right := by
  apply agree_of_calm hleft hright
  rw [backlog_eq_zero_iff.mpr hleftKeeps, backlog_eq_zero_iff.mpr hrightKeeps]

end Cuts

/-! ## Two cuts -/

/-- Two cuts of a stream give the same messages and the same result, without a
panic, exactly when every read of both settles what stands behind the frames
taken out and equally many frames are left behind, or when a read of both ends
where the parser refuses, for the same reason, what stands behind the same number
of frames. -/
theorem agree_iff {stream : Bytes} (left right : Segments stream) :
    Agree sha256 left right ↔
      Calm sha256 left.reads ∧ Calm sha256 right.reads ∧
          backlog (completeFrames sha256) left.reads =
            backlog (completeFrames sha256) right.reads ∨
        ∃ count reason, Refused sha256 left.reads count reason ∧
          Refused sha256 right.reads count reason := by
  have hleftTotal := @taken_add_backlog sha256 stream left
  have hrightTotal := @taken_add_backlog sha256 stream right
  constructor
  · rintro ⟨hsame, hleft, hright⟩
    cases cutResult left.reads with
    | overruns hoverruns => exact absurd (readToEnd_of_overruns hoverruns) hleft
    | calm hcalm =>
        rw [readToEnd_of_calm hcalm] at hsame
        cases cutResult right.reads with
        | overruns hoverruns =>
            exact absurd (readToEnd_of_overruns hoverruns) hright
        | calm hcalm' =>
            rw [readToEnd_of_calm hcalm', Prod.mk.injEq] at hsame
            have htaken := eq_of_messages_eq (by omega) (by omega) hsame.1
            exact .inl ⟨hcalm, hcalm', by omega⟩
        | refused hrefused =>
            rw [(readToEnd_of_refused hrefused).2] at hsame
            simp at hsame
    | @refused count reason hrefused =>
        obtain ⟨hcount, hrun⟩ := readToEnd_of_refused hrefused
        rw [hrun] at hsame
        cases cutResult right.reads with
        | overruns hoverruns =>
            exact absurd (readToEnd_of_overruns hoverruns) hright
        | calm hcalm =>
            rw [readToEnd_of_calm hcalm] at hsame
            simp at hsame
        | refused hrefused' =>
            obtain ⟨hcount', hrun'⟩ := readToEnd_of_refused hrefused'
            rw [hrun', Prod.mk.injEq] at hsame
            obtain rfl := eq_of_messages_eq hcount hcount' hsame.1
            cases hsame.2
            exact .inr ⟨count, reason, hrefused, hrefused'⟩
  · rintro (⟨hleft, hright, hbacklog⟩ | ⟨count, reason, hleft, hright⟩)
    · exact agree_of_calm hleft hright hbacklog
    · rw [Agree, (readToEnd_of_refused hleft).2, (readToEnd_of_refused hright).2]
      simp

/-! ## A frame cut behind its header -/

/-- The frame of `plainVersion`, its header in a read of its own. -/
def plainSplit : Segments plainFrame where
  reads := [plainFrame.take 24, plainFrame.drop 24]
  nonempty := by
    intro read hread
    have hlength := length_plainFrame
    obtain rfl | rfl := List.mem_pair.mp hread
    · exact rawByteProcessing_plainFrame_header.1.nonempty
    · exact List.ne_nil_of_length_pos (by rw [List.length_drop]; omega)
  bounded := by
    intro read hread
    have hlength := length_plainFrame
    have hsize : 117 ≤ temporaryBufferSize := by decide
    obtain rfl | rfl := List.mem_pair.mp hread
    · rw [List.length_take]
      omega
    · rw [List.length_drop]
      omega
  flatten_reads := by simp

theorem frameAtFront_plainFrame :
    FrameAtFront zeroDigest plainFrame (.version plainVersion) 93 := by
  have hparse := rawByteProcessing_version_frame zeroDigest plainVersion []
    (sendable_plainVersion plainVersion rfl)
  rw [List.append_nil] at hparse
  exact rawByteProcessing_some_iff.mp hparse

/-- Whole or cut behind its header, the frame is read alike. -/
theorem agree_plainSplit : Agree zeroDigest plainWhole plainSplit := by
  obtain ⟨header, payload, hawaited⟩ :=
    rawByteProcessing_none_iff.mp rawByteProcessing_plainFrame_header.2
  have hpending : pending zeroDigest [plainFrame.take 24] = plainFrame.take 24 := by
    have hnone := @incomplete_of_awaited zeroDigest _ _ _ hawaited
    have hfirst := @pending_append_of_incomplete zeroDigest [] (plainFrame.take 24)
    rw [pending_nil, List.nil_append] at hfirst
    exact hfirst hnone
  have hwhole : Calm zeroDigest plainWhole.reads := by
    apply (@calm_append zeroDigest [] _).mpr
    refine ⟨calm_nil, ?_⟩
    rw [pending_nil]
    exact .frame frameAtFront_plainFrame
  have hsplit : Calm zeroDigest plainSplit.reads := by
    apply (@calm_append zeroDigest [plainFrame.take 24] _).mpr
    refine ⟨(@calm_append zeroDigest [] _).mpr ⟨calm_nil, ?_⟩, ?_⟩
    · rw [pending_nil]
      exact .awaited hawaited
    · rw [hpending, List.take_append_drop]
      exact .frame frameAtFront_plainFrame
  have hnone (segments : Segments plainFrame) :
      backlog (completeFrames zeroDigest) segments.reads = 0 := by
    have hrest : plainFrame.drop (lenHeaderMessage + 93) = [] :=
      List.drop_of_length_le length_plainFrame.le
    apply backlog_eq_zero_iff.mpr
    apply keepsUp_of_single
    rw [segments.flatten_reads, completeFrames_of_frame frameAtFront_plainFrame,
      hrest, completeFrames, decodeFrames_nil]
    exact le_rfl
  exact (agree_iff plainWhole plainSplit).mpr
    (.inl ⟨hwhole, hsplit, by rw [hnone, hnone]⟩)

end P2PNetwork.CutAgreement
