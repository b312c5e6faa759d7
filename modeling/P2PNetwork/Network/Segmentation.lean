import P2PNetwork.Network.Framing

/-!
# Segmentation of the byte stream

TCP delivers a byte stream in reads whose boundaries carry no meaning.  The
reader looks at its buffer once after every read, and its parser slices the
header before it knows that the header is there: what it delivers depends on
the boundaries.
-/

namespace P2PNetwork.Segmentation

open P2PNetwork.ByteAccess
open P2PNetwork.Events
open P2PNetwork.Framing
open P2PNetwork.Handler
open P2PNetwork.TaskRead
open P2PNetwork.TaskWrite
open P2PNetwork.Wire

/-- One way of cutting a stream into reads of the socket. -/
structure Segments (stream : Bytes) where
  reads : List Bytes
  nonempty : ∀ read ∈ reads, read ≠ []
  bounded : ∀ read ∈ reads, read.length ≤ temporaryBufferSize
  flatten_reads : reads.flatten = stream

/-- Every byte in a read of its own. -/
def bytewise (stream : Bytes) : Segments stream where
  reads := stream.map fun byte => [byte]
  nonempty := by simp
  bounded := by simp [temporaryBufferSize]
  flatten_reads := by
    rw [← List.flatMap_def]
    simp

section Reader

variable (sha256 : Bytes → ByteArr 32)

/-- The reader's run over the reads of a segmentation, followed by end of
file. -/
def readToEnd {stream : Bytes} (segments : Segments stream) :
    List EventsTaskRead × Option (TaskEnd ResultTaskRead) :=
  startTaskRead sha256 [] (segments.reads.map .ok ++ [.ok []])

/-- Two segmentations of a stream give the same messages and the same result, and
the reader panics on neither. -/
def Agree {stream : Bytes} (left right : Segments stream) : Prop :=
  readToEnd sha256 left = readToEnd sha256 right ∧
    (readToEnd sha256 left).2 ≠ some .panicked ∧
    (readToEnd sha256 right).2 ≠ some .panicked

def SegmentationIndependent (stream : Bytes) : Prop :=
  ∀ left right : Segments stream, Agree sha256 left right

/-- A first read shorter than the magic bytes ends the reader's task with a
panic. -/
theorem startTaskRead_short {read : Bytes} (reads : List (Except IoError Bytes))
    (hnonempty : read ≠ []) (hshort : read.length < 4) :
    startTaskRead sha256 [] (.ok read :: reads) = ([], some .panicked) := by
  obtain ⟨byte, bytes, rfl⟩ := List.exists_cons_of_ne_nil hnonempty
  have hpanic := rawByteProcessing_short sha256 hshort
  simp [startTaskRead, startTaskReadTurn, hpanic]

/-- Read byte by byte, no stream but the empty one is read to its end. -/
theorem readToEnd_bytewise {stream : Bytes} (hstream : stream ≠ []) :
    readToEnd sha256 (bytewise stream) = ([], some .panicked) := by
  obtain ⟨byte, bytes, rfl⟩ := List.exists_cons_of_ne_nil hstream
  exact startTaskRead_short sha256 _ (List.cons_ne_nil byte []) (by simp)

/-! ## Reads that keep to the frames -/

theorem startTaskRead_of_none {storageBuffer read : Bytes}
    (reads : List (Except IoError Bytes)) (hnonempty : read ≠ [])
    (hnone : rawByteProcessing sha256 (storageBuffer ++ read) = .ok none) :
    startTaskRead sha256 storageBuffer (.ok read :: reads) =
      startTaskRead sha256 (storageBuffer ++ read) reads := by
  simp [startTaskRead, startTaskReadTurn_of_none sha256 hnonempty hnone]

theorem startTaskRead_of_some {storageBuffer read : Bytes}
    {message : MessagePayload} {length : ℕ}
    (reads : List (Except IoError Bytes)) (hnonempty : read ≠ [])
    (hlength : (storageBuffer ++ read).length = lenHeaderMessage + length)
    (hsome : rawByteProcessing sha256 (storageBuffer ++ read) =
      .ok (some (message, length))) :
    startTaskRead sha256 storageBuffer (.ok read :: reads) =
      (.lowRawMessage message :: (startTaskRead sha256 [] reads).1,
        (startTaskRead sha256 [] reads).2) := by
  have hdrained := List.drop_eq_nil_of_le hlength.le
  have hturn := startTaskReadTurn_of_some sha256 hnonempty hsome hlength.ge
    hdrained
  simp only [startTaskRead, hturn, Await.runWith_issue, if_true,
    Await.runWith_done, List.cons_append, List.nil_append]

/-- A version frame cut into reads, the first of which brings the rest of the
header: its message is delivered with the last read, and nothing is left in
the buffer. -/
theorem startTaskRead_frame (version : VersionMessage)
    (hsize : version.serializeVersionMessage.length ≤ maxSizePayload)
    (following : List (Except IoError Bytes)) {storageBuffer read : Bytes}
    {reads : List Bytes} (hnonempty : ∀ other ∈ read :: reads, other ≠ [])
    (hheader : lenHeaderMessage ≤ (storageBuffer ++ read).length)
    (hframe : storageBuffer ++ (read :: reads).flatten =
      frame sha256 (.version version)) :
    startTaskRead sha256 storageBuffer ((read :: reads).map .ok ++ following) =
      (.lowRawMessage (.version version) ::
          (startTaskRead sha256 [] following).1,
        (startTaskRead sha256 [] following).2) := by
  have hread := hnonempty read List.mem_cons_self
  have hlength : (frame sha256 (.version version)).length =
      lenHeaderMessage + version.serializeVersionMessage.length := by
    simp [frame_eq, payloadBytes, lenHeaderMessage]
  induction reads generalizing storageBuffer read with
  | nil =>
      have hwhole : storageBuffer ++ read = frame sha256 (.version version) := by
        simpa using hframe
      have hsome := rawByteProcessing_version_frame sha256 version [] hsize
      rw [List.append_nil, ← hwhole] at hsome
      exact startTaskRead_of_some sha256 following hread
        (by rw [hwhole, hlength]) hsome
  | cons next reads ih =>
      have hnext : next ≠ [] := hnonempty next (by simp)
      have hsplit : (storageBuffer ++ read) ++ (next :: reads).flatten =
          frame sha256 (.version version) := by
        simpa using hframe
      -- The bytes that have arrived are the header and a part of the payload.
      obtain ⟨payload, hpayload⟩ :
          ∃ payload, storageBuffer ++ read =
            (createHeaderMessage sha256
              (.version version)).serializeHeaderMessage ++ payload := by
        have hheader : (createHeaderMessage sha256
            (.version version)).serializeHeaderMessage <+:
              storageBuffer ++ read := by
          refine List.prefix_of_prefix_length_le ⟨_, (frame_eq sha256 _).symm⟩
            ⟨_, hsplit⟩ ?_
          simpa [lenHeaderMessage] using hheader
        exact ⟨hheader.choose, hheader.choose_spec.symm⟩
      have hincomplete : payload.length <
          version.serializeVersionMessage.length := by
        have htotal := congrArg List.length hsplit
        have hpos := List.length_pos_of_ne_nil hnext
        rw [hlength, hpayload] at htotal
        simp [lenHeaderMessage] at htotal
        omega
      have hnone := rawByteProcessing_partial_frame sha256 version hsize hincomplete
      rw [← hpayload] at hnone
      rw [List.map_cons, List.cons_append,
        startTaskRead_of_none sha256 _ hread hnone]
      exact ih (fun other hother => hnonempty other (List.mem_cons_of_mem _ hother))
        (by simp at hheader ⊢; omega) hsplit hnext

/-- A version message and a cut of its frame into reads, the first of which
brings the whole header. -/
structure FrameReads where
  version : VersionMessage
  size : version.serializeVersionMessage.length ≤ maxSizePayload
  read : Bytes
  reads : List Bytes
  nonempty : ∀ other ∈ read :: reads, other ≠ []
  header : lenHeaderMessage ≤ read.length
  flatten_reads : (read :: reads).flatten = frame sha256 (.version version)

/-- No read crosses the end of a frame and every frame begins with a read of
its whole header: under every such segmentation of a stream of version frames
the reader delivers exactly the messages, then end of file. -/
theorem startTaskRead_frames (frames : List (FrameReads sha256)) :
    startTaskRead sha256 []
        ((frames.flatMap fun cut => cut.read :: cut.reads).map .ok ++
          [.ok []]) =
      (frames.map fun cut => .lowRawMessage (.version cut.version),
        some (.returned (.ok .successfulEOF))) := by
  induction frames with
  | nil => simp [startTaskRead, startTaskReadTurn]
  | cons cut frames ih =>
      rw [List.flatMap_cons, List.map_append, List.append_assoc,
        startTaskRead_frame sha256 cut.version cut.size _ cut.nonempty
          (by simpa using cut.header) cut.flatten_reads, ih]
      rfl

end Reader

theorem plainFrame_ne_nil : plainFrame ≠ [] := by
  refine List.ne_nil_of_length_pos ?_
  rw [length_plainFrame]
  decide

/-- The frame of `plainVersion` in a single read. -/
def plainWhole : Segments plainFrame where
  reads := [plainFrame]
  nonempty := by
    intro read hread
    rw [List.mem_singleton.mp hread]
    exact plainFrame_ne_nil
  bounded := by
    intro read hread
    rw [List.mem_singleton.mp hread, length_plainFrame]
    decide
  flatten_reads := by simp

/-- Whole, the frame is delivered and the run ends with end of file; byte by
byte, the reader panics on the first byte. -/
theorem readToEnd_plainFrame :
    readToEnd zeroDigest plainWhole =
        ([.lowRawMessage (.version plainVersion)],
          some (.returned (.ok .successfulEOF))) ∧
      readToEnd zeroDigest (bytewise plainFrame) = ([], some .panicked) ∧
      ¬SegmentationIndependent zeroDigest plainFrame := by
  have hwhole := startTaskRead_frames zeroDigest [{
    version := plainVersion
    size := sendable_plainVersion plainVersion rfl
    read := plainFrame
    reads := []
    nonempty := plainWhole.nonempty
    header := by rw [length_plainFrame]; decide
    flatten_reads := by simp [plainFrame] }]
  have hbytewise := readToEnd_bytewise zeroDigest plainFrame_ne_nil
  refine ⟨hwhole, hbytewise, ?_⟩
  intro hindependent
  exact (hindependent plainWhole (bytewise plainFrame)).2.2
    (congrArg Prod.snd hbytewise)

end P2PNetwork.Segmentation
