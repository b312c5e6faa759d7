import P2PNetwork.Network.FrameBacklog

/-!
# Frames that wait in the buffer

The inner loop of the reader leaves after one frame.  A frame that arrived
together with the one before it stays in the buffer until the remote sends more.
The reader is up to date exactly when, from no point on, more frames have ended
than reads have come.
-/

namespace P2PNetwork.PendingFrames

open P2PNetwork.Backlog
open P2PNetwork.ByteAccess
open P2PNetwork.EventLoop
open P2PNetwork.Events
open P2PNetwork.FrameBacklog
open P2PNetwork.FrameParser
open P2PNetwork.Framing
open P2PNetwork.TaskRead

variable (sha256 : Bytes → ByteArr 32)

/-- No complete message stands at the front of the buffer. -/
def NoneWaiting (storageBuffer : Bytes) : Prop :=
  ∀ message length,
    rawByteProcessing sha256 storageBuffer ≠ .ok (some (message, length))

/-- No message waits, all that have arrived are delivered, and the buffer holds
what stands behind the last one. -/
structure UpToDate (past : Account) (storageBuffer : Bytes) : Prop where
  none : NoneWaiting sha256 storageBuffer
  delivered : past.delivered = (decodeFrames sha256 past.reads.flatten).1
  buffer : storageBuffer =
    afterFrames sha256 (completeFrames sha256 past.reads.flatten) past.reads.flatten

variable {sha256}

theorem noneWaiting_iff {storageBuffer : Bytes} :
    NoneWaiting sha256 storageBuffer ↔ Incomplete sha256 storageBuffer := by
  simp only [NoneWaiting, Incomplete, ne_eq, rawByteProcessing_some_iff]

/-- In every run, whenever the reader is at its `select!`. -/
theorem upToDate_iff_keepsUp {storageBuffer : Bytes}
    {labels : List (LoopLabel ReadInput EventsTaskRead Bool)}
    {last : ReadTurn × Account}
    (run : Run (LoopStep (startTaskReadTurn sha256) account)
      (.done [] .next, {}) labels last)
    (hidle : last.1 = .done storageBuffer .next) :
    UpToDate sha256 last.2 storageBuffer ↔
      KeepsUp (completeFrames sha256) last.2.reads := by
  obtain ⟨rfl, hdelivered, -⟩ := accounted_run run hidle
  rw [List.append_nil] at hdelivered
  constructor
  · intro huptodate
    exact incomplete_pending_iff.mp (noneWaiting_iff.mp huptodate.none)
  · intro hkeeps
    have htaken := taken_of_keepsUp hkeeps
    constructor
    · exact noneWaiting_iff.mpr (incomplete_pending_iff.mpr hkeeps)
    · rw [hdelivered, takenMessages, htaken, completeFrames, List.take_length]
    · rw [pending, htaken]

/-- A frame and the header of the next one in one read: the frame is delivered,
and no message waits. -/
theorem upToDate_frameAndHeader :
    ∃ labels last, Run (LoopStep (startTaskReadTurn zeroDigest) account)
        (.done [] .next, {}) labels last ∧
      last.2.reads = [frameAndHeader] ∧
      last.2.delivered = [.version plainVersion] ∧
      UpToDate zeroDigest last.2 (plainFrame.take 24) := by
  obtain ⟨labels, hrun⟩ := @frameAndHeader_run (fun _ _ => True) trivial
    fun _ _ _ => trivial
  have run := hrun.of_restrict
  exact ⟨labels, _, run, rfl, rfl,
    (upToDate_iff_keepsUp run rfl).mpr keepsUp_frameAndHeader⟩

/-- Two frames in one read: the reader is back at its `select!` with the second
one whole in its buffer. -/
theorem secondFrame_waiting :
    ∃ labels, Run (LoopStep (startTaskReadTurn zeroDigest) noHistory)
        (.done [] .next, ()) labels (.done plainFrame .next, ()) ∧
      (∀ read, .take (.resultRead (.ok read)) ∈ labels →
        read = plainFrame ++ plainFrame ∧
          read.length ≤ temporaryBufferSize) ∧
      rawByteProcessing zeroDigest plainFrame =
        .ok (some (.version plainVersion, 93)) := by
  have hfirst := rawByteProcessing_version_frame zeroDigest plainVersion
    plainFrame (by decide)
  have hsecond := rawByteProcessing_version_frame zeroDigest plainVersion []
    (by decide)
  rw [← plainFrame] at hfirst hsecond
  rw [List.append_nil] at hsecond
  have hlength : (plainFrame ++ plainFrame).length = 234 := by
    rw [List.length_append, length_plainFrame]
  have hread : plainFrame ++ plainFrame ≠ [] :=
    List.ne_nil_of_length_pos (by omega)
  have hextent : plainFrame.length =
      lenHeaderMessage + plainVersion.serializeVersionMessage.length := by
    rw [length_plainFrame]
    decide
  have hdrained : (plainFrame ++ plainFrame).drop (lenHeaderMessage +
      plainVersion.serializeVersionMessage.length) = plainFrame := by
    rw [← hextent, List.drop_left]
  have hturn := @startTaskReadTurn_of_some zeroDigest [] _ _ _ _ hread hfirst
    (by rw [List.nil_append, List.length_append]; omega) hdrained
  have taken : Run (LoopStep (startTaskReadTurn zeroDigest) noHistory)
      (.done [] .next, ()) [.take (.resultRead (.ok (plainFrame ++ plainFrame)))]
      (startTaskReadTurn zeroDigest
        (.resultRead (.ok (plainFrame ++ plainFrame))) [], ()) :=
    (Run.refl _).tail (.take _)
  rw [hturn] at taken
  refine ⟨_, taken.tail (.answer true), ?_, hsecond⟩
  intro read hmem
  have hsame : read = plainFrame ++ plainFrame := by simpa using hmem
  refine ⟨hsame, ?_⟩
  rw [hsame, hlength]
  decide

end P2PNetwork.PendingFrames
