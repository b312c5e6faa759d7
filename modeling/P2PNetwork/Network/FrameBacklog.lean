import P2PNetwork.Core.Backlog
import P2PNetwork.Network.StreamSoundness

/-!
# The frames behind the reader

The reader takes one frame out of its buffer after every read.  Where the frames
of the stream end and where it is cut into reads is therefore all that it takes
to know how many frames it is behind, and what is in the buffer.
-/

namespace P2PNetwork.FrameBacklog

open P2PNetwork.Backlog
open P2PNetwork.ByteAccess
open P2PNetwork.EventLoop
open P2PNetwork.Events
open P2PNetwork.FrameParser
open P2PNetwork.Framing
open P2PNetwork.Handler
open P2PNetwork.StreamSoundness
open P2PNetwork.TaskRead
open P2PNetwork.Wire

variable (sha256 : Bytes → ByteArr 32)

/-! ## The frames of a buffer -/

/-- How many frames stand one behind the other at the front, complete. -/
def completeFrames (buffer : Bytes) : ℕ :=
  (decodeFrames sha256 buffer).1.length

/-- What stands behind the first `count` frames, or behind the last one. -/
def afterFrames : ℕ → Bytes → Bytes
  | 0, buffer => buffer
  | count + 1, buffer =>
      match rawByteProcessing sha256 buffer with
      | .ok (some (_, length)) =>
          afterFrames count (buffer.drop (lenHeaderMessage + length))
      | _ => buffer

/-- No complete frame stands at the front of the buffer. -/
def Incomplete (buffer : Bytes) : Prop :=
  ∀ message length, ¬FrameAtFront sha256 buffer message length

variable {sha256} {buffer : Bytes} {message : MessagePayload} {length : ℕ}

section Frames

theorem afterFrames_of_frame (hframe : FrameAtFront sha256 buffer message length)
    (count : ℕ) :
    afterFrames sha256 (count + 1) buffer =
      afterFrames sha256 count (buffer.drop (lenHeaderMessage + length)) := by
  rw [afterFrames, rawByteProcessing_some_iff.mpr hframe]

theorem afterFrames_of_incomplete (hnone : Incomplete sha256 buffer) (count : ℕ) :
    afterFrames sha256 count buffer = buffer := by
  cases count with
  | zero => rfl
  | succ count =>
      rw [afterFrames]
      split
      case h_1 message length hparse =>
        exact absurd (rawByteProcessing_some_iff.mp hparse) (hnone message length)
      case h_2 => rfl

theorem completeFrames_of_frame
    (hframe : FrameAtFront sha256 buffer message length) :
    completeFrames sha256 buffer =
      completeFrames sha256 (buffer.drop (lenHeaderMessage + length)) + 1 := by
  rw [completeFrames, decodeFrames_of_frame hframe, List.length_cons,
    completeFrames]

theorem decodeFrames_of_incomplete (hnone : Incomplete sha256 buffer) :
    (decodeFrames sha256 buffer).1 = [] := by
  by_cases hempty : buffer = []
  · rw [hempty, decodeFrames_nil]
  · rw [decodeFrames, dif_neg hempty]
    split
    case h_1 | h_2 => rfl
    case h_3 message length hparse =>
      exact absurd (rawByteProcessing_some_iff.mp hparse) (hnone message length)

theorem completeFrames_eq_zero_iff :
    completeFrames sha256 buffer = 0 ↔ Incomplete sha256 buffer := by
  constructor
  · intro hnone message length hframe
    rw [completeFrames_of_frame hframe] at hnone
    exact Nat.succ_ne_zero _ hnone
  · intro hnone
    rw [completeFrames, decodeFrames_of_incomplete hnone, List.length_nil]

theorem incomplete_or_frame (buffer : Bytes) :
    Incomplete sha256 buffer ∨
      ∃ message length, FrameAtFront sha256 buffer message length := by
  by_cases hframe : ∃ message length, FrameAtFront sha256 buffer message length
  · exact .inr hframe
  · exact .inl fun message length hfront => hframe ⟨message, length, hfront⟩

theorem completeFrames_afterFrames (count : ℕ) (buffer : Bytes) :
    completeFrames sha256 (afterFrames sha256 count buffer) =
      completeFrames sha256 buffer - count := by
  induction count generalizing buffer with
  | zero => rfl
  | succ count ih =>
      obtain hnone | ⟨message, length, hframe⟩ := @incomplete_or_frame sha256 buffer
      · rw [afterFrames_of_incomplete hnone, completeFrames_eq_zero_iff.mpr hnone,
          Nat.zero_sub]
      · rw [afterFrames_of_frame hframe, ih, completeFrames_of_frame hframe]
        omega

theorem afterFrames_add (first second : ℕ) (buffer : Bytes) :
    afterFrames sha256 (first + second) buffer =
      afterFrames sha256 second (afterFrames sha256 first buffer) := by
  induction first generalizing buffer with
  | zero => rw [Nat.zero_add, afterFrames]
  | succ first ih =>
      rw [Nat.add_right_comm]
      obtain hnone | ⟨message, length, hframe⟩ := @incomplete_or_frame sha256 buffer
      · rw [afterFrames_of_incomplete hnone, afterFrames_of_incomplete hnone,
          afterFrames_of_incomplete hnone]
      · rw [afterFrames_of_frame hframe, afterFrames_of_frame hframe, ih]

theorem afterFrames_of_le {count : ℕ}
    (hcount : completeFrames sha256 buffer ≤ count) :
    afterFrames sha256 count buffer =
      afterFrames sha256 (completeFrames sha256 buffer) buffer := by
  obtain ⟨more, rfl⟩ := Nat.exists_eq_add_of_le hcount
  rw [afterFrames_add, afterFrames_of_incomplete]
  rw [← completeFrames_eq_zero_iff, completeFrames_afterFrames, Nat.sub_self]

/-! ## Bytes that arrive later -/

/-- The complete frames are the same when more bytes arrive. -/
theorem afterFrames_append {count : ℕ} {buffer : Bytes}
    (hcount : count ≤ completeFrames sha256 buffer) (rest : Bytes) :
    afterFrames sha256 count (buffer ++ rest) =
      afterFrames sha256 count buffer ++ rest := by
  induction count generalizing buffer with
  | zero => rfl
  | succ count ih =>
      obtain hnone | ⟨message, length, hframe⟩ := @incomplete_or_frame sha256 buffer
      · rw [completeFrames_eq_zero_iff.mpr hnone] at hcount
        cases hcount
      · rw [completeFrames_of_frame hframe] at hcount
        rw [afterFrames_of_frame hframe, afterFrames_of_frame (hframe.append rest),
          List.drop_append_of_le_length hframe.length_le,
          ih (Nat.le_of_succ_le_succ hcount)]

theorem decodeFrames_afterFrames {count : ℕ} {buffer : Bytes}
    (hcount : count ≤ completeFrames sha256 buffer) (rest : Bytes) :
    (decodeFrames sha256 (buffer ++ rest)).1 =
      (decodeFrames sha256 buffer).1.take count ++
        (decodeFrames sha256 (afterFrames sha256 count buffer ++ rest)).1 := by
  induction count generalizing buffer with
  | zero => rfl
  | succ count ih =>
      obtain hnone | ⟨message, length, hframe⟩ := @incomplete_or_frame sha256 buffer
      · rw [completeFrames_eq_zero_iff.mpr hnone] at hcount
        cases hcount
      · rw [completeFrames_of_frame hframe] at hcount
        rw [decodeFrames_frame_append hframe, decodeFrames_of_frame hframe,
          afterFrames_of_frame hframe, ih (Nat.le_of_succ_le_succ hcount)]
        rfl

theorem completeFrames_append_eq {count : ℕ} {buffer : Bytes}
    (hcount : count ≤ completeFrames sha256 buffer) (rest : Bytes) :
    completeFrames sha256 (buffer ++ rest) =
      count + completeFrames sha256 (afterFrames sha256 count buffer ++ rest) := by
  rw [completeFrames, decodeFrames_afterFrames hcount rest, List.length_append,
    List.length_take, ← completeFrames, min_eq_left hcount, completeFrames]

theorem completeFrames_mono (buffer rest : Bytes) :
    completeFrames sha256 buffer ≤ completeFrames sha256 (buffer ++ rest) := by
  rw [completeFrames_append_eq le_rfl rest]
  exact Nat.le_add_right _ _

end Frames

/-! ## What the reads leave -/

section Reads

variable (sha256) in
/-- The frames that one a read takes out. -/
def taken (reads : List Bytes) : ℕ :=
  completeFrames sha256 reads.flatten - backlog (completeFrames sha256) reads

variable (sha256) in
/-- What has arrived, without the frames taken out. -/
def pending (reads : List Bytes) : Bytes :=
  afterFrames sha256 (taken sha256 reads) reads.flatten

variable (sha256) in
/-- The messages of the frames taken out. -/
def takenMessages (reads : List Bytes) : List MessagePayload :=
  (decodeFrames sha256 reads.flatten).1.take (taken sha256 reads)

variable {reads : List Bytes} {read : Bytes}

@[simp]
theorem taken_nil : taken sha256 [] = 0 := by
  simp [taken, completeFrames]

@[simp]
theorem pending_nil : pending sha256 [] = [] := by
  rw [pending, taken_nil, afterFrames, List.flatten_nil]

@[simp]
theorem takenMessages_nil : takenMessages sha256 [] = [] := by
  rw [takenMessages, taken_nil, List.take_zero]

theorem taken_le : taken sha256 reads ≤ completeFrames sha256 reads.flatten :=
  Nat.sub_le _ _

/-- The frames that are complete in the buffer are those left behind. -/
theorem completeFrames_pending :
    completeFrames sha256 (pending sha256 reads) =
      backlog (completeFrames sha256) reads := by
  have hle := @backlog_le_count _ (completeFrames sha256) reads
  rw [pending, completeFrames_afterFrames, taken]
  omega

theorem pending_append_eq :
    afterFrames sha256 (taken sha256 reads) (reads.flatten ++ read) =
      pending sha256 reads ++ read :=
  afterFrames_append taken_le read

theorem backlog_append_read :
    backlog (completeFrames sha256) (reads ++ [read]) =
      completeFrames sha256 (pending sha256 reads ++ read) - 1 := by
  have harrived := @completeFrames_append_eq sha256 _ _ (@taken_le sha256 reads) read
  have hleft := @backlog_le_count _ (completeFrames sha256) reads
  have hgrows := @completeFrames_mono sha256 (pending sha256 reads) read
  rw [completeFrames_pending] at hgrows
  rw [← pending] at harrived
  rw [backlog_append completeFrames_mono, harrived, taken]
  omega

/-- A read takes a frame out, if one is complete. -/
theorem taken_append :
    taken sha256 (reads ++ [read]) =
      taken sha256 reads +
        min 1 (completeFrames sha256 (pending sha256 reads ++ read)) := by
  have harrived := @completeFrames_append_eq sha256 _ _ (@taken_le sha256 reads) read
  rw [← pending] at harrived
  rw [taken, backlog_append_read, List.flatten_append, List.flatten_singleton,
    harrived]
  omega

theorem taken_append_of_frame
    (hframe : FrameAtFront sha256 (pending sha256 reads ++ read) message length) :
    taken sha256 (reads ++ [read]) = taken sha256 reads + 1 := by
  rw [taken_append, completeFrames_of_frame hframe]
  omega

theorem taken_append_of_incomplete
    (hnone : Incomplete sha256 (pending sha256 reads ++ read)) :
    taken sha256 (reads ++ [read]) = taken sha256 reads := by
  rw [taken_append, completeFrames_eq_zero_iff.mpr hnone]
  rfl

theorem pending_append_of_frame
    (hframe : FrameAtFront sha256 (pending sha256 reads ++ read) message length) :
    pending sha256 (reads ++ [read]) =
      (pending sha256 reads ++ read).drop (lenHeaderMessage + length) := by
  rw [pending, taken_append_of_frame hframe, List.flatten_append,
    List.flatten_singleton, afterFrames_add, pending_append_eq,
    afterFrames_of_frame hframe, afterFrames]

theorem pending_append_of_incomplete
    (hnone : Incomplete sha256 (pending sha256 reads ++ read)) :
    pending sha256 (reads ++ [read]) = pending sha256 reads ++ read := by
  rw [pending, taken_append_of_incomplete hnone, List.flatten_append,
    List.flatten_singleton, pending_append_eq]

/-- The messages of the stream are those taken out and those still to come. -/
theorem decodeFrames_pending (rest : Bytes) :
    (decodeFrames sha256 (reads.flatten ++ rest)).1 =
      takenMessages sha256 reads ++
        (decodeFrames sha256 (pending sha256 reads ++ rest)).1 :=
  decodeFrames_afterFrames taken_le rest

theorem length_takenMessages :
    (takenMessages sha256 reads).length = taken sha256 reads := by
  rw [takenMessages, List.length_take]
  exact min_eq_left taken_le

theorem takenMessages_append_of_frame
    (hframe : FrameAtFront sha256 (pending sha256 reads ++ read) message length) :
    takenMessages sha256 (reads ++ [read]) =
      takenMessages sha256 reads ++ [message] := by
  rw [takenMessages, taken_append_of_frame hframe, List.flatten_append,
    List.flatten_singleton, decodeFrames_pending, decodeFrames_of_frame hframe,
    List.take_append, length_takenMessages, Nat.add_sub_cancel_left,
    List.take_of_length_le (by rw [length_takenMessages]; omega)]
  rfl

theorem takenMessages_append_of_incomplete
    (hnone : Incomplete sha256 (pending sha256 reads ++ read)) :
    takenMessages sha256 (reads ++ [read]) = takenMessages sha256 reads := by
  rw [takenMessages, taken_append_of_incomplete hnone, List.flatten_append,
    List.flatten_singleton, decodeFrames_pending, List.take_append,
    length_takenMessages, Nat.sub_self, List.take_zero, List.append_nil,
    List.take_of_length_le (by rw [length_takenMessages])]

/-- The parser accepts what stands at the front, or waits for the rest of it. -/
inductive Settles (sha256 : Bytes → ByteArr 32) (buffer : Bytes) : Prop where
  | frame {message : MessagePayload} {length : ℕ}
      (hframe : FrameAtFront sha256 buffer message length)
  | awaited {header : HeaderMessage} {payload : Bytes}
      (hawaited : VersionAwaited buffer header payload)

theorem incomplete_of_awaited {header : HeaderMessage} {payload : Bytes}
    (hawaited : VersionAwaited buffer header payload) :
    Incomplete sha256 buffer := by
  intro message length hframe
  have hparse := rawByteProcessing_some_iff.mpr hframe
  rw [rawByteProcessing_none_iff.mpr ⟨header, payload, hawaited⟩] at hparse
  cases hparse

variable (sha256) in
/-- Every read settles what stands behind the frames taken out before. -/
def Calm (reads : List Bytes) : Prop :=
  ∀ front read rest, reads = front ++ read :: rest →
    Settles sha256 (pending sha256 front ++ read)

theorem calm_nil : Calm sha256 [] := by
  intro front read rest heq
  simp at heq

theorem calm_append :
    Calm sha256 (reads ++ [read]) ↔
      Calm sha256 reads ∧ Settles sha256 (pending sha256 reads ++ read) := by
  constructor
  · intro hcalm
    refine ⟨fun front other rest heq => ?_, hcalm reads read [] rfl⟩
    exact hcalm front other (rest ++ [read]) (by rw [heq]; simp)
  · rintro ⟨hcalm, hlast⟩ front other rest heq
    obtain rfl | ⟨rest, final, rfl⟩ := rest.eq_nil_or_concat'
    · obtain ⟨rfl, hread⟩ := List.append_inj' heq rfl
      cases hread
      exact hlast
    · rw [← List.cons_append, ← List.append_assoc] at heq
      obtain ⟨rfl, -⟩ := List.append_inj' heq rfl
      exact hcalm front other rest rfl

theorem length_pending_append_le (reads more : List Bytes) :
    (pending sha256 (reads ++ more)).length ≤
      (pending sha256 reads).length + more.flatten.length := by
  induction more using List.reverseRecOn with
  | nil => simp
  | append_singleton more read ih =>
      have hread : (pending sha256 (reads ++ more ++ [read])).length ≤
          (pending sha256 (reads ++ more)).length + read.length := by
        obtain hnone | ⟨message, length, hframe⟩ :=
          @incomplete_or_frame sha256 (pending sha256 (reads ++ more) ++ read)
        · rw [pending_append_of_incomplete hnone, List.length_append]
        · rw [pending_append_of_frame hframe, List.length_drop, List.length_append]
          exact Nat.sub_le _ _
      rw [List.append_assoc] at hread
      rw [List.flatten_append, List.flatten_singleton, List.length_append]
      omega

theorem incomplete_pending_iff :
    Incomplete sha256 (pending sha256 reads) ↔
      KeepsUp (completeFrames sha256) reads := by
  rw [← completeFrames_eq_zero_iff, completeFrames_pending, backlog_eq_zero_iff]

theorem keepsUp_of_single (hsingle : completeFrames sha256 reads.flatten ≤ 1) :
    KeepsUp (completeFrames sha256) reads := by
  refine keepsUp_of_forall completeFrames_mono fun front read rest heq => ?_
  rw [heq, List.flatten_append, List.flatten_cons, ← List.append_assoc] at hsingle
  have hfront := @completeFrames_mono sha256 (front.flatten ++ read) rest.flatten
  omega

/-- When no frame is left behind, all messages have been taken out. -/
theorem taken_of_keepsUp (hkeeps : KeepsUp (completeFrames sha256) reads) :
    taken sha256 reads = completeFrames sha256 reads.flatten := by
  rw [taken, backlog_eq_zero_iff.mpr hkeeps, Nat.sub_zero]

end Reads

/-! ## Runs of the reader -/

/-- The reads so far, and the messages that the peer has taken. -/
structure Account where
  reads : List Bytes := []
  delivered : List MessagePayload := []

def account : Ghost Account Bytes ReadInput EventsTaskRead Bool where
  take past _ input :=
    match input with
    | .resultRead (.ok (byte :: bytes)) =>
        { past with reads := past.reads ++ [byte :: bytes] }
    | _ => past
  answer past event reply :=
    if reply then { past with delivered := past.delivered ++ [messageOf event] }
    else past

/-- The buffer and the messages of a reader, by its reads. -/
structure Accounted (sha256 : Bytes → ByteArr 32) (past : Account)
    (inHand : List MessagePayload) (storageBuffer : Bytes) : Prop where
  buffer : storageBuffer = pending sha256 past.reads
  messages : past.delivered ++ inHand = takenMessages sha256 past.reads
  calm : Calm sha256 past.reads

section Runs

variable {past : Account} {storageBuffer : Bytes}

theorem accounted_empty : Accounted sha256 {} [] [] where
  buffer := pending_nil.symm
  messages := takenMessages_nil.symm
  calm := calm_nil

theorem account_take_read {read : Bytes} (hread : read ≠ []) :
    account.take past storageBuffer (.resultRead (.ok read)) =
      { past with reads := past.reads ++ [read] } := by
  obtain ⟨byte, bytes, rfl⟩ := List.exists_cons_of_ne_nil hread
  rfl

theorem Accounted.frame (haccounted : Accounted sha256 past [] storageBuffer)
    {read : Bytes} {message : MessagePayload} {length : ℕ}
    (hframe : FrameAtFront sha256 (storageBuffer ++ read) message length) :
    Accounted sha256 { past with reads := past.reads ++ [read] } [message]
      ((storageBuffer ++ read).drop (lenHeaderMessage + length)) := by
  obtain ⟨rfl, hmessages, hcalm⟩ := haccounted
  rw [List.append_nil] at hmessages
  constructor
  · exact (pending_append_of_frame hframe).symm
  · rw [takenMessages_append_of_frame hframe, hmessages]
  · exact calm_append.mpr ⟨hcalm, .frame hframe⟩

theorem Accounted.awaited (haccounted : Accounted sha256 past [] storageBuffer)
    {read : Bytes} {header : HeaderMessage} {payload : Bytes}
    (hawaited : VersionAwaited (storageBuffer ++ read) header payload) :
    Accounted sha256 { past with reads := past.reads ++ [read] } []
      (storageBuffer ++ read) := by
  obtain ⟨rfl, hmessages, hcalm⟩ := haccounted
  have hnone := @incomplete_of_awaited sha256 _ _ _ hawaited
  constructor
  · exact (pending_append_of_incomplete hnone).symm
  · rw [takenMessages_append_of_incomplete hnone]
    exact hmessages
  · exact calm_append.mpr ⟨hcalm, .awaited hawaited⟩

theorem Accounted.deliver {message : MessagePayload}
    (haccounted : Accounted sha256 past [message] storageBuffer) :
    Accounted sha256 { past with delivered := past.delivered ++ [message] } []
      storageBuffer where
  buffer := haccounted.buffer
  messages := by
    rw [List.append_nil]
    exact haccounted.messages
  calm := haccounted.calm

/-- One turn of the reader, as long as it stays in its loop. -/
theorem startTaskReadTurn_accounted
    (haccounted : Accounted sha256 past [] storageBuffer) (input : ReadInput) :
    (startTaskReadTurn sha256 input storageBuffer).Holds account.answer
      (fun past storageBuffer event =>
        Accounted sha256 past [messageOf event] storageBuffer)
      (fun past storageBuffer flow =>
        flow = .next → Accounted sha256 past [] storageBuffer)
      (account.take past storageBuffer input) := by
  rcases input with (reason | (_ | ⟨byte, bytes⟩)) | incident
  · simp [startTaskReadTurn]
  · simp [startTaskReadTurn]
  · rw [account_take_read (List.cons_ne_nil byte bytes)]
    simp only [startTaskReadTurn]
    split
    case h_1 message length hparse =>
      have hframe := rawByteProcessing_some_iff.mp hparse
      have hdrained := haccounted.frame hframe
      rw [if_pos hframe.length_le, Await.holds_issue]
      refine ⟨hdrained, fun delivered => ?_⟩
      cases delivered with
      | true => exact fun _ => hdrained.deliver
      | false => simp
    case h_2 hparse =>
      obtain ⟨header, payload, hawaited⟩ := rawByteProcessing_none_iff.mp hparse
      exact fun _ => haccounted.awaited hawaited
    case h_3 => simp
    case h_4 => simp
  · cases incident with
    | none => simp [startTaskReadTurn]
    | some event =>
        cases event with
        | shutdown => simp [startTaskReadTurn]
        | readyLowMessage | lowLevelMessage => exact fun _ => haccounted

/-- In every run of the reader, at its `select!`. -/
theorem accounted_run {labels : List (LoopLabel ReadInput EventsTaskRead Bool)}
    {last : ReadTurn × Account}
    (run : Run (LoopStep (startTaskReadTurn sha256) account)
      (.done [] .next, {}) labels last)
    (hidle : last.1 = .done storageBuffer .next) :
    Accounted sha256 last.2 [] storageBuffer := by
  have hlast := LoopStep.holds_run
    (fun past storageBuffer input hsettled =>
      @startTaskReadTurn_accounted sha256 past storageBuffer (hsettled rfl) input)
    (fun _ => accounted_empty) run
  rw [hidle] at hlast
  exact hlast rfl

end Runs

/-! ## A frame and a header in one read -/

theorem incomplete_plainFrame_header :
    Incomplete zeroDigest (plainFrame.take 24) := by
  intro message length hframe
  have hparse := rawByteProcessing_some_iff.mpr hframe
  rw [rawByteProcessing_plainFrame_header.2] at hparse
  cases hparse

/-- The frame of `plainVersion` and the header of another one. -/
def frameAndHeader : Bytes := plainFrame ++ plainFrame.take 24

theorem length_frameAndHeader : frameAndHeader.length = 141 := by
  rw [frameAndHeader, List.length_append, List.length_take, length_plainFrame]
  rfl

theorem frameAndHeader_ne_nil : frameAndHeader ≠ [] :=
  List.ne_nil_of_length_pos (by rw [length_frameAndHeader]; decide)

theorem frameAtFront_frameAndHeader :
    FrameAtFront zeroDigest frameAndHeader (.version plainVersion) 93 := by
  have hparse := rawByteProcessing_version_frame zeroDigest plainVersion
    (plainFrame.take 24) (sendable_plainVersion plainVersion rfl)
  exact rawByteProcessing_some_iff.mp hparse

theorem drop_frameAndHeader :
    frameAndHeader.drop (lenHeaderMessage + 93) = plainFrame.take 24 :=
  List.drop_left' length_plainFrame

theorem completeFrames_frameAndHeader :
    completeFrames zeroDigest frameAndHeader = 1 := by
  rw [completeFrames_of_frame frameAtFront_frameAndHeader, drop_frameAndHeader,
    completeFrames_eq_zero_iff.mpr incomplete_plainFrame_header]

/-- The read ends one frame. -/
theorem keepsUp_frameAndHeader :
    KeepsUp (completeFrames zeroDigest) [frameAndHeader] := by
  refine keepsUp_of_single ?_
  rw [List.flatten_singleton, completeFrames_frameAndHeader]

/-- The frame is delivered, and the header stays in the buffer. -/
theorem frameAndHeader_run
    {condition : ReadTurn × Account →
      LoopLabel ReadInput EventsTaskRead Bool → Prop}
    (hread : condition (.done [] .next, {}) (.take (.resultRead (.ok frameAndHeader))))
    (hanswer : ∀ before event reply, condition before (.answer event reply)) :
    ∃ labels, Run (Restrict (LoopStep (startTaskReadTurn zeroDigest) account)
        condition) (.done [] .next, {}) labels
      (.done (plainFrame.take 24) .next,
        { reads := [frameAndHeader], delivered := [.version plainVersion] }) := by
  have hturn := @startTaskReadTurn_of_some zeroDigest [] _ _ _ _
    frameAndHeader_ne_nil
    (rawByteProcessing_some_iff.mpr frameAtFront_frameAndHeader)
    frameAtFront_frameAndHeader.length_le drop_frameAndHeader
  have taken : Run (Restrict (LoopStep (startTaskReadTurn zeroDigest) account)
        condition)
      (.done [] .next, {}) [.take (.resultRead (.ok frameAndHeader))]
      (startTaskReadTurn zeroDigest (.resultRead (.ok frameAndHeader)) [],
        account.take {} [] (.resultRead (.ok frameAndHeader))) :=
    (Run.refl _).tail ⟨hread, .take _⟩
  rw [hturn, account_take_read frameAndHeader_ne_nil] at taken
  exact ⟨_, taken.tail ⟨hanswer _ _ true, .answer true⟩⟩

end P2PNetwork.FrameBacklog
