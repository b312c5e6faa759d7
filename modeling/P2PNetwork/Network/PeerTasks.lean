import P2PNetwork.Core.EventLoop
import P2PNetwork.Network.Framing
import P2PNetwork.Network.Peer

/-!
# A peer with its reader and its writer

The three tasks of one connection and the bounded channels between them.  The
socket, the scheduler, `PeerManager` and the choice among ready branches are
the environment: it decides which step comes next and what is read.
-/

namespace P2PNetwork.PeerSubtasks

open P2PNetwork.ByteAccess
open P2PNetwork.EventLoop
open P2PNetwork.Events
open P2PNetwork.Framing
open P2PNetwork.Handler
open P2PNetwork.PeerActor
open P2PNetwork.TaskRead
open P2PNetwork.TaskWrite
open P2PNetwork.Wire

/-- A spawned task: in a turn of its loop, or ended with what its
`JoinHandle` yields. -/
inductive Subtask (σ ε ζ ρ : Type) where
  | running (turn : Await σ ε ζ (Flow ρ))
  | ended (result : Except JoinError ρ)

def Subtask.hasEnded {σ ε ζ ρ : Type} : Subtask σ ε ζ ρ → Prop
  | .running _ => False
  | .ended _ => True

inductive PeerPhase where
  | looping (turn : PeerTurn)
  | closing (incident : EventsCriticalCompletion)
      (sends : Await Peer PeerSend Bool Unit)
  | returned (result : Except ErrorPeer SuccessPeer)

/-- The reader's and the peer's sends are recorded in `produced` and
`forwarded`. -/
structure PeerTasks where
  peer : PeerPhase
  reader : Subtask Bytes EventsTaskRead Bool ResultTaskRead
  writer : Subtask Unit Bytes (Except IoError Unit) ResultTaskWrite
  toTaskRead : List EventsPeer
  toTaskWrite : List EventsPeer
  fromTaskRead : List EventsTaskRead
  produced : List EventsTaskRead
  forwarded : List EventsPeer

def PeerTasks.initial (peer : Peer) : PeerTasks where
  peer := .looping (.done peer .next)
  reader := .running (.done [] .next)
  writer := .running (.done () .next)
  toTaskRead := []
  toTaskWrite := []
  fromTaskRead := []
  produced := []
  forwarded := []

/-- The peer has returned, and with it the ends of its channels are gone. -/
def PeerTasks.gone (tasks : PeerTasks) : Prop :=
  ∃ result, tasks.peer = .returned result

/-! ## Steps -/

inductive Label where
  | readerRead (result : Except IoError Bytes)
  | readerCommand
  | readerSend
  | readerEnd
  | writerTake
  | writerWrite (result : Except IoError Unit)
  | writerEnd
  | peerCommand (incident : Option EventsPeerManager)
  | peerReceive
  | peerReceiveClosed
  | peerJoinReader
  | peerJoinWriter
  | peerSend (delivered : Bool)
  | peerLeave
  | peerReturn

/-- What a task's handle yields when its last turn has ended so. -/
inductive Ends {ρ : Type} : Flow ρ → Except JoinError ρ → Prop where
  | returned (result : ρ) : Ends (.leave result) (.ok result)
  | panicked (reason : JoinError) : Ends .panicked (.error reason)

section Steps

variable (sha256 : Bytes → ByteArr 32)

/-- Steps of the reader. -/
inductive ReaderStep : PeerTasks → Label → PeerTasks → Prop where
  | read {tasks : PeerTasks} {storageBuffer : Bytes}
      {result : Except IoError Bytes}
      (hreader : tasks.reader = .running (.done storageBuffer .next))
      (hbound : ∀ read, result = .ok read →
        read.length ≤ temporaryBufferSize) :
      ReaderStep tasks (.readerRead result)
        { tasks with
          reader := .running
            (startTaskReadTurn sha256 (.resultRead result) storageBuffer) }
  | command {tasks : PeerTasks} {storageBuffer : Bytes} {event : EventsPeer}
      {rest : List EventsPeer}
      (hreader : tasks.reader = .running (.done storageBuffer .next))
      (hcommand : tasks.toTaskRead = event :: rest) :
      ReaderStep tasks .readerCommand
        { tasks with
          reader := .running (startTaskReadTurn sha256
            (.incidentPeer (some event)) storageBuffer)
          toTaskRead := rest }
  | commandClosed {tasks : PeerTasks} {storageBuffer : Bytes}
      (hreader : tasks.reader = .running (.done storageBuffer .next))
      (hcommand : tasks.toTaskRead = []) (hgone : tasks.gone) :
      ReaderStep tasks .readerCommand
        { tasks with
          reader := .running
            (startTaskReadTurn sha256 (.incidentPeer none) storageBuffer) }
  | send {tasks : PeerTasks} {storageBuffer : Bytes} {event : EventsTaskRead}
      {resume : Bool → ReadTurn}
      (hreader : tasks.reader = .running (.issue storageBuffer event resume))
      (hopen : ¬tasks.gone)
      (hroom : tasks.fromTaskRead.length < channelCapacity) :
      ReaderStep tasks .readerSend
        { tasks with
          reader := .running (resume true)
          fromTaskRead := tasks.fromTaskRead ++ [event]
          produced := tasks.produced ++ [event] }
  | sendClosed {tasks : PeerTasks} {storageBuffer : Bytes}
      {event : EventsTaskRead} {resume : Bool → ReadTurn}
      (hreader : tasks.reader = .running (.issue storageBuffer event resume))
      (hgone : tasks.gone) :
      ReaderStep tasks .readerSend
        { tasks with reader := .running (resume false) }
  | finish {tasks : PeerTasks} {storageBuffer : Bytes}
      {flow : Flow ResultTaskRead} {result : Except JoinError ResultTaskRead}
      (hreader : tasks.reader = .running (.done storageBuffer flow))
      (hends : Ends flow result) :
      ReaderStep tasks .readerEnd { tasks with reader := .ended result }

/-- Steps of the writer. -/
inductive WriterStep : PeerTasks → Label → PeerTasks → Prop where
  | take {tasks : PeerTasks} {event : EventsPeer} {rest : List EventsPeer}
      (hwriter : tasks.writer = .running (.done () .next))
      (hqueue : tasks.toTaskWrite = event :: rest) :
      WriterStep tasks .writerTake
        { tasks with
          writer := .running (startTaskWriteTurn sha256 (some event))
          toTaskWrite := rest }
  | takeClosed {tasks : PeerTasks}
      (hwriter : tasks.writer = .running (.done () .next))
      (hqueue : tasks.toTaskWrite = []) (hgone : tasks.gone) :
      WriterStep tasks .writerTake
        { tasks with writer := .running (startTaskWriteTurn sha256 none) }
  | write {tasks : PeerTasks} {piece : Bytes}
      {resume : Except IoError Unit → WriteTurn}
      {result : Except IoError Unit}
      (hwriter : tasks.writer = .running (.issue () piece resume)) :
      WriterStep tasks (.writerWrite result)
        { tasks with writer := .running (resume result) }
  | finish {tasks : PeerTasks} {flow : Flow ResultTaskWrite}
      {result : Except JoinError ResultTaskWrite}
      (hwriter : tasks.writer = .running (.done () flow))
      (hends : Ends flow result) :
      WriterStep tasks .writerEnd { tasks with writer := .ended result }

/-- A send of the peer is answered: it succeeds when there is room and fails
when the receiver is gone. -/
inductive SendStep : PeerTasks → PeerSend → Bool → PeerTasks → Prop where
  | toTaskRead {tasks : PeerTasks} {event : EventsPeer}
      (halive : ¬tasks.reader.hasEnded)
      (hroom : tasks.toTaskRead.length < channelCapacity) :
      SendStep tasks (.toTaskRead event) true
        { tasks with toTaskRead := tasks.toTaskRead ++ [event] }
  | toTaskReadClosed {tasks : PeerTasks} {event : EventsPeer}
      (hended : tasks.reader.hasEnded) :
      SendStep tasks (.toTaskRead event) false tasks
  | toTaskWrite {tasks : PeerTasks} {event : EventsPeer}
      (halive : ¬tasks.writer.hasEnded)
      (hroom : tasks.toTaskWrite.length < channelCapacity) :
      SendStep tasks (.toTaskWrite event) true
        { tasks with toTaskWrite := tasks.toTaskWrite ++ [event] }
  | toTaskWriteClosed {tasks : PeerTasks} {event : EventsPeer}
      (hended : tasks.writer.hasEnded) :
      SendStep tasks (.toTaskWrite event) false tasks
  | toPeerManager {tasks : PeerTasks} {event : EventsPeer} :
      SendStep tasks (.toPeerManager event) true
        { tasks with forwarded := tasks.forwarded ++ [event] }
  | toPeerManagerClosed {tasks : PeerTasks} {event : EventsPeer} :
      SendStep tasks (.toPeerManager event) false tasks

/-- Steps of the peer itself. -/
inductive PeerStep : PeerTasks → Label → PeerTasks → Prop where
  | command {tasks : PeerTasks} {self : Peer}
      {incident : Option EventsPeerManager}
      (hpeer : tasks.peer = .looping (.done self .next)) :
      PeerStep tasks (.peerCommand incident)
        { tasks with
          peer := .looping (turn (.incidentPeermanager incident) self) }
  | receive {tasks : PeerTasks} {self : Peer} {event : EventsTaskRead}
      {rest : List EventsTaskRead}
      (hpeer : tasks.peer = .looping (.done self .next))
      (hqueue : tasks.fromTaskRead = event :: rest) :
      PeerStep tasks .peerReceive
        { tasks with
          peer := .looping (turn (.incidentTaskRead (some event)) self)
          fromTaskRead := rest }
  | receiveClosed {tasks : PeerTasks} {self : Peer}
      (hpeer : tasks.peer = .looping (.done self .next))
      (hqueue : tasks.fromTaskRead = []) (hended : tasks.reader.hasEnded) :
      PeerStep tasks .peerReceiveClosed
        { tasks with peer := .looping (turn (.incidentTaskRead none) self) }
  | joinReader {tasks : PeerTasks} {self : Peer}
      {result : Except JoinError ResultTaskRead}
      (hpeer : tasks.peer = .looping (.done self .next))
      (hreader : tasks.reader = .ended result) :
      PeerStep tasks .peerJoinReader
        { tasks with peer := .looping (turn (.resultStateTaskRead result) self) }
  | joinWriter {tasks : PeerTasks} {self : Peer}
      {result : Except JoinError ResultTaskWrite}
      (hpeer : tasks.peer = .looping (.done self .next))
      (hwriter : tasks.writer = .ended result) :
      PeerStep tasks .peerJoinWriter
        { tasks with
          peer := .looping (turn (.resultStateTaskWrite result) self) }
  | send {tasks after : PeerTasks} {self : Peer} {send : PeerSend}
      {resume : Bool → PeerTurn} {delivered : Bool}
      (hpeer : tasks.peer = .looping (.issue self send resume))
      (hsend : SendStep tasks send delivered after) :
      PeerStep tasks (.peerSend delivered)
        { after with peer := .looping (resume delivered) }
  | leave {tasks : PeerTasks} {self : Peer}
      {incident : EventsCriticalCompletion}
      (hpeer : tasks.peer = .looping (.done self (.leave incident))) :
      PeerStep tasks .peerLeave
        { tasks with
          peer := .closing incident (shutdownSubtasks self incident) }
  | shutdown {tasks after : PeerTasks} {self : Peer} {send : PeerSend}
      {incident : EventsCriticalCompletion}
      {resume : Bool → Await Peer PeerSend Bool Unit} {delivered : Bool}
      (hpeer : tasks.peer = .closing incident (.issue self send resume))
      (hsend : SendStep tasks send delivered after) :
      PeerStep tasks (.peerSend delivered)
        { after with peer := .closing incident (resume delivered) }
  | finish {tasks : PeerTasks} {self : Peer}
      {incident : EventsCriticalCompletion}
      {read : Except JoinError ResultTaskRead}
      {write : Except JoinError ResultTaskWrite}
      (hpeer : tasks.peer = .closing incident (.done self ()))
      (hread : incident.awaitsTaskRead → tasks.reader = .ended read)
      (hwrite : incident.awaitsTaskWrite → tasks.writer = .ended write) :
      PeerStep tasks .peerReturn
        { tasks with peer := .returned (spawnResult incident read write) }

inductive Step (before : PeerTasks) (label : Label) (after : PeerTasks) :
    Prop where
  | reader (hstep : ReaderStep sha256 before label after)
  | writer (hstep : WriterStep sha256 before label after)
  | peer (hstep : PeerStep before label after)

end Steps

section Frames

variable {sha256 : Bytes → ByteArr 32}
variable {before after : PeerTasks} {label : Label}

/-! ## Steps that leave the reader alone -/

theorem SendStep.frame {send : PeerSend} {delivered : Bool}
    (hstep : SendStep before send delivered after) :
    after.peer = before.peer ∧ after.reader = before.reader ∧
      after.fromTaskRead = before.fromTaskRead ∧
      after.produced = before.produced := by
  cases hstep <;> exact ⟨rfl, rfl, rfl, rfl⟩

theorem WriterStep.frame (hstep : WriterStep sha256 before label after) :
    after.peer = before.peer ∧ after.reader = before.reader ∧
      after.fromTaskRead = before.fromTaskRead ∧
      after.produced = before.produced ∧
      after.forwarded = before.forwarded := by
  cases hstep <;> exact ⟨rfl, rfl, rfl, rfl, rfl⟩

theorem PeerStep.reader_eq (hstep : PeerStep before label after) :
    after.reader = before.reader := by
  cases hstep with
  | send hpeer hsend => exact hsend.frame.2.1
  | shutdown hpeer hsend => exact hsend.frame.2.1
  | _ => rfl

theorem PeerStep.writer_eq (hstep : PeerStep before label after) :
    after.writer = before.writer := by
  cases hstep with
  | send hpeer hsend => cases hsend <;> rfl
  | shutdown hpeer hsend => cases hsend <;> rfl
  | _ => rfl

/-- A peer that has left its loop no longer takes from the reader's channel. -/
theorem PeerStep.fromTaskRead_eq (hstep : PeerStep before label after)
    {incident : EventsCriticalCompletion}
    {sends : Await Peer PeerSend Bool Unit}
    (hclosing : before.peer = .closing incident sends) :
    after.fromTaskRead = before.fromTaskRead := by
  cases hstep with
  | send hpeer hsend => exact hsend.frame.2.2.1
  | shutdown hpeer hsend => exact hsend.frame.2.2.1
  | receive hpeer => simp [hclosing] at hpeer
  | _ => rfl

theorem ReaderStep.peer_eq (hstep : ReaderStep sha256 before label after) :
    after.peer = before.peer := by
  cases hstep <;> rfl

/-! ## Subtasks that have ended -/

theorem Subtask.hasEnded_iff {σ ε ζ ρ : Type} {task : Subtask σ ε ζ ρ} :
    task.hasEnded ↔ ∃ result, task = .ended result := by
  cases task <;> simp [Subtask.hasEnded]

theorem ReaderStep.not_ended (hstep : ReaderStep sha256 before label after) :
    ¬before.reader.hasEnded := by
  intro hended
  obtain ⟨result, hreader⟩ := Subtask.hasEnded_iff.mp hended
  cases hstep <;> simp_all

theorem WriterStep.not_ended (hstep : WriterStep sha256 before label after) :
    ¬before.writer.hasEnded := by
  intro hended
  obtain ⟨result, hwriter⟩ := Subtask.hasEnded_iff.mp hended
  cases hstep <;> simp_all

/-- A subtask that has ended keeps its result. -/
theorem Step.reader_eq (hstep : Step sha256 before label after)
    (hended : before.reader.hasEnded) : after.reader = before.reader := by
  cases hstep with
  | reader hstep => exact absurd hended hstep.not_ended
  | writer hstep => exact hstep.frame.2.1
  | peer hstep => exact hstep.reader_eq

theorem Step.writer_eq (hstep : Step sha256 before label after)
    (hended : before.writer.hasEnded) : after.writer = before.writer := by
  cases hstep with
  | reader hstep => cases hstep <;> rfl
  | writer hstep => exact absurd hended hstep.not_ended
  | peer hstep => exact hstep.writer_eq

/-! ## What a peer does after its loop -/

theorem PeerStep.of_leave (hstep : PeerStep before label after) {self : Peer}
    {incident : EventsCriticalCompletion}
    (hpeer : before.peer = .looping (.done self (.leave incident))) :
    after = { before with
      peer := .closing incident (shutdownSubtasks self incident) } := by
  cases hstep with
  | leave hpeer' =>
      rw [hpeer'] at hpeer
      cases hpeer
      rfl
  | _ => simp_all

/-- A peer that has left its loop goes on with its sends, or returns once the
subtasks it waits for have ended. -/
theorem PeerStep.of_closing (hstep : PeerStep before label after)
    {incident : EventsCriticalCompletion}
    {sends : Await Peer PeerSend Bool Unit}
    (hpeer : before.peer = .closing incident sends) :
    (∃ self send resume delivered sent, sends = .issue self send resume ∧
      SendStep before send delivered sent ∧
      after = { sent with peer := .closing incident (resume delivered) }) ∨
    ∃ read result, (incident.awaitsTaskRead → before.reader = .ended read) ∧
      after = { before with peer := .returned result } := by
  cases hstep with
  | shutdown hpeer' hsend =>
      rw [hpeer'] at hpeer
      cases hpeer
      exact .inl ⟨_, _, _, _, _, rfl, hsend, rfl⟩
  | finish hpeer' hread hwrite =>
      rw [hpeer'] at hpeer
      cases hpeer
      exact .inr ⟨_, _, hread, rfl⟩
  | _ => simp_all

theorem PeerStep.not_gone (hstep : PeerStep before label after) :
    ¬before.gone := by
  rintro ⟨result, hreturned⟩
  cases hstep <;> simp_all

end Frames

/-! ## A frame for concrete runs -/

/-- A reader between two reads with an empty buffer reads one frame. -/
theorem read_plainFrame {tasks : PeerTasks}
    (hreader : tasks.reader = .running (.done [] .next)) :
    Step zeroDigest tasks (.readerRead (.ok plainFrame))
      { tasks with reader := .running (deliverTurn (.version plainVersion)) } := by
  have hturn := startTaskReadTurn_frame zeroDigest
    (sendable_plainVersion plainVersion rfl)
  rw [← hturn]
  refine .reader (.read hreader fun read hread => ?_)
  rw [← Except.ok.inj hread, length_plainFrame]
  decide

/-- A peer in its loop whose reader has put `count` messages into the
channel. -/
def backlog (peer : Peer) (count : ℕ) : PeerTasks :=
  { PeerTasks.initial peer with
    fromTaskRead := List.replicate count (.lowRawMessage (.version plainVersion))
    produced := List.replicate count (.lowRawMessage (.version plainVersion)) }

theorem backlog_succ (peer : Peer) (count : ℕ) :
    backlog peer (count + 1) =
      { backlog peer count with
        fromTaskRead := (backlog peer count).fromTaskRead ++
          [.lowRawMessage (.version plainVersion)]
        produced := (backlog peer count).produced ++
          [.lowRawMessage (.version plainVersion)] } := by
  simp [backlog, List.replicate_succ']

/-- The reader delivers a message that it has read. -/
theorem send_backlog (peer : Peer) (count : ℕ)
    (hcount : count < channelCapacity) :
    Step zeroDigest
      { backlog peer count with
        reader := .running (deliverTurn (.version plainVersion)) }
      .readerSend (backlog peer (count + 1)) := by
  have hopen : ¬(backlog peer count).gone := by
    rintro ⟨result, hreturned⟩
    cases hreturned
  have hroom : (backlog peer count).fromTaskRead.length < channelCapacity := by
    simpa [backlog] using hcount
  rw [backlog_succ]
  exact .reader (@ReaderStep.send _ { backlog peer count with
    reader := .running (deliverTurn (.version plainVersion)) }
    _ _ _ rfl hopen hroom)

theorem backlog_run (peer : Peer) {count : ℕ}
    (hcount : count ≤ channelCapacity) :
    ∃ labels, Run (Step zeroDigest) (.initial peer) labels
      (backlog peer count) := by
  induction count with
  | zero => exact ⟨[], .refl _⟩
  | succ count ih =>
      obtain ⟨labels, run⟩ := ih (by omega)
      exact ⟨_, (run.tail (read_plainFrame rfl)).tail
        (send_backlog peer count (by omega))⟩

end P2PNetwork.PeerSubtasks
