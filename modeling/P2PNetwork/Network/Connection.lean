import P2PNetwork.Network.PeerFlush
import P2PNetwork.Network.PeerInbound

/-!
# Two nodes joined by a connection

A connection has a peer at either end.  What one end reads from its socket are
the first of the bytes that the other end has written to its own; how many
bytes a read yields, and when, is open.
-/

namespace P2PNetwork.Connection

open P2PNetwork.ByteAccess
open P2PNetwork.EventLoop
open P2PNetwork.Events
open P2PNetwork.Framing
open P2PNetwork.PeerActor
open P2PNetwork.PeerInbound
open P2PNetwork.PeerOutbound
open P2PNetwork.StreamSoundness
open P2PNetwork.TaskRead
open P2PNetwork.TaskWrite
open P2PNetwork.Wire

/-! ## What a reader makes of a stream -/

/-- A reader goes no further than the first verack message. -/
def readable : List MessagePayload → List MessagePayload
  | [] => []
  | .version version :: messages => .version version :: readable messages
  | .verack verack :: _ => [.verack verack]

theorem readable_prefix_self (messages : List MessagePayload) :
    readable messages <+: messages := by
  induction messages with
  | nil => exact List.prefix_rfl
  | cons message messages ih =>
      cases message with
      | version version => exact List.cons_prefix_cons.mpr ⟨rfl, ih⟩
      | verack verack => exact ⟨messages, rfl⟩

/-- No message comes after a verack message. -/
theorem readable_verack_last {messages front rest : List MessagePayload}
    {verack : VerackMessage}
    (hreadable : front ++ .verack verack :: rest <+: readable messages) :
    rest = [] := by
  induction messages generalizing front with
  | nil => simp [readable] at hreadable
  | cons message messages ih =>
      cases front with
      | nil =>
          cases message with
          | version version => simp [readable] at hreadable
          | verack verack' =>
              exact List.prefix_nil.mp (List.cons_prefix_cons.mp hreadable).2
      | cons first front =>
          cases message with
          | version version => exact ih (List.cons_prefix_cons.mp hreadable).2
          | verack verack' =>
              have htail := (List.cons_prefix_cons.mp hreadable).2
              simp at htail

theorem decodeFrames_stream (sha256 : Bytes → ByteArr 32)
    {messages : List MessagePayload}
    (hsendable : ∀ message ∈ messages, Sendable message) :
    (decodeFrames sha256 (stream sha256 messages)).1 = readable messages := by
  induction messages with
  | nil => simp [readable]
  | cons message messages ih =>
      have htail := ih fun other hother =>
        hsendable other (List.mem_cons_of_mem _ hother)
      cases message with
      | version version =>
          have hsize := hsendable _ List.mem_cons_self version rfl
          rw [stream_cons, decodeFrames_version_frame sha256 version _ hsize,
            readable, htail]
      | verack verack =>
          obtain ⟨reason, hfault⟩ :=
            rawByteProcessing_zero sha256 (stream sha256 messages)
          rw [stream_cons, decodeFrames_verack_frame sha256 hfault, readable]

/-! ## The two ends -/

inductive Side where
  | dialling
  | accepting
  deriving DecidableEq

def Side.other : Side → Side
  | .dialling => .accepting
  | .accepting => .dialling

/-- A peer with its socket and the bytes it has read from it. -/
structure Endpoint where
  outbound : Outbound
  received : Bytes

abbrev Ends := Side → Endpoint

def Ends.initial (peer : Side → Peer) : Ends := fun side =>
  { outbound := .initial (peer side), received := [] }

/-- The bytes that a step of an end reads. -/
def arriving : OutboundLabel → Bytes
  | .task label => bytesRead label
  | _ => []

section Steps

variable (sha256 : Bytes → ByteArr 32)

/-- A step of one end.  Bytes that are read have been written at the other
end, after those read before. -/
inductive ConnectionStep (before : Ends) : Side × OutboundLabel → Ends → Prop where
  | step {side : Side} {label : OutboundLabel} {outbound : Outbound}
      (hstep : OutboundStep sha256 (before side).outbound label outbound)
      (harrive : arriving label ≠ [] →
        (before side).received ++ arriving label <+:
          (before side.other).outbound.written) :
      ConnectionStep before (side, label)
        (Function.update before side
          { outbound, received := (before side).received ++ arriving label })

variable {sha256} {peer : Side → Peer} {before after last : Ends}
variable {label : Side × OutboundLabel} {labels : List (Side × OutboundLabel)}

/-! ## One end of a run -/

/-- A step of the connection is a step of one end. -/
theorem ConnectionStep.outbound (hstep : ConnectionStep sha256 before label after)
    (side : Side) :
    (after side).outbound = (before side).outbound ∧
        (after side).received = (before side).received ∨
      OutboundStep sha256 (before side).outbound label.2 (after side).outbound ∧
        (after side).received = (before side).received ++ arriving label.2 := by
  cases hstep with
  | @step moved label outbound hstep harrive =>
      by_cases hside : side = moved
      · obtain rfl := hside
        rw [Function.update_self]
        exact .inr ⟨hstep, rfl⟩
      · rw [Function.update_of_ne hside]
        exact .inl ⟨rfl, rfl⟩

theorem outbound_run (run : Run (ConnectionStep sha256) (.initial peer) labels last)
    (side : Side) :
    ∃ own, Run (OutboundStep sha256) (.initial (peer side)) own
      (last side).outbound := by
  induction run with
  | refl => exact ⟨[], .refl _⟩
  | tail run last_step ih =>
      obtain ⟨own, hown⟩ := ih
      obtain ⟨hsame, -⟩ | ⟨hstep, -⟩ := last_step.outbound side
      · exact ⟨own, hsame ▸ hown⟩
      · exact ⟨_, hown.tail hstep⟩

/-- What is on the socket has been put into the peer's channel. -/
theorem written_mono {self : Peer} {state : Outbound} {own : List OutboundLabel}
    (run : Run (OutboundStep sha256) (.initial self) own state) :
    state.written <+: stream sha256 (lowMessages state.enqueued) := by
  rw [(controlled_run run).queue, lowMessages_append, stream_append]
  apply List.IsPrefix.trans ?_ (List.prefix_append _ _)
  obtain hflowing | ⟨hbroken, -⟩ := flowing_or_broken run
  · exact ⟨_, hflowing.bytes⟩
  · exact hbroken.bytes

theorem OutboundStep.written_mono {state next : Outbound} {label : OutboundLabel}
    (hstep : OutboundStep sha256 state label next) :
    state.written <+: next.written := by
  cases hstep with
  | accept => exact List.prefix_append _ _
  | _ => exact List.prefix_rfl

/-- An end moves its tasks, or leaves them alone and reads nothing. -/
theorem OutboundStep.tasks {state next : Outbound} {label : OutboundLabel}
    (hstep : OutboundStep sha256 state label next) :
    next.tasks = state.tasks ∧ arriving label = [] ∨
      ∃ own, PeerSubtasks.Step sha256 state.tasks own next.tasks ∧
        bytesRead own = arriving label := by
  cases hstep with
  | enqueue | dropSender | accept => exact .inl ⟨rfl, rfl⟩
  | command _ hstep => exact .inr ⟨_, hstep, rfl⟩
  | commandClosed _ _ hstep => exact .inr ⟨_, hstep, rfl⟩
  | write _ _ hstep => exact .inr ⟨_, hstep, rfl⟩
  | writeFail hstep => exact .inr ⟨_, hstep, rfl⟩
  | task _ _ hstep => exact .inr ⟨_, hstep, rfl⟩

/-! ## The connection -/

/-- Both ends have read from the other end only, and passed on what they have
read only. -/
structure Joined (sha256 : Bytes → ByteArr 32) (peer : Side → Peer)
    (ends : Ends) : Prop where
  arrived : ∀ side, (ends side).received <+: (ends side.other).outbound.written
  inbound : ∀ side, ∃ past, past.received = (ends side).received ∧
    Inbound sha256 (peer side) past (ends side).outbound.tasks

theorem Joined.initial (peer : Side → Peer) : Joined sha256 peer (.initial peer) where
  arrived _ := List.prefix_rfl
  inbound side := ⟨{}, rfl, .initial (peer side)⟩

theorem ConnectionStep.arrived (hstep : ConnectionStep sha256 before label after)
    (hbefore : ∀ side,
      (before side).received <+: (before side.other).outbound.written)
    (side : Side) :
    (after side).received <+: (after side.other).outbound.written := by
  have hwritten : (before side.other).outbound.written <+:
      (after side.other).outbound.written := by
    obtain ⟨hsame, -⟩ | ⟨hmove, -⟩ := hstep.outbound side.other
    · rw [hsame]
    · exact OutboundStep.written_mono hmove
  apply List.IsPrefix.trans ?_ hwritten
  cases hstep with
  | @step moved label outbound hmove harrive =>
      by_cases hside : side = moved
      · obtain rfl := hside
        rw [Function.update_self]
        by_cases hquiet : arriving label = []
        · simpa [hquiet] using hbefore side
        · exact harrive hquiet
      · rw [Function.update_of_ne hside]
        exact hbefore side

theorem Joined.step (hjoined : Joined sha256 peer before)
    (hstep : ConnectionStep sha256 before label after) :
    Joined sha256 peer after where
  arrived := hstep.arrived hjoined.arrived
  inbound side := by
    obtain ⟨past, hreceived, hinbound⟩ := hjoined.inbound side
    obtain ⟨hsame, hsame'⟩ | ⟨hmove, hread⟩ := hstep.outbound side
    · exact ⟨past, hreceived.trans hsame'.symm, hsame ▸ hinbound⟩
    · obtain ⟨hquiet, hnone⟩ | ⟨own, hown, hbytes⟩ := OutboundStep.tasks hmove
      · rw [hnone, List.append_nil] at hread
        exact ⟨past, hreceived.trans hread.symm, hquiet ▸ hinbound⟩
      · obtain ⟨past', hinbound', hreceived'⟩ := hinbound.step hown
        rw [hbytes, hreceived] at hreceived'
        exact ⟨past', hreceived'.trans hread.symm, hinbound'⟩

theorem joined_run (run : Run (ConnectionStep sha256) (.initial peer) labels last) :
    Joined sha256 peer last :=
  run.invariant (Joined sha256 peer) (.initial peer) fun _ _ _ hbefore hstep =>
    hbefore.step hstep

/-- What an end has passed on are the first of the messages that can be read
from what the other end sends. -/
theorem forwarded_prefix_readable
    (run : Run (ConnectionStep sha256) (.initial peer) labels last) (side : Side)
    (hsendable : ∀ message ∈ lowMessages (last side.other).outbound.enqueued,
      Sendable message) :
    (last side).outbound.tasks.forwarded <+:
      (readable (lowMessages (last side.other).outbound.enqueued)).map
        (.readyLowMessage (peer side).peerid) := by
  have hjoined := joined_run run
  obtain ⟨past, hreceived, hinbound⟩ := hjoined.inbound side
  obtain ⟨own, hown⟩ := outbound_run run side.other
  have hstream : past.received <+:
      stream sha256 (lowMessages (last side.other).outbound.enqueued) := by
    rw [hreceived]
    exact (hjoined.arrived side).trans (written_mono hown)
  rw [← decodeFrames_stream sha256 hsendable]
  exact hinbound.forwarded_prefix hstream

end Steps

/-! ## A verack message -/

theorem sendable_verack :
    ∀ message ∈ lowMessages [.readyLowMessage (.verack {})], Sendable message := by
  intro message hmessage version heq
  simp [lowMessages, heq] at hmessage

/-- A step that reads nothing. -/
theorem ConnectionStep.quiet {sha256 : Bytes → ByteArr 32} {before : Ends}
    {side : Side} {label : OutboundLabel} {outbound : Outbound}
    (hstep : OutboundStep sha256 (before side).outbound label outbound)
    (hquiet : arriving label = []) :
    ConnectionStep sha256 before (side, label)
      (Function.update before side
        { outbound, received := (before side).received ++ arriving label }) :=
  .step hstep fun harrive => absurd hquiet harrive

/-- A verack message goes from one end to the other. -/
theorem verack_run : ∃ labels last,
    Run (ConnectionStep zeroDigest) (.initial fun _ => loopbackPeer) labels last ∧
      (last .dialling).outbound.enqueued = [.readyLowMessage (.verack {})] ∧
      (last .accepting).outbound.tasks.forwarded =
        [.readyLowMessage loopbackPeer.peerid (.verack {})] := by
  have hopen : ¬(PeerSubtasks.PeerTasks.initial loopbackPeer).gone := by
    rintro ⟨result, hreturned⟩
    cases hreturned
  have hsent := (((Run.refl (Ends.initial fun _ => loopbackPeer)).tail
    (@ConnectionStep.quiet zeroDigest _ .dialling
      (.enqueue (.readyLowMessage (.verack {}))) _
      (.enqueue rfl hopen (by decide)) rfl)).tail
    (@ConnectionStep.quiet zeroDigest _ .dialling _ _
      (.command rfl (.peer (.command rfl))) rfl)).tail
    (@ConnectionStep.quiet zeroDigest _ .dialling (.task (.peerSend true)) _
      (.task (by simp) (by simp) (.peer (.send rfl (.toTaskWrite id (by decide)))))
      rfl)
  have hheader := ((hsent.tail
    (@ConnectionStep.quiet zeroDigest _ .dialling (.task .writerTake) _
      (.task (by simp) (by simp) (.writer (.take rfl rfl))) rfl)).tail
    (@ConnectionStep.quiet zeroDigest _ .dialling _ _
      (.accept rfl (Nat.zero_add _).le) rfl)).tail
    (@ConnectionStep.quiet zeroDigest _ .dialling _ _
      (.write rfl (Nat.zero_add _) (.writer (.write rfl))) rfl)
  have hpayload := (hheader.tail
    (@ConnectionStep.quiet zeroDigest _ .dialling _ _
      (.accept rfl (Nat.zero_add _).le) rfl)).tail
    (@ConnectionStep.quiet zeroDigest _ .dialling _ _
      (.write rfl (Nat.zero_add _) (.writer (.write rfl))) rfl)
  -- The payload byte of the frame stays in the reader's buffer.
  have hturn : startTaskReadTurn zeroDigest
      (.resultRead (.ok (frame zeroDigest (.verack {})))) [] =
        .issue [0] (.lowRawMessage (.verack {})) fun delivered =>
          if delivered then .done [0] .next
          else .done [0] (.leave (.error .errorChannelPeerClosed)) :=
    @startTaskReadTurn_of_some zeroDigest [] _ _ _ _ (by decide)
      (rawByteProcessing_verack_header zeroDigest [0]) (by decide) rfl
  have hread := hpayload.tail
    (@ConnectionStep.step zeroDigest _ .accepting
      (.task (.readerRead (.ok (frame zeroDigest (.verack {}))))) _
      (.task (by simp) (by simp) (.reader (.read rfl (by
        rintro read ⟨⟩
        decide)))) (fun _ => ⟨[], rfl⟩))
  simp only [hturn] at hread
  have hpassed := ((hread.tail
    (@ConnectionStep.quiet zeroDigest _ .accepting (.task .readerSend) _
      (.task (by simp) (by simp) (.reader (.send rfl hopen (by decide)))) rfl)).tail
    (@ConnectionStep.quiet zeroDigest _ .accepting (.task .peerReceive) _
      (.task (by simp) (by simp) (.peer (.receive rfl rfl))) rfl)).tail
    (@ConnectionStep.quiet zeroDigest _ .accepting (.task (.peerSend true)) _
      (.task (by simp) (by simp) (.peer (.send rfl .toPeerManager))) rfl)
  exact ⟨_, _, hpassed, rfl, rfl⟩

/-! ## What arrives -/

section Runs

variable {sha256 : Bytes → ByteArr 32} {peer : Side → Peer} {last : Ends}
variable {labels : List (Side × OutboundLabel)}

/-- In every interleaving of the two ends, whatever the reads and however the
channels fill: what an end passes on to its `PeerManager` are the first of the
messages that the `PeerManager` at the other end has sent, in order. -/
theorem forwarded_prefix_enqueued
    (run : Run (ConnectionStep sha256) (.initial peer) labels last) (side : Side)
    (hsendable : ∀ message ∈ lowMessages (last side.other).outbound.enqueued,
      Sendable message) :
    (last side).outbound.tasks.forwarded <+:
      (lowMessages (last side.other).outbound.enqueued).map
        (.readyLowMessage (peer side).peerid) :=
  (forwarded_prefix_readable run side hsendable).trans
    ((readable_prefix_self _).map _)

theorem forwarded_prefix_enqueued_verack : ∃ labels last,
    Run (ConnectionStep zeroDigest) (.initial fun _ => loopbackPeer) labels last ∧
      (last .accepting).outbound.tasks.forwarded <+:
        [.readyLowMessage loopbackPeer.peerid (.verack {})] := by
  obtain ⟨labels, last, run, hsent, -⟩ := verack_run
  have hprefix := forwarded_prefix_enqueued run .accepting
    (hsent ▸ sendable_verack)
  exact ⟨labels, last, run, by rwa [Side.other, hsent] at hprefix⟩

/-- An end that has passed on a verack message never passes on anything
again. -/
theorem forwarded_verack_last
    (run : Run (ConnectionStep sha256) (.initial peer) labels last) (side : Side)
    (hsendable : ∀ message ∈ lowMessages (last side.other).outbound.enqueued,
      Sendable message)
    {front rest : List EventsPeer} {verack : VerackMessage}
    (hforwarded : (last side).outbound.tasks.forwarded =
      front ++ .readyLowMessage (peer side).peerid (.verack verack) :: rest) :
    rest = [] := by
  have hprefix := forwarded_prefix_readable run side hsendable
  rw [hforwarded] at hprefix
  obtain ⟨messages, hmessages, heq⟩ := List.prefix_map_iff.mp hprefix
  obtain ⟨earlier, later, rfl, -, hlater⟩ := List.map_eq_append_iff.mp heq.symm
  obtain ⟨message, others, rfl, hmessage, rfl⟩ := List.map_eq_cons_iff.mp hlater
  cases hmessage
  rw [readable_verack_last hmessages, List.map_nil]

theorem forwarded_verack_last_verack : ∃ labels last,
    Run (ConnectionStep zeroDigest) (.initial fun _ => loopbackPeer) labels last ∧
      ∃ rest, (last .accepting).outbound.tasks.forwarded =
        .readyLowMessage loopbackPeer.peerid (.verack {}) :: rest ∧ rest = [] := by
  obtain ⟨labels, last, run, hsent, hforwarded⟩ := verack_run
  exact ⟨labels, last, run, [], hforwarded,
    @forwarded_verack_last _ _ _ _ run .accepting (hsent ▸ sendable_verack) [] _ _
      hforwarded⟩

end Runs

end P2PNetwork.Connection
