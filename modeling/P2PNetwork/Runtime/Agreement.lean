import P2PNetwork.Runtime.Cluster

/-!
# Agreement of the nodes

Between two `HandleMessage` tasks a message passes ten channels, tasks and
sockets.  What is heard at one side is still what was sent at the other, and a
completed handshake means that both sides have seen the version message of the
other.
-/

namespace P2PNetwork.Runtime

open P2PNetwork.ByteAccess
open P2PNetwork.Connection (Endpoint arriving)
open P2PNetwork.EventLoop
open P2PNetwork.Events
open P2PNetwork.Framing
open P2PNetwork.Handler
open P2PNetwork.Handshake
open P2PNetwork.Manager
open P2PNetwork.PeerOutbound (Outbound OutboundLabel OutboundStep)
open P2PNetwork.PeerSubtasks (PeerTasks)
open P2PNetwork.TaskRead
open P2PNetwork.TaskWrite
open P2PNetwork.Wire

/-! ## Handshakes -/

/-- What a node says on a connection over its whole life. -/
def opening (version : VersionMessage) : List MessagePayload :=
  [.version version, .verack VerackMessage.buildVerackMessage]

section Openings

variable {messages : List MessagePayload} {version : VersionMessage}

theorem eq_opening_of_hasVerack (hbegins : messages <+: opening version)
    (hverack : HasVerack messages) : messages = opening version := by
  obtain ⟨verack, hmem⟩ := hverack
  rcases messages with _ | ⟨first, _ | ⟨second, rest⟩⟩
  · cases hmem
  · obtain ⟨rfl, -⟩ := List.cons_prefix_cons.mp hbegins
    cases List.mem_singleton.mp hmem
  · exact hbegins.eq_of_length_le (by simp [opening])

theorem version_prefix_of_hasVersion (hbegins : messages <+: opening version)
    (hversion : HasVersion messages) : [.version version] <+: messages := by
  obtain ⟨other, hmem⟩ := hversion
  cases messages with
  | nil => cases hmem
  | cons first rest =>
      obtain ⟨rfl, -⟩ := List.cons_prefix_cons.mp hbegins
      exact ⟨rest, rfl⟩

/-- Everything has been said to a peer that has been answered. -/
theorem eq_opening_of_stage {context : PeerContextMetadata}
    {state : PeerStateMetadata} (hstage : Stage context state messages)
    (hverack : state.sendVerack = true) :
    ∃ version, BuiltFor context version ∧ messages = opening version := by
  cases hstage with
  | silent _ hunsent => cases hunsent.symm.trans hverack
  | greeted _ hunsent => cases hunsent.symm.trans hverack
  | answered _ _ hbuilt => exact ⟨_, hbuilt, rfl⟩

/-- The entries go with the conversations at every point where another task can
run. -/
theorem Conversing.entries {nonce : UInt64} {reached : Recorded}
    (hconversing : Conversing nonce reached) :
    Entries reached.1.1.owners.state
      (Converses reached.known reached.sent reached.heard)
      reached.1.1.handle.state := by
  have hkeeps := hconversing.conversations
  cases hhandle : reached.1.1.handle with
  | done self flow =>
      rw [hhandle] at hkeeps
      simpa [KeepsConversations, Await.Holds] using hkeeps
  | issue self event resume =>
      rw [hhandle] at hkeeps
      simpa [KeepsConversations] using hkeeps.1.1

end Openings

/-! ## A handshake between two nodes -/

section Tails

variable {N : Type} [DecidableEq N] {sha256 : Bytes → ByteArr 32}
variable {wiring : Wiring N} {first cluster : Cluster N}
variable {labels : List (N × HostLabel)} {label : Label} {after : System}
variable {task : TaskId} {own : OutboundLabel} {endpoint : Endpoint}
variable {outbound : Outbound}

/-- What is recorded of a node after a step. -/
def Host.recording (host : Host) (label : Label) (after : System) : Recorded :=
  ((after, host.recorded.1.2.after host.system label),
    host.recorded.2.after host.system label)

theorem tail_node (node : N)
    (run : Run (ClusterStep sha256 wiring) first labels cluster)
    (hstep : Step (cluster node).system label after)
    (hfresh : FreshConnection (cluster node).system label)
    (hapart : Apart (cluster node).system label after) :
    Run (ClusterStep sha256 wiring) first (labels ++ [(node, .node label)])
      (Function.update cluster node
        { recorded := (cluster node).recording label after
          ends := (cluster node).opened label }) :=
  run.tail (.step (.node ⟨⟨⟨hfresh, hstep⟩, rfl⟩, rfl⟩ hapart) trivial)

theorem tail_joint (node : N)
    (run : Run (ClusterStep sha256 wiring) first labels cluster)
    (hstep : Step (cluster node).system label after)
    (hfresh : FreshConnection (cluster node).system label)
    (hend : (cluster node).ends task = some endpoint)
    (hmove : OutboundStep sha256 endpoint.outbound own outbound)
    (hmeets : Meets (cluster node).system after task endpoint.outbound.tasks
      outbound.tasks label own) :
    Run (ClusterStep sha256 wiring) first (labels ++ [(node, .joint label task own)])
      (Function.update cluster node
        { recorded := (cluster node).recording label after
          ends := (cluster node).moveEnd task endpoint own outbound }) :=
  run.tail (.step (.joint ⟨⟨⟨hfresh, hstep⟩, rfl⟩, rfl⟩ hend hmove hmeets) trivial)

theorem tail_inside (node : N) (task : TaskId)
    (run : Run (ClusterStep sha256 wiring) first labels cluster)
    (hend : (cluster node).ends task = some endpoint)
    (hmove : OutboundStep sha256 endpoint.outbound own outbound)
    (hinside : Inside (cluster node).system task endpoint.outbound.tasks own)
    (harrives : cluster.Arrives wiring node (.inside task own)) :
    Run (ClusterStep sha256 wiring) first (labels ++ [(node, .inside task own)])
      (Function.update cluster node { (cluster node) with
        ends := (cluster node).moveEnd task endpoint own outbound }) :=
  run.tail (.step (.inside hend hmove hinside) harrives)

/-- A step that the node does not see, and that reads nothing. -/
structure Quiet (own : OutboundLabel) : Prop where
  inside : ∀ system task tasks, Inside system task tasks own
  arriving_eq : arriving own = []

/-- Quiet steps of an end are steps of the cluster. -/
theorem tail_quiet (node : N) (task : TaskId) {own : List OutboundLabel}
    (run : Run (ClusterStep sha256 wiring) first labels cluster)
    (hend : (cluster node).ends task = some endpoint)
    (hmoves : Run (OutboundStep sha256) endpoint.outbound own outbound)
    (hquiet : ∀ label ∈ own, Quiet label) :
    Run (ClusterStep sha256 wiring) first
      (labels ++ own.map fun label => (node, .inside task label))
      (Function.update cluster node { (cluster node) with
        ends := Function.update (cluster node).ends task
          (some { endpoint with outbound }) }) := by
  induction hmoves with
  | refl => simpa [← hend] using run
  | @tail middle last own label hmoves hmove ih =>
      have hlast := hquiet label (by simp)
      have hearlier := ih fun other hother => hquiet other (by simp [hother])
      have hstep := tail_inside node task hearlier (by simp; rfl) hmove
        (hlast.inside _ _ _) fun harrive => absurd hlast.arriving_eq harrive
      simpa [Host.moveEnd, hlast.arriving_eq] using hstep

end Tails

section Writing

variable {sha256 : Bytes → ByteArr 32}

/-- The writer can put its pieces onto the socket. -/
theorem writes_all (pieces : List Bytes) (before : Outbound)
    (hwriter : before.tasks.writer = .running (writeAll pieces))
    (hprogress : before.progress = 0) :
    ∃ own, (∀ label ∈ own, Quiet label) ∧ Run (OutboundStep sha256) before own
      { before with
        tasks := { before.tasks with writer := .running (.done () .next) }
        written := before.written ++ pieces.flatten
        progress := 0 } := by
  induction pieces generalizing before with
  | nil =>
      refine ⟨[], nofun, ?_⟩
      rw [List.flatten_nil, List.append_nil, ← hprogress,
        show (.done () .next : WriteTurn) = writeAll [] from rfl, ← hwriter]
      exact .refl before
  | cons piece pieces ih =>
      have haccept : OutboundStep sha256 before (.accept piece.length)
          { before with
            written := before.written ++ piece
            progress := piece.length } := by
        have hroom : before.progress + piece.length ≤ piece.length := by
          rw [hprogress, Nat.zero_add]
        simpa [hprogress] using @OutboundStep.accept sha256 _ _ _ _ hwriter hroom
      have hwrite := @OutboundStep.write sha256
        { before with
          written := before.written ++ piece
          progress := piece.length } _ _ _ hwriter rfl (.writer (.write hwriter))
      obtain ⟨own, hquiet, hmoves⟩ := ih
        { before with
          tasks := { before.tasks with writer := .running (writeAll pieces) }
          written := before.written ++ piece
          progress := 0 } rfl rfl
      rw [List.append_assoc] at hmoves
      refine ⟨_, ?_, (hmoves.head hwrite).head haccept⟩
      rintro label (_ | ⟨_, _ | ⟨_, hlabel⟩⟩)
      · exact ⟨fun _ _ _ => .accept _, rfl⟩
      · exact ⟨fun _ _ _ => .write _, rfl⟩
      · exact hquiet label hlabel

/-- The writer can take up a message and put its frame onto the socket. -/
theorem writes_frame {message : MessagePayload} {rest : List EventsPeer}
    {before : Outbound} (hwriter : before.tasks.writer = .running (.done () .next))
    (hqueue : before.tasks.toTaskWrite = .lowLevelMessage message :: rest)
    (hprogress : before.progress = 0) :
    ∃ own, (∀ label ∈ own, Quiet label) ∧ Run (OutboundStep sha256) before own
      { before with
        tasks := { before.tasks with
          writer := .running (.done () .next)
          toTaskWrite := rest }
        written := before.written ++ frame sha256 message
        progress := 0 } := by
  obtain ⟨own, hquiet, hmoves⟩ := @writes_all sha256 (frameWrites sha256 message)
    { before with
      tasks := { before.tasks with
        writer := .running (startTaskWriteTurn sha256 (some (.lowLevelMessage message)))
        toTaskWrite := rest } } rfl hprogress
  refine ⟨_, ?_, hmoves.head
    (.task (by simp) (by simp) (.writer (.take hwriter hqueue)))⟩
  rintro label (_ | ⟨_, hlabel⟩)
  · exact ⟨fun _ _ _ => .subtask trivial, rfl⟩
  · exact hquiet label hlabel

/-- A node puts the frame of a queued message onto the socket. -/
theorem tail_written {N : Type} [DecidableEq N] {wiring : Wiring N}
    {first cluster : Cluster N} {labels : List (N × HostLabel)} {endpoint : Endpoint}
    {message : MessagePayload} {rest : List EventsPeer} (node : N) (task : TaskId)
    (run : Run (ClusterStep sha256 wiring) first labels cluster)
    (hend : (cluster node).ends task = some endpoint)
    (hwriter : endpoint.outbound.tasks.writer = .running (.done () .next))
    (hqueue : endpoint.outbound.tasks.toTaskWrite = .lowLevelMessage message :: rest)
    (hprogress : endpoint.outbound.progress = 0) :
    ∃ labels, Run (ClusterStep sha256 wiring) first labels
      (Function.update cluster node { (cluster node) with
        ends := Function.update (cluster node).ends task (some { endpoint with
          outbound := { endpoint.outbound with
            tasks := { endpoint.outbound.tasks with
              writer := .running (.done () .next)
              toTaskWrite := rest }
            written := endpoint.outbound.written ++ frame sha256 message
            progress := 0 } }) }) := by
  obtain ⟨own, hquiet, hmoves⟩ := @writes_frame sha256 _ _ _ hwriter hqueue hprogress
  exact ⟨_, tail_quiet node task run hend hmoves hquiet⟩

end Writing

section Reading

variable {tasks : PeerTasks}

/-- The reader takes a whole version frame. -/
theorem reads_version {version : VersionMessage}
    (hreader : tasks.reader = .running (.done [] .next))
    (hlength : version.serializeVersionMessage.length = 114) :
    PeerSubtasks.ReaderStep zeroDigest tasks
      (.readerRead (.ok (frame zeroDigest (.version version))))
      { tasks with reader := .running (deliverTurn (.version version)) } := by
  have hsize : version.serializeVersionMessage.length ≤ maxSizePayload := by
    rw [hlength]
    decide
  rw [← @startTaskReadTurn_frame zeroDigest version hsize]
  refine .read hreader ?_
  rintro read ⟨⟩
  rw [frame_eq]
  simp [payloadBytes, hlength, temporaryBufferSize]

/-- The reader takes a whole verack frame, and the payload byte stays. -/
theorem reads_verack (hreader : tasks.reader = .running (.done [] .next)) :
    PeerSubtasks.ReaderStep zeroDigest tasks
      (.readerRead (.ok (frame zeroDigest (.verack {}))))
      { tasks with
        reader := .running (.issue [0] (.lowRawMessage (.verack {})) fun delivered =>
          if delivered then .done [0] .next
          else .done [0] (.leave (.error .errorChannelPeerClosed))) } := by
  have hturn : startTaskReadTurn zeroDigest
      (.resultRead (.ok (frame zeroDigest (.verack {})))) [] =
        .issue [0] (.lowRawMessage (.verack {})) fun delivered =>
          if delivered then .done [0] .next
          else .done [0] (.leave (.error .errorChannelPeerClosed)) :=
    @startTaskReadTurn_of_some zeroDigest [] _ _ _ _ (by decide)
      (rawByteProcessing_verack_header zeroDigest [0]) (by decide) rfl
  rw [← hturn]
  refine .read hreader ?_
  rintro read ⟨⟩
  decide

end Reading

/-- The first connections of two nodes belong together. -/
def paired : Wiring Bool where
  far place := if place.2 = 0 then some (!place.1, 0) else none
  symm here there hfar := by
    obtain ⟨node, task⟩ := here
    by_cases htask : task = 0
    · rw [if_pos htask, Option.some.injEq] at hfar
      simp [← hfar, htask]
    · rw [if_neg htask] at hfar
      cases hfar

/-- The version message of a node on the loopback connection. -/
def loopbackVersion : VersionMessage where
  version := 70001
  services := 1
  timestamp := 0
  netAddrTo := {
    services := 1
    ip := VersionMessage.addressBytes loopback.ip
    port := loopback.port }
  netAddrFrom := {
    services := 1
    ip := VersionMessage.addressBytes loopback.ip
    port := loopback.port }
  nonce := 0
  userAgent := { data := userAgentName }
  startHeight := 0
  relay := true

def loopbackDialled : ManagerInput :=
  .incidentThreadNetwork (.ok loopbackSocket)
    (some (.outgoingConnection loopback))

theorem freshConnection_initial (input : ManagerInput) :
    FreshConnection (.initial 0) (.managerTake input) := by
  intro accepts
  constructor <;> simp [System.initial, ManagerPhase.registry, PeerManager.create]

/-- Two nodes complete a handshake. -/
theorem handshake_run : ∃ labels cluster,
    Run (ClusterStep zeroDigest paired) (.initial fun _ => 0) labels cluster ∧
      cluster.heard (true, 0) = opening loopbackVersion ∧
      (cluster true).system.owners.state 1 = some 0 ∧
      ∃ context state,
        (cluster true).system.handle.state.setContextPeers.lookup 1 = some context ∧
        (cluster true).system.handle.state.setStatePeers.lookup 1 = some state ∧
        state.completedHandshake = true := by
  -- The first node dials, and its version message goes onto the socket.
  have dialled := @tail_node Bool _ zeroDigest paired _ _ _ _ _ true
    (Run.refl (Cluster.initial fun _ => 0))
    (.manager (@ManagerStep.take _ _ loopbackDialled rfl trivial))
    (freshConnection_initial loopbackDialled) trivial
  have announced := tail_node true dialled
    (.manager (.send rfl not_false (Nat.zero_lt_succ _))) trivial
    (by rintro task event ⟨⟩)
  have greeting := tail_node true announced
    (.handle (.peermanager rfl rfl (.ok 0))) trivial trivial
  have greeted := tail_node true greeting
    (.handle (.send rfl not_false (Nat.zero_lt_succ _))) trivial trivial
  have greetingTaken := tail_node true greeted
    (.manager (.protocol rfl rfl)) trivial trivial
  have greetingRouted := tail_joint true greetingTaken
    (.manager (.send rfl not_false (Nat.zero_lt_succ _))) trivial rfl
    (.enqueue rfl (by rintro ⟨_, ⟨⟩⟩) (by decide))
    (.send rfl)
  have greetingCommanded := tail_joint true greetingRouted
    (.peer (@PeerStep.command _ 0 _ _ _ rfl rfl)) trivial rfl
    (.command rfl (.peer (.command rfl)))
    (.command rfl)
  have greetingHanded := tail_joint true greetingCommanded
    (.peer (@PeerStep.write _ 0 _ _ _ rfl true)) trivial rfl
    (.task (by simp) (by simp) (.peer (.send rfl (.toTaskWrite id (by decide)))))
    (.write true)
  obtain ⟨_, greetingDone⟩ := tail_written true 0 greetingHanded rfl rfl rfl rfl
  -- The second node accepts, and hears the version message.
  have accepted := tail_node false greetingDone
    (.manager (@ManagerStep.take _ _ loopbackConnection rfl trivial))
    (freshConnection_initial loopbackConnection) trivial
  have introduced := tail_node false accepted
    (.manager (.send rfl not_false (Nat.zero_lt_succ _))) trivial
    (by rintro task event ⟨⟩)
  have waiting := tail_node false introduced
    (.handle (.peermanager rfl rfl (.ok 0))) trivial trivial
  have greetingRead := tail_inside false 0 waiting rfl
    (.task (by simp) (by simp) (.reader (@reads_version _ loopbackVersion rfl rfl)))
    (.subtask trivial) (by
      rintro - there ⟨⟩
      exact ⟨_, _, rfl, rfl, List.prefix_rfl⟩)
  have greetingDecoded := tail_inside false 0 greetingRead rfl
    (.task (by simp) (by simp)
      (.reader (.send rfl (by rintro ⟨_, ⟨⟩⟩) (by decide))))
    (.subtask trivial) fun harrive => absurd rfl harrive
  have greetingReceived := tail_joint false greetingDecoded
    (.peer (@PeerStep.subtask _ 0 _
      (.incidentTaskRead (some (.lowRawMessage (.version loopbackVersion))))
      rfl trivial)) trivial rfl
    (.task (by simp) (by simp) (.peer (.receive rfl rfl)))
    (.receive rfl)
  have greetingPassed := tail_joint false greetingReceived
    (.peer (@PeerStep.send _ 0 _ _ _ rfl not_false (by decide))) trivial rfl
    (.task (by simp) (by simp) (.peer (.send rfl .toPeerManager)))
    (.forward true)
  have greetingReported := tail_node false greetingPassed
    (.manager (.peer rfl rfl)) trivial trivial
  have greetingDelivered := tail_node false greetingReported
    (.manager (.send rfl not_false (Nat.zero_lt_succ _))) trivial
    (by rintro task event ⟨⟩)
  have answering := tail_node false greetingDelivered
    (.handle (.peermanager rfl rfl (.ok 0))) trivial trivial
  -- It answers with its own version message and a verack.
  have answered := tail_node false answering
    (.handle (.send rfl not_false (Nat.zero_lt_succ _))) trivial trivial
  have confirmed := tail_node false answered
    (.handle (.send rfl not_false (Nat.one_lt_succ_succ _))) trivial trivial
  have answerTaken := tail_node false confirmed
    (.manager (.protocol rfl rfl)) trivial trivial
  have answerRouted := tail_joint false answerTaken
    (.manager (.send rfl not_false (Nat.zero_lt_succ _))) trivial rfl
    (.enqueue rfl (by rintro ⟨_, ⟨⟩⟩) (by decide))
    (.send rfl)
  have verackTaken := tail_node false answerRouted
    (.manager (.protocol rfl rfl)) trivial trivial
  have verackRouted := tail_joint false verackTaken
    (.manager (.send rfl not_false (Nat.one_lt_succ_succ _))) trivial rfl
    (.enqueue rfl (by rintro ⟨_, ⟨⟩⟩) (by decide))
    (.send rfl)
  have answerCommanded := tail_joint false verackRouted
    (.peer (@PeerStep.command _ 0 _ _ _ rfl rfl)) trivial rfl
    (.command rfl (.peer (.command rfl)))
    (.command rfl)
  have answerHanded := tail_joint false answerCommanded
    (.peer (@PeerStep.write _ 0 _ _ _ rfl true)) trivial rfl
    (.task (by simp) (by simp) (.peer (.send rfl (.toTaskWrite id (by decide)))))
    (.write true)
  have verackCommanded := tail_joint false answerHanded
    (.peer (@PeerStep.command _ 0 _ _ _ rfl rfl)) trivial rfl
    (.command rfl (.peer (.command rfl)))
    (.command rfl)
  have verackHanded := tail_joint false verackCommanded
    (.peer (@PeerStep.write _ 0 _ _ _ rfl true)) trivial rfl
    (.task (by simp) (by simp) (.peer (.send rfl (.toTaskWrite id (by decide)))))
    (.write true)
  obtain ⟨_, answerDone⟩ := tail_written false 0 verackHanded rfl rfl rfl rfl
  obtain ⟨_, verackDone⟩ := tail_written false 0 answerDone rfl rfl rfl rfl
  -- The first node hears both, and its handshake is completed.
  have answerRead := tail_inside true 0 verackDone rfl
    (.task (by simp) (by simp) (.reader (@reads_version _ loopbackVersion rfl rfl)))
    (.subtask trivial) (by
      rintro - there ⟨⟩
      exact ⟨_, _, rfl, rfl, List.prefix_append _ _⟩)
  have answerDecoded := tail_inside true 0 answerRead rfl
    (.task (by simp) (by simp)
      (.reader (.send rfl (by rintro ⟨_, ⟨⟩⟩) (by decide))))
    (.subtask trivial) fun harrive => absurd rfl harrive
  have answerReceived := tail_joint true answerDecoded
    (.peer (@PeerStep.subtask _ 0 _
      (.incidentTaskRead (some (.lowRawMessage (.version loopbackVersion))))
      rfl trivial)) trivial rfl
    (.task (by simp) (by simp) (.peer (.receive rfl rfl)))
    (.receive rfl)
  have answerPassed := tail_joint true answerReceived
    (.peer (@PeerStep.send _ 0 _ _ _ rfl not_false (by decide))) trivial rfl
    (.task (by simp) (by simp) (.peer (.send rfl .toPeerManager)))
    (.forward true)
  have answerReported := tail_node true answerPassed
    (.manager (.peer rfl rfl)) trivial trivial
  have answerDelivered := tail_node true answerReported
    (.manager (.send rfl not_false (Nat.zero_lt_succ _))) trivial
    (by rintro task event ⟨⟩)
  have confirming := tail_node true answerDelivered
    (.handle (.peermanager rfl rfl (.ok 0))) trivial trivial
  have completing := tail_node true confirming
    (.handle (.send rfl not_false (Nat.zero_lt_succ _))) trivial trivial
  have verackRead := tail_inside true 0 completing rfl
    (.task (by simp) (by simp) (.reader (reads_verack rfl)))
    (.subtask trivial) (by
      rintro - there ⟨⟩
      exact ⟨_, _, rfl, rfl,
        @List.prefix_rfl _ (([] ++ frame zeroDigest (.version loopbackVersion)) ++
          frame zeroDigest (.verack {}))⟩)
  have verackDecoded := tail_inside true 0 verackRead rfl
    (.task (by simp) (by simp)
      (.reader (.send rfl (by rintro ⟨_, ⟨⟩⟩) (by decide))))
    (.subtask trivial) fun harrive => absurd rfl harrive
  have verackReceived := tail_joint true verackDecoded
    (.peer (@PeerStep.subtask _ 0 _
      (.incidentTaskRead (some (.lowRawMessage (.verack {})))) rfl trivial)) trivial rfl
    (.task (by simp) (by simp) (.peer (.receive rfl rfl)))
    (.receive rfl)
  have verackPassed := tail_joint true verackReceived
    (.peer (@PeerStep.send _ 0 _ _ _ rfl not_false (by decide))) trivial rfl
    (.task (by simp) (by simp) (.peer (.send rfl .toPeerManager)))
    (.forward true)
  have verackReported := tail_node true verackPassed
    (.manager (.peer rfl rfl)) trivial trivial
  have verackDelivered := tail_node true verackReported
    (.manager (.send rfl not_false (Nat.zero_lt_succ _))) trivial
    (by rintro task event ⟨⟩)
  have completed := tail_node true verackDelivered
    (.handle (.peermanager rfl rfl (.ok 0))) trivial trivial
  exact ⟨_, _, completed, rfl, rfl, _, _, rfl, rfl, rfl⟩

section Runs

variable {N : Type} [DecidableEq N] {sha256 : Bytes → ByteArr 32}
variable {wiring : Wiring N} {nonce : N → UInt64} {cluster : Cluster N}
variable {labels : List (N × HostLabel)} {here there : N × TaskId}

/-- In every interleaving of the nodes in which the ids of new connections are
fresh, however the bytes are split into reads and the channels fill: what
`HandleMessage` has heard of a connection are the first of the messages that
`HandleMessage` at the far side has sent for it, in order. -/
theorem heard_prefix_sent
    (run : Run (ClusterStep sha256 wiring) (.initial nonce) labels cluster)
    (hfar : wiring.far here = some there) :
    cluster.heard here <+: cluster.sent there :=
  (clustered_run run).delivered hfar

theorem heard_prefix_sent_handshake : ∃ labels cluster,
    Run (ClusterStep zeroDigest paired) (.initial fun _ => 0) labels cluster ∧
      cluster.heard (true, 0) = opening loopbackVersion ∧
      cluster.heard (true, 0) <+: cluster.sent (false, 0) := by
  obtain ⟨labels, cluster, run, hheard, -⟩ := handshake_run
  exact ⟨labels, cluster, run, hheard, heard_prefix_sent run rfl⟩

/-- In every such interleaving: when the handshake of a connection is completed at
one side, the two sides agree on both version messages.  Either side has sent the
one that it built for this connection, and a verack; the far side's have been
heard here, and the version message sent here has been heard there. -/
theorem completed_agreement
    (run : Run (ClusterStep sha256 wiring) (.initial nonce) labels cluster)
    (hfar : wiring.far here = some there) {peerid : PeerId}
    {context : PeerContextMetadata} {state : PeerStateMetadata}
    (howner : (cluster here.1).system.owners.state peerid = some here.2)
    (hcontext : (cluster here.1).system.handle.state.setContextPeers.lookup peerid =
      some context)
    (hstate : (cluster here.1).system.handle.state.setStatePeers.lookup peerid =
      some state)
    (hcompleted : state.completedHandshake = true) :
    ∃ version farContext farVersion,
      cluster.known here = some context ∧ context.nonce = nonce here.1 ∧
      BuiltFor context version ∧ cluster.sent here = opening version ∧
      cluster.known there = some farContext ∧
      farContext.nonce = nonce there.1 ∧ BuiltFor farContext farVersion ∧
      cluster.sent there = opening farVersion ∧
      cluster.heard here = opening farVersion ∧
      [.version version] <+: cluster.heard there := by
  have hclustered := clustered_run run
  have hconversing := (hclustered.hosted here.1).recording.conversing
  obtain ⟨hknown, hdialogue⟩ := hconversing.entries peerid here.2 context state
    howner hcontext hstate
  obtain ⟨hanswered, -, hrecvVerack⟩ := hdialogue.completed hcompleted
  obtain ⟨version, hbuilt, hsent⟩ := eq_opening_of_stage hdialogue.stage hanswered
  have hverack : HasVerack (cluster.heard here) := hdialogue.recvVerack hrecvVerack
  -- what was heard has been sent at the far side
  have hheard := hclustered.delivered hfar
  have hfarVerack : HasVerack (cluster.sent there) := by
    obtain ⟨verack, hmem⟩ := hverack
    exact ⟨verack, hheard.subset hmem⟩
  have hfarSpoke : cluster.sent there ≠ [] := by
    obtain ⟨verack, hmem⟩ := hfarVerack
    exact List.ne_nil_of_mem hmem
  obtain ⟨farContext, hfarKnown, hfarNonce, hspoken⟩ := hclustered.spoken hfarSpoke
  obtain ⟨farVersion, hfarBuilt, hfarOpening⟩ := hspoken.opening
  -- and the far side has answered what was sent here
  have hfarHeard := hclustered.delivered (wiring.symm here there hfar)
  rw [show cluster.sent here = opening version from hsent] at hfarHeard
  exact ⟨version, farContext, farVersion, hknown,
    hconversing.accepted here.2 context hknown, hbuilt, hsent, hfarKnown, hfarNonce,
    hfarBuilt, eq_opening_of_hasVerack hfarOpening hfarVerack,
    eq_opening_of_hasVerack (hheard.trans hfarOpening) hverack,
    version_prefix_of_hasVersion hfarHeard (hspoken.answering hfarVerack)⟩

theorem completed_agreement_handshake : ∃ labels cluster version,
    Run (ClusterStep zeroDigest paired) (.initial fun _ => 0) labels cluster ∧
      cluster.sent (true, 0) = opening version ∧
      cluster.heard (true, 0) = opening loopbackVersion ∧
      cluster.sent (false, 0) = opening loopbackVersion ∧
      [.version version] <+: cluster.heard (false, 0) := by
  obtain ⟨labels, cluster, run, hheard, howner, context, state, hcontext, hstate,
    hcompleted⟩ := handshake_run
  obtain ⟨version, farContext, farVersion, hknown, hnonce, hbuilt, hsent, hfarKnown,
      hfarNonce, hfarBuilt, hfarSent, hfarHeard, hanswered⟩ :=
    @completed_agreement _ _ _ paired _ _ _ (true, 0) _ run rfl _ _ _ howner hcontext
      hstate hcompleted
  rw [← hfarHeard, hheard] at hfarSent
  exact ⟨labels, cluster, version, run, hsent, hheard, hfarSent, hanswered⟩

end Runs

end P2PNetwork.Runtime
