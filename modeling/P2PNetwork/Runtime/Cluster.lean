import P2PNetwork.Network.MappedAddress
import P2PNetwork.Runtime.Hosted

/-!
# Nodes joined by connections

Any number of nodes, each with its tasks, its channels and its sockets.  Which
ends of connections belong together is given.  What an end reads are the first
of the bytes that the end at the far side has written; an end that no node is at
the far side of reads anything.
-/

namespace P2PNetwork.Runtime

open P2PNetwork.ByteAccess
open P2PNetwork.Connection (Endpoint arriving decodeFrames_stream readable
  readable_prefix_self written_mono)
open P2PNetwork.EventLoop
open P2PNetwork.Events
open P2PNetwork.Framing (Sendable)
open P2PNetwork.Handshake
open P2PNetwork.MappedAddress (length_builtVersion)
open P2PNetwork.PeerOutbound (Outbound OutboundLabel OutboundStep lowMessages)
open P2PNetwork.TaskWrite
open P2PNetwork.Wire

/-- Which end of which node belongs to which. -/
structure Wiring (N : Type) where
  far : N × TaskId → Option (N × TaskId)
  symm : ∀ here there, far here = some there → far there = some here

abbrev Cluster (N : Type) := N → Host

section Steps

variable {N : Type}

def Cluster.initial (nonce : N → UInt64) : Cluster N :=
  fun node => .initial (nonce node)

/-- The end of a connection, where it is open. -/
def Cluster.endAt (cluster : Cluster N) (place : N × TaskId) : Option Endpoint :=
  (cluster place.1).ends place.2

def Cluster.sent (cluster : Cluster N) (place : N × TaskId) :
    List MessagePayload :=
  (cluster place.1).recorded.sent place.2

def Cluster.heard (cluster : Cluster N) (place : N × TaskId) :
    List MessagePayload :=
  (cluster place.1).recorded.heard place.2

def Cluster.known (cluster : Cluster N) (place : N × TaskId) :
    Option PeerContextMetadata :=
  (cluster place.1).recorded.known place.2

/-- The bytes that a step reads have been written at the far side, after those
read before. -/
def Cluster.Arrives (cluster : Cluster N) (wiring : Wiring N) (node : N) :
    HostLabel → Prop
  | .inside task own => arriving own ≠ [] → ∀ there,
      wiring.far (node, task) = some there →
        ∃ endpoint far, cluster.endAt (node, task) = some endpoint ∧
          cluster.endAt there = some far ∧
          endpoint.received ++ arriving own <+: far.outbound.written
  | _ => True

variable [DecidableEq N] (sha256 : Bytes → ByteArr 32) (wiring : Wiring N)

/-- A step of one node. -/
inductive ClusterStep (before : Cluster N) : N × HostLabel → Cluster N → Prop where
  | step {node : N} {label : HostLabel} {host : Host}
      (hstep : HostStep sha256 (before node) label host)
      (harrives : before.Arrives wiring node label) :
      ClusterStep before (node, label) (Function.update before node host)

end Steps

/-! ## Steps of an end -/

section Ends

variable {sha256 : Bytes → ByteArr 32} {nonce : UInt64} {before after : Host}
variable {label : HostLabel}

/-- Nothing is read in a joint step. -/
theorem Meets.arriving_eq {system later : System} {task : TaskId}
    {tasks tasks' : PeerSubtasks.PeerTasks} {label : Label} {own : OutboundLabel}
    (hmeets : Meets system later task tasks tasks' label own) :
    arriving own = [] := by
  cases hmeets <;> rfl

/-- An end stays, and what it has written stays. -/
theorem HostStep.end_mono (hstep : HostStep sha256 before label after)
    (hhosted : Hosted sha256 nonce before) {task : TaskId} {endpoint : Endpoint}
    (hend : before.ends task = some endpoint) :
    ∃ later, after.ends task = some later ∧
      endpoint.outbound.written <+: later.outbound.written := by
  have hmoved {other : TaskId} {own : OutboundLabel} {moving : Endpoint}
      {outbound : Outbound} (hmoving : before.ends other = some moving)
      (hmove : OutboundStep sha256 moving.outbound own outbound) :
      ∃ later, before.moveEnd other moving own outbound task = some later ∧
        endpoint.outbound.written <+: later.outbound.written := by
    by_cases htask : task = other
    · subst htask
      rw [hend, Option.some.injEq] at hmoving
      subst hmoving
      exact ⟨_, Function.update_self .., Connection.OutboundStep.written_mono hmove⟩
    · exact ⟨endpoint, (Function.update_of_ne htask _ _).trans hend,
        List.prefix_rfl⟩
  cases hstep with
  | @node label recorded hstep hapart =>
      refine ⟨endpoint, ?_, List.prefix_rfl⟩
      have hne : task ≠ before.system.next :=
        (hhosted.below task endpoint hend).ne
      cases label with
      | managerTake input =>
          cases hspawn : Manager.spawned input before.system.manager.registry with
          | none => simpa [Host.opened, hspawn] using hend
          | some peer => simpa [Host.opened, hspawn, hne] using hend
      | _ => exact hend
  | joint hstep hmoving hmove hmeets => exact hmoved hmoving hmove
  | inside hmoving hmove hinside => exact hmoved hmoving hmove

/-- What an end has read it has read before or reads now. -/
inductive Reads (before : Host) (label : HostLabel) (task : TaskId)
    (received : Bytes) : Prop where
  | nothing (hnothing : received = [])
  | kept {endpoint : Endpoint} (hend : before.ends task = some endpoint)
      (hkept : received = endpoint.received)
  | more {endpoint : Endpoint} {own : OutboundLabel}
      (hend : before.ends task = some endpoint) (hlabel : label = .inside task own)
      (hmore : received = endpoint.received ++ arriving own)

theorem HostStep.reads (hstep : HostStep sha256 before label after)
    {task : TaskId} {endpoint : Endpoint}
    (hend : after.ends task = some endpoint) :
    Reads before label task endpoint.received := by
  cases hstep with
  | @node label recorded hstep hapart =>
      cases label with
      | managerTake input =>
          change before.opened (.managerTake input) task = some endpoint at hend
          cases hspawn : Manager.spawned input before.system.manager.registry with
          | none =>
              simp only [Host.opened, hspawn] at hend
              exact .kept hend rfl
          | some peer =>
              simp only [Host.opened, hspawn] at hend
              by_cases htask : task = before.system.next
              · rw [htask, Function.update_self, Option.some.injEq] at hend
                exact .nothing (hend ▸ rfl)
              · rw [Function.update_of_ne htask] at hend
                exact .kept hend rfl
      | _ => exact .kept hend rfl
  | @joint label recorded other own moving outbound hstep hmoving hmove hmeets =>
      obtain ⟨rfl, rfl⟩ | ⟨-, hold⟩ := Host.moveEnd_cases hend
      · refine .kept hmoving ?_
        rw [hmeets.arriving_eq, List.append_nil]
      · exact .kept hold rfl
  | @inside other own moving outbound hmoving hmove hinside =>
      obtain ⟨rfl, rfl⟩ | ⟨-, hold⟩ := Host.moveEnd_cases hend
      · exact .more hmoving rfl rfl
      · exact .kept hold rfl

/-- What a peer passes on has been put into the channel while the peer looped. -/
theorem RecordedDispatch.enqueued {reached later : Recorded} {label : Label}
    (hstep : RecordedDispatch reached label later) {item : Tagged EventsPeer}
    (hitem : item ∈ later.2.record.enqueued) :
    item ∈ reached.2.record.enqueued ∨
      ∃ turn, reached.1.1.peers item.connection = .looping turn := by
  obtain ⟨⟨system, dispatch⟩, arrivals⟩ := reached
  obtain ⟨⟨system', dispatch'⟩, arrivals'⟩ := later
  have hmove : Step system label system' := hstep.1.1.2
  obtain rfl : arrivals' = arrivals.after system label := hstep.2
  cases hmove with
  | manager hmove =>
      change item ∈ (arrivals.record.after system label).enqueued at hitem
      rw [hmove.enqueued_eq] at hitem
      exact .inl hitem
  | handle hmove =>
      change item ∈ (arrivals.record.after system label).enqueued at hitem
      rw [hmove.record_eq] at hitem
      exact .inl hitem
  | peer hmove =>
      obtain ⟨sent, -, henqueued, hlooping⟩ := hmove.queued arrivals.record
      change item ∈ (arrivals.record.after system label).enqueued at hitem
      rw [henqueued, List.mem_append] at hitem
      exact hitem.imp id (hlooping item)

/-- What has been put into the manager's channel comes from an end. -/
def Originated (host : Host) : Prop :=
  ∀ item ∈ host.recorded.2.record.enqueued,
    ∃ endpoint, host.ends item.connection = some endpoint

theorem HostStep.originated (hstep : HostStep sha256 before label after)
    (hhosted : Hosted sha256 nonce before) (horiginated : Originated before) :
    Originated after := by
  intro item hitem
  have hbefore : ∃ endpoint, before.ends item.connection = some endpoint := by
    cases hstep with
    | node hmove | joint hmove =>
        obtain hold | ⟨turn, hlooping⟩ := RecordedDispatch.enqueued hmove hitem
        · exact horiginated item hold
        · exact hhosted.present item.connection turn hlooping
    | inside => exact horiginated item hitem
  obtain ⟨endpoint, hend⟩ := hbefore
  obtain ⟨later, hlater, -⟩ := hstep.end_mono hhosted hend
  exact ⟨later, hlater⟩

end Ends

/-! ## What holds of a cluster -/

/-- Every end has read the first of what was written at the far side. -/
structure Clustered {N : Type} (sha256 : Bytes → ByteArr 32) (wiring : Wiring N)
    (nonce : N → UInt64) (cluster : Cluster N) : Prop where
  hosted : ∀ node, Hosted sha256 (nonce node) (cluster node)
  originated : ∀ node, Originated (cluster node)
  arrived : ∀ here there endpoint, wiring.far here = some there →
    cluster.endAt here = some endpoint → endpoint.received ≠ [] →
      ∃ far, cluster.endAt there = some far ∧
        endpoint.received <+: far.outbound.written

section Clusters

variable {N : Type} {sha256 : Bytes → ByteArr 32} {wiring : Wiring N}
variable {nonce : N → UInt64} {before after : Cluster N} {label : N × HostLabel}

theorem Clustered.initial (nonce : N → UInt64) :
    Clustered sha256 wiring nonce (.initial nonce) where
  hosted node := .initial (nonce node)
  originated node item hitem := by cases hitem
  arrived here there endpoint hfar hend := by cases hend

variable [DecidableEq N]

/-- One node moves. -/
theorem ClusterStep.host (hstep : ClusterStep sha256 wiring before label after)
    (node : N) :
    after node = before node ∨
      node = label.1 ∧ HostStep sha256 (before node) label.2 (after node) := by
  cases hstep with
  | @step moved label host hstep harrives =>
      by_cases hnode : node = moved
      · subst hnode
        rw [Function.update_self]
        exact .inr ⟨rfl, hstep⟩
      · exact .inl (Function.update_of_ne hnode _ _)

theorem ClusterStep.end_mono (hstep : ClusterStep sha256 wiring before label after)
    (hclustered : Clustered sha256 wiring nonce before) {place : N × TaskId}
    {endpoint : Endpoint} (hend : before.endAt place = some endpoint) :
    ∃ later, after.endAt place = some later ∧
      endpoint.outbound.written <+: later.outbound.written := by
  obtain hsame | ⟨-, hmove⟩ := hstep.host place.1
  · refine ⟨endpoint, ?_, List.prefix_rfl⟩
    rw [Cluster.endAt, hsame]
    exact hend
  · exact hmove.end_mono (hclustered.hosted place.1) hend

theorem ClusterStep.arrived (hstep : ClusterStep sha256 wiring before label after)
    (hclustered : Clustered sha256 wiring nonce before) {here there : N × TaskId}
    {endpoint : Endpoint} (hfar : wiring.far here = some there)
    (hend : after.endAt here = some endpoint) (hread : endpoint.received ≠ []) :
    ∃ far, before.endAt there = some far ∧
      endpoint.received <+: far.outbound.written := by
  obtain hsame | ⟨hnode, hmove⟩ := hstep.host here.1
  · rw [Cluster.endAt, hsame] at hend
    exact hclustered.arrived here there endpoint hfar hend hread
  · cases hmove.reads hend with
    | nothing hnothing => exact absurd hnothing hread
    | kept hold hkept =>
        rw [hkept] at hread ⊢
        exact hclustered.arrived here there _ hfar hold hread
    | @more old own hold hlabel hmore =>
        by_cases hquiet : arriving own = []
        · rw [hquiet, List.append_nil] at hmore
          rw [hmore] at hread ⊢
          exact hclustered.arrived here there old hfar hold hread
        · cases hstep with
          | step hstep harrives =>
              obtain rfl := hnode
              obtain rfl := hlabel
              obtain ⟨endpoint', far, hend', hfarEnd, hbytes⟩ :=
                harrives hquiet there hfar
              rw [show before.endAt _ = some old from hold] at hend'
              cases hend'
              exact ⟨far, hfarEnd, hmore ▸ hbytes⟩

theorem Clustered.step (hclustered : Clustered sha256 wiring nonce before)
    (hstep : ClusterStep sha256 wiring before label after) :
    Clustered sha256 wiring nonce after where
  hosted node := by
    obtain hsame | ⟨-, hmove⟩ := hstep.host node
    · exact hsame ▸ hclustered.hosted node
    · exact (hclustered.hosted node).step hmove
  originated node := by
    obtain hsame | ⟨-, hmove⟩ := hstep.host node
    · exact hsame ▸ hclustered.originated node
    · exact hmove.originated (hclustered.hosted node) (hclustered.originated node)
  arrived here there endpoint hfar hend hread := by
    obtain ⟨far, hfarEnd, hbytes⟩ := hstep.arrived hclustered hfar hend hread
    obtain ⟨later, hlater, hwritten⟩ := hstep.end_mono hclustered hfarEnd
    exact ⟨later, hlater, hbytes.trans hwritten⟩

theorem clustered_run {cluster : Cluster N} {labels : List (N × HostLabel)}
    (run : Run (ClusterStep sha256 wiring) (.initial nonce) labels cluster) :
    Clustered sha256 wiring nonce cluster :=
  run.invariant (Clustered sha256 wiring nonce) (.initial nonce)
    fun _ _ _ hbefore hstep => hbefore.step hstep

end Clusters

/-! ## Delivery -/

/-- The message that a peer has passed on. -/
def passed : EventsPeer → List MessagePayload
  | .readyLowMessage _ message => [message]
  | _ => []

section Delivery

theorem hearings_mono (connection : TaskId)
    {left right : List (Tagged EventsPeerManager)} (hbegins : left <+: right) :
    hearings connection left <+: hearings connection right := by
  obtain ⟨rest, rfl⟩ := hbegins
  rw [hearings_append]
  exact List.prefix_append _ _

/-- Only the messages of peers are heard. -/
theorem hearings_conveyed (connection : TaskId)
    (items : List (Tagged EventsPeerManager)) :
    hearings connection (conveyed items) = hearings connection items := by
  induction items with
  | nil => rfl
  | cons item items ih =>
      rw [← List.singleton_append, conveyed_append, hearings_append,
        hearings_append, ih]
      obtain ⟨origin, event⟩ := item
      cases event with
      | readyMessage peerid message => rw [conveyed_singleton rfl]
      | _ => simp [hearings, conveyed, conveys, incoming]

theorem hearings_forwards (connection : TaskId) (queue : List (Tagged EventsPeer)) :
    hearings connection (forwards queue) =
      (ofConnection connection queue).flatMap passed := by
  induction queue with
  | nil => rfl
  | cons item queue ih =>
      rw [← List.singleton_append, forwards_append, hearings_append,
        ofConnection_append, List.flatMap_append, ih]
      obtain ⟨origin, event⟩ := item
      by_cases horigin : origin = connection <;>
        cases event <;> simp [hearings, forwards, incoming, passed, horigin]

/-- What is passed on under an id are the messages themselves. -/
theorem flatMap_passed (peerid : PeerId) (messages : List MessagePayload) :
    (messages.map (EventsPeer.readyLowMessage peerid)).flatMap passed =
      messages := by
  induction messages with
  | nil => rfl
  | cons message messages ih =>
      rw [List.map_cons, List.flatMap_cons, ih]
      rfl

variable {sha256 : Bytes → ByteArr 32} {nonce : UInt64} {host : Host}
variable {task : TaskId} {endpoint : Endpoint}

/-- What `HandleMessage` has heard of a connection was passed on at its end. -/
theorem Hosted.heard_passed (hhosted : Hosted sha256 nonce host)
    (hend : host.ends task = some endpoint) :
    host.recorded.heard task <+:
      endpoint.outbound.tasks.forwarded.flatMap passed := by
  have harrived := hearings_mono task hhosted.recording.arrives.handled
  rw [hearings_conveyed, hearings_forwards] at harrived
  rw [(hhosted.agrees task endpoint hend).forwarded]
  exact harrived

/-- What the command channel has taken `HandleMessage` has sent. -/
theorem Hosted.routed_sent (hhosted : Hosted sha256 nonce host)
    (hend : host.ends task = some endpoint) :
    lowMessages endpoint.outbound.enqueued <+: host.recorded.sent task := by
  rw [(hhosted.agrees task endpoint hend).routed]
  exact (hhosted.recording.dispatched.written_inOrder task).2

theorem sendable_of_builtFor {context : PeerContextMetadata}
    {version : VersionMessage} (hbuilt : BuiltFor context version) :
    Sendable (.version version) := by
  obtain ⟨now, hbuild⟩ := hbuilt
  rintro _ ⟨⟩
  cases now with
  | error reason => cases hbuild
  | ok timestamp =>
      rw [length_builtVersion hbuild]
      decide

/-- The reader at the far side accepts what `HandleMessage` sends. -/
theorem Hosted.sendable (hhosted : Hosted sha256 nonce host)
    {message : MessagePayload} (hmessage : message ∈ host.recorded.sent task) :
    Sendable message := by
  obtain ⟨context, -, hspoken⟩ :=
    hhosted.recording.conversing.spoken task (List.ne_nil_of_mem hmessage)
  obtain ⟨version, hbuilt, hopening⟩ := hspoken.opening
  have hmem := hopening.subset hmessage
  rw [List.mem_pair] at hmem
  obtain rfl | rfl := hmem
  · exact sendable_of_builtFor hbuilt
  · rintro version ⟨⟩

end Delivery

section Pairs

variable {N : Type} {sha256 : Bytes → ByteArr 32} {wiring : Wiring N}
variable {nonce : N → UInt64} {cluster : Cluster N} {here there : N × TaskId}

/-- What an end has passed on was put into the command channel at the far
side. -/
theorem Clustered.passed_routed (hclustered : Clustered sha256 wiring nonce cluster)
    (hfar : wiring.far here = some there) {endpoint : Endpoint}
    (hend : cluster.endAt here = some endpoint) :
    endpoint.outbound.tasks.forwarded.flatMap passed <+: cluster.sent there := by
  obtain ⟨peer, own, past, -, hreceived, hinbound⟩ :=
    ((hclustered.hosted here.1).past here.2 endpoint hend).past
  obtain ⟨messages, hstream, hmessages⟩ : ∃ messages,
      past.received <+: stream sha256 messages ∧
        messages <+: cluster.sent there := by
    rw [hreceived]
    by_cases hread : endpoint.received = []
    · exact ⟨[], hread ▸ List.nil_prefix, List.nil_prefix⟩
    · obtain ⟨far, hfarEnd, hbytes⟩ :=
        hclustered.arrived here there endpoint hfar hend hread
      obtain ⟨_, _, _, run, -⟩ :=
        ((hclustered.hosted there.1).past there.2 far hfarEnd).past
      exact ⟨_, hbytes.trans (written_mono run),
        (hclustered.hosted there.1).routed_sent hfarEnd⟩
  have hsendable : ∀ message ∈ messages, Sendable message :=
    fun message hmessage =>
      (hclustered.hosted there.1).sendable (hmessages.subset hmessage)
  obtain ⟨rest, hforwarded⟩ := hinbound.forwarded_prefix hstream
  rw [decodeFrames_stream sha256 hsendable] at hforwarded
  have hpassed : endpoint.outbound.tasks.forwarded.flatMap passed <+:
      readable messages := by
    rw [← flatMap_passed peer.peerid (readable messages), ← hforwarded,
      List.flatMap_append]
    exact List.prefix_append _ _
  exact (hpassed.trans (readable_prefix_self messages)).trans hmessages

/-- What is heard of a connection was sent at the far side. -/
theorem Clustered.delivered (hclustered : Clustered sha256 wiring nonce cluster)
    (hfar : wiring.far here = some there) :
    cluster.heard here <+: cluster.sent there := by
  have hhosted := hclustered.hosted here.1
  cases hend : cluster.endAt here with
  | some endpoint =>
      exact (hhosted.heard_passed hend).trans (hclustered.passed_routed hfar hend)
  | none =>
      -- a connection without an end has put nothing into the channel
      have harrived := hearings_mono here.2 hhosted.recording.arrives.handled
      rw [hearings_conveyed, hearings_forwards] at harrived
      have hnothing : ofConnection here.2
          (cluster here.1).recorded.2.record.enqueued = [] := by
        apply ofConnection_eq_nil.mpr
        intro item hitem hconnection
        obtain ⟨endpoint, hopened⟩ := hclustered.originated here.1 item hitem
        rw [hconnection, show (cluster here.1).ends here.2 = none from hend]
          at hopened
        cases hopened
      rw [hnothing] at harrived
      exact harrived.trans List.nil_prefix

theorem Clustered.spoken (hclustered : Clustered sha256 wiring nonce cluster)
    (hspoke : cluster.sent here ≠ []) :
    ∃ context, cluster.known here = some context ∧
      context.nonce = nonce here.1 ∧
      Spoken context (cluster.sent here) (cluster.heard here) := by
  have hconversing := (hclustered.hosted here.1).recording.conversing
  obtain ⟨context, hcontext, hspoken⟩ := hconversing.spoken here.2 hspoke
  exact ⟨context, hcontext, hconversing.accepted here.2 context hcontext, hspoken⟩

end Pairs

end P2PNetwork.Runtime
