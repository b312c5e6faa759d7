import P2PNetwork.Runtime.Host

/-!
# Runs of a node with the ends of its connections

Whatever the subtasks of the peers and the sockets do, the node and the tasks of
each of its peers agree: on the command channel, on the turn that the peer is
in, on what was routed to it and on what it has passed on.
-/

namespace P2PNetwork.Runtime

open P2PNetwork.ByteAccess
open P2PNetwork.Connection (Endpoint arriving)
open P2PNetwork.Events
open P2PNetwork.Handler
open P2PNetwork.Manager
open P2PNetwork.PeerActor
open P2PNetwork.PeerOutbound (Outbound OutboundLabel OutboundStep lowMessages)
open P2PNetwork.PeerSubtasks (PeerTasks)

/-! ## Hidden steps -/

section Hidden

variable {sha256 : Bytes → ByteArr 32} {endpoint : Endpoint}
variable {outbound : Outbound} {own : OutboundLabel}

theorem EndPast.initial (peer : Peer) : EndPast sha256 (openEnd peer) where
  past := ⟨peer, [], {}, .refl _, rfl, .initial peer⟩

theorem EndPast.step (hpast : EndPast sha256 endpoint)
    (hmove : OutboundStep sha256 endpoint.outbound own outbound) :
    EndPast sha256
      { outbound, received := endpoint.received ++ arriving own } where
  past := by
    obtain ⟨peer, labels, past, run, hreceived, hinbound⟩ := hpast.past
    obtain ⟨hquiet, hnone⟩ | ⟨step, hstep, hbytes⟩ :=
      Connection.OutboundStep.tasks hmove
    · refine ⟨peer, _, past, run.tail hmove, ?_, hquiet ▸ hinbound⟩
      rw [hreceived, hnone, List.append_nil]
    · obtain ⟨past', hinbound', hreceived'⟩ := hinbound.step hstep
      refine ⟨peer, _, past', run.tail hmove, ?_, hinbound'⟩
      rw [hreceived', hreceived, hbytes]

/-- What a peer sends after its loop does not go to the manager. -/
theorem EndPast.closing_forwarded (hpast : EndPast sha256 endpoint)
    {incident : EventsCriticalCompletion}
    {sends : Await Peer PeerSend Bool Unit} {self : Peer} {send : PeerSend}
    {resume : Bool → Await Peer PeerSend Bool Unit} {delivered : Bool}
    {tasks : PeerTasks}
    (hphase : endpoint.outbound.tasks.peer = .closing incident sends)
    (hsends : sends = .issue self send resume)
    (hsend : PeerSubtasks.SendStep endpoint.outbound.tasks send delivered tasks) :
    tasks.forwarded = endpoint.outbound.tasks.forwarded := by
  obtain ⟨peer, labels, past, run, -, hinbound⟩ := hpast.past
  obtain ⟨_, rest, hrest, habsent⟩ := hinbound.closing _ _ hphase
  rw [hrest] at hsends
  cases rest with
  | nil => simp [sendAll] at hsends
  | cons first rest =>
      cases hsends
      cases hsend with
      | toPeerManager => exact absurd List.mem_cons_self (habsent _)
      | _ => rfl

/-- A hidden step changes neither channel of the node, and the node's peer stays
where the tasks are. -/
structure HiddenMove (before after : Outbound) : Prop where
  commands : after.commands = before.commands
  enqueued : after.enqueued = before.enqueued
  forwarded : after.tasks.forwarded = before.tasks.forwarded
  peer : ∀ turn, SamePeer turn before.tasks.peer → SamePeer turn after.tasks.peer

theorem hiddenMove_of_subtask {label : PeerSubtasks.Label} {tasks : PeerTasks}
    {before : Outbound}
    (hlabel : OfSubtask label ∨ ∃ result, label = .writerWrite result)
    (hstep : PeerSubtasks.Step sha256 before.tasks label tasks) (progress : ℕ) :
    HiddenMove before { before with tasks, progress } := by
  cases hstep with
  | reader hstep =>
      have hpeer := hstep.peer_eq
      refine ⟨rfl, rfl, ?_, fun turn hsame => hpeer ▸ hsame⟩
      cases hstep <;> rfl
  | writer hstep =>
      obtain ⟨hpeer, -, -, -, hforwarded⟩ := hstep.frame
      exact ⟨rfl, rfl, hforwarded, fun turn hsame => hpeer ▸ hsame⟩
  | peer hstep => cases hstep <;> simp [OfSubtask] at hlabel

theorem Inside.hiddenMove {system : System} {task : TaskId}
    (hinside : Inside system task endpoint.outbound.tasks own)
    (hpast : EndPast sha256 endpoint)
    (hmove : OutboundStep sha256 endpoint.outbound own outbound) :
    HiddenMove endpoint.outbound outbound := by
  cases hmove with
  | enqueue | command | commandClosed => cases hinside
  | dropSender | accept => exact ⟨rfl, rfl, rfl, fun _ => id⟩
  | write hwriter hwhole hstep => exact hiddenMove_of_subtask (.inr ⟨_, rfl⟩) hstep 0
  | writeFail hstep => exact hiddenMove_of_subtask (.inr ⟨_, rfl⟩) hstep 0
  | task hcommand hwrite hstep =>
      cases hinside with
      | subtask hlabel => exact hiddenMove_of_subtask (.inl hlabel) hstep _
      | leave =>
          cases hstep with
          | reader hstep | writer hstep => cases hstep
          | peer hstep =>
              cases hstep with
              | leave hpeer =>
                  refine ⟨rfl, rfl, rfl, fun turn hsame => ?_⟩
                  rw [hpeer] at hsame
                  cases hsame
                  exact .closing _ _ _
      | closing hphase delivered =>
          cases hstep with
          | reader hstep | writer hstep => cases hstep
          | peer hstep =>
              cases hstep with
              | send hpeer =>
                  rw [hphase] at hpeer
                  cases hpeer
              | shutdown hpeer hsend =>
                  have hforwarded := hpast.closing_forwarded hpeer rfl hsend
                  refine ⟨rfl, rfl, hforwarded, fun turn hsame => ?_⟩
                  rw [hpeer] at hsame
                  cases hsame
                  exact .closing _ _ _

theorem EndAgrees.hidden {reached : Recorded} {task : TaskId} {received : Bytes}
    (hagrees : EndAgrees reached task endpoint)
    (hmove : HiddenMove endpoint.outbound outbound) :
    EndAgrees reached task { outbound, received } where
  commands := hagrees.commands.trans hmove.commands.symm
  looping turn hturn := hmove.peer turn (hagrees.looping turn hturn)
  routed := (congrArg lowMessages hmove.enqueued).trans hagrees.routed
  forwarded := hmove.forwarded.trans hagrees.forwarded

end Hidden

/-! ## Hosts -/

/-- Every looping peer has its tasks, which agree with the node. -/
structure Hosted (sha256 : Bytes → ByteArr 32) (nonce : UInt64) (host : Host) :
    Prop where
  recording : Recording nonce host.recorded
  below : ∀ task endpoint, host.ends task = some endpoint →
    task < host.system.next
  past : ∀ task endpoint, host.ends task = some endpoint → EndPast sha256 endpoint
  agrees : ∀ task endpoint, host.ends task = some endpoint →
    EndAgrees host.recorded task endpoint
  present : ∀ task turn, host.system.peers task = .looping turn →
    ∃ endpoint, host.ends task = some endpoint

section Hosts

variable {sha256 : Bytes → ByteArr 32} {nonce : UInt64} {before after : Host}
variable {label : HostLabel}

theorem Hosted.initial (nonce : UInt64) : Hosted sha256 nonce (.initial nonce) where
  recording := .initial nonce
  below task endpoint hend := by cases hend
  past task endpoint hend := by cases hend
  agrees task endpoint hend := by cases hend
  present task turn hturn := by cases hturn

/-- The end of a connection that has just been opened. -/
theorem EndAgrees.opened {system later : System} {dispatch dispatch' : Dispatch}
    {arrivals arrivals' : Arrivals} {peer : Peer}
    (hrecording : Recording nonce ((system, dispatch), arrivals))
    (hcommands : later.commands = system.commands)
    (hpeers : later.peers = Function.update system.peers system.next
      (.looping (.done peer .next)))
    (hrouted : dispatch'.routed = dispatch.routed)
    (henqueued : arrivals'.record.enqueued = arrivals.record.enqueued) :
    EndAgrees ((later, dispatch'), arrivals') system.next (openEnd peer) := by
  have hspawned : SpawnedOnly system := hrecording.dispatched.fresh.spawned
  have habsent := hspawned.peers system.next le_rfl
  have hhanded : HandedOver (system, dispatch) := hrecording.dispatched.handed
  constructor
  · exact (congrFun hcommands _).trans (hspawned.commands _ habsent)
  · intro turn hturn
    change later.peers system.next = _ at hturn
    rw [hpeers, Function.update_self] at hturn
    cases hturn
    exact .looping _
  · rw [hrouted]
    exact (hhanded.absent system.next habsent).symm
  · rw [henqueued, eq_comm]
    apply ofConnection_eq_nil.mpr
    intro item hitem
    exact (hrecording.inOrder.enqueued item hitem).ne

theorem Step.next_le {system later : System} {label : Label}
    (hmove : Step system label later) : system.next ≤ later.next := by
  cases hmove with
  | manager hstep => exact hstep.next_eq.1
  | handle hstep => exact hstep.peers_eq.2.ge
  | peer hstep => exact hstep.peers_eq.1.ge

/-- A connection is taken up. -/
theorem Step.take_eq {system later : System} {input : ManagerInput}
    (hmove : Step system (.managerTake input) later) :
    later.commands = system.commands ∧ later.next = system.next + 1 ∧
      later.peers = spawnPeer system.peers system.next
        (spawned input system.manager.registry) := by
  cases hmove with
  | handle hstep | peer hstep => cases hstep
  | manager hstep =>
      cases hstep with
      | take hmanager =>
          rw [registry_of_idle hmanager]
          exact ⟨rfl, rfl, rfl⟩

/-- The node moves, and the ends stay. -/
theorem Hosted.stay (hhosted : Hosted sha256 nonce before) {recorded : Recorded}
    (hrecording : Recording nonce recorded)
    (hnext : before.system.next ≤ recorded.1.1.next)
    (hkept : ∀ task, Untouched before.recorded recorded task) :
    Hosted sha256 nonce { before with recorded } where
  recording := hrecording
  below task endpoint hend := (hhosted.below task endpoint hend).trans_le hnext
  past := hhosted.past
  agrees task endpoint hend :=
    (hhosted.agrees task endpoint hend).untouched (hkept task)
  present task turn hturn := hhosted.present task turn ((hkept task).looping turn hturn)

/-- A connection is taken up, and its end is opened. -/
theorem Hosted.open (hhosted : Hosted sha256 nonce before) {recorded : Recorded}
    {peer : Peer} (hrecording : Recording nonce recorded)
    (hnext : recorded.1.1.next = before.system.next + 1)
    (hkept : ∀ task, task ≠ before.system.next →
      Untouched before.recorded recorded task)
    (hopened : EndAgrees recorded before.system.next (openEnd peer)) :
    Hosted sha256 nonce
      { recorded,
        ends := Function.update before.ends before.system.next
          (some (openEnd peer)) } := by
  have hcases {task : TaskId} {endpoint : Endpoint}
      (hend : Function.update before.ends before.system.next
        (some (openEnd peer)) task = some endpoint) :
      task = before.system.next ∧ endpoint = openEnd peer ∨
        task ≠ before.system.next ∧ before.ends task = some endpoint := by
    by_cases htask : task = before.system.next
    · rw [htask, Function.update_self, Option.some.injEq] at hend
      exact .inl ⟨htask, hend.symm⟩
    · rw [Function.update_of_ne htask] at hend
      exact .inr ⟨htask, hend⟩
  constructor
  · exact hrecording
  · intro task endpoint hend
    change task < recorded.1.1.next
    rw [hnext]
    obtain ⟨rfl, -⟩ | ⟨-, hold⟩ := hcases hend
    · exact Nat.lt_succ_self _
    · exact (hhosted.below task endpoint hold).trans (Nat.lt_succ_self _)
  · intro task endpoint hend
    obtain ⟨-, rfl⟩ | ⟨-, hold⟩ := hcases hend
    · exact .initial peer
    · exact hhosted.past task endpoint hold
  · intro task endpoint hend
    obtain ⟨rfl, rfl⟩ | ⟨htask, hold⟩ := hcases hend
    · exact hopened
    · exact (hhosted.agrees task endpoint hold).untouched (hkept task htask)
  · intro task turn hturn
    by_cases htask : task = before.system.next
    · subst htask
      exact ⟨_, Function.update_self ..⟩
    · obtain ⟨endpoint, hend⟩ :=
        hhosted.present task turn ((hkept task htask).looping turn hturn)
      exact ⟨endpoint, (Function.update_of_ne htask _ _).trans hend⟩

theorem Hosted.node (hhosted : Hosted sha256 nonce before) {label : Label}
    {recorded : Recorded} (hstep : RecordedDispatch before.recorded label recorded)
    (hapart : Apart before.system label recorded.1.1) :
    Hosted sha256 nonce { recorded, ends := before.opened label } := by
  obtain ⟨⟨⟨system, dispatch⟩, arrivals⟩, ends⟩ := before
  obtain ⟨⟨later, dispatch'⟩, arrivals'⟩ := recorded
  have hrecording := hhosted.recording.step hstep
  have hmove : Step system label later := hstep.1.1.2
  obtain rfl : dispatch' = dispatch.after system label := hstep.1.2
  obtain rfl : arrivals' = arrivals.after system label := hstep.2
  have hkept (task : TaskId)
      (htask : ∀ input, label = .managerTake input → task ≠ system.next) :
      Untouched ((system, dispatch), arrivals)
        ((later, dispatch.after system label), arrivals.after system label) task :=
    untouched hmove (hapart.not_touches htask)
  by_cases hlabel : ∃ input, label = .managerTake input
  · obtain ⟨input, rfl⟩ := hlabel
    obtain ⟨hcommands, hnext, hpeers⟩ := hmove.take_eq
    cases hspawn : spawned input system.manager.registry with
    | none =>
        have hopened : Host.opened ⟨((system, dispatch), arrivals), ends⟩
            (.managerTake input) = ends := by
          simp [Host.opened, Host.system, hspawn]
        rw [hopened]
        apply hhosted.stay hrecording hmove.next_le
        intro task
        refine untouched_of_eq (congrFun hcommands task) ?_ rfl rfl
        rw [hpeers, hspawn]
        rfl
    | some peer =>
        have hopened : Host.opened ⟨((system, dispatch), arrivals), ends⟩
            (.managerTake input) =
              Function.update ends system.next (some (openEnd peer)) := by
          simp [Host.opened, Host.system, hspawn]
        rw [hopened]
        apply hhosted.open hrecording hnext
        · exact fun task htask => hkept task fun _ _ => htask
        · refine EndAgrees.opened hhosted.recording hcommands ?_ rfl rfl
          rw [hpeers, hspawn]
          rfl
  · have hopened : Host.opened ⟨((system, dispatch), arrivals), ends⟩ label =
        ends := by
      cases label with
      | managerTake input => exact absurd ⟨input, rfl⟩ hlabel
      | _ => rfl
    rw [hopened]
    apply hhosted.stay hrecording hmove.next_le
    exact fun task => hkept task fun input heq => absurd ⟨input, heq⟩ hlabel

/-- Only one end has moved. -/
theorem Host.moveEnd_cases {host : Host} {task other : TaskId}
    {own : OutboundLabel} {endpoint later : Endpoint} {outbound : Outbound}
    (hend : host.moveEnd task endpoint own outbound other = some later) :
    other = task ∧
        later = { outbound, received := endpoint.received ++ arriving own } ∨
      other ≠ task ∧ host.ends other = some later := by
  unfold Host.moveEnd at hend
  by_cases hother : other = task
  · rw [hother, Function.update_self, Option.some.injEq] at hend
    exact .inl ⟨hother, hend.symm⟩
  · rw [Function.update_of_ne hother] at hend
    exact .inr ⟨hother, hend⟩

/-- The tasks of one peer have moved. -/
theorem Hosted.moved (hhosted : Hosted sha256 nonce before) {recorded : Recorded}
    {task : TaskId} {own : OutboundLabel} {endpoint : Endpoint}
    {outbound : Outbound} (hrecording : Recording nonce recorded)
    (hnext : before.system.next ≤ recorded.1.1.next)
    (hend : before.ends task = some endpoint)
    (hmove : OutboundStep sha256 endpoint.outbound own outbound)
    (hkept : ∀ other, other ≠ task → Untouched before.recorded recorded other)
    (hagrees : EndAgrees recorded task
      { outbound, received := endpoint.received ++ arriving own }) :
    Hosted sha256 nonce
      { recorded, ends := before.moveEnd task endpoint own outbound } := by
  constructor
  · exact hrecording
  · intro other later hlater
    obtain ⟨rfl, -⟩ | ⟨-, hold⟩ := Host.moveEnd_cases hlater
    · exact (hhosted.below other endpoint hend).trans_le hnext
    · exact (hhosted.below other later hold).trans_le hnext
  · intro other later hlater
    obtain ⟨-, rfl⟩ | ⟨-, hold⟩ := Host.moveEnd_cases hlater
    · exact (hhosted.past task endpoint hend).step hmove
    · exact hhosted.past other later hold
  · intro other later hlater
    obtain ⟨rfl, rfl⟩ | ⟨hother, hold⟩ := Host.moveEnd_cases hlater
    · exact hagrees
    · exact (hhosted.agrees other later hold).untouched (hkept other hother)
  · intro other turn hturn
    by_cases hother : other = task
    · subst hother
      exact ⟨_, Function.update_self ..⟩
    · obtain ⟨later, hlater⟩ :=
        hhosted.present other turn ((hkept other hother).looping turn hturn)
      exact ⟨later, (Function.update_of_ne hother _ _).trans hlater⟩

theorem Hosted.joint (hhosted : Hosted sha256 nonce before) {label : Label}
    {recorded : Recorded} {task : TaskId} {own : OutboundLabel}
    {endpoint : Endpoint} {outbound : Outbound}
    (hstep : RecordedDispatch before.recorded label recorded)
    (hend : before.ends task = some endpoint)
    (hmove : OutboundStep sha256 endpoint.outbound own outbound)
    (hmeets : Meets before.system recorded.1.1 task endpoint.outbound.tasks
      outbound.tasks label own) :
    Hosted sha256 nonce
      { recorded, ends := before.moveEnd task endpoint own outbound } := by
  have hrecording := hhosted.recording.step hstep
  have hagrees := hhosted.agrees task endpoint hend
  obtain ⟨⟨⟨system, dispatch⟩, arrivals⟩, ends⟩ := before
  obtain ⟨⟨later, dispatch'⟩, arrivals'⟩ := recorded
  have hnode : Step system label later := hstep.1.1.2
  obtain rfl : dispatch' = dispatch.after system label := hstep.1.2
  obtain rfl : arrivals' = arrivals.after system label := hstep.2
  apply hhosted.moved hrecording hnode.next_le hend hmove
  · exact fun other hother => untouched hnode (hmeets.not_touches hother)
  · exact hagrees.joint hnode hmove hmeets

theorem Hosted.inside (hhosted : Hosted sha256 nonce before) {task : TaskId}
    {own : OutboundLabel} {endpoint : Endpoint} {outbound : Outbound}
    (hend : before.ends task = some endpoint)
    (hmove : OutboundStep sha256 endpoint.outbound own outbound)
    (hinside : Inside before.system task endpoint.outbound.tasks own) :
    Hosted sha256 nonce
      { before with ends := before.moveEnd task endpoint own outbound } := by
  have hhidden := hinside.hiddenMove (hhosted.past task endpoint hend) hmove
  apply hhosted.moved hhosted.recording le_rfl hend hmove
  · exact fun other _ => ⟨rfl, fun _ => id, rfl, rfl⟩
  · exact (hhosted.agrees task endpoint hend).hidden hhidden

theorem Hosted.step (hhosted : Hosted sha256 nonce before)
    (hstep : HostStep sha256 before label after) : Hosted sha256 nonce after := by
  cases hstep with
  | node hstep hapart => exact hhosted.node hstep hapart
  | joint hstep hend hmove hmeets => exact hhosted.joint hstep hend hmove hmeets
  | inside hend hmove hinside => exact hhosted.inside hend hmove hinside

end Hosts

end P2PNetwork.Runtime
