import P2PNetwork.Runtime.System

/-!
# Shutdown of the manager

After its loop the manager tells every peer to shut down and joins their tasks,
but receives nothing.  A peer in a send to it waits for a free place of the
inbound channel, which no one makes.  The channel's free places must therefore
cover the messages that peers have already taken up.
-/

namespace P2PNetwork.Runtime

open P2PNetwork.EventLoop
open P2PNetwork.Events
open P2PNetwork.Handler
open P2PNetwork.Manager
open P2PNetwork.PeerActor
open P2PNetwork.Wire

/-- The manager waits for its peers while a peer waits for the manager. -/
def StuckShutdown (system : System) : Prop :=
  system.manager.Closing ∧ ∃ task event,
    (system.peers task).Sends event ∧
      channelCapacity ≤ system.fromPeers.length

/-! ## Messages that peers have taken up -/

def PeerPhase.pending : PeerPhase → ℕ
  | .looping (.issue _ (.toPeerManager _) _) => 1
  | _ => 0

namespace System

/-- The messages in the hands of the peers. -/
def pending (system : System) : ℕ :=
  ∑ task ∈ Finset.range system.next, (system.peers task).pending

/-- The messages on their way to the manager. -/
def load (system : System) : ℕ := system.fromPeers.length + system.pending

end System

/-- A message of the reader. -/
def IsMessage : Label → Prop
  | .peerSubtask _ (.incidentTaskRead (some _)) => True
  | _ => False

/-- The inbound channel has a place for every message that is on its way when
the manager leaves its loop, and later for every further one that a peer takes
up. -/
def RoomToClose (system : System) (label : Label) : Prop :=
  (label = .managerLeave → system.load ≤ channelCapacity) ∧
    (system.manager.Closing → IsMessage label → system.load < channelCapacity)

section Steps

variable {before after : System} {label : Label}

theorem RoomToClose.of_not_closing (hclosing : ¬ before.manager.Closing)
    (hleave : label ≠ .managerLeave) : RoomToClose before label :=
  ⟨fun hlabel => absurd hlabel hleave, fun hmanager => absurd hmanager hclosing⟩

theorem pending_of_singleSend {self : Peer} {send : PeerSend}
    {resume : Bool → PeerTurn}
    (hsingle : (Await.issue self send resume).SingleSend) (delivered : Bool) :
    (PeerPhase.looping (resume delivered)).pending = 0 := by
  obtain ⟨self', flow, hdone⟩ := hsingle delivered
  rw [hdone]
  rfl

theorem pending_setPeer {task : TaskId} {turn : PeerTurn}
    (horder : PeersInOrder before)
    (hpeer : before.peers task = .looping turn) (peer : PeerPhase) :
    (before.setPeer task peer).pending + (PeerPhase.looping turn).pending =
      before.pending + peer.pending := by
  have hmem : task ∈ Finset.range before.next := by
    rw [Finset.mem_range]
    by_contra hge
    simp [horder.absent task (not_lt.mp hge)] at hpeer
  have hrest : ∑ other ∈ (Finset.range before.next).erase task,
        ((before.setPeer task peer).peers other).pending =
      ∑ other ∈ (Finset.range before.next).erase task,
        (before.peers other).pending := by
    refine Finset.sum_congr rfl fun other hother => ?_
    simp [System.setPeer, (Finset.mem_erase.mp hother).1]
  have hafter := Finset.add_sum_erase (Finset.range before.next)
    (fun other => ((before.setPeer task peer).peers other).pending) hmem
  have hbefore := Finset.add_sum_erase (Finset.range before.next)
    (fun other => (before.peers other).pending) hmem
  have hself : ((before.setPeer task peer).peers task).pending = peer.pending := by
    simp [System.setPeer]
  simp only [hself, hrest] at hafter
  simp only [hpeer] at hbefore
  change ∑ other ∈ Finset.range before.next,
      ((before.setPeer task peer).peers other).pending + _ =
    ∑ other ∈ Finset.range before.next, (before.peers other).pending + _
  omega

theorem pending_turn (input : PeerInput) (self : Peer) :
    (PeerPhase.looping (PeerActor.turn input self)).pending = 0 ∨
      ∃ message, input = .incidentTaskRead (some message) ∧
        (PeerPhase.looping (PeerActor.turn input self)).pending = 1 := by
  unfold PeerActor.turn
  split
  case h_5 => exact .inr ⟨_, rfl, rfl⟩
  all_goals exact .inl rfl

theorem pending_turn_peermanager (incident : Option EventsPeerManager)
    (self : Peer) :
    (PeerPhase.looping
      (PeerActor.turn (.incidentPeermanager incident) self)).pending = 0 := by
  obtain hnone | ⟨message, hinput, -⟩ :=
    pending_turn (.incidentPeermanager incident) self
  · exact hnone
  · cases hinput

theorem load_setPeer_le {task : TaskId} {turn : PeerTurn} {peer : PeerPhase}
    (horder : PeersInOrder before)
    (hpeer : before.peers task = .looping turn)
    (hpending : peer.pending ≤ (PeerPhase.looping turn).pending) :
    (before.setPeer task peer).load ≤ before.load := by
  have hsum := pending_setPeer horder hpeer peer
  have hlength : (before.setPeer task peer).fromPeers = before.fromPeers := rfl
  simp only [System.load, hlength]
  omega

/-- Only a message that a peer takes up adds to the load. -/
theorem PeerStep.load_le (horder : PeersInOrder before)
    (hstep : PeerStep before label after) :
    after.load ≤ before.load ∨
      IsMessage label ∧ after.load = before.load + 1 := by
  cases hstep with
  | command hpeer hqueue =>
      exact .inl (load_setPeer_le horder hpeer
        (pending_turn_peermanager _ _).le)
  | commandClosed hpeer hqueue hclosed =>
      exact .inl (load_setPeer_le horder hpeer
        (pending_turn_peermanager _ _).le)
  | @subtask task self input hpeer hinput =>
      obtain hnone | ⟨message, rfl, hone⟩ := pending_turn input self
      · exact .inl (load_setPeer_le horder hpeer hnone.le)
      · have hsum := pending_setPeer horder hpeer
          (.looping (PeerActor.turn (.incidentTaskRead (some message)) self))
        rw [hone] at hsum
        exact .inr ⟨trivial, congrArg (before.fromPeers.length + ·) hsum⟩
  | @send task self event resume hpeer hopen hroom =>
      have hsum := pending_setPeer horder hpeer (.looping (resume true))
      rw [pending_of_singleSend (horder.single _ _ hpeer)] at hsum
      simp only [PeerPhase.pending, Nat.add_zero] at hsum
      left
      change (before.fromPeers ++ [_]).length +
        (before.setPeer task (.looping (resume true))).pending ≤ _
      rw [List.length_append, List.length_singleton, System.load]
      omega
  | sendClosed hpeer hclosed =>
      refine .inl (load_setPeer_le horder hpeer ?_)
      rw [pending_of_singleSend (horder.single _ _ hpeer)]
      exact Nat.zero_le _
  | write hpeer delivered =>
      refine .inl (load_setPeer_le horder hpeer ?_)
      rw [pending_of_singleSend (horder.single _ _ hpeer)]
      exact Nat.zero_le _
  | finish hpeer read write =>
      exact .inl (load_setPeer_le horder hpeer (Nat.zero_le _))
  | panic hpeer => exact .inl (load_setPeer_le horder hpeer (Nat.zero_le _))

/-- While it closes, the manager does not touch what comes from the peers. -/
theorem ManagerStep.closing (hstep : ManagerStep before label after)
    (hclosing : after.manager.Closing) :
    (before.manager.Closing ∨ label = .managerLeave) ∧
      after.load = before.load := by
  cases hstep with
  | leave => exact ⟨.inr rfl, rfl⟩
  | disconnect hmanager =>
      exact ⟨.inl (by rw [hmanager]; trivial), by simp [System.load, System.pending]⟩
  | disconnectClosed hmanager | disconnected hmanager | drain hmanager =>
      exact ⟨.inl (by rw [hmanager]; trivial), rfl⟩
  | _ => exact hclosing.elim

theorem HandleStep.frame (hstep : HandleStep before label after) :
    after.manager = before.manager ∧ after.load = before.load := by
  cases hstep <;> exact ⟨rfl, rfl⟩

/-- A closing manager's inbound channel has a place for all that is on its
way. -/
structure Covered (system : System) : Prop where
  order : PeersInOrder system
  room : system.manager.Closing → system.load ≤ channelCapacity

theorem Covered.step (hcovered : Covered before)
    (hroom : RoomToClose before label) (hstep : Step before label after) :
    Covered after := by
  refine ⟨hcovered.order.step hstep, fun hclosing => ?_⟩
  cases hstep with
  | manager hstep =>
      obtain ⟨hbefore | hleave, hload⟩ := hstep.closing hclosing
      · exact hload ▸ hcovered.room hbefore
      · exact hload ▸ hroom.1 hleave
  | handle hstep =>
      rw [hstep.frame.1] at hclosing
      exact hstep.frame.2 ▸ hcovered.room hclosing
  | peer hstep =>
      rw [hstep.manager_eq] at hclosing
      obtain hle | ⟨hmessage, heq⟩ := hstep.load_le hcovered.order
      · exact hle.trans (hcovered.room hclosing)
      · exact heq ▸ hroom.2 hclosing hmessage

theorem pending_pos {task : TaskId} {event : EventsPeer}
    (horder : PeersInOrder before) (hsends : (before.peers task).Sends event) :
    0 < before.pending := by
  obtain ⟨self, resume, hpeer⟩ := hsends
  have hmem : task ∈ Finset.range before.next := by
    rw [Finset.mem_range]
    by_contra hge
    simp [horder.absent task (not_lt.mp hge)] at hpeer
  refine Finset.sum_pos' (fun _ _ => Nat.zero_le _) ⟨task, hmem, ?_⟩
  rw [hpeer]
  exact Nat.one_pos

theorem Covered.not_stuck (hcovered : Covered before) :
    ¬ StuckShutdown before := by
  rintro ⟨hclosing, task, event, hsends, hfull⟩
  have hload := hcovered.room hclosing
  have hpending := pending_pos hcovered.order hsends
  simp only [System.load] at hload
  omega

/-- While the inbound channel has room for what is on its way, no peer waits
for a manager that waits for it. -/
theorem shutdown_not_stuck {nonce : UInt64} {labels : List Label}
    {system : System}
    (run : Run (Restrict Step RoomToClose) (.initial nonce) labels system) :
    ¬ StuckShutdown system := by
  have hcovered : Covered system :=
    run.invariant Covered ⟨.initial nonce, fun hclosing => hclosing.elim⟩
      fun before label after hbefore hstep => hbefore.step hstep.1 hstep.2
  exact hcovered.not_stuck

/-! ## The condition is needed -/

theorem PeerPhase.sends_of_pending {peer : PeerPhase} (hpending : peer.pending ≠ 0) :
    ∃ event, peer.Sends event := by
  unfold PeerPhase.pending at hpending
  split at hpending
  case h_1 self event resume => exact ⟨event, self, resume, rfl⟩
  case h_2 => exact absurd rfl hpending

theorem System.sends_of_pending (hpending : before.pending ≠ 0) :
    ∃ task event, (before.peers task).Sends event := by
  obtain ⟨task, -, htask⟩ := Finset.exists_ne_zero_of_sum_ne_zero hpending
  exact ⟨task, PeerPhase.sends_of_pending htask⟩

/-- With more messages on their way than the inbound channel has places, the
peers that can send do so until one of them is stuck. -/
theorem overfull_stuck (horder : PeersInOrder before)
    (hclosing : before.manager.Closing)
    (hlength : before.fromPeers.length ≤ channelCapacity)
    (hload : channelCapacity < before.load) :
    ∃ labels last, Run Step before labels last ∧ StuckShutdown last := by
  obtain ⟨free, hfree⟩ := Nat.exists_eq_add_of_le hlength
  induction free generalizing before with
  | zero =>
      have hpending : before.pending ≠ 0 := by
        simp only [System.load] at hload
        omega
      obtain ⟨task, event, hsends⟩ := System.sends_of_pending hpending
      exact ⟨[], before, .refl _, hclosing, task, event, hsends, hfree.le⟩
  | succ free ih =>
      have hpending : before.pending ≠ 0 := by
        simp only [System.load] at hload
        omega
      obtain ⟨task, event, self, resume, hpeer⟩ :=
        System.sends_of_pending hpending
      have hopen : ¬ before.manager.HasFinished := hclosing.not_hasFinished
      have hstep : Step before (.peerSend task true) _ :=
        .peer (.send hpeer hopen (by omega))
      have hsum := pending_setPeer horder hpeer (.looping (resume true))
      rw [pending_of_singleSend (horder.single _ _ hpeer)] at hsum
      simp only [PeerPhase.pending, Nat.add_zero] at hsum
      have hlength' : (before.fromPeers ++
          [{ connection := task, event := event : Tagged EventsPeer }]).length =
            before.fromPeers.length + 1 := by simp
      have hload' : channelCapacity < (before.fromPeers ++
          [{ connection := task, event := event : Tagged EventsPeer }]).length +
            (before.setPeer task (.looping (resume true))).pending := by
        simp only [System.load] at hload
        omega
      obtain ⟨labels, last, run, hstuck⟩ := ih (horder.step hstep) hclosing
        (by rw [hlength']; omega) hload' (by rw [hlength']; omega)
      exact ⟨_, last, run.head hstep, hstuck⟩

end Steps

/-! ## Two shutdowns -/

/-- The supervising thread asks the manager to shut down. -/
def shutdownInput : ManagerInput :=
  .incidentThreadNetwork (.error { code := 0 }) (some .shutdown)

/-- A peer holds a message when the manager leaves its loop. -/
theorem shutdown_not_stuck_oneMessage : ∃ system labels,
    Run (Restrict Step RoomToClose) (.initial 0) labels system ∧
      system.manager.Closing ∧ system.peers 0 = holdingVerack ∧
      ¬ StuckShutdown system := by
  have hconnected : Run (Restrict Step RoomToClose) (.initial 0) _ connected :=
    connected_restrict (.of_not_closing not_false (by simp)) fun _ =>
      ⟨by simp, fun _ hmessage => hmessage.elim⟩
  have hheld : Restrict Step RoomToClose connected
      (.peerSubtask 0 readVerack) (connected.setPeer 0 holdingVerack) :=
    ⟨.of_not_closing not_false (by simp), read_verack rfl⟩
  have hasked : Restrict Step RoomToClose (connected.setPeer 0 holdingVerack)
      (.managerTake shutdownInput) _ :=
    ⟨.of_not_closing not_false (by simp), .manager (.take rfl trivial)⟩
  have hasked := ((hconnected.tail hheld).tail hasked).tail
    ⟨⟨fun _ => by decide, fun hclosing => hclosing.elim⟩,
      .manager (.leave rfl (.refl _))⟩
  exact ⟨_, _, hasked, trivial, rfl, shutdown_not_stuck hasked⟩

/-- The node after `count` stray veracks that the manager has not taken. -/
def queued (count : ℕ) : System :=
  { connected with fromPeers := List.replicate count queuedVerack }

theorem queued_run {count : ℕ} (hcount : count ≤ channelCapacity) :
    ∃ labels, Run Step (.initial 0) labels (queued count) := by
  induction count with
  | zero => exact ⟨_, connected_run⟩
  | succ count ih =>
      obtain ⟨labels, run⟩ := ih (by omega)
      have hroom : (queued count).fromPeers.length < channelCapacity := by
        simp only [queued, List.length_replicate]
        omega
      have hverack := @verack_run (queued count) rfl not_false hroom
      have hqueued : queued (count + 1) = { queued count with
          fromPeers := (queued count).fromPeers ++ [queuedVerack] } := by
        simp [queued, List.replicate_succ']
      exact ⟨_, run.trans (hqueued ▸ hverack)⟩

/-- The inbound channel is full and the peer holds one more message when the
manager is asked to shut down: it joins a peer that is stuck. -/
theorem stuckShutdown_floodedPeer : ∃ system labels,
    Run Step (.initial 0) labels system ∧
      system.manager = .joining .incidentConfirmationShutdown
        ((PeerManager.create 0).accepted 0) ∧
      system.fromPeers = List.replicate channelCapacity queuedVerack ∧
      system.peers 0 = holdingVerack ∧
      StuckShutdown system := by
  obtain ⟨labels, run⟩ := queued_run le_rfl
  have hheld := run.tail (@read_verack (queued channelCapacity) rfl)
  have hasked : Step ((queued channelCapacity).setPeer 0 holdingVerack)
      (.managerTake shutdownInput) _ := .manager (.take rfl trivial)
  have hleft := (hheld.tail hasked).tail (.manager (.leave rfl (.refl _)))
  have htold := hleft.tail
    (.manager (.disconnect rfl not_false (Nat.zero_lt_succ _)))
  have hjoining := htold.tail (.manager (.disconnected rfl))
  exact ⟨_, _, hjoining, rfl, rfl, rfl, trivial, 0, _, ⟨_, _, rfl⟩, by
    simp [queued, System.deliver, System.setPeer]⟩

end P2PNetwork.Runtime
