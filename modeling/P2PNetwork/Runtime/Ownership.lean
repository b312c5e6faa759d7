import P2PNetwork.Protocol.PeerEntry
import P2PNetwork.Runtime.System

/-!
# Owners of the records of `HandleMessage`

The records of a peer id are made by the event of a new connection and dropped
by the end of a peer.  The channel to `HandleMessage` keeps the order of these
events, so the owner of the records at any later point is found by replaying
the queued events.
-/

namespace P2PNetwork.Runtime

open P2PNetwork.Events
open P2PNetwork.FiniteTable
open P2PNetwork.Handler
open P2PNetwork.Handshake
open P2PNetwork.Manager
open P2PNetwork.Wire

/-! ## Turns of `HandleMessage` -/

/-- The tables have records of exactly the peers that have an owner. -/
structure Owned (owner : PeerId → Option TaskId) (tables : HandleMessage) :
    Prop where
  context : ∀ peerid, peerid ∈ tables.setContextPeers ↔ (owner peerid).isSome
  state : ∀ peerid, peerid ∈ tables.setStatePeers ↔ (owner peerid).isSome

/-- A turn sends events about one peer only and keeps the owners right. -/
def AnswersFor (owner : PeerId → Option TaskId) (peerid : PeerId)
    (turn : HandleTurn) : Prop :=
  turn.Holds (fun ghost _ _ => ghost)
    (fun _ self event => Owned owner self ∧ event.peerid = peerid)
    (fun _ self _ => Owned owner self) ()

section Turns

variable {owner : PeerId → Option TaskId} {tables : HandleMessage}
variable {now : Except SystemTimeError UInt64} {peerid : PeerId}

theorem Owned.create : Owned (fun _ => none) HandleMessage.create where
  context peerid := by simp [HandleMessage.create]
  state peerid := by simp [HandleMessage.create]

theorem Owned.setState (howned : Owned owner tables)
    (hmem : peerid ∈ tables.setStatePeers) (state : PeerStateMetadata) :
    Owned owner (tables.setState peerid state) where
  context other := howned.context other
  state other := by
    rw [← howned.state other]
    simp only [HandleMessage.setState, AList.mem_insert, or_iff_right_iff_imp]
    intro heq
    exact heq ▸ hmem

theorem Owned.markSendVersion (howned : Owned owner tables) (peerid : PeerId) :
    Owned owner (tables.markSendVersion peerid) := by
  unfold HandleMessage.markSendVersion
  split
  case h_2 => exact howned
  case h_1 state hstate =>
    split
    case isFalse => exact howned
    case isTrue => exact howned.setState (mem_iff_lookup.mpr ⟨state, hstate⟩) _

theorem Owned.addPeer (howned : Owned owner tables)
    (context : StructContextConnection) (connection : TaskId) :
    Owned (fun other => if other = context.peerid then
        (owner other).or (some connection) else owner other)
      (tables.addPeer context) where
  context other := by
    by_cases hother : other = context.peerid
    · subst hother
      by_cases hmem : context.peerid ∈ tables.setContextPeers <;>
        simp [HandleMessage.addPeer, hmem]
    · have hcontext := howned.context other
      by_cases hmem : context.peerid ∈ tables.setContextPeers <;>
        simp [HandleMessage.addPeer, hmem, hother, hcontext]
  state other := by
    by_cases hother : other = context.peerid
    · subst hother
      by_cases hmem : context.peerid ∈ tables.setStatePeers <;>
        simp [HandleMessage.addPeer, hmem]
    · have hstate := howned.state other
      by_cases hmem : context.peerid ∈ tables.setStatePeers <;>
        simp [HandleMessage.addPeer, hmem, hother, hstate]

theorem Owned.completedPeer (howned : Owned owner tables) (peerid : PeerId) :
    Owned (fun other => if other = peerid then none else owner other)
      (tables.completedPeer peerid) where
  context other := by
    by_cases hother : other = peerid <;>
      simp [HandleMessage.completedPeer, hother, howned.context other]
  state other := by
    by_cases hother : other = peerid <;>
      simp [HandleMessage.completedPeer, hother, howned.state other]

theorem newConnection_answersFor {context : StructContextConnection}
    (howned : Owned owner (tables.addPeer context)) :
    AnswersFor owner context.peerid (tables.newConnection now context) := by
  simp only [HandleMessage.newConnection]
  split
  case isFalse => exact howned
  case isTrue =>
    split
    case h_1 => exact howned
    case h_2 contextPeers hcontext =>
      cases contextPeers.typeConnect with
      | incomingConnection => exact howned
      | outgoingConnection =>
          simp only
          cases VersionMessage.buildVersionMessage now contextPeers.localAddress
              contextPeers.removeAddress contextPeers.nonce with
          | error reason => exact howned
          | ok newMessageVersion =>
              refine ⟨⟨howned, rfl⟩, fun delivered => ?_⟩
              cases delivered with
              | false => exact howned
              | true => exact howned.markSendVersion _

theorem afterHandleMsg_answersFor (howned : Owned owner tables)
    (result : Except ErrorHandle Unit) :
    AnswersFor owner peerid (tables.afterHandleMsg peerid result) := by
  unfold HandleMessage.afterHandleMsg
  split
  · split <;> exact howned
  · exact howned

theorem readyMessage_answersFor (howned : Owned owner tables)
    (message : MessagePayload) :
    AnswersFor owner peerid (tables.readyMessage now peerid message) := by
  unfold HandleMessage.readyMessage
  split
  case isFalse => exact howned
  case isTrue =>
    split
    case isFalse => exact howned
    case isTrue hmem =>
      split
      case h_2 => exact howned
      case h_1 context state _ _ =>
        have hspeaks := @handleMsg_speaksAbout now peerid message context state
        have hhandled : ((handleMsg now peerid message context state).within
            (tables.setState peerid)).Holds (fun ghost _ _ => ghost)
            (fun _ self event => Owned owner self ∧ event.peerid = peerid)
            (fun _ self _ => Owned owner self) () := by
          apply Await.holds_within.mpr
          apply hspeaks.mono
          · intro _ reached event hevent
            exact ⟨howned.setState hmem reached, hevent⟩
          · intro _ reached _ _
            exact howned.setState hmem reached
        apply hhandled.bind
        intro _ reached result hreached
        exact afterHandleMsg_answersFor hreached result

end Turns

/-! ## Queued events -/

/-- Who owns the records of each peer after an event. -/
def ownerAfter (owner : PeerId → Option TaskId)
    (item : Tagged EventsPeerManager) : PeerId → Option TaskId :=
  match item.event with
  | .incidentNewConnection context => fun peerid =>
      if peerid = context.peerid then (owner peerid).or (some item.connection)
      else owner peerid
  | .incidentCompletedPeer completed => fun peerid =>
      if peerid = completed then none else owner peerid
  | .incidentCompletedAllPeer => fun _ => none
  | _ => owner

/-- Who owns the records of each peer after the queued events. -/
def replay (owner : PeerId → Option TaskId)
    (queue : List (Tagged EventsPeerManager)) : PeerId → Option TaskId :=
  queue.foldl ownerAfter owner

/-- An event that `HandleMessage` may answer with events about `peerid`. -/
def Concerns (event : EventsPeerManager) (peerid : PeerId) : Prop :=
  (∃ message, event = .readyMessage peerid message) ∨
    ∃ context, event = .incidentNewConnection context ∧ context.peerid = peerid

section Queue

variable {owner : PeerId → Option TaskId} {tables : HandleMessage}
variable {item : Tagged EventsPeerManager}

/-- A new connection owns the records of its id if nobody did. -/
theorem ownerAfter_newConnection {context : StructContextConnection}
    (connection : TaskId) (hnone : owner context.peerid = none) :
    ownerAfter owner
        { connection := connection, event := .incidentNewConnection context } =
      Function.update owner context.peerid (some connection) := by
  funext other
  by_cases hother : other = context.peerid
  · subst hother
    simp [ownerAfter, hnone]
  · simp [ownerAfter, hother]

/-- The records of an id keep their owner. -/
theorem ownerAfter_known {context : StructContextConnection}
    (connection : TaskId) (hsome : (owner context.peerid).isSome) :
    ownerAfter owner
        { connection := connection, event := .incidentNewConnection context } =
      owner := by
  funext other
  by_cases hother : other = context.peerid
  · subst hother
    obtain ⟨holder, hholder⟩ := Option.isSome_iff_exists.mp hsome
    simp [ownerAfter, hholder]
  · simp [ownerAfter, hother]

theorem ownerAfter_completed (connection : TaskId) (completed : PeerId) :
    ownerAfter owner
        { connection := connection, event := .incidentCompletedPeer completed } =
      Function.update owner completed none := by
  funext other
  by_cases hother : other = completed <;> simp [ownerAfter, hother]

/-- The records made by an event belong to the owner that the event gives
them. -/
theorem Owned.take (howned : Owned owner tables) :
    Owners.take { context := owner, state := owner } tables item =
      { context := ownerAfter owner item, state := ownerAfter owner item } := by
  obtain ⟨connection, event⟩ := item
  cases event with
  | incidentNewConnection context =>
      have hcontext := howned.context context.peerid
      have hstate := howned.state context.peerid
      cases howner : owner context.peerid with
      | none =>
          rw [ownerAfter_newConnection connection howner]
          simp [Owners.take, hcontext, hstate, howner]
      | some holder =>
          have hsome : (owner context.peerid).isSome := by
            rw [howner]
            rfl
          rw [ownerAfter_known connection hsome]
          simp [Owners.take, hcontext, hstate, hsome]
  | incidentCompletedPeer completed =>
      rw [ownerAfter_completed]
      rfl
  | _ => rfl

theorem turn_answersFor (howned : Owned owner tables)
    (now : Except SystemTimeError UInt64) :
    ∃ peerid, AnswersFor (ownerAfter owner item) peerid
        (HandleMessage.turn (.incidentPeermanager now (some item.event)) tables) ∧
      ∀ self event resume,
        HandleMessage.turn (.incidentPeermanager now (some item.event)) tables =
          .issue self event resume → Concerns item.event peerid := by
  obtain ⟨connection, event⟩ := item
  cases event with
  | readyMessage peerid message =>
      exact ⟨peerid, readyMessage_answersFor howned message,
        fun _ _ _ _ => .inl ⟨message, rfl⟩⟩
  | incidentNewConnection context =>
      exact ⟨context.peerid,
        newConnection_answersFor (howned.addPeer context connection),
        fun _ _ _ _ => .inr ⟨context, rfl, rfl⟩⟩
  | incidentCompletedPeer completed =>
      exact ⟨completed, howned.completedPeer completed, nofun⟩
  | incidentCompletedAllPeer => exact ⟨0, Owned.create, nofun⟩
  | readyLowMessage message => exact ⟨0, howned, nofun⟩
  | shutdown => exact ⟨0, howned, nofun⟩

theorem replay_append (queue : List (Tagged EventsPeerManager)) :
    replay owner (queue ++ [item]) = ownerAfter (replay owner queue) item := by
  simp [replay, List.foldl_append]

/-- Whenever `HandleMessage` takes a message, the records of its peer have no
owner or the current one. -/
def ReadySettled (current : PeerId → TaskId) :
    (PeerId → Option TaskId) → List (Tagged EventsPeerManager) → Prop
  | _, [] => True
  | owner, item :: rest =>
      (∀ peerid message, item.event = .readyMessage peerid message →
        ∀ holder ∈ owner peerid, holder = current peerid) ∧
      ReadySettled current (ownerAfter owner item) rest

theorem readySettled_append {current : PeerId → TaskId}
    {queue : List (Tagged EventsPeerManager)} :
    ReadySettled current owner (queue ++ [item]) ↔
      ReadySettled current owner queue ∧
        ∀ peerid message, item.event = .readyMessage peerid message →
          ∀ holder ∈ replay owner queue peerid, holder = current peerid := by
  induction queue generalizing owner with
  | nil => simp [ReadySettled, replay]
  | cons first rest ih =>
      simp only [List.cons_append, ReadySettled, ih, and_assoc]
      rfl

/-- Only the peers with queued messages matter. -/
theorem ReadySettled.congr {current current' : PeerId → TaskId}
    {queue : List (Tagged EventsPeerManager)}
    (hsettled : ReadySettled current owner queue)
    (hcurrent : ∀ item ∈ queue, ∀ peerid, Concerns item.event peerid →
      current' peerid = current peerid) :
    ReadySettled current' owner queue := by
  induction queue generalizing owner with
  | nil => trivial
  | cons first rest ih =>
      refine ⟨fun peerid message hready holder hholder => ?_,
        ih hsettled.2 fun item hitem => hcurrent item (.tail _ hitem)⟩
      rw [hcurrent first List.mem_cons_self peerid (.inl ⟨message, hready⟩)]
      exact hsettled.1 peerid message hready holder hholder

end Queue

end P2PNetwork.Runtime
