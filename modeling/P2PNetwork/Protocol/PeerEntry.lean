import P2PNetwork.Protocol.HandleMessage

/-!
# One peer's part of the protocol

With its channel open `HandleMessage` is one small machine for each peer: what
an event does to the entry of a peer, and which events it enqueues for that
peer, depends on the event and that entry alone.  Events of the other peers
leave the machine where it is.
-/

namespace P2PNetwork.Handshake

open P2PNetwork.Events
open P2PNetwork.Wire

/-! ## The machine of one peer -/

/-- What the tables hold for one peer. -/
@[ext]
structure PeerEntry where
  context : Option PeerContextMetadata
  state : Option PeerStateMetadata
  deriving DecidableEq

def HandleMessage.entry (self : HandleMessage) (peerid : PeerId) : PeerEntry where
  context := self.setContextPeers.lookup peerid
  state := self.setStatePeers.lookup peerid

/-- The answer of an open channel. -/
def delivered : EventsHandleMessage → Bool := fun _ => true

namespace PeerEntry

def readyMessage (now : Except SystemTimeError UInt64) (peerid : PeerId)
    (message : MessagePayload) (self : PeerEntry) :
    List EventsHandleMessage × PeerEntry :=
  match self.context, self.state with
  | some context, some state =>
      let handled := (handleMsg now peerid message context state).runWith delivered
      (handled.1, { self with state := some handled.2.1 })
  | _, _ => ([], self)

/-- The flags after the first version message was enqueued. -/
def markSendVersion (state : PeerStateMetadata) : PeerStateMetadata :=
  if !state.sendVersion && !state.recvVersion && !state.sendVerack &&
      !state.recvVerack then { state with sendVersion := true }
  else state

/-- The entry that a new connection finds after the two guards. -/
def added (context : StructContextConnection) (self : PeerEntry) : PeerEntry where
  context := some (self.context.getD {
    typeConnect := context.typeConnection
    nonce := context.nonce
    localAddress := context.localAddress
    removeAddress := context.removeAddress })
  state := some (self.state.getD PeerStateMetadata.create)

def newConnection (now : Except SystemTimeError UInt64)
    (context : StructContextConnection) (self : PeerEntry) :
    List EventsHandleMessage × PeerEntry :=
  let self := self.added context
  match self.context, self.state with
  | some contextPeers, some state =>
      match contextPeers.typeConnect with
      | .incomingConnection => ([], self)
      | .outgoingConnection =>
          match VersionMessage.buildVersionMessage now contextPeers.localAddress
              contextPeers.removeAddress contextPeers.nonce with
          | .ok newMessageVersion =>
              ([.readyMessage context.peerid (.version newMessageVersion)],
                { self with state := some (markSendVersion state) })
          | .error _ => ([], self)
  | _, _ => ([], self)

/-- An event at the machine of `peerid`. -/
def step (peerid : PeerId) : HandleInput → PeerEntry →
    List EventsHandleMessage × PeerEntry
  | .incidentPeermanager now (some (.readyMessage sender message)), self =>
      if sender = peerid then self.readyMessage now peerid message
      else ([], self)
  | .incidentPeermanager now (some (.incidentNewConnection context)), self =>
      if context.peerid = peerid then self.newConnection now context
      else ([], self)
  | .incidentPeermanager _ (some .incidentCompletedAllPeer), _ =>
      ([], ⟨none, none⟩)
  | .incidentPeermanager _ (some (.incidentCompletedPeer completed)), self =>
      if completed = peerid then ([], ⟨none, none⟩) else ([], self)
  | _, self => ([], self)

end PeerEntry

/-- The inputs that end the loop. -/
def EndsLoop : HandleInput → Prop
  | .incidentThreadProtocol _ => True
  | .incidentPeermanager _ none => True
  | .incidentPeermanager _ (some _) => False

instance : DecidablePred EndsLoop := fun input =>
  match input with
  | .incidentThreadProtocol _ => isTrue trivial
  | .incidentPeermanager _ none => isTrue trivial
  | .incidentPeermanager _ (some _) => isFalse id

/-- The events of a list that are about `peerid`. -/
def ofPeer (peerid : PeerId) (events : List EventsHandleMessage) :
    List EventsHandleMessage :=
  events.filter fun event => event.peerid = peerid

@[simp]
theorem ofPeer_append (peerid : PeerId) (left right : List EventsHandleMessage) :
    ofPeer peerid (left ++ right) = ofPeer peerid left ++ ofPeer peerid right :=
  List.filter_append ..

theorem ofPeer_self {peerid : PeerId} {events : List EventsHandleMessage}
    (hpeer : ∀ event ∈ events, event.peerid = peerid) :
    ofPeer peerid events = events := by
  apply List.filter_eq_self.mpr
  intro event hevent
  exact decide_eq_true (hpeer event hevent)

theorem ofPeer_other {peerid other : PeerId} {events : List EventsHandleMessage}
    (hpeer : ∀ event ∈ events, event.peerid = other) (hne : other ≠ peerid) :
    ofPeer peerid events = [] := by
  apply List.filter_eq_nil_iff.mpr
  intro event hevent
  rw [hpeer event hevent]
  exact Bool.eq_false_iff.mp (decide_eq_false hne)

/-! ## The events of a handled message -/

/-- A handler of one peer sends events about that peer only. -/
def SpeaksAbout (peerid : PeerId) (handler : HandleMsg) : Prop :=
  handler.Holds (fun ghost _ _ => ghost) (fun _ _ event => event.peerid = peerid)
    (fun _ _ _ => True) ()

section HandleMsg

variable {now : Except SystemTimeError UInt64} {peerid : PeerId}

theorem violentCompleted_speaksAbout (reason : ErrorHandle)
    (state : PeerStateMetadata) :
    SpeaksAbout peerid (violentCompleted peerid reason state) := by
  refine ⟨rfl, fun delivered => ?_⟩
  cases delivered <;> trivial

theorem answerVerack_speaksAbout (state : PeerStateMetadata) :
    SpeaksAbout peerid (answerVerack peerid state) := by
  refine ⟨rfl, fun delivered => ?_⟩
  cases delivered <;> trivial

theorem handleIncomingVersion_speaksAbout (versionMessage : VersionMessage)
    (context : PeerContextMetadata) (state : PeerStateMetadata) :
    SpeaksAbout peerid
      (handleIncomingVersion now peerid versionMessage context state) := by
  unfold handleIncomingVersion
  split
  case isFalse => exact violentCompleted_speaksAbout _ _
  case isTrue =>
    split
    case isFalse => trivial
    case isTrue =>
      cases VersionMessage.buildVersionMessage now context.localAddress
          context.removeAddress context.nonce with
      | error reason => trivial
      | ok newVersionMessage =>
          refine ⟨rfl, fun delivered => ?_⟩
          cases delivered with
          | false => trivial
          | true => exact answerVerack_speaksAbout _

theorem handleOutgoingVersion_speaksAbout (versionMessage : VersionMessage)
    (state : PeerStateMetadata) :
    SpeaksAbout peerid (handleOutgoingVersion peerid versionMessage state) := by
  unfold handleOutgoingVersion
  split
  case isFalse => trivial
  case isTrue =>
    split
    · exact answerVerack_speaksAbout _
    · exact violentCompleted_speaksAbout _ _

theorem handleVerack_speaksAbout (state : PeerStateMetadata) :
    SpeaksAbout peerid (handleVerack peerid state) := by
  unfold handleVerack
  split
  case isFalse => exact violentCompleted_speaksAbout _ _
  case isTrue =>
    simp only
    split
    · trivial
    · exact violentCompleted_speaksAbout _ _

theorem handleMsg_speaksAbout (message : MessagePayload)
    (context : PeerContextMetadata) (state : PeerStateMetadata) :
    SpeaksAbout peerid (handleMsg now peerid message context state) := by
  unfold handleMsg
  split
  · split
    · exact handleIncomingVersion_speaksAbout _ _ _
    · exact handleOutgoingVersion_speaksAbout _ _
  · exact handleVerack_speaksAbout _

/-- A handled message enqueues events for its sender only. -/
theorem handleMsg_peerid (message : MessagePayload)
    (context : PeerContextMetadata) (state : PeerStateMetadata) :
    ∀ event ∈ ((handleMsg now peerid message context state).runWith delivered).1,
      event.peerid = peerid :=
  (handleMsg_speaksAbout message context state).operations delivered

end HandleMsg

end P2PNetwork.Handshake
