import P2PNetwork.Core.EventLoop
import P2PNetwork.Core.FiniteTable
import P2PNetwork.Network.Events

/-!
# The handshake of the node

`HandleMessage` keeps a context and the handshake flags of every peer and
answers the events of `PeerManager`.  A turn of its loop is a computation with
awaited sends to `PeerManager`; the answer of a send is whether the channel
took the event.
-/

namespace P2PNetwork.Handshake

open P2PNetwork.Events
open P2PNetwork.FiniteTable
open P2PNetwork.Handler
open P2PNetwork.Wire

inductive ErrorHandle where
  | peerManagerClosed
  | errorCreateVersionMessage (reason : ErrorCreateVersionMessage)
  | errorInvalidVersionMessage
  | errorInvalidStateVersion
  | errorInvalidStateVerack
  | errorInvalidStateHandshake
  deriving DecidableEq

inductive ErrorHandleMessage where
  | errorChannelThreadProtocolClosed
  | errorChannelPeerManagerClosed
  deriving DecidableEq

inductive EventsCriticalCompletionHandleMessage where
  | incidentConfirmationShutdown
  | incidentChannelThreadProtocolClosed
  | incidentChannelPeerManagerClosed
  deriving DecidableEq

structure PeerContextMetadata where
  typeConnect : TypeConnection
  nonce : UInt64
  localAddress : SocketAddr
  removeAddress : SocketAddr
  deriving DecidableEq

structure PeerStateMetadata where
  sendVersion : Bool
  recvVerack : Bool
  sendVerack : Bool
  recvVersion : Bool
  completedHandshake : Bool
  deriving DecidableEq

def PeerStateMetadata.create : PeerStateMetadata where
  sendVersion := false
  recvVerack := false
  sendVerack := false
  recvVersion := false
  completedHandshake := false

/-! ## Handling one message -/

/-- A handler of a message of one peer, over the flags of that peer. -/
abbrev HandleMsg :=
  Await PeerStateMetadata EventsHandleMessage Bool (Except ErrorHandle Unit)

/-- Report the peer as violating the protocol and return `reason`. -/
def violentCompleted (peerid : PeerId) (reason : ErrorHandle)
    (state : PeerStateMetadata) : HandleMsg :=
  .issue state (.incidetViolentComplitedPeer peerid) fun delivered =>
    if delivered then .done state (.error reason)
    else .done state (.error .peerManagerClosed)

/-- Send a verack message and set `send_verack`. -/
def answerVerack (peerid : PeerId) (state : PeerStateMetadata) : HandleMsg :=
  .issue state
    (.readyMessage peerid (.verack VerackMessage.buildVerackMessage))
    fun delivered =>
      if delivered then .done { state with sendVerack := true } (.ok ())
      else .done state (.error .peerManagerClosed)

/-- A version message of a peer that connected to us: answered with our
version and a verack. -/
def handleIncomingVersion (now : Except SystemTimeError UInt64)
    (peerid : PeerId) (versionMessage : VersionMessage)
    (context : PeerContextMetadata) (state : PeerStateMetadata) : HandleMsg :=
  if !state.recvVersion && !state.sendVersion && !state.recvVerack &&
      !state.sendVerack then
    if versionMessage.validationVersionMessage then
      let state := { state with recvVersion := true }
      match VersionMessage.buildVersionMessage now context.localAddress
          context.removeAddress context.nonce with
      | .ok newVersionMessage =>
          .issue state (.readyMessage peerid (.version newVersionMessage))
            fun delivered =>
              if delivered then
                answerVerack peerid { state with sendVersion := true }
              else .done state (.error .peerManagerClosed)
      | .error reason => .done state (.error (.errorCreateVersionMessage reason))
    else .done state (.error .errorInvalidVersionMessage)
  else violentCompleted peerid .errorInvalidStateVersion state

/-- A version message of a peer we connected to: answered with a verack.  Here
the contents are checked before the order. -/
def handleOutgoingVersion (peerid : PeerId) (versionMessage : VersionMessage)
    (state : PeerStateMetadata) : HandleMsg :=
  if versionMessage.validationVersionMessage then
    if state.sendVersion && !state.recvVersion && !state.sendVerack &&
        !state.recvVerack then
      answerVerack peerid { state with recvVersion := true }
    else violentCompleted peerid .errorInvalidStateVersion state
  else .done state (.error .errorInvalidVersionMessage)

def handleVerack (peerid : PeerId) (state : PeerStateMetadata) : HandleMsg :=
  if state.recvVersion && state.sendVersion && state.sendVerack &&
      !state.recvVerack then
    let state := { state with recvVerack := true }
    if state.sendVersion && state.recvVersion && state.sendVerack &&
        state.recvVerack then
      .done { state with completedHandshake := true } (.ok ())
    else violentCompleted peerid .errorInvalidStateHandshake state
  else violentCompleted peerid .errorInvalidStateVerack state

/-- `now` is the clock that `build_version_message` reads. -/
def handleMsg (now : Except SystemTimeError UInt64) (peerid : PeerId)
    (message : MessagePayload) (context : PeerContextMetadata)
    (state : PeerStateMetadata) : HandleMsg :=
  match message with
  | .version versionMessage =>
      match context.typeConnect with
      | .incomingConnection =>
          handleIncomingVersion now peerid versionMessage context state
      | .outgoingConnection =>
          handleOutgoingVersion peerid versionMessage state
  | .verack _ => handleVerack peerid state

/-! ## The event loop -/

structure HandleMessage where
  setContextPeers : Table PeerId PeerContextMetadata
  setStatePeers : Table PeerId PeerStateMetadata

def HandleMessage.create : HandleMessage where
  setContextPeers := ∅
  setStatePeers := ∅

/-- What `select!` finds ready.  An event of `PeerManager` comes with the clock
that `build_version_message` reads, if handling the event builds a message. -/
inductive HandleInput where
  | incidentThreadProtocol (incident : Option EventsThreadProtocol)
  | incidentPeermanager (now : Except SystemTimeError UInt64)
      (incident : Option EventsPeerManager)

/-- A turn, or the rest of one, of the loop of `HandleMessage`. -/
abbrev HandleTurn :=
  Await HandleMessage EventsHandleMessage Bool
    (Flow EventsCriticalCompletionHandleMessage)

/-- The entry that `HandleMessage` makes of the context of a connection. -/
def contextMetadata (context : StructContextConnection) :
    PeerContextMetadata where
  typeConnect := context.typeConnection
  nonce := context.nonce
  localAddress := context.localAddress
  removeAddress := context.removeAddress

namespace HandleMessage

/-- Write the flags of a peer back. -/
def setState (self : HandleMessage) (peerid : PeerId)
    (state : PeerStateMetadata) : HandleMessage :=
  { self with setStatePeers := self.setStatePeers.insert peerid state }

/-- The entries that a new connection has after the two `contains_key`
guards. -/
def addPeer (self : HandleMessage) (context : StructContextConnection) :
    HandleMessage where
  setContextPeers :=
    if context.peerid ∈ self.setContextPeers then self.setContextPeers
    else self.setContextPeers.insert context.peerid {
      typeConnect := context.typeConnection
      nonce := context.nonce
      localAddress := context.localAddress
      removeAddress := context.removeAddress }
  setStatePeers :=
    if context.peerid ∈ self.setStatePeers then self.setStatePeers
    else self.setStatePeers.insert context.peerid PeerStateMetadata.create

/-- What follows the delivery of the first version message. -/
def markSendVersion (self : HandleMessage) (peerid : PeerId) : HandleMessage :=
  match self.setStatePeers.lookup peerid with
  | some state =>
      if !state.sendVersion && !state.recvVersion && !state.sendVerack &&
          !state.recvVerack then
        self.setState peerid { state with sendVersion := true }
      else self
  | none => self

def newConnection (now : Except SystemTimeError UInt64)
    (context : StructContextConnection) (self : HandleMessage) : HandleTurn :=
  let peerid := context.peerid
  let self := self.addPeer context
  if peerid ∈ self.setContextPeers ∧ peerid ∈ self.setStatePeers then
    match self.setContextPeers.lookup peerid with
    | none => .done self .panicked
    | some contextPeers =>
        match contextPeers.typeConnect with
        | .incomingConnection => .done self .next
        | .outgoingConnection =>
            match VersionMessage.buildVersionMessage now
                contextPeers.localAddress contextPeers.removeAddress
                contextPeers.nonce with
            | .ok newMessageVersion =>
                .issue self (.readyMessage peerid (.version newMessageVersion))
                  fun delivered =>
                    if delivered then .done (self.markSendVersion peerid) .next
                    else .done self (.leave .incidentChannelPeerManagerClosed)
            | .error _ => .done self .next
  else .done self .next

/-- The log line after a handled message indexes the flags once more; an error
is only logged. -/
def afterHandleMsg (peerid : PeerId) (self : HandleMessage) :
    Except ErrorHandle Unit → HandleTurn
  | .ok _ =>
      if peerid ∈ self.setStatePeers then .done self .next
      else .done self .panicked
  | .error _ => .done self .next

def readyMessage (now : Except SystemTimeError UInt64) (peerid : PeerId)
    (message : MessagePayload) (self : HandleMessage) : HandleTurn :=
  if peerid ∈ self.setContextPeers then
    if peerid ∈ self.setStatePeers then
      match self.setContextPeers.lookup peerid,
          self.setStatePeers.lookup peerid with
      | some context, some state =>
          ((handleMsg now peerid message context state).within
            (self.setState peerid)).bind (afterHandleMsg peerid)
      | _, _ => .done self .panicked
    else .done self .next
  else .done self .next

def completedAllPeer (_self : HandleMessage) : HandleMessage where
  setContextPeers := ∅
  setStatePeers := ∅

def completedPeer (self : HandleMessage) (peerid : PeerId) : HandleMessage where
  setContextPeers := self.setContextPeers.erase peerid
  setStatePeers := self.setStatePeers.erase peerid

/-- A turn of `HandleMessage::run`. -/
def turn : HandleInput → HandleMessage → HandleTurn
  | .incidentThreadProtocol (some .shutdown), self =>
      .done self (.leave .incidentConfirmationShutdown)
  | .incidentThreadProtocol none, self =>
      .done self (.leave .incidentChannelThreadProtocolClosed)
  | .incidentPeermanager now (some (.readyMessage peerid message)), self =>
      self.readyMessage now peerid message
  | .incidentPeermanager now (some (.incidentNewConnection context)), self =>
      self.newConnection now context
  | .incidentPeermanager _ (some .incidentCompletedAllPeer), self =>
      .done self.completedAllPeer .next
  | .incidentPeermanager _ (some (.incidentCompletedPeer peerid)), self =>
      .done (self.completedPeer peerid) .next
  | .incidentPeermanager _ (some _), self => .done self .next
  | .incidentPeermanager _ none, self =>
      .done self (.leave .incidentChannelPeerManagerClosed)

/-- What `HandleMessage::run` returns after its loop. -/
def criticalResult :
    EventsCriticalCompletionHandleMessage → Except ErrorHandleMessage Unit
  | .incidentConfirmationShutdown => .ok ()
  | .incidentChannelThreadProtocolClosed =>
      .error .errorChannelThreadProtocolClosed
  | .incidentChannelPeerManagerClosed => .error .errorChannelPeerManagerClosed

end HandleMessage

end P2PNetwork.Handshake
