import P2PNetwork.Protocol.HandleMessage

/-!
# Nodes joined by links

Nodes run `HandleMessage` and are joined by links.  A link has an outgoing end
on one node and an incoming end on another; what a node enqueues for an end
arrives, in order, at the other end.  A node takes one event at a time and its
sends are steps of their own, so a message can be answered while the node that
sent it is still in the turn that sends the next one.
-/

namespace P2PNetwork.Links

open P2PNetwork.Events
open P2PNetwork.Handler
open P2PNetwork.Handshake
open P2PNetwork.Wire

variable {Node Link : Type}

/-- One end of a link, by the type of connection it is for its node. -/
abbrev End (Link : Type) := Link × TypeConnection

def opposite : End Link → End Link
  | (link, .incomingConnection) => (link, .outgoingConnection)
  | (link, .outgoingConnection) => (link, .incomingConnection)

@[simp]
theorem opposite_opposite (endpoint : End Link) :
    opposite (opposite endpoint) = endpoint := by
  obtain ⟨link, _ | _⟩ := endpoint <;> rfl

theorem opposite_ne (endpoint : End Link) : opposite endpoint ≠ endpoint := by
  obtain ⟨link, _ | _⟩ := endpoint <;> simp [opposite]

/-- Where the ends of the links are, and what their nodes know of them.  The
ids of the ends of one node are distinct. -/
structure Topology (Node Link : Type) where
  node : End Link → Node
  peerid : End Link → PeerId
  nonce : End Link → UInt64
  localAddress : End Link → SocketAddr
  removeAddress : End Link → SocketAddr
  distinct : ∀ left right, node left = node right →
    peerid left = peerid right → left = right

/-- The connection that the node of an end announces to its `HandleMessage`. -/
def Topology.connection (topology : Topology Node Link) (endpoint : End Link) :
    StructContextConnection where
  peerid := topology.peerid endpoint
  typeConnection := endpoint.2
  nonce := topology.nonce endpoint
  localAddress := topology.localAddress endpoint
  removeAddress := topology.removeAddress endpoint

/-! ## The nodes together -/

/-- `call` is the `handle_msg` a node is in, or was in last, seen with its own
result, which `HandleMessage` only logs. -/
structure World (Node Link : Type) where
  turn : Node → HandleTurn
  call : Node → Option HandleMsg
  connected : End Link → Bool
  inbox : End Link → List MessagePayload
  violations : List (Node × PeerId)

def World.initial : World Node Link where
  turn _ := .done HandleMessage.create .next
  call _ := none
  connected _ := false
  inbox _ := []
  violations := []

/-- The `handle_msg` that `HandleMessage` calls for a message, if the peer has
its two entries. -/
def handleCall (now : Except SystemTimeError UInt64) (peerid : PeerId)
    (message : MessagePayload) (self : HandleMessage) : Option HandleMsg :=
  match self.setContextPeers.lookup peerid, self.setStatePeers.lookup peerid with
  | some context, some state => some (handleMsg now peerid message context state)
  | _, _ => none

section Steps

variable [DecidableEq Node] [DecidableEq Link]

/-- An event a node has enqueued: a message goes to the other end of its
link. -/
def World.enqueue (topology : Topology Node Link) (world : World Node Link)
    (node : Node) : EventsHandleMessage → World Node Link
  | .readyMessage peerid message =>
      { world with inbox := fun endpoint =>
          if topology.node (opposite endpoint) = node ∧
              topology.peerid (opposite endpoint) = peerid then
            world.inbox endpoint ++ [message]
          else world.inbox endpoint }
  | .incidetViolentComplitedPeer peerid =>
      { world with violations := world.violations ++ [(node, peerid)] }

/-- The node of an end takes an event about it; the end is connected from then
on. -/
def World.take (topology : Topology Node Link) (world : World Node Link)
    (endpoint : End Link) (turn : HandleTurn) (call : Option HandleMsg)
    (inbox : End Link → List MessagePayload) : World Node Link where
  turn := Function.update world.turn (topology.node endpoint) turn
  call := Function.update world.call (topology.node endpoint) call
  connected := Function.update world.connected endpoint true
  inbox := inbox
  violations := world.violations

/-- The event a node awaits is accepted, and the node goes on with `turn`. -/
def World.send (topology : Topology Node Link) (world : World Node Link)
    (node : Node) (event : EventsHandleMessage) (turn : HandleTurn) :
    World Node Link :=
  { world.enqueue topology node event with
    turn := Function.update world.turn node turn
    call := Function.update world.call node
      ((world.call node).map (Await.answered true)) }

inductive Label (Node Link : Type) where
  | connect (endpoint : End Link)
  | deliver (endpoint : End Link)
  | send (node : Node)

/-- The steps of the nodes.  The clock can be read, every send succeeds and
nothing is delivered to an end before its connection is announced. -/
inductive Step (topology : Topology Node Link) :
    World Node Link → Label Node Link → World Node Link → Prop where
  | connect {world : World Node Link} {self : HandleMessage}
      (endpoint : End Link) (now : UInt64)
      (hidle : world.turn (topology.node endpoint) = .done self .next)
      (hfresh : world.connected endpoint = false) :
      Step topology world (.connect endpoint)
        (world.take topology endpoint
          (HandleMessage.turn (.incidentPeermanager (.ok now)
            (some (.incidentNewConnection (topology.connection endpoint))))
            self)
          none world.inbox)
  | deliver {world : World Node Link} {self : HandleMessage}
      {message : MessagePayload} {rest : List MessagePayload}
      (endpoint : End Link) (now : UInt64)
      (hidle : world.turn (topology.node endpoint) = .done self .next)
      (hconnected : world.connected endpoint = true)
      (hinbox : world.inbox endpoint = message :: rest) :
      Step topology world (.deliver endpoint)
        (world.take topology endpoint
          (HandleMessage.turn (.incidentPeermanager (.ok now)
            (some (.readyMessage (topology.peerid endpoint) message))) self)
          (handleCall (.ok now) (topology.peerid endpoint) message self)
          (Function.update world.inbox endpoint rest))
  | send {world : World Node Link} {self : HandleMessage}
      {event : EventsHandleMessage} {resume : Bool → HandleTurn} (node : Node)
      (hturn : world.turn node = .issue self event resume) :
      Step topology world (.send node)
        (world.send topology node event (resume true))

end Steps

end P2PNetwork.Links
