import P2PNetwork.Protocol.Links

/-!
# The stages of one link

What the turns of the two ends of a link come to when their sends succeed, and
the stages the link goes through from there: no order of deliveries leads to a
message that an end does not expect.
-/

namespace P2PNetwork.Links

open P2PNetwork.Events
open P2PNetwork.FiniteTable
open P2PNetwork.Handler
open P2PNetwork.Handshake
open P2PNetwork.Wire

/-! ## What a turn comes to when every send succeeds -/

/-- The turn ends normally after enqueueing `messages` for the peer, whose two
entries become `context` and `flags`; no other entry changes. -/
def Settles (peerid : PeerId) (self : HandleMessage) (turn : HandleTurn)
    (messages : List MessagePayload) (context : PeerContextMetadata)
    (flags : PeerStateMetadata) : Prop :=
  ∃ after,
    turn.runWith (fun _ => true) =
      (messages.map (.readyMessage peerid), after, .next) ∧
    (∀ other, after.setContextPeers.lookup other =
      if other = peerid then some context
      else self.setContextPeers.lookup other) ∧
    ∀ other, after.setStatePeers.lookup other =
      if other = peerid then some flags else self.setStatePeers.lookup other

def offeredFlags : PeerStateMetadata :=
  { PeerStateMetadata.create with sendVersion := true }

def answeredFlags : PeerStateMetadata :=
  { offeredFlags with recvVersion := true, sendVerack := true }

def agreedFlags : PeerStateMetadata :=
  { answeredFlags with recvVerack := true, completedHandshake := true }

section Settling

variable {self : HandleMessage} {peerid : PeerId}

theorem settles_addPeer {context : StructContextConnection}
    (hcontext : context.peerid ∉ self.setContextPeers)
    (hstate : context.peerid ∉ self.setStatePeers) :
    (∀ other, (self.addPeer context).setContextPeers.lookup other =
      if other = context.peerid then some (contextMetadata context)
      else self.setContextPeers.lookup other) ∧
    ∀ other, (self.addPeer context).setStatePeers.lookup other =
      if other = context.peerid then some PeerStateMetadata.create
      else self.setStatePeers.lookup other := by
  simp [HandleMessage.addPeer, hcontext, hstate, lookup_insert_ite, contextMetadata]

theorem settles_incomingConnection (now : UInt64)
    {context : StructContextConnection}
    (htype : context.typeConnection = .incomingConnection)
    (hcontext : context.peerid ∉ self.setContextPeers)
    (hstate : context.peerid ∉ self.setStatePeers) :
    Settles context.peerid self (self.newConnection (.ok now) context) []
      (contextMetadata context) PeerStateMetadata.create := by
  obtain ⟨hcontexts, hstates⟩ := settles_addPeer hcontext hstate
  refine ⟨self.addPeer context, ?_, hcontexts, hstates⟩
  simp [HandleMessage.newConnection, mem_iff_lookup, hcontexts, hstates,
    contextMetadata, htype]

theorem settles_outgoingConnection (now : UInt64)
    {context : StructContextConnection}
    (htype : context.typeConnection = .outgoingConnection)
    (hcontext : context.peerid ∉ self.setContextPeers)
    (hstate : context.peerid ∉ self.setStatePeers) :
    ∃ versionMessage, versionMessage.validationVersionMessage = true ∧
      Settles context.peerid self (self.newConnection (.ok now) context)
        [.version versionMessage] (contextMetadata context) offeredFlags := by
  obtain ⟨hcontexts, hstates⟩ := settles_addPeer hcontext hstate
  cases hbuild : VersionMessage.buildVersionMessage (.ok now)
      context.localAddress context.removeAddress context.nonce with
  | error reason => simp [VersionMessage.buildVersionMessage] at hbuild
  | ok versionMessage =>
      refine ⟨versionMessage,
        VersionMessage.validationVersionMessage_of_build hbuild,
        (self.addPeer context).setState context.peerid offeredFlags, ?_, ?_, ?_⟩
      · simp [HandleMessage.newConnection, mem_iff_lookup, hcontexts, hstates,
          contextMetadata, htype, hbuild, HandleMessage.markSendVersion,
          PeerStateMetadata.create, offeredFlags]
      · simpa [HandleMessage.setState] using hcontexts
      · intro other
        simp only [HandleMessage.setState, lookup_insert_ite, hstates]
        split <;> rfl

theorem settles_readyMessage {now : Except SystemTimeError UInt64}
    {message : MessagePayload} {context : PeerContextMetadata}
    {state flags : PeerStateMetadata} {messages : List MessagePayload}
    (hcontext : self.setContextPeers.lookup peerid = some context)
    (hstate : self.setStatePeers.lookup peerid = some state)
    (hcall : (handleMsg now peerid message context state).runWith
        (fun _ => true) = (messages.map (.readyMessage peerid), flags, .ok ())) :
    Settles peerid self (self.readyMessage now peerid message) messages
      context flags := by
  have hcontextMem := mem_iff_lookup.mpr ⟨_, hcontext⟩
  have hstateMem := mem_iff_lookup.mpr ⟨_, hstate⟩
  refine ⟨self.setState peerid flags, ?_, ?_, ?_⟩
  · have hwithin : ((handleMsg now peerid message context state).within
        (self.setState peerid)).runWith (fun _ => true) =
          (messages.map (.readyMessage peerid),
            self.setState peerid flags, .ok ()) := by
      rw [Await.runWith_within, hcall]
    have hafter : peerid ∈ (self.setState peerid flags).setStatePeers := by
      simp [HandleMessage.setState]
    simp only [HandleMessage.readyMessage, hcontextMem, hstateMem, if_true,
      hcontext, hstate]
    rw [Await.runWith_bind _ _ _ hwithin]
    simp [HandleMessage.afterHandleMsg, hafter]
  · intro other
    split
    case isTrue heq => exact heq ▸ hcontext
    case isFalse => rfl
  · intro other
    simp [HandleMessage.setState, lookup_insert_ite]

end Settling

/-! ## The stages of one link -/

/-- An incoming end before the first message reaches it. -/
def Waiting (incoming : Option PeerStateMetadata) : Prop :=
  ∀ flags, incoming = some flags → flags = PeerStateMetadata.create

/-- The flags of the two ends and the messages on the way to the outgoing and
to the incoming end. -/
inductive LinkStage : Option PeerStateMetadata → Option PeerStateMetadata →
    List MessagePayload → List MessagePayload → Prop where
  | unoffered {incoming : Option PeerStateMetadata}
      (hwaiting : Waiting incoming) : LinkStage none incoming [] []
  | offered {incoming : Option PeerStateMetadata}
      {versionMessage : VersionMessage} (hwaiting : Waiting incoming)
      (hvalid : versionMessage.validationVersionMessage = true) :
      LinkStage (some offeredFlags) incoming [] [.version versionMessage]
  | answered {versionMessage : VersionMessage} {verackMessage : VerackMessage}
      (hvalid : versionMessage.validationVersionMessage = true) :
      LinkStage (some offeredFlags) (some answeredFlags)
        [.version versionMessage, .verack verackMessage] []
  | exchanged {toOutgoing toIncoming : VerackMessage} :
      LinkStage (some answeredFlags) (some answeredFlags)
        [.verack toOutgoing] [.verack toIncoming]
  | outgoingAgreed {toIncoming : VerackMessage} :
      LinkStage (some agreedFlags) (some answeredFlags) []
        [.verack toIncoming]
  | incomingAgreed {toOutgoing : VerackMessage} :
      LinkStage (some answeredFlags) (some agreedFlags)
        [.verack toOutgoing] []
  | agreed : LinkStage (some agreedFlags) (some agreedFlags) [] []

namespace LinkStage

variable {outgoing incoming : Option PeerStateMetadata}
variable {toOutgoing toIncoming : List MessagePayload}

theorem connect_outgoing {versionMessage : VersionMessage}
    (hstage : LinkStage none incoming toOutgoing toIncoming)
    (hvalid : versionMessage.validationVersionMessage = true) :
    LinkStage (some offeredFlags) incoming toOutgoing
      (toIncoming ++ [.version versionMessage]) := by
  cases hstage with
  | unoffered hwaiting => exact .offered hwaiting hvalid

theorem connect_incoming
    (hstage : LinkStage outgoing none toOutgoing toIncoming) :
    LinkStage outgoing (some PeerStateMetadata.create) toOutgoing
      toIncoming := by
  have hwaiting : Waiting (some PeerStateMetadata.create) := by
    intro flags heq
    exact (Option.some.inj heq).symm
  cases hstage with
  | unoffered => exact .unoffered hwaiting
  | offered _ hvalid => exact .offered hwaiting hvalid

theorem deliver_outgoing {flags : PeerStateMetadata}
    {message : MessagePayload}
    (hstage : LinkStage (some flags) incoming (message :: toOutgoing)
      toIncoming)
    (now : Except SystemTimeError UInt64) (peerid : PeerId)
    {context : PeerContextMetadata}
    (htype : context.typeConnect = .outgoingConnection) :
    ∃ flags' messages,
      (handleMsg now peerid message context flags).runWith (fun _ => true) =
        (messages.map (.readyMessage peerid), flags', .ok ()) ∧
      LinkStage (some flags') incoming toOutgoing (toIncoming ++ messages) := by
  cases hstage with
  | answered hvalid =>
      refine ⟨answeredFlags, [.verack {}], ?_, .exchanged⟩
      simp [handleMsg, htype, handleOutgoingVersion, hvalid, answerVerack,
        offeredFlags, answeredFlags, PeerStateMetadata.create,
        VerackMessage.buildVerackMessage]
  | exchanged =>
      exact ⟨agreedFlags, [], rfl, .outgoingAgreed⟩
  | incomingAgreed =>
      exact ⟨agreedFlags, [], rfl, .agreed⟩

theorem deliver_incoming {flags : PeerStateMetadata}
    {message : MessagePayload}
    (hstage : LinkStage outgoing (some flags) toOutgoing
      (message :: toIncoming))
    (now : UInt64) (peerid : PeerId) {context : PeerContextMetadata}
    (htype : context.typeConnect = .incomingConnection) :
    ∃ flags' messages,
      (handleMsg (.ok now) peerid message context flags).runWith
          (fun _ => true) =
        (messages.map (.readyMessage peerid), flags', .ok ()) ∧
      LinkStage outgoing (some flags') (toOutgoing ++ messages) toIncoming := by
  cases hstage with
  | offered hwaiting hvalid =>
      cases hbuild : VersionMessage.buildVersionMessage (.ok now)
          context.localAddress context.removeAddress context.nonce with
      | error reason => simp [VersionMessage.buildVersionMessage] at hbuild
      | ok newVersionMessage =>
          refine ⟨answeredFlags, [.version newVersionMessage, .verack {}], ?_,
            .answered
              (VersionMessage.validationVersionMessage_of_build hbuild)⟩
          simp [handleMsg, htype, handleIncomingVersion, hvalid, hbuild,
            hwaiting _ rfl, answerVerack, offeredFlags, answeredFlags,
            PeerStateMetadata.create, VerackMessage.buildVerackMessage]
  | exchanged =>
      exact ⟨agreedFlags, [], rfl, .incomingAgreed⟩
  | outgoingAgreed =>
      exact ⟨agreedFlags, [], rfl, .agreed⟩

end LinkStage

/-- The stage of a link, seen from one of its ends. -/
def EndStage (typeConnect : TypeConnection)
    (own other : Option PeerStateMetadata)
    (toOwn toOther : List MessagePayload) : Prop :=
  match typeConnect with
  | .outgoingConnection => LinkStage own other toOwn toOther
  | .incomingConnection => LinkStage other own toOther toOwn

theorem endStage_opposite {Link : Type} {endpoint : End Link}
    {own other : Option PeerStateMetadata}
    {toOwn toOther : List MessagePayload} :
    EndStage (opposite endpoint).2 own other toOwn toOther ↔
      EndStage endpoint.2 other own toOther toOwn := by
  obtain ⟨link, _ | _⟩ := endpoint <;> rfl

theorem EndStage.deliver {typeConnect : TypeConnection}
    {flags : PeerStateMetadata} {other : Option PeerStateMetadata}
    {message : MessagePayload} {toOwn toOther : List MessagePayload}
    (hstage : EndStage typeConnect (some flags) other (message :: toOwn) toOther)
    (now : UInt64) (peerid : PeerId) {context : PeerContextMetadata}
    (htype : context.typeConnect = typeConnect) :
    ∃ flags' messages,
      (handleMsg (.ok now) peerid message context flags).runWith
          (fun _ => true) =
        (messages.map (.readyMessage peerid), flags', .ok ()) ∧
      EndStage typeConnect (some flags') other toOwn (toOther ++ messages) := by
  cases typeConnect with
  | outgoingConnection => exact hstage.deliver_outgoing _ peerid htype
  | incomingConnection => exact hstage.deliver_incoming now peerid htype

/-- Announcing an end that was not announced before. -/
theorem EndStage.connect {self : HandleMessage}
    {context : StructContextConnection} {other : Option PeerStateMetadata}
    {toOwn toOther : List MessagePayload}
    (hstage : EndStage context.typeConnection none other toOwn toOther)
    (now : UInt64) (hcontext : context.peerid ∉ self.setContextPeers)
    (hstate : context.peerid ∉ self.setStatePeers) :
    ∃ flags messages,
      Settles context.peerid self (self.newConnection (.ok now) context)
        messages (contextMetadata context) flags ∧
      EndStage context.typeConnection (some flags) other toOwn
        (toOther ++ messages) := by
  cases htype : context.typeConnection with
  | incomingConnection =>
      rw [htype] at hstage
      refine ⟨_, _, settles_incomingConnection now htype hcontext hstate, ?_⟩
      simpa [EndStage] using hstage.connect_incoming
  | outgoingConnection =>
      rw [htype] at hstage
      obtain ⟨versionMessage, hvalid, hsettles⟩ :=
        settles_outgoingConnection now htype hcontext hstate
      exact ⟨_, _, hsettles, hstage.connect_outgoing hvalid⟩

end P2PNetwork.Links
