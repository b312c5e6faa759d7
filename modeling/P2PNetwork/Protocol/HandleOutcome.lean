import P2PNetwork.Protocol.HandleMessage

/-!
# What handling a message does

`handle_msg` accepts the messages that the flags of the peer await.  Which of
its exits it takes is told by the awaited message, the contents of a version
message and the clock.
-/

namespace P2PNetwork.Handshake

open P2PNetwork.Events
open P2PNetwork.Wire

/-! ## What is still awaited of a peer -/

/-- The flags with which a version message is accepted. -/
def AwaitsVersion : TypeConnection → PeerStateMetadata → Prop
  | .incomingConnection, state =>
      state.recvVersion = false ∧ state.sendVersion = false ∧
        state.recvVerack = false ∧ state.sendVerack = false
  | .outgoingConnection, state =>
      state.sendVersion = true ∧ state.recvVersion = false ∧
        state.sendVerack = false ∧ state.recvVerack = false

/-- The flags with which a verack message is accepted. -/
def AwaitsVerack (state : PeerStateMetadata) : Prop :=
  state.recvVersion = true ∧ state.sendVersion = true ∧
    state.sendVerack = true ∧ state.recvVerack = false

theorem AwaitsVersion.sendVerack {typeConnect : TypeConnection}
    {state : PeerStateMetadata} (hawaits : AwaitsVersion typeConnect state) :
    state.sendVerack = false := by
  cases typeConnect with
  | incomingConnection => exact hawaits.2.2.2
  | outgoingConnection => exact hawaits.2.2.1

def Awaits (typeConnect : TypeConnection) (state : PeerStateMetadata) :
    MessagePayload → Prop
  | .version _ => AwaitsVersion typeConnect state
  | .verack _ => AwaitsVerack state

/-- A version message that passes `validation_version_message`. -/
def ValidVersion (message : MessagePayload) : Prop :=
  ∃ versionMessage, message = .version versionMessage ∧
    versionMessage.validationVersionMessage = true

/-- A version message that does not pass it. -/
def InvalidVersion (message : MessagePayload) : Prop :=
  ∃ versionMessage, message = .version versionMessage ∧
    versionMessage.validationVersionMessage = false

theorem InvalidVersion.not_valid {message : MessagePayload}
    (hinvalid : InvalidVersion message) : ¬ValidVersion message := by
  rintro ⟨versionMessage, rfl, hvalid⟩
  obtain ⟨other, heq, hinvalid⟩ := hinvalid
  cases heq
  rw [hvalid] at hinvalid
  cases hinvalid

/-! ## The exits of `handle_msg` -/

/-- What `handle_msg` is, by what it has found. -/
inductive HandleOutcome (now : Except SystemTimeError UInt64) (peerid : PeerId)
    (message : MessagePayload) (context : PeerContextMetadata)
    (state : PeerStateMetadata) : HandleMsg → Prop where
  | violent (reason : ErrorHandle)
      (hunawaited : ¬Awaits context.typeConnect state message)
      (hcontents : context.typeConnect = .outgoingConnection →
        ¬InvalidVersion message) :
      HandleOutcome now peerid message context state
        (violentCompleted peerid reason state)
  | invalid (hinvalid : InvalidVersion message)
      (horder : context.typeConnect = .incomingConnection →
        Awaits context.typeConnect state message) :
      HandleOutcome now peerid message context state
        (.done state (.error .errorInvalidVersionMessage))
  | unbuilt {reason : ErrorCreateVersionMessage} (hvalid : ValidVersion message)
      (hawaited : Awaits context.typeConnect state message)
      (htype : context.typeConnect = .incomingConnection)
      (hbuild : VersionMessage.buildVersionMessage now context.localAddress
        context.removeAddress context.nonce = .error reason) :
      HandleOutcome now peerid message context state
        (.done { state with recvVersion := true }
          (.error (.errorCreateVersionMessage reason)))
  | answer {versionMessage : VersionMessage} (hvalid : ValidVersion message)
      (hawaited : Awaits context.typeConnect state message)
      (htype : context.typeConnect = .incomingConnection)
      (hbuild : VersionMessage.buildVersionMessage now context.localAddress
        context.removeAddress context.nonce = .ok versionMessage) :
      HandleOutcome now peerid message context state
        (.issue { state with recvVersion := true }
          (.readyMessage peerid (.version versionMessage)) fun delivered =>
            if delivered then
              answerVerack peerid
                { state with recvVersion := true, sendVersion := true }
            else .done { state with recvVersion := true }
              (.error .peerManagerClosed))
  | verack (hvalid : ValidVersion message)
      (hawaited : Awaits context.typeConnect state message)
      (htype : context.typeConnect = .outgoingConnection) :
      HandleOutcome now peerid message context state
        (answerVerack peerid { state with recvVersion := true })
  | completed {verackMessage : VerackMessage}
      (hmessage : message = .verack verackMessage)
      (hawaited : AwaitsVerack state) :
      HandleOutcome now peerid message context state
        (.done { state with recvVerack := true, completedHandshake := true }
          (.ok ()))

section Outcome

variable {now : Except SystemTimeError UInt64} {peerid : PeerId}
  {context : PeerContextMetadata} {state : PeerStateMetadata}

theorem handleVerack_outcome (verackMessage : VerackMessage) :
    HandleOutcome now peerid (.verack verackMessage) context state
      (handleVerack peerid state) := by
  unfold handleVerack
  split
  case isTrue hguard =>
    simp only [Bool.and_eq_true, Bool.not_eq_true'] at hguard
    obtain ⟨⟨⟨hrecvVersion, hsendVersion⟩, hsendVerack⟩, hrecvVerack⟩ := hguard
    have hflags : (state.sendVersion && state.recvVersion &&
        state.sendVerack && true) = true := by
      simp [hsendVersion, hrecvVersion, hsendVerack]
    rw [if_pos hflags]
    exact .completed rfl
      ⟨hrecvVersion, hsendVersion, hsendVerack, hrecvVerack⟩
  case isFalse hguard =>
    refine .violent _ ?_ fun _ => ?_
    · rintro ⟨hrecvVersion, hsendVersion, hsendVerack, hrecvVerack⟩
      apply hguard
      simp [hsendVersion, hrecvVersion, hsendVerack, hrecvVerack]
    · rintro ⟨versionMessage, heq, -⟩
      cases heq

theorem handleIncomingVersion_outcome (versionMessage : VersionMessage)
    (htype : context.typeConnect = .incomingConnection) :
    HandleOutcome now peerid (.version versionMessage) context state
      (handleIncomingVersion now peerid versionMessage context state) := by
  have hguard : (!state.recvVersion && !state.sendVersion &&
      !state.recvVerack && !state.sendVerack) = true ↔
        Awaits context.typeConnect state (.version versionMessage) := by
    simp [Awaits, htype, AwaitsVersion, and_assoc]
  unfold handleIncomingVersion
  split
  case isFalse hlate =>
    refine .violent _ (hguard.not.mp hlate) fun houtgoing => ?_
    rw [htype] at houtgoing
    cases houtgoing
  case isTrue hawaited =>
    rw [hguard] at hawaited
    split
    case isFalse hinvalid =>
      rw [Bool.not_eq_true] at hinvalid
      exact .invalid ⟨versionMessage, rfl, hinvalid⟩ fun _ => hawaited
    case isTrue hvalid =>
      cases hbuild : VersionMessage.buildVersionMessage now
          context.localAddress context.removeAddress context.nonce with
      | error reason =>
          exact .unbuilt ⟨versionMessage, rfl, hvalid⟩ hawaited htype hbuild
      | ok newVersionMessage =>
          exact .answer ⟨versionMessage, rfl, hvalid⟩ hawaited htype hbuild

theorem handleOutgoingVersion_outcome (versionMessage : VersionMessage)
    (htype : context.typeConnect = .outgoingConnection) :
    HandleOutcome now peerid (.version versionMessage) context state
      (handleOutgoingVersion peerid versionMessage state) := by
  have hguard : (state.sendVersion && !state.recvVersion &&
      !state.sendVerack && !state.recvVerack) = true ↔
        Awaits context.typeConnect state (.version versionMessage) := by
    simp [Awaits, htype, AwaitsVersion, and_assoc]
  unfold handleOutgoingVersion
  split
  case isFalse hinvalid =>
    rw [Bool.not_eq_true] at hinvalid
    refine .invalid ⟨versionMessage, rfl, hinvalid⟩ fun hincoming => ?_
    rw [htype] at hincoming
    cases hincoming
  case isTrue hvalid =>
    split
    case isTrue hawaited =>
      exact .verack ⟨versionMessage, rfl, hvalid⟩ (hguard.mp hawaited) htype
    case isFalse hlate =>
      refine .violent _ (hguard.not.mp hlate) fun _ hinvalid => ?_
      exact hinvalid.not_valid ⟨versionMessage, rfl, hvalid⟩

theorem handleMsg_outcome (message : MessagePayload) :
    HandleOutcome now peerid message context state
      (handleMsg now peerid message context state) := by
  cases message with
  | verack verackMessage => exact handleVerack_outcome verackMessage
  | version versionMessage =>
      unfold handleMsg
      cases htype : context.typeConnect with
      | incomingConnection =>
          exact handleIncomingVersion_outcome versionMessage htype
      | outgoingConnection =>
          exact handleOutgoingVersion_outcome versionMessage htype

end Outcome

end P2PNetwork.Handshake
