import P2PNetwork.Protocol.HandleOutcome

/-!
# Flags during the life of an entry

While the entry of a peer stays in the tables no flag of it returns to false.
-/

namespace P2PNetwork.Handshake

open P2PNetwork.Events
open P2PNetwork.FiniteTable
open P2PNetwork.Handler
open P2PNetwork.Wire

structure FlagsKept (before after : PeerStateMetadata) : Prop where
  sendVersion : before.sendVersion → after.sendVersion
  recvVerack : before.recvVerack → after.recvVerack
  sendVerack : before.sendVerack → after.sendVerack
  recvVersion : before.recvVersion → after.recvVersion
  completedHandshake : before.completedHandshake → after.completedHandshake

/-- The entry of `peerid` stays, and no flag of it returns to false. -/
def EntryKept (peerid : PeerId) (before after : HandleMessage) : Prop :=
  ∀ state, before.setStatePeers.lookup peerid = some state →
    ∃ state', after.setStatePeers.lookup peerid = some state' ∧
      FlagsKept state state'

/-- The inputs that remove the entry of `peerid`. -/
def EndsEntry (peerid : PeerId) : HandleInput → Prop
  | .incidentPeermanager _ (some (.incidentCompletedPeer completed)) =>
      completed = peerid
  | .incidentPeermanager _ (some .incidentCompletedAllPeer) => True
  | _ => False

theorem FlagsKept.refl (state : PeerStateMetadata) : FlagsKept state state := by
  constructor <;> exact id

theorem FlagsKept.trans {first middle last : PeerStateMetadata}
    (hfirst : FlagsKept first middle) (hlast : FlagsKept middle last) :
    FlagsKept first last where
  sendVersion := hlast.sendVersion ∘ hfirst.sendVersion
  recvVerack := hlast.recvVerack ∘ hfirst.recvVerack
  sendVerack := hlast.sendVerack ∘ hfirst.sendVerack
  recvVersion := hlast.recvVersion ∘ hfirst.recvVersion
  completedHandshake := hlast.completedHandshake ∘ hfirst.completedHandshake

theorem EntryKept.refl (peerid : PeerId) (tables : HandleMessage) :
    EntryKept peerid tables tables :=
  fun state hstate => ⟨state, hstate, .refl state⟩

theorem EntryKept.trans {peerid : PeerId} {first middle last : HandleMessage}
    (hfirst : EntryKept peerid first middle)
    (hlast : EntryKept peerid middle last) : EntryKept peerid first last := by
  intro state hstate
  obtain ⟨state', hstate', hkept⟩ := hfirst state hstate
  obtain ⟨state'', hstate'', hkept'⟩ := hlast state' hstate'
  exact ⟨state'', hstate'', hkept.trans hkept'⟩

/-- A handler of a message only sets flags. -/
def OnlySets (state : PeerStateMetadata) (handler : HandleMsg) : Prop :=
  FlagsKept state handler.state ∧ handler.Moves FlagsKept

theorem violentCompleted_onlySets (peerid : PeerId) (reason : ErrorHandle)
    (state : PeerStateMetadata) :
    OnlySets state (violentCompleted peerid reason state) := by
  refine ⟨.refl state, fun delivered => ?_⟩
  cases delivered <;> exact ⟨.refl state, trivial⟩

theorem answerVerack_onlySets (peerid : PeerId) (state : PeerStateMetadata) :
    OnlySets state (answerVerack peerid state) := by
  refine ⟨.refl state, fun delivered => ?_⟩
  cases delivered with
  | false => exact ⟨.refl state, trivial⟩
  | true => exact ⟨by constructor <;> simp, trivial⟩

theorem OnlySets.of_kept {before state : PeerStateMetadata}
    {handler : HandleMsg} (hkept : FlagsKept before state)
    (honly : OnlySets state handler) : OnlySets before handler :=
  ⟨hkept.trans honly.1, honly.2⟩

theorem FlagsKept.withRecvVersion (state : PeerStateMetadata) :
    FlagsKept state { state with recvVersion := true } := by
  constructor <;> simp

theorem handleMsg_onlySets (now : Except SystemTimeError UInt64)
    (peerid : PeerId) (message : MessagePayload)
    (context : PeerContextMetadata) (state : PeerStateMetadata) :
    OnlySets state (handleMsg now peerid message context state) := by
  have houtcome :
      HandleOutcome now peerid message context state
        (handleMsg now peerid message context state) :=
    handleMsg_outcome message
  generalize handleMsg now peerid message context state = handler at houtcome ⊢
  cases houtcome with
  | violent reason => exact violentCompleted_onlySets peerid reason state
  | invalid => exact ⟨.refl state, trivial⟩
  | unbuilt => exact ⟨.withRecvVersion state, trivial⟩
  | answer =>
      refine ⟨.withRecvVersion state, fun delivered => ?_⟩
      cases delivered with
      | false => exact ⟨.refl _, trivial⟩
      | true =>
          exact (answerVerack_onlySets peerid _).of_kept (by constructor <;> simp)
  | verack =>
      exact (answerVerack_onlySets peerid _).of_kept (.withRecvVersion state)
  | completed => exact ⟨by constructor <;> simp, trivial⟩

section Life

variable {tables : HandleMessage} {peerid : PeerId}

theorem EntryKept.setState {before : HandleMessage} {other : PeerId}
    {state : PeerStateMetadata}
    (hsame : ∀ state', before.setStatePeers.lookup other = some state' →
      FlagsKept state' state)
    (hothers : ∀ key, key ≠ other →
      before.setStatePeers.lookup key = tables.setStatePeers.lookup key) :
    EntryKept peerid before (tables.setState other state) := by
  intro state' hstate'
  by_cases heq : peerid = other
  · subst heq
    exact ⟨state, by simp [HandleMessage.setState], hsame state' hstate'⟩
  · rw [hothers peerid heq] at hstate'
    exact ⟨state', by simpa [HandleMessage.setState, heq] using hstate',
      .refl state'⟩

theorem EntryKept.addPeer (context : StructContextConnection) :
    EntryKept peerid tables (tables.addPeer context) := by
  intro state hstate
  refine ⟨state, ?_, .refl state⟩
  have hmem : peerid ∈ tables.setStatePeers := mem_iff_lookup.mpr ⟨_, hstate⟩
  by_cases hnew : context.peerid ∈ tables.setStatePeers
  · simpa [HandleMessage.addPeer, hnew] using hstate
  · have hne : peerid ≠ context.peerid := fun heq => hnew (heq ▸ hmem)
    simpa [HandleMessage.addPeer, hnew, hne] using hstate

theorem EntryKept.markSendVersion (other : PeerId) :
    EntryKept peerid tables (tables.markSendVersion other) := by
  unfold HandleMessage.markSendVersion
  split
  case h_2 => exact .refl peerid tables
  case h_1 state hstate =>
    split
    case isFalse => exact .refl peerid tables
    case isTrue =>
      refine EntryKept.setState (fun state' hstate' => ?_) fun _ _ => rfl
      rw [hstate, Option.some.injEq] at hstate'
      subst hstate'
      constructor <;> simp

theorem newConnection_entryKept (now : Except SystemTimeError UInt64)
    (context : StructContextConnection) :
    EntryKept peerid tables (tables.newConnection now context).state ∧
      (tables.newConnection now context).Moves (EntryKept peerid) := by
  have hadded : EntryKept peerid tables (tables.addPeer context) :=
    .addPeer context
  simp only [HandleMessage.newConnection]
  split
  case isFalse => exact ⟨hadded, trivial⟩
  case isTrue =>
    split
    case h_1 => exact ⟨hadded, trivial⟩
    case h_2 contextPeers _ =>
      cases contextPeers.typeConnect with
      | incomingConnection => exact ⟨hadded, trivial⟩
      | outgoingConnection =>
          simp only
          cases VersionMessage.buildVersionMessage now contextPeers.localAddress
              contextPeers.removeAddress contextPeers.nonce with
          | error reason => exact ⟨hadded, trivial⟩
          | ok newMessageVersion =>
              refine ⟨hadded, fun delivered => ?_⟩
              cases delivered with
              | false => exact ⟨.refl _ _, trivial⟩
              | true => exact ⟨.markSendVersion _, trivial⟩

theorem afterHandleMsg_state (tables : HandleMessage)
    (result : Except ErrorHandle Unit) :
    (tables.afterHandleMsg peerid result).state = tables := by
  unfold HandleMessage.afterHandleMsg
  split
  · split <;> rfl
  · rfl

theorem afterHandleMsg_moves (relation : HandleMessage → HandleMessage → Prop)
    (tables : HandleMessage) (result : Except ErrorHandle Unit) :
    (tables.afterHandleMsg peerid result).Moves relation := by
  unfold HandleMessage.afterHandleMsg
  split
  · split <;> trivial
  · trivial

theorem readyMessage_entryKept (now : Except SystemTimeError UInt64)
    (other : PeerId) (message : MessagePayload) :
    EntryKept peerid tables (tables.readyMessage now other message).state ∧
      (tables.readyMessage now other message).Moves (EntryKept peerid) := by
  have hunchanged : EntryKept peerid tables tables := .refl peerid tables
  unfold HandleMessage.readyMessage
  split
  case isFalse => exact ⟨hunchanged, trivial⟩
  case isTrue =>
    split
    case isFalse => exact ⟨hunchanged, trivial⟩
    case isTrue =>
      split
      case h_2 => exact ⟨hunchanged, trivial⟩
      case h_1 context state hcontext hstate =>
        have honly := handleMsg_onlySets now other message context state
        constructor
        · rw [Await.state_bind fun reached result =>
            afterHandleMsg_state reached result, Await.state_within]
          refine EntryKept.setState (fun state' hstate' => ?_) fun _ _ => rfl
          rw [hstate, Option.some.injEq] at hstate'
          exact hstate' ▸ honly.1
        · refine Await.Moves.bind (Await.moves_within.mpr (honly.2.mono ?_))
            (fun reached result => afterHandleMsg_state reached result)
            (afterHandleMsg_moves _)
          intro before after hkept
          refine EntryKept.setState (fun state' hstate' => ?_)
            fun key hne => by simp [HandleMessage.setState, hne]
          simp only [HandleMessage.setState, AList.lookup_insert,
            Option.some.injEq] at hstate'
          exact hstate' ▸ hkept

theorem turn_moves (tables : HandleMessage) (input : HandleInput) :
    (HandleMessage.turn input tables).Moves (EntryKept peerid) := by
  unfold HandleMessage.turn
  split
  case h_3 => exact (readyMessage_entryKept ..).2
  case h_4 => exact (newConnection_entryKept ..).2
  all_goals trivial

theorem turn_entryKept {input : HandleInput} (hinput : ¬EndsEntry peerid input)
    (tables : HandleMessage) :
    EntryKept peerid tables (HandleMessage.turn input tables).state := by
  have hunchanged : EntryKept peerid tables tables := .refl peerid tables
  unfold HandleMessage.turn
  split
  case h_3 => exact (readyMessage_entryKept ..).1
  case h_4 => exact (newConnection_entryKept ..).1
  case h_5 => exact absurd trivial hinput
  case h_6 completed =>
    intro state hstate
    have hne : peerid ≠ completed := fun heq => hinput heq.symm
    exact ⟨state, by simpa [HandleMessage.completedPeer, hne] using hstate,
      .refl state⟩
  all_goals exact hunchanged

end Life

end P2PNetwork.Handshake
