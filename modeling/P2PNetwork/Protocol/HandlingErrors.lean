import P2PNetwork.Protocol.HandshakeSafety

/-!
# When handling a message fails

Reachable entries whose message is out of order are reported, except that the
contents of a version message from a peer we connected to are checked first.
A failure before anything is sent leaves the flags as they were, but for
`recv_version`, which is set when an awaited version message is accepted.
-/

namespace P2PNetwork.Handshake

open P2PNetwork.EventLoop
open P2PNetwork.Events
open P2PNetwork.Handler
open P2PNetwork.Wire

/-! ## The message expected next -/

/-- The handshake expects the message next from a peer with these flags. -/
def Expected (typeConnect : TypeConnection) (state : PeerStateMetadata) :
    MessagePayload → Prop
  | .version _ =>
      typeConnect = .incomingConnection ∧ state = PeerStateMetadata.create ∨
        typeConnect = .outgoingConnection ∧
          state = { PeerStateMetadata.create with sendVersion := true }
  | .verack _ =>
      state.sendVersion = true ∧ state.recvVersion = true ∧
        state.sendVerack = true ∧ state.recvVerack = false

/-- In an entry that is in order the messages accepted are those expected. -/
theorem EntryInvariant.awaits_iff {typeConnect : TypeConnection}
    {state : PeerStateMetadata} {events : List Occurrence}
    (hentry : EntryInvariant typeConnect state events)
    (message : MessagePayload) :
    Awaits typeConnect state message ↔ Expected typeConnect state message := by
  have hcompleted := hentry.completed
  obtain ⟨sendVersion, recvVerack, sendVerack, recvVersion, completed⟩ := state
  cases message with
  | version versionMessage =>
      cases typeConnect <;>
        simp only [Awaits, AwaitsVersion, Expected, PeerStateMetadata.create,
          PeerStateMetadata.mk.injEq] <;> grind
  | verack verackMessage =>
      simp only [Awaits, AwaitsVerack, Expected]
      grind

section Reachable

variable {labels : List (LoopLabel HandleInput EventsHandleMessage Bool)}
  {reached : HandleTurn × History} {peerid : PeerId}
  {context : PeerContextMetadata} {state : PeerStateMetadata}
  {message : MessagePayload}

theorem entry_of_run
    (run : Run (LoopStep HandleMessage.turn record)
      (.done HandleMessage.create .next, fun _ => []) labels reached)
    (hcontext : reached.1.state.setContextPeers.lookup peerid = some context)
    (hstate : reached.1.state.setStatePeers.lookup peerid = some state) :
    EntryInvariant context.typeConnect state (reached.2 peerid) :=
  (keepsSafe_of_run run).safe.entries peerid context state hcontext hstate

/-! ## Messages out of order -/

/-- With the channel open, handling the message reports the peer, does nothing
else and returns an error. -/
def Punished (now : Except SystemTimeError UInt64) (peerid : PeerId)
    (message : MessagePayload) (context : PeerContextMetadata)
    (state : PeerStateMetadata) : Prop :=
  ∃ reason,
    (handleMsg now peerid message context state).runWith (fun _ => true) =
      ([.incidetViolentComplitedPeer peerid], state, .error reason)

/-- A message that is not expected is punished, unless it is an invalid version
message of a peer we connected to. -/
theorem punished_iff
    (run : Run (LoopStep HandleMessage.turn record)
      (.done HandleMessage.create .next, fun _ => []) labels reached)
    (hcontext : reached.1.state.setContextPeers.lookup peerid = some context)
    (hstate : reached.1.state.setStatePeers.lookup peerid = some state)
    (hunexpected : ¬Expected context.typeConnect state message)
    (now : Except SystemTimeError UInt64) :
    Punished now peerid message context state ↔
      ¬(context.typeConnect = .outgoingConnection ∧
        InvalidVersion message) := by
  have hentry := entry_of_run run hcontext hstate
  have hunawaited := (hentry.awaits_iff message).not.mpr hunexpected
  have houtcome :
      HandleOutcome now peerid message context state
        (handleMsg now peerid message context state) :=
    handleMsg_outcome message
  rw [Punished]
  generalize handleMsg now peerid message context state = handler at houtcome ⊢
  cases houtcome with
  | violent reason _ hcontents =>
      exact ⟨fun _ hinvalid => hcontents hinvalid.1 hinvalid.2,
        fun _ => ⟨reason, rfl⟩⟩
  | invalid hinvalid horder =>
      have houtgoing : context.typeConnect = .outgoingConnection := by
        cases htype : context.typeConnect with
        | incomingConnection => exact absurd (horder htype) hunawaited
        | outgoingConnection => rfl
      simp [houtgoing, hinvalid]
  | unbuilt _ hawaited => exact absurd hawaited hunawaited
  | answer _ hawaited => exact absurd hawaited hunawaited
  | verack _ hawaited => exact absurd hawaited hunawaited
  | completed hmessage hawaited =>
      subst hmessage
      exact absurd hawaited hunawaited

/-! ## Failures before anything is sent -/

/-- A version message is not expected behind one that was accepted. -/
theorem ValidVersion.not_expected (hvalid : ValidVersion message) :
    ¬Expected context.typeConnect { state with recvVersion := true }
      message := by
  obtain ⟨versionMessage, rfl, -⟩ := hvalid
  simp [Expected, PeerStateMetadata.create]

/-- A verack that is refused leaves the flags alone. -/
theorem refused_answerVerack {answer : EventsHandleMessage → Bool}
    {events : List EventsHandleMessage} {after : PeerStateMetadata}
    {reason : ErrorHandle}
    (hrun : (answerVerack peerid state).runWith answer =
      (events, after, .error reason)) : after = state := by
  simp only [answerVerack, Await.runWith_issue] at hrun
  split at hrun
  case isTrue => simp at hrun
  case isFalse =>
    simp only [Await.runWith_done, Prod.mk.injEq] at hrun
    exact hrun.2.1.symm

theorem violentCompleted_state {answer : EventsHandleMessage → Bool}
    {events : List EventsHandleMessage} {after : PeerStateMetadata}
    {reason : ErrorHandle} {result : Except ErrorHandle Unit}
    (hrun : (violentCompleted peerid reason state).runWith answer =
      (events, after, result)) : after = state := by
  simp only [violentCompleted, Await.runWith_issue] at hrun
  split at hrun <;>
    · simp only [Await.runWith_done, Prod.mk.injEq] at hrun
      exact hrun.2.1.symm

/-- A failure without a message sent has accepted a version message, or has
left the flags as they were. -/
theorem HandleOutcome.failed {now : Except SystemTimeError UInt64}
    {handler : HandleMsg} {answer : EventsHandleMessage → Bool}
    {events : List EventsHandleMessage} {after : PeerStateMetadata}
    {reason : ErrorHandle}
    (houtcome : HandleOutcome now peerid message context state handler)
    (hrun : handler.runWith answer = (events, after, .error reason))
    (hnone : ∀ other sent, .readyMessage other sent ∈ events →
      answer (.readyMessage other sent) = false) :
    (ValidVersion message ∧ Awaits context.typeConnect state message) ∧
        after = { state with recvVersion := true } ∨
      ¬(ValidVersion message ∧ Awaits context.typeConnect state message) ∧
        after = state := by
  cases houtcome with
  | violent _ hunawaited =>
      right
      exact ⟨fun hboth => hunawaited hboth.2, violentCompleted_state hrun⟩
  | invalid hinvalid =>
      right
      simp only [Await.runWith_done, Prod.mk.injEq] at hrun
      exact ⟨fun hboth => hinvalid.not_valid hboth.1, hrun.2.1.symm⟩
  | unbuilt hvalid hawaited =>
      left
      simp only [Await.runWith_done, Prod.mk.injEq] at hrun
      exact ⟨⟨hvalid, hawaited⟩, hrun.2.1.symm⟩
  | answer hvalid hawaited =>
      left
      rw [Await.runWith_issue] at hrun
      obtain ⟨hevents, hrest⟩ := Prod.mk.inj hrun
      have hrefused := hnone peerid _ (hevents ▸ List.mem_cons_self)
      rw [hrefused] at hrest
      exact ⟨⟨hvalid, hawaited⟩, (congrArg Prod.fst hrest).symm⟩
  | verack hvalid hawaited =>
      left
      exact ⟨⟨hvalid, hawaited⟩, refused_answerVerack hrun⟩
  | completed => simp at hrun

/-- When handling a message returns an error and no message was enqueued, the
flags are those before the call, but for `recv_version` if the message was a
valid version message that was expected; such a message is not expected again. -/
theorem failed_state
    (run : Run (LoopStep HandleMessage.turn record)
      (.done HandleMessage.create .next, fun _ => []) labels reached)
    (hcontext : reached.1.state.setContextPeers.lookup peerid = some context)
    (hstate : reached.1.state.setStatePeers.lookup peerid = some state)
    {now : Except SystemTimeError UInt64} {answer : EventsHandleMessage → Bool}
    {events : List EventsHandleMessage} {after : PeerStateMetadata}
    {reason : ErrorHandle}
    (hrun : (handleMsg now peerid message context state).runWith answer =
      (events, after, .error reason))
    (hnone : ∀ other sent, .readyMessage other sent ∈ events →
      answer (.readyMessage other sent) = false) :
    (ValidVersion message ∧ Expected context.typeConnect state message →
        after = { state with recvVersion := true } ∧
          ¬Expected context.typeConnect after message) ∧
      (¬(ValidVersion message ∧ Expected context.typeConnect state message) →
        after = state) := by
  have hentry := entry_of_run run hcontext hstate
  rw [← hentry.awaits_iff message]
  obtain ⟨haccepted, hafter⟩ | ⟨hrefused, hafter⟩ :=
    (handleMsg_outcome message).failed hrun hnone
  · refine ⟨fun _ => ⟨hafter, ?_⟩, fun hrefused => absurd haccepted hrefused⟩
    rw [hafter]
    exact haccepted.1.not_expected
  · exact ⟨fun haccepted => absurd haccepted hrefused, fun _ => hafter⟩

end Reachable

/-! ## Two peers -/

/-- The context of the peer of `dialled`. -/
def dialledContext : PeerContextMetadata where
  typeConnect := .outgoingConnection
  nonce := 7
  localAddress := loopback
  removeAddress := loopback

def completedState : PeerStateMetadata where
  sendVersion := true
  recvVerack := true
  sendVerack := true
  recvVersion := true
  completedHandshake := true

/-- A verack behind the handshake is punished. -/
theorem punished_second_verack :
    Punished (.ok 0) 1 (.verack {}) dialledContext completedState := by
  obtain ⟨labels, history, run⟩ := dialled_completes
  have hunexpected : ¬Expected dialledContext.typeConnect completedState
      (.verack {}) := by
    simp [Expected, completedState]
  apply (punished_iff run rfl rfl hunexpected (.ok 0)).mpr
  rintro ⟨-, versionMessage, heq, -⟩
  cases heq

/-- An invalid version message behind the handshake is not. -/
theorem not_punished_second_version :
    (∃ labels history, Run (LoopStep HandleMessage.turn record)
        (.done HandleMessage.create .next, fun _ => []) labels
        (.done completedTables .next, history)) ∧
      completedTables.setContextPeers.lookup 1 = some dialledContext ∧
      completedTables.setStatePeers.lookup 1 = some completedState ∧
      ¬Expected dialledContext.typeConnect completedState
        (.version { loopbackVersion with relay := false }) ∧
      (handleMsg (.ok 0) 1 (.version { loopbackVersion with relay := false })
          dialledContext completedState).runWith (fun _ => true) =
        ([], completedState, .error .errorInvalidVersionMessage) ∧
      ¬Punished (.ok 0) 1 (.version { loopbackVersion with relay := false })
        dialledContext completedState := by
  refine ⟨dialled_completes, rfl, rfl, ?_, rfl, ?_⟩
  · simp [Expected, dialledContext, completedState, PeerStateMetadata.create]
  · rintro ⟨reason, hrun⟩
    cases congrArg Prod.fst hrun

/-- A connection to us. -/
def accepted : StructContextConnection :=
  { dialled with typeConnection := .incomingConnection }

def acceptedContext : PeerContextMetadata :=
  { dialledContext with typeConnect := .incomingConnection }

theorem accepted_run :
    ∃ labels history, Run (LoopStep HandleMessage.turn record)
      (.done HandleMessage.create .next, fun _ => []) labels
      (.done (HandleMessage.create.addPeer accepted) .next, history) :=
  ⟨_, _, (Run.refl _).tail
    (.take (dialledInput (.incidentNewConnection accepted)))⟩

/-- The exit taken when the clock stands before the epoch. -/
theorem handleMsg_before_epoch :
    (handleMsg (.error ⟨1⟩) 1 (.version loopbackVersion) acceptedContext
        PeerStateMetadata.create).runWith (fun _ => true) =
      ([], { PeerStateMetadata.create with recvVersion := true },
        .error (.errorCreateVersionMessage (.errorTimestamp ⟨1⟩))) := rfl

theorem failed_state_before_epoch :
    ¬Expected acceptedContext.typeConnect
      { PeerStateMetadata.create with recvVersion := true }
      (.version loopbackVersion) := by
  obtain ⟨labels, history, run⟩ := accepted_run
  have hfailed := failed_state run rfl rfl handleMsg_before_epoch (by simp)
  exact (hfailed.1 ⟨⟨_, rfl, rfl⟩, .inl ⟨rfl, rfl⟩⟩).2

/-- A peer that connected to us sends its version message before the epoch of
our clock: nothing is sent, and the flags have changed. -/
theorem recvVersion_left_before_epoch :
    (∃ labels history, Run (LoopStep HandleMessage.turn record)
        (.done HandleMessage.create .next, fun _ => []) labels
        (.done (HandleMessage.create.addPeer accepted) .next, history)) ∧
      (HandleMessage.create.addPeer accepted).setContextPeers.lookup 1 =
        some acceptedContext ∧
      (HandleMessage.create.addPeer accepted).setStatePeers.lookup 1 =
        some PeerStateMetadata.create ∧
      ∃ after reason,
        (handleMsg (.error ⟨1⟩) 1 (.version loopbackVersion) acceptedContext
            PeerStateMetadata.create).runWith (fun _ => true) =
          ([], after, .error reason) ∧
        after ≠ PeerStateMetadata.create :=
  ⟨accepted_run, rfl, rfl, _, _, handleMsg_before_epoch, by decide⟩

end P2PNetwork.Handshake
