import P2PNetwork.Protocol.HandleOutcome
import P2PNetwork.Protocol.HandshakeSafety
import P2PNetwork.Protocol.Isolation

/-!
# A peer that was reported

Reporting a violation leaves no mark on the entry of the peer: its next
messages are handled by the flags as they stand.  A peer whose version message
is still awaited can go on with the handshake, one whose verack alone is missing
can complete it, and any other stays rejected.
-/

namespace P2PNetwork.Handshake

open P2PNetwork.EventLoop
open P2PNetwork.Events
open P2PNetwork.FiniteTable
open P2PNetwork.Handler
open P2PNetwork.Wire

/-! ## What is still awaited of a peer -/

/-- The flags stay as they are, unless the verack arrives. -/
structure Stays (typeConnect : TypeConnection) (start state : PeerStateMetadata) :
    Prop where
  late : ¬AwaitsVersion typeConnect state
  same : ¬AwaitsVerack start → state = start

theorem Stays.refl {typeConnect : TypeConnection} {start : PeerStateMetadata}
    (hlate : ¬AwaitsVersion typeConnect start) :
    Stays typeConnect start start :=
  ⟨hlate, fun _ => rfl⟩

theorem Stays.trans {typeConnect : TypeConnection}
    {start middle state : PeerStateMetadata}
    (hmiddle : Stays typeConnect start middle)
    (hstate : Stays typeConnect middle state) : Stays typeConnect start state where
  late := hstate.late
  same hverack := by
    have hsame := hmiddle.same hverack
    rw [hstate.same (hsame ▸ hverack), hsame]

/-! ## Messages of a peer whose version message is not awaited -/

/-- A handler that at most reports the peer. -/
def OnlyReports (typeConnect : TypeConnection) (start : PeerStateMetadata)
    (peerid : PeerId) (handler : HandleMsg) : Prop :=
  handler.Holds (fun ghost _ _ => ghost)
    (fun _ state event => Stays typeConnect start state ∧
      event = .incidetViolentComplitedPeer peerid)
    (fun _ state _ => Stays typeConnect start state) ()

section HandleMsg

variable {typeConnect : TypeConnection} {start state : PeerStateMetadata}
variable {now : Except SystemTimeError UInt64} {peerid : PeerId}

theorem violentCompleted_onlyReports (hstays : Stays typeConnect start state)
    (reason : ErrorHandle) :
    OnlyReports typeConnect start peerid
      (violentCompleted peerid reason state) := by
  refine ⟨⟨hstays, rfl⟩, fun delivered => ?_⟩
  cases delivered <;> exact hstays

theorem handleMsg_onlyReports {context : PeerContextMetadata}
    (message : MessagePayload)
    (hlate : ¬AwaitsVersion context.typeConnect state) :
    OnlyReports context.typeConnect state peerid
      (handleMsg now peerid message context state) := by
  have hnone (hvalid : ValidVersion message)
      (hawaited : Awaits context.typeConnect state message) : False := by
    obtain ⟨versionMessage, rfl, -⟩ := hvalid
    exact hlate hawaited
  have houtcome :
      HandleOutcome now peerid message context state
        (handleMsg now peerid message context state) :=
    handleMsg_outcome message
  generalize handleMsg now peerid message context state = handler at houtcome ⊢
  cases houtcome with
  | violent reason => exact violentCompleted_onlyReports (.refl hlate) reason
  | invalid => exact .refl hlate
  | unbuilt hvalid hawaited => exact (hnone hvalid hawaited).elim
  | answer hvalid hawaited => exact (hnone hvalid hawaited).elim
  | verack hvalid hawaited => exact (hnone hvalid hawaited).elim
  | completed hmessage hverack =>
      refine ⟨?_, fun hlast => absurd hverack hlast⟩
      cases context.typeConnect <;> simp [AwaitsVersion, hverack.1, hverack.2.2.1]

end HandleMsg

/-! ## Turns after the report -/

/-- The entry of a peer that had `context` and `start` when it was reported;
it is gone once all peers were dropped. -/
def Rejected (context : PeerContextMetadata) (start : PeerStateMetadata)
    (entry : PeerEntry) : Prop :=
  entry = ⟨none, none⟩ ∨
    ∃ state, entry = ⟨some context, some state⟩ ∧
      Stays context.typeConnect start state

/-- The event announces a connection of `peerid`. -/
def Announces (peerid : PeerId) : HandleInput → Prop
  | .incidentPeermanager _ (some (.incidentNewConnection context)) =>
      context.peerid = peerid
  | _ => False

/-- The event completes the connection of `peerid`. -/
def Completes (peerid : PeerId) : HandleInput → Prop
  | .incidentPeermanager _ (some (.incidentCompletedPeer completed)) =>
      completed = peerid
  | _ => False

/-- An input that leaves a connection of `peerid` as the only one: it is not
completed, and an announcement finds the entry of a peer that connected to
us, which it does not change. -/
structure Continues (tables : HandleMessage) (peerid : PeerId)
    (input : HandleInput) : Prop where
  lives : ¬Completes peerid input
  notOpened : Announces peerid input →
    ∃ context, (tables.entry peerid).context = some context ∧
      context.typeConnect = .incomingConnection

/-- A turn that keeps a peer rejected and sends no message for it. -/
def KeepsRejected (context : PeerContextMetadata) (start : PeerStateMetadata)
    (peerid : PeerId) (turn : HandleTurn) : Prop :=
  turn.Holds (fun ghost _ _ => ghost)
    (fun _ tables event => Rejected context start (tables.entry peerid) ∧
      ∀ message, event ≠ .readyMessage peerid message)
    (fun _ tables _ => Rejected context start (tables.entry peerid)) ()

section Turns

variable {context : PeerContextMetadata} {start : PeerStateMetadata}
variable {tables : HandleMessage} {peerid sender : PeerId}
variable {now : Except SystemTimeError UInt64}

theorem afterHandleMsg_keepsRejected
    (hrejected : Rejected context start (tables.entry peerid))
    (result : Except ErrorHandle Unit) :
    KeepsRejected context start peerid (tables.afterHandleMsg sender result) := by
  unfold HandleMessage.afterHandleMsg
  split
  · split <;> exact hrejected
  · exact hrejected

/-- The peer's own message. -/
theorem ownMessage_keepsRejected {state : PeerStateMetadata}
    (hentry : tables.entry peerid = ⟨some context, some state⟩)
    (hstays : Stays context.typeConnect start state)
    (message : MessagePayload) :
    KeepsRejected context start peerid
      (((handleMsg now peerid message context state).within
        (tables.setState peerid)).bind
          (HandleMessage.afterHandleMsg peerid)) := by
  have hset (reached : PeerStateMetadata)
      (hreached : Stays context.typeConnect state reached) :
      Rejected context start ((tables.setState peerid reached).entry peerid) := by
    refine .inr ⟨reached, ?_, hstays.trans hreached⟩
    rw [entry_setState, if_pos rfl, hentry]
  have hhandled : ((handleMsg now peerid message context state).within
      (tables.setState peerid)).Holds (fun ghost _ _ => ghost)
      (fun _ tables event => Rejected context start (tables.entry peerid) ∧
        ∀ message, event ≠ .readyMessage peerid message)
      (fun _ tables _ => Rejected context start (tables.entry peerid)) () := by
    apply Await.holds_within.mpr
    apply (handleMsg_onlyReports message hstays.late).mono
    · rintro _ reached event ⟨hreached, rfl⟩
      exact ⟨hset reached hreached, nofun⟩
    · intro _ reached _ hreached
      exact hset reached hreached
  apply hhandled.bind
  intro _ reached result hreached
  exact afterHandleMsg_keepsRejected hreached result

/-- A message of another peer. -/
theorem otherMessage_keepsRejected
    (hrejected : Rejected context start (tables.entry peerid))
    (hsender : sender ≠ peerid) {found : PeerContextMetadata}
    {state : PeerStateMetadata} (message : MessagePayload) :
    KeepsRejected context start peerid
      (((handleMsg now sender message found state).within
        (tables.setState sender)).bind
          (HandleMessage.afterHandleMsg sender)) := by
  have hset (reached : PeerStateMetadata) :
      Rejected context start ((tables.setState sender reached).entry peerid) := by
    rw [entry_setState, if_neg hsender]
    exact hrejected
  have hhandled : ((handleMsg now sender message found state).within
      (tables.setState sender)).Holds (fun ghost _ _ => ghost)
      (fun _ tables event => Rejected context start (tables.entry peerid) ∧
        ∀ message, event ≠ .readyMessage peerid message)
      (fun _ tables _ => Rejected context start (tables.entry peerid)) () := by
    apply Await.holds_within.mpr
    apply (handleMsg_speaksAbout message found state).mono
    · intro _ reached event hevent
      refine ⟨hset reached, ?_⟩
      rintro message rfl
      exact hsender hevent.symm
    · intro _ reached _ _
      exact hset reached
  apply hhandled.bind
  intro _ reached result hreached
  exact afterHandleMsg_keepsRejected hreached result

theorem readyMessage_keepsRejected
    (hrejected : Rejected context start (tables.entry peerid))
    (message : MessagePayload) :
    KeepsRejected context start peerid
      (tables.readyMessage now sender message) := by
  unfold HandleMessage.readyMessage
  split
  case isFalse => exact hrejected
  case isTrue =>
    split
    case isFalse => exact hrejected
    case isTrue =>
      split
      case h_2 => exact hrejected
      case h_1 found state hcontext hstate =>
        by_cases hsender : sender = peerid
        · subst hsender
          have hentry : tables.entry sender = ⟨some found, some state⟩ :=
            PeerEntry.ext hcontext hstate
          rw [hentry] at hrejected
          obtain hgone | ⟨state', hfound, hstays⟩ := hrejected
          · cases hgone
          · cases hfound
            exact ownMessage_keepsRejected hentry hstays message
        · exact otherMessage_keepsRejected hrejected hsender message

theorem otherConnection_keepsRejected
    (hrejected : Rejected context start (tables.entry peerid))
    {connection : StructContextConnection} (hne : connection.peerid ≠ peerid) :
    KeepsRejected context start peerid
      (tables.newConnection now connection) := by
  have hadded : Rejected context start
      ((tables.addPeer connection).entry peerid) := by
    rw [entry_addPeer, if_neg hne]
    exact hrejected
  simp only [HandleMessage.newConnection]
  split
  case isFalse => exact hadded
  case isTrue hmem =>
    obtain ⟨state, hstate⟩ := mem_iff_lookup.mp hmem.2
    have hmarked : Rejected context start (((tables.addPeer
        connection).markSendVersion connection.peerid).entry peerid) := by
      rw [entry_markSendVersion hstate, if_neg hne]
      exact hadded
    split
    case h_1 => exact hadded
    case h_2 contextPeers hlookup =>
      cases contextPeers.typeConnect with
      | incomingConnection => exact hadded
      | outgoingConnection =>
          simp only
          cases VersionMessage.buildVersionMessage now contextPeers.localAddress
              contextPeers.removeAddress contextPeers.nonce with
          | error reason => exact hadded
          | ok newMessageVersion =>
              refine ⟨⟨hadded, fun message hevent => ?_⟩, fun delivered => ?_⟩
              · exact hne (EventsHandleMessage.readyMessage.inj hevent).1
              · cases delivered with
                | false => exact hadded
                | true => exact hmarked

/-- The announcement of a peer that connected to us finds the entry there. -/
theorem sameConnection_keepsRejected
    (hrejected : Rejected context start (tables.entry peerid))
    {connection : StructContextConnection} (hpeer : connection.peerid = peerid)
    {found : PeerContextMetadata}
    (hfound : (tables.entry peerid).context = some found)
    (htype : found.typeConnect = .incomingConnection) :
    KeepsRejected context start peerid
      (tables.newConnection now connection) := by
  have hadded : (tables.addPeer connection).entry peerid =
      tables.entry peerid := by
    obtain hgone | ⟨state, hentry, -⟩ := hrejected
    · rw [hgone] at hfound
      cases hfound
    · rw [entry_addPeer, if_pos hpeer, hentry]
      rfl
  have hkept : Rejected context start
      ((tables.addPeer connection).entry peerid) := by
    rw [hadded]
    exact hrejected
  have hlookup : (tables.addPeer connection).setContextPeers.lookup
      connection.peerid = some found := by
    rw [hpeer, ← hfound, ← hadded]
    rfl
  simp only [HandleMessage.newConnection, hlookup, htype]
  split <;> exact hkept

/-- Whatever the node is told while the connection goes on, a reported peer
whose version message is not awaited stays rejected. -/
theorem turn_keepsRejected
    (hrejected : Rejected context start (tables.entry peerid))
    {input : HandleInput} (hinput : Continues tables peerid input) :
    KeepsRejected context start peerid (HandleMessage.turn input tables) := by
  cases input with
  | incidentThreadProtocol incident =>
      cases incident with
      | none => exact hrejected
      | some event => cases event; exact hrejected
  | incidentPeermanager now incident =>
      cases incident with
      | none => exact hrejected
      | some event =>
          cases event with
          | readyMessage sender message =>
              exact readyMessage_keepsRejected hrejected message
          | incidentNewConnection connection =>
              by_cases hpeer : connection.peerid = peerid
              · obtain ⟨found, hfound, htype⟩ := hinput.notOpened hpeer
                exact sameConnection_keepsRejected hrejected hpeer hfound htype
              · exact otherConnection_keepsRejected hrejected hpeer
          | incidentCompletedPeer completed =>
              have hne : completed ≠ peerid := fun heq => hinput.lives heq
              have hentry : (tables.completedPeer completed).entry peerid =
                  tables.entry peerid := by
                rw [entry_completedPeer, if_neg hne]
              have hkept : Rejected context start
                  ((tables.completedPeer completed).entry peerid) := by
                rw [hentry]
                exact hrejected
              exact hkept
          | incidentCompletedAllPeer => exact .inl rfl
          | readyLowMessage message => exact hrejected
          | shutdown => exact hrejected

end Turns

/-! ## The report itself -/

/-- The peer that the last operation of a turn reported. -/
def reported : Ghost (Option PeerId) HandleMessage HandleInput
    EventsHandleMessage Bool where
  take _ _ _ := none
  answer _ event _ :=
    match event with
    | .incidetViolentComplitedPeer peerid => some peerid
    | _ => none

/-- A handler whose report of `peerid`, if it makes one, is its last
operation. -/
def ReportsLast (peerid : PeerId) (handler : HandleMsg) : Prop :=
  handler.Holds reported.answer (fun last _ _ => last = none)
    (fun last _ _ => last = none ∨ last = some peerid) none

/-- After a report the loop goes on, with both entries of the peer. -/
def GoesOn (last : Option PeerId) (tables : HandleMessage)
    (flow : Flow EventsCriticalCompletionHandleMessage) : Prop :=
  ∀ peerid, last = some peerid → flow = .next ∧
    ∃ context state, tables.entry peerid = ⟨some context, some state⟩

/-- A turn whose report, if it makes one, is its last operation. -/
def TurnReportsLast (turn : HandleTurn) : Prop :=
  turn.Holds reported.answer (fun last _ _ => last = none) GoesOn none

section Reports

variable {now : Except SystemTimeError UInt64} {peerid : PeerId}

theorem violentCompleted_reportsLast (reason : ErrorHandle)
    (state : PeerStateMetadata) :
    ReportsLast peerid (violentCompleted peerid reason state) := by
  refine ⟨rfl, fun delivered => ?_⟩
  cases delivered <;> exact .inr rfl

theorem answerVerack_reportsLast (state : PeerStateMetadata) :
    ReportsLast peerid (answerVerack peerid state) := by
  refine ⟨rfl, fun delivered => ?_⟩
  cases delivered <;> exact .inl rfl

theorem handleIncomingVersion_reportsLast (versionMessage : VersionMessage)
    (context : PeerContextMetadata) (state : PeerStateMetadata) :
    ReportsLast peerid
      (handleIncomingVersion now peerid versionMessage context state) := by
  unfold handleIncomingVersion
  split
  case isFalse => exact violentCompleted_reportsLast _ _
  case isTrue =>
    split
    case isFalse => exact .inl rfl
    case isTrue =>
      cases VersionMessage.buildVersionMessage now context.localAddress
          context.removeAddress context.nonce with
      | error reason => exact .inl rfl
      | ok newVersionMessage =>
          refine ⟨rfl, fun delivered => ?_⟩
          cases delivered with
          | false => exact .inl rfl
          | true => exact answerVerack_reportsLast _

theorem handleOutgoingVersion_reportsLast (versionMessage : VersionMessage)
    (state : PeerStateMetadata) :
    ReportsLast peerid (handleOutgoingVersion peerid versionMessage state) := by
  unfold handleOutgoingVersion
  split
  case isFalse => exact .inl rfl
  case isTrue =>
    split
    · exact answerVerack_reportsLast _
    · exact violentCompleted_reportsLast _ _

theorem handleVerack_reportsLast (state : PeerStateMetadata) :
    ReportsLast peerid (handleVerack peerid state) := by
  unfold handleVerack
  split
  case isFalse => exact violentCompleted_reportsLast _ _
  case isTrue =>
    simp only
    split
    · exact .inl rfl
    · exact violentCompleted_reportsLast _ _

theorem handleMsg_reportsLast (message : MessagePayload)
    (context : PeerContextMetadata) (state : PeerStateMetadata) :
    ReportsLast peerid (handleMsg now peerid message context state) := by
  unfold handleMsg
  split
  · split
    · exact handleIncomingVersion_reportsLast _ _ _
    · exact handleOutgoingVersion_reportsLast _ _
  · exact handleVerack_reportsLast _

/-- A turn that issues nothing makes no report. -/
theorem done_reportsLast (tables : HandleMessage)
    (flow : Flow EventsCriticalCompletionHandleMessage) :
    TurnReportsLast (.done tables flow) := by
  intro peerid hlast
  cases hlast

theorem readyMessage_reportsLast {tables : HandleMessage}
    (message : MessagePayload) :
    TurnReportsLast (tables.readyMessage now peerid message) := by
  unfold HandleMessage.readyMessage
  split
  case isFalse => exact done_reportsLast _ _
  case isTrue =>
    split
    case isFalse => exact done_reportsLast _ _
    case isTrue =>
      split
      case h_2 => exact done_reportsLast _ _
      case h_1 context state hcontext _ =>
        have hhandled : ((handleMsg now peerid message context state).within
            (tables.setState peerid)).Holds reported.answer
            (fun last _ _ => last = none)
            (fun last tables _ => (last = none ∨ last = some peerid) ∧
              ∃ state, tables.entry peerid = ⟨some context, some state⟩)
            none := by
          apply Await.holds_within.mpr
          apply (handleMsg_reportsLast message context state).mono
          · exact fun _ _ _ hlast => hlast
          · intro last reached _ hlast
            refine ⟨hlast, reached, ?_⟩
            rw [entry_setState, if_pos rfl]
            exact PeerEntry.ext hcontext rfl
        apply hhandled.bind
        rintro last reached result ⟨hlast, state', hentry⟩
        have hmem : peerid ∈ reached.setStatePeers := by
          rw [mem_state_iff, hentry]
          rfl
        have hend (other : PeerId) (hother : last = some other) :
            ∃ context state, reached.entry other =
              ⟨some context, some state⟩ := by
          obtain rfl | rfl := hlast
          · cases hother
          · cases hother
            exact ⟨context, state', hentry⟩
        cases result with
        | error reason => exact fun other hother => ⟨rfl, hend other hother⟩
        | ok value =>
            simp only [HandleMessage.afterHandleMsg, hmem, if_true]
            exact fun other hother => ⟨rfl, hend other hother⟩

theorem newConnection_reportsLast {tables : HandleMessage}
    (connection : StructContextConnection) :
    TurnReportsLast (tables.newConnection now connection) := by
  simp only [HandleMessage.newConnection]
  split
  case isFalse => exact done_reportsLast _ _
  case isTrue =>
    split
    case h_1 => exact done_reportsLast _ _
    case h_2 contextPeers _ =>
      cases contextPeers.typeConnect with
      | incomingConnection => exact done_reportsLast _ _
      | outgoingConnection =>
          simp only
          cases VersionMessage.buildVersionMessage now contextPeers.localAddress
              contextPeers.removeAddress contextPeers.nonce with
          | error reason => exact done_reportsLast _ _
          | ok newMessageVersion =>
              refine ⟨rfl, fun delivered => ?_⟩
              cases delivered <;> exact done_reportsLast _ _

theorem turn_reportsLast (tables : HandleMessage) (input : HandleInput) :
    TurnReportsLast (HandleMessage.turn input tables) := by
  cases input with
  | incidentThreadProtocol incident =>
      cases incident with
      | none => exact done_reportsLast _ _
      | some event =>
          cases event
          exact done_reportsLast _ _
  | incidentPeermanager now incident =>
      cases incident with
      | none => exact done_reportsLast _ _
      | some event =>
          cases event with
          | readyMessage peerid message => exact readyMessage_reportsLast message
          | incidentNewConnection connection =>
              exact newConnection_reportsLast connection
          | incidentCompletedPeer completed => exact done_reportsLast _ _
          | incidentCompletedAllPeer => exact done_reportsLast _ _
          | readyLowMessage message => exact done_reportsLast _ _
          | shutdown => exact done_reportsLast _ _

end Reports

/-! ## Whole runs -/

section Runs

variable {peerid : PeerId}
variable {labels : List (LoopLabel HandleInput EventsHandleMessage Bool)}
variable {before after last : HandleTurn × Unit}

/-- After a report the loop goes on, with both entries of the peer. -/
theorem entry_of_report
    (run : Run (LoopStep HandleMessage.turn noHistory)
      (.done HandleMessage.create .next, ()) labels before)
    (report : LoopStep HandleMessage.turn noHistory before
      (.answer (.incidetViolentComplitedPeer peerid) true) after) :
    ∃ tables context state, after.1 = .done tables .next ∧
      tables.entry peerid = ⟨some context, some state⟩ := by
  have hall : Run (LoopStep HandleMessage.turn noHistory)
      (.done HandleMessage.create .next, ()) _ after := run.tail report
  obtain ⟨past, hrun⟩ := LoopStep.with_ghost run reported none
  have hinit : GoesOn none HandleMessage.create .next := nofun
  have hholds := LoopStep.holds_run
    (fun _ tables input _ => turn_reportsLast tables input) hinit hrun
  cases report with
  | @answer tables operation resume history reply =>
      have hafter := hholds.2 true
      generalize resume true = rest at hafter
      cases rest with
      | issue tables event resume => cases hafter.1
      | done tables flow =>
          obtain ⟨hflow, context, state, hentry⟩ := hafter peerid rfl
          exact ⟨tables, context, state, by rw [hflow], hentry⟩

/-- A step of the loop while the connection of `peerid` goes on. -/
abbrev StepContinues (peerid : PeerId) :=
  Restrict (LoopStep HandleMessage.turn noHistory) fun reached label =>
    ∀ input, label = .take input → Continues reached.1.state peerid input

/-- The step does not send a message for `peerid`. -/
def Silent (peerid : PeerId)
    (label : LoopLabel HandleInput EventsHandleMessage Bool) : Prop :=
  ∀ message reply, label ≠ .answer (.readyMessage peerid message) reply

theorem StepContinues.keepsRejected {context : PeerContextMetadata}
    {start : PeerStateMetadata}
    {label : LoopLabel HandleInput EventsHandleMessage Bool}
    (hbefore : KeepsRejected context start peerid before.1)
    (hstep : StepContinues peerid before label after) :
    KeepsRejected context start peerid after.1 := by
  obtain ⟨hcontinues, hstep⟩ := hstep
  cases hstep with
  | take input => exact turn_keepsRejected hbefore (hcontinues input rfl)
  | answer reply => exact hbefore.2 reply

theorem KeepsRejected.rejected {context : PeerContextMetadata}
    {start : PeerStateMetadata} {turn : HandleTurn}
    (hkeeps : KeepsRejected context start peerid turn) :
    Rejected context start (turn.state.entry peerid) := by
  cases turn with
  | done tables flow => exact hkeeps
  | issue tables event resume => exact hkeeps.1.1

/-- While the connection goes on after a report, a peer whose version message
is not awaited is sent nothing more, and its flags stay as they were unless the
verack was the message awaited. -/
theorem reported_stays_rejected
    (run : Run (LoopStep HandleMessage.turn noHistory)
      (.done HandleMessage.create .next, ()) labels before)
    (report : LoopStep HandleMessage.turn noHistory before
      (.answer (.incidetViolentComplitedPeer peerid) true) after)
    {later : List (LoopLabel HandleInput EventsHandleMessage Bool)}
    (rest : Run (StepContinues peerid) after later last) :
    ∃ context start,
      after.1.state.entry peerid = ⟨some context, some start⟩ ∧
      (¬AwaitsVersion context.typeConnect start →
        (∀ message reply,
          .answer (.readyMessage peerid message) reply ∉ later) ∧
        (¬AwaitsVerack start → ∀ state,
          last.1.state.setStatePeers.lookup peerid = some state →
            state = start)) := by
  obtain ⟨tables, context, start, hafter, hentry⟩ := entry_of_report run report
  refine ⟨context, start, ?_, fun hlate => ?_⟩
  · rw [hafter]
    exact hentry
  have hstart : KeepsRejected context start peerid after.1 := by
    rw [hafter]
    exact .inr ⟨start, hentry, .refl hlate⟩
  refine ⟨fun message reply hmem => ?_, fun hverack state hstate => ?_⟩
  · have hsilent : ∀ reached label next,
        KeepsRejected context start peerid reached.1 →
          StepContinues peerid reached label next → Silent peerid label := by
      rintro reached _ next hreached ⟨-, hstep⟩ message reply rfl
      cases hstep with
      | answer reply => exact hreached.1.2 message rfl
    exact rest.forall_labels
      (fun reached => KeepsRejected context start peerid reached.1) hstart
      (fun _ _ _ => StepContinues.keepsRejected) hsilent _ hmem message reply rfl
  · have hlast := rest.invariant
      (fun reached => KeepsRejected context start peerid reached.1) hstart
      fun _ _ _ => StepContinues.keepsRejected
    have hfound : (last.1.state.entry peerid).state = some state := hstate
    obtain hgone | ⟨state', hlastEntry, hstays⟩ := hlast.rejected
    · rw [hgone] at hfound
      cases hfound
    · rw [hlastEntry] at hfound
      rw [← Option.some.inj hfound]
      exact hstays.same hverack

end Runs

/-! ### Reports of one peer -/

/-- Peer 1 sends a message. -/
abbrev messageOf (message : MessagePayload) : HandleInput :=
  dialledInput (.readyMessage 1 message)

/-- A handshake that completed, followed by a verack too many. -/
theorem dialled_report :
    ∃ labels before after,
      Run (LoopStep HandleMessage.turn noHistory)
        (.done HandleMessage.create .next, ()) labels before ∧
      LoopStep HandleMessage.turn noHistory before
        (.answer (.incidetViolentComplitedPeer 1) true) after ∧
      after = (.done completedTables .next, ()) := by
  have offered : Run (LoopStep HandleMessage.turn noHistory)
      (.done HandleMessage.create .next, ()) _ _ :=
    .tail (.tail (.refl _)
      (.take (dialledInput (.incidentNewConnection dialled)))) (.answer true)
  have answered : Run (LoopStep HandleMessage.turn noHistory)
      (.done HandleMessage.create .next, ()) _ _ :=
    .tail (offered.tail (.take (messageOf (.version loopbackVersion))))
      (.answer true)
  have completed : Run (LoopStep HandleMessage.turn noHistory)
      (.done HandleMessage.create .next, ()) _
      (.done completedTables .next, ()) :=
    answered.tail (.take (messageOf (.verack {})))
  exact ⟨_, _, _, completed.tail (.take (messageOf (.verack {}))),
    .answer true, rfl⟩

/-- The next verack of that peer is reported again and changes nothing. -/
theorem reported_stays_rejected_dialled :
    ∃ later, Run (StepContinues 1) (.done completedTables .next, ()) later
        (.done completedTables .next, ()) ∧
      .take (messageOf (.verack {})) ∈ later ∧
      (∀ message reply, .answer (.readyMessage 1 message) reply ∉ later) ∧
      ∀ state, completedTables.setStatePeers.lookup 1 = some state →
        state.completedHandshake = true := by
  obtain ⟨labels, before, after, run, report, rfl⟩ := dialled_report
  have hverack : Continues completedTables 1 (messageOf (.verack {})) :=
    ⟨nofun, nofun⟩
  have taken : StepContinues 1 (.done completedTables .next, ())
      (.take (messageOf (.verack {})))
      (HandleMessage.turn (messageOf (.verack {})) completedTables, ()) := by
    refine ⟨fun input hinput => ?_, .take _⟩
    cases hinput
    exact hverack
  have refused : StepContinues 1
      (HandleMessage.turn (messageOf (.verack {})) completedTables, ())
      (.answer (.incidetViolentComplitedPeer 1) true)
      (.done completedTables .next, ()) := ⟨nofun, .answer true⟩
  have rest := (Run.refl _).tail taken |>.tail refused
  obtain ⟨context, start, hentry, hrejected⟩ :=
    reported_stays_rejected run report rest
  cases hentry
  obtain ⟨hsilent, hsame⟩ := hrejected (by simp [AwaitsVersion, dialled])
  refine ⟨_, rest, by simp, hsilent, fun state hstate => ?_⟩
  rw [hsame (by simp [AwaitsVerack]) state hstate]

/-- A peer that connected to us and is reported for a verack before its version
message goes on to complete the handshake; a peer that we dialled again after
its report is sent a version message. -/
theorem reported_goes_on :
    (∃ labels before after later last state,
      Run (LoopStep HandleMessage.turn noHistory)
        (.done HandleMessage.create .next, ()) labels before ∧
      LoopStep HandleMessage.turn noHistory before
        (.answer (.incidetViolentComplitedPeer 1) true) after ∧
      Run (LoopStep HandleMessage.turn noHistory) after later last ∧
      (∀ input, .take input ∈ later → ∃ message, input = messageOf message) ∧
      .answer (.readyMessage 1 (.version loopbackVersion)) true ∈ later ∧
      last.1.state.setStatePeers.lookup 1 = some state ∧
      state.completedHandshake = true) ∧
    ∃ labels before after later last,
      Run (LoopStep HandleMessage.turn noHistory)
        (.done HandleMessage.create .next, ()) labels before ∧
      LoopStep HandleMessage.turn noHistory before
        (.answer (.incidetViolentComplitedPeer 1) true) after ∧
      Run (LoopStep HandleMessage.turn noHistory) after later last ∧
      (∀ input, .take input ∈ later → ¬Completes 1 input) ∧
      .answer (.readyMessage 1 (.version loopbackVersion)) true ∈ later := by
  constructor
  · have announced : Run (LoopStep HandleMessage.turn noHistory)
        (.done HandleMessage.create .next, ()) _ _ :=
      .tail (.tail (.refl _) (.take (dialledInput (.incidentNewConnection
        { dialled with typeConnection := .incomingConnection }))))
        (.take (messageOf (.verack {})))
    refine ⟨_, _, _, _, _, _, announced, .answer true,
      .tail (.tail (.tail (.tail (.refl _)
        (.take (messageOf (.version loopbackVersion)))) (.answer true))
        (.answer true)) (.take (messageOf (.verack {}))), ?_, ?_, rfl, rfl⟩
    · intro input hinput
      simp at hinput
      obtain rfl | rfl := hinput
      · exact ⟨_, rfl⟩
      · exact ⟨_, rfl⟩
    · simp
      exact rfl
  · obtain ⟨labels, before, after, run, report, rfl⟩ := dialled_report
    refine ⟨_, _, _, _, _, run, report, .tail (.tail (.refl _)
      (.take (dialledInput (.incidentNewConnection dialled))))
      (.answer true), ?_, ?_⟩
    · intro input hinput
      simp at hinput
      subst hinput
      exact nofun
    · simp
      exact ⟨rfl, rfl⟩

end P2PNetwork.Handshake
