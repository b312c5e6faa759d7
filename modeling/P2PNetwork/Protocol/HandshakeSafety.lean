import P2PNetwork.Protocol.HandshakeFlags
import P2PNetwork.Protocol.HandshakeHistory

/-!
# Safety of the handshake

Every turn of `HandleMessage` keeps the entries of all peers in agreement with
their histories, at every point where another task can run and whatever the
clock and the sends answer.  Induction over a run carries this to every
reachable state.
-/

namespace P2PNetwork.Handshake

open P2PNetwork.EventLoop
open P2PNetwork.Events
open P2PNetwork.FiniteTable
open P2PNetwork.Handler
open P2PNetwork.Wire

/-! ## A handled message -/

@[simp]
theorem History.append_self (history : History) (peerid : PeerId)
    (occurrence : Occurrence) :
    history.append peerid occurrence peerid = history peerid ++ [occurrence] := by
  simp [History.append]

theorem History.append_ne {history : History} {peerid other : PeerId}
    {occurrence : Occurrence} (hne : other ≠ peerid) :
    history.append peerid occurrence other = history other := by
  simp [History.append, hne]

@[simp]
theorem record_answer_delivered (history : History) (peerid : PeerId)
    (message : MessagePayload) :
    record.answer history (.readyMessage peerid message) true =
      history.append peerid (.enqueued message) := rfl

@[simp]
theorem record_answer_refused (history : History)
    (event : EventsHandleMessage) :
    record.answer history event false = history := by
  cases event <;> rfl

@[simp]
theorem record_answer_violent (history : History) (peerid : PeerId)
    (delivered : Bool) :
    record.answer history (.incidetViolentComplitedPeer peerid) delivered =
      history := rfl

/-- The entry of `peerid` is in order and no other history has changed. -/
structure Tracked (start : History) (peerid : PeerId)
    (typeConnect : TypeConnection) (history : History)
    (state : PeerStateMetadata) : Prop where
  entry : EntryInvariant typeConnect state (history peerid)
  frame : ∀ other, other ≠ peerid → history other = start other

section HandleMsg

variable {start history : History} {peerid : PeerId}
variable {typeConnect : TypeConnection} {state : PeerStateMetadata}

theorem Tracked.append
    (htracked : Tracked start peerid typeConnect history state)
    {occurrence : Occurrence} {state' : PeerStateMetadata}
    (hentry : EntryInvariant typeConnect state'
      (history peerid ++ [occurrence])) :
    Tracked start peerid typeConnect (history.append peerid occurrence)
      state' where
  entry := by simpa using hentry
  frame other hne := by rw [History.append_ne hne, htracked.frame other hne]

/-- Every stop and the end of a handler keep the entry of the peer in order. -/
def KeepsEntry (start : History) (peerid : PeerId)
    (typeConnect : TypeConnection) (history : History)
    (handler : HandleMsg) : Prop :=
  handler.Holds record.answer
    (fun history state _ => Tracked start peerid typeConnect history state)
    (fun history state _ => Tracked start peerid typeConnect history state)
    history

theorem violentCompleted_keeps
    (htracked : Tracked start peerid typeConnect history state)
    (reason : ErrorHandle) :
    KeepsEntry start peerid typeConnect history
      (violentCompleted peerid reason state) := by
  refine ⟨htracked, fun delivered => ?_⟩
  cases delivered <;> simpa using htracked

theorem answerVerack_keeps
    (htracked : Tracked start peerid typeConnect history state)
    (hsendVersion : state.sendVersion = true)
    (hrecvVersion : state.recvVersion = true)
    (hsent : state.sendVerack = false) :
    KeepsEntry start peerid typeConnect history
      (answerVerack peerid state) := by
  refine ⟨htracked, fun delivered => ?_⟩
  cases delivered with
  | false => simpa using htracked
  | true =>
      exact htracked.append
        (htracked.entry.enqueueVerack _ hsendVersion hrecvVersion hsent)

/-- An awaited version message is recorded as received. -/
theorem Tracked.recvVersion
    (htracked : Tracked start peerid typeConnect history state)
    {message : MessagePayload} (hmem : .received message ∈ history peerid)
    (hvalid : ValidVersion message)
    (hawaited : Awaits typeConnect state message) :
    Tracked start peerid typeConnect history
      { state with recvVersion := true } := by
  obtain ⟨versionMessage, rfl, hvalid⟩ := hvalid
  have hreceived : VersionReceived (history peerid) :=
    ⟨versionMessage, hvalid, hmem⟩
  have hsent := AwaitsVersion.sendVerack hawaited
  refine ⟨htracked.entry.recvVersion ?_ hsent hreceived, htracked.frame⟩
  rintro rfl
  exact hawaited.1

/-- A message is handled with its own entry kept in order, whatever the flags
were and whichever send fails. -/
theorem handleMsg_keeps {now : Except SystemTimeError UInt64}
    {message : MessagePayload} {context : PeerContextMetadata}
    (htracked : Tracked start peerid context.typeConnect history state) :
    KeepsEntry start peerid context.typeConnect
      (history.append peerid (.received message))
      (handleMsg now peerid message context state) := by
  have hunchanged := htracked.append (htracked.entry.received message)
  have hmem : .received message ∈
      (history.append peerid (.received message)) peerid := by simp
  have houtcome :
      HandleOutcome now peerid message context state
        (handleMsg now peerid message context state) :=
    handleMsg_outcome message
  generalize handleMsg now peerid message context state = handler at houtcome ⊢
  cases houtcome with
  | violent reason => exact violentCompleted_keeps hunchanged reason
  | invalid => exact hunchanged
  | unbuilt hvalid hawaited =>
      exact hunchanged.recvVersion hmem hvalid hawaited
  | @answer versionMessage hvalid hawaited =>
      have hreceived := hunchanged.recvVersion hmem hvalid hawaited
      have hsent : state.sendVerack = false := by
        obtain ⟨received, rfl, -⟩ := hvalid
        exact AwaitsVersion.sendVerack hawaited
      refine ⟨hreceived, fun delivered => ?_⟩
      cases delivered with
      | false => simpa using hreceived
      | true =>
          refine answerVerack_keeps (hreceived.append
            (hreceived.entry.enqueueVersion versionMessage ?_ ?_)) rfl rfl hsent
          · simp
          · simp [hsent]
  | verack hvalid hawaited htype =>
      have hreceived := hunchanged.recvVersion hmem hvalid hawaited
      obtain ⟨received, rfl, -⟩ := hvalid
      rw [Awaits, htype] at hawaited
      exact answerVerack_keeps hreceived hawaited.1 rfl hawaited.2.2.1
  | @completed verackMessage hmessage hawaited =>
      subst hmessage
      exact htracked.append
        (htracked.entry.recvVerack verackMessage hawaited.2.2.1)

end HandleMsg

/-! ## All entries, over whole runs -/

/-- The two tables have the same keys and every entry is in order. -/
structure Safe (tables : HandleMessage) (history : History) : Prop where
  sameKeys : ∀ peerid,
    peerid ∈ tables.setContextPeers ↔ peerid ∈ tables.setStatePeers
  entries : ∀ peerid context state,
    tables.setContextPeers.lookup peerid = some context →
      tables.setStatePeers.lookup peerid = some state →
        EntryInvariant context.typeConnect state (history peerid)

section Turns

variable {tables : HandleMessage} {history : History}

theorem Safe.create : Safe HandleMessage.create history where
  sameKeys peerid := by simp [HandleMessage.create]
  entries peerid context state hcontext := by
    simp [HandleMessage.create] at hcontext

/-- The flags of one peer with a context are replaced and its history goes
on accordingly. -/
theorem Safe.replace (hsafe : Safe tables history) {after : HandleMessage}
    {later : History} {peerid : PeerId} {context : PeerContextMetadata}
    {state : PeerStateMetadata}
    (hcontext : tables.setContextPeers.lookup peerid = some context)
    (hcontexts : after.setContextPeers = tables.setContextPeers)
    (hstate : after.setStatePeers.lookup peerid = some state)
    (hothers : ∀ other, other ≠ peerid →
      after.setStatePeers.lookup other = tables.setStatePeers.lookup other)
    (htracked : Tracked history peerid context.typeConnect later state) :
    Safe after later where
  sameKeys other := by
    by_cases heq : other = peerid
    · simp [mem_iff_lookup, hcontexts, heq, hcontext, hstate]
    · have hkeys := hsafe.sameKeys other
      rw [mem_iff_lookup, mem_iff_lookup] at hkeys ⊢
      rw [hcontexts, hothers other heq, hkeys]
  entries other otherContext otherState hother hotherState := by
    rw [hcontexts] at hother
    by_cases heq : other = peerid
    · subst heq
      rw [hcontext, Option.some.injEq] at hother
      rw [hstate, Option.some.injEq] at hotherState
      exact hother ▸ hotherState ▸ htracked.entry
    · rw [hothers other heq] at hotherState
      rw [htracked.frame other heq]
      exact hsafe.entries other _ _ hother hotherState

theorem Safe.setState (hsafe : Safe tables history) {peerid : PeerId}
    {context : PeerContextMetadata} {later : History}
    {state : PeerStateMetadata}
    (hcontext : tables.setContextPeers.lookup peerid = some context)
    (htracked : Tracked history peerid context.typeConnect later state) :
    Safe (tables.setState peerid state) later := by
  refine hsafe.replace hcontext rfl ?_ ?_ htracked
  · simp [HandleMessage.setState]
  · intro other hne
    simp [HandleMessage.setState, hne]

theorem Safe.addPeer (hsafe : Safe tables history)
    (context : StructContextConnection) :
    Safe (tables.addPeer context)
      (if context.peerid ∈ tables.setStatePeers then history
        else Function.update history context.peerid []) := by
  by_cases hmem : context.peerid ∈ tables.setStatePeers
  · have hcontext := (hsafe.sameKeys context.peerid).mpr hmem
    simpa [HandleMessage.addPeer, hmem, hcontext] using hsafe
  have hcontext : context.peerid ∉ tables.setContextPeers :=
    fun hcontext => hmem ((hsafe.sameKeys context.peerid).mp hcontext)
  simp only [HandleMessage.addPeer, hmem, hcontext, if_false]
  refine ⟨fun other => by simp [hsafe.sameKeys other], ?_⟩
  intro other otherContext otherState hother hstate
  simp only [lookup_insert_ite] at hother hstate
  by_cases heq : other = context.peerid
  · simp only [heq, if_true, Option.some.injEq] at hother hstate
    rw [← hstate, heq, Function.update_self]
    exact EntryInvariant.create
  · rw [if_neg heq] at hother hstate
    rw [Function.update_of_ne heq]
    exact hsafe.entries other _ _ hother hstate

theorem Safe.completedPeer (hsafe : Safe tables history) (peerid : PeerId) :
    Safe (tables.completedPeer peerid) history where
  sameKeys other := by
    simp [HandleMessage.completedPeer, hsafe.sameKeys other]
  entries other context state hcontext hstate := by
    simp only [HandleMessage.completedPeer, lookup_erase_ite] at hcontext hstate
    by_cases heq : other = peerid
    · simp [heq] at hcontext
    · rw [if_neg heq] at hcontext hstate
      exact hsafe.entries other _ _ hcontext hstate

/-- For a peer we connected to, the guard of `mark_send_version` fails only
when the flag is set already: the connection was announced twice. -/
theorem lookup_markSendVersion {peerid other : PeerId}
    {state : PeerStateMetadata} {events : List Occurrence}
    (hstate : tables.setStatePeers.lookup peerid = some state)
    (hentry : EntryInvariant .outgoingConnection state events) :
    (tables.markSendVersion peerid).setStatePeers.lookup other =
      if other = peerid then some { state with sendVersion := true }
      else tables.setStatePeers.lookup other := by
  simp only [HandleMessage.markSendVersion, hstate]
  split
  case isTrue => simp [HandleMessage.setState, lookup_insert_ite]
  case isFalse hguard =>
    have hsent : state.sendVersion = true := by
      have hrecvVersion := hentry.outgoing_order rfl
      have hsendVerack := hentry.sendVerack_order
      have hrecvVerack := hentry.recvVerack_order
      grind
    have hstate' : { state with sendVersion := true } = state := by
      rw [← hsent]
    split
    case isTrue heq => rw [heq, hstate, hstate']
    case isFalse => rfl

@[simp]
theorem setContextPeers_markSendVersion (peerid : PeerId) :
    (tables.markSendVersion peerid).setContextPeers =
      tables.setContextPeers := by
  unfold HandleMessage.markSendVersion
  split
  · split <;> rfl
  · rfl

theorem Safe.markSendVersion (hsafe : Safe tables history) {peerid : PeerId}
    {context : PeerContextMetadata} {state : PeerStateMetadata}
    (hcontext : tables.setContextPeers.lookup peerid = some context)
    (htype : context.typeConnect = .outgoingConnection)
    (hstate : tables.setStatePeers.lookup peerid = some state)
    (versionMessage : VersionMessage) :
    Safe (tables.markSendVersion peerid)
      (history.append peerid (.enqueued (.version versionMessage))) := by
  have hentry := hsafe.entries _ _ _ hcontext hstate
  have hmarked : Tracked history peerid context.typeConnect
      (history.append peerid (.enqueued (.version versionMessage)))
      { state with sendVersion := true } :=
    Tracked.append ⟨hentry, fun _ _ => rfl⟩
      (hentry.enqueueVersion versionMessage (by simp [htype])
        fun hsent => (hentry.sendVerack_order hsent).1)
  rw [htype] at hentry
  refine hsafe.replace hcontext (setContextPeers_markSendVersion peerid)
    ?_ ?_ hmarked
  · simp [lookup_markSendVersion hstate hentry]
  · intro other hne
    simp [lookup_markSendVersion hstate hentry, hne]

/-- The promises of a turn: the tables are safe at its stops and at its end,
and it does not panic. -/
def KeepsSafe (history : History) (turn : HandleTurn) : Prop :=
  turn.Holds record.answer (fun history self _ => Safe self history)
    (Finish (fun history self => Safe self history)
      fun history self _ => Safe self history) history

theorem newConnection_keeps (now : Except SystemTimeError UInt64)
    {context : StructContextConnection}
    (hsafe : Safe (tables.addPeer context) history) :
    KeepsSafe history (tables.newConnection now context) := by
  simp only [HandleMessage.newConnection]
  split
  case isFalse => exact hsafe
  case isTrue hmem =>
    obtain ⟨contextPeers, hcontext⟩ := mem_iff_lookup.mp hmem.1
    obtain ⟨state, hstate⟩ := mem_iff_lookup.mp hmem.2
    simp only [hcontext]
    cases htype : contextPeers.typeConnect with
    | incomingConnection => exact hsafe
    | outgoingConnection =>
        simp only
        cases VersionMessage.buildVersionMessage now contextPeers.localAddress
            contextPeers.removeAddress contextPeers.nonce with
        | error reason => exact hsafe
        | ok newMessageVersion =>
            refine ⟨hsafe, fun delivered => ?_⟩
            cases delivered with
            | false => simpa [Finish] using hsafe
            | true => exact hsafe.markSendVersion hcontext htype hstate _

theorem readyMessage_keeps (hsafe : Safe tables history)
    (now : Except SystemTimeError UInt64) (peerid : PeerId)
    (message : MessagePayload) :
    KeepsSafe (history.append peerid (.received message))
      (tables.readyMessage now peerid message) := by
  have hunchanged : Safe tables
      (history.append peerid (.received message)) := by
    refine ⟨hsafe.sameKeys, fun other context state hcontext hstate => ?_⟩
    have hentry := hsafe.entries _ _ _ hcontext hstate
    by_cases heq : other = peerid
    · subst heq
      simpa using hentry.received message
    · rwa [History.append_ne heq]
  unfold HandleMessage.readyMessage
  split
  case isFalse => exact hunchanged
  case isTrue hcontextMem =>
    have hstateMem := (hsafe.sameKeys peerid).mp hcontextMem
    obtain ⟨context, hcontext⟩ := mem_iff_lookup.mp hcontextMem
    obtain ⟨state, hstate⟩ := mem_iff_lookup.mp hstateMem
    simp only [if_pos hstateMem, hcontext, hstate]
    have hkeeps : KeepsEntry history peerid context.typeConnect
        (history.append peerid (.received message))
        (handleMsg now peerid message context state) :=
      handleMsg_keeps ⟨hsafe.entries _ _ _ hcontext hstate, fun _ _ => rfl⟩
    have hhandled : ((handleMsg now peerid message context state).within
        (tables.setState peerid)).Holds record.answer
        (fun later reached _ => Safe reached later)
        (fun later reached _ =>
          Safe reached later ∧ peerid ∈ reached.setStatePeers)
        (history.append peerid (.received message)) := by
      refine Await.holds_within.mpr (hkeeps.mono ?_ ?_)
      · exact fun _ _ _ htracked => hsafe.setState hcontext htracked
      · exact fun _ _ _ htracked =>
          ⟨hsafe.setState hcontext htracked, by simp [HandleMessage.setState]⟩
    refine hhandled.bind ?_
    rintro later reached (_ | _) ⟨hsafe', hmem⟩
    · exact hsafe'
    · simpa [HandleMessage.afterHandleMsg, hmem, Finish] using hsafe'

/-- A turn that starts with safe tables keeps them safe, whatever it is given
and however its sends end. -/
theorem turn_keeps (hsafe : Safe tables history) (input : HandleInput) :
    KeepsSafe (record.take history tables input)
      (HandleMessage.turn input tables) := by
  cases input with
  | incidentThreadProtocol incident =>
      cases incident with
      | none => exact hsafe
      | some event => cases event; exact hsafe
  | incidentPeermanager now incident =>
      cases incident with
      | none => exact hsafe
      | some event =>
          cases event with
          | readyMessage peerid message =>
              exact readyMessage_keeps hsafe now peerid message
          | incidentNewConnection context =>
              exact newConnection_keeps now (hsafe.addPeer context)
          | incidentCompletedPeer peerid => exact hsafe.completedPeer peerid
          | incidentCompletedAllPeer => exact Safe.create
          | readyLowMessage message => exact hsafe
          | shutdown => exact hsafe

theorem KeepsSafe.safe {turn : HandleTurn} (hkeeps : KeepsSafe history turn) :
    Safe turn.state history := by
  cases turn with
  | issue tables event resume => exact hkeeps.1
  | done tables flow =>
      cases flow with
      | next => exact hkeeps
      | leave incident => exact hkeeps
      | panicked => exact hkeeps.elim

theorem KeepsSafe.not_panicked {turn : HandleTurn}
    (hkeeps : KeepsSafe history turn) :
    turn ≠ .done turn.state .panicked := by
  intro hturn
  rw [hturn] at hkeeps
  exact hkeeps

end Turns

/-! ## Whole runs -/

theorem keepsSafe_of_run
    {labels : List (LoopLabel HandleInput EventsHandleMessage Bool)}
    {reached : HandleTurn × History}
    (run : Run (LoopStep HandleMessage.turn record)
      (.done HandleMessage.create .next, fun _ => []) labels reached) :
    KeepsSafe reached.2 reached.1 :=
  LoopStep.holds (fun _ _ _ hsafe => turn_keeps hsafe _) Safe.create run

/-- Handshake safety over whole runs: in every reachable state the tables have
the same keys and every entry agrees with its history, no lookup panics, and
from there on no flag of an entry returns to false while the entry lives. -/
theorem run_safe {labels : List (LoopLabel HandleInput EventsHandleMessage Bool)}
    {reached : HandleTurn × History}
    (run : Run (LoopStep HandleMessage.turn record)
      (.done HandleMessage.create .next, fun _ => []) labels reached) :
    Safe reached.1.state reached.2 ∧
      (∀ tables, reached.1 ≠ .done tables .panicked) ∧
      ∀ peerid later after,
        Run (LoopStep HandleMessage.turn record) reached later after →
          (∀ input, .take input ∈ later → ¬EndsEntry peerid input) →
            EntryKept peerid reached.1.state after.1.state := by
  have hkeeps := keepsSafe_of_run run
  refine ⟨hkeeps.safe, ?_, fun peerid later after hlater hinputs => ?_⟩
  · intro tables hpanicked
    apply hkeeps.not_panicked
    rw [hpanicked, Await.state_done]
  · exact LoopStep.moved (.refl peerid) (fun _ _ _ => .trans) turn_moves hlater
      (LoopStep.reached_moves turn_moves run trivial)
      fun input hinput tables => turn_entryKept (hinputs input hinput) tables

/-! ### A completed handshake -/

def dialled : StructContextConnection where
  peerid := 1
  typeConnection := .outgoingConnection
  nonce := 7
  localAddress := loopback
  removeAddress := loopback

/-- What the node and the peer of `dialled` both send. -/
def loopbackVersion : VersionMessage where
  version := 70001
  services := 1
  timestamp := 0
  netAddrTo := ⟨1, VersionMessage.addressBytes loopback.ip, 8080⟩
  netAddrFrom := ⟨1, VersionMessage.addressBytes loopback.ip, 8080⟩
  nonce := 7
  userAgent := ⟨userAgentName⟩
  startHeight := 0
  relay := true

def dialledInput (event : EventsPeerManager) : HandleInput :=
  .incidentPeermanager (.ok 0) (some event)

def completedTables : HandleMessage :=
  (HandleMessage.create.addPeer dialled).setState 1 {
    sendVersion := true
    recvVerack := true
    sendVerack := true
    recvVersion := true
    completedHandshake := true }

/-- A peer that we connect to sends its version message and its verack. -/
theorem dialled_completes :
    ∃ labels history,
      Run (LoopStep HandleMessage.turn record)
        (.done HandleMessage.create .next, fun _ => []) labels
        (.done completedTables .next, history) := by
  have offered : Run (LoopStep HandleMessage.turn record)
      (.done HandleMessage.create .next, fun _ => []) _ _ :=
    .tail (.tail (.refl _)
      (.take (dialledInput (.incidentNewConnection dialled)))) (.answer true)
  have answered : Run (LoopStep HandleMessage.turn record)
      (.done HandleMessage.create .next, fun _ => []) _ _ :=
    .tail (offered.tail
      (.take (dialledInput (.readyMessage 1 (.version loopbackVersion)))))
      (.answer true)
  have run : Run (LoopStep HandleMessage.turn record)
      (.done HandleMessage.create .next, fun _ => []) _
      (.done completedTables .next, _) :=
    answered.tail (.take (dialledInput (.readyMessage 1 (.verack {}))))
  exact ⟨_, _, run⟩

theorem run_safe_dialled :
    ∃ labels history,
      Run (LoopStep HandleMessage.turn record)
        (.done HandleMessage.create .next, fun _ => []) labels
        (.done completedTables .next, history) ∧
      Safe completedTables history := by
  obtain ⟨labels, history, run⟩ := dialled_completes
  exact ⟨labels, history, run, (run_safe run).1⟩

end P2PNetwork.Handshake
