import P2PNetwork.Protocol.PeerEntry

/-!
# Peers do not interfere

`HandleMessage` with its channel open refines the product of the machines of
its peers.  What it keeps and enqueues for one peer is therefore the same as
when it sees the events of that peer only.
-/

namespace P2PNetwork.Handshake

open P2PNetwork.EventLoop
open P2PNetwork.Events
open P2PNetwork.FiniteTable
open P2PNetwork.Handler
open P2PNetwork.Wire

/-! ## The tables, entry by entry -/

section Entry

variable {self : HandleMessage} {peerid other : PeerId}

theorem mem_context_iff :
    peerid ∈ self.setContextPeers ↔ (self.entry peerid).context.isSome := by
  rw [← AList.lookup_isSome]
  rfl

theorem mem_state_iff :
    peerid ∈ self.setStatePeers ↔ (self.entry peerid).state.isSome := by
  rw [← AList.lookup_isSome]
  rfl

theorem entry_setState (state : PeerStateMetadata) :
    (self.setState other state).entry peerid =
      if other = peerid then { self.entry peerid with state := some state }
      else self.entry peerid := by
  by_cases heq : other = peerid
  · subst heq
    simp [HandleMessage.entry, HandleMessage.setState]
  · simp [HandleMessage.entry, HandleMessage.setState, heq, Ne.symm heq]

theorem entry_completedPeer :
    (self.completedPeer other).entry peerid =
      if other = peerid then ⟨none, none⟩ else self.entry peerid := by
  by_cases heq : other = peerid
  · subst heq
    simp [HandleMessage.entry, HandleMessage.completedPeer]
  · simp [HandleMessage.entry, HandleMessage.completedPeer, heq, Ne.symm heq]

theorem entry_addPeer (context : StructContextConnection) :
    (self.addPeer context).entry peerid =
      if context.peerid = peerid then (self.entry peerid).added context
      else self.entry peerid := by
  by_cases hpeer : context.peerid = peerid
  · subst hpeer
    rw [if_pos rfl]
    ext1
    · simp only [HandleMessage.addPeer, HandleMessage.entry, PeerEntry.added]
      by_cases hmem : context.peerid ∈ self.setContextPeers
      · obtain ⟨value, hvalue⟩ := mem_iff_lookup.mp hmem
        simp [hmem, hvalue]
      · simp [hmem, AList.lookup_eq_none.mpr hmem]
    · simp only [HandleMessage.addPeer, HandleMessage.entry, PeerEntry.added]
      by_cases hmem : context.peerid ∈ self.setStatePeers
      · obtain ⟨value, hvalue⟩ := mem_iff_lookup.mp hmem
        simp [hmem, hvalue]
      · simp [hmem, AList.lookup_eq_none.mpr hmem]
  · rw [if_neg hpeer]
    have hne : peerid ≠ context.peerid := Ne.symm hpeer
    ext1
    · simp only [HandleMessage.addPeer, HandleMessage.entry]
      split
      · rfl
      · exact AList.lookup_insert_ne hne
    · simp only [HandleMessage.addPeer, HandleMessage.entry]
      split
      · rfl
      · exact AList.lookup_insert_ne hne

theorem entry_markSendVersion {state : PeerStateMetadata}
    (hstate : (self.entry other).state = some state) :
    (self.markSendVersion other).entry peerid =
      if other = peerid then
        { self.entry peerid with state := some (PeerEntry.markSendVersion state) }
      else self.entry peerid := by
  have hlookup : self.setStatePeers.lookup other = some state := hstate
  simp only [HandleMessage.markSendVersion, hlookup, PeerEntry.markSendVersion]
  split
  case isTrue => exact entry_setState _
  case isFalse =>
    split
    case isFalse => rfl
    case isTrue heq =>
      subst heq
      rw [← hstate]

end Entry

/-! ## One turn -/

/-- A turn goes on to the next one, with events and tables that are, peer by
peer, those of the peers' machines. -/
def Refines (input : HandleInput) (self : HandleMessage) : Prop :=
  ∃ events tables,
    (HandleMessage.turn input self).runWith delivered =
        (events, tables, .next) ∧
      ∀ peerid, (ofPeer peerid events, tables.entry peerid) =
        PeerEntry.step peerid input (self.entry peerid)

theorem readyMessage_refines (now : Except SystemTimeError UInt64)
    (sender : PeerId) (message : MessagePayload) (self : HandleMessage) :
    Refines (.incidentPeermanager now (some (.readyMessage sender message)))
      self := by
  simp only [Refines, HandleMessage.turn, HandleMessage.readyMessage,
    PeerEntry.step, PeerEntry.readyMessage, mem_context_iff, mem_state_iff]
  cases hcontext : (self.entry sender).context with
  | none =>
      refine ⟨[], self, rfl, fun peerid => ?_⟩
      split
      case isTrue heq =>
        subst heq
        rw [hcontext]
        rfl
      case isFalse => rfl
  | some context =>
      cases hstate : (self.entry sender).state with
      | none =>
          refine ⟨[], self, rfl, fun peerid => ?_⟩
          split
          case isTrue heq =>
            subst heq
            rw [hcontext, hstate]
            rfl
          case isFalse => rfl
      | some state =>
          have hlookupContext : self.setContextPeers.lookup sender =
              some context := hcontext
          have hlookupState : self.setStatePeers.lookup sender = some state :=
            hstate
          have hpeer := @handleMsg_peerid now sender message context state
          generalize hhandled : (handleMsg now sender message context
            state).runWith delivered = handled at hpeer
          obtain ⟨events, state', result⟩ := handled
          have hwithin : ((handleMsg now sender message context state).within
              (self.setState sender)).runWith delivered =
                (events, self.setState sender state', result) := by
            rw [Await.runWith_within, hhandled]
          have hmem : sender ∈ (self.setState sender state').setStatePeers :=
            mem_iff_lookup.mpr ⟨state', by simp [HandleMessage.setState]⟩
          have hafter : (HandleMessage.afterHandleMsg sender
              (self.setState sender state') result).runWith delivered =
                ([], self.setState sender state', .next) := by
            cases result with
            | ok => simp [HandleMessage.afterHandleMsg, hmem]
            | error => rfl
          refine ⟨events, self.setState sender state', ?_, fun peerid => ?_⟩
          · simp only [Option.isSome_some, if_true, hlookupContext, hlookupState]
            rw [Await.runWith_bind _ _ _ hwithin, hafter, List.append_nil]
          · rw [entry_setState]
            split
            case isTrue heq =>
              subst heq
              rw [ofPeer_self hpeer]
              simp only [hcontext, hstate, hhandled]
            case isFalse hne => rw [ofPeer_other hpeer hne]

theorem newConnection_refines (now : Except SystemTimeError UInt64)
    (context : StructContextConnection) (self : HandleMessage) :
    Refines (.incidentPeermanager now (some (.incidentNewConnection context)))
      self := by
  have hadded : (self.addPeer context).entry context.peerid =
      (self.entry context.peerid).added context := by
    rw [entry_addPeer, if_pos rfl]
  obtain ⟨contextPeers, hcontext⟩ : ∃ contextPeers,
      ((self.entry context.peerid).added context).context = some contextPeers :=
    ⟨_, rfl⟩
  obtain ⟨state, hstate⟩ : ∃ state,
      ((self.entry context.peerid).added context).state = some state := ⟨_, rfl⟩
  have hlookup : (self.addPeer context).setContextPeers.lookup context.peerid =
      some contextPeers := by
    rw [← hcontext, ← hadded]
    rfl
  have hmem : context.peerid ∈ (self.addPeer context).setContextPeers ∧
      context.peerid ∈ (self.addPeer context).setStatePeers := by
    rw [mem_context_iff, mem_state_iff, hadded, hcontext, hstate]
    exact ⟨rfl, rfl⟩
  -- Nothing but the guards' entries changes unless a version message is sent.
  have hquiet (peerid : PeerId) :
      (ofPeer peerid [], (self.addPeer context).entry peerid) =
        if context.peerid = peerid then ([], (self.entry peerid).added context)
        else ([], self.entry peerid) := by
    rw [entry_addPeer]
    split <;> rfl
  simp only [Refines, HandleMessage.turn, HandleMessage.newConnection, hmem,
    and_self, if_true, hlookup, PeerEntry.step, PeerEntry.newConnection]
  cases htype : contextPeers.typeConnect with
  | incomingConnection =>
      refine ⟨[], self.addPeer context, rfl, fun peerid => ?_⟩
      rw [hquiet peerid]
      split
      case isFalse => rfl
      case isTrue heq =>
        subst heq
        simp only [hcontext, hstate, htype]
  | outgoingConnection =>
      cases hbuild : VersionMessage.buildVersionMessage now
          contextPeers.localAddress contextPeers.removeAddress
          contextPeers.nonce with
      | error reason =>
          refine ⟨[], self.addPeer context, rfl, fun peerid => ?_⟩
          rw [hquiet peerid]
          split
          case isFalse => rfl
          case isTrue heq =>
            subst heq
            simp only [hcontext, hstate, htype, hbuild]
      | ok newMessageVersion =>
          refine ⟨[.readyMessage context.peerid (.version newMessageVersion)],
            (self.addPeer context).markSendVersion context.peerid, rfl,
            fun peerid => ?_⟩
          rw [entry_markSendVersion (by rw [hadded, hstate]), entry_addPeer]
          by_cases heq : context.peerid = peerid
          · subst heq
            simp only [if_pos, hcontext, hstate, htype, hbuild]
            rw [ofPeer_self (by simp [EventsHandleMessage.peerid])]
          · simp only [if_neg heq]
            rw [ofPeer_other (by simp [EventsHandleMessage.peerid]) heq]

theorem turn_refines (self : HandleMessage) {input : HandleInput}
    (hends : ¬EndsLoop input) : Refines input self := by
  cases input with
  | incidentThreadProtocol incident => exact absurd trivial hends
  | incidentPeermanager now incident =>
      cases incident with
      | none => exact absurd trivial hends
      | some event =>
          cases event with
          | readyMessage sender message =>
              exact readyMessage_refines now sender message self
          | incidentNewConnection context =>
              exact newConnection_refines now context self
          | incidentCompletedPeer completed =>
              refine ⟨[], self.completedPeer completed, rfl, fun peerid => ?_⟩
              rw [entry_completedPeer]
              simp only [PeerEntry.step]
              split <;> rfl
          | incidentCompletedAllPeer =>
              exact ⟨[], self.completedAllPeer, rfl, fun peerid => rfl⟩
          | readyLowMessage message => exact ⟨[], self, rfl, fun peerid => rfl⟩
          | shutdown => exact ⟨[], self, rfl, fun peerid => rfl⟩

/-! ## Runs -/

/-- What `HandleMessage::run` enqueues and keeps over a list of inputs, with its
channel to `PeerManager` open. -/
def HandleMessage.consume (self : HandleMessage) (inputs : List HandleInput) :
    List EventsHandleMessage × HandleMessage :=
  let ended := runLoop HandleMessage.turn delivered (.done self .next) inputs
  (ended.1, ended.2.1)

/-- The run of the machine of one peer, up to an input that ends the loop. -/
def PeerEntry.run (peerid : PeerId) (self : PeerEntry) :
    List HandleInput → List EventsHandleMessage × PeerEntry
  | [] => ([], self)
  | input :: inputs =>
      if EndsLoop input then ([], self)
      else
        let stepped := PeerEntry.step peerid input self
        let rest := stepped.2.run peerid inputs
        (stepped.1 ++ rest.1, rest.2)

/-- The inputs addressed to `peerid` or to all peers. -/
def Concerns (peerid : PeerId) : HandleInput → Bool
  | .incidentThreadProtocol _ => true
  | .incidentPeermanager _ none => true
  | .incidentPeermanager _ (some event) =>
      match event with
      | .readyMessage sender _ => sender = peerid
      | .incidentNewConnection context => context.peerid = peerid
      | .incidentCompletedPeer completed => completed = peerid
      | .incidentCompletedAllPeer => true
      | .readyLowMessage _ | .shutdown => false

/-- The machine of a peer does not move on what does not concern the peer. -/
theorem step_of_not_concerns {peerid : PeerId} {input : HandleInput}
    (hother : Concerns peerid input = false) (self : PeerEntry) :
    ¬EndsLoop input ∧ PeerEntry.step peerid input self = ([], self) := by
  cases input with
  | incidentThreadProtocol incident => cases hother
  | incidentPeermanager now incident =>
      cases incident with
      | none => cases hother
      | some event =>
          cases event with
          | readyMessage sender message =>
              exact ⟨id, if_neg (of_decide_eq_false hother)⟩
          | incidentNewConnection context =>
              exact ⟨id, if_neg (of_decide_eq_false hother)⟩
          | incidentCompletedPeer completed =>
              exact ⟨id, if_neg (of_decide_eq_false hother)⟩
          | incidentCompletedAllPeer => cases hother
          | readyLowMessage message => exact ⟨id, rfl⟩
          | shutdown => exact ⟨id, rfl⟩

theorem run_filter_concerns (peerid : PeerId) (self : PeerEntry)
    (inputs : List HandleInput) :
    self.run peerid (inputs.filter (Concerns peerid)) =
      self.run peerid inputs := by
  induction inputs generalizing self with
  | nil => rfl
  | cons input inputs ih =>
      cases hconcerns : Concerns peerid input with
      | true =>
          rw [List.filter_cons_of_pos hconcerns]
          simp only [PeerEntry.run, ih]
      | false =>
          obtain ⟨hends, hstep⟩ := step_of_not_concerns hconcerns self
          rw [List.filter_cons_of_neg (by rw [hconcerns]; exact nofun), ih self]
          simp only [PeerEntry.run, if_neg hends, hstep, List.nil_append]

theorem turn_of_endsLoop (self : HandleMessage) {input : HandleInput}
    (hends : EndsLoop input) :
    ∃ result, HandleMessage.turn input self = .done self (.leave result) := by
  cases input with
  | incidentThreadProtocol incident =>
      cases incident with
      | none => exact ⟨_, rfl⟩
      | some event =>
          cases event
          exact ⟨_, rfl⟩
  | incidentPeermanager now incident =>
      cases incident with
      | none => exact ⟨_, rfl⟩
      | some event => exact absurd hends id

/-- A run of `HandleMessage` is, peer by peer, the run of the peer's machine. -/
theorem consume_refines (self : HandleMessage) (inputs : List HandleInput)
    (peerid : PeerId) :
    (ofPeer peerid (self.consume inputs).1,
        (self.consume inputs).2.entry peerid) =
      (self.entry peerid).run peerid inputs := by
  induction inputs generalizing self with
  | nil => rfl
  | cons input inputs ih =>
      by_cases hends : EndsLoop input
      · obtain ⟨result, hturn⟩ := turn_of_endsLoop self hends
        have hended : runLoop HandleMessage.turn delivered
            (.done self (.leave result)) inputs = ([], self, .leave result) :=
          runLoop_of_end rfl (by simp) inputs
        simp [HandleMessage.consume, hturn, hended, PeerEntry.run, hends, ofPeer]
      · obtain ⟨events, tables, hturn, hpeers⟩ := turn_refines self hends
        have hnext : runLoop HandleMessage.turn delivered
            (HandleMessage.turn input self) inputs =
              (events ++ (tables.consume inputs).1, _, _) :=
          runLoop_of_next hturn inputs
        have hrest := Prod.ext_iff.mp (ih tables)
        simp only [HandleMessage.consume] at hrest hnext ⊢
        simp only [runLoop_next_cons, hnext, ofPeer_append, PeerEntry.run,
          if_neg hends, ← hpeers peerid, hrest.1, hrest.2]

/-- The steps of the loop with its channel open are such a run. -/
theorem consume_of_run {γ : Type}
    {ghost : Ghost γ HandleMessage HandleInput EventsHandleMessage Bool}
    {self last : HandleMessage} {past past' : γ}
    {flow : Flow EventsCriticalCompletionHandleMessage}
    {labels : List (LoopLabel HandleInput EventsHandleMessage Bool)}
    (run : Run (LoopStep HandleMessage.turn ghost) (.done self .next, past)
      labels (.done last flow, past'))
    (hopen : ∀ event reply, .answer event reply ∈ labels → reply = true) :
    self.consume (inputsOf labels) = (operationsOf labels, last) := by
  have hloop := @LoopStep.runLoop_eq _ _ _ _ _ _ HandleMessage.turn delivered
    _ _ _ _ _ _ _ run hopen
  rw [HandleMessage.consume, hloop]

/-- Events of other peers change nothing for a peer: its entry and the events
enqueued for it are those of the run over the events addressed to it or to all
peers. -/
theorem consume_isolated (inputs : List HandleInput) (peerid : PeerId) :
    (HandleMessage.create.consume inputs).2.entry peerid =
        (HandleMessage.create.consume
          (inputs.filter (Concerns peerid))).2.entry peerid ∧
      ofPeer peerid (HandleMessage.create.consume inputs).1 =
        ofPeer peerid (HandleMessage.create.consume
          (inputs.filter (Concerns peerid))).1 := by
  have hwhole := consume_refines HandleMessage.create inputs peerid
  have hown := consume_refines HandleMessage.create
    (inputs.filter (Concerns peerid)) peerid
  rw [run_filter_concerns, ← hwhole, Prod.mk.injEq] at hown
  exact ⟨hown.2.symm, hown.1.symm⟩

end P2PNetwork.Handshake
