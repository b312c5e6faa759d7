import P2PNetwork.Runtime.Conversations

/-!
# The opening of a connection

The version message that a node sends is built from the context of an id, and
the id may have been given out before.  In every run in which the ids of new
connections are fresh, what the writer of a connection is handed is one version
message that was built for this connection, and then a verack.
-/

namespace P2PNetwork.Runtime

open P2PNetwork.EventLoop
open P2PNetwork.Events
open P2PNetwork.Handler
open P2PNetwork.Handshake
open P2PNetwork.Manager
open P2PNetwork.PeerActor
open P2PNetwork.Wire

/-! ## The context of a start -/

section Manager

variable {before after : System} {label : Label}

/-- The context that is reported is the one of the socket. -/
theorem newConnection_describes {self self' : PeerManager} {task : TaskId}
    {socket : TcpStream} {address : SocketAddr} {typeConnect : TypeConnection}
    {context : StructContextConnection} {resume : Bool → ManagerTurn}
    (hissue : self.newConnection task socket address typeConnect =
      .issue self' (.toProtocol (.incidentNewConnection context)) resume) :
    describe self.nonce socket address typeConnect =
      some (contextMetadata context) := by
  unfold PeerManager.newConnection Peer.create at hissue
  unfold describe
  cases hpeer : socket.peerAddr with
  | error reason => simp [hpeer] at hissue
  | ok remoteAddress =>
      cases hlocal : socket.localAddr with
      | error reason => simp [hpeer, hlocal] at hissue
      | ok localAddress =>
          simp only [hpeer, hlocal, PeerManager.notifyProtocol] at hissue
          cases hissue
          rfl

theorem turn_describes {self self' : PeerManager} {task : TaskId}
    {input : ManagerInput} {context : StructContextConnection}
    {resume : Bool → ManagerTurn} (hexternal : External input)
    (hissue : PeerManager.turn task input self =
      .issue self' (.toProtocol (.incidentNewConnection context)) resume) :
    described self.nonce input = some (contextMetadata context) := by
  unfold PeerManager.turn at hissue
  split at hissue
  case h_1 | h_5 => exact newConnection_describes hissue
  case h_2 | h_3 | h_4 | h_6 => cases hissue
  all_goals exact hexternal.elim

theorem pendingReports_describes {self : PeerManager} {task : TaskId}
    {input : ManagerInput} (hexternal : External input)
    (hmanager : after.manager = .running (PeerManager.turn task input self))
    {item : Tagged EventsPeerManager} (hitem : item ∈ after.pendingReports)
    {context : StructContextConnection}
    (hnew : item.event = .incidentNewConnection context) :
    item.connection = after.managing ∧
      described self.nonce input = some (contextMetadata context) := by
  cases hturn : PeerManager.turn task input self with
  | done self' flow =>
      rw [hturn] at hmanager
      simp [System.pendingReports, hmanager, ManagerPhase.awaits] at hitem
  | issue self' send resume =>
      rw [hturn] at hmanager
      simp only [System.pendingReports, hmanager, ManagerPhase.awaits] at hitem
      cases send with
      | toPeer other event => simp at hitem
      | toProtocol event =>
          obtain rfl := List.mem_singleton.mp hitem
          cases hnew
          exact ⟨rfl, turn_describes hexternal hturn⟩

/-- Starts are reported when a connection is taken up. -/
theorem ReportsMove.start (hmove : ReportsMove before label after)
    {item : Tagged EventsPeerManager} (hitem : item ∈ after.reports)
    {context : StructContextConnection}
    (hnew : item.event = .incidentNewConnection context) :
    item ∈ before.reports ∨ ∃ input, label = .managerTake input := by
  cases hmove with
  | quiet hreports => exact .inl (hreports ▸ hitem)
  | refused hleft hreports =>
      exact .inl (List.mem_append_left _ (hreports ▸ hitem))
  | news hnews hreports =>
      rw [hreports, List.mem_append, List.mem_singleton] at hitem
      obtain hold | rfl := hitem
      · exact .inl hold
      cases hnews with
      | connected => exact .inr ⟨_, rfl⟩
      | forwarded hevent => cases hevent.symm.trans hnew
      | ended => cases hnew

/-- A start is reported with the context of the socket. -/
theorem ManagerStep.describes (hstep : ManagerStep before label after)
    (hmanaged : ManagerReports before) {item : Tagged EventsPeerManager}
    (hitem : item ∈ after.reports) {context : StructContextConnection}
    (hnew : item.event = .incidentNewConnection context) :
    item ∈ before.reports ∨
      ∃ input, label = .managerTake input ∧ item.connection = before.next ∧
        described before.manager.registry.nonce input =
          some (contextMetadata context) := by
  obtain hold | ⟨input, rfl⟩ := (hstep.reportsMove hmanaged).start hitem hnew
  · exact .inl hold
  cases hstep with
  | take hmanager hexternal =>
      obtain hold | hpending := List.mem_append.mp hitem
      · exact .inl (List.mem_append_left _ hold)
      · obtain ⟨hconnection, hdescribed⟩ :=
          pendingReports_describes hexternal rfl hpending hnew
        rw [registry_of_idle hmanager]
        exact .inr ⟨input, rfl, hconnection, hdescribed⟩

/-- A step that adds a peer has accepted a connection. -/
theorem accepts_of_connected {input : ManagerInput} {task : TaskPeer}
    (hstep : ManagerStep before (.managerTake input) after)
    (htasks : after.manager.registry.setTaskPeers =
      before.manager.registry.setTaskPeers ++ [task]) :
    Accepts input ∧ before.manager.Serving := by
  cases hstep with
  | @take self _ hmanager hexternal =>
      refine ⟨?_, serving_of_running hmanager not_false⟩
      have hturn := @turn_external self before.next input hexternal
      rw [registry_of_idle hmanager] at htasks
      simp only [ManagerPhase.registry] at htasks
      generalize PeerManager.turn before.next input self = turn at hturn htasks
      cases hspawned : spawned input self with
      | some peer => exact accepts_of_spawned hspawned
      | none =>
          rw [hspawned] at hturn
          cases hturn
          simp at htasks

end Manager

/-! ## The queue of starts -/

/-- A queue of events in which the starts come as they should. -/
structure StartsInOrder (reached : Recorded)
    (queue : List (Tagged EventsPeerManager)) : Prop where
  first : StartsFirst queue
  unheard : ∀ connection ∈ starts queue, Unheard reached connection
  unowned : ¬ HasLeft reached.1.1.handle →
    StartsUnowned reached.1.1.owners.state queue

section Queue

variable {before after : System} {label : Label} {nonce : UInt64}
variable {dispatch : Dispatch} {arrivals : Arrivals}

theorem Conversing.startsInOrder
    (hconversing : Conversing nonce ((before, dispatch), arrivals)) :
    StartsInOrder ((before, dispatch), arrivals) before.reports :=
  ⟨hconversing.first, hconversing.unheard, hconversing.unowned⟩

/-- The manager reports something else than a start. -/
theorem StartsInOrder.append {reached : Recorded}
    {queue : List (Tagged EventsPeerManager)} (hstarts : StartsInOrder reached queue)
    {item : Tagged EventsPeerManager}
    (hevent : ∀ context, item.event ≠ .incidentNewConnection context) :
    StartsInOrder reached (queue ++ [item]) where
  first := hstarts.first.append fun other _ => by
    simp [starts_singleton_of_ne hevent]
  unheard connection hstart := by
    rw [starts_append, starts_singleton_of_ne hevent, List.append_nil] at hstart
    exact hstarts.unheard connection hstart
  unowned hopen := startsUnowned_append.mpr
    ⟨hstarts.unowned hopen, fun context hnew => absurd hnew (hevent context)⟩

/-- What is on its way to `HandleMessage`, or has been there, is of connections
that have been accepted. -/
theorem ArrivesInOrder.below (harrives : ArrivesInOrder (before, arrivals))
    (horder : ReportsInOrder (before, arrivals.record))
    (hserving : before.manager.Serving) {item : Tagged EventsPeerManager}
    (hitem : item ∈ before.reports ∨ item ∈ arrivals.handled) :
    item.connection < before.next := by
  have htaken : arrivals.record.reported = arrivals.handled ++ before.toProtocol :=
    harrives.taken
  apply horder.known hserving
  simp only [announced, htaken, List.append_assoc, List.mem_append]
  rw [System.reports, List.mem_append] at hitem
  exact hitem.symm

/-- Nothing has been sent for the next connection or heard from it. -/
theorem unheard_next (hfresh : Fresh before)
    (hrouted : RoutedInOrder (before, dispatch))
    (harrives : ArrivesInOrder (before, arrivals))
    (horder : ReportsInOrder (before, arrivals.record))
    (hserving : before.manager.Serving) :
    Unheard ((before, dispatch), arrivals) before.next := by
  have hnone := hfresh.named.below before.next le_rfl
  constructor
  · apply payloads_eq_nil
    intro item hitem hnext
    have hid := hrouted.sent item hitem
    rw [hnext, hnone] at hid
    cases hid
  · apply hearings_eq_nil
    intro item hitem
    exact (harrives.below horder hserving (.inr hitem)).ne
  · intro peerid howner
    rw [hfresh.named.owners peerid before.next howner] at hnone
    cases hnone
  · intro self event resume hissue hnext
    rw [← hnext, hfresh.named.handling self event resume hissue] at hnone
    cases hnone

theorem ManagerStep.startsInOrder (hstep : ManagerStep before label after)
    (hstarts : StartsInOrder ((before, dispatch), arrivals) before.reports)
    (hfresh : Fresh before) (hrouted : RoutedInOrder (before, dispatch))
    (harrives : ArrivesInOrder (before, arrivals))
    (horder : ReportsInOrder (before, arrivals.record))
    (hcondition : FreshConnection before label) :
    StartsInOrder ((before, dispatch), arrivals) after.reports := by
  cases hstep.reportsMove hfresh.managed with
  | quiet hreports =>
      rw [hreports]
      exact hstarts
  | refused hleft hreports =>
      rw [hreports]
      have hsublist : before.toProtocol.Sublist before.reports :=
        List.sublist_append_left _ _
      refine ⟨hstarts.first.sublist hsublist, fun connection hstart => ?_,
        fun hopen => absurd hleft hopen⟩
      apply hstarts.unheard connection
      rw [System.reports, starts_append]
      exact List.mem_append_left _ hstart
  | news hnews hreports =>
      rw [hreports]
      cases hnews with
      | forwarded hevent => exact hstarts.append (by simp [hevent])
      | ended => exact hstarts.append (by simp)
      | @connected input _ context hcontext htasks hqueue =>
          obtain ⟨haccepts, hserving⟩ := accepts_of_connected hstep htasks
          constructor
          · apply hstarts.first.append
            intro other hother hstart
            have hlt := harrives.below horder hserving (.inl hother)
            exact hlt.ne (List.mem_singleton.mp hstart)
          · intro connection hstart
            rw [starts_append, List.mem_append] at hstart
            obtain hstart | hnext := hstart
            · exact hstarts.unheard connection hstart
            · rw [List.mem_singleton.mp hnext]
              exact unheard_next hfresh hrouted harrives horder hserving
          · intro hopen
            refine startsUnowned_append.mpr
              ⟨hstarts.unowned hopen, fun other hnew => ?_⟩
            cases hnew
            obtain ⟨current, owner, hattributed⟩ := hfresh.attributed
            rw [hattributed.owners, hcontext]
            exact hattributed.no_holder hopen hserving (hcondition haccepts).tasks

end Queue

/-! ## Steps -/

section Steps

variable {before after : System} {label : Label} {nonce : UInt64}
variable {dispatch dispatch' : Dispatch} {arrivals arrivals' : Arrivals}
variable {current : PeerId → TaskId} {owner : PeerId → Option TaskId}

theorem accepted_after_of_ne (dispatch : Dispatch) (before : System)
    (hlabel : ∀ input, label ≠ .managerTake input) :
    (dispatch.after before label).accepted = dispatch.accepted := by
  cases label with
  | managerTake input => exact absurd rfl (hlabel input)
  | handleSend delivered | managerSend delivered | peerWrite task delivered =>
      cases delivered <;> rfl
  | _ => rfl

theorem Conversing.accepted_nonce
    (hconversing : Conversing nonce ((before, dispatch), arrivals))
    {connection : TaskId} {context : PeerContextMetadata}
    (haccepted : (dispatch.after before label).accepted connection = some context) :
    context.nonce = nonce := by
  have hnode : before.manager.registry.nonce = nonce := hconversing.node
  by_cases hlabel : ∃ input, label = .managerTake input
  · obtain ⟨input, rfl⟩ := hlabel
    simp only [Dispatch.after, hnode, Function.update_apply] at haccepted
    split at haccepted
    · exact described_nonce haccepted
    · exact hconversing.accepted connection context haccepted
  · rw [accepted_after_of_ne dispatch before fun input heq => hlabel ⟨input, heq⟩]
      at haccepted
    exact hconversing.accepted connection context haccepted

theorem Conversing.managerStep
    (hconversing : Conversing nonce ((before, dispatch), arrivals))
    (hfresh : Fresh before) (hrouted : RoutedInOrder (before, dispatch))
    (harrives : ArrivesInOrder (before, arrivals))
    (horder : ReportsInOrder (before, arrivals.record))
    (hcondition : FreshConnection before label)
    (hstep : ManagerStep before label after) :
    Conversing nonce
      ((after, dispatch.after before label), arrivals.after before label) := by
  have hframe := hstep.frame
  have hsent : (dispatch.after before label).sent = dispatch.sent := by
    cases hstep <;> rfl
  have hhandled : (arrivals.after before label).handled = arrivals.handled := by
    cases hstep <;> exact List.append_nil _
  -- what is known of a connection that has an id stays
  have hknown : ∀ connection peerid, before.idOf connection = some peerid →
      (dispatch.after before label).accepted connection =
        dispatch.accepted connection := by
    intro connection peerid hid
    apply accepted_after
    rintro rfl
    rw [hfresh.named.below before.next le_rfl] at hid
    cases hid
  obtain ⟨hfirst, hunheard, hunowned⟩ := hstep.startsInOrder hconversing.startsInOrder
    hfresh hrouted harrives horder hcondition
  refine hconversing.frame hfresh.named hrouted hframe.owners hframe.handle
    hframe.handling hsent hhandled hknown ?_ ?_ hfirst hunheard hunowned ?_
  · exact (hstep.idMove hfresh.managed).nonce_eq.trans hconversing.node
  · intro connection context
    exact hconversing.accepted_nonce
  · intro item hitem context hnew
    obtain hold | ⟨input, rfl, hconnection, hdescribed⟩ :=
      hstep.describes hfresh.managed hitem hnew
    · rw [hknown _ _ (hfresh.named.reports item hold _ (.inr ⟨context, hnew, rfl⟩))]
      exact hconversing.reports item hold context hnew
    · rw [hconnection]
      exact (Function.update_self ..).trans hdescribed

/-- One more event has been heard. -/
theorem heard_append (reached : Recorded) {item : Tagged EventsPeerManager}
    (hhandled : arrivals'.handled = reached.2.handled ++ [item]) :
    Recorded.heard (((after, dispatch')), arrivals') =
      Function.update reached.heard item.connection
        (reached.heard item.connection ++ incoming item.event) := by
  funext connection
  by_cases hconnection : connection = item.connection
  · subst hconnection
    simp only [Recorded.heard, hhandled, hearings_append, hearings_self,
      Function.update_self]
  · have hne : item.connection ≠ connection := Ne.symm hconnection
    simp only [Recorded.heard, hhandled, hearings_append, hearings_of_ne hne,
      List.append_nil, Function.update_of_ne hconnection]

theorem SpokenFor.hear {known : TaskId → Option PeerContextMetadata}
    {heard : TaskId → List MessagePayload} {connection : TaskId}
    {sent : List MessagePayload} (hspoken : SpokenFor known heard connection sent)
    (other : TaskId) (more : List MessagePayload) :
    SpokenFor known (Function.update heard other (heard other ++ more)) connection
      sent := by
  obtain ⟨context, hcontext, hspoken⟩ := hspoken
  refine ⟨context, hcontext, ?_⟩
  by_cases hconnection : connection = other
  · subst hconnection
    rw [Function.update_self]
    exact hspoken.hear more
  · rw [Function.update_of_ne hconnection]
    exact hspoken

/-- `HandleMessage` takes an event of the manager. -/
theorem Conversing.take
    (hconversing : Conversing nonce ((before, dispatch), arrivals))
    (hnamed : Named before) (hattributed : Attributed current owner before)
    {self : HandleMessage} {item : Tagged EventsPeerManager}
    {rest : List (Tagged EventsPeerManager)}
    (hhandle : before.handle = .done self .next)
    (hqueue : before.toProtocol = item :: rest)
    (now : Except SystemTimeError UInt64)
    (hhandled : arrivals'.handled = arrivals.handled ++ [item]) :
    Conversing nonce
      (({ before with
          handle := HandleMessage.turn
            (.incidentPeermanager now (some item.event)) self
          handling := item.connection
          owners := before.owners.take self item
          toProtocol := rest }, dispatch), arrivals') := by
  have howned := hattributed.owned hhandle
  have hreports : before.reports = item :: (rest ++ before.pendingReports) := by
    rw [System.reports, hqueue, List.cons_append]
  have hitem : item ∈ before.reports := hreports ▸ List.mem_cons_self
  have hstate (peerid : PeerId) : before.owners.state peerid = owner peerid := by
    rw [hattributed.owners]
  have hfirst := hconversing.first
  have hunowned := hconversing.unowned (open_of_handle hhandle not_false)
  rw [hreports] at hfirst hunowned
  rw [hattributed.owners] at hunowned
  have hstart {context : StructContextConnection}
      (hnew : item.event = .incidentNewConnection context) :
      Unheard ((before, dispatch), arrivals) item.connection :=
    hconversing.unheard _ (mem_starts.mpr ⟨item, hitem, rfl, context, hnew⟩)
  constructor
  · exact hconversing.node
  · exact hconversing.accepted
  · exact (List.pairwise_cons.mp hfirst).2
  · intro connection hconnection
    have hne : connection ≠ item.connection := by
      rintro rfl
      exact hfirst.not_mem hconnection
    have hqueued : connection ∈ starts before.reports := by
      rw [hreports, ← List.singleton_append, starts_append]
      exact List.mem_append_right _ hconnection
    obtain ⟨hunsent, hsilent, hholder, -⟩ := hconversing.unheard connection hqueued
    refine ⟨hunsent, ?_, fun peerid howner => ?_, fun _ _ _ _ heq => hne heq.symm⟩
    · rw [heard_append ((before, dispatch), arrivals) hhandled,
        Function.update_of_ne hne]
      exact hsilent
    · simp only [hattributed.owners, howned.take] at howner
      obtain hold | ⟨hsame, -⟩ := owner_of_ownerAfter howner
      · exact hholder peerid ((hstate peerid).trans hold)
      · exact hne hsame.symm
  · intro hopen
    simp only [hattributed.owners, howned.take]
    exact hunowned.2
  · intro other hother
    apply hconversing.reports other
    rw [hreports]
    exact List.mem_cons_of_mem _ hother
  · have hentries := hconversing.conversations
    rw [hhandle, hattributed.owners] at hentries
    change Entries owner (Converses _ (Function.update _ before.handling
      (Recorded.sent _ before.handling)) _) self at hentries
    rw [Function.update_eq_self] at hentries
    rw [heard_append ((before, dispatch), arrivals) hhandled]
    simp only [hattributed.owners, howned.take]
    apply turn_keepsConversations hentries howned
    · intro peerid message hready hcontext hmem
      have hrecords := hattributed.recordsAttributed self item rest peerid message
        hhandle hqueue hready hcontext hmem
      exact (hstate peerid).symm.trans hrecords.2
    · intro peerid message hready other howner
      have hid := hnamed.reports item hitem peerid (.inl ⟨message, hready⟩)
      rw [hnamed.owners other _ ((hstate other).trans howner)] at hid
      exact Option.some.inj hid
    · intro context hnew
      refine ⟨hunowned.1 context hnew, fun other howner => ?_⟩
      exact (hstart hnew).unowned other ((hstate other).trans howner)
    · intro context hnew
      exact ⟨hconversing.reports item hitem context hnew, (hstart hnew).unsent,
        (hstart hnew).silent⟩
  · intro connection hspoke
    rw [heard_append ((before, dispatch), arrivals) hhandled]
    exact (hconversing.spoken connection hspoke).hear _ _

/-- `HandleMessage` leaves its loop. -/
theorem Conversing.leave
    (hconversing : Conversing nonce ((before, dispatch), arrivals))
    {self : HandleMessage} {incident : EventsCriticalCompletionHandleMessage}
    (hhandle : before.handle = .done self .next)
    (hafter : after = { before with handle := .done self (.leave incident) })
    (hhandled : arrivals'.handled = arrivals.handled) :
    Conversing nonce ((after, dispatch), arrivals') := by
  have hentries := hconversing.conversations
  rw [hhandle] at hentries
  have hheard : Recorded.heard ((after, dispatch), arrivals') =
      Recorded.heard ((before, dispatch), arrivals) := heard_congr hhandled
  subst hafter
  constructor
  · exact hconversing.node
  · exact hconversing.accepted
  · exact hconversing.first
  · intro connection hstart
    obtain ⟨hunsent, hsilent, hunowned, -⟩ := hconversing.unheard connection hstart
    refine ⟨hunsent, ?_, hunowned, fun _ _ _ hissue => by cases hissue⟩
    rw [hheard]
    exact hsilent
  · exact fun hopen => absurd trivial hopen
  · exact hconversing.reports
  · rw [hheard]
    exact hentries
  · rw [hheard]
    exact hconversing.spoken

/-- A send of `HandleMessage` is answered. -/
theorem Conversing.answered
    (hconversing : Conversing nonce ((before, dispatch), arrivals))
    {self : HandleMessage} {event : EventsHandleMessage}
    {resume : Bool → HandleTurn} {delivered : Bool}
    {fromProtocol : List (Tagged EventsHandleMessage)}
    (hhandle : before.handle = .issue self event resume)
    (hafter : after = { before with
      handle := resume delivered
      fromProtocol := fromProtocol })
    (haccepted : dispatch'.accepted = dispatch.accepted)
    (hsent : Recorded.sent ((after, dispatch'), arrivals') =
      Function.update (Recorded.sent ((before, dispatch), arrivals))
        before.handling
        (sendsMore (Recorded.sent ((before, dispatch), arrivals) before.handling)
          event delivered))
    (hhandled : arrivals'.handled = arrivals.handled) :
    Conversing nonce ((after, dispatch'), arrivals') := by
  have hkeeps := hconversing.conversations
  rw [hhandle] at hkeeps
  obtain ⟨⟨-, hspoken⟩, hresume⟩ := hkeeps
  have hheard : Recorded.heard ((after, dispatch'), arrivals') =
      Recorded.heard ((before, dispatch), arrivals) := heard_congr hhandled
  have hknown : Recorded.known ((after, dispatch'), arrivals') =
      Recorded.known ((before, dispatch), arrivals) := haccepted
  subst hafter
  constructor
  · exact hconversing.node
  · rw [hknown]
    exact hconversing.accepted
  · exact hconversing.first
  · intro connection hstart
    obtain ⟨hunsent, hsilent, hunowned, hunhandled⟩ :=
      hconversing.unheard connection hstart
    have hne := hunhandled self event resume hhandle
    refine ⟨?_, ?_, hunowned, fun _ _ _ _ => hne⟩
    · rw [hsent, Function.update_of_ne (Ne.symm hne)]
      exact hunsent
    · rw [hheard]
      exact hsilent
  · exact fun _ => hconversing.unowned (open_of_handle hhandle not_false)
  · rw [hknown]
    exact hconversing.reports
  · rw [hknown, hsent, hheard]
    simp only [KeepsConversations, Function.update_self, Function.update_idem]
    exact hresume delivered
  · intro connection hspoke
    rw [hknown, hheard]
    rw [hsent] at hspoke ⊢
    by_cases hconnection : connection = before.handling
    · subst hconnection
      rw [Function.update_self] at hspoke ⊢
      cases delivered with
      | false => exact hconversing.spoken _ hspoke
      | true => exact hspoken
    · rw [Function.update_of_ne hconnection] at hspoke ⊢
      exact hconversing.spoken connection hspoke

theorem Conversing.handleStep
    (hconversing : Conversing nonce ((before, dispatch), arrivals))
    (hnamed : Named before) (hattributed : Attributed current owner before)
    (hstep : HandleStep before label after) :
    Conversing nonce
      ((after, dispatch.after before label), arrivals.after before label) := by
  cases hstep with
  | threadProtocol hhandle incident =>
      cases incident with
      | none => exact hconversing.leave hhandle rfl (List.append_nil _)
      | some event =>
          cases event
          exact hconversing.leave hhandle rfl (List.append_nil _)
  | peermanager hhandle hqueue now =>
      apply hconversing.take hnamed hattributed hhandle hqueue now
      simp [Arrivals.after, System.taking, hqueue]
  | peermanagerClosed hhandle hqueue =>
      apply hconversing.leave hhandle rfl
      simp [Arrivals.after, System.taking, hqueue]
  | @send self event resume hhandle =>
      refine hconversing.answered hhandle rfl rfl ?_ (List.append_nil _)
      funext connection
      by_cases hconnection : connection = before.handling
      · subst hconnection
        simp [Recorded.sent, Dispatch.after, System.answering, hhandle, sendsMore,
          payloads]
      · have hother : before.handling ≠ connection := Ne.symm hconnection
        simp [Recorded.sent, Dispatch.after, System.answering, hhandle, payloads,
          hconnection, hother]
  | sendClosed hhandle =>
      refine hconversing.answered hhandle rfl rfl ?_ (List.append_nil _)
      exact (Function.update_eq_self before.handling
        (Recorded.sent ((before, dispatch), arrivals))).symm

theorem Conversing.peerStep
    (hconversing : Conversing nonce ((before, dispatch), arrivals))
    (hnamed : Named before) (hrouted : RoutedInOrder (before, dispatch))
    (hstep : PeerStep before label after) :
    Conversing nonce
      ((after, dispatch.after before label), arrivals.after before label) := by
  have hreports : after.reports = before.reports := by cases hstep <;> rfl
  have howners : after.owners = before.owners := by cases hstep <;> rfl
  have hhandling : after.handling = before.handling := by cases hstep <;> rfl
  have hhandled : (arrivals.after before label).handled = arrivals.handled := by
    cases hstep <;> exact List.append_nil _
  have hdispatch : (dispatch.after before label).sent = dispatch.sent ∧
      (dispatch.after before label).accepted = dispatch.accepted := by
    cases hstep with
    | write hpeer delivered => cases delivered <;> exact ⟨rfl, rfl⟩
    | _ => exact ⟨rfl, rfl⟩
  obtain ⟨hsent, haccepted⟩ := hdispatch
  apply hconversing.frame hnamed hrouted howners hstep.handle_eq hhandling hsent
    hhandled
  · exact fun connection _ _ => congrFun haccepted connection
  · rw [hstep.manager_eq]
    exact hconversing.node
  · rw [haccepted]
    exact hconversing.accepted
  · rw [hreports]
    exact hconversing.first
  · rw [hreports]
    exact hconversing.unheard
  · rw [hreports]
    exact hconversing.unowned
  · rw [hreports, haccepted]
    exact hconversing.reports

end Steps

/-! ## Runs -/

/-- What holds of a node whose connections are fresh. -/
structure Recording (nonce : UInt64) (reached : Recorded) : Prop where
  dispatched : Dispatched reached.1
  arrives : ArrivesInOrder (reached.1.1, reached.2)
  inOrder : ReportsInOrder (reached.1.1, reached.2.record)
  conversing : Conversing nonce reached

theorem Recording.initial (nonce : UInt64) :
    Recording nonce ((System.initial nonce, Dispatch.empty), Arrivals.empty) where
  dispatched := .initial nonce
  arrives := .initial nonce
  inOrder := .initial nonce
  conversing := .initial nonce

theorem Recording.step {nonce : UInt64} {reached later : Recorded} {label : Label}
    (hrecording : Recording nonce reached)
    (hstep : RecordedDispatch reached label later) : Recording nonce later := by
  obtain ⟨⟨before, dispatch⟩, arrivals⟩ := reached
  obtain ⟨⟨after, dispatch'⟩, arrivals'⟩ := later
  obtain ⟨hdispatched, harrives, horder, hconversing⟩ := hrecording
  obtain ⟨hdispatch, harrivals⟩ := hstep
  obtain rfl : arrivals' = _ := harrivals
  have hdispatched' := hdispatched.step hdispatch
  obtain ⟨⟨hcondition, hstep⟩, htrace⟩ := hdispatch
  obtain rfl : dispatch' = _ := htrace
  refine ⟨hdispatched', harrives.step hstep, horder.step ⟨hstep, rfl⟩, ?_⟩
  have hfresh : Fresh before := hdispatched.fresh
  obtain ⟨current, owner, hattributed⟩ := hfresh.attributed
  cases hstep with
  | manager hstep =>
      exact hconversing.managerStep hfresh hdispatched.routed harrives horder
        hcondition hstep
  | handle hstep => exact hconversing.handleStep hfresh.named hattributed hstep
  | peer hstep =>
      exact hconversing.peerStep hfresh.named hdispatched.routed hstep

section Runs

variable {nonce : UInt64} {labels : List Label} {system : System}
variable {dispatch : Dispatch} {arrivals : Arrivals} {connection : TaskId}

theorem recording_run
    (run : Run RecordedDispatch ((.initial nonce, .empty), .empty) labels
      ((system, dispatch), arrivals)) :
    Recording nonce ((system, dispatch), arrivals) :=
  run.invariant (Recording nonce) (.initial nonce) fun _ _ _ => .step

/-- In every run in which the ids of new connections are fresh: what the writer
of a connection has been handed opens this connection.  It is one version
message, with the nonce of the node and the addresses of this connection's
socket, and then one verack; the verack, and on an accepted connection the
version message, goes out after a version message of this connection was
heard. -/
theorem written_opening
    (run : Run RecordedDispatch ((.initial nonce, .empty), .empty) labels
      ((system, dispatch), arrivals))
    (hwritten : dispatch.written connection ≠ []) :
    ∃ context, dispatch.accepted connection = some context ∧
      context.nonce = nonce ∧
      Spoken context (dispatch.written connection)
        (hearings connection arrivals.handled) := by
  obtain ⟨hdispatched, -, -, hconversing⟩ := recording_run run
  obtain ⟨hrouted, hsent⟩ := hdispatched.written_inOrder connection
  have hbegins := hrouted.trans hsent
  have hspoke : payloads connection dispatch.sent ≠ [] := by
    intro hnone
    rw [hnone, List.prefix_nil] at hbegins
    exact hwritten hbegins
  obtain ⟨context, hcontext, hspoken⟩ := hconversing.spoken connection hspoke
  exact ⟨context, hcontext, hconversing.accepted connection context hcontext,
    hspoken.start hbegins⟩

/-- A peer connects and sends its version message, and the answer reaches the
writer. -/
theorem answered_run : ∃ labels system dispatch context version,
    Run DispatchStep (.initial 0, .empty) labels (system, dispatch) ∧
      dispatch.written 0 =
        [.version version, .verack VerackMessage.buildVerackMessage] ∧
      dispatch.accepted 0 = some context ∧
      context.typeConnect = .incomingConnection := by
  have hfresh : FreshConnection (System.initial 0)
      (.managerTake loopbackConnection) := by
    intro accepts
    constructor <;> simp [System.initial, ManagerPhase.registry, PeerManager.create]
  have accepted : Run DispatchStep (.initial 0, .empty) _ _ :=
    .tail (.refl _)
      (dispatchStep_of_fresh hfresh (.manager (.take rfl trivial)))
  have announced := accepted.tail (dispatchStep_of_step
    (.manager (.notified rfl not_false (Nat.zero_lt_succ _))) (by simp))
  have known := announced.tail (dispatchStep_of_step
    (.handle (.peermanager rfl rfl (.ok 0))) (by simp))
  -- the version message of the peer
  have heard := known.tail (dispatchStep_of_step (.peer (@PeerStep.subtask _ 0 _
    (.incidentTaskRead (some (.lowRawMessage (.version loopbackVersion)))) rfl
    trivial)) (by simp))
  have forwarded := heard.tail (dispatchStep_of_step
    (.peer (@PeerStep.send _ 0 _ _ _ rfl not_false (Nat.zero_lt_succ _))) (by simp))
  have taken := forwarded.tail (dispatchStep_of_step
    (.manager (.peer rfl rfl)) (by simp))
  have reported := taken.tail (dispatchStep_of_step
    (.manager (.notified rfl not_false (Nat.zero_lt_succ _))) (by simp))
  -- the version message and the verack of the node
  have answering := reported.tail (dispatchStep_of_step
    (.handle (.peermanager rfl rfl (.ok 0))) (by simp))
  have greeted := answering.tail (dispatchStep_of_step
    (.handle (.send rfl not_false (by decide))) (by simp))
  have answered := greeted.tail (dispatchStep_of_step
    (.handle (.send rfl not_false (by decide))) (by simp))
  have takenFirst := answered.tail (dispatchStep_of_step
    (.manager (.protocol rfl rfl)) (by simp))
  have routedFirst := takenFirst.tail (dispatchStep_of_step
    (.manager (.send rfl not_false (Nat.zero_lt_succ _))) (by simp))
  have takenSecond := routedFirst.tail (dispatchStep_of_step
    (.manager (.protocol rfl rfl)) (by simp))
  have routedSecond := takenSecond.tail (dispatchStep_of_step
    (.manager (.send rfl not_false (Nat.succ_lt_succ (Nat.zero_lt_succ _))))
    (by simp))
  have commanded := routedSecond.tail (dispatchStep_of_step
    (.peer (@PeerStep.command _ 0 _ _ _ rfl rfl)) (by simp))
  have written := commanded.tail (dispatchStep_of_step
    (.peer (@PeerStep.write _ 0 _ _ _ rfl true)) (by simp))
  have commandedLast := written.tail (dispatchStep_of_step
    (.peer (@PeerStep.command _ 0 _ _ _ rfl rfl)) (by simp))
  have writtenLast := commandedLast.tail (dispatchStep_of_step
    (.peer (@PeerStep.write _ 0 _ _ _ rfl true)) (by simp))
  exact ⟨_, _, _, _, _, writtenLast, rfl, rfl, rfl⟩

theorem written_opening_answered :
    ∃ labels system dispatch arrivals version context,
      Run RecordedDispatch ((.initial 0, .empty), .empty) labels
          ((system, dispatch), arrivals) ∧
        dispatch.written 0 =
          [.version version, .verack VerackMessage.buildVerackMessage] ∧
        dispatch.accepted 0 = some context ∧
        context.typeConnect = .incomingConnection ∧ context.nonce = 0 ∧
        BuiltFor context version ∧ HasVersion (hearings 0 arrivals.handled) := by
  obtain ⟨labels, system, dispatch, context, version, run, hwritten, haccepted,
    htype⟩ := answered_run
  obtain ⟨arrivals, hrun⟩ := run.traced
    (fun arrivals reached label => Arrivals.after arrivals reached.1 label) .empty
  obtain ⟨other, hother, hnonce, hspoken⟩ :=
    @written_opening 0 labels system dispatch arrivals 0 hrun (by simp [hwritten])
  rw [haccepted] at hother
  obtain rfl := Option.some.inj hother
  rw [hwritten] at hspoken
  obtain ⟨opening, hbuilt, hopening⟩ := hspoken.opening
  rw [List.cons_prefix_cons] at hopening
  obtain ⟨⟨rfl⟩, -⟩ := hopening
  have hheard := hspoken.answering
    ⟨_, List.mem_cons_of_mem _ List.mem_cons_self⟩
  exact ⟨labels, system, dispatch, arrivals, version, context, hrun, hwritten,
    haccepted, htype, hnonce, hbuilt, hheard⟩

end Runs

end P2PNetwork.Runtime
