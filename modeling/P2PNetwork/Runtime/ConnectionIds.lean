import P2PNetwork.Runtime.Attribution
import P2PNetwork.Runtime.Reports
import P2PNetwork.Runtime.SpawnedTasks

/-!
# The id of a connection

The manager keeps for good which id it gave to which task.  Everything that is
on its way in the node for a connection names the id of that connection, also
when the connection has ended and its id has been given out again.
-/

namespace P2PNetwork.Runtime

open P2PNetwork.EventLoop
open P2PNetwork.Events
open P2PNetwork.FiniteTable
open P2PNetwork.Handler
open P2PNetwork.Handshake
open P2PNetwork.Manager
open P2PNetwork.PeerActor
open P2PNetwork.Wire

/-- The id that the manager gave to the connection. -/
def System.idOf (system : System) (connection : TaskId) : Option PeerId :=
  system.manager.registry.setIdPeers.lookup connection

/-! ## Steps of the manager -/

/-- What a step of the manager does to the reports. -/
inductive ReportsMove (before : System) (label : Label) (after : System) : Prop where
  | quiet (hreports : after.reports = before.reports)
  | news {item : Tagged EventsPeerManager}
      (hnews : Announcement before label after [item])
      (hreports : after.reports = before.reports ++ [item])
  | refused (hleft : HasLeft before.handle)
      (hreports : after.reports = before.toProtocol)

section Manager

variable {before after : System} {label : Label}

/-- A turn adds to the reports what it is about to send. -/
theorem ReportsMove.turn {news : List (Tagged EventsPeerManager)}
    {self : PeerManager} (hmanager : before.manager = .running (.done self .next))
    (hnews : Announcement before label after news)
    (hpending : after.pendingReports = news)
    (hqueue : after.toProtocol = before.toProtocol) :
    ReportsMove before label after := by
  have hreports : after.reports = before.reports ++ news := by
    rw [System.reports, hqueue, hpending, reports_of_idle hmanager]
  cases hnews with
  | quiet => exact .quiet (by rw [hreports, List.append_nil])
  | connected hcontext htasks hsame =>
      exact .news (.connected hcontext htasks hsame) hreports
  | forwarded hevent htasks hsame =>
      exact .news (.forwarded hevent htasks hsame) hreports
  | ended htask hfinished htasks hsame =>
      exact .news (.ended htask hfinished htasks hsame) hreports

theorem ReportsMove.settled {self : PeerManager}
    (hmanager : before.manager = .running (.done self .next))
    (hquiet : after.pendingReports = [] ∧ Announcement before label after [])
    (hqueue : after.toProtocol = before.toProtocol) :
    ReportsMove before label after :=
  .turn hmanager hquiet.2 hquiet.1 hqueue

theorem ManagerStep.reportsMove (hstep : ManagerStep before label after)
    (hmanaged : ManagerReports before) : ReportsMove before label after := by
  cases hstep with
  | take hmanager hexternal =>
      exact .turn hmanager (announcement_take hmanager hexternal rfl rfl rfl) rfl rfl
  | @protocol self item rest hmanager hqueue =>
      exact .settled hmanager (announcement_protocol item.event hmanager rfl rfl)
        rfl
  | protocolClosed hmanager hqueue hclosed =>
      apply ReportsMove.quiet
      rw [reports_of_idle hmanager]
      exact reports_of_idle rfl
  | peer hmanager hqueue =>
      exact .turn hmanager (announcement_peer hmanager hqueue rfl rfl rfl) rfl rfl
  | join hmanager htask hfinished =>
      have htasks := hmanaged.registry.tasks
      rw [registry_of_idle hmanager] at htasks
      exact .turn hmanager
        (announcement_join htasks hmanager htask hfinished rfl rfl rfl) rfl rfl
  | @send self send resume hmanager hopen hroom =>
      have hdrops := hmanaged.registry.drops _ hmanager
      obtain ⟨self', flow, hdone, -⟩ := hdrops true
      apply ReportsMove.quiet
      rw [hdone, reports_of_idle rfl]
      cases send with
      | toProtocol event =>
          simp [System.reports, System.pendingReports, hmanager,
            ManagerPhase.awaits, System.deliver]
      | toPeer task event =>
          simp [System.reports, System.pendingReports, hmanager,
            ManagerPhase.awaits, System.deliver]
  | @sendClosed self send resume hmanager hclosed =>
      have hdrops := hmanaged.registry.drops _ hmanager
      obtain ⟨self', flow, hdone, -⟩ := hdrops false
      rw [hdone]
      cases send with
      | toProtocol event => exact .refused hclosed (reports_of_idle rfl)
      | toPeer task event =>
          apply ReportsMove.quiet
          rw [reports_of_idle rfl]
          simp [System.reports, System.pendingReports, hmanager,
            ManagerPhase.awaits]
  | leave hmanager =>
      apply ReportsMove.quiet
      rw [reports_of_idle hmanager]
      exact reports_of_closed rfl (by simp)
  | disconnect hmanager | disconnectClosed hmanager | disconnected hmanager
  | drain hmanager | finish hmanager =>
      apply ReportsMove.quiet
      rw [reports_of_closed hmanager (by simp)]
      exact reports_of_closed rfl (by simp)

/-- What a step of the manager does to the ids and to the entries, with the
nonce of the node kept. -/
inductive IdMove (before : System) (label : Label) (after : System) : Prop where
  | kept (hids : after.idOf = before.idOf)
      (hentries : ∀ peerid entry,
        after.manager.registry.setAllPeers.lookup peerid = some entry →
          before.manager.registry.setAllPeers.lookup peerid = some entry)
      (hnonce : after.manager.registry.nonce = before.manager.registry.nonce)
  | given {input : ManagerInput} (hlabel : label = .managerTake input)
      (hids : after.idOf = Function.update before.idOf before.next
        (some before.manager.registry.peerid))
      (hentries : ∀ peerid entry,
        after.manager.registry.setAllPeers.lookup peerid = some entry →
          peerid = before.manager.registry.peerid ∧
              entry.txChannelPeermanagerToPeer = before.next ∨
            before.manager.registry.setAllPeers.lookup peerid = some entry)
      (hnonce : after.manager.registry.nonce = before.manager.registry.nonce)

theorem IdMove.nonce_eq (hmove : IdMove before label after) :
    after.manager.registry.nonce = before.manager.registry.nonce := by
  cases hmove with
  | kept hids hentries hnonce => exact hnonce
  | given hlabel hids hentries hnonce => exact hnonce

theorem IdMove.same (hregistry : after.manager.registry = before.manager.registry) :
    IdMove before label after := by
  refine .kept ?_ ?_ (congrArg PeerManager.nonce hregistry)
  · funext connection
    rw [System.idOf, System.idOf, hregistry]
  · rw [hregistry]
    exact fun _ _ => id

theorem IdMove.removed {peerid : PeerId}
    (hids : after.manager.registry.setIdPeers = before.manager.registry.setIdPeers)
    (hentries : after.manager.registry.setAllPeers =
      before.manager.registry.setAllPeers.erase peerid)
    (hnonce : after.manager.registry.nonce = before.manager.registry.nonce) :
    IdMove before label after := by
  refine .kept ?_ (fun other entry hentry => ?_) hnonce
  · funext connection
    rw [System.idOf, System.idOf, hids]
  · rw [hentries, lookup_erase_ite] at hentry
    split at hentry
    · cases hentry
    · exact hentry

theorem IdMove.answered {self : PeerManager} {send : ManagerSend}
    {resume : Bool → ManagerTurn} {delivered : Bool}
    (hmanager : before.manager = .running (.issue self send resume))
    (hdrops : DropsOnly (.issue self send resume))
    (hafter : after.manager = .running (resume delivered)) :
    IdMove before label after := by
  have hbefore := registry_of_running hmanager
  have hregistry := registry_of_running hafter
  obtain ⟨self', flow, hdone, rfl | ⟨peerid, rfl⟩⟩ := hdrops delivered
  · apply IdMove.same
    rw [hregistry, hdone, hbefore]
    rfl
  · apply @IdMove.removed _ _ _ peerid
    · rw [hregistry, hdone, hbefore]
      rfl
    · rw [hregistry, hdone, hbefore]
      rfl
    · rw [hregistry, hdone, hbefore]
      rfl

theorem ManagerStep.idMove (hstep : ManagerStep before label after)
    (hmanaged : ManagerReports before) : IdMove before label after := by
  cases hstep with
  | @take self input hmanager hexternal =>
      have hregistry := registry_of_idle hmanager
      subst hregistry
      have hturn := @turn_external before.manager.registry before.next _
        hexternal
      generalize PeerManager.turn before.next input before.manager.registry = turn
        at hturn
      generalize spawned input before.manager.registry = peer at hturn
      cases hturn with
      | idle flow => exact .same rfl
      | accepted hpeer hcontext address typeConnect =>
          refine .given rfl ?_ (fun peerid entry hentry => ?_) rfl
          · funext connection
            change (AList.insert _ _ _).lookup connection = _
            rw [lookup_insert_ite, Function.update_apply]
            rfl
          · change (AList.insert _ _ _).lookup _ = _ at hentry
            rw [lookup_insert_ite] at hentry
            split at hentry
            case isTrue heq =>
              rw [← Option.some.inj hentry]
              exact .inl ⟨heq, rfl⟩
            case isFalse => exact .inr hentry
  | protocol hmanager hqueue =>
      apply IdMove.same
      rw [registry_of_idle hmanager, registry_of_running rfl]
      exact (turn_protocol _).state_eq
  | protocolClosed hmanager =>
      apply IdMove.same
      rw [registry_of_idle hmanager]
      rfl
  | peer hmanager hqueue =>
      apply IdMove.same
      rw [registry_of_idle hmanager]
      exact turn_peer_state _
  | join hmanager htask hfinished =>
      have hstep := ManagerStep.join hmanager htask hfinished
      obtain ⟨-, hself⟩ := hstep.registry_joined (.inl rfl) hmanaged.registry.tasks
      apply IdMove.removed
      · rw [hself]
        rfl
      · rw [hself]
        rfl
      · rw [hself]
        rfl
  | send hmanager | sendClosed hmanager =>
      exact .answered hmanager (hmanaged.registry.drops _ hmanager) rfl
  | drain hmanager htask hfinished =>
      have hstep := ManagerStep.drain hmanager htask hfinished
      obtain ⟨-, hself⟩ := hstep.registry_joined (.inr rfl) hmanaged.registry.tasks
      apply IdMove.removed
      · rw [hself]
        rfl
      · rw [hself]
        rfl
      · rw [hself]
        rfl
  | leave hmanager | disconnect hmanager | disconnectClosed hmanager
  | disconnected hmanager | finish hmanager =>
      apply IdMove.same
      rw [hmanager]
      rfl

end Manager

/-! ## What is on its way -/

/-- Every connection that something is on its way for has got an id, and what
is on its way names that id. -/
structure Named (system : System) : Prop where
  below : ∀ connection, system.next ≤ connection → system.idOf connection = none
  entries : ∀ peerid entry,
    system.manager.registry.setAllPeers.lookup peerid = some entry →
      system.idOf entry.txChannelPeermanagerToPeer = some peerid
  inbound : ∀ item ∈ system.fromPeers, ∀ peerid message,
    item.event = .readyLowMessage peerid message →
      system.idOf item.connection = some peerid
  reports : ∀ item ∈ system.reports, ∀ peerid, Concerns item.event peerid →
    system.idOf item.connection = some peerid
  owners : ∀ peerid connection, system.owners.state peerid = some connection →
    system.idOf connection = some peerid
  handling : ∀ self event resume, system.handle = .issue self event resume →
    system.idOf system.handling = some event.peerid
  answers : ∀ item ∈ system.fromProtocol,
    system.idOf item.connection = some item.event.peerid

section Steps

variable {before after : System} {label : Label}
variable {current : PeerId → TaskId} {owner : PeerId → Option TaskId}

theorem Named.initial (nonce : UInt64) : Named (System.initial nonce) where
  below connection hconnection := rfl
  entries peerid entry hentry := by cases hentry
  inbound item hitem := by cases hitem
  reports item hitem := by cases hitem
  owners peerid connection howner := by cases howner
  handling self event resume hhandle := by cases hhandle
  answers item hitem := by cases hitem

/-- Ids are not taken back. -/
theorem Named.idOf_mono (hnamed : Named before)
    (hmove : IdMove before label after) {connection : TaskId} {peerid : PeerId}
    (hid : before.idOf connection = some peerid) :
    after.idOf connection = some peerid := by
  cases hmove with
  | kept hids => rw [hids, hid]
  | given hlabel hids =>
      have hne : connection ≠ before.next := by
        rintro rfl
        rw [hnamed.below before.next le_rfl] at hid
        cases hid
      rw [hids, Function.update_of_ne hne, hid]

theorem Named.entriesStep (hnamed : Named before)
    (hmove : IdMove before label after) {peerid : PeerId}
    {entry : PeerSystemMetadata}
    (hentry : after.manager.registry.setAllPeers.lookup peerid = some entry) :
    after.idOf entry.txChannelPeermanagerToPeer = some peerid := by
  cases hmove with
  | kept hids hentries =>
      rw [hids]
      exact hnamed.entries peerid entry (hentries peerid entry hentry)
  | given hlabel hids hentries hnonce =>
      obtain ⟨rfl, hnew⟩ | hold := hentries peerid entry hentry
      · rw [hids, hnew, Function.update_self]
      · exact hnamed.idOf_mono (.given hlabel hids hentries hnonce)
          (hnamed.entries peerid entry hold)

/-- What is forwarded names the id that the peer has named. -/
theorem mem_forwards {queue : List (Tagged EventsPeer)}
    {item : Tagged EventsPeerManager} (hitem : item ∈ forwards queue) :
    ∃ origin ∈ queue, ∃ peerid message, origin.connection = item.connection ∧
      origin.event = .readyLowMessage peerid message ∧
        item.event = .readyMessage peerid message := by
  obtain ⟨origin, horigin, hforward⟩ := List.mem_filterMap.mp hitem
  split at hforward
  case h_1 peerid message hevent =>
    cases hforward
    exact ⟨origin, horigin, peerid, message, rfl, hevent, rfl⟩
  case h_2 => cases hforward

theorem Named.reportsStep (hnamed : Named before)
    (hids : IdMove before label after) (hmove : ReportsMove before label after)
    (hmanaged : ManagerReports after)
    {item : Tagged EventsPeerManager} (hitem : item ∈ after.reports)
    {peerid : PeerId} (hconcerns : Concerns item.event peerid) :
    after.idOf item.connection = some peerid := by
  have hold (hqueued : item ∈ before.reports) :=
    hnamed.idOf_mono hids (hnamed.reports item hqueued peerid hconcerns)
  cases hmove with
  | quiet hreports => exact hold (hreports ▸ hitem)
  | refused hleft hreports =>
      exact hold (List.mem_append_left _ (hreports ▸ hitem))
  | news hnews hreports =>
      rw [hreports, List.mem_append, List.mem_singleton] at hitem
      obtain hitem | rfl := hitem
      · exact hold hitem
      cases hnews with
      | connected hcontext htasks hqueue =>
          obtain ⟨message, hready⟩ | ⟨context, hnew, rfl⟩ := hconcerns
          · cases hready
          cases hnew
          rw [hcontext]
          refine hmanaged.registry.tasks.known
            { id := before.next, peerid := before.manager.registry.peerid } ?_
          rw [htasks]
          exact List.mem_append_right _ List.mem_cons_self
      | forwarded hevent htasks hqueue =>
          have hitem : item ∈ forwards before.fromPeers :=
            hqueue ▸ List.mem_cons_self
          obtain ⟨origin, horigin, sender, message, hconnection, hmessage, hready⟩ :=
            mem_forwards hitem
          have hsender : sender = peerid := by
            rw [hready] at hconcerns
            obtain ⟨message, hready⟩ | ⟨context, hnew, -⟩ := hconcerns
            · cases hready
              rfl
            · cases hnew
          rw [← hconnection, ← hsender]
          exact hnamed.idOf_mono hids
            (hnamed.inbound origin horigin sender message hmessage)
      | ended =>
          obtain ⟨message, hready⟩ | ⟨context, hnew, -⟩ := hconcerns
          · cases hready
          · cases hnew

/-- The manager takes from its queues and leaves `HandleMessage` alone. -/
structure ManagerFrame (before after : System) : Prop where
  owners : after.owners = before.owners
  handle : after.handle = before.handle
  handling : after.handling = before.handling
  fromPeers : after.fromPeers ⊆ before.fromPeers
  fromProtocol : after.fromProtocol ⊆ before.fromProtocol

theorem ManagerStep.frame (hstep : ManagerStep before label after) :
    ManagerFrame before after := by
  cases hstep with
  | protocol hmanager hqueue =>
      refine ⟨rfl, rfl, rfl, List.Subset.refl _, ?_⟩
      rw [hqueue]
      exact List.subset_cons_self _ _
  | peer hmanager hqueue =>
      refine ⟨rfl, rfl, rfl, ?_, List.Subset.refl _⟩
      rw [hqueue]
      exact List.subset_cons_self _ _
  | @send self send =>
      cases send <;>
        exact ⟨rfl, rfl, rfl, List.Subset.refl _, List.Subset.refl _⟩
  | _ => exact ⟨rfl, rfl, rfl, List.Subset.refl _, List.Subset.refl _⟩

theorem Named.managerStep (hnamed : Named before)
    (hmanaged : ManagerReports before) (hstep : ManagerStep before label after) :
    Named after := by
  have hids := hstep.idMove hmanaged
  have hreports := hstep.reportsMove hmanaged
  have hmanaged' := hmanaged.step (.manager hstep)
  have hframe := hstep.frame
  have hmono {connection : TaskId} {peerid : PeerId} :=
    @Named.idOf_mono _ _ _ hnamed hids connection peerid
  constructor
  · intro connection hconnection
    obtain ⟨hnext, htake⟩ := hstep.next_eq
    cases hids with
    | kept hids =>
        rw [hids]
        exact hnamed.below connection (hnext.trans hconnection)
    | given hlabel hids =>
        have hlt : before.next < connection := by
          rw [htake _ hlabel] at hconnection
          exact hconnection
        rw [hids, Function.update_of_ne hlt.ne']
        exact hnamed.below connection hlt.le
  · intro peerid entry hentry
    exact hnamed.entriesStep hids hentry
  · intro item hitem peerid message hmessage
    exact hmono (hnamed.inbound item (hframe.fromPeers hitem) peerid message hmessage)
  · intro item hitem peerid hconcerns
    exact hnamed.reportsStep hids hreports hmanaged' hitem hconcerns
  · intro peerid connection howner
    rw [hframe.owners] at howner
    exact hmono (hnamed.owners peerid connection howner)
  · intro self event resume hissue
    rw [hframe.handle] at hissue
    rw [hframe.handling]
    exact hmono (hnamed.handling self event resume hissue)
  · intro item hitem
    exact hmono (hnamed.answers item (hframe.fromProtocol hitem))

/-- A peer speaks under the id of its connection. -/
theorem Named.peerStep (hnamed : Named before)
    (hattributed : Attributed current owner before)
    (hstep : PeerStep before label after) : Named after := by
  cases hstep with
  | @send task self event resume hpeer hopen hroom =>
      refine { hnamed with inbound := fun item hitem peerid message hmessage => ?_ }
      rw [List.mem_append, List.mem_singleton] at hitem
      obtain hitem | rfl := hitem
      · exact hnamed.inbound item hitem peerid message hmessage
      · obtain ⟨spawned, hspawned, rfl, hspeaks⟩ :=
          hattributed.registry.looping task _ hpeer
        obtain ⟨own, rfl⟩ := hspeaks.1.2 event rfl
        cases hmessage
        exact hattributed.registry.known spawned hspawned
  | _ => exact { hnamed with }

/-- An owner has been there, or the event makes it one. -/
theorem owner_of_ownerAfter {item : Tagged EventsPeerManager} {peerid : PeerId}
    {connection : TaskId}
    (howner : ownerAfter owner item peerid = some connection) :
    owner peerid = some connection ∨
      item.connection = connection ∧ ∃ context,
        item.event = .incidentNewConnection context ∧ context.peerid = peerid := by
  obtain ⟨origin, event⟩ := item
  cases event with
  | incidentNewConnection context =>
      by_cases hpeerid : peerid = context.peerid
      · subst hpeerid
        cases hbefore : owner context.peerid with
        | none =>
            rw [ownerAfter_newConnection origin hbefore, Function.update_self,
              Option.some.injEq] at howner
            exact .inr ⟨howner, context, rfl, rfl⟩
        | some holder => exact .inl (by simpa [ownerAfter, hbefore] using howner)
      · exact .inl (by simpa [ownerAfter, hpeerid] using howner)
  | incidentCompletedPeer completed =>
      by_cases hpeerid : peerid = completed
      · simp [ownerAfter, hpeerid] at howner
      · exact .inl (by simpa [ownerAfter, hpeerid] using howner)
  | incidentCompletedAllPeer => simp [ownerAfter] at howner
  | _ => exact .inl howner

/-- All that a turn of `HandleMessage` sends is about one peer. -/
theorem Named.resumed (hnamed : Named before)
    (hattributed : Attributed current owner before) {self self' : HandleMessage}
    {event event' : EventsHandleMessage} {resume resume' : Bool → HandleTurn}
    (hhandle : before.handle = .issue self event resume) {delivered : Bool}
    (hissue : resume delivered = .issue self' event' resume') :
    before.idOf before.handling = some event'.peerid := by
  obtain ⟨peerid, hanswers, -⟩ := hattributed.handling
  rw [hhandle] at hanswers
  have hlater := hanswers.2 delivered
  rw [hissue] at hlater
  rw [hlater.1.2, ← hanswers.1.2]
  exact hnamed.handling self event resume hhandle

theorem Named.handleStep (hnamed : Named before)
    (hattributed : Attributed current owner before)
    (hstep : HandleStep before label after) : Named after := by
  cases hstep with
  | threadProtocol hhandle incident =>
      refine { hnamed with handling := fun self event resume hissue => ?_ }
      cases incident <;> cases hissue
  | @peermanager self item rest hhandle hqueue now =>
      have howned := hattributed.owned hhandle
      have hreports : before.reports = item :: (rest ++ before.pendingReports) := by
        rw [System.reports, hqueue, List.cons_append]
      have hitem := hnamed.reports item (hreports ▸ List.mem_cons_self)
      refine { hnamed with reports := ?_, owners := ?_, handling := ?_ }
      · intro other hother
        apply hnamed.reports other
        rw [hreports]
        exact List.mem_cons_of_mem _ hother
      · intro peerid connection howner
        simp only [hattributed.owners, howned.take] at howner
        obtain hold | ⟨rfl, context, hnew, rfl⟩ := owner_of_ownerAfter howner
        · apply hnamed.owners peerid connection
          rw [hattributed.owners]
          exact hold
        · exact hitem _ (.inr ⟨context, hnew, rfl⟩)
      · intro self' event resume hissue
        obtain ⟨peerid, hanswers, hconcerns⟩ :=
          @turn_answersFor owner self item howned now
        have hpeerid := hitem peerid (hconcerns _ _ _ hissue)
        change HandleMessage.turn _ _ = _ at hissue
        rw [hissue] at hanswers
        rw [hanswers.1.2]
        exact hpeerid
  | peermanagerClosed hhandle hqueue hfinished now =>
      exact { hnamed with handling := fun self event resume hissue => by cases hissue }
  | send hhandle hopen hroom =>
      refine { hnamed with
        handling := fun _ _ _ hissue => hnamed.resumed hattributed hhandle hissue
        answers := fun item hitem => ?_ }
      rw [List.mem_append, List.mem_singleton] at hitem
      obtain hitem | rfl := hitem
      · exact hnamed.answers item hitem
      · exact hnamed.handling _ _ _ hhandle
  | sendClosed hhandle hclosed =>
      exact { hnamed with
        handling := fun _ _ _ hissue => hnamed.resumed hattributed hhandle hissue }

theorem Named.step (hnamed : Named before) (hmanaged : ManagerReports before)
    (hattributed : Attributed current owner before)
    (hstep : Step before label after) : Named after := by
  cases hstep with
  | manager hstep => exact hnamed.managerStep hmanaged hstep
  | handle hstep => exact hnamed.handleStep hattributed hstep
  | peer hstep => exact hnamed.peerStep hattributed hstep

end Steps

/-! ## Runs -/

/-- What holds in a run in which every connection is fresh. -/
structure Fresh (system : System) : Prop where
  attributed : ∃ current owner, Attributed current owner system
  managed : ManagerReports system
  spawned : SpawnedOnly system
  named : Named system

theorem Fresh.initial (nonce : UInt64) : Fresh (System.initial nonce) where
  attributed := ⟨fun _ => 0, fun _ => none, .initial nonce _⟩
  managed := .initial nonce
  spawned := .initial nonce
  named := .initial nonce

theorem Fresh.step {before after : System} {label : Label}
    (hfresh : Fresh before)
    (hstep : Restrict Step FreshConnection before label after) : Fresh after := by
  obtain ⟨current, owner, hattributed⟩ := hfresh.attributed
  exact {
    attributed := hattributed.step hstep.1 hstep.2
    managed := hfresh.managed.step hstep.2
    spawned := hfresh.spawned.step hstep.2
    named := hfresh.named.step hfresh.managed hattributed hstep.2 }

end P2PNetwork.Runtime
