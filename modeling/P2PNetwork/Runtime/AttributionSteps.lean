import P2PNetwork.Runtime.AttributionInvariant

/-!
# Steps that keep events attributed

Every step of a peer and of `HandleMessage` keeps the invariant, and so does
every step of the manager that gives out no id of which anything is left.
-/

namespace P2PNetwork.Runtime

open P2PNetwork.EventLoop
open P2PNetwork.Events
open P2PNetwork.FiniteTable
open P2PNetwork.Handler
open P2PNetwork.Handshake
open P2PNetwork.Manager
open P2PNetwork.PeerActor
open P2PNetwork.Wire

/-! ## Steps of the peers and of `HandleMessage` -/

section Steps

variable {before after : System} {label : Label}
variable {current : PeerId → TaskId} {owner : PeerId → Option TaskId}

theorem Attributed.peerStep (hattributed : Attributed current owner before)
    (hstep : PeerStep before label after) : Attributed current owner after := by
  have hregistry := hattributed.registry
  cases hstep with
  | command hpeer hqueue =>
      exact { hattributed with registry := hregistry.turnPeer hpeer _ }
  | commandClosed hpeer hqueue hclosed =>
      exact { hattributed with registry := hregistry.turnPeer hpeer _ }
  | subtask hpeer hinput =>
      exact { hattributed with registry := hregistry.turnPeer hpeer _ }
  | @send task self event resume hpeer hopen hroom =>
      obtain ⟨spawned, hspawned, hid, hspeaks⟩ := hregistry.looping task _ hpeer
      refine { hattributed with
        registry := hregistry.resumePeer hpeer true, inbound := ?_ }
      intro item hitem peerid message hready
      rw [List.mem_append, List.mem_singleton] at hitem
      obtain hitem | rfl := hitem
      · exact hattributed.inbound item hitem peerid message hready
      · obtain ⟨own, hown⟩ := hspeaks.1.2 event rfl
        rw [hown] at hready
        cases hready
        rw [hregistry.own spawned hspawned, hid]
  | sendClosed hpeer hclosed =>
      exact { hattributed with registry := hregistry.resumePeer hpeer false }
  | write hpeer delivered =>
      exact { hattributed with registry := hregistry.resumePeer hpeer delivered }
  | finish hpeer read write =>
      exact { hattributed with registry := hregistry.setPeer hpeer nofun }
  | panic hpeer =>
      exact { hattributed with registry := hregistry.setPeer hpeer nofun }

theorem open_of_handle {turn : HandleTurn} (hhandle : before.handle = turn)
    (hopen : ¬ HasLeft turn) : ¬ HasLeft before.handle := by
  rw [hhandle]
  exact hopen

theorem Attributed.owned (hattributed : Attributed current owner before)
    {self : HandleMessage}
    {flow : Flow EventsCriticalCompletionHandleMessage}
    (hhandle : before.handle = .done self flow) : Owned owner self := by
  obtain ⟨peerid, hanswers, -⟩ := hattributed.handling
  rw [hhandle] at hanswers
  exact hanswers

theorem Attributed.handleStep (hattributed : Attributed current owner before)
    (hstep : HandleStep before label after) :
    ∃ owner', Attributed current owner' after := by
  cases hstep with
  | @threadProtocol self hhandle incident =>
      have howned := hattributed.owned hhandle
      refine ⟨owner, { hattributed with
        handling := ⟨0, ?_⟩, settled := ?_, final := ?_ }⟩
      · cases incident <;> exact ⟨howned, nofun⟩
      · intro hopen
        cases incident <;> exact absurd trivial hopen
      · intro hopen
        cases incident <;> exact absurd trivial hopen
  | @peermanager self item rest hhandle hqueue now =>
      have howned := hattributed.owned hhandle
      have hopen := open_of_handle hhandle not_false
      have hreports : before.reports = item :: (rest ++ before.pendingReports) := by
        rw [System.reports, hqueue, List.cons_append]
      have hmem : item ∈ before.reports := hreports ▸ List.mem_cons_self
      have hsettled := hattributed.settled hopen
      have hfinal := hattributed.final hopen
      rw [hreports] at hsettled hfinal
      obtain ⟨peerid, hanswers, hconcerns⟩ := @turn_answersFor owner self item
        howned now
      refine ⟨ownerAfter owner item, { hattributed with
        owners := ?_, reports := ?_, handling := ⟨peerid, hanswers, ?_⟩
        settled := fun _ => hsettled.2, final := fun _ => hfinal }⟩
      · rw [hattributed.owners]
        exact howned.take
      · intro other hother
        apply hattributed.reports other
        rw [hreports]
        exact .tail _ hother
      · intro self event resume hissue
        exact hattributed.reports item hmem peerid
          (hconcerns self event resume hissue)
  | peermanagerClosed hhandle hqueue hfinished now =>
      have howned := hattributed.owned hhandle
      exact ⟨owner, { hattributed with
        handling := ⟨0, howned, nofun⟩
        settled := fun hopen => absurd trivial hopen
        final := fun hopen => absurd trivial hopen }⟩
  | @send self event resume hhandle hopen hroom =>
      have halive := open_of_handle hhandle not_false
      obtain ⟨peerid, hanswers, hhandling⟩ := hattributed.handling
      have hcurrent := hhandling self event resume hhandle
      rw [hhandle] at hanswers
      refine ⟨owner, { hattributed with
        answers := ?_
        handling := ⟨peerid, hanswers.2 true, fun _ _ _ _ => hcurrent⟩
        settled := fun _ => hattributed.settled halive
        final := fun _ => hattributed.final halive }⟩
      intro item hitem
      rw [List.mem_append, List.mem_singleton] at hitem
      obtain hitem | rfl := hitem
      · exact hattributed.answers item hitem
      · exact hcurrent.trans (congrArg current hanswers.1.2.symm)
  | @sendClosed self event resume hhandle hclosed =>
      have halive := open_of_handle hhandle not_false
      obtain ⟨peerid, hanswers, hhandling⟩ := hattributed.handling
      have hcurrent := hhandling self event resume hhandle
      rw [hhandle] at hanswers
      exact ⟨owner, { hattributed with
        handling := ⟨peerid, hanswers.2 false, fun _ _ _ _ => hcurrent⟩
        settled := fun _ => hattributed.settled halive
        final := fun _ => hattributed.final halive }⟩

/-! ## Steps of the manager -/

theorem reports_of_idle {self : PeerManager}
    {flow : Flow EventsCriticalCompletionPeerManager}
    (hmanager : before.manager = .running (.done self flow)) :
    before.reports = before.toProtocol := by
  simp [System.reports, System.pendingReports, hmanager, ManagerPhase.awaits]

theorem serving_of_running {turn : ManagerTurn}
    (hmanager : before.manager = .running turn) (hopen : ¬ HasLeft turn) :
    before.manager.Serving := by
  rw [hmanager]
  exact hopen

/-- A step of the manager that reports nothing new to `HandleMessage`. -/
theorem Attributed.frame (hattributed : Attributed current owner before)
    (howners : after.owners = before.owners)
    (hhandle : after.handle = before.handle)
    (hhandling : after.handling = before.handling)
    (hregistry : Registry current after.peers after.next after.manager.registry)
    (hdrops : ∀ turn, after.manager = .running turn → DropsOnly turn)
    (hsends : after.SendsAttributed)
    (hinbound : after.fromPeers ⊆ before.fromPeers)
    (hanswers : after.fromProtocol ⊆ before.fromProtocol)
    (hreports : after.reports = before.reports)
    (hserving : after.manager.Serving → before.manager.Serving ∧
      after.manager.registry.setTaskPeers =
        before.manager.registry.setTaskPeers) :
    Attributed current owner after where
  owners := howners.trans hattributed.owners
  registry := hregistry
  drops := hdrops
  sends := hsends
  inbound item hitem := hattributed.inbound item (hinbound hitem)
  reports := hreports ▸ hattributed.reports
  answers item hitem := hattributed.answers item (hanswers hitem)
  handling := by
    rw [hhandle, hhandling]
    exact hattributed.handling
  settled := by
    rw [hhandle, hreports]
    exact hattributed.settled
  final hopen peerid holder hholder := by
    rw [hhandle] at hopen
    rw [hreports] at hholder
    obtain ⟨hcurrent, htask⟩ := hattributed.final hopen peerid holder hholder
    refine ⟨hcurrent, fun hafter => ?_⟩
    obtain ⟨hbefore, htasks⟩ := hserving hafter
    rw [htasks]
    exact htask hbefore

/-- An event that is not the start of a connection makes no owner. -/
theorem mem_of_mem_ownerAfter {item : Tagged EventsPeerManager}
    (hold : ∀ context, item.event ≠ .incidentNewConnection context)
    {peerid : PeerId} {holder : TaskId}
    (hholder : holder ∈ ownerAfter owner item peerid) :
    holder ∈ owner peerid ∧ item.event ≠ .incidentCompletedPeer peerid := by
  obtain ⟨connection, event⟩ := item
  cases event with
  | incidentNewConnection context => exact absurd rfl (hold context)
  | incidentCompletedPeer completed =>
      by_cases hpeerid : peerid = completed
      · simp [ownerAfter, hpeerid] at hholder
      · refine ⟨by simpa [ownerAfter, hpeerid] using hholder, fun heq => ?_⟩
        exact hpeerid (by simpa using heq.symm)
  | incidentCompletedAllPeer => simp [ownerAfter] at hholder
  | _ => exact ⟨hholder, fun heq => by cases heq⟩

/-- The manager takes up a message or the end of a peer and reports it. -/
theorem Attributed.report (hattributed : Attributed current owner before)
    {self self' : PeerManager} {event : EventsPeerManager}
    {connection : TaskId} {fromPeers : List (Tagged EventsPeer)}
    (hmanager : before.manager = .running (.done self .next))
    (hinbound : fromPeers ⊆ before.fromPeers)
    (hregistry : Registry current before.peers before.next self')
    (hold : ∀ context, event ≠ .incidentNewConnection context)
    (hconcerns : ∀ peerid, Concerns event peerid → connection = current peerid)
    (htasks : ∀ task ∈ self.setTaskPeers,
      event ≠ .incidentCompletedPeer task.peerid → task ∈ self'.setTaskPeers) :
    Attributed current owner
      { before with
        manager := .running (self'.notifyProtocol event)
        managing := connection
        fromPeers := fromPeers } := by
  have hidle := reports_of_idle hmanager
  refine { hattributed with
    registry := hregistry, drops := ?_, sends := ?_, inbound := ?_
    reports := ?_, settled := ?_, final := ?_ }
  · intro turn hturn
    cases hturn
    exact notifyProtocol_dropsOnly event
  · intro self task command resume hissue
    cases hissue
  · intro item hitem
    exact hattributed.inbound item (hinbound hitem)
  · change ∀ item ∈ before.toProtocol ++ [_], _
    intro item hitem
    rw [List.mem_append, List.mem_singleton] at hitem
    obtain hitem | rfl := hitem
    · exact hattributed.reports item (hidle ▸ hitem)
    · exact hconcerns
  · intro hopen
    change ReadySettled current owner (before.toProtocol ++ [_])
    rw [readySettled_append, ← hidle]
    refine ⟨hattributed.settled hopen, fun peerid _ _ holder hholder => ?_⟩
    exact (hattributed.final hopen peerid holder hholder).1
  · intro hopen peerid holder hholder
    change holder ∈ replay owner (before.toProtocol ++ [_]) peerid at hholder
    rw [replay_append, ← hidle] at hholder
    obtain ⟨hholder, hcompleted⟩ := mem_of_mem_ownerAfter hold hholder
    obtain ⟨hcurrent, htask⟩ := hattributed.final hopen peerid holder hholder
    refine ⟨hcurrent, fun _ => ?_⟩
    obtain ⟨task, hmem, rfl⟩ := htask (serving_of_running hmanager not_false)
    rw [hmanager] at hmem
    exact ⟨task, htasks task hmem hcompleted, rfl⟩

/-- An id that no task has owns no records, once the queued events are
handled. -/
theorem Attributed.no_holder (hattributed : Attributed current owner before)
    (hopen : ¬ HasLeft before.handle) (hserving : before.manager.Serving)
    {peerid : PeerId}
    (htasks : ∀ task ∈ before.manager.registry.setTaskPeers,
      task.peerid ≠ peerid) :
    replay owner before.reports peerid = none := by
  rw [Option.eq_none_iff_forall_ne_some]
  intro holder hholder
  obtain ⟨-, htask⟩ := hattributed.final hopen peerid holder hholder
  obtain ⟨task, hmem, hsame⟩ := htask hserving
  exact htasks task hmem hsame

/-- Queued events are about other ids than one of which nothing is left. -/
theorem NoTrace.current_of_concerns {peerid other : PeerId}
    (htrace : NoTrace before peerid) (connection : TaskId)
    {item : Tagged EventsPeerManager} (hitem : item ∈ before.toProtocol)
    (hconcerns : Concerns item.event other) :
    Function.update current peerid connection other = current other := by
  apply Function.update_of_ne
  rintro rfl
  exact htrace.reports item hitem hconcerns

/-- The manager makes a connection a peer of, with a fresh id. -/
theorem Attributed.connect (hattributed : Attributed current owner before)
    {self : PeerManager} {peer : Peer} {context : StructContextConnection}
    (hmanager : before.manager = .running (.done self .next))
    (htrace : NoTrace before self.peerid)
    (hpeer : peer.peerid = self.peerid)
    (hcontext : context.peerid = self.peerid) (address : SocketAddr)
    (typeConnect : TypeConnection) :
    Attributed (Function.update current self.peerid before.next) owner
      { before with
        manager := .running (({ self with peerid := self.peerid + 1 }.addPeer
          before.next self.peerid address typeConnect).notifyProtocol
            (.incidentNewConnection context))
        managing := before.next
        peers := spawnPeer before.peers before.next (some peer)
        next := before.next + 1 } := by
  have hidle := reports_of_idle hmanager
  have htasks := htrace.tasks
  have hregistry := hattributed.registry
  rw [hmanager] at htasks hregistry
  have hother {peerid : PeerId} (hne : peerid ≠ self.peerid) :
      Function.update current self.peerid before.next peerid =
        current peerid := Function.update_of_ne hne _ _
  refine { hattributed with
    registry := hregistry.addPeer htasks hpeer address typeConnect
    drops := ?_, sends := ?_, inbound := ?_, reports := ?_, answers := ?_
    handling := ?_, settled := ?_, final := ?_ }
  · intro turn hturn
    cases hturn
    exact notifyProtocol_dropsOnly _
  · intro self task command resume hissue
    cases hissue
  · intro item hitem peerid message hready
    rw [hattributed.inbound item hitem peerid message hready, hother]
    rintro rfl
    exact htrace.inbound item hitem message hready
  · change ∀ item ∈ before.toProtocol ++ [_], _
    intro item hitem peerid hconcerns
    rw [List.mem_append, List.mem_singleton] at hitem
    obtain hitem | rfl := hitem
    · rw [hattributed.reports item (hidle ▸ hitem) peerid hconcerns]
      exact (htrace.current_of_concerns before.next hitem hconcerns).symm
    · obtain ⟨message, hready⟩ | ⟨context', hnew, hpeerid⟩ := hconcerns
      · cases hready
      · cases hnew
        rw [← hpeerid, hcontext, Function.update_self]
  · intro item hitem
    rw [hattributed.answers item hitem, hother (htrace.answers item hitem)]
  · obtain ⟨peerid, hanswers, hhandling⟩ := hattributed.handling
    refine ⟨peerid, hanswers, fun self' event resume hissue => ?_⟩
    rw [hhandling self' event resume hissue, hother]
    rintro rfl
    rw [hissue] at hanswers
    exact htrace.handling self' event resume hissue hanswers.1.2
  · intro hopen
    change ReadySettled _ owner (before.toProtocol ++ [_])
    rw [readySettled_append]
    refine ⟨?_, fun peerid message hready => by cases hready⟩
    have hsettled := hattributed.settled hopen
    rw [hidle] at hsettled
    apply hsettled.congr
    intro item hitem peerid hconcerns
    exact htrace.current_of_concerns before.next hitem hconcerns
  · intro hopen peerid holder hholder
    have hserving := serving_of_running hmanager not_false
    have hnone := hattributed.no_holder hopen hserving htrace.tasks
    change holder ∈ replay owner (before.toProtocol ++ [_]) peerid at hholder
    rw [replay_append, ← hidle,
      ownerAfter_newConnection before.next (hcontext ▸ hnone), hcontext]
      at hholder
    by_cases hpeerid : peerid = self.peerid
    · subst hpeerid
      rw [Function.update_self, Option.mem_some_iff] at hholder
      rw [Function.update_self]
      exact ⟨hholder.symm, fun _ =>
        ⟨_, List.mem_append_right _ (List.mem_singleton.mpr rfl), rfl⟩⟩
    · rw [Function.update_of_ne hpeerid] at hholder
      obtain ⟨hcurrent, htask⟩ := hattributed.final hopen peerid holder hholder
      rw [hother hpeerid]
      refine ⟨hcurrent, fun _ => ?_⟩
      obtain ⟨task, hmem, hsame⟩ := htask hserving
      rw [hmanager] at hmem
      exact ⟨task, List.mem_append_left _ hmem, hsame⟩

/-- The manager's records after a send was answered. -/
theorem Attributed.resumed (hattributed : Attributed current owner before)
    {self : PeerManager} {send : ManagerSend} {resume : Bool → ManagerTurn}
    (hmanager : before.manager = .running (.issue self send resume))
    (delivered : Bool) :
    ∃ self' flow, resume delivered = .done self' flow ∧
      Registry current before.peers before.next self' ∧
      self'.setTaskPeers = self.setTaskPeers := by
  have hregistry := hattributed.registry
  rw [hmanager] at hregistry
  obtain ⟨self', flow, hdone, rfl | ⟨peerid, rfl⟩⟩ :=
    hattributed.drops _ hmanager delivered
  · exact ⟨self', flow, hdone, hregistry, rfl⟩
  · exact ⟨_, flow, hdone, hregistry.removePeer peerid, rfl⟩

theorem Attributed.registry_of_running
    (hattributed : Attributed current owner before) {turn : ManagerTurn}
    (hmanager : before.manager = .running turn) :
    Registry current before.peers before.next turn.state := by
  have hregistry := hattributed.registry
  rw [hmanager] at hregistry
  exact hregistry

/-- A turn of the manager that has ended without a new report. -/
theorem Attributed.settle (hattributed : Attributed current owner before)
    {self : PeerManager} {flow : Flow EventsCriticalCompletionPeerManager}
    (hmanager : after.manager = .running (.done self flow))
    (howners : after.owners = before.owners)
    (hhandle : after.handle = before.handle)
    (hhandling : after.handling = before.handling)
    (hregistry : Registry current after.peers after.next self)
    (hinbound : after.fromPeers ⊆ before.fromPeers)
    (hanswers : after.fromProtocol ⊆ before.fromProtocol)
    (hreports : after.toProtocol = before.reports)
    (hserving : before.manager.Serving)
    (htasks : self.setTaskPeers = before.manager.registry.setTaskPeers) :
    Attributed current owner after := by
  apply hattributed.frame howners hhandle hhandling _ _ _ hinbound hanswers
  · rw [reports_of_idle hmanager, hreports]
  · intro _
    rw [hmanager]
    exact ⟨hserving, htasks⟩
  · rw [hmanager]
    exact hregistry
  · intro turn hturn
    rw [hmanager] at hturn
    cases hturn
    trivial
  · intro self' task command resume hissue
    rw [hmanager] at hissue
    cases hissue

/-- A turn of the manager that ends at once. -/
theorem Attributed.idle (hattributed : Attributed current owner before)
    {self : PeerManager} {flow : Flow EventsCriticalCompletionPeerManager}
    (hmanager : before.manager = .running (.done self .next))
    (hafter : after.manager = .running (.done self flow))
    (howners : after.owners = before.owners)
    (hhandle : after.handle = before.handle)
    (hhandling : after.handling = before.handling)
    (hregistry : Registry current after.peers after.next self)
    (hinbound : after.fromPeers ⊆ before.fromPeers)
    (hanswers : after.fromProtocol ⊆ before.fromProtocol)
    (hreports : after.toProtocol = before.toProtocol) :
    Attributed current owner after := by
  apply hattributed.settle hafter howners hhandle hhandling hregistry hinbound
    hanswers
  · rw [reports_of_idle hmanager, hreports]
  · exact serving_of_running hmanager not_false
  · rw [hmanager]
    rfl

theorem Attributed.take (hattributed : Attributed current owner before)
    {self : PeerManager} {input : ManagerInput}
    (hfresh : FreshConnection before (.managerTake input))
    (hmanager : before.manager = .running (.done self .next))
    (hexternal : External input) :
    ∃ current', Attributed current' owner
      { before with
        manager := .running (PeerManager.turn before.next input self)
        managing := before.next
        peers := spawnPeer before.peers before.next (spawned input self)
        next := before.next + 1 } := by
  have hregistry := hattributed.registry_of_running hmanager
  simp only [FreshConnection, hmanager] at hfresh
  have hturn := @turn_external self before.next input hexternal
  cases hspawned : spawned input self with
  | none =>
      rw [hspawned] at hturn
      generalize PeerManager.turn before.next input self = turn at hturn ⊢
      cases hturn with
      | idle flow =>
          have hregistry' : Registry current before.peers (before.next + 1) self :=
            { hregistry with
              spawned := fun task htask =>
                Nat.lt_succ_of_lt (hregistry.spawned task htask) }
          exact ⟨current, hattributed.idle hmanager rfl rfl rfl rfl hregistry'
            (List.Subset.refl _) (List.Subset.refl _) rfl⟩
  | some peer =>
      rw [hspawned] at hturn
      have htrace := hfresh (accepts_of_spawned hspawned)
      generalize PeerManager.turn before.next input self = turn at hturn ⊢
      cases hturn with
      | accepted hpeer hcontext address typeConnect =>
          exact ⟨_, hattributed.connect hmanager htrace hpeer hcontext
            address typeConnect⟩

theorem Attributed.protocol (hattributed : Attributed current owner before)
    {self : PeerManager} {item : Tagged EventsHandleMessage}
    {rest : List (Tagged EventsHandleMessage)}
    (hmanager : before.manager = .running (.done self .next))
    (hqueue : before.fromProtocol = item :: rest) :
    Attributed current owner
      { before with
        manager := .running (PeerManager.turn before.next
          (.incidentProtocol (some item.event)) self)
        managing := item.connection
        fromProtocol := rest } := by
  have hregistry := hattributed.registry_of_running hmanager
  have hmem : item ∈ before.fromProtocol := hqueue ▸ List.mem_cons_self
  have hrest : rest ⊆ before.fromProtocol := hqueue ▸ List.subset_cons_self _ _
  have hturn := @turn_protocol self before.next item.event
  have hdrops := hturn.dropsOnly
  generalize PeerManager.turn before.next (.incidentProtocol (some item.event))
    self = turn at hturn hdrops ⊢
  cases hturn with
  | missing hentry =>
      exact hattributed.idle hmanager rfl rfl rfl rfl hregistry
        (List.Subset.refl _) hrest rfl
  | @entry entry command resume hentry hresume =>
      refine hattributed.frame rfl rfl rfl hregistry ?_ ?_ (List.Subset.refl _)
        hrest ?_ ?_
      · intro turn hturn
        cases hturn
        exact hdrops
      · intro self' task command' resume' hissue
        cases hissue
        rw [hregistry.entry _ entry hentry]
        exact (hattributed.answers item hmem).symm
      · rw [reports_of_idle hmanager]
        exact List.append_nil _
      · intro _
        rw [hmanager]
        exact ⟨not_false, rfl⟩

theorem Attributed.peer (hattributed : Attributed current owner before)
    {self : PeerManager} {item : Tagged EventsPeer}
    {rest : List (Tagged EventsPeer)}
    (hmanager : before.manager = .running (.done self .next))
    (hqueue : before.fromPeers = item :: rest) :
    Attributed current owner
      { before with
        manager := .running (PeerManager.turn before.next
          (.incidentPeer (some item.event)) self)
        managing := item.connection
        fromPeers := rest } := by
  have hregistry := hattributed.registry_of_running hmanager
  have hmem : item ∈ before.fromPeers := hqueue ▸ List.mem_cons_self
  have hrest : rest ⊆ before.fromPeers := hqueue ▸ List.subset_cons_self _ _
  obtain hdone | ⟨peerid, message, hready, hturn⟩ :=
    @turn_peer self before.next item.event
  · rw [hdone]
    exact hattributed.idle hmanager rfl rfl rfl rfl hregistry hrest
      (List.Subset.refl _) rfl
  · rw [hturn]
    refine hattributed.report hmanager hrest hregistry
      (fun context hnew => by cases hnew) ?_ ?_
    · intro other hconcerns
      obtain ⟨message', hother⟩ | ⟨context, hnew, -⟩ := hconcerns
      · cases hother
        exact hattributed.inbound item hmem peerid message hready
      · cases hnew
    · intro task htask _
      exact htask

theorem Attributed.join (hattributed : Attributed current owner before)
    {self : PeerManager} {task : TaskPeer} {outcome : TaskOutcome}
    (hmanager : before.manager = .running (.done self .next))
    (htask : task ∈ self.setTaskPeers)
    (hfinished : before.peers task.id = .finished outcome) :
    Attributed current owner
      { before with
        manager := .running (PeerManager.turn before.next
          (.resultPeer (task.joined outcome)) (self.takeTask task))
        managing := task.id } := by
  have hregistry : Registry current before.peers before.next self :=
    hattributed.registry_of_running hmanager
  have hcomplited := hregistry.complited
    (show (before.peers task.id).HasFinished by rw [hfinished]; trivial)
  rw [turn_joined (hregistry.known task htask)]
  refine hattributed.report hmanager (List.Subset.refl _) hcomplited
    (fun context hnew => by cases hnew) ?_ ?_
  · intro peerid hconcerns
    obtain ⟨message, hready⟩ | ⟨context, hnew, -⟩ := hconcerns
    · cases hready
    · cases hnew
  · intro other hother hne
    apply (List.mem_erase_of_ne _).mpr hother
    rintro rfl
    exact hne rfl

/-- The channel to `HandleMessage` takes the event that the manager awaits. -/
theorem Attributed.send (hattributed : Attributed current owner before)
    {self : PeerManager} {send : ManagerSend} {resume : Bool → ManagerTurn}
    (hmanager : before.manager = .running (.issue self send resume)) :
    Attributed current owner
      { before.deliver send with manager := .running (resume true) } := by
  obtain ⟨self', flow, hdone, hregistry, htasks⟩ :=
    hattributed.resumed hmanager true
  have hserving := serving_of_running hmanager not_false
  have htasks' : self'.setTaskPeers = before.manager.registry.setTaskPeers := by
    rw [hmanager, htasks]
    rfl
  rw [hdone]
  cases send with
  | toProtocol event =>
      refine hattributed.settle rfl rfl rfl rfl hregistry (List.Subset.refl _)
        (List.Subset.refl _) ?_ hserving htasks'
      simp [System.reports, System.pendingReports, hmanager,
        ManagerPhase.awaits, System.deliver]
  | toPeer task command =>
      refine hattributed.settle rfl rfl rfl rfl hregistry (List.Subset.refl _)
        (List.Subset.refl _) ?_ hserving htasks'
      simp [System.reports, System.pendingReports, hmanager,
        ManagerPhase.awaits, System.deliver]

/-- A send of the manager fails: a report only when `HandleMessage` has left. -/
theorem Attributed.sendClosed (hattributed : Attributed current owner before)
    {self : PeerManager} {send : ManagerSend} {resume : Bool → ManagerTurn}
    (hmanager : before.manager = .running (.issue self send resume))
    (hclosed : before.Closed send) :
    Attributed current owner
      { before with manager := .running (resume false) } := by
  obtain ⟨self', flow, hdone, hregistry, htasks⟩ :=
    hattributed.resumed hmanager false
  rw [hdone]
  cases send with
  | toProtocol event =>
      have hleft : HasLeft before.handle := hclosed
      refine { hattributed with
        registry := hregistry, drops := ?_, sends := ?_, reports := ?_
        settled := fun hopen => absurd hleft hopen
        final := fun hopen => absurd hleft hopen }
      · intro turn hturn
        cases hturn
        trivial
      · intro self'' task command resume' hissue
        cases hissue
      · rw [reports_of_idle rfl]
        intro item hitem
        exact hattributed.reports item (List.mem_append_left _ hitem)
  | toPeer task command =>
      refine hattributed.settle rfl rfl rfl rfl hregistry (List.Subset.refl _)
        (List.Subset.refl _) ?_ ?_ ?_
      · simp [System.reports, System.pendingReports, hmanager,
          ManagerPhase.awaits]
      · rw [hmanager]
        exact not_false
      · rw [hmanager, htasks]
        rfl

theorem reports_of_closed {manager : ManagerPhase}
    (hmanager : before.manager = manager)
    (hclosed : ∀ turn, manager ≠ .running turn) :
    before.reports = before.toProtocol := by
  have hnone : before.pendingReports = [] := by
    rw [System.pendingReports, hmanager]
    cases manager with
    | running turn => exact absurd rfl (hclosed turn)
    | disconnecting incident self tasks => cases tasks <;> rfl
    | _ => rfl
  rw [System.reports, hnone, List.append_nil]

/-- A step of the manager after its loop. -/
theorem Attributed.close (hattributed : Attributed current owner before)
    {manager : ManagerPhase} {commands : TaskId → List EventsPeerManager}
    (hbefore : before.reports = before.toProtocol)
    (hclosed : ∀ turn, manager ≠ .running turn)
    (hregistry : Registry current before.peers before.next manager.registry) :
    Attributed current owner
      { before with
        manager := manager
        commands := commands } := by
  refine hattributed.frame rfl rfl rfl hregistry ?_ ?_ (List.Subset.refl _)
    (List.Subset.refl _) ?_ ?_
  · intro turn hturn
    exact absurd hturn (hclosed turn)
  · intro self task command resume hissue
    exact absurd hissue (hclosed _)
  · rw [hbefore]
    exact reports_of_closed rfl hclosed
  · intro hserving
    cases manager with
    | running turn => exact absurd rfl (hclosed turn)
    | _ => exact hserving.elim

theorem Attributed.managerStep (hattributed : Attributed current owner before)
    (hfresh : FreshConnection before label)
    (hstep : ManagerStep before label after) :
    ∃ current', Attributed current' owner after := by
  have hregistry := hattributed.registry
  cases hstep with
  | take hmanager hexternal => exact hattributed.take hfresh hmanager hexternal
  | protocol hmanager hqueue =>
      exact ⟨current, hattributed.protocol hmanager hqueue⟩
  | protocolClosed hmanager hqueue hclosed =>
      rw [hmanager] at hregistry
      exact ⟨current, hattributed.idle hmanager rfl rfl rfl rfl hregistry
        (List.Subset.refl _) (List.Subset.refl _) rfl⟩
  | peer hmanager hqueue => exact ⟨current, hattributed.peer hmanager hqueue⟩
  | join hmanager htask hfinished =>
      exact ⟨current, hattributed.join hmanager htask hfinished⟩
  | send hmanager hopen hroom => exact ⟨current, hattributed.send hmanager⟩
  | sendClosed hmanager hclosed =>
      exact ⟨current, hattributed.sendClosed hmanager hclosed⟩
  | leave hmanager htasks =>
      rw [hmanager] at hregistry
      exact ⟨current, hattributed.close (reports_of_idle hmanager) nofun hregistry⟩
  | disconnect hmanager | disconnectClosed hmanager | disconnected hmanager
  | finish hmanager =>
      rw [hmanager] at hregistry
      have hreports := reports_of_closed hmanager nofun
      exact ⟨current, hattributed.close hreports nofun hregistry⟩
  | @drain self incident task outcome hmanager htask hfinished =>
      rw [hmanager] at hregistry
      change Registry current before.peers before.next self at hregistry
      have hreports := reports_of_closed hmanager nofun
      have hcomplited := hregistry.complited
        (show (before.peers task.id).HasFinished by rw [hfinished]; trivial)
      rw [drainPeer_joined (hregistry.known task htask)]
      exact ⟨current, hattributed.close hreports nofun hcomplited⟩

end Steps

end P2PNetwork.Runtime
