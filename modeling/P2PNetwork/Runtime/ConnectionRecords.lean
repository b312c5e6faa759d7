import P2PNetwork.Runtime.Reports

/-!
# Records and their connections

The starts of connections that the manager reports, less the ends, are the tasks
it has not joined, id by id.  `HandleMessage` gets these events in the order
they were sent, so the records it keeps are those of running tasks, and so are
the entries of the manager.  Ids may be given out twice.
-/

namespace P2PNetwork.Runtime

open P2PNetwork.EventLoop
open P2PNetwork.Events
open P2PNetwork.Handshake
open P2PNetwork.Manager
open P2PNetwork.Wire

/-! ## Starts and ends -/

/-- The event starts a connection of `peerid`. -/
def startsPeer (peerid : PeerId) (item : Tagged EventsPeerManager) : Bool :=
  match item.event with
  | .incidentNewConnection context => context.peerid = peerid
  | _ => false

/-- The event ends a connection of `peerid`. -/
def endsPeer (peerid : PeerId) (item : Tagged EventsPeerManager) : Bool :=
  match item.event with
  | .incidentCompletedPeer completed => completed = peerid
  | _ => false

/-- Some task was spawned with the id. -/
def RunsPeer (tasks : List TaskPeer) (peerid : PeerId) : Prop :=
  ∃ task ∈ tasks, task.peerid = peerid

/-- The events account for the tasks of every id, and records that they leave
behind are those of a task. -/
structure Accounted (events : List (Tagged EventsPeerManager))
    (tasks : List TaskPeer) : Prop where
  balance : ∀ peerid, events.countP (startsPeer peerid) =
    events.countP (endsPeer peerid) +
      tasks.countP fun task => task.peerid = peerid
  held : ∀ peerid, (replay (fun _ => none) events peerid).isSome →
    RunsPeer tasks peerid

section Events

variable {before after : System} {label : Label}
variable {events news : List (Tagged EventsPeerManager)}
variable {tasks : List TaskPeer} {peerid other : PeerId}

theorem RunsPeer.append_left (hruns : RunsPeer tasks peerid)
    (more : List TaskPeer) : RunsPeer (tasks ++ more) peerid := by
  obtain ⟨task, htask, hpeerid⟩ := hruns
  exact ⟨task, List.mem_append_left _ htask, hpeerid⟩

/-- Another peer's task is still there when a task has been joined. -/
theorem RunsPeer.erase {task : TaskPeer} (hruns : RunsPeer tasks peerid)
    (hne : peerid ≠ task.peerid) : RunsPeer (tasks.erase task) peerid := by
  obtain ⟨other, hother, rfl⟩ := hruns
  have hdistinct : other ≠ task := fun heq => hne (congrArg TaskPeer.peerid heq)
  exact ⟨other, (List.mem_erase_of_ne hdistinct).mpr hother, rfl⟩

theorem Accounted.nil : Accounted [] [] where
  balance peerid := rfl
  held peerid hsome := by simp [replay] at hsome

theorem Accounted.connected (haccounted : Accounted events tasks)
    {context : StructContextConnection} (connection : TaskId) (id : TaskId)
    (hcontext : context.peerid = peerid) :
    Accounted
      (events ++ [{
        connection := connection, event := .incidentNewConnection context }])
      (tasks ++ [{ id := id, peerid := peerid }]) where
  balance other := by
    have hbalance := haccounted.balance other
    simp only [List.countP_append, List.countP_singleton, startsPeer, endsPeer,
      hcontext, hbalance, Bool.false_eq_true, if_false]
    omega
  held other hsome := by
    by_cases hother : other = peerid
    · exact ⟨_, List.mem_append_right _ (List.mem_singleton.mpr rfl), hother.symm⟩
    · apply RunsPeer.append_left
      apply haccounted.held
      rw [replay_append] at hsome
      simpa [ownerAfter, hcontext, hother] using hsome

theorem Accounted.forwarded (haccounted : Accounted events tasks)
    {item : Tagged EventsPeerManager} {message : MessagePayload}
    (hevent : item.event = .readyMessage peerid message) :
    Accounted (events ++ [item]) tasks where
  balance other := by
    simpa [List.countP_append, List.countP_singleton, startsPeer, endsPeer,
      hevent] using haccounted.balance other
  held other hsome := by
    apply haccounted.held
    rw [replay_append] at hsome
    simpa [ownerAfter, hevent] using hsome

theorem Accounted.ended (haccounted : Accounted events tasks) {task : TaskPeer}
    (htask : task ∈ tasks) (connection : TaskId) :
    Accounted
      (events ++ [{
        connection := connection, event := .incidentCompletedPeer task.peerid }])
      (tasks.erase task) where
  balance other := by
    have hbalance := haccounted.balance other
    have hperm := (List.perm_cons_erase htask).countP_eq
      fun task => decide (task.peerid = other)
    simp only [List.countP_cons, decide_eq_true_eq] at hperm
    simp only [List.countP_append, List.countP_singleton, startsPeer, endsPeer,
      hbalance, hperm, Bool.false_eq_true, if_false, decide_eq_true_eq]
    omega
  held other hsome := by
    rw [replay_append, ownerAfter_completed] at hsome
    by_cases hother : other = task.peerid
    · subst hother
      simp at hsome
    · rw [Function.update_of_ne hother] at hsome
      exact (haccounted.held other hsome).erase hother

theorem Accounted.announcement
    (haccounted : Accounted events before.manager.registry.setTaskPeers)
    (hnews : Announcement before label after news) :
    Accounted (events ++ news) after.manager.registry.setTaskPeers := by
  cases hnews with
  | quiet htasks hqueue =>
      rw [List.append_nil, htasks]
      exact haccounted
  | connected hcontext htasks hqueue =>
      rw [htasks]
      exact haccounted.connected _ _ hcontext
  | forwarded hevent htasks hqueue =>
      rw [htasks]
      exact haccounted.forwarded hevent
  | ended htask hfinished htasks hqueue =>
      rw [htasks]
      exact haccounted.ended htask _

end Events

/-! ## Runs -/

/-- `HandleMessage` keeps the records that the events it has taken leave
behind, and what is queued for it are the other events. -/
def RecordsTaken (system : System)
    (reported : List (Tagged EventsPeerManager)) : Prop :=
  ∃ owner peerid, AnswersFor owner peerid system.handle ∧
    replay owner system.toProtocol = replay (fun _ => none) reported

structure RecordsInOrder (reached : System × Record) : Prop where
  reports : ManagerReports reached.1
  accounted : reached.1.manager.Serving →
    Accounted (announced reached) reached.1.manager.registry.setTaskPeers
  entries : ∀ peerid ∈ reached.1.manager.registry.setAllPeers,
    RunsPeer reached.1.manager.registry.setTaskPeers peerid
  taken : RecordsTaken reached.1 reached.2.reported

section Steps

variable {before after : System} {label : Label} {record : Record}

theorem replay_replay (owner : PeerId → Option TaskId)
    (left right : List (Tagged EventsPeerManager)) :
    replay owner (left ++ right) = replay (replay owner left) right :=
  List.foldl_append

theorem RecordsInOrder.initial (nonce : UInt64) :
    RecordsInOrder (System.initial nonce, Record.empty) where
  reports := .initial nonce
  accounted _ := .nil
  entries peerid hentry := by simp [System.initial, ManagerPhase.registry,
    PeerManager.create] at hentry
  taken := ⟨fun _ => none, 0, Owned.create, rfl⟩

/-- An entry of the manager is that of a task, also after a task has been
joined. -/
theorem RegistryMove.entries {self : PeerManager}
    (hmove : RegistryMove before label self)
    (hentries : ∀ peerid ∈ before.manager.registry.setAllPeers,
      RunsPeer before.manager.registry.setTaskPeers peerid) :
    ∀ peerid ∈ self.setAllPeers, RunsPeer self.setTaskPeers peerid := by
  intro peerid hentry
  cases hmove with
  | kept htasks hknown hcounter hkept =>
      rw [htasks]
      exact hentries peerid (hkept peerid hentry)
  | connected address typeConnect =>
      simp only [PeerManager.addPeer, AList.mem_insert] at hentry ⊢
      obtain rfl | hentry := hentry
      · exact ⟨_, List.mem_append_right _ (List.mem_singleton.mpr rfl), rfl⟩
      · exact (hentries peerid hentry).append_left _
  | ended hlabel htask =>
      have herased : peerid ∈ before.manager.registry.setAllPeers.erase _ := hentry
      obtain ⟨hne, hmem⟩ := AList.mem_erase.mp herased
      exact (hentries peerid hmem).erase hne

/-- What the manager puts into `HandleMessage`'s channel is recorded. -/
theorem ManagerStep.delivered (hstep : ManagerStep before label after)
    (record : Record) :
    ∃ taken, after.toProtocol = before.toProtocol ++ taken ∧
      (record.after before label).reported = record.reported ++ taken := by
  cases hstep with
  | @send self send resume hmanager hopen hroom =>
      refine ⟨before.pendingReports, ?_, rfl⟩
      cases send with
      | toProtocol event =>
          simp [System.deliver, System.pendingReports, hmanager,
            ManagerPhase.awaits]
      | toPeer task event =>
          simp [System.deliver, System.pendingReports, hmanager,
            ManagerPhase.awaits]
  | disconnect hmanager hopen hroom =>
      exact ⟨[], by simp [System.deliver], by simp [Record.after]⟩
  | _ => exact ⟨[], by simp, by simp [Record.after]⟩

theorem RecordsTaken.managerStep (htaken : RecordsTaken before record.reported)
    (hstep : ManagerStep before label after) :
    RecordsTaken after (record.after before label).reported := by
  obtain ⟨owner, peerid, hanswers, hreplay⟩ := htaken
  obtain ⟨taken, hqueue, hrecord⟩ := hstep.delivered record
  refine ⟨owner, peerid, ?_, ?_⟩
  · rw [hstep.handle_eq]
    exact hanswers
  · rw [hqueue, hrecord, replay_replay, replay_replay, hreplay]

theorem RecordsTaken.handleStep {reported : List (Tagged EventsPeerManager)}
    (htaken : RecordsTaken before reported)
    (hstep : HandleStep before label after) : RecordsTaken after reported := by
  obtain ⟨owner, peerid, hanswers, hreplay⟩ := htaken
  cases hstep with
  | threadProtocol hhandle incident =>
      rw [hhandle] at hanswers
      refine ⟨owner, peerid, ?_, hreplay⟩
      cases incident <;> exact hanswers
  | @peermanager self item rest hhandle hqueue now =>
      rw [hhandle] at hanswers
      obtain ⟨peerid', hanswers', -⟩ := @turn_answersFor owner self item hanswers now
      refine ⟨ownerAfter owner item, peerid', hanswers', ?_⟩
      rw [hqueue] at hreplay
      exact hreplay
  | peermanagerClosed hhandle hqueue hfinished now =>
      rw [hhandle] at hanswers
      exact ⟨owner, peerid, hanswers, hreplay⟩
  | send hhandle hopen hroom =>
      rw [hhandle] at hanswers
      exact ⟨owner, peerid, hanswers.2 true, hreplay⟩
  | sendClosed hhandle hclosed =>
      rw [hhandle] at hanswers
      exact ⟨owner, peerid, hanswers.2 false, hreplay⟩

theorem RecordsInOrder.step {reached later : System × Record}
    (horder : RecordsInOrder reached)
    (hstep : RecordedStep reached label later) : RecordsInOrder later := by
  obtain ⟨before, record⟩ := reached
  obtain ⟨after, _⟩ := later
  obtain ⟨hstep, rfl⟩ := hstep
  have hreports : ManagerReports after := horder.reports.step hstep
  cases hstep with
  | manager hstep =>
      have hmove := hstep.registryMove horder.reports.registry.tasks
        horder.reports.registry.drops
      refine ⟨hreports, fun hserving => ?_, hmove.entries horder.entries,
        horder.taken.managerStep hstep⟩
      obtain ⟨news, hnews, hannounced⟩ :=
        hstep.addsNews horder.reports hserving record
      rw [hannounced]
      exact (horder.accounted (hstep.serving hserving)).announcement hnews
  | handle hstep =>
      have hrecord := hstep.record_eq record
      refine ⟨hreports, ?_, ?_, ?_⟩
      · rw [hstep.manager_eq, hstep.announced_eq]
        exact horder.accounted
      · rw [hstep.manager_eq]
        exact horder.entries
      · rw [hrecord]
        exact horder.taken.handleStep hstep
  | peer hstep =>
      refine ⟨hreports, ?_, ?_, ?_⟩
      · rw [hstep.manager_eq, hstep.announced_eq]
        exact horder.accounted
      · rw [hstep.manager_eq]
        exact horder.entries
      · obtain ⟨owner, peerid, hanswers, hreplay⟩ := horder.taken
        refine ⟨owner, peerid, ?_, ?_⟩
        · rw [hstep.handle_eq]
          exact hanswers
        · rw [hstep.toProtocol_eq, hstep.reported_eq]
          exact hreplay

end Steps

section Runs

variable {nonce : UInt64} {labels : List Label} {system : System}
variable {record : Record} {self : PeerManager}

theorem recordsInOrder_of_run {reached : System × Record}
    (run : Run RecordedStep (.initial nonce, .empty) labels reached) :
    RecordsInOrder reached :=
  run.invariant RecordsInOrder (.initial nonce) fun _ _ _ => .step

theorem AnswersFor.owned {owner : PeerId → Option TaskId} {peerid : PeerId}
    {turn : HandleTurn} (hanswers : AnswersFor owner peerid turn) :
    Owned owner turn.state := by
  cases turn with
  | done tables flow => exact hanswers
  | issue tables event resume => exact hanswers.1.1

/-- Between two turns of the manager, the starts that it has reported of an id
less the ends are the tasks it has with that id, its entries are those of
tasks, and so are the records of `HandleMessage` once it has taken all
events. -/
theorem records_of_tasks
    (run : Run RecordedStep (.initial nonce, .empty) labels (system, record))
    (hmanager : system.manager = .running (.done self .next)) :
    (∀ peerid, (record.reported.countP (startsPeer peerid) : ℤ) -
        record.reported.countP (endsPeer peerid) =
          self.setTaskPeers.countP fun task => task.peerid = peerid) ∧
      (∀ peerid ∈ self.setAllPeers, RunsPeer self.setTaskPeers peerid) ∧
      (system.toProtocol = [] → ∀ peerid,
        peerid ∈ system.handle.state.setContextPeers ∨
          peerid ∈ system.handle.state.setStatePeers →
            RunsPeer self.setTaskPeers peerid) := by
  have horder := recordsInOrder_of_run run
  have hregistry := registry_of_idle hmanager
  have haccounted := horder.accounted (serving_of_running hmanager not_false)
  have hentries := horder.entries
  simp only [announced, pendingReports_of_idle hmanager, List.append_nil,
    hregistry] at haccounted hentries
  refine ⟨fun peerid => ?_, hentries, fun hdrained peerid hmem => ?_⟩
  · rw [haccounted.balance peerid]
    push_cast
    exact add_sub_cancel_left _ _
  · obtain ⟨owner, other, hanswers, hreplay⟩ := horder.taken
    rw [hdrained] at hreplay
    have howned := hanswers.owned
    apply haccounted.held
    rw [← hreplay]
    obtain hcontext | hstate := hmem
    · exact (howned.context peerid).mp hcontext
    · exact (howned.state peerid).mp hstate

end Runs

/-- Two connections, of which the first one has ended: `HandleMessage` has a
record of the second one. -/
theorem records_of_tasks_survivor :
    ∃ labels system record self,
      Run RecordedStep (.initial 0, .empty) labels (system, record) ∧
      system.manager = .running (.done self .next) ∧
      self.setTaskPeers = [{ id := 1, peerid := 2 }] ∧
      2 ∈ system.handle.state.setContextPeers ∧
      (∀ peerid, (record.reported.countP (startsPeer peerid) : ℤ) -
          record.reported.countP (endsPeer peerid) =
            self.setTaskPeers.countP fun task => task.peerid = peerid) ∧
      ∀ peerid, peerid ∈ system.handle.state.setContextPeers ∨
          peerid ∈ system.handle.state.setStatePeers →
            RunsPeer self.setTaskPeers peerid := by
  obtain ⟨_, system, self, taken, hmanager, htasks, hdrained, hrecord⟩ := survivor_run
  obtain ⟨record, run⟩ := recorded_run taken .empty
  obtain ⟨hbalance, -, hrecords⟩ := records_of_tasks run hmanager
  exact ⟨_, _, _, _, run, hmanager, htasks, hrecord, hbalance, hrecords hdrained⟩

end P2PNetwork.Runtime
