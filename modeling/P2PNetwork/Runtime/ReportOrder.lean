import P2PNetwork.Runtime.Reports

/-!
# The order of reports about one connection

Messages reach the manager through its queue and the ends of peers through
`join_next`, and `select!` serves either first.  The messages of a connection
stay in order.  The report of its end goes in at the point where the task is
joined, so the messages that are queued then are reported after it.
-/

namespace P2PNetwork.Runtime

open P2PNetwork.EventLoop
open P2PNetwork.Events
open P2PNetwork.Manager
open P2PNetwork.PeerActor

/-! ## The events of a connection -/

section Connections

variable {α : Type}

/-- The events of a list that belong to a connection, in order. -/
def ofConnection (connection : TaskId) (items : List (Tagged α)) : List α :=
  (items.filter fun item => item.connection = connection).map Tagged.event

@[simp]
theorem ofConnection_append (connection : TaskId) (left right : List (Tagged α)) :
    ofConnection connection (left ++ right) =
      ofConnection connection left ++ ofConnection connection right := by
  simp [ofConnection]

@[simp]
theorem ofConnection_cons (connection : TaskId) (item : Tagged α)
    (items : List (Tagged α)) :
    ofConnection connection (item :: items) =
      if item.connection = connection then
        item.event :: ofConnection connection items
      else ofConnection connection items := by
  by_cases heq : item.connection = connection <;> simp [ofConnection, heq]

@[simp]
theorem ofConnection_nil (connection : TaskId) :
    ofConnection connection ([] : List (Tagged α)) = [] := rfl

theorem ofConnection_eq_nil {connection : TaskId} {items : List (Tagged α)} :
    ofConnection connection items = [] ↔
      ∀ item ∈ items, item.connection ≠ connection := by
  simp [ofConnection]

end Connections

/-- What the manager has reported of a connection, is about to report and will
report when it takes the messages that are queued now. -/
def account (connection : TaskId) (reached : System × Record) :
    List EventsPeerManager :=
  ofConnection connection (announced reached) ++
    ofConnection connection (forwards reached.1.fromPeers)

/-- The messages that the peer of a connection has enqueued so far, as they are
to be reported. -/
def messages (connection : TaskId) (record : Record) : List EventsPeerManager :=
  ofConnection connection (forwards record.enqueued)

/-! ## What a step does to the account -/

/-- The account of a connection stays as it is, or the start or the end of the
connection goes in between the reports and the queued messages. -/
inductive AccountMove (connection : TaskId) (before : System × Record)
    (label : Label) (after : System × Record) : Prop where
  | kept
      (htasks : ∀ task ∈ after.1.manager.registry.setTaskPeers,
        task.id = connection → task ∈ before.1.manager.registry.setTaskPeers)
      (haccount : account connection after = account connection before)
  | started (context : StructContextConnection)
      (hcontext : context.peerid = before.1.manager.registry.peerid)
      (hnext : connection = before.1.next)
      (htasks : after.1.manager.registry.setTaskPeers =
        before.1.manager.registry.setTaskPeers ++
          [{ id := connection, peerid := context.peerid }])
      (haccount : account connection after =
        ofConnection connection (announced before) ++
          .incidentNewConnection context ::
            ofConnection connection (forwards before.1.fromPeers))
  | ended (task : TaskPeer) (hlabel : label = .managerJoin task)
      (htask : task ∈ before.1.manager.registry.setTaskPeers)
      (hid : task.id = connection)
      (htasks : after.1.manager.registry.setTaskPeers =
        before.1.manager.registry.setTaskPeers.erase task)
      (haccount : account connection after =
        ofConnection connection (announced before) ++
          .incidentCompletedPeer task.peerid ::
            ofConnection connection (forwards before.1.fromPeers))

section Steps

variable {before after : System} {label : Label} {record record' : Record}

/-- The manager takes messages from the head of its queue to the end of its
reports. -/
theorem accountMove_of_announcement {news : List (Tagged EventsPeerManager)}
    (hnews : Announcement before label after news)
    (hannounced : announced (after, record') = announced (before, record) ++ news)
    (connection : TaskId) :
    AccountMove connection (before, record) label (after, record') := by
  cases hnews with
  | quiet htasks hqueue =>
      refine .kept (fun task htask _ => htasks ▸ htask) ?_
      simp [account, hannounced, hqueue]
  | forwarded hevent htasks hqueue =>
      refine .kept (fun task htask _ => htasks ▸ htask) ?_
      simp only [account, hannounced, hqueue, ofConnection_append,
        ofConnection_cons, ofConnection_nil, List.append_assoc]
      split <;> rfl
  | @connected input after context hcontext htasks hqueue =>
      by_cases hnext : before.next = connection
      · refine .started context hcontext hnext.symm ?_ ?_
        · rw [htasks, hnext, hcontext]
        · simp [account, hannounced, hqueue, hnext]
      · refine .kept (fun task htask hid => ?_) ?_
        · rw [htasks, List.mem_append, List.mem_singleton] at htask
          obtain hold | rfl := htask
          · exact hold
          · exact absurd hid hnext
        · simp [account, hannounced, hqueue, hnext]
  | @ended task after htask hfinished htasks hqueue =>
      by_cases hid : task.id = connection
      · refine .ended task rfl htask hid htasks ?_
        simp [account, hannounced, hqueue, hid]
      · refine .kept (fun other hother _ => ?_) ?_
        · rw [htasks] at hother
          exact List.mem_of_mem_erase hother
        · simp [account, hannounced, hqueue, hid]

end Steps

/-! ## Runs -/

/-- The account of every task is the start of its connection and what its peer
has enqueued. -/
structure ReportsInOrder (reached : System × Record) : Prop where
  reports : ManagerReports reached.1
  peers : PeersInOrder reached.1
  distinct : (reached.1.manager.registry.setTaskPeers.map TaskPeer.id).Nodup
  queued : ∀ item ∈ reached.1.fromPeers, item.connection < reached.1.next
  enqueued : ∀ item ∈ reached.2.enqueued, item.connection < reached.1.next
  known : reached.1.manager.Serving →
    ∀ item ∈ announced reached, item.connection < reached.1.next
  accounts : reached.1.manager.Serving →
    ∀ task ∈ reached.1.manager.registry.setTaskPeers,
      ∃ context, context.peerid = task.peerid ∧
        account task.id reached =
          .incidentNewConnection context :: messages task.id reached.2

section Steps

variable {before after : System} {label : Label} {record : Record}
variable {connection : TaskId}

theorem ReportsInOrder.initial (nonce : UInt64) :
    ReportsInOrder (System.initial nonce, Record.empty) where
  reports := .initial nonce
  peers := .initial nonce
  distinct := List.nodup_nil
  queued := nofun
  enqueued := nofun
  known _ := nofun
  accounts _ := nofun

theorem RegistryMove.distinct {self : PeerManager}
    (hmove : RegistryMove before label self)
    (htasks : TasksKnown before.next before.manager.registry)
    (hdistinct : (before.manager.registry.setTaskPeers.map TaskPeer.id).Nodup) :
    (self.setTaskPeers.map TaskPeer.id).Nodup := by
  cases hmove with
  | kept hsame hknown hcounter hentries => rwa [hsame]
  | connected address typeConnect =>
      have hnew : before.next ∉
          before.manager.registry.setTaskPeers.map TaskPeer.id := by
        rw [List.mem_map]
        rintro ⟨task, htask, hid⟩
        exact (htasks.spawned task htask).ne hid
      simpa [PeerManager.addPeer, List.nodup_append, hdistinct] using hnew
  | ended hlabel htask => exact hdistinct.sublist (List.erase_sublist.map _)

theorem forwards_connection {queue : List (Tagged EventsPeer)}
    {item : Tagged EventsPeerManager} (hitem : item ∈ forwards queue) :
    ∃ origin ∈ queue, origin.connection = item.connection := by
  obtain ⟨origin, horigin, hforward⟩ := List.mem_filterMap.mp hitem
  refine ⟨origin, horigin, ?_⟩
  split at hforward
  · rw [← Option.some.inj hforward]
  · cases hforward

/-- Nothing is on its way for a connection that is not there yet. -/
theorem ofConnection_forwards_eq_nil {queue : List (Tagged EventsPeer)}
    (hqueue : ∀ item ∈ queue, item.connection ≠ connection) :
    ofConnection connection (forwards queue) = [] := by
  rw [ofConnection_eq_nil]
  intro item hitem heq
  obtain ⟨origin, horigin, hsame⟩ := forwards_connection hitem
  exact hqueue origin horigin (hsame.trans heq)

theorem ReportsInOrder.accountMove (horder : ReportsInOrder (before, record))
    (hstep : ManagerStep before label after) (hserving : after.manager.Serving)
    (connection : TaskId) :
    AccountMove connection (before, record) label
      (after, record.after before label) := by
  obtain ⟨news, hnews, hannounced⟩ :=
    hstep.addsNews horder.reports hserving record
  exact accountMove_of_announcement hnews hannounced connection

/-- The manager takes events out of its queue only. -/
theorem ManagerStep.mem_fromPeers (hstep : ManagerStep before label after)
    {item : Tagged EventsPeer} (hitem : item ∈ after.fromPeers) :
    item ∈ before.fromPeers := by
  cases hstep with
  | peer hmanager hqueue =>
      rw [hqueue]
      exact .tail _ hitem
  | send | disconnect => simpa using hitem
  | _ => exact hitem

theorem ReportsInOrder.known_managerStep (horder : ReportsInOrder (before, record))
    (hstep : ManagerStep before label after) (hserving : after.manager.Serving) :
    ∀ item ∈ announced (after, record.after before label),
      item.connection < after.next := by
  obtain ⟨hnext, hspawned⟩ := hstep.next_eq
  obtain ⟨news, hnews, hannounced⟩ :=
    hstep.addsNews horder.reports hserving record
  intro item hitem
  rw [hannounced, List.mem_append] at hitem
  obtain hitem | hitem := hitem
  · exact lt_of_lt_of_le
      (horder.known (hstep.serving hserving) item hitem) hnext
  cases hnews with
  | quiet htasks hqueue => cases hitem
  | connected hcontext htasks hqueue =>
      rw [List.mem_singleton.mp hitem, hspawned _ rfl]
      exact Nat.lt_succ_self _
  | @forwarded after item' peerid message hevent htasks hqueue =>
      obtain rfl := List.mem_singleton.mp hitem
      have hmem : item ∈ forwards before.fromPeers := by
        rw [hqueue]
        exact List.mem_cons_self
      obtain ⟨origin, horigin, hsame⟩ := forwards_connection hmem
      rw [← hsame]
      exact lt_of_lt_of_le (horder.queued origin horigin) hnext
  | @ended task after htask hfinished htasks hqueue =>
      rw [List.mem_singleton.mp hitem]
      exact lt_of_lt_of_le
        (horder.reports.registry.tasks.spawned task htask) hnext

/-- Of a connection that is about to start nothing is reported or queued. -/
theorem ReportsInOrder.new_connection (horder : ReportsInOrder (before, record))
    (hserving : before.manager.Serving) :
    ofConnection before.next (announced (before, record)) = [] ∧
      ofConnection before.next (forwards before.fromPeers) = [] ∧
      messages before.next record = [] :=
  ⟨ofConnection_eq_nil.mpr fun item hitem =>
      (horder.known hserving item hitem).ne,
    ofConnection_forwards_eq_nil fun item hitem => (horder.queued item hitem).ne,
    ofConnection_forwards_eq_nil fun item hitem =>
      (horder.enqueued item hitem).ne⟩

/-- A task that has been joined is not in the set any more. -/
theorem ReportsInOrder.not_mem_erase (horder : ReportsInOrder (before, record))
    {task ended : TaskPeer}
    (hended : ended ∈ before.manager.registry.setTaskPeers)
    (htask : task ∈ before.manager.registry.setTaskPeers.erase ended) :
    task.id ≠ ended.id := by
  have hnodup := horder.distinct.of_map
  obtain ⟨hne, hmem⟩ := hnodup.mem_erase_iff.mp htask
  exact fun hid =>
    hne (List.inj_on_of_nodup_map horder.distinct hmem hended hid)

theorem ReportsInOrder.accounts_managerStep
    (horder : ReportsInOrder (before, record))
    (hstep : ManagerStep before label after) (hserving : after.manager.Serving)
    {task : TaskPeer} (htask : task ∈ after.manager.registry.setTaskPeers) :
    ∃ context, context.peerid = task.peerid ∧
      account task.id (after, record.after before label) =
        .incidentNewConnection context ::
          messages task.id (record.after before label) := by
  have hbefore := hstep.serving hserving
  have hmessages : messages task.id (record.after before label) =
      messages task.id record := by
    rw [messages, hstep.enqueued_eq]
    rfl
  rw [hmessages]
  cases horder.accountMove hstep hserving task.id with
  | kept htasks haccount =>
      rw [haccount]
      exact horder.accounts hbefore task (htasks task htask rfl)
  | started context hcontext hnext htasks haccount =>
      rw [htasks, List.mem_append, List.mem_singleton] at htask
      obtain hold | hnew := htask
      · exact absurd hnext
          (horder.reports.registry.tasks.spawned task hold).ne
      · obtain ⟨hannounced, hqueued, hmessages⟩ := horder.new_connection hbefore
        refine ⟨context, by rw [hnew], ?_⟩
        rw [haccount, hnext, hannounced, hqueued, hmessages]
        rfl
  | ended joined hlabel hjoined hid htasks haccount =>
      rw [htasks] at htask
      exact absurd hid.symm (horder.not_mem_erase hjoined htask)

theorem ReportsInOrder.managerStep (horder : ReportsInOrder (before, record))
    (hstep : ManagerStep before label after) :
    ReportsInOrder (after, record.after before label) := by
  have hregistry := horder.reports.registry
  have hmove := hstep.registryMove hregistry.tasks hregistry.drops
  obtain ⟨hnext, -⟩ := hstep.next_eq
  refine ⟨horder.reports.step (.manager hstep),
    horder.peers.step (.manager hstep),
    hmove.distinct hregistry.tasks horder.distinct, fun item hitem => ?_,
    fun item hitem => ?_, horder.known_managerStep hstep,
    fun hserving task htask => horder.accounts_managerStep hstep hserving htask⟩
  · exact lt_of_lt_of_le
      (horder.queued item (hstep.mem_fromPeers hitem)) hnext
  · rw [hstep.enqueued_eq] at hitem
    exact lt_of_lt_of_le (horder.enqueued item hitem) hnext

theorem ReportsInOrder.handleStep (horder : ReportsInOrder (before, record))
    (hstep : HandleStep before label after) :
    ReportsInOrder (after, record.after before label) := by
  have hannounced := hstep.announced_eq record
  have hrecord := hstep.record_eq record
  rw [hrecord] at hannounced ⊢
  have haccount (connection : TaskId) :
      account connection (after, record) = account connection (before, record) := by
    simp only [account, hannounced, hstep.fromPeers_eq]
  refine ⟨horder.reports.step (.handle hstep),
    horder.peers.step (.handle hstep), ?_, ?_, ?_, ?_, ?_⟩
  · rw [hstep.manager_eq]
    exact horder.distinct
  · rw [hstep.fromPeers_eq, hstep.peers_eq.2]
    exact horder.queued
  · rw [hstep.peers_eq.2]
    exact horder.enqueued
  · rw [hannounced, hstep.manager_eq, hstep.peers_eq.2]
    exact horder.known
  · simp only [haccount, hstep.manager_eq]
    exact horder.accounts

/-- What a peer enqueues goes to the end of the account of its connection. -/
theorem PeerStep.account_eq (hstep : PeerStep before label after) (record : Record)
    (connection : TaskId) :
    ∃ sent : List (Tagged EventsPeer),
      (∀ item ∈ sent, ∃ turn, before.peers item.connection = .looping turn) ∧
      after.fromPeers = before.fromPeers ++ sent ∧
      (record.after before label).enqueued = record.enqueued ++ sent ∧
      account connection (after, record.after before label) =
        account connection (before, record) ++
          ofConnection connection (forwards sent) ∧
      messages connection (record.after before label) =
        messages connection record ++ ofConnection connection (forwards sent) := by
  obtain ⟨sent, hqueue, henqueued, hlooping⟩ := hstep.queued record
  have hannounced := hstep.announced_eq record
  refine ⟨sent, hlooping, hqueue, henqueued, ?_, ?_⟩
  · simp [account, hannounced, hqueue]
  · simp [messages, henqueued]

theorem ReportsInOrder.peerStep (horder : ReportsInOrder (before, record))
    (hstep : PeerStep before label after) :
    ReportsInOrder (after, record.after before label) := by
  obtain ⟨sent, hlooping, hqueue, henqueued, -⟩ := hstep.account_eq record 0
  have hsent : ∀ item ∈ sent, item.connection < before.next := by
    intro item hitem
    obtain ⟨turn, hpeer⟩ := hlooping item hitem
    by_contra hge
    rw [horder.peers.absent _ (not_lt.mp hge)] at hpeer
    cases hpeer
  have hmanager := hstep.manager_eq
  have hnext := hstep.peers_eq.1
  refine ⟨horder.reports.step (.peer hstep), horder.peers.step (.peer hstep),
    ?_, ?_, ?_, ?_, ?_⟩
  · rw [hmanager]
    exact horder.distinct
  · rw [hqueue, hnext]
    intro item hitem
    obtain hitem | hitem := List.mem_append.mp hitem
    · exact horder.queued item hitem
    · exact hsent item hitem
  · rw [henqueued, hnext]
    intro item hitem
    obtain hitem | hitem := List.mem_append.mp hitem
    · exact horder.enqueued item hitem
    · exact hsent item hitem
  · rw [hmanager, hstep.announced_eq, hnext]
    exact horder.known
  · rw [hmanager]
    intro hserving task htask
    obtain ⟨context, hcontext, haccount⟩ :=
      horder.accounts hserving task htask
    obtain ⟨sent, -, -, -, hafter, hmessages⟩ := hstep.account_eq record task.id
    refine ⟨context, hcontext, ?_⟩
    rw [hafter, hmessages, haccount]
    rfl

theorem ReportsInOrder.step {reached later : System × Record}
    (horder : ReportsInOrder reached) (hstep : RecordedStep reached label later) :
    ReportsInOrder later := by
  obtain ⟨before, record⟩ := reached
  obtain ⟨after, _⟩ := later
  obtain ⟨hstep, rfl⟩ := hstep
  cases hstep with
  | manager hstep => exact horder.managerStep hstep
  | handle hstep => exact horder.handleStep hstep
  | peer hstep => exact horder.peerStep hstep

end Steps

/-! ## After a connection was joined -/

/-- A connection that was joined: its account is `total` and its peer has
enqueued `sent`, for good. -/
structure Ended (connection : TaskId) (total sent : List EventsPeerManager)
    (reached : System × Record) : Prop where
  order : ReportsInOrder reached
  started : connection < reached.1.next
  finished : (reached.1.peers connection).HasFinished
  gone : ∀ task ∈ reached.1.manager.registry.setTaskPeers,
    task.id ≠ connection
  total : reached.1.manager.Serving → account connection reached = total
  sent : messages connection reached.2 = sent

section Ended

variable {before after : System} {label : Label} {record : Record}
variable {connection : TaskId} {total sent : List EventsPeerManager}

theorem RegistryMove.mem_tasks {self : PeerManager}
    (hmove : RegistryMove before label self) {task : TaskPeer}
    (htask : task ∈ self.setTaskPeers) :
    task ∈ before.manager.registry.setTaskPeers ∨ task.id = before.next := by
  cases hmove with
  | kept htasks hknown hcounter hentries => exact .inl (htasks ▸ htask)
  | connected address typeConnect =>
      simp only [PeerManager.addPeer, List.mem_append, List.mem_singleton] at htask
      obtain hold | rfl := htask
      · exact .inl hold
      · exact .inr rfl
  | ended hlabel hjoined => exact .inl (List.mem_of_mem_erase htask)

theorem Ended.managerStep (hended : Ended connection total sent (before, record))
    (hstep : ManagerStep before label after) :
    Ended connection total sent (after, record.after before label) := by
  have hregistry := hended.order.reports.registry
  have hmove := hstep.registryMove hregistry.tasks hregistry.drops
  refine ⟨hended.order.managerStep hstep,
    lt_of_lt_of_le hended.started hstep.next_eq.1, ?_, ?_, ?_, ?_⟩
  · obtain ⟨hpeers, -⟩ | ⟨peer, hpeers, -⟩ := hstep.peers_eq
    · rw [hpeers]
      exact hended.finished
    · rw [hpeers]
      cases peer with
      | none => exact hended.finished
      | some peer =>
          simpa [spawnPeer, hended.started.ne] using hended.finished
  · intro task htask
    obtain hold | hnew := hmove.mem_tasks htask
    · exact hended.gone task hold
    · rw [hnew]
      exact hended.started.ne'
  · intro hserving
    have hbefore := hstep.serving hserving
    cases hended.order.accountMove hstep hserving connection with
    | kept htasks haccount => exact haccount.trans (hended.total hbefore)
    | started context hcontext hnext htasks haccount =>
        exact absurd hnext hended.started.ne
    | ended task hlabel htask hid htasks haccount =>
        exact absurd hid (hended.gone task htask)
  · rw [messages, hstep.enqueued_eq]
    exact hended.sent

theorem Ended.handleStep (hended : Ended connection total sent (before, record))
    (hstep : HandleStep before label after) :
    Ended connection total sent (after, record.after before label) := by
  have horder := hended.order.handleStep hstep
  have hannounced := hstep.announced_eq record
  have hrecord := hstep.record_eq record
  rw [hrecord] at hannounced horder ⊢
  refine ⟨horder, ?_, ?_, ?_, ?_, hended.sent⟩
  · rw [hstep.peers_eq.2]
    exact hended.started
  · rw [hstep.peers_eq.1]
    exact hended.finished
  · rw [hstep.manager_eq]
    exact hended.gone
  · rw [hstep.manager_eq]
    simp only [account, hannounced, hstep.fromPeers_eq]
    exact hended.total

theorem Ended.peerStep (hended : Ended connection total sent (before, record))
    (hstep : PeerStep before label after) :
    Ended connection total sent (after, record.after before label) := by
  obtain ⟨more, hlooping, -, -, haccount, hmessages⟩ :=
    hstep.account_eq record connection
  have hmore : ofConnection connection (forwards more) = [] := by
    apply ofConnection_forwards_eq_nil
    rintro item hitem rfl
    obtain ⟨turn, hpeer⟩ := hlooping item hitem
    have hfinished := hended.finished
    rw [hpeer] at hfinished
    exact hfinished
  rw [hmore, List.append_nil] at haccount hmessages
  obtain ⟨hnext, task, turn, peer, hpeer, hpeers⟩ := hstep.peers_eq
  refine ⟨hended.order.peerStep hstep, ?_, ?_, ?_, ?_, ?_⟩
  · rw [hnext]
    exact hended.started
  · have hne : connection ≠ task := by
      rintro rfl
      have hfinished := hended.finished
      rw [hpeer] at hfinished
      exact hfinished
    rw [hpeers, Function.update_of_ne hne]
    exact hended.finished
  · rw [hstep.manager_eq]
    exact hended.gone
  · rw [hstep.manager_eq, haccount]
    exact hended.total
  · rw [hmessages]
    exact hended.sent

theorem Ended.step {reached later : System × Record}
    (hended : Ended connection total sent reached)
    (hstep : RecordedStep reached label later) :
    Ended connection total sent later := by
  obtain ⟨before, record⟩ := reached
  obtain ⟨after, _⟩ := later
  obtain ⟨hstep, rfl⟩ := hstep
  cases hstep with
  | manager hstep => exact hended.managerStep hstep
  | handle hstep => exact hended.handleStep hstep
  | peer hstep => exact hended.peerStep hstep

/-- The task is joined: the report of its end goes in before the queued
messages. -/
theorem Ended.of_join {task : TaskPeer} (horder : ReportsInOrder (before, record))
    (hstep : ManagerStep before (.managerJoin task) after) :
    Ended task.id
      (ofConnection task.id (announced (before, record)) ++
        .incidentCompletedPeer task.peerid ::
          ofConnection task.id (forwards before.fromPeers))
      (messages task.id record)
      (after, record.after before (.managerJoin task)) := by
  have hregistry := horder.reports.registry
  obtain ⟨htask, hself⟩ := hstep.registry_joined (.inl rfl) hregistry.tasks
  have hbefore := horder.managerStep hstep
  have hgone : ∀ other ∈ after.manager.registry.setTaskPeers,
      other.id ≠ task.id := by
    rw [hself]
    exact fun other hother => horder.not_mem_erase htask hother
  refine ⟨hbefore, ?_, ?_, hgone, ?_, ?_⟩
  · exact lt_of_lt_of_le (hregistry.tasks.spawned task htask) hstep.next_eq.1
  · cases hstep with
    | join hmanager hmem hfinished =>
        change (before.peers task.id).HasFinished
        rw [hfinished]
        trivial
  · intro hserving
    obtain ⟨hidle, hpending, hqueue⟩ := hstep.pendingReports_join hregistry.tasks
    simp [account, announced, Record.after, hidle, hpending, hqueue]
  · rw [messages, hstep.enqueued_eq]
    rfl

end Ended

/-! ## The order of the reports -/

/-- A message of the connection is queued. -/
def Waits (connection : TaskId) (queue : List (Tagged EventsPeer)) : Prop :=
  ∃ item ∈ queue, item.connection = connection ∧
    ∃ peerid message, item.event = .readyLowMessage peerid message

/-- The reports about the connection of a task: its start, the messages that
its peer enqueued, in that order, and its end. -/
def ReportedInOrder (task : TaskPeer) (record : Record) : Prop :=
  ∃ context, context.peerid = task.peerid ∧
    ofConnection task.id record.reported =
      .incidentNewConnection context :: messages task.id record ++
        [.incidentCompletedPeer task.peerid]

section Order

variable {queue : List (Tagged EventsPeer)} {connection : TaskId}

theorem forwards_message {event : EventsPeerManager}
    (hevent : event ∈ ofConnection connection (forwards queue)) :
    Waits connection queue ∧ ∃ peerid message,
      event = .readyMessage peerid message := by
  obtain ⟨item, hitem, rfl⟩ := List.mem_map.mp hevent
  obtain ⟨hmem, hconnection⟩ := List.mem_filter.mp hitem
  obtain ⟨origin, horigin, hforward⟩ := List.mem_filterMap.mp hmem
  split at hforward
  case h_1 peerid message heq =>
    obtain rfl := Option.some.inj hforward
    refine ⟨⟨origin, horigin, ?_, peerid, message, heq⟩, peerid, message, rfl⟩
    exact of_decide_eq_true hconnection
  case h_2 => cases hforward

theorem not_waits_iff :
    ¬Waits connection queue ↔ ofConnection connection (forwards queue) = [] := by
  constructor
  · intro hnone
    apply List.eq_nil_iff_forall_not_mem.mpr
    exact fun event hevent => hnone (forwards_message hevent).1
  · rintro hnil ⟨item, hitem, hconnection, peerid, message, hevent⟩
    have hmem : ({ connection := item.connection
                   event := .readyMessage peerid message } :
        Tagged EventsPeerManager) ∈ forwards queue := by
      refine List.mem_filterMap.mpr ⟨item, hitem, ?_⟩
      rw [hevent]
    exact ofConnection_eq_nil.mp hnil _ hmem hconnection

/-- If the end is reported last, nothing came after it. -/
theorem rest_eq_nil {reports rest whole : List EventsPeerManager}
    {completed : EventsPeerManager} (hrest : completed ∉ rest)
    (hlast : reports ++ completed :: rest = whole ++ [completed]) :
    rest = [] := by
  obtain rfl | ⟨init, final, rfl⟩ := List.eq_nil_or_concat rest
  · rfl
  · rw [List.concat_eq_append, ← List.cons_append, ← List.append_assoc] at hlast
    have hfinal := (List.append_inj' hlast rfl).2
    rw [List.concat_eq_append, List.mem_append] at hrest
    exact absurd (.inr (by rw [hfinal]; exact List.mem_singleton_self _)) hrest

end Order

section Runs

variable {nonce : UInt64} {labels later : List Label}
variable {before joined last : System × Record} {task : TaskPeer}
variable {self : PeerManager}

theorem reportsInOrder_of_run {reached : System × Record}
    (run : Run RecordedStep (.initial nonce, .empty) labels reached) :
    ReportsInOrder reached :=
  run.invariant ReportsInOrder (.initial nonce) fun _ _ _ => .step

/-- When the manager joins the task of a connection and later stands between two
turns with no message of the connection queued, the reports about it are in
order if and only if no message of it was queued when the task was joined. -/
theorem reportedInOrder_iff
    (run : Run RecordedStep (.initial nonce, .empty) labels before)
    (join : RecordedStep before (.managerJoin task) joined)
    (rest : Run RecordedStep joined later last)
    (hmanager : last.1.manager = .running (.done self .next))
    (hdrained : ¬Waits task.id last.1.fromPeers) :
    ReportedInOrder task last.2 ↔ ¬Waits task.id before.1.fromPeers := by
  obtain ⟨before, record⟩ := before
  obtain ⟨joined, record'⟩ := joined
  obtain ⟨hstep, hrecord⟩ := join
  obtain rfl : record = record' := hrecord.symm
  have hjoin : ManagerStep before (.managerJoin task) joined := by
    cases hstep with
    | manager hstep => exact hstep
    | handle hstep => cases hstep
    | peer hstep => cases hstep
  have hserving : before.manager.Serving := by
    cases hjoin with
    | join hidle htask hfinished => exact serving_of_running hidle not_false
  have horder := reportsInOrder_of_run run
  obtain ⟨htask, -⟩ :=
    hjoin.registry_joined (.inl rfl) horder.reports.registry.tasks
  obtain ⟨context, hcontext, haccount⟩ := horder.accounts hserving task htask
  have hlast := rest.invariant (Ended task.id _ _) (Ended.of_join horder hjoin)
    fun _ _ _ => Ended.step
  have hreported : ofConnection task.id last.2.reported =
      ofConnection task.id (announced (before, record)) ++
        .incidentCompletedPeer task.peerid ::
          ofConnection task.id (forwards before.fromPeers) := by
    rw [← hlast.total (serving_of_running hmanager not_false), account,
      not_waits_iff.mp hdrained, announced, pendingReports_of_idle hmanager]
    simp
  have hcompleted : .incidentCompletedPeer task.peerid ∉
      ofConnection task.id (forwards before.fromPeers) := by
    intro hmem
    obtain ⟨-, peerid, message, hevent⟩ := forwards_message hmem
    cases hevent
  rw [not_waits_iff]
  constructor
  · rintro ⟨context', hcontext', hinOrder⟩
    rw [hreported] at hinOrder
    exact rest_eq_nil hcompleted hinOrder
  · intro hnil
    refine ⟨context, hcontext, ?_⟩
    rw [account, hnil, List.append_nil] at haccount
    rw [hreported, hnil, haccount, hlast.sent]

end Runs

/-! ### A connection with one message -/

/-- How the first peer ends when its stream does. -/
def firstOutcome : TaskOutcome :=
  .returned (spawnResult (.incidentComplitedTaskRead (.ok .successfulEOF))
    (.ok (.ok .successfulEOF)) (.ok (.ok .successful)))

/-- The manager between two turns, with the reports and the messages that are
queued. -/
def onlyPeer (peers : TaskId → PeerPhase) (self : PeerManager)
    (reports : List (Tagged EventsPeerManager))
    (queue : List (Tagged EventsPeer)) : System :=
  { connected with
    manager := .running (.done self .next)
    peers := peers
    toProtocol := reports
    fromPeers := queue }

/-- The manager is about to report an event of the connection. -/
def aboutToReport (peers : TaskId → PeerPhase) (self : PeerManager)
    (event : EventsPeerManager) (reports : List (Tagged EventsPeerManager))
    (queue : List (Tagged EventsPeer)) : System :=
  { onlyPeer peers self reports queue with
    manager := .running (self.notifyProtocol event) }

def firstReport (event : EventsPeerManager) : Tagged EventsPeerManager where
  connection := 0
  event := event

/-- The registry with the first peer, and after its end. -/
def firstManager : PeerManager := (PeerManager.create 0).accepted 0

def endedManager : PeerManager :=
  (firstManager.takeTask firstPeer).complitedPeer 1

section FirstPeer

variable {peers : TaskId → PeerPhase} {self : PeerManager}
variable {reports : List (Tagged EventsPeerManager)}
variable {queue : List (Tagged EventsPeer)} {enqueued : List (Tagged EventsPeer)}

/-- A report is taken. -/
theorem reported_step (event : EventsPeerManager)
    (hroom : reports.length < channelCapacity) :
    RecordedStep
      (aboutToReport peers self event reports queue, ⟨reports, enqueued⟩)
      (.managerSend true)
      (onlyPeer peers self (reports ++ [firstReport event]) queue,
        ⟨reports ++ [firstReport event], enqueued⟩) :=
  Step.recorded (.manager (.notified rfl not_false hroom))

theorem forward_step :
    RecordedStep
      (onlyPeer peers self reports (queuedVerack :: queue), ⟨reports, enqueued⟩)
      .managerPeer
      (aboutToReport peers self (.readyMessage 1 strayVerack) reports queue,
        ⟨reports, enqueued⟩) :=
  Step.recorded (.manager (@ManagerStep.peer _ self queuedVerack queue rfl rfl))

theorem join_step (hpeer : peers 0 = .finished firstOutcome) :
    RecordedStep (onlyPeer peers firstManager reports queue, ⟨reports, enqueued⟩)
      (.managerJoin firstPeer)
      (aboutToReport peers endedManager (.incidentCompletedPeer 1) reports queue,
        ⟨reports, enqueued⟩) :=
  Step.recorded (.manager (@ManagerStep.join
    (onlyPeer peers firstManager reports queue) firstManager firstPeer
    firstOutcome rfl (by decide) hpeer))

end FirstPeer

/-- A connection was accepted, and its peer has passed a stray verack on and
ended. -/
theorem verack_ended_run :
    ∃ labels peers, peers 0 = .finished firstOutcome ∧
      Run RecordedStep (.initial 0, .empty) labels
        (onlyPeer peers firstManager connected.toProtocol [queuedVerack],
          ⟨connected.toProtocol, [queuedVerack]⟩) := by
  have htaken : Run RecordedStep (.initial 0, .empty) _ _ := .tail (.refl _)
    (Step.recorded (.manager (@ManagerStep.take _ _ loopbackConnection rfl trivial)))
  have hconnected := htaken.tail
    (Step.recorded (.manager (.notified rfl not_false (by decide))))
  have hread := hconnected.tail
    (Step.recorded (.peer (@PeerStep.subtask _ 0 _ readVerack rfl trivial)))
  have hqueued := hread.tail
    (Step.recorded (.peer (@PeerStep.send _ 0 _ _ _ rfl not_false (by decide))))
  have hleft := hqueued.tail
    (Step.recorded (.peer (@PeerStep.subtask _ 0 _ endOfStream rfl trivial)))
  have hended := hleft.tail
    (Step.recorded (.peer (@PeerStep.finish _ 0 _ _ rfl
      (.ok (.ok .successfulEOF)) (.ok (.ok .successful)))))
  exact ⟨_, _, rfl, hended⟩

/-- The manager takes the message before it joins the task. -/
theorem reportedInOrder_taken :
    ∃ labels later before joined last,
      Run RecordedStep (.initial 0, .empty) labels before ∧
      RecordedStep before (.managerJoin firstPeer) joined ∧
      Run RecordedStep joined later last ∧
      messages firstPeer.id last.2 = [.readyMessage 1 strayVerack] ∧
      ReportedInOrder firstPeer last.2 := by
  obtain ⟨labels, peers, hpeer, run⟩ := verack_ended_run
  have hforwarded := (run.tail forward_step).tail (reported_step _ (by decide))
  have hjoin := @join_step peers (connected.toProtocol ++
    [firstReport (.readyMessage 1 strayVerack)]) [] [queuedVerack] hpeer
  have hrest := (Run.refl _).tail (@reported_step peers endedManager
    (connected.toProtocol ++ [firstReport (.readyMessage 1 strayVerack)]) []
    [queuedVerack] (.incidentCompletedPeer 1) (by decide))
  have hempty : ¬Waits firstPeer.id [] := by
    rintro ⟨item, hitem, -⟩
    cases hitem
  exact ⟨_, _, _, _, _, hforwarded, hjoin, hrest, rfl,
    (reportedInOrder_iff hforwarded hjoin hrest rfl hempty).mpr hempty⟩

/-- The manager joins the task first and reports the message after the end of
its connection. -/
theorem reported_after_end :
    ∃ labels later before joined last,
      Run RecordedStep (.initial 0, .empty) labels before ∧
      RecordedStep before (.managerJoin firstPeer) joined ∧
      Run RecordedStep joined later last ∧
      last.1.manager = .running (.done endedManager .next) ∧
      last.1.fromPeers = [] ∧
      ¬ReportedInOrder firstPeer last.2 := by
  obtain ⟨labels, peers, hpeer, run⟩ := verack_ended_run
  have hrest := (Run.refl _).tail (@reported_step peers endedManager
    connected.toProtocol [queuedVerack] [queuedVerack]
    (.incidentCompletedPeer 1) (by decide))
  refine ⟨_, _, _, _, _, run, join_step hpeer,
    (hrest.tail forward_step).tail (reported_step _ (by decide)), rfl, rfl, ?_⟩
  rintro ⟨context, hcontext, hreported⟩
  have hlast := congrArg List.getLast? hreported
  rw [List.getLast?_append] at hlast
  change some (EventsPeerManager.readyMessage 1 strayVerack) =
    some (.incidentCompletedPeer 1) at hlast
  cases hlast

end P2PNetwork.Runtime
