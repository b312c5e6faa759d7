import P2PNetwork.Network.PeerRegistry

/-!
# Task ids

`set_id_peers` tells which peer a task stands for, so that the manager can
name the peer of a task that panicked.  Both kinds of connection write to it
and nothing is ever taken out of it: its keys are the ids of the tasks in
`set_task_peers` and of all tasks that `join_next` has yielded.
-/

namespace P2PNetwork.Manager

open P2PNetwork.EventLoop
open P2PNetwork.Events
open P2PNetwork.FiniteTable
open P2PNetwork.Handler
open P2PNetwork.PeerActor
open P2PNetwork.Wire

/-- The table has an id for each task in the set and no other, and maps it to
the id its peer was created with. -/
structure ExactIds (manager : PeerManager) : Prop where
  domain : ∀ task, task ∈ manager.setIdPeers ↔
    task ∈ manager.setTaskPeers.map TaskPeer.id
  mapped : ∀ task ∈ manager.setTaskPeers,
    manager.setIdPeers.lookup task.id = some task.peerid

/-! ## The tasks that have ended -/

/-- The task that a step takes out of the set. -/
def Label.ended : Label → List TaskId
  | .join task _ => [task.id]
  | _ => []

def endedTasks (labels : List Label) : List TaskId :=
  labels.flatMap Label.ended

theorem endedTasks_eq_nil_iff (labels : List Label) :
    endedTasks labels = [] ↔
      ∀ task outcome, Label.join task outcome ∉ labels := by
  rw [endedTasks, List.flatMap_eq_nil_iff]
  constructor
  · intro hended task outcome hjoin
    simpa [Label.ended] using hended _ hjoin
  · intro hjoin label hlabel
    cases label with
    | join task outcome => exact absurd hlabel (hjoin task outcome)
    | take input => rfl
    | answer delivered => rfl
    | close task => rfl

/-! ## The invariant -/

/-- The table has the ids of the tasks in the set and of those that have ended,
each once. -/
structure Remembers (ended : List TaskId) (next : TaskId)
    (manager : PeerManager) : Prop where
  tasks : TasksKnown next manager
  spawned : ∀ task ∈ manager.setIdPeers, task < next
  keys : manager.setIdPeers.keys.Perm
    (ended ++ manager.setTaskPeers.map TaskPeer.id)

section Registry

variable {ended : List TaskId} {next : TaskId} {self : PeerManager}

theorem Remembers.create (next : TaskId) (nonce : UInt64) :
    Remembers [] next (PeerManager.create nonce) where
  tasks := .create next nonce
  spawned task htask := by simp [PeerManager.create] at htask
  keys := by simp [PeerManager.create]

theorem Remembers.mono (hremembers : Remembers ended next self)
    {next' : TaskId} (hnext : next ≤ next') : Remembers ended next' self where
  tasks := hremembers.tasks.mono hnext
  spawned task htask := lt_of_lt_of_le (hremembers.spawned task htask) hnext
  keys := hremembers.keys

theorem Remembers.congr (hremembers : Remembers ended next self)
    {self' : PeerManager} (htasks : self'.setTaskPeers = self.setTaskPeers)
    (hids : self'.setIdPeers = self.setIdPeers) :
    Remembers ended next self' where
  tasks := ⟨htasks ▸ hremembers.tasks.spawned,
    htasks ▸ hids ▸ hremembers.tasks.known⟩
  spawned := hids ▸ hremembers.spawned
  keys := htasks ▸ hids ▸ hremembers.keys

/-- The new task's id is not in the table yet. -/
theorem Remembers.addPeer (hremembers : Remembers ended next self)
    (peerid : PeerId) (address : SocketAddr) (typeConnect : TypeConnection) :
    Remembers ended (next + 1)
      (self.addPeer next peerid address typeConnect) where
  tasks := hremembers.tasks.addPeer peerid address typeConnect
  spawned task htask := by
    simp only [PeerManager.addPeer, AList.mem_insert] at htask
    obtain rfl | htask := htask
    · exact Nat.lt_succ_self task
    · exact Nat.lt_succ_of_lt (hremembers.spawned task htask)
  keys := by
    have hfresh : next ∉ self.setIdPeers.keys := fun hmem =>
      (hremembers.spawned next (AList.mem_keys.mpr hmem)).false
    simp only [PeerManager.addPeer, AList.keys_insert, List.map_append,
      List.map_cons, List.map_nil, List.erase_of_not_mem hfresh]
    have hkeys := hremembers.keys.cons next
    rw [← List.append_assoc]
    exact hkeys.trans (List.perm_append_singleton next _).symm

/-- A task that ends is taken out of the set and stays in the table. -/
theorem Remembers.complited (hremembers : Remembers ended next self)
    {task : TaskPeer} (htask : task ∈ self.setTaskPeers) :
    Remembers (ended ++ [task.id]) next
      ((self.takeTask task).complitedPeer task.peerid) where
  tasks := hremembers.tasks.complited task
  spawned := hremembers.spawned
  keys := by
    have htasks : (self.setTaskPeers.map TaskPeer.id).Perm
        (task.id :: (self.setTaskPeers.erase task).map TaskPeer.id) :=
      (List.perm_cons_erase htask).map TaskPeer.id
    have hkeys := hremembers.keys.trans (htasks.append_left ended)
    rwa [List.append_cons] at hkeys

/-- The table is exact as long as no task has ended, and then never again. -/
theorem Remembers.exact_iff (hremembers : Remembers ended next self) :
    ExactIds self ↔ ended = [] := by
  have hmem (task : TaskId) : task ∈ self.setIdPeers ↔
      task ∈ ended ∨ task ∈ self.setTaskPeers.map TaskPeer.id := by
    rw [AList.mem_keys, hremembers.keys.mem_iff, List.mem_append]
  constructor
  · intro hexact
    have hnodup : (ended ++ self.setTaskPeers.map TaskPeer.id).Nodup :=
      hremembers.keys.nodup_iff.mp self.setIdPeers.keys_nodup
    have hdisjoint := List.disjoint_of_nodup_append hnodup
    apply List.eq_nil_iff_forall_not_mem.mpr
    intro task hended
    have hheld := (hexact.domain task).mp ((hmem task).mpr (.inl hended))
    exact hdisjoint hended hheld
  · rintro rfl
    exact ⟨fun task => by simp [hmem], hremembers.tasks.known⟩

/-! ## Steps -/

theorem ConnectTurn.remembers {peer : Option Peer} {turn : ManagerTurn}
    (hturn : ConnectTurn next self peer turn)
    (hremembers : Remembers ended next self) :
    Remembers ended (next + 1) turn.state := by
  cases hturn with
  | idle flow => exact hremembers.mono (Nat.le_succ next)
  | accepted hpeer hcontext address typeConnect =>
      have hcounter : Remembers ended next
          { self with peerid := self.peerid + 1 } := hremembers.congr rfl rfl
      exact hcounter.addPeer self.peerid address typeConnect

theorem turn_remembers {input : ManagerInput}
    (hinput : ∀ result, input ≠ .resultPeer result)
    (hremembers : Remembers ended next self) :
    Remembers ended (next + 1) (PeerManager.turn next input self).state := by
  have hnext : Remembers ended (next + 1) self :=
    hremembers.mono (Nat.le_succ next)
  cases input with
  | incidentThreadNetwork connect incident =>
      exact (@turn_external self next (.incidentThreadNetwork connect incident)
        trivial).remembers hremembers
  | incidentLooplisten incident =>
      exact (@turn_external self next (.incidentLooplisten incident)
        trivial).remembers hremembers
  | incidentProtocol incident =>
      cases incident with
      | none => exact hnext
      | some event => rwa [(turn_protocol event).state_eq]
  | incidentPeer incident =>
      cases incident with
      | none => exact hnext
      | some event => rwa [turn_peer_state event]
  | resultPeer result => exact absurd rfl (hinput result)

end Registry

structure KeepsIds (ended : List TaskId) (world : World) : Prop where
  remembers : Remembers ended world.next world.manager.state
  drops : DropsOnly world.manager

theorem Step.keepsIds {world world' : World} {label : Label}
    {ended : List TaskId} (hstep : Step world label world')
    (hkeeps : KeepsIds ended world) :
    KeepsIds (ended ++ label.ended) world' := by
  obtain ⟨hremembers, hdrops⟩ := hkeeps
  cases hstep with
  | take hidle hinput =>
      rw [hidle] at hremembers
      simp only [Label.ended, List.append_nil]
      exact ⟨turn_remembers hinput hremembers, turn_dropsOnly _⟩
  | @join self task outcome hidle htask hclosed =>
      rw [hidle, Await.state_done] at hremembers
      have hturn := turn_joined (hremembers.tasks.known task htask) world.next
        outcome
      refine ⟨?_, hturn ▸ notifyProtocol_dropsOnly _⟩
      simp only [hturn]
      exact hremembers.complited htask
  | @answer self send resume delivered hissue hanswer =>
      rw [hissue, Await.state_issue] at hremembers
      rw [hissue] at hdrops
      simp only [Label.ended, List.append_nil]
      refine ⟨?_, hdrops.resume delivered⟩
      apply hdrops.answered hremembers
      exact fun _ => hremembers.congr rfl rfl
  | close task =>
      simp only [Label.ended, List.append_nil]
      exact ⟨hremembers, hdrops⟩

/-! ## Runs -/

theorem keepsIds_of_run {nonce : UInt64} {labels : List Label} {world : World}
    (run : Run Step (World.initial nonce) labels world) :
    KeepsIds (endedTasks labels) world := by
  generalize hfirst : World.initial nonce = first at run
  induction run with
  | refl =>
      subst hfirst
      exact ⟨.create 0 nonce, trivial⟩
  | tail run last_step ih =>
      simpa [endedTasks] using last_step.keepsIds ih

/-- The table of task ids grows with every connection that has been made. -/
theorem length_setIdPeers {nonce : UInt64} {labels : List Label} {world : World}
    (run : Run Step (World.initial nonce) labels world) :
    world.manager.state.setIdPeers.keys.length =
      (endedTasks labels).length + world.manager.state.setTaskPeers.length := by
  have hkeys := (keepsIds_of_run run).remembers.keys
  simpa using hkeys.length_eq

/-- Whatever has ended before, the end of a task, by a panic too, is the end of
the peer it was spawned for. -/
theorem joined_attributed {nonce : UInt64} {labels : List Label}
    {world : World} {self : PeerManager} {task : TaskPeer}
    (run : Run Step (World.initial nonce) labels world)
    (hidle : world.manager = .done self .next)
    (htask : task ∈ self.setTaskPeers) (outcome : TaskOutcome) :
    PeerManager.turn world.next (.resultPeer (task.joined outcome))
        (self.takeTask task) =
      ((self.takeTask task).complitedPeer task.peerid).notifyProtocol
        (.incidentCompletedPeer task.peerid) := by
  have htasks := (keepsIds_of_run run).remembers.tasks
  rw [hidle, Await.state_done] at htasks
  exact turn_joined (htasks.known task htask) world.next outcome

/-- Between two turns the table is exact if and only if no task has been taken
out of the set in the run so far. -/
theorem exactIds_iff {nonce : UInt64} {labels : List Label} {world : World}
    {self : PeerManager}
    (run : Run Step (World.initial nonce) labels world)
    (hidle : world.manager = .done self .next) :
    ExactIds self ↔ ∀ task outcome, Label.join task outcome ∉ labels := by
  have hremembers := (keepsIds_of_run run).remembers
  rw [hidle, Await.state_done] at hremembers
  rw [hremembers.exact_iff, endedTasks_eq_nil_iff]

/-- Two peers are connected and none has ended. -/
theorem exactIds_iff_twoPeers :
    ExactIds twoPeers ↔ ∀ task outcome, Label.join task outcome ∉
      [accept, .answer true, accept, .answer true] :=
  exactIds_iff twoPeers_freshRun.of_restrict rfl

/-- The only peer ends, and the id of its task stays in the table. -/
theorem not_exactIds_onlyEnds : ∃ world self labels,
    Run Step (World.initial 0) labels world ∧
      world.manager = .done self .next ∧
      self.setTaskPeers = [] ∧
      self.setIdPeers.lookup 0 = some 1 ∧
      ¬ ExactIds self := by
  have hended := ((@accept_freshRun (World.initial 0) _ rfl (by decide)).trans
    (end_freshRun { id := 0, peerid := 1 } rfl (by decide)
      (.ok .successfulTaskReadTaskWrite))).of_restrict
  refine ⟨_, _, _, hended, rfl, rfl, rfl, ?_⟩
  intro hexact
  have hmem := (hexact.domain 0).mp (mem_iff_lookup.mpr ⟨1, rfl⟩)
  exact absurd hmem (by decide)

end P2PNetwork.Manager
