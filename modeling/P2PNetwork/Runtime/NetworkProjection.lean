import P2PNetwork.Runtime.NetworkVerdict
import P2PNetwork.Runtime.ThreadResults

/-!
# The network thread of the process

Until it has decided its result, the network thread of the process behaves as
the thread by itself, for any outcomes that the handles of its tasks can still
yield.  A panic is reported when the handle is joined, so the outcomes are
known at the end of a run only, and its steps are traced back from there.
-/

namespace P2PNetwork.Supervision

open P2PNetwork.EventLoop
open P2PNetwork.LoopListen
open P2PNetwork.Manager
open P2PNetwork.Runtime (ManagerPhase)
open P2PNetwork.ThreadNetwork

/-! ## The thread and what its handles yield -/

/-- The thread has not decided its result. -/
def Undecided : NetworkPhase → Prop
  | .starting | .supervising | .closing _ _ => True
  | .leaving _ | .ended _ => False

/-- What is known of a task: its outcome once it has ended. -/
structure Yields {φ α : Type} (joined : φ → α → Prop) (ended : φ → Prop)
    (phase : φ) (outcome : Option α) : Prop where
  joined : ∀ value, outcome = some value → joined phase value
  running : outcome = none → ¬ended phase

/-- The thread of the process with what its handles yield. -/
structure Projects (process : Process) (tasks : NetworkTasks) : Prop where
  thread : tasks.thread = process.network
  peermanager : Yields PeermanagerJoined ManagerPhase.HasFinished
    process.node.manager tasks.peermanager
  looplisten : Yields LooplistenJoined LoopListenPhase.HasEnded
    process.looplisten tasks.looplisten
  noticed : ∀ incident rest, process.network = .closing incident rest →
    Noticed tasks incident

/-- The thread does nothing; a task of it may end. -/
structure TasksOnly (before after : Process) : Prop where
  thread : after.network = before.network
  peermanager : after.node.manager = before.node.manager ∨
    (before.network.Runs ∧ ¬before.node.manager.HasFinished)
  looplisten : after.looplisten = before.looplisten ∨
    (before.network.Runs ∧ ¬before.looplisten.HasEnded)

section Steps

variable {before after : Process} {label : Label}

theorem LoopListenStep.not_ended (hstep : LoopListenStep before label after) :
    ¬before.looplisten.HasEnded := by
  cases hstep <;> simp_all [LoopListenPhase.HasEnded, Runtime.HasLeft]

theorem NodeStep.tasksOnly (hstep : NodeStep before label after) :
    TasksOnly before after := by
  obtain ⟨hnetwork, -, hlooplisten⟩ := hstep.frame
  obtain ⟨own, -, htask⟩ := hstep.task_step
  cases htask with
  | manager hruns hstep =>
      exact ⟨hnetwork, .inr ⟨hruns, hstep.not_finished⟩, .inl hlooplisten⟩
  | peer hruns hstep => exact ⟨hnetwork, .inl hstep.manager_eq, .inl hlooplisten⟩
  | handle hruns hstep =>
      exact ⟨hnetwork, .inl hstep.manager_eq, .inl hlooplisten⟩

/-- A step is one of the thread or happens behind its back. -/
theorem Step.network_or_tasksOnly (hstep : Step before label after) :
    NetworkStep before label after ∨ TasksOnly before after := by
  cases hstep with
  | network hstep => exact .inl hstep
  | init hstep =>
      obtain ⟨hnetwork, -, hlooplisten, hnode⟩ := hstep.frame
      exact .inr ⟨hnetwork, .inl (by rw [hnode]), .inl hlooplisten⟩
  | protocol hstep =>
      refine .inr ?_
      cases hstep <;> exact ⟨rfl, .inl rfl, .inl rfl⟩
  | looplisten hstep =>
      have hended := hstep.not_ended
      refine .inr ?_
      cases hstep <;> exact ⟨rfl, .inl rfl, .inr ⟨by assumption, hended⟩⟩
  | node hstep => exact .inr hstep.tasksOnly
  | panic hstep =>
      refine .inr ?_
      cases hstep with
      | looplisten hruns hended => exact ⟨rfl, .inl rfl, .inr ⟨hruns, hended⟩⟩
      | peermanager hruns hended => exact ⟨rfl, .inr ⟨hruns, hended⟩, .inl rfl⟩
      | handlemessage => exact ⟨rfl, .inl rfl, .inl rfl⟩

/-- A step of the thread leaves its tasks alone until it has decided. -/
theorem NetworkStep.tasks_eq (hstep : NetworkStep before label after)
    (hundecided : Undecided after.network) :
    after.node = before.node ∧ after.looplisten = before.looplisten ∧
      Undecided before.network := by
  cases hstep with
  | built hstarting => exact ⟨rfl, rfl, by rw [hstarting]; trivial⟩
  | init hsupervising | initClosed hsupervising | peermanager hsupervising
  | looplisten hsupervising => exact ⟨rfl, rfl, by rw [hsupervising]; trivial⟩
  | @send _ send _ hclosing =>
      exact ⟨by simp, by cases send <;> rfl, by rw [hclosing]; trivial⟩
  | sendClosed hclosing => exact ⟨rfl, rfl, by rw [hclosing]; trivial⟩
  | buildFailed | complited | ended => exact hundecided.elim

theorem seenNetwork_of_closing {nonce : UInt64} {labels : List Label}
    {process : Process} (run : Run Step (.initial nonce) labels process) :
    ∀ incident rest, process.network = .closing incident rest →
      SeenNetwork process incident := by
  intro incident rest hclosing
  have htruthful := (accounted_run run).network
  rwa [hclosing] at htruthful

/-! ### Runs of the process as runs of the thread -/

theorem Yields.exists {φ α : Type} {joined : φ → α → Prop} {ended : φ → Prop}
    {phase : φ} (hjoins : ended phase → ∃ value, joined phase value) :
    ∃ outcome, Yields joined ended phase outcome := by
  by_cases hended : ended phase
  · obtain ⟨value, hjoined⟩ := hjoins hended
    exact ⟨some value, by simpa using hjoined, by simp⟩
  · exact ⟨none, by simp, fun _ => hended⟩

theorem Yields.of_joined {φ α : Type} {joined : φ → α → Prop}
    {ended : φ → Prop} {phase : φ} {value : α} (hjoined : joined phase value) :
    Yields joined ended phase (some value) := by
  refine ⟨?_, by simp⟩
  rintro outcome ⟨⟩
  exact hjoined

theorem Yields.some_of_ended {φ α : Type} {joined : φ → α → Prop}
    {ended : φ → Prop} {phase : φ} {outcome : Option α}
    (hyields : Yields joined ended phase outcome) (hended : ended phase) :
    ∃ value, outcome = some value ∧ joined phase value := by
  cases outcome with
  | none => exact absurd hended (hyields.running rfl)
  | some value => exact ⟨value, rfl, hyields.joined value rfl⟩

/-- What is known of a task before a step in which it may have ended. -/
theorem Yields.earlier {φ α : Type} {joined : φ → α → Prop} {ended : φ → Prop}
    {before after : φ} {outcome : Option α} {runs : Prop}
    (hyields : Yields joined ended after outcome)
    (hstep : after = before ∨ (runs ∧ ¬ended before)) :
    ∃ earlier, Yields joined ended before earlier ∧
      (earlier = outcome ∨ (runs ∧ earlier = none ∧ ¬ended before)) := by
  obtain rfl | ⟨hruns, hopen⟩ := hstep
  · exact ⟨outcome, hyields, .inl rfl⟩
  · exact ⟨none, ⟨by simp, fun _ => hopen⟩, .inr ⟨hruns, rfl, hopen⟩⟩

theorem peermanagerEnds_run {tasks : NetworkTasks}
    {earlier : Option StateTaskPeermanager}
    (hends : earlier = tasks.peermanager ∨
      (tasks.thread.Runs ∧ earlier = none)) :
    ∃ labels, Run NetworkTasksStep { tasks with peermanager := earlier } labels
      tasks := by
  obtain ⟨thread, peermanager, looplisten⟩ := tasks
  obtain rfl | ⟨hruns, rfl⟩ := hends
  · exact ⟨[], .refl _⟩
  · cases peermanager with
    | none => exact ⟨[], .refl _⟩
    | some outcome =>
        exact ⟨_, .tail (.refl _) (@NetworkTasksStep.peermanagerEnds
          { thread, peermanager := none, looplisten } hruns rfl outcome)⟩

theorem looplistenEnds_run {tasks : NetworkTasks}
    {earlier : Option StateTaskLooplisten}
    (hends : earlier = tasks.looplisten ∨
      (tasks.thread.Runs ∧ earlier = none)) :
    ∃ labels, Run NetworkTasksStep { tasks with looplisten := earlier } labels
      tasks := by
  obtain ⟨thread, peermanager, looplisten⟩ := tasks
  obtain rfl | ⟨hruns, rfl⟩ := hends
  · exact ⟨[], .refl _⟩
  · cases looplisten with
    | none => exact ⟨[], .refl _⟩
    | some outcome =>
        exact ⟨_, .tail (.refl _) (@NetworkTasksStep.looplistenEnds
          { thread, peermanager, looplisten := none } hruns rfl outcome)⟩

/-- Tasks that end in the process end for its thread. -/
theorem Projects.earlier {tasks : NetworkTasks} (hprojects : Projects after tasks)
    (honly : TasksOnly before after)
    (hnoticed : ∀ incident rest, before.network = .closing incident rest →
      SeenNetwork before incident) :
    ∃ earlier labels, Projects before earlier ∧
      Run NetworkTasksStep earlier labels tasks := by
  obtain ⟨peermanager, hpeermanager, hpmEnds⟩ :=
    hprojects.peermanager.earlier honly.peermanager
  obtain ⟨looplisten, hlooplisten, hllEnds⟩ :=
    hprojects.looplisten.earlier honly.looplisten
  have hthread : tasks.thread = before.network :=
    hprojects.thread.trans honly.thread
  obtain ⟨left, hleft⟩ := @looplistenEnds_run
    { tasks with peermanager := peermanager } looplisten
    (hllEnds.imp_right fun hends => ⟨hthread ▸ hends.1, hends.2.1⟩)
  obtain ⟨right, hright⟩ := @peermanagerEnds_run tasks peermanager
    (hpmEnds.imp_right fun hends => ⟨hthread ▸ hends.1, hends.2.1⟩)
  refine ⟨{ tasks with peermanager := peermanager, looplisten := looplisten }, _,
    ⟨hthread, hpeermanager, hlooplisten, fun incident rest hclosing => ?_⟩,
    hleft.trans hright⟩
  have hbefore := hnoticed incident rest hclosing
  have hafter := hprojects.noticed incident rest (honly.thread.trans hclosing)
  have hpm {outcome : StateTaskPeermanager}
      (hjoined : PeermanagerJoined before.node.manager outcome) :
      peermanager = tasks.peermanager :=
    hpmEnds.resolve_right fun hends => hends.2.2 hjoined.hasFinished
  have hll {outcome : StateTaskLooplisten}
      (hjoined : LooplistenJoined before.looplisten outcome) :
      looplisten = tasks.looplisten :=
    hllEnds.resolve_right fun hends => hends.2.2 hjoined.hasEnded
  cases incident with
  | incidentConfirmationShutdown | incidentChannelInitClosed => trivial
  | incidentComplitedPeerManager | incidentJoinHandlePeerManager =>
      exact (hpm hbefore).trans hafter
  | incidentComplitedLoopListen | incidentJoinHandleLoopListen =>
      exact (hll hbefore).trans hafter

/-- A step of the thread in the process is one of the thread by itself. -/
theorem Projects.networkStep {tasks : NetworkTasks}
    (hprojects : Projects after tasks) (hstep : NetworkStep before label after)
    (hundecided : Undecided after.network) :
    ∃ own, NetworkTasksStep { tasks with thread := before.network } own tasks := by
  obtain ⟨thread, peermanager, looplisten⟩ := tasks
  obtain ⟨hthread, hpeermanager, hlooplisten, hnoticed⟩ := hprojects
  subst hthread
  cases hstep with
  | built hstarting => exact ⟨_, .built hstarting⟩
  | init hsupervising => exact ⟨_, .init hsupervising _⟩
  | initClosed hsupervising => exact ⟨_, .init hsupervising _⟩
  | @peermanager outcome hsupervising =>
      have hended := hnoticed _ _ rfl
      exact ⟨_, .statePeermanager hsupervising
        (by cases outcome <;> exact hended)⟩
  | @looplisten outcome hsupervising =>
      have hended := hnoticed _ _ rfl
      exact ⟨_, .stateLooplisten hsupervising
        (by cases outcome <;> exact hended)⟩
  | send hclosing => exact ⟨_, .send hclosing⟩
  | sendClosed hclosing => exact ⟨_, .send hclosing⟩
  | buildFailed | complited | ended => exact hundecided.elim

/-- A thread that has left its loop keeps to its incident. -/
theorem NetworkStep.closing (hstep : NetworkStep before label after)
    (hundecided : Undecided after.network)
    {incident : EventsCriticalCompletionThreadNetwork}
    {rest : List ThreadNetworkSend}
    (hclosing : before.network = .closing incident rest) :
    ∃ left, after.network = .closing incident left := by
  cases hstep with
  | send hclosing' =>
      rw [hclosing'] at hclosing
      cases hclosing
      exact ⟨_, rfl⟩
  | sendClosed hclosing' =>
      rw [hclosing'] at hclosing
      cases hclosing
      exact ⟨_, rfl⟩
  | buildFailed | complited | ended => exact hundecided.elim
  | _ => simp_all

theorem Projects.before_networkStep {tasks : NetworkTasks}
    (hprojects : Projects after tasks) (hstep : NetworkStep before label after)
    (hundecided : Undecided after.network) :
    Projects before { tasks with thread := before.network } := by
  obtain ⟨hnode, hlooplisten, -⟩ := hstep.tasks_eq hundecided
  refine ⟨rfl, ?_, ?_, fun incident rest hclosing => ?_⟩
  · rw [← hnode]
    exact hprojects.peermanager
  · rw [← hlooplisten]
    exact hprojects.looplisten
  · obtain ⟨left, hclosing'⟩ := hstep.closing hundecided hclosing
    exact hprojects.noticed incident left hclosing'

end Steps

/-- Until the thread has decided, a run of the process is one of its network
thread, however the panics of the tasks are reported. -/
theorem network_run {nonce : UInt64} {labels : List Label} {process : Process}
    (run : Run Step (.initial nonce) labels process)
    (hundecided : Undecided process.network) {tasks : NetworkTasks}
    (hprojects : Projects process tasks) :
    ∃ own, Run NetworkTasksStep .initial own tasks := by
  -- The end of the run fixes the outcomes, so its last step is taken back for
  -- any outcomes that fit the state after it.
  generalize hfirst : Process.initial nonce = first at run
  induction run generalizing tasks with
  | refl =>
      subst hfirst
      obtain ⟨thread, peermanager, looplisten⟩ := tasks
      obtain ⟨hthread, hpeermanager, hlooplisten, -⟩ := hprojects
      have hpm : peermanager = none := by
        refine Option.eq_none_iff_forall_ne_some.mpr fun outcome hended => ?_
        cases hpeermanager.joined outcome hended
      have hll : looplisten = none := by
        refine Option.eq_none_iff_forall_ne_some.mpr fun outcome hended => ?_
        cases hlooplisten.joined outcome hended
      subst hthread hpm hll
      exact ⟨[], .refl _⟩
  | tail run last_step ih =>
      subst hfirst
      have hnoticed := seenNetwork_of_closing run
      obtain hstep | honly := last_step.network_or_tasksOnly
      · have hbefore := (hstep.tasks_eq hundecided).2.2
        obtain ⟨own, hown⟩ := hprojects.networkStep hstep hundecided
        obtain ⟨earlier, hrun⟩ := ih hbefore
          (hprojects.before_networkStep hstep hundecided)
        exact ⟨_, hrun.tail hown⟩
      · obtain ⟨middle, left, hmiddle, hleft⟩ := hprojects.earlier honly hnoticed
        obtain ⟨earlier, hrun⟩ := ih (honly.thread ▸ hundecided) hmiddle
        exact ⟨_, hrun.trans hleft⟩

/-- The ends of the tasks from which the thread of a process makes its
result. -/
theorem decides_of_complited {process : Process}
    {incident : EventsCriticalCompletionThreadNetwork}
    {result : Except ErrorThreadNetwork Unit}
    (hnoticed : SeenNetwork process incident)
    (hcomplited : Complited (PeermanagerJoined process.node.manager)
      (LooplistenJoined process.looplisten) incident result) :
    ∃ tasks : NetworkTasks, tasks.thread = process.network ∧
      Yields PeermanagerJoined ManagerPhase.HasFinished process.node.manager
        tasks.peermanager ∧
      Yields LooplistenJoined LoopListenPhase.HasEnded process.looplisten
        tasks.looplisten ∧
      Noticed tasks incident ∧ tasks.Decides incident result := by
  cases hcomplited with
  | confirmationShutdown hpeermanager hlooplisten =>
      exact ⟨⟨process.network, some _, some _⟩, rfl, .of_joined hpeermanager,
        .of_joined hlooplisten, trivial, .confirmationShutdown rfl rfl⟩
  | channelInitClosed hpeermanager hlooplisten =>
      exact ⟨⟨process.network, some _, some _⟩, rfl, .of_joined hpeermanager,
        .of_joined hlooplisten, trivial, .channelInitClosed rfl rfl⟩
  | complitedPeerManager hlooplisten =>
      exact ⟨⟨process.network, some _, some _⟩, rfl, .of_joined hnoticed,
        .of_joined hlooplisten, rfl, .complitedPeerManager rfl⟩
  | complitedLoopListen hpeermanager =>
      exact ⟨⟨process.network, some _, some _⟩, rfl, .of_joined hpeermanager,
        .of_joined hnoticed, rfl, .complitedLoopListen rfl⟩
  | joinHandlePeerManager =>
      obtain ⟨looplisten, hlooplisten⟩ :=
        Yields.exists (@looplistenJoined_of_hasEnded process.looplisten)
      exact ⟨⟨process.network, some _, looplisten⟩, rfl, .of_joined hnoticed,
        hlooplisten, rfl, .joinHandlePeerManager⟩
  | joinHandleLoopListen =>
      obtain ⟨peermanager, hpeermanager⟩ :=
        Yields.exists (@joined_of_hasFinished process.node.manager)
      exact ⟨⟨process.network, peermanager, some _⟩, rfl, hpeermanager,
        .of_joined hnoticed, rfl, .joinHandleLoopListen⟩

/-- What the network thread of the process returns, the thread by itself
returns for the same ends of its tasks. -/
theorem decided_run {nonce : UInt64} {labels : List Label}
    {before after : Process} {label : Label}
    {incident : EventsCriticalCompletionThreadNetwork}
    {result : Except ErrorThreadNetwork Unit}
    (run : Run Step (.initial nonce) labels before)
    (hclosing : before.network = .closing incident [])
    (hstep : NetworkStep before label after)
    (hleaving : after.network = .leaving result) :
    ∃ own tasks, Run NetworkTasksStep .initial own tasks ∧
      tasks.thread = .leaving result ∧
      Yields PeermanagerJoined ManagerPhase.HasFinished before.node.manager
        tasks.peermanager ∧
      Yields LooplistenJoined LoopListenPhase.HasEnded before.looplisten
        tasks.looplisten := by
  cases hstep with
  | complited hclosing' hcomplited =>
      rw [hclosing'] at hclosing
      cases hclosing
      cases hleaving
      have hnoticed := seenNetwork_of_closing run _ _ hclosing'
      obtain ⟨tasks, hthread, hpeermanager, hlooplisten, hseen, hdecides⟩ :=
        decides_of_complited hnoticed hcomplited
      have hprojects : Projects before tasks := by
        refine ⟨hthread, hpeermanager, hlooplisten, fun incident rest heq => ?_⟩
        rw [hclosing'] at heq
        cases heq
        exact hseen
      have hundecided : Undecided before.network := by
        rw [hclosing']
        trivial
      obtain ⟨own, hrun⟩ := network_run run hundecided hprojects
      exact ⟨_, _, hrun.tail (.complited (hthread.trans hclosing') hdecides), rfl,
        hpeermanager, hlooplisten⟩
  | _ => simp_all

/-- The process loses no failure of its network tasks unless one panics. -/
theorem losesNothing_of_returned {nonce : UInt64} {labels : List Label}
    {before after : Process} {label : Label}
    {incident : EventsCriticalCompletionThreadNetwork}
    {result : Except ErrorThreadNetwork Unit} {self : PeerManager}
    {returned : Except ErrorPeerManager Unit}
    {returned' : Except ErrorLoopListen Unit}
    (run : Run Step (.initial nonce) labels before)
    (hclosing : before.network = .closing incident [])
    (hstep : NetworkStep before label after)
    (hleaving : after.network = .leaving result)
    (hmanager : before.node.manager = .finished returned self)
    (hlooplisten : before.looplisten = .running (.done () (.leave returned'))) :
    LosesNothing (.ok returned) (.ok returned') result := by
  obtain ⟨own, tasks, hrun, hthread, hpm, hll⟩ :=
    decided_run run hclosing hstep hleaving
  rw [hmanager] at hpm
  rw [hlooplisten] at hll
  obtain ⟨outcome, hpmEnded, hpmJoined⟩ := hpm.some_of_ended trivial
  obtain ⟨outcome', hllEnded, hllJoined⟩ := hll.some_of_ended trivial
  cases hpmJoined
  obtain ⟨⟨state, hends⟩⟩ := hllJoined
  cases hends
  rw [result_of_safe hrun hthread hpmEnded hllEnded (.inr (.inl ⟨rfl, rfl⟩))]
  exact losesNothing_resultStateTasks _ _

end P2PNetwork.Supervision
