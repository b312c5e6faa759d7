import P2PNetwork.Runtime.Process

/-!
# The verdict of the network thread

The network thread by itself: its phases and, of its two tasks, only how they
end.  After a notice of `main` it joins both tasks and matches out both ends.
After it has seen one of them end, a failure can be dropped: a panic of that
task is returned without a look at the other one, and a panic of the other one
replaces its error.
-/

namespace P2PNetwork.Supervision

open P2PNetwork.EventLoop
open P2PNetwork.Events
open P2PNetwork.LoopListen
open P2PNetwork.Manager
open P2PNetwork.ThreadNetwork

/-! ## The thread and its tasks -/

/-- `spawn_thread_network` with what the handles of its two tasks yield, once
they have ended. -/
structure NetworkTasks where
  thread : NetworkPhase
  peermanager : Option StateTaskPeermanager
  looplisten : Option StateTaskLooplisten

def NetworkTasks.initial : NetworkTasks where
  thread := .starting
  peermanager := none
  looplisten := none

inductive NetworkLabel where
  | build (result : Except IoError Unit)
  | peermanagerEnds (outcome : StateTaskPeermanager)
  | looplistenEnds (outcome : StateTaskLooplisten)
  | init (incident : Option EventsInit)
  | statePeermanager
  | stateLooplisten
  | send
  | complited

/-- The tasks run in the runtime of the thread.  The answers of the sends are
ignored. -/
inductive NetworkTasksStep : NetworkTasks → NetworkLabel → NetworkTasks → Prop where
  | built {tasks : NetworkTasks} (hstarting : tasks.thread = .starting) :
      NetworkTasksStep tasks (.build (.ok ()))
        { tasks with thread := .supervising }
  | buildFailed {tasks : NetworkTasks} (hstarting : tasks.thread = .starting)
      (reason : IoError) :
      NetworkTasksStep tasks (.build (.error reason))
        { tasks with thread := .leaving (.error (.errorInputOutput reason)) }
  | peermanagerEnds {tasks : NetworkTasks} (hruns : tasks.thread.Runs)
      (hrunning : tasks.peermanager = none) (outcome : StateTaskPeermanager) :
      NetworkTasksStep tasks (.peermanagerEnds outcome)
        { tasks with peermanager := some outcome }
  | looplistenEnds {tasks : NetworkTasks} (hruns : tasks.thread.Runs)
      (hrunning : tasks.looplisten = none) (outcome : StateTaskLooplisten) :
      NetworkTasksStep tasks (.looplistenEnds outcome)
        { tasks with looplisten := some outcome }
  | init {tasks : NetworkTasks} (hsupervising : tasks.thread = .supervising)
      (incident : Option EventsInit) :
      NetworkTasksStep tasks (.init incident)
        { tasks with
          thread := .closing (incidentInit incident)
            (shutdownSends (incidentInit incident)) }
  | statePeermanager {tasks : NetworkTasks} {outcome : StateTaskPeermanager}
      (hsupervising : tasks.thread = .supervising)
      (hended : tasks.peermanager = some outcome) :
      NetworkTasksStep tasks .statePeermanager
        { tasks with
          thread := .closing (resultStatePeermanager outcome)
            (shutdownSends (resultStatePeermanager outcome)) }
  | stateLooplisten {tasks : NetworkTasks} {outcome : StateTaskLooplisten}
      (hsupervising : tasks.thread = .supervising)
      (hended : tasks.looplisten = some outcome) :
      NetworkTasksStep tasks .stateLooplisten
        { tasks with
          thread := .closing (resultStateLooplisten outcome)
            (shutdownSends (resultStateLooplisten outcome)) }
  | send {tasks : NetworkTasks}
      {incident : EventsCriticalCompletionThreadNetwork}
      {send : ThreadNetworkSend} {rest : List ThreadNetworkSend}
      (hclosing : tasks.thread = .closing incident (send :: rest)) :
      NetworkTasksStep tasks .send
        { tasks with thread := .closing incident rest }
  | complited {tasks : NetworkTasks}
      {incident : EventsCriticalCompletionThreadNetwork}
      {result : Except ErrorThreadNetwork Unit}
      (hclosing : tasks.thread = .closing incident [])
      (hcomplited : Complited (fun outcome => tasks.peermanager = some outcome)
        (fun outcome => tasks.looplisten = some outcome) incident result) :
      NetworkTasksStep tasks .complited { tasks with thread := .leaving result }

/-! ## Failures -/

/-- A failure of one of the two tasks. -/
inductive Failure where
  | errorPeermanager (reason : ErrorPeerManager)
  | errorLooplisten (reason : ErrorLoopListen)
  | joinHandlePeermanager (reason : JoinError)
  | joinHandleLooplisten (reason : JoinError)
  deriving DecidableEq

def failurePeermanager : StateTaskPeermanager → List Failure
  | .ok (.ok _) => []
  | .ok (.error reason) => [.errorPeermanager reason]
  | .error reason => [.joinHandlePeermanager reason]

def failureLooplisten : StateTaskLooplisten → List Failure
  | .ok (.ok _) => []
  | .ok (.error reason) => [.errorLooplisten reason]
  | .error reason => [.joinHandleLooplisten reason]

/-- The failures of tasks that an error of the thread carries. -/
def failuresOf : ErrorThreadNetwork → List Failure
  | .errorInputOutput _ => []
  | .errorPeerManager reason => [.errorPeermanager reason]
  | .errorLoopListen reason => [.errorLooplisten reason]
  | .errorPeerManagerErrorLoopListen errorPeermanager errorLooplisten =>
      [.errorPeermanager errorPeermanager, .errorLooplisten errorLooplisten]
  | .errorPeerManagerJoinHandleLoopListen errorPeermanager
      errorJoinhandleLooplisten =>
      [.errorPeermanager errorPeermanager,
        .joinHandleLooplisten errorJoinhandleLooplisten]
  | .errorLoopListenJoinHandlePeerManager errorLooplisten
      errorJoinhandlePeermanager =>
      [.joinHandlePeermanager errorJoinhandlePeermanager,
        .errorLooplisten errorLooplisten]
  | .errorPeerManagerJoinHandle reason => [.joinHandlePeermanager reason]
  | .errorLoopListenJoinHandle reason => [.joinHandleLooplisten reason]
  | .errorPeerManagerErrorLoopListenJoinHandle errorJoinhandlePeermanager
      errorJoinhandleLooplisten =>
      [.joinHandlePeermanager errorJoinhandlePeermanager,
        .joinHandleLooplisten errorJoinhandleLooplisten]

/-- The thread succeeds exactly when both tasks did, and an error carries every
failure of theirs. -/
structure LosesNothing (peermanager : StateTaskPeermanager)
    (looplisten : StateTaskLooplisten)
    (result : Except ErrorThreadNetwork Unit) : Prop where
  ok_iff : result = .ok () ↔
    peermanager = .ok (.ok ()) ∧ looplisten = .ok (.ok ())
  carries : ∀ reason, result = .error reason →
    failurePeermanager peermanager ++ failureLooplisten looplisten ⊆
      failuresOf reason

theorem losesNothing_resultStateTasks (peermanager : StateTaskPeermanager)
    (looplisten : StateTaskLooplisten) :
    LosesNothing peermanager looplisten
      (resultStateTasks peermanager looplisten) where
  ok_iff := by
    rcases peermanager with _ | _ | _ <;> rcases looplisten with _ | _ | _ <;>
      simp [resultStateTasks, resultTasks]
  carries reason hreason := by
    rcases peermanager with _ | _ | _ <;> rcases looplisten with _ | _ | _ <;>
      cases hreason <;>
      simp [failurePeermanager, failureLooplisten, failuresOf]

/-! ## What the thread has noticed -/

/-- `main` told the thread to shut down, or is gone. -/
def ByInit : EventsCriticalCompletionThreadNetwork → Prop
  | .incidentConfirmationShutdown | .incidentChannelInitClosed => True
  | _ => False

/-- No task panicked, or one of them returned without an error. -/
def Reportable (peermanager : StateTaskPeermanager)
    (looplisten : StateTaskLooplisten) : Prop :=
  (peermanager.isOk ∧ looplisten.isOk) ∨ peermanager = .ok (.ok ()) ∨
    looplisten = .ok (.ok ())

/-- What an incident says of the tasks. -/
def Noticed (tasks : NetworkTasks) :
    EventsCriticalCompletionThreadNetwork → Prop
  | .incidentConfirmationShutdown | .incidentChannelInitClosed => True
  | .incidentComplitedPeerManager result =>
      tasks.peermanager = some (.ok result)
  | .incidentComplitedLoopListen result => tasks.looplisten = some (.ok result)
  | .incidentJoinHandlePeerManager reason =>
      tasks.peermanager = some (.error reason)
  | .incidentJoinHandleLoopListen reason =>
      tasks.looplisten = some (.error reason)

/-- The result is what the thread makes of an incident and of the ends of the
tasks that it waits for. -/
abbrev NetworkTasks.Decides (tasks : NetworkTasks) :
    EventsCriticalCompletionThreadNetwork → Except ErrorThreadNetwork Unit →
      Prop :=
  Complited (fun outcome => tasks.peermanager = some outcome)
    fun outcome => tasks.looplisten = some outcome

section Results

variable {tasks : NetworkTasks}
variable {incident : EventsCriticalCompletionThreadNetwork}
variable {result : Except ErrorThreadNetwork Unit}
variable {peermanager : StateTaskPeermanager}
variable {looplisten : StateTaskLooplisten}

/-- What the thread makes of two ends: both are matched out after a notice of
`main`, otherwise what was seen first decides the branch. -/
theorem Noticed.result_cases (hnoticed : Noticed tasks incident)
    (hdecides : tasks.Decides incident result)
    (hpeermanager : tasks.peermanager = some peermanager)
    (hlooplisten : tasks.looplisten = some looplisten) :
    (ByInit incident ∧ result = resultStateTasks peermanager looplisten) ∨
      (¬ByInit incident ∧
        ((∃ returned, peermanager = .ok returned ∧
            result = resultAfterPeermanager returned looplisten) ∨
          (∃ returned, looplisten = .ok returned ∧
            result = resultAfterLooplisten returned peermanager) ∨
          (∃ reason, peermanager = .error reason ∧
            result = .error (.errorPeerManagerJoinHandle reason)) ∨
          ∃ reason, looplisten = .error reason ∧
            result = .error (.errorLoopListenJoinHandle reason))) := by
  have hpm {outcome : StateTaskPeermanager}
      (hended : tasks.peermanager = some outcome) : peermanager = outcome :=
    Option.some.inj (hpeermanager.symm.trans hended)
  have hll {outcome : StateTaskLooplisten}
      (hended : tasks.looplisten = some outcome) : looplisten = outcome :=
    Option.some.inj (hlooplisten.symm.trans hended)
  cases hdecides with
  | confirmationShutdown hpm' hll' =>
      exact .inl ⟨trivial, by rw [hpm hpm', hll hll']⟩
  | channelInitClosed hpm' hll' =>
      exact .inl ⟨trivial, by rw [hpm hpm', hll hll']⟩
  | complitedPeerManager hll' =>
      exact .inr ⟨id, .inl ⟨_, hpm hnoticed, by rw [hll hll']⟩⟩
  | complitedLoopListen hpm' =>
      exact .inr ⟨id, .inr (.inl ⟨_, hll hnoticed, by rw [hpm hpm']⟩)⟩
  | joinHandlePeerManager =>
      exact .inr ⟨id, .inr (.inr (.inl ⟨_, hpm hnoticed, rfl⟩))⟩
  | joinHandleLoopListen =>
      exact .inr ⟨id, .inr (.inr (.inr ⟨_, hll hnoticed, rfl⟩))⟩

/-- Ends that can be reported are reported as after a shutdown. -/
theorem Noticed.result_eq (hnoticed : Noticed tasks incident)
    (hdecides : tasks.Decides incident result)
    (hpeermanager : tasks.peermanager = some peermanager)
    (hlooplisten : tasks.looplisten = some looplisten)
    (hsafe : ByInit incident ∨ Reportable peermanager looplisten) :
    result = resultStateTasks peermanager looplisten := by
  obtain ⟨-, hresult⟩ | ⟨hinit, hbranch⟩ :=
    hnoticed.result_cases hdecides hpeermanager hlooplisten
  · exact hresult
  have hreportable := hsafe.resolve_left hinit
  obtain ⟨returned, rfl, rfl⟩ | ⟨returned, rfl, rfl⟩ | ⟨reason, rfl, rfl⟩ |
    ⟨reason, rfl, rfl⟩ := hbranch
  · rcases looplisten with _ | _ <;>
      simp_all [Reportable, Except.isOk, Except.toBool, resultStateTasks,
        resultAfterPeermanager]
  · rcases peermanager with _ | _ <;>
      simp_all [Reportable, Except.isOk, Except.toBool, resultStateTasks,
        resultAfterLooplisten]
  · simp_all [Reportable, Except.isOk, Except.toBool, resultStateTasks]
  · simp_all [Reportable, Except.isOk, Except.toBool, resultStateTasks]

/-- A branch that drops a failure of the task it did not see end first loses
it. -/
theorem Noticed.safe (hnoticed : Noticed tasks incident)
    (hdecides : tasks.Decides incident result)
    (hpeermanager : tasks.peermanager = some peermanager)
    (hlooplisten : tasks.looplisten = some looplisten)
    (hloses : LosesNothing peermanager looplisten result) :
    ByInit incident ∨ Reportable peermanager looplisten := by
  obtain ⟨hinit, -⟩ | ⟨-, hbranch⟩ :=
    hnoticed.result_cases hdecides hpeermanager hlooplisten
  · exact .inl hinit
  refine .inr ?_
  have hcarries := hloses.carries
  obtain ⟨returned, rfl, rfl⟩ | ⟨returned, rfl, rfl⟩ | ⟨reason, rfl, rfl⟩ |
    ⟨reason, rfl, rfl⟩ := hbranch
  · rcases returned with _ | _ <;> rcases looplisten with _ | _ <;>
      simp_all [Reportable, Except.isOk, Except.toBool,
        resultAfterPeermanager, failurePeermanager, failureLooplisten,
        failuresOf]
  · rcases returned with _ | _ <;> rcases peermanager with _ | _ <;>
      simp_all [Reportable, Except.isOk, Except.toBool, resultAfterLooplisten,
        failurePeermanager, failureLooplisten, failuresOf]
  · rcases looplisten with _ | _ | _ <;>
      simp_all [Reportable, failurePeermanager, failureLooplisten, failuresOf]
  · rcases peermanager with _ | _ | _ <;>
      simp_all [Reportable, failurePeermanager, failureLooplisten, failuresOf]

end Results

/-! ## Runs -/

/-- The thread takes a notice of `main` in the run. -/
def InitNoticed (labels : List NetworkLabel) : Prop :=
  ∃ incident, .init incident ∈ labels

@[simp]
theorem initNoticed_append (labels : List NetworkLabel) (label : NetworkLabel) :
    InitNoticed (labels ++ [label]) ↔
      InitNoticed labels ∨ ∃ incident, label = .init incident := by
  simp [InitNoticed, exists_or, eq_comm]

/-- In every phase the thread knows what it has noticed. -/
def Followed (initNoticed : Prop) (tasks : NetworkTasks) : Prop :=
  match tasks.thread with
  | .starting => ¬initNoticed ∧ tasks.peermanager = none
  | .supervising => ¬initNoticed
  | .closing incident _ =>
      Noticed tasks incident ∧ (ByInit incident ↔ initNoticed)
  -- no task runs where the runtime could not be built
  | .leaving result => tasks.peermanager = none ∨
      ∃ incident, Noticed tasks incident ∧ (ByInit incident ↔ initNoticed) ∧
        tasks.Decides incident result
  | .ended _ => False

@[simp]
theorem noticed_thread (tasks : NetworkTasks) (thread : NetworkPhase)
    (incident : EventsCriticalCompletionThreadNetwork) :
    Noticed { tasks with thread := thread } incident ↔ Noticed tasks incident :=
  Iff.rfl

theorem Noticed.peermanagerEnds {tasks : NetworkTasks}
    {incident : EventsCriticalCompletionThreadNetwork}
    (hnoticed : Noticed tasks incident) (hrunning : tasks.peermanager = none)
    (outcome : StateTaskPeermanager) :
    Noticed { tasks with peermanager := some outcome } incident := by
  cases incident <;> simp_all [Noticed]

theorem Noticed.looplistenEnds {tasks : NetworkTasks}
    {incident : EventsCriticalCompletionThreadNetwork}
    (hnoticed : Noticed tasks incident) (hrunning : tasks.looplisten = none)
    (outcome : StateTaskLooplisten) :
    Noticed { tasks with looplisten := some outcome } incident := by
  cases incident <;> simp_all [Noticed]

theorem Followed.step {initNoticed : Prop} {before after : NetworkTasks}
    {label : NetworkLabel} (hfollowed : Followed initNoticed before)
    (hstep : NetworkTasksStep before label after) :
    Followed (initNoticed ∨ ∃ incident, label = .init incident) after := by
  cases hstep with
  | built hstarting => simp_all [Followed]
  | buildFailed hstarting => simp_all [Followed]
  | @peermanagerEnds hruns hrunning outcome =>
      obtain ⟨thread, peermanager, looplisten⟩ := before
      cases thread with
      | supervising => simpa [Followed] using hfollowed
      | closing incident rest =>
          exact ⟨hfollowed.1.peermanagerEnds hrunning outcome,
            by simpa using hfollowed.2⟩
      | _ => exact hruns.elim
  | @looplistenEnds hruns hrunning outcome =>
      obtain ⟨thread, peermanager, looplisten⟩ := before
      cases thread with
      | supervising => simpa [Followed] using hfollowed
      | closing incident rest =>
          exact ⟨hfollowed.1.looplistenEnds hrunning outcome,
            by simpa using hfollowed.2⟩
      | _ => exact hruns.elim
  | init hsupervising incident =>
      rcases incident with _ | _ <;> simp [Followed, incidentInit, Noticed, ByInit]
  | @statePeermanager outcome hsupervising hended =>
      cases outcome <;>
        simp_all [Followed, resultStatePeermanager, Noticed, ByInit]
  | @stateLooplisten outcome hsupervising hended =>
      cases outcome <;>
        simp_all [Followed, resultStateLooplisten, Noticed, ByInit]
  | send hclosing => simp_all [Followed]
  | complited hclosing hcomplited =>
      simp only [Followed, hclosing] at hfollowed
      refine .inr ⟨_, hfollowed.1, ?_, hcomplited⟩
      simpa using hfollowed.2

theorem followed_run {labels : List NetworkLabel} {tasks : NetworkTasks}
    (run : Run NetworkTasksStep .initial labels tasks) :
    Followed (InitNoticed labels) tasks := by
  generalize hfirst : NetworkTasks.initial = first at run
  induction run with
  | refl =>
      subst hfirst
      simp [Followed, NetworkTasks.initial, InitNoticed]
  | tail run last_step ih =>
      rw [initNoticed_append]
      exact ih.step last_step

/-! ## The verdict -/

/-- The failures of two tasks can be reported, or the thread was told to shut
down before it saw either of them end. -/
def Safe (labels : List NetworkLabel) (peermanager : StateTaskPeermanager)
    (looplisten : StateTaskLooplisten) : Prop :=
  InitNoticed labels ∨ Reportable peermanager looplisten

section Verdicts

variable {labels : List NetworkLabel} {last : NetworkTasks}
variable {result : Except ErrorThreadNetwork Unit}
variable {peermanager : StateTaskPeermanager}
variable {looplisten : StateTaskLooplisten}

theorem decided_of_leaving (run : Run NetworkTasksStep .initial labels last)
    (hleaving : last.thread = .leaving result)
    (hpeermanager : last.peermanager = some peermanager) :
    ∃ incident, Noticed last incident ∧
      (ByInit incident ↔ InitNoticed labels) ∧ last.Decides incident result := by
  have hfollowed := followed_run run
  simpa [Followed, hleaving, hpeermanager] using hfollowed

theorem result_of_safe (run : Run NetworkTasksStep .initial labels last)
    (hleaving : last.thread = .leaving result)
    (hpeermanager : last.peermanager = some peermanager)
    (hlooplisten : last.looplisten = some looplisten)
    (hsafe : Safe labels peermanager looplisten) :
    result = resultStateTasks peermanager looplisten := by
  obtain ⟨incident, hnoticed, hinit, hdecides⟩ :=
    decided_of_leaving run hleaving hpeermanager
  exact hnoticed.result_eq hdecides hpeermanager hlooplisten
    (hsafe.imp_left hinit.mpr)

/-- Both tasks have ended and the thread has noticed nothing. -/
def bothEnded (peermanager : StateTaskPeermanager)
    (looplisten : StateTaskLooplisten) : NetworkTasks where
  thread := .supervising
  peermanager := some peermanager
  looplisten := some looplisten

theorem bothEnded_run (peermanager : StateTaskPeermanager)
    (looplisten : StateTaskLooplisten) :
    Run NetworkTasksStep .initial
      [.build (.ok ()), .peermanagerEnds peermanager, .looplistenEnds looplisten]
      (bothEnded peermanager looplisten) := by
  have hbuilt : NetworkTasksStep .initial (.build (.ok ()))
      { NetworkTasks.initial with thread := .supervising } := .built rfl
  have hmanager := @NetworkTasksStep.peermanagerEnds
    { NetworkTasks.initial with thread := .supervising } trivial rfl peermanager
  have hlooplisten := @NetworkTasksStep.looplistenEnds
    { bothEnded peermanager looplisten with looplisten := none } trivial rfl
    looplisten
  exact .tail (.tail (.tail (.refl _) hbuilt) hmanager) hlooplisten

/-- The thread sees the end of `PeerManager`. -/
theorem seenPeermanager_run (returned : Except ErrorPeerManager Unit)
    (looplisten : StateTaskLooplisten) :
    ∃ labels, Run NetworkTasksStep .initial labels
      { bothEnded (.ok returned) looplisten with
        thread := .leaving (resultAfterPeermanager returned looplisten) } := by
  have hseen : NetworkTasksStep (bothEnded (.ok returned) looplisten)
      .statePeermanager _ := .statePeermanager rfl rfl
  have run := ((bothEnded_run _ _).tail hseen).tail (.send rfl)
  exact ⟨_, run.tail (.complited rfl (.complitedPeerManager rfl))⟩

/-- The thread is told to shut down. -/
theorem confirmationShutdown_run (peermanager : StateTaskPeermanager)
    (looplisten : StateTaskLooplisten) :
    ∃ labels, Run NetworkTasksStep .initial labels
      { bothEnded peermanager looplisten with
        thread := .leaving (resultStateTasks peermanager looplisten) } := by
  have htold : NetworkTasksStep (bothEnded peermanager looplisten)
      (.init (some .shutdown)) _ := .init rfl _
  have run := (((bothEnded_run _ _).tail htold).tail (.send rfl)).tail (.send rfl)
  exact ⟨_, run.tail (.complited rfl (.confirmationShutdown rfl rfl))⟩

/-- Both tasks have ended when the thread decides its result.  It loses none of
their failures exactly if a notice of `main` came first, no task panicked or
one of them returned without an error, and what it returns is then determined
by the two ends. -/
theorem losesNothing_iff (run : Run NetworkTasksStep .initial labels last)
    (hleaving : last.thread = .leaving result)
    (hpeermanager : last.peermanager = some peermanager)
    (hlooplisten : last.looplisten = some looplisten) :
    (LosesNothing peermanager looplisten result ↔
        Safe labels peermanager looplisten) ∧
      ∀ (labels' : List NetworkLabel) (last' : NetworkTasks)
        (result' : Except ErrorThreadNetwork Unit),
        Run NetworkTasksStep .initial labels' last' →
          last'.thread = .leaving result' →
          last'.peermanager = some peermanager →
          last'.looplisten = some looplisten →
          Safe labels peermanager looplisten →
          Safe labels' peermanager looplisten → result' = result := by
  have hresult := result_of_safe run hleaving hpeermanager hlooplisten
  refine ⟨⟨fun hloses => ?_, fun hsafe => ?_⟩, ?_⟩
  · obtain ⟨incident, hnoticed, hinit, hdecides⟩ :=
      decided_of_leaving run hleaving hpeermanager
    exact (hnoticed.safe hdecides hpeermanager hlooplisten hloses).imp_left
      hinit.mp
  · rw [hresult hsafe]
    exact losesNothing_resultStateTasks peermanager looplisten
  · intro labels' last' result' run' hleaving' hpeermanager' hlooplisten' hsafe
      hsafe'
    calc
      result' = resultStateTasks peermanager looplisten :=
        result_of_safe run' hleaving' hpeermanager' hlooplisten' hsafe'
      _ = result := (hresult hsafe).symm

theorem losesNothing_bothErrors :
    LosesNothing (.ok (.error .errorChannelHandleMessageClosed))
      (.ok (.error .errorChannelPeerManagerClosed))
      (.error (.errorPeerManagerErrorLoopListen .errorChannelHandleMessageClosed
        .errorChannelPeerManagerClosed)) := by
  obtain ⟨labels, run⟩ := seenPeermanager_run
    (.error .errorChannelHandleMessageClosed)
    (.ok (.error .errorChannelPeerManagerClosed))
  exact (losesNothing_iff run rfl rfl rfl).1.mpr (.inr (.inl ⟨rfl, rfl⟩))

/-- `PeerManager` returns an error and `LoopListen` panics.  The thread returns
both when it is told to shut down, and the panic alone when it sees the end of
`PeerManager` first. -/
theorem failure_lost :
    ∃ labels labels' last last',
      Run NetworkTasksStep .initial labels last ∧
      Run NetworkTasksStep .initial labels' last' ∧
      last.peermanager = some (.ok (.error .errorChannelHandleMessageClosed)) ∧
      last'.peermanager = last.peermanager ∧
      last.looplisten = some (.error ⟨2⟩) ∧
      last'.looplisten = last.looplisten ∧
      last.thread = .leaving (.error (.errorLoopListenJoinHandle ⟨2⟩)) ∧
      last'.thread = .leaving (.error (.errorPeerManagerJoinHandleLoopListen
        .errorChannelHandleMessageClosed ⟨2⟩)) ∧
      ¬LosesNothing (.ok (.error .errorChannelHandleMessageClosed))
        (.error ⟨2⟩) (.error (.errorLoopListenJoinHandle ⟨2⟩)) := by
  obtain ⟨labels, run⟩ := seenPeermanager_run
    (.error .errorChannelHandleMessageClosed) (.error ⟨2⟩)
  obtain ⟨labels', run'⟩ := confirmationShutdown_run
    (.ok (.error .errorChannelHandleMessageClosed)) (.error ⟨2⟩)
  refine ⟨labels, labels', _, _, run, run', rfl, rfl, rfl, rfl, rfl, rfl,
    fun hloses => ?_⟩
  have hcarries := hloses.carries _ rfl
  simp [failurePeermanager, failureLooplisten, failuresOf] at hcarries

end Verdicts

end P2PNetwork.Supervision
