import P2PNetwork.Runtime.AttributionSteps

/-!
# Attribution of events to connections

While an id is given out only when nothing about its last holder is left in the
channels, the records and the command channel that an event is handled with are
those of the connection it belongs to.
-/

namespace P2PNetwork.Runtime

open P2PNetwork.EventLoop
open P2PNetwork.Events
open P2PNetwork.Handler
open P2PNetwork.Handshake
open P2PNetwork.Manager

/-! ## Runs -/

section Steps

variable {before after : System} {label : Label}
variable {current : PeerId → TaskId} {owner : PeerId → Option TaskId}

theorem Attributed.initial (nonce : UInt64) (current : PeerId → TaskId) :
    Attributed current (fun _ => none) (.initial nonce) where
  owners := rfl
  registry := Registry.create nonce current
  drops turn hturn := by
    cases hturn
    trivial
  sends self task command resume hissue := by cases hissue
  inbound item hitem := by cases hitem
  reports item hitem := by cases hitem
  answers item hitem := by cases hitem
  handling := ⟨0, Owned.create, fun _ _ _ hissue => by cases hissue⟩
  settled _ := trivial
  final _ peerid holder hholder := by cases hholder

theorem Attributed.step (hattributed : Attributed current owner before)
    (hfresh : FreshConnection before label) (hstep : Step before label after) :
    ∃ current' owner', Attributed current' owner' after := by
  cases hstep with
  | manager hstep =>
      obtain ⟨current', hafter⟩ := hattributed.managerStep hfresh hstep
      exact ⟨current', owner, hafter⟩
  | handle hstep =>
      obtain ⟨owner', hafter⟩ := hattributed.handleStep hstep
      exact ⟨current, owner', hafter⟩
  | peer hstep => exact ⟨current, owner, hattributed.peerStep hstep⟩

theorem Attributed.recordsAttributed
    (hattributed : Attributed current owner before) :
    before.RecordsAttributed := by
  intro self item rest peerid message hhandle hqueue hready hcontext hstate
  have howned := hattributed.owned hhandle
  have hopen := open_of_handle hhandle not_false
  have hmem : item ∈ before.reports := by
    rw [System.reports, hqueue]
    exact List.mem_cons_self
  have hsettled := hattributed.settled hopen
  rw [System.reports, hqueue, List.cons_append] at hsettled
  obtain ⟨holder, hholder⟩ :=
    Option.isSome_iff_exists.mp ((howned.context peerid).mp hcontext)
  have hcurrent : holder = item.connection :=
    calc holder = current peerid :=
          hsettled.1 peerid message hready holder hholder
      _ = item.connection :=
          (hattributed.reports item hmem peerid (.inl ⟨message, hready⟩)).symm
  have howner : owner peerid = some item.connection := by rw [hholder, hcurrent]
  rw [hattributed.owners]
  exact ⟨howner, howner⟩

/-- While an id is given out only when nothing about its last holder is left,
events are handled with the records and the command channel of the connection
they belong to. -/
theorem attribution {nonce : UInt64} {labels : List Label} {system : System}
    (run : Run (Restrict Step FreshConnection) (.initial nonce) labels system) :
    system.RecordsAttributed ∧ system.SendsAttributed := by
  have hattributed : ∃ current owner, Attributed current owner system := by
    apply run.invariant (fun system =>
      ∃ current owner, Attributed current owner system)
    · exact ⟨fun _ => 0, fun _ => none, .initial nonce _⟩
    · intro before label after hbefore hstep
      obtain ⟨current, owner, hattributed⟩ := hbefore
      exact hattributed.step hstep.1 hstep.2
  obtain ⟨current, owner, hattributed⟩ := hattributed
  exact ⟨hattributed.recordsAttributed, hattributed.sends⟩

end Steps

/-! ## Two runs -/

/-- Only new connections have to be fresh. -/
theorem fresh_tail {first before after : System} {labels : List Label}
    {label : Label} (run : Run (Restrict Step FreshConnection) first labels before)
    (hstep : Step before label after) (hlabel : ∀ input, label ≠ .managerTake input) :
    Run (Restrict Step FreshConnection) first (labels ++ [label]) after := by
  refine run.tail ⟨?_, hstep⟩
  cases label with
  | managerTake input => exact absurd rfl (hlabel input)
  | _ => trivial

theorem fresh_run {first last : System} {labels : List Label}
    (run : Run Step first labels last)
    (hlabels : ∀ input, Label.managerTake input ∉ labels) :
    Run (Restrict Step FreshConnection) first labels last := by
  induction run with
  | refl => exact .refl _
  | @tail middle last labels label run step ih =>
      have hlabel (input : ManagerInput) : label ≠ .managerTake input := by
        rintro rfl
        exact hlabels input (by simp)
      refine fresh_tail (ih fun input hmem => ?_) step hlabel
      exact hlabels input (List.mem_append_left _ hmem)

/-- Nothing is left but the event of a peer's end. -/
theorem NoTrace.of_completed {system : System} {peerid completed : PeerId}
    {connection : TaskId} {self : HandleMessage}
    {flow : Flow EventsCriticalCompletionHandleMessage}
    (htasks : system.manager.registry.setTaskPeers = [])
    (hinbound : system.fromPeers = [])
    (hqueue : system.toProtocol = [{
      connection := connection
      event := .incidentCompletedPeer completed }])
    (hhandle : system.handle = .done self flow)
    (hanswers : system.fromProtocol = []) : NoTrace system peerid where
  tasks := by simp [htasks]
  inbound := by simp [hinbound]
  reports := by simp [hqueue, Concerns]
  handling := by simp [hhandle]
  answers := by simp [hanswers]

/-- The first peer ends before it sends anything, and its id is given out again.
The second peer sends two stray veracks: the manager is about to shut it down for
one, and `HandleMessage` is about to handle the other. -/
theorem attribution_reconnected : ∃ system labels,
    Run (Restrict Step FreshConnection) (.initial 0) labels system ∧
      (∃ self item rest, system.handle = .done self .next ∧
        system.toProtocol = item :: rest ∧
        item.event = .readyMessage 1 strayVerack ∧ item.connection = 1) ∧
      (∃ self command resume,
        system.manager = .running (.issue self (.toPeer 1 command) resume)) ∧
      system.RecordsAttributed ∧ system.SendsAttributed ∧
      system.owners.context 1 = some 1 ∧ system.managing = 1 := by
  have htake : Step connected (.handlePeermanager (.ok 0)) _ :=
    .handle (.peermanager rfl rfl (.ok 0))
  have hleft := (Run.tail (.refl _) htake).tail
    (.peer (@PeerStep.subtask _ 0 _ endOfStream rfl trivial))
  have hended := hleft.tail (.peer (@PeerStep.finish _ 0 _ _ rfl
    (.ok (.ok .successfulEOF)) (.ok (.ok .successful))))
  have hjoined := (hended.tail (.manager (@ManagerStep.join _ _ firstPeer _ rfl
    (by decide) rfl))).tail (.manager (.notified rfl not_false (by decide)))
  have hconnected : Run (Restrict Step FreshConnection) (.initial 0) _ connected :=
    connected_restrict (fun _ => {
      tasks := nofun, inbound := nofun, reports := nofun
      handling := nofun, answers := nofun }) fun _ => trivial
  have hagain := ((hconnected.trans (fresh_run hjoined (by simp))).tail
    ⟨show FreshConnection _ (.managerTake loopbackConnection) from
        fun _ => .of_completed rfl rfl rfl rfl rfl,
      .manager (.take rfl trivial)⟩).tail
    ⟨show FreshConnection _ (.managerSend true) from trivial,
      .manager (.notified rfl not_false (by decide))⟩
  -- the second connection is known, and two veracks of it are on their way
  have hended := fresh_tail hagain (.handle (.peermanager rfl rfl (.ok 0))) (by simp)
  have hknown := fresh_tail hended (.handle (.peermanager rfl rfl (.ok 0))) (by simp)
  have hread := fresh_tail hknown
    (.peer (@PeerStep.subtask _ 1 _ readVerack rfl trivial)) (by simp)
  have hsent := fresh_tail hread
    (.peer (@PeerStep.send _ 1 _ _ _ rfl not_false (by decide))) (by simp)
  have hreadNext := fresh_tail hsent
    (.peer (@PeerStep.subtask _ 1 _ readVerack rfl trivial)) (by simp)
  have hsentNext := fresh_tail hreadNext
    (.peer (@PeerStep.send _ 1 _ _ _ rfl not_false (by decide))) (by simp)
  have htaken := fresh_tail hsentNext (.manager (.peer rfl rfl)) (by simp)
  have hreported := fresh_tail htaken
    (.manager (.notified rfl not_false (by decide))) (by simp)
  have htakenNext := fresh_tail hreported (.manager (.peer rfl rfl)) (by simp)
  have hreportedNext := fresh_tail htakenNext
    (.manager (.notified rfl not_false (by decide))) (by simp)
  -- the first one is answered with an order to shut the peer down
  have hhandled := fresh_tail hreportedNext
    (.handle (.peermanager rfl rfl (.ok 0))) (by simp)
  have hpunished := fresh_tail hhandled
    (.handle (.send rfl not_false (by decide))) (by simp)
  have run := fresh_tail hpunished (.manager (.protocol rfl rfl)) (by simp)
  obtain ⟨hrecords, hsends⟩ := attribution run
  have howner := hrecords _ _ _ 1 _ rfl rfl rfl (by decide) (by decide)
  exact ⟨_, _, run, ⟨_, _, _, rfl, rfl, rfl, rfl⟩, ⟨_, _, _, rfl⟩, hrecords, hsends,
    howner.1, (hsends _ _ _ _ rfl).symm⟩

/-- The first peer passes a stray verack on and ends; its id is given to the
second connection before the manager takes the verack.  The second connection
is then shut down for it. -/
theorem misattributed_reusedId : ∃ system labels,
    Run Step (.initial 0) labels system ∧ ¬ system.RecordsAttributed ∧
      ∃ system' labels',
        Run Step (.initial 0) labels' system' ∧ ¬ system'.SendsAttributed := by
  have hqueued := connected_run.trans
    (@verack_run connected rfl not_false (Nat.zero_lt_succ _))
  have hleft := hqueued.tail (.peer (@PeerStep.subtask _ 0 _ endOfStream rfl
    trivial))
  have hended := hleft.tail (.peer (@PeerStep.finish _ 0 _ _ rfl
    (.ok (.ok .successfulEOF)) (.ok (.ok .successful))))
  have hjoined := (hended.tail (.manager (@ManagerStep.join _ _ firstPeer _ rfl
    (by decide) rfl))).tail (.manager (.notified rfl not_false (by decide)))
  have hreused := (hjoined.tail (.manager (@ManagerStep.take _ _
    loopbackConnection rfl trivial))).tail
      (.manager (.notified rfl not_false (by decide)))
  have hreported := (hreused.tail (.manager (.peer rfl rfl))).tail
    (.manager (.notified rfl not_false (by decide)))
  have hknown := ((hreported.tail (.handle (.peermanager rfl rfl (.ok 0)))).tail
    (.handle (.peermanager rfl rfl (.ok 0)))).tail
      (.handle (.peermanager rfl rfl (.ok 0)))
  have hpunished := (hknown.tail (.handle (.peermanager rfl rfl (.ok 0)))).tail
    (.handle (.send rfl not_false (by decide)))
  have hsent := hpunished.tail (.manager (.protocol rfl rfl))
  refine ⟨_, _, hknown, fun hattributed => ?_, _, _, hsent, fun hattributed => ?_⟩
  · have howner := hattributed _ _ _ _ _ rfl rfl rfl (by decide) (by decide)
    exact absurd howner.1 (by decide)
  · have hsame := hattributed _ _ _ _ rfl
    exact absurd hsame (by decide)

end P2PNetwork.Runtime
