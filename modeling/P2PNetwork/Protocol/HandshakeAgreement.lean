import P2PNetwork.Core.EventLoop
import P2PNetwork.Protocol.LinkStages

/-!
# Agreement over any number of links

Every link of a network of nodes is at a stage of its handshake in every
reachable state, where a node in the middle of a turn counts as having
finished it.  So no node reports a violation, and when nothing is on the way
both ends of every link have completed the handshake.
-/

namespace P2PNetwork.Links

open P2PNetwork.EventLoop
open P2PNetwork.Events
open P2PNetwork.Handler
open P2PNetwork.Handshake
open P2PNetwork.Wire

variable {Node Link : Type}

/-! ## The invariant -/

/-- What a node comes to when it finishes the turn it is in. -/
def World.settled (world : World Node Link) (node : Node) :
    List EventsHandleMessage × HandleMessage ×
      Flow EventsCriticalCompletionHandleMessage :=
  (world.turn node).runWith fun _ => true

def messagesTo (peerid : PeerId) :
    List EventsHandleMessage → List MessagePayload :=
  List.filterMap fun event =>
    match event with
    | .readyMessage other message => if other = peerid then some message else none
    | .incidetViolentComplitedPeer _ => none

/-- What the node at the other end of the link is about to enqueue for an
end. -/
def World.pending (topology : Topology Node Link) (world : World Node Link)
    (endpoint : End Link) : List MessagePayload :=
  messagesTo (topology.peerid (opposite endpoint))
    (world.settled (topology.node (opposite endpoint))).1

/-- All messages on the way to an end. -/
def World.arriving (topology : Topology Node Link) (world : World Node Link)
    (endpoint : End Link) : List MessagePayload :=
  world.inbox endpoint ++ world.pending topology endpoint

def World.flags (topology : Topology Node Link) (world : World Node Link)
    (endpoint : End Link) : Option PeerStateMetadata :=
  (world.settled (topology.node endpoint)).2.1.setStatePeers.lookup
    (topology.peerid endpoint)

def World.context (topology : Topology Node Link) (world : World Node Link)
    (endpoint : End Link) : Option PeerContextMetadata :=
  (world.settled (topology.node endpoint)).2.1.setContextPeers.lookup
    (topology.peerid endpoint)

/-- Every link is at a stage of its handshake, no turn is about to report a
violation or leaves the loop, and no `handle_msg` comes to an error. -/
structure Agreeing (topology : Topology Node Link)
    (world : World Node Link) : Prop where
  stages : ∀ endpoint : End Link, EndStage endpoint.2
    (world.flags topology endpoint) (world.flags topology (opposite endpoint))
    (world.arriving topology endpoint)
    (world.arriving topology (opposite endpoint))
  contexts : ∀ endpoint, world.context topology endpoint =
    if world.connected endpoint then
      some (contextMetadata (topology.connection endpoint))
    else none
  connected : ∀ endpoint,
    (world.flags topology endpoint).isSome = world.connected endpoint
  flows : ∀ node, (world.settled node).2.2 = .next
  events : ∀ node peerid,
    .incidetViolentComplitedPeer peerid ∉ (world.settled node).1
  calls : ∀ node call, world.call node = some call →
    (call.runWith fun _ => true).2.2 = .ok ()
  violations : world.violations = []

@[simp]
theorem messagesTo_nil (peerid : PeerId) : messagesTo peerid [] = [] := rfl

theorem messagesTo_map (peerid other : PeerId)
    (messages : List MessagePayload) :
    messagesTo other (messages.map (.readyMessage peerid)) =
      if peerid = other then messages else [] := by
  by_cases heq : peerid = other
  · simp [messagesTo, heq, List.filterMap_map]
  · simp [messagesTo, heq, List.filterMap_map]

theorem settled_of_turn {world : World Node Link} {node : Node}
    {self : HandleMessage} (hidle : world.turn node = .done self .next) :
    world.settled node = ([], self, .next) := by
  rw [World.settled, hidle, Await.runWith_done]

theorem settled_of_issue {world : World Node Link} {node : Node}
    {self : HandleMessage} {event : EventsHandleMessage}
    {resume : Bool → HandleTurn}
    (hturn : world.turn node = .issue self event resume) :
    world.settled node =
      (event :: ((resume true).runWith fun _ => true).1,
        ((resume true).runWith fun _ => true).2) := by
  rw [World.settled, hturn, Await.runWith_issue]

theorem Agreeing.initial (topology : Topology Node Link) :
    Agreeing topology World.initial where
  stages endpoint := by
    have hflags (endpoint : End Link) :
        (World.initial : World Node Link).flags topology endpoint = none := by
      simp [World.flags, World.settled, World.initial, HandleMessage.create]
    have harriving (endpoint : End Link) :
        (World.initial : World Node Link).arriving topology endpoint = [] := rfl
    rw [hflags, hflags, harriving, harriving]
    obtain ⟨link, _ | _⟩ := endpoint <;>
      exact .unoffered fun flags hflags => by cases hflags
  contexts endpoint := by
    simp [World.context, World.settled, World.initial, HandleMessage.create]
  connected endpoint := by
    simp [World.flags, World.settled, World.initial, HandleMessage.create]
  flows node := rfl
  events node peerid := by simp [World.settled, World.initial]
  calls node call hcall := by simp [World.initial] at hcall
  violations := rfl

/-! ### A node takes an event -/

section Take

variable {topology : Topology Node Link} {world : World Node Link}
variable {endpoint : End Link} {self : HandleMessage} {turn : HandleTurn}
variable {call : Option HandleMsg} {messages : List MessagePayload}
variable {context : PeerContextMetadata} {flags : PeerStateMetadata}

theorem Topology.eq_iff (topology : Topology Node Link)
    {left right : End Link} :
    topology.node left = topology.node right ∧
      topology.peerid left = topology.peerid right ↔ left = right :=
  ⟨fun heq => topology.distinct _ _ heq.1 heq.2, fun heq => by simp [heq]⟩

variable {inbox : End Link → List MessagePayload}
variable [DecidableEq Node] [DecidableEq Link]

theorem settled_take (node : Node) :
    (world.take topology endpoint turn call inbox).settled node =
      if node = topology.node endpoint then turn.runWith fun _ => true
      else world.settled node := by
  simp only [World.settled, World.take, Function.update_apply]
  split <;> rfl

theorem flags_take
    (hidle : world.turn (topology.node endpoint) = .done self .next)
    (hsettles : Settles (topology.peerid endpoint) self turn messages context
      flags) (other : End Link) :
    (world.take topology endpoint turn call inbox).flags topology other =
      if other = endpoint then some flags else world.flags topology other := by
  obtain ⟨after, hrun, -, hstates⟩ := hsettles
  simp only [World.flags, settled_take, ← topology.eq_iff]
  by_cases hnode : topology.node other = topology.node endpoint
  · simp [hnode, hrun, hstates, settled_of_turn hidle]
  · simp [hnode]

theorem context_take
    (hidle : world.turn (topology.node endpoint) = .done self .next)
    (hsettles : Settles (topology.peerid endpoint) self turn messages context
      flags) (other : End Link) :
    (world.take topology endpoint turn call inbox).context topology other =
      if other = endpoint then some context
      else world.context topology other := by
  obtain ⟨after, hrun, hcontexts, -⟩ := hsettles
  simp only [World.context, settled_take, ← topology.eq_iff]
  by_cases hnode : topology.node other = topology.node endpoint
  · simp [hnode, hrun, hcontexts, settled_of_turn hidle]
  · simp [hnode]

theorem arriving_take
    (hidle : world.turn (topology.node endpoint) = .done self .next)
    (hsettles : Settles (topology.peerid endpoint) self turn messages context
      flags) (other : End Link) :
    (world.take topology endpoint turn call inbox).arriving topology other =
      inbox other ++ (world.pending topology other ++
        if opposite other = endpoint then messages else []) := by
  obtain ⟨after, hrun, -, -⟩ := hsettles
  simp only [World.arriving, World.pending, settled_take, ← topology.eq_iff]
  by_cases hnode : topology.node (opposite other) = topology.node endpoint
  · simp [hnode, hrun, settled_of_turn hidle, messagesTo_map, eq_comm,
      World.take]
  · simp [hnode, World.take]

/-- A node that takes an event keeps the invariant when its turn settles and
brings the link of the event to a stage. -/
theorem Agreeing.take (hagreeing : Agreeing topology world)
    (hidle : world.turn (topology.node endpoint) = .done self .next)
    (hsettles : Settles (topology.peerid endpoint) self turn messages
      (contextMetadata (topology.connection endpoint)) flags)
    (hcall : ∀ handler, call = some handler →
      (handler.runWith fun _ => true).2.2 = .ok ())
    (hinbox : ∀ other, other ≠ endpoint → inbox other = world.inbox other)
    (hstage : EndStage endpoint.2 (some flags)
      (world.flags topology (opposite endpoint))
      (inbox endpoint ++ world.pending topology endpoint)
      (world.arriving topology (opposite endpoint) ++ messages)) :
    Agreeing topology (world.take topology endpoint turn call inbox) where
  stages other := by
    have hopposite := opposite_ne endpoint
    rw [flags_take hidle hsettles, flags_take hidle hsettles,
      arriving_take hidle hsettles, arriving_take hidle hsettles,
      opposite_opposite]
    by_cases hself : other = endpoint
    · subst hself
      simpa [hopposite, hinbox _ hopposite, World.arriving] using hstage
    by_cases hother : opposite other = endpoint
    · have heq : other = opposite endpoint := by
        rw [← hother, opposite_opposite]
      subst heq
      rw [endStage_opposite]
      simpa [hself, hinbox _ hself, World.arriving] using hstage
    · simpa [hself, hother, hinbox _ hself, hinbox _ hother, World.arriving]
        using hagreeing.stages other
  contexts other := by
    rw [context_take hidle hsettles, hagreeing.contexts other]
    by_cases heq : other = endpoint <;> simp [World.take, heq]
  connected other := by
    have hconnected := hagreeing.connected other
    rw [flags_take hidle hsettles]
    by_cases heq : other = endpoint <;> simp [World.take, heq, ← hconnected]
  flows node := by
    obtain ⟨after, hrun, -, -⟩ := hsettles
    rw [settled_take, hrun]
    split
    · rfl
    · exact hagreeing.flows node
  events node peerid := by
    obtain ⟨after, hrun, -, -⟩ := hsettles
    rw [settled_take, hrun]
    split
    · simp
    · exact hagreeing.events node peerid
  calls node handler hhandler := by
    simp only [World.take, Function.update_apply] at hhandler
    split at hhandler
    · exact hcall handler hhandler
    · exact hagreeing.calls node handler hhandler
  violations := hagreeing.violations

theorem Agreeing.connect (hagreeing : Agreeing topology world) (now : UInt64)
    (hidle : world.turn (topology.node endpoint) = .done self .next)
    (hfresh : world.connected endpoint = false) :
    Agreeing topology (world.take topology endpoint
      (HandleMessage.turn (.incidentPeermanager (.ok now)
        (some (.incidentNewConnection (topology.connection endpoint)))) self)
      none world.inbox) := by
  have hsettled := settled_of_turn hidle
  have hflags : world.flags topology endpoint = none := by
    simpa [hfresh] using hagreeing.connected endpoint
  have hcontext : world.context topology endpoint = none := by
    simpa [hfresh] using hagreeing.contexts endpoint
  have hstage : EndStage (topology.connection endpoint).typeConnection _ _ _ _ :=
    hagreeing.stages endpoint
  rw [hflags] at hstage
  simp only [World.flags, World.context, hsettled,
    AList.lookup_eq_none] at hflags hcontext
  obtain ⟨flags, messages, hsettles, hstage⟩ :=
    hstage.connect now hcontext hflags
  exact hagreeing.take hidle hsettles (by simp) (fun _ _ => rfl) hstage

theorem Agreeing.deliver (hagreeing : Agreeing topology world) (now : UInt64)
    {message : MessagePayload} {rest : List MessagePayload}
    (hidle : world.turn (topology.node endpoint) = .done self .next)
    (hconnected : world.connected endpoint = true)
    (hinbox : world.inbox endpoint = message :: rest) :
    Agreeing topology (world.take topology endpoint
      (HandleMessage.turn (.incidentPeermanager (.ok now)
        (some (.readyMessage (topology.peerid endpoint) message))) self)
      (handleCall (.ok now) (topology.peerid endpoint) message self)
      (Function.update world.inbox endpoint rest)) := by
  have hsettled := settled_of_turn hidle
  have hsome := hagreeing.connected endpoint
  rw [hconnected, Option.isSome_iff_exists] at hsome
  obtain ⟨flags, hflags⟩ := hsome
  have hcontext : world.context topology endpoint =
      some (contextMetadata (topology.connection endpoint)) := by
    simpa [hconnected] using hagreeing.contexts endpoint
  have hstage := hagreeing.stages endpoint
  rw [hflags] at hstage
  nth_rewrite 1 [World.arriving] at hstage
  rw [hinbox, List.cons_append] at hstage
  simp only [World.flags, World.context, hsettled] at hflags hcontext
  have htype : (contextMetadata (topology.connection endpoint)).typeConnect =
      endpoint.2 := rfl
  obtain ⟨flags', messages, hcall, hstage⟩ :=
    hstage.deliver now (topology.peerid endpoint) htype
  refine hagreeing.take hidle
    (settles_readyMessage hcontext hflags hcall) ?_ ?_ (by simpa using hstage)
  · intro handler hhandler
    simp only [handleCall, hcontext, hflags, Option.some.injEq] at hhandler
    rw [← hhandler, hcall]
  · intro other hne
    simp [hne]

end Take

/-! ### A send is accepted -/

section Send

variable [DecidableEq Node]
variable {topology : Topology Node Link} {world : World Node Link}
variable {node : Node} {self : HandleMessage} {resume : Bool → HandleTurn}

theorem settled_send (event : EventsHandleMessage) (turn : HandleTurn)
    (other : Node) :
    (world.send topology node event turn).settled other =
      if other = node then turn.runWith fun _ => true
      else world.settled other := by
  simp only [World.settled, World.send, Function.update_apply]
  split <;> rfl

/-- The tables a node comes to do not change when its send is accepted. -/
theorem tables_send {event : EventsHandleMessage}
    (hturn : world.turn node = .issue self event resume) (other : Node) :
    ((world.send topology node event (resume true)).settled other).2 =
      (world.settled other).2 := by
  rw [settled_send]
  split
  case isTrue heq => rw [heq, settled_of_issue hturn]
  case isFalse => rfl

/-- A sent message moves from what its node is about to enqueue to the
inbox. -/
theorem arriving_send {peerid : PeerId} {message : MessagePayload}
    (hturn : world.turn node = .issue self (.readyMessage peerid message) resume)
    (endpoint : End Link) :
    (world.send topology node (.readyMessage peerid message)
        (resume true)).arriving topology endpoint =
      world.arriving topology endpoint := by
  have hsettled := settled_of_issue hturn
  simp only [World.arriving, World.pending, settled_send]
  by_cases hnode : topology.node (opposite endpoint) = node
  · by_cases hpeerid : topology.peerid (opposite endpoint) = peerid
    · simp [World.send, World.enqueue, messagesTo, hnode, hpeerid, hsettled]
    · simp [World.send, World.enqueue, messagesTo, hnode, hpeerid, hsettled,
        Ne.symm hpeerid]
  · simp [World.send, World.enqueue, hnode]

/-- What remains of a `handle_msg` comes to the same result. -/
theorem Agreeing.calls_send (hagreeing : Agreeing topology world)
    (event : EventsHandleMessage) (turn : HandleTurn) {other : Node}
    {call : HandleMsg}
    (hcall : (world.send topology node event turn).call other = some call) :
    (call.runWith fun _ => true).2.2 = .ok () := by
  simp only [World.send, Function.update_apply] at hcall
  split at hcall
  case isTrue heq =>
    rw [Option.map_eq_some_iff] at hcall
    obtain ⟨before, hbefore, rfl⟩ := hcall
    have hresult := hagreeing.calls node before hbefore
    cases before <;> exact hresult
  case isFalse => exact hagreeing.calls other call hcall

theorem Agreeing.send (hagreeing : Agreeing topology world)
    {event : EventsHandleMessage}
    (hturn : world.turn node = .issue self event resume) :
    Agreeing topology (world.send topology node event (resume true)) := by
  have hsettled := settled_of_issue hturn
  cases event with
  | incidetViolentComplitedPeer peerid =>
      exact absurd (by simp [hsettled]) (hagreeing.events node peerid)
  | readyMessage peerid message =>
      have hflags (endpoint : End Link) :
          (world.send topology node (.readyMessage peerid message)
            (resume true)).flags topology endpoint =
          world.flags topology endpoint := by
        rw [World.flags, World.flags, tables_send hturn]
      exact {
        stages := fun endpoint => by
          rw [hflags, hflags, arriving_send hturn, arriving_send hturn]
          exact hagreeing.stages endpoint
        contexts := fun endpoint => by
          rw [World.context, tables_send hturn]
          exact hagreeing.contexts endpoint
        connected := fun endpoint => by
          rw [hflags]
          exact hagreeing.connected endpoint
        flows := fun other => by
          rw [tables_send hturn]
          exact hagreeing.flows other
        events := fun other violent => by
          have hevents := hagreeing.events other violent
          rw [settled_send]
          split
          case isTrue heq =>
            rw [heq, hsettled] at hevents
            exact fun hmem => hevents (List.mem_cons_of_mem _ hmem)
          case isFalse => exact hevents
        calls := fun other call hcall => hagreeing.calls_send _ _ hcall
        violations := hagreeing.violations }

end Send

/-! ## Runs -/

/-- All connections are announced, no message is on the way and no node awaits
a send. -/
structure Quiet (world : World Node Link) : Prop where
  connected : ∀ endpoint, world.connected endpoint = true
  inbox : ∀ endpoint, world.inbox endpoint = []
  turn : ∀ node self event resume,
    world.turn node ≠ .issue self event resume

section Runs

variable [DecidableEq Node] [DecidableEq Link]
variable {topology : Topology Node Link} {world : World Node Link}

theorem Agreeing.step (hagreeing : Agreeing topology world)
    {label : Label Node Link} {after : World Node Link}
    (hstep : Step topology world label after) : Agreeing topology after := by
  cases hstep with
  | connect endpoint now hidle hfresh =>
      exact hagreeing.connect now hidle hfresh
  | deliver endpoint now hidle hconnected hinbox =>
      exact hagreeing.deliver now hidle hconnected hinbox
  | send node hturn => exact hagreeing.send hturn

omit [DecidableEq Node] [DecidableEq Link] in
theorem Agreeing.completed (hagreeing : Agreeing topology world)
    (hquiet : Quiet world) (endpoint : End Link) :
    ∃ flags, (world.turn (topology.node endpoint)).state.setStatePeers.lookup
        (topology.peerid endpoint) = some flags ∧
      flags.completedHandshake = true := by
  have hdone (node : Node) : ∃ self flow, world.turn node = .done self flow := by
    cases hturn : world.turn node with
    | done self flow => exact ⟨self, flow, rfl⟩
    | issue self event resume => exact absurd hturn (hquiet.turn _ _ _ _)
  have harriving (endpoint : End Link) :
      world.arriving topology endpoint = [] := by
    obtain ⟨self, flow, hturn⟩ := hdone (topology.node (opposite endpoint))
    simp [World.arriving, World.pending, World.settled, hturn,
      hquiet.inbox endpoint]
  have hsome (endpoint : End Link) :
      ∃ flags, world.flags topology endpoint = some flags := by
    rw [← Option.isSome_iff_exists, hagreeing.connected endpoint]
    exact hquiet.connected endpoint
  obtain ⟨flags, hflags⟩ := hsome endpoint
  obtain ⟨other, hother⟩ := hsome (opposite endpoint)
  have hstage := hagreeing.stages endpoint
  rw [harriving, harriving, hflags, hother] at hstage
  obtain ⟨self, flow, hturn⟩ := hdone (topology.node endpoint)
  rw [World.flags, World.settled, hturn] at hflags
  rw [hturn]
  refine ⟨flags, hflags, ?_⟩
  obtain ⟨link, _ | _⟩ := endpoint <;> cases hstage <;> rfl

/-- Handshake agreement: in every reachable state no node has reported or is
reporting a violation and no `handle_msg` has ended in an error, and when
everything is announced and nothing is on the way, both ends of every link
have completed the handshake. -/
theorem handshake_agreement (topology : Topology Node Link)
    {labels : List (Label Node Link)}
    (run : Run (Step topology) World.initial labels world) :
    world.violations = [] ∧
      (∀ node self peerid resume,
        world.turn node ≠
          .issue self (.incidetViolentComplitedPeer peerid) resume) ∧
      (∀ node state reason,
        world.call node ≠ some (.done state (.error reason))) ∧
      (Quiet world → ∀ endpoint,
        ∃ flags,
          (world.turn (topology.node endpoint)).state.setStatePeers.lookup
            (topology.peerid endpoint) = some flags ∧
          flags.completedHandshake = true) := by
  have hagreeing : Agreeing topology world :=
    run.invariant (Agreeing topology) (.initial topology)
      fun _ _ _ hbefore hstep => hbefore.step hstep
  refine ⟨hagreeing.violations, ?_, ?_, hagreeing.completed⟩
  · intro node self peerid resume hturn
    apply hagreeing.events node peerid
    simp [World.settled, hturn]
  · intro node state reason hcall
    have hresult := hagreeing.calls node _ hcall
    simp at hresult

end Runs

/-- Two nodes and one link between them. -/
def twoNodes : Topology Bool Unit where
  node endpoint := endpoint.2 = .outgoingConnection
  peerid _ := 1
  nonce _ := 7
  localAddress _ := loopback
  removeAddress _ := loopback
  distinct left right hnode _ := by
    obtain ⟨⟨⟩, _ | _⟩ := left <;> obtain ⟨⟨⟩, _ | _⟩ := right <;>
      simp_all

def dialling : End Unit := ((), .outgoingConnection)

def accepting : End Unit := ((), .incomingConnection)

/-- The dialling node answers the version while the accepting node has yet to
send its verack. -/
theorem handshake_agreement_twoNodes :
    ∃ labels world, Run (Step twoNodes) World.initial labels world ∧
      Quiet world ∧ ∀ endpoint, ∃ flags,
        (world.turn (twoNodes.node endpoint)).state.setStatePeers.lookup 1 =
          some flags ∧ flags.completedHandshake = true := by
  have offered : Run (Step twoNodes) World.initial _ _ :=
    .tail (.tail (.tail (.refl _) (.connect dialling 0 rfl rfl))
      (.send true rfl)) (.connect accepting 0 rfl rfl)
  have answered : Run (Step twoNodes) World.initial _ _ :=
    .tail (.tail (offered.tail (.deliver accepting 0 rfl rfl rfl))
      (.send false rfl)) (.deliver dialling 0 rfl rfl rfl)
  have exchanged : Run (Step twoNodes) World.initial _ _ :=
    .tail (answered.tail (.send false rfl)) (.send true rfl)
  have run : Run (Step twoNodes) World.initial _ _ :=
    .tail (exchanged.tail (.deliver accepting 0 rfl rfl rfl))
      (.deliver dialling 0 rfl rfl rfl)
  refine ⟨_, _, run, ?quiet, (handshake_agreement twoNodes run).2.2.2 ?quiet⟩
  constructor
  · rintro ⟨⟨⟩, _ | _⟩ <;> rfl
  · rintro ⟨⟨⟩, _ | _⟩ <;> rfl
  · rintro (_ | _) self event resume hturn <;> cases hturn

end P2PNetwork.Links
