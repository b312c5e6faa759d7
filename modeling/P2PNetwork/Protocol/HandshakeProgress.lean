import P2PNetwork.Protocol.HandshakeAgreement

/-!
# The handshake completes

A link takes ten steps from its two announcements to the end of its handshake:
four messages are sent and delivered.  Whatever the order in which the nodes
take their events, nothing else happens, and until all links have taken their
steps one of the nodes can go on.
-/

namespace P2PNetwork.Links

open P2PNetwork.EventLoop
open P2PNetwork.Events
open P2PNetwork.Handler
open P2PNetwork.Handshake
open P2PNetwork.Wire

instance : Fintype TypeConnection where
  elems := {.incomingConnection, .outgoingConnection}
  complete typeConnect := by cases typeConnect <;> simp

theorem card_typeConnection : Fintype.card TypeConnection = 2 := rfl

/-! ## Counting by flags -/

/-- The messages of the handshake that the node of an end has sent. -/
def sent : Option PeerStateMetadata → ℕ
  | none => 0
  | some flags => flags.sendVersion.toNat + flags.sendVerack.toNat

/-- The messages of the handshake that the node of an end has taken. -/
def received : Option PeerStateMetadata → ℕ
  | none => 0
  | some flags => flags.recvVersion.toNat + flags.recvVerack.toNat

theorem sent_le (flags : Option PeerStateMetadata) : sent flags ≤ 2 := by
  cases flags with
  | none => exact Nat.zero_le _
  | some flags =>
      exact Nat.add_le_add flags.sendVersion.toNat_le flags.sendVerack.toNat_le

theorem Waiting.counts {incoming : Option PeerStateMetadata}
    (hwaiting : Waiting incoming) : sent incoming = 0 ∧ received incoming = 0 := by
  cases incoming with
  | none => exact ⟨rfl, rfl⟩
  | some flags =>
      rw [hwaiting flags rfl]
      exact ⟨rfl, rfl⟩

/-- What was sent and not taken is on the way. -/
theorem LinkStage.sent_eq {outgoing incoming : Option PeerStateMetadata}
    {toOutgoing toIncoming : List MessagePayload}
    (hstage : LinkStage outgoing incoming toOutgoing toIncoming) :
    sent outgoing = toIncoming.length + received incoming ∧
      sent incoming = toOutgoing.length + received outgoing := by
  cases hstage with
  | unoffered hwaiting =>
      obtain ⟨hsent, hreceived⟩ := hwaiting.counts
      rw [hsent, hreceived]
      exact ⟨rfl, rfl⟩
  | offered hwaiting hvalid =>
      obtain ⟨hsent, hreceived⟩ := hwaiting.counts
      rw [hsent, hreceived]
      exact ⟨rfl, rfl⟩
  | answered | exchanged | outgoingAgreed | incomingAgreed | agreed =>
      exact ⟨rfl, rfl⟩

theorem EndStage.sent_eq {typeConnect : TypeConnection}
    {own other : Option PeerStateMetadata} {toOwn toOther : List MessagePayload}
    (hstage : EndStage typeConnect own other toOwn toOther) :
    sent other = toOwn.length + received own := by
  cases typeConnect with
  | outgoingConnection => exact (LinkStage.sent_eq hstage).2
  | incomingConnection => exact (LinkStage.sent_eq hstage).1

/-- When nothing is on the way between two announced ends, both have taken all
messages. -/
theorem EndStage.received_eq {typeConnect : TypeConnection}
    {own other : PeerStateMetadata}
    (hstage : EndStage typeConnect (some own) (some other) [] []) :
    received (some own) = 2 := by
  cases typeConnect <;> cases hstage <;> rfl

/-! ## The steps taken -/

variable {Node Link : Type} [DecidableEq Node] [DecidableEq Link]
variable {topology : Topology Node Link} {world after : World Node Link}

/-- The steps taken for an end so far: its announcement, the sends of the
messages to it, and their deliveries. -/
def World.taken (topology : Topology Node Link) (world : World Node Link)
    (endpoint : End Link) : ℕ :=
  (world.connected endpoint).toNat + (world.inbox endpoint).length +
    2 * received (world.flags topology endpoint)

/-- What a node is about to enqueue goes to an end of one of its links. -/
def Addressed (topology : Topology Node Link) (world : World Node Link) : Prop :=
  ∀ node, ∀ event ∈ (world.settled node).1, ∃ endpoint message,
    topology.node endpoint = node ∧
      event = .readyMessage (topology.peerid endpoint) message

section Take

variable {endpoint : End Link} {self : HandleMessage} {turn : HandleTurn}
variable {call : Option HandleMsg} {messages : List MessagePayload}
variable {context : PeerContextMetadata} {flags : PeerStateMetadata}
variable {inbox : End Link → List MessagePayload}

omit [DecidableEq Node] [DecidableEq Link] in
theorem Agreeing.settles_connect (hagreeing : Agreeing topology world)
    (now : UInt64)
    (hidle : world.turn (topology.node endpoint) = .done self .next)
    (hfresh : world.connected endpoint = false) :
    ∃ flags messages, Settles (topology.peerid endpoint) self
      (HandleMessage.turn (.incidentPeermanager (.ok now)
        (some (.incidentNewConnection (topology.connection endpoint)))) self)
      messages (contextMetadata (topology.connection endpoint)) flags := by
  have hsettled := settled_of_turn hidle
  have hflags : world.flags topology endpoint = none := by
    simpa [hfresh] using hagreeing.connected endpoint
  have hcontext : world.context topology endpoint = none := by
    simpa [hfresh] using hagreeing.contexts endpoint
  have hstage : EndStage (topology.connection endpoint).typeConnection _ _ _ _ :=
    hagreeing.stages endpoint
  rw [hflags] at hstage
  simp only [World.flags, World.context, hsettled,
    AList.lookup_eq_none] at hflags hcontext
  obtain ⟨flags, messages, hsettles, -⟩ := hstage.connect now hcontext hflags
  exact ⟨flags, messages, hsettles⟩

omit [DecidableEq Node] [DecidableEq Link] in
theorem Agreeing.settles_deliver (hagreeing : Agreeing topology world)
    (now : UInt64) {message : MessagePayload} {rest : List MessagePayload}
    (hidle : world.turn (topology.node endpoint) = .done self .next)
    (hconnected : world.connected endpoint = true)
    (hinbox : world.inbox endpoint = message :: rest) :
    ∃ flags messages, Settles (topology.peerid endpoint) self
      (HandleMessage.turn (.incidentPeermanager (.ok now)
        (some (.readyMessage (topology.peerid endpoint) message))) self)
      messages (contextMetadata (topology.connection endpoint)) flags := by
  have hsettled := settled_of_turn hidle
  have hsome := hagreeing.connected endpoint
  rw [hconnected, Option.isSome_iff_exists] at hsome
  obtain ⟨flags, hflags⟩ := hsome
  have hcontext : world.context topology endpoint =
      some (contextMetadata (topology.connection endpoint)) := by
    simpa [hconnected] using hagreeing.contexts endpoint
  have hstage := hagreeing.stages endpoint
  rw [hflags] at hstage
  nth_rewrite 1 [World.arriving] at hstage
  rw [hinbox, List.cons_append] at hstage
  simp only [World.flags, World.context, hsettled] at hflags hcontext
  have htype : (contextMetadata (topology.connection endpoint)).typeConnect =
      endpoint.2 := rfl
  obtain ⟨flags', messages, hcall, -⟩ :=
    hstage.deliver now (topology.peerid endpoint) htype
  exact ⟨flags', messages, settles_readyMessage hcontext hflags hcall⟩

/-- What an end takes from its inbox it has received. -/
theorem received_take (hagreeing : Agreeing topology world)
    (hafter : Agreeing topology (world.take topology endpoint turn call inbox))
    (hidle : world.turn (topology.node endpoint) = .done self .next)
    (hsettles : Settles (topology.peerid endpoint) self turn messages context
      flags) :
    (inbox endpoint).length + received
        ((world.take topology endpoint turn call inbox).flags topology endpoint) =
      (world.inbox endpoint).length +
        received (world.flags topology endpoint) := by
  have hne := opposite_ne endpoint
  have hbefore := (hagreeing.stages endpoint).sent_eq
  have hnext := (hafter.stages endpoint).sent_eq
  rw [flags_take hidle hsettles (opposite endpoint), if_neg hne,
    arriving_take hidle hsettles, if_neg hne, List.append_nil, hbefore] at hnext
  simp only [World.arriving, List.length_append] at hnext
  omega

/-- The other ends of a node are not touched by what it takes. -/
theorem taken_take_of_ne
    (hidle : world.turn (topology.node endpoint) = .done self .next)
    (hsettles : Settles (topology.peerid endpoint) self turn messages context
      flags)
    (hinbox : ∀ other, other ≠ endpoint → inbox other = world.inbox other)
    {other : End Link} (hother : other ≠ endpoint) :
    (world.take topology endpoint turn call inbox).taken topology other =
      world.taken topology other := by
  rw [World.taken, flags_take hidle hsettles, if_neg hother]
  simp [World.taken, World.take, hother, hinbox other hother]

theorem Addressed.take (haddressed : Addressed topology world)
    (hsettles : Settles (topology.peerid endpoint) self turn messages context
      flags) : Addressed topology (world.take topology endpoint turn call inbox) := by
  intro node event hevent
  obtain ⟨settled, hrun, -, -⟩ := hsettles
  rw [settled_take, hrun] at hevent
  split at hevent
  case isTrue hnode =>
    obtain ⟨message, -, rfl⟩ := List.mem_map.mp hevent
    exact ⟨endpoint, message, hnode.symm, rfl⟩
  case isFalse => exact haddressed node event hevent

end Take

section Send

variable {node : Node} {self : HandleMessage} {resume : Bool → HandleTurn}
variable {event : EventsHandleMessage}

omit [DecidableEq Link] in
theorem Addressed.send (haddressed : Addressed topology world)
    (hturn : world.turn node = .issue self event resume) :
    Addressed topology (world.send topology node event (resume true)) := by
  intro other event' hevent
  rw [settled_send] at hevent
  split at hevent
  case isTrue heq =>
    subst heq
    apply haddressed other
    rw [settled_of_issue hturn]
    exact List.mem_cons_of_mem _ hevent
  case isFalse => exact haddressed other event' hevent

/-- An accepted send is a step of the end that the message goes to. -/
theorem taken_send (haddressed : Addressed topology world)
    (hturn : world.turn node = .issue self event resume) :
    ∃ endpoint,
      (world.send topology node event (resume true)).taken topology endpoint =
        world.taken topology endpoint + 1 ∧
      ∀ other, other ≠ endpoint →
        (world.send topology node event (resume true)).taken topology other =
          world.taken topology other := by
  have hmem : event ∈ (world.settled node).1 := by
    rw [settled_of_issue hturn]
    exact List.mem_cons_self
  obtain ⟨sender, message, hnode, rfl⟩ := haddressed node event hmem
  have hflags (other : End Link) :
      (world.send topology node (.readyMessage (topology.peerid sender) message)
        (resume true)).flags topology other = world.flags topology other := by
    rw [World.flags, World.flags, tables_send hturn]
  have hinbox (other : End Link) :
      (world.send topology node (.readyMessage (topology.peerid sender) message)
        (resume true)).inbox other =
      if opposite other = sender then world.inbox other ++ [message]
      else world.inbox other := by
    simp only [World.send, World.enqueue, ← hnode, topology.eq_iff]
  refine ⟨opposite sender, ?_, fun other hother => ?_⟩
  · rw [World.taken, World.taken, hflags, hinbox, opposite_opposite, if_pos rfl]
    simp only [World.send, World.enqueue, List.length_append,
      List.length_singleton]
    omega
  · have hne : opposite other ≠ sender := by
      rintro rfl
      exact hother (opposite_opposite other).symm
    rw [World.taken, World.taken, hflags, hinbox, if_neg hne]
    rfl

end Send

/-! ## Runs -/

section Runs

variable [Fintype Link]

theorem sum_succ {ι : Type} [Fintype ι] [DecidableEq ι] {before after : ι → ℕ}
    (index : ι) (hindex : after index = before index + 1)
    (hother : ∀ other, other ≠ index → after other = before other) :
    ∑ other, after other = ∑ other, before other + 1 := by
  have hrest : ∑ other ∈ Finset.univ.erase index, after other =
      ∑ other ∈ Finset.univ.erase index, before other :=
    Finset.sum_congr rfl fun other hmem => hother other (Finset.ne_of_mem_erase hmem)
  calc ∑ other, after other
      = after index + ∑ other ∈ Finset.univ.erase index, after other :=
        (Finset.add_sum_erase _ after (Finset.mem_univ index)).symm
    _ = before index + ∑ other ∈ Finset.univ.erase index, before other + 1 := by
        rw [hindex, hrest, Nat.add_right_comm]
    _ = ∑ other, before other + 1 := by
        rw [Finset.add_sum_erase _ before (Finset.mem_univ index)]

/-- Every step is a step of one end. -/
theorem Agreeing.taken_step (hagreeing : Agreeing topology world)
    (haddressed : Addressed topology world) {label : Label Node Link}
    (hstep : Step topology world label after) :
    Addressed topology after ∧
      ∑ endpoint, after.taken topology endpoint =
        ∑ endpoint, world.taken topology endpoint + 1 := by
  have hafter := hagreeing.step hstep
  cases hstep with
  | connect endpoint now hidle hfresh =>
      obtain ⟨flags, messages, hsettles⟩ :=
        hagreeing.settles_connect now hidle hfresh
      have hreceived := received_take hagreeing hafter hidle hsettles
      refine ⟨haddressed.take hsettles, sum_succ endpoint ?_ fun other hother =>
        taken_take_of_ne hidle hsettles (fun _ _ => rfl) hother⟩
      simp only [World.taken, World.take, Function.update_self, hfresh,
        Bool.toNat_true, Bool.toNat_false] at hreceived ⊢
      omega
  | @deliver self message rest endpoint now hidle hconnected hinbox =>
      obtain ⟨flags, messages, hsettles⟩ :=
        hagreeing.settles_deliver now hidle hconnected hinbox
      have hreceived := received_take hagreeing hafter hidle hsettles
      refine ⟨haddressed.take hsettles, sum_succ endpoint ?_ fun other hother =>
        taken_take_of_ne hidle hsettles (fun _ hne => by simp [hne]) hother⟩
      rw [Function.update_self, hinbox, List.length_cons] at hreceived
      simp only [World.taken, hconnected, hinbox, List.length_cons]
      simp only [World.take, Function.update_self] at hreceived ⊢
      omega
  | send node hturn =>
      obtain ⟨endpoint, hindex, hother⟩ := taken_send haddressed hturn
      exact ⟨haddressed.send hturn, sum_succ endpoint hindex hother⟩

theorem taken_run {labels : List (Label Node Link)}
    (run : Run (Step topology) World.initial labels world) :
    Agreeing topology world ∧ Addressed topology world ∧
      ∑ endpoint, world.taken topology endpoint = labels.length := by
  induction run with
  | refl =>
      refine ⟨.initial topology, fun node event hevent => ?_, ?_⟩
      · simp [World.settled, World.initial] at hevent
      · apply Finset.sum_eq_zero
        intro endpoint hmem
        simp [World.taken, World.initial, World.flags, World.settled,
          HandleMessage.create, received]
  | tail run hstep ih =>
      obtain ⟨hagreeing, haddressed, hsum⟩ := ih
      obtain ⟨hafter, hsucc⟩ := hagreeing.taken_step haddressed hstep
      refine ⟨hagreeing.step hstep, hafter, ?_⟩
      rw [hsucc, hsum, List.length_append, List.length_singleton]

omit [DecidableEq Node] [DecidableEq Link] [Fintype Link] in
/-- No more than five steps are taken for an end. -/
theorem Agreeing.taken_le (hagreeing : Agreeing topology world)
    (endpoint : End Link) : world.taken topology endpoint ≤ 5 := by
  have hconnected := (world.connected endpoint).toNat_le
  have hsent := sent_le (world.flags topology (opposite endpoint))
  rw [(hagreeing.stages endpoint).sent_eq, World.arriving, List.length_append]
    at hsent
  simp only [World.taken]
  omega

omit [DecidableEq Node] [DecidableEq Link] [Fintype Link] in
/-- When nothing is on the way, all steps of an end have been taken. -/
theorem Agreeing.taken_of_quiet (hagreeing : Agreeing topology world)
    (hquiet : Quiet world) (endpoint : End Link) :
    world.taken topology endpoint = 5 := by
  have harriving (endpoint : End Link) :
      world.arriving topology endpoint = [] := by
    cases hturn : world.turn (topology.node (opposite endpoint)) with
    | done self flow =>
        simp [World.arriving, World.pending, World.settled, hturn,
          hquiet.inbox endpoint]
    | issue self event resume => exact absurd hturn (hquiet.turn _ _ _ _)
  have hsome (endpoint : End Link) :
      ∃ flags, world.flags topology endpoint = some flags := by
    rw [← Option.isSome_iff_exists, hagreeing.connected endpoint]
    exact hquiet.connected endpoint
  obtain ⟨flags, hflags⟩ := hsome endpoint
  obtain ⟨other, hother⟩ := hsome (opposite endpoint)
  have hstage := hagreeing.stages endpoint
  rw [harriving, harriving, hflags, hother] at hstage
  rw [World.taken, hflags, hstage.received_eq, hquiet.connected endpoint,
    hquiet.inbox endpoint]
  rfl

omit [Fintype Link] in
/-- A network that cannot go on is quiet. -/
theorem Agreeing.quiet (hagreeing : Agreeing topology world)
    (hstuck : ∀ label after, ¬ Step topology world label after) :
    Quiet world := by
  have hturn (node : Node) (self : HandleMessage) (event : EventsHandleMessage)
      (resume : Bool → HandleTurn) : world.turn node ≠ .issue self event resume :=
    fun hissue => hstuck _ _ (.send node hissue)
  have hidle (node : Node) : ∃ self, world.turn node = .done self .next := by
    cases hphase : world.turn node with
    | done self flow =>
        have hflow := hagreeing.flows node
        rw [World.settled, hphase, Await.runWith_done] at hflow
        exact ⟨self, by rw [← hflow]⟩
    | issue self event resume => exact absurd hphase (hturn _ _ _ _)
  have hconnected (endpoint : End Link) : world.connected endpoint = true := by
    by_contra hfresh
    obtain ⟨self, hphase⟩ := hidle (topology.node endpoint)
    exact hstuck _ _ (.connect endpoint 0 hphase (by simpa using hfresh))
  refine ⟨hconnected, fun endpoint => ?_, hturn⟩
  obtain ⟨self, hphase⟩ := hidle (topology.node endpoint)
  cases hinbox : world.inbox endpoint with
  | nil => rfl
  | cons message rest =>
      exact (hstuck _ _ (.deliver endpoint 0 hphase (hconnected endpoint)
        hinbox)).elim

omit [DecidableEq Link] in
theorem sum_five : ∑ _endpoint : End Link, 5 = 10 * Fintype.card Link := by
  rw [Finset.sum_const, Finset.card_univ, Fintype.card_prod, card_typeConnection,
    smul_eq_mul]
  omega

/-- The handshakes of any number of links take ten steps each.  Until then the
network can go on, whatever it has done so far, and then both ends of every
link have completed the handshake. -/
theorem handshake_completes (topology : Topology Node Link)
    {labels : List (Label Node Link)}
    (run : Run (Step topology) World.initial labels world) :
    labels.length ≤ 10 * Fintype.card Link ∧
      (labels.length < 10 * Fintype.card Link →
        ∃ label after, Step topology world label after) ∧
      (labels.length = 10 * Fintype.card Link → ∀ endpoint, ∃ flags,
        (world.turn (topology.node endpoint)).state.setStatePeers.lookup
            (topology.peerid endpoint) = some flags ∧
          flags.completedHandshake = true) := by
  have hbound {world : World Node Link} {labels : List (Label Node Link)}
      (run : Run (Step topology) World.initial labels world) :
      labels.length ≤ 10 * Fintype.card Link := by
    obtain ⟨hagreeing, -, hsum⟩ := taken_run run
    rw [← hsum, ← sum_five]
    exact Finset.sum_le_sum fun endpoint _ => hagreeing.taken_le endpoint
  obtain ⟨hagreeing, -, hsum⟩ := taken_run run
  refine ⟨hbound run, fun hless => ?_, fun hall => ?_⟩
  · by_contra hstuck
    have hquiet : Quiet world :=
      hagreeing.quiet fun label after hstep => hstuck ⟨label, after, hstep⟩
    rw [Finset.sum_congr rfl fun endpoint _ =>
      hagreeing.taken_of_quiet hquiet endpoint, sum_five] at hsum
    omega
  · refine hagreeing.completed (hagreeing.quiet fun label after hstep => ?_)
    have hlonger := hbound (run.tail hstep)
    rw [List.length_append, List.length_singleton] at hlonger
    omega

end Runs

/-- The dialling node has offered its version, and the network can go on. -/
theorem handshake_completes_twoNodes : ∃ labels world label after,
    Run (Step twoNodes) World.initial labels world ∧ labels.length = 2 ∧
      Step twoNodes world label after := by
  have offered : Run (Step twoNodes) World.initial _ _ :=
    .tail (.tail (.refl _) (.connect dialling 0 rfl rfl)) (.send true rfl)
  obtain ⟨label, after, hstep⟩ :=
    (handshake_completes twoNodes offered).2.1 (by decide)
  exact ⟨_, _, label, after, offered, rfl, hstep⟩

end P2PNetwork.Links
