import P2PNetwork.Runtime.Arrivals
import P2PNetwork.Runtime.Dispatch
import P2PNetwork.Runtime.Entries

/-!
# Conversations

A connection is announced to `HandleMessage` once, and nothing has been sent for
it or heard from it before.  From then on what has been sent and heard goes with
the flags of its entry, so every connection is opened at most once: by a version
message that was built for it, and a verack.
-/

namespace P2PNetwork.Runtime

open P2PNetwork.EventLoop
open P2PNetwork.Events
open P2PNetwork.FiniteTable
open P2PNetwork.Handler
open P2PNetwork.Handshake
open P2PNetwork.Manager
open P2PNetwork.PeerActor
open P2PNetwork.Wire

/-! ## What is heard -/

/-- The message of an event that `HandleMessage` takes up. -/
def incoming : EventsPeerManager → List MessagePayload
  | .readyMessage _ message => [message]
  | _ => []

/-- The messages of a connection, in order. -/
def hearings (connection : TaskId) (items : List (Tagged EventsPeerManager)) :
    List MessagePayload :=
  (ofConnection connection items).flatMap incoming

section Hearings

variable {connection : TaskId} {item : Tagged EventsPeerManager}

@[simp]
theorem hearings_append (connection : TaskId)
    (left right : List (Tagged EventsPeerManager)) :
    hearings connection (left ++ right) =
      hearings connection left ++ hearings connection right := by
  simp [hearings]

theorem hearings_eq_nil {items : List (Tagged EventsPeerManager)}
    (hitems : ∀ item ∈ items, item.connection ≠ connection) :
    hearings connection items = [] := by
  rw [hearings, ofConnection_eq_nil.mpr hitems]
  rfl

theorem hearings_self (item : Tagged EventsPeerManager) :
    hearings item.connection [item] = incoming item.event := by
  simp [hearings]

theorem hearings_of_ne (hne : item.connection ≠ connection) :
    hearings connection [item] = [] := by
  simp [hearings, hne]

end Hearings

/-! ## Queued starts -/

/-- The connections whose start is queued. -/
def starts (queue : List (Tagged EventsPeerManager)) : List TaskId :=
  queue.filterMap fun item =>
    match item.event with
    | .incidentNewConnection _ => some item.connection
    | _ => none

/-- When `HandleMessage` takes the start of a connection, nobody owns the
records of its id. -/
def StartsUnowned :
    (PeerId → Option TaskId) → List (Tagged EventsPeerManager) → Prop
  | _, [] => True
  | owner, item :: rest =>
      (∀ context, item.event = .incidentNewConnection context →
        owner context.peerid = none) ∧
      StartsUnowned (ownerAfter owner item) rest

/-- The start of a connection does not come after anything else of it. -/
def StartsFirst (queue : List (Tagged EventsPeerManager)) : Prop :=
  queue.Pairwise fun item later => item.connection ∉ starts [later]

section Queue

variable {owner : PeerId → Option TaskId} {item : Tagged EventsPeerManager}
variable {queue : List (Tagged EventsPeerManager)} {connection : TaskId}

@[simp]
theorem starts_append (left right : List (Tagged EventsPeerManager)) :
    starts (left ++ right) = starts left ++ starts right :=
  List.filterMap_append

theorem mem_starts : connection ∈ starts queue ↔
    ∃ item ∈ queue, item.connection = connection ∧
      ∃ context, item.event = .incidentNewConnection context := by
  simp only [starts, List.mem_filterMap]
  constructor
  · rintro ⟨item, hitem, hstart⟩
    split at hstart
    case h_1 context hevent =>
      exact ⟨item, hitem, Option.some.inj hstart, context, hevent⟩
    case h_2 => cases hstart
  · rintro ⟨item, hitem, rfl, context, hevent⟩
    exact ⟨item, hitem, by simp [hevent]⟩

theorem starts_singleton_of_ne
    (hevent : ∀ context, item.event ≠ .incidentNewConnection context) :
    starts [item] = [] := by
  rw [List.eq_nil_iff_forall_not_mem]
  intro connection hstart
  obtain ⟨other, hother, -, context, hnew⟩ := mem_starts.mp hstart
  rw [List.mem_singleton.mp hother] at hnew
  exact hevent context hnew

theorem startsUnowned_append :
    StartsUnowned owner (queue ++ [item]) ↔
      StartsUnowned owner queue ∧
        ∀ context, item.event = .incidentNewConnection context →
          replay owner queue context.peerid = none := by
  induction queue generalizing owner with
  | nil => simp [StartsUnowned, replay]
  | cons first rest ih =>
      simp only [List.cons_append, StartsUnowned, ih, and_assoc]
      rfl

theorem StartsFirst.append (hfirst : StartsFirst queue)
    (hitem : ∀ other ∈ queue, other.connection ∉ starts [item]) :
    StartsFirst (queue ++ [item]) := by
  apply List.pairwise_append.mpr
  refine ⟨hfirst, List.pairwise_singleton _ _, fun other hother later hlater => ?_⟩
  rw [List.mem_singleton.mp hlater]
  exact hitem other hother

/-- What is at the head of the queue is not of a connection that starts later. -/
theorem StartsFirst.not_mem (hfirst : StartsFirst (item :: queue)) :
    item.connection ∉ starts queue := by
  intro hstart
  obtain ⟨later, hlater, hconnection⟩ := mem_starts.mp hstart
  apply (List.pairwise_cons.mp hfirst).1 later hlater
  exact mem_starts.mpr ⟨later, List.mem_singleton.mpr rfl, hconnection⟩

end Queue

/-! ## The conversations of a node -/

/-- A node with the record of what passes between `HandleMessage` and the
peers. -/
abbrev Recorded := (System × Dispatch) × Arrivals

/-- The steps of a node whose connections are fresh, with the whole record. -/
abbrev RecordedDispatch : Recorded → Label → Recorded → Prop :=
  Traced DispatchStep fun arrivals reached label => arrivals.after reached.1 label

namespace Recorded

variable (reached : Recorded)

/-- What has been sent for a connection. -/
def sent (connection : TaskId) : List MessagePayload :=
  payloads connection reached.1.2.sent

/-- What has been heard from a connection. -/
def heard (connection : TaskId) : List MessagePayload :=
  hearings connection reached.2.handled

/-- What is known of a connection. -/
def known (connection : TaskId) : Option PeerContextMetadata :=
  reached.1.2.accepted connection

end Recorded

/-- The entry of a connection goes with what has been sent and heard. -/
def Converses (known : TaskId → Option PeerContextMetadata)
    (sent heard : TaskId → List MessagePayload) (connection : TaskId)
    (context : PeerContextMetadata) (state : PeerStateMetadata) : Prop :=
  known connection = some context ∧
    Dialogue context state (sent connection) (heard connection)

/-- What was said for a connection is in place. -/
def SpokenFor (known : TaskId → Option PeerContextMetadata)
    (heard : TaskId → List MessagePayload) (connection : TaskId)
    (sent : List MessagePayload) : Prop :=
  ∃ context, known connection = some context ∧
    Spoken context sent (heard connection)

/-- Every stop and the end of a turn for the connection keep the
conversations. -/
def KeepsConversations (known : TaskId → Option PeerContextMetadata)
    (sent heard : TaskId → List MessagePayload)
    (owner : PeerId → Option TaskId) (connection : TaskId) (turn : HandleTurn) :
    Prop :=
  turn.Holds sendsMore
    (fun messages self event =>
      Entries owner
          (Converses known (Function.update sent connection messages) heard) self ∧
        SpokenFor known heard connection (messages ++ outgoing event))
    (fun messages self _ =>
      Entries owner
        (Converses known (Function.update sent connection messages) heard) self)
    (sent connection)

/-- Nothing has been sent for the connection or heard from it, and nothing is
about to be. -/
structure Unheard (reached : Recorded) (connection : TaskId) : Prop where
  unsent : reached.sent connection = []
  silent : reached.heard connection = []
  unowned : ∀ peerid, reached.1.1.owners.state peerid ≠ some connection
  unhandled : ∀ self event resume, reached.1.1.handle = .issue self event resume →
    reached.1.1.handling ≠ connection

/-- Every connection is announced once, and from then on what has been sent and
heard goes with the flags of its entry. -/
structure Conversing (nonce : UInt64) (reached : Recorded) : Prop where
  node : reached.1.1.manager.registry.nonce = nonce
  accepted : ∀ connection context, reached.known connection = some context →
    context.nonce = nonce
  first : StartsFirst reached.1.1.reports
  unheard : ∀ connection ∈ starts reached.1.1.reports, Unheard reached connection
  unowned : ¬ HasLeft reached.1.1.handle →
    StartsUnowned reached.1.1.owners.state reached.1.1.reports
  reports : ∀ item ∈ reached.1.1.reports, ∀ context,
    item.event = .incidentNewConnection context →
      reached.known item.connection = some (contextMetadata context)
  conversations : KeepsConversations reached.known reached.sent reached.heard
    reached.1.1.owners.state reached.1.1.handling reached.1.1.handle
  spoken : ∀ connection, reached.sent connection ≠ [] →
    SpokenFor reached.known reached.heard connection (reached.sent connection)

section Turns

variable {known known' : TaskId → Option PeerContextMetadata}
variable {sent heard : TaskId → List MessagePayload}
variable {owner : PeerId → Option TaskId} {connection : TaskId}

theorem converses_update (messages : List MessagePayload) :
    Function.update (Converses known sent heard) connection
        (fun context state => known connection = some context ∧
          Dialogue context state messages (heard connection)) =
      Converses known (Function.update sent connection messages) heard := by
  funext other context state
  by_cases hother : other = connection
  · subst hother
    simp only [Converses, Function.update_self]
  · simp only [Converses, Function.update_of_ne hother]

theorem entries_congr {tables : HandleMessage}
    (hentries : Entries owner (Converses known sent heard) tables)
    (howners : ∀ peerid holder, owner peerid = some holder →
      known' holder = known holder) :
    Entries owner (Converses known' sent heard) tables := by
  refine hentries.mono fun peerid holder context state howner hconverses => ?_
  rw [Converses, howners peerid holder howner]
  exact hconverses

/-- Only what is known of the connections at hand matters. -/
theorem KeepsConversations.congr {turn : HandleTurn}
    (hkeeps : KeepsConversations known sent heard owner connection turn)
    (howners : ∀ peerid holder, owner peerid = some holder →
      known' holder = known holder)
    (hissue : ∀ self event resume, turn = .issue self event resume →
      known' connection = known connection) :
    KeepsConversations known' sent heard owner connection turn := by
  cases turn with
  | done self flow => exact entries_congr hkeeps howners
  | issue self event resume =>
      have hsame := hissue self event resume rfl
      apply Await.Holds.mono hkeeps
      · intro messages reached event hstop
        rw [SpokenFor, hsame]
        exact ⟨entries_congr hstop.1 howners, hstop.2⟩
      · intro messages reached flow hentries
        exact entries_congr hentries howners

/-- `HandleMessage` takes up an event. -/
theorem turn_keepsConversations {item : Tagged EventsPeerManager}
    {tables : HandleMessage}
    (hentries : Entries owner (Converses known sent heard) tables)
    (howned : Owned owner tables)
    (hrecords : ∀ peerid message, item.event = .readyMessage peerid message →
      peerid ∈ tables.setContextPeers → peerid ∈ tables.setStatePeers →
        owner peerid = some item.connection)
    (hinjective : ∀ peerid message, item.event = .readyMessage peerid message →
      ∀ other, owner other = some item.connection → other = peerid)
    (hstart : ∀ context, item.event = .incidentNewConnection context →
      owner context.peerid = none ∧ ∀ other, owner other ≠ some item.connection)
    (hknown : ∀ context, item.event = .incidentNewConnection context →
      known item.connection = some (contextMetadata context) ∧
        sent item.connection = [] ∧ heard item.connection = [])
    (now : Except SystemTimeError UInt64) :
    KeepsConversations known sent
      (Function.update heard item.connection
        (heard item.connection ++ incoming item.event))
      (ownerAfter owner item) item.connection
      (HandleMessage.turn (.incidentPeermanager now (some item.event)) tables) := by
  set heard' := Function.update heard item.connection
    (heard item.connection ++ incoming item.event) with hheard
  -- what was heard from the other connections is what it was
  have hothers (messages : List MessagePayload) :
      Function.update (Converses known sent heard) item.connection
          (fun context state => known item.connection = some context ∧
            Dialogue context state messages (heard' item.connection)) =
        Converses known (Function.update sent item.connection messages) heard' := by
    rw [← converses_update]
    funext other context state
    by_cases hother : other = item.connection
    · rw [hother, Function.update_self, Function.update_self]
    · simp only [Converses, hheard, Function.update_of_ne hother]
  have hturn := @turn_turnHolds (List MessagePayload) sendsMore
    (fun messages context state => known item.connection = some context ∧
      Dialogue context state messages (heard' item.connection))
    (fun messages context state => known item.connection = some context ∧
      Dialogue context state messages (heard' item.connection))
    (fun messages event =>
      SpokenFor known heard' item.connection (messages ++ outgoing event))
    (sent item.connection) owner (Converses known sent heard) tables item hentries
    howned hrecords hstart hinjective now ?_ ?_ ?_
  · simp only [TurnHolds, hothers] at hturn
    exact hturn
  · intro peerid message hready context state hconverses
    obtain ⟨hcontext, hdialogue⟩ := hconverses
    have hsame : heard' item.connection = heard item.connection ++ [message] := by
      rw [hheard, Function.update_self, hready]
      rfl
    have hkeeps := (handleMsg_keepsDialogue hdialogue now peerid message).spoken
    rw [← hsame] at hkeeps
    apply Await.Holds.mono hkeeps
    · intro messages reached event hstop
      exact ⟨⟨hcontext, hstop.1⟩, context, hcontext, hstop.2⟩
    · intro messages reached result hdialogue
      exact ⟨hcontext, hdialogue⟩
  · intro context hnew
    obtain ⟨hcontext, hunsent, hsilent⟩ := hknown context hnew
    have hsame : heard' item.connection = [] := by
      rw [hheard, Function.update_self, hnew, hsilent]
      rfl
    rw [hunsent]
    apply Await.Holds.mono
      (greeting_keepsDialogue now context.peerid (contextMetadata context)).spoken
    · intro messages reached event hstop
      refine ⟨⟨hcontext, ?_⟩, contextMetadata context, hcontext, ?_⟩
      · rw [hsame]
        exact hstop.1
      · rw [hsame]
        exact hstop.2
    · intro messages reached result hdialogue
      rw [hsame]
      exact ⟨hcontext, hdialogue⟩
  · intro hquiet context state hconverses
    have hsame : heard' item.connection = heard item.connection := by
      rw [hheard, Function.update_self]
      cases hevent : item.event with
      | readyMessage peerid message =>
          exact absurd (.inl ⟨message, hevent⟩) (hquiet peerid)
      | _ => exact List.append_nil _
    rw [hsame]
    exact hconverses

end Turns

/-! ## Steps -/

section Steps

variable {before after : System} {label : Label} {nonce : UInt64}
variable {dispatch dispatch' : Dispatch} {arrivals arrivals' : Arrivals}
variable {current : PeerId → TaskId} {owner : PeerId → Option TaskId}

theorem Conversing.initial (nonce : UInt64) :
    Conversing nonce ((System.initial nonce, Dispatch.empty), Arrivals.empty) where
  node := rfl
  accepted connection context hknown := by cases hknown
  first := List.Pairwise.nil
  unheard connection hstart := by cases hstart
  unowned _ := trivial
  reports item hitem := by cases hitem
  conversations := fun peerid connection context state howner => by cases howner
  spoken connection hsent := absurd rfl hsent

/-- Only what is known of the next task changes. -/
theorem accepted_after (dispatch : Dispatch) (label : Label)
    {connection : TaskId} (hne : connection ≠ before.next) :
    (dispatch.after before label).accepted connection =
      dispatch.accepted connection := by
  cases label with
  | managerTake input => exact Function.update_of_ne hne _ _
  | handleSend delivered | managerSend delivered | peerWrite task delivered =>
      cases delivered <;> rfl
  | _ => rfl

theorem described_nonce {input : ManagerInput} {context : PeerContextMetadata}
    (hdescribed : described nonce input = some context) :
    context.nonce = nonce := by
  have hdescribe {socket : TcpStream} {address : SocketAddr}
      {typeConnect : TypeConnection}
      (hsome : describe nonce socket address typeConnect = some context) :
      context.nonce = nonce := by
    unfold describe at hsome
    split at hsome
    · cases hsome
      rfl
    · cases hsome
  unfold described at hdescribed
  split at hdescribed
  case h_1 | h_2 => exact hdescribe hdescribed
  case h_3 => cases hdescribed

theorem heard_congr (hhandled : arrivals'.handled = arrivals.handled) :
    Recorded.heard ((after, dispatch'), arrivals') =
      Recorded.heard ((before, dispatch), arrivals) := by
  funext connection
  exact congrArg (hearings connection) hhandled

/-- `HandleMessage` goes on as it was, and nothing passes. -/
theorem Conversing.frame
    (hconversing : Conversing nonce ((before, dispatch), arrivals))
    (hnamed : Named before) (hrouted : RoutedInOrder (before, dispatch))
    (howners : after.owners = before.owners) (hhandle : after.handle = before.handle)
    (hhandling : after.handling = before.handling)
    (hsent : dispatch'.sent = dispatch.sent)
    (hhandled : arrivals'.handled = arrivals.handled)
    (hknown : ∀ connection peerid, before.idOf connection = some peerid →
      dispatch'.accepted connection = dispatch.accepted connection)
    (hnode : after.manager.registry.nonce = nonce)
    (haccepted : ∀ connection context, dispatch'.accepted connection = some context →
      context.nonce = nonce)
    (hfirst : StartsFirst after.reports)
    (hunheard : ∀ connection ∈ starts after.reports,
      Unheard ((before, dispatch), arrivals) connection)
    (hunowned : ¬ HasLeft before.handle →
      StartsUnowned before.owners.state after.reports)
    (hreports : ∀ item ∈ after.reports, ∀ context,
      item.event = .incidentNewConnection context →
        dispatch'.accepted item.connection = some (contextMetadata context)) :
    Conversing nonce ((after, dispatch'), arrivals') := by
  have hsame : Recorded.sent ((after, dispatch'), arrivals') =
      Recorded.sent ((before, dispatch), arrivals) := by
    funext connection
    exact congrArg (payloads connection) hsent
  have hheard : Recorded.heard ((after, dispatch'), arrivals') =
      Recorded.heard ((before, dispatch), arrivals) := heard_congr hhandled
  constructor
  · exact hnode
  · exact haccepted
  · exact hfirst
  · intro connection hstart
    obtain ⟨hunsent, hsilent, hunowned, hunhandled⟩ := hunheard connection hstart
    constructor
    · rw [hsame]
      exact hunsent
    · rw [hheard]
      exact hsilent
    · rw [howners]
      exact hunowned
    · rw [hhandle, hhandling]
      exact hunhandled
  · rw [hhandle, howners]
    exact hunowned
  · exact hreports
  · rw [hhandle, hhandling, howners, hsame, hheard]
    apply hconversing.conversations.congr
    · intro peerid holder howner
      exact hknown holder peerid (hnamed.owners peerid holder howner)
    · intro self event resume hissue
      exact hknown _ _ (hnamed.handling self event resume hissue)
  · intro connection hspoke
    rw [hsame] at hspoke ⊢
    rw [hheard]
    obtain ⟨context, hcontext, hspoken⟩ := hconversing.spoken connection hspoke
    obtain ⟨message, hmessage⟩ := List.exists_mem_of_ne_nil _ hspoke
    obtain ⟨item, hitem, rfl, -⟩ := mem_payloads.mp hmessage
    refine ⟨context, ?_, hspoken⟩
    exact (hknown _ _ (hrouted.sent item hitem)).trans hcontext

end Steps

end P2PNetwork.Runtime
