import P2PNetwork.Protocol.HandshakeDialogue
import P2PNetwork.Runtime.Ownership

/-!
# One entry at a time

A turn of `HandleMessage` is about one connection, and touches the entry of no
other.  What has to be shown of a turn is therefore shown of the handlers of a
single peer; the entries of the others stay as they are.
-/

namespace P2PNetwork.Runtime

open P2PNetwork.Events
open P2PNetwork.FiniteTable
open P2PNetwork.Handler
open P2PNetwork.Handshake
open P2PNetwork.Wire

/-- What holds of the context and the flags of a connection's peer. -/
abbrev EntryFact := TaskId → PeerContextMetadata → PeerStateMetadata → Prop

/-- The fact holds of all entries, each with the connection that owns it. -/
def Entries (owner : PeerId → Option TaskId) (fact : EntryFact)
    (tables : HandleMessage) : Prop :=
  ∀ peerid connection context state, owner peerid = some connection →
    tables.setContextPeers.lookup peerid = some context →
    tables.setStatePeers.lookup peerid = some state →
      fact connection context state

section Tables

variable {owner : PeerId → Option TaskId} {fact fact' : EntryFact}
variable {tables : HandleMessage} {peerid : PeerId} {connection : TaskId}

theorem Entries.mono (hentries : Entries owner fact tables)
    (hfact : ∀ peerid connection context state, owner peerid = some connection →
      fact connection context state → fact' connection context state) :
    Entries owner fact' tables := by
  intro peerid connection context state howner hcontext hstate
  exact hfact peerid connection context state howner
    (hentries peerid connection context state howner hcontext hstate)

theorem Entries.update {own : PeerContextMetadata → PeerStateMetadata → Prop}
    (hentries : Entries owner fact tables)
    (hown : ∀ context state, fact connection context state → own context state) :
    Entries owner (Function.update fact connection own) tables := by
  intro peerid holder context state howner hcontext hstate
  have hfact := hentries peerid holder context state howner hcontext hstate
  by_cases hholder : holder = connection
  · subst hholder
    rw [Function.update_self]
    exact hown context state hfact
  · rw [Function.update_of_ne hholder]
    exact hfact

/-- Only the entry of the connection is replaced. -/
theorem Entries.setState {own : PeerContextMetadata → PeerStateMetadata → Prop}
    {context : PeerContextMetadata} {state : PeerStateMetadata}
    (hentries : Entries owner fact tables)
    (hcontext : tables.setContextPeers.lookup peerid = some context)
    (hinjective : ∀ other, owner other = some connection → other = peerid)
    (howner : owner peerid = some connection) (hown : own context state) :
    Entries owner (Function.update fact connection own)
      (tables.setState peerid state) := by
  intro other holder context' state' hholder hcontext' hstate'
  simp only [HandleMessage.setState, lookup_insert_ite] at hcontext' hstate'
  by_cases hother : other = peerid
  · subst hother
    rw [if_pos rfl, Option.some.injEq] at hstate'
    rw [hcontext, Option.some.injEq] at hcontext'
    rw [howner, Option.some.injEq] at hholder
    rw [← hholder, ← hcontext', ← hstate', Function.update_self]
    exact hown
  · have hne : holder ≠ connection := by
      rintro rfl
      exact hother (hinjective other hholder)
    rw [if_neg hother] at hstate'
    rw [Function.update_of_ne hne]
    exact hentries other holder context' state' hholder hcontext' hstate'

/-- The connection has no entry, so nothing has to be shown of it. -/
theorem Entries.absent {own : PeerContextMetadata → PeerStateMetadata → Prop}
    (hentries : Entries owner fact tables)
    (hinjective : ∀ other, owner other = some connection → other = peerid)
    (habsent : ¬(peerid ∈ tables.setContextPeers ∧
      peerid ∈ tables.setStatePeers)) :
    Entries owner (Function.update fact connection own) tables := by
  intro other holder context state hholder hcontext hstate
  have hne : holder ≠ connection := by
    rintro rfl
    obtain rfl := hinjective other hholder
    exact habsent ⟨mem_iff_lookup.mpr ⟨context, hcontext⟩,
      mem_iff_lookup.mpr ⟨state, hstate⟩⟩
  rw [Function.update_of_ne hne]
  exact hentries other holder context state hholder hcontext hstate

theorem Entries.completedPeer (hentries : Entries owner fact tables)
    (peerid : PeerId) :
    Entries (Function.update owner peerid none) fact
      (tables.completedPeer peerid) := by
  intro other holder context state hholder hcontext hstate
  simp only [HandleMessage.completedPeer, lookup_erase_ite] at hcontext hstate
  by_cases hother : other = peerid
  · rw [if_pos hother] at hcontext
    cases hcontext
  · rw [if_neg hother] at hcontext hstate
    rw [Function.update_of_ne hother] at hholder
    exact hentries other holder context state hholder hcontext hstate

/-- The entry of a new connection. -/
theorem Entries.addPeer {own : PeerContextMetadata → PeerStateMetadata → Prop}
    {context : StructContextConnection} (hentries : Entries owner fact tables)
    (howned : Owned owner tables) (hnone : owner context.peerid = none)
    (hunowned : ∀ other, owner other ≠ some connection)
    (hown : own (contextMetadata context) PeerStateMetadata.create) :
    Entries (Function.update owner context.peerid (some connection))
      (Function.update fact connection own) (tables.addPeer context) := by
  have hcontextNew : context.peerid ∉ tables.setContextPeers := by
    simp [howned.context, hnone]
  have hstateNew : context.peerid ∉ tables.setStatePeers := by
    simp [howned.state, hnone]
  intro other holder context' state' hholder hcontext' hstate'
  simp only [HandleMessage.addPeer, if_neg hcontextNew, if_neg hstateNew,
    lookup_insert_ite] at hcontext' hstate'
  by_cases hother : other = context.peerid
  · subst hother
    rw [if_pos rfl, Option.some.injEq] at hcontext' hstate'
    rw [Function.update_self, Option.some.injEq] at hholder
    rw [← hholder, ← hcontext', ← hstate', Function.update_self]
    exact hown
  · rw [if_neg hother] at hcontext' hstate'
    rw [Function.update_of_ne hother] at hholder
    have hne : holder ≠ connection := by
      rintro rfl
      exact hunowned other hholder
    rw [Function.update_of_ne hne]
    exact hentries other holder context' state' hholder hcontext' hstate'

end Tables

/-! ## Turns -/

section Turns

variable {γ : Type} {extend : γ → EventsHandleMessage → Bool → γ}
variable {own ended : γ → PeerContextMetadata → PeerStateMetadata → Prop}
variable {speaks : γ → EventsHandleMessage → Prop} {ghost : γ}
variable {owner : PeerId → Option TaskId} {fact : EntryFact}
variable {tables : HandleMessage} {peerid : PeerId} {connection : TaskId}

/-- A turn for the connection: `own` and `speaks` hold of its peer at every stop,
`ended` holds at the end, and the entries of the others are as before. -/
def TurnHolds (extend : γ → EventsHandleMessage → Bool → γ)
    (own ended : γ → PeerContextMetadata → PeerStateMetadata → Prop)
    (speaks : γ → EventsHandleMessage → Prop) (owner : PeerId → Option TaskId)
    (fact : EntryFact) (connection : TaskId) (ghost : γ) (turn : HandleTurn) :
    Prop :=
  turn.Holds extend
    (fun ghost self event =>
      Entries owner (Function.update fact connection (own ghost)) self ∧
        speaks ghost event)
    (fun ghost self _ =>
      Entries owner (Function.update fact connection (ended ghost)) self) ghost

/-- A handler of the peer of the connection. -/
def PeerHolds (extend : γ → EventsHandleMessage → Bool → γ)
    (own ended : γ → PeerContextMetadata → PeerStateMetadata → Prop)
    (speaks : γ → EventsHandleMessage → Prop) (context : PeerContextMetadata)
    (ghost : γ) (handler : HandleMsg) : Prop :=
  handler.Holds extend
    (fun ghost state event => own ghost context state ∧ speaks ghost event)
    (fun ghost state _ => ended ghost context state) ghost

theorem readyMessage_turnHolds (hentries : Entries owner fact tables)
    (howner : peerid ∈ tables.setContextPeers → peerid ∈ tables.setStatePeers →
      owner peerid = some connection)
    (hinjective : ∀ other, owner other = some connection → other = peerid)
    (now : Except SystemTimeError UInt64) (message : MessagePayload)
    (hhandle : ∀ context state, fact connection context state →
      PeerHolds extend own ended speaks context ghost
        (handleMsg now peerid message context state)) :
    TurnHolds extend own ended speaks owner fact connection ghost
      (tables.readyMessage now peerid message) := by
  unfold HandleMessage.readyMessage
  split
  case isFalse habsent =>
    exact hentries.absent hinjective fun hmem => habsent hmem.1
  case isTrue hcontext =>
    split
    case isFalse habsent =>
      exact hentries.absent hinjective fun hmem => habsent hmem.2
    case isTrue hstate =>
      have howned := howner hcontext hstate
      split
      case h_2 hmissing =>
        obtain ⟨context, hcontext⟩ := mem_iff_lookup.mp hcontext
        obtain ⟨state, hstate⟩ := mem_iff_lookup.mp hstate
        exact absurd hstate (hmissing context state hcontext)
      case h_1 context state hcontext hstate =>
        have hfact := hentries peerid connection context state howned hcontext hstate
        have hhandled : ((handleMsg now peerid message context state).within
            (tables.setState peerid)).Holds extend
            (fun ghost self event =>
              Entries owner (Function.update fact connection (own ghost)) self ∧
                speaks ghost event)
            (fun ghost self _ =>
              Entries owner (Function.update fact connection (ended ghost)) self)
            ghost := by
          apply Await.holds_within.mpr
          apply (hhandle context state hfact).mono
          · intro ghost reached event hstop
            exact ⟨hentries.setState hcontext hinjective howned hstop.1, hstop.2⟩
          · intro ghost reached _ hend
            exact hentries.setState hcontext hinjective howned hend
        apply hhandled.bind
        intro ghost reached result hreached
        unfold HandleMessage.afterHandleMsg
        split
        · split <;> exact hreached
        · exact hreached

/-- The flag is set in an entry that has just been made. -/
theorem markSendVersion_create
    (hstate : tables.setStatePeers.lookup peerid =
      some PeerStateMetadata.create) :
    tables.markSendVersion peerid =
      tables.setState peerid
        { PeerStateMetadata.create with sendVersion := true } := by
  simp [HandleMessage.markSendVersion, hstate, PeerStateMetadata.create]

theorem newConnection_turnHolds {context : StructContextConnection}
    (hentries : Entries owner fact tables) (howned : Owned owner tables)
    (hnone : owner context.peerid = none)
    (hunowned : ∀ other, owner other ≠ some connection)
    (now : Except SystemTimeError UInt64)
    (hgreet : PeerHolds extend own ended speaks (contextMetadata context) ghost
      (greeting now context.peerid (contextMetadata context))) :
    TurnHolds extend own ended speaks
      (Function.update owner context.peerid (some connection)) fact connection
      ghost (tables.newConnection now context) := by
  have hcontextNew : context.peerid ∉ tables.setContextPeers := by
    simp [howned.context, hnone]
  have hstateNew : context.peerid ∉ tables.setStatePeers := by
    simp [howned.state, hnone]
  have hcontext : (tables.addPeer context).setContextPeers.lookup context.peerid =
      some (contextMetadata context) := by
    simp [HandleMessage.addPeer, hcontextNew, contextMetadata]
  have hstate : (tables.addPeer context).setStatePeers.lookup context.peerid =
      some PeerStateMetadata.create := by
    simp [HandleMessage.addPeer, hstateNew]
  have hadded {fact' : PeerContextMetadata → PeerStateMetadata → Prop}
      (hfact : fact' (contextMetadata context) PeerStateMetadata.create) :=
    hentries.addPeer howned hnone hunowned hfact
  have hinjective (other : PeerId)
      (hother : Function.update owner context.peerid (some connection) other =
        some connection) : other = context.peerid := by
    by_contra hne
    rw [Function.update_of_ne hne] at hother
    exact hunowned other hother
  simp only [HandleMessage.newConnection, hcontext,
    if_pos (And.intro (mem_iff_lookup.mpr ⟨_, hcontext⟩)
      (mem_iff_lookup.mpr ⟨_, hstate⟩))]
  unfold greeting at hgreet
  cases htype : (contextMetadata context).typeConnect with
  | incomingConnection =>
      rw [htype] at hgreet
      exact hadded hgreet
  | outgoingConnection =>
      simp only [htype] at hgreet ⊢
      cases hbuild : VersionMessage.buildVersionMessage now
          (contextMetadata context).localAddress
          (contextMetadata context).removeAddress
          (contextMetadata context).nonce with
      | error reason =>
          rw [hbuild] at hgreet
          exact hadded hgreet
      | ok version =>
          rw [hbuild] at hgreet
          obtain ⟨⟨hown, hspeaks⟩, hresume⟩ := hgreet
          refine ⟨⟨hadded hown, hspeaks⟩, fun delivered => ?_⟩
          cases delivered with
          | false => exact hadded (hresume false)
          | true =>
              have hmarked := (hadded hown).setState hcontext hinjective
                (Function.update_self ..) (hresume true)
              rw [Function.update_idem] at hmarked
              simp only [if_true, markSendVersion_create hstate]
              exact hmarked

/-- `HandleMessage` takes up an event of a connection. -/
theorem turn_turnHolds {item : Tagged EventsPeerManager}
    (hentries : Entries owner fact tables) (howned : Owned owner tables)
    (hrecords : ∀ peerid message, item.event = .readyMessage peerid message →
      peerid ∈ tables.setContextPeers → peerid ∈ tables.setStatePeers →
        owner peerid = some item.connection)
    (hstart : ∀ context, item.event = .incidentNewConnection context →
      owner context.peerid = none ∧ ∀ other, owner other ≠ some item.connection)
    (hinjective : ∀ peerid message, item.event = .readyMessage peerid message →
      ∀ other, owner other = some item.connection → other = peerid)
    (now : Except SystemTimeError UInt64)
    (hhandle : ∀ peerid message, item.event = .readyMessage peerid message →
      ∀ context state, fact item.connection context state →
        PeerHolds extend own ended speaks context ghost
          (handleMsg now peerid message context state))
    (hgreet : ∀ context, item.event = .incidentNewConnection context →
      PeerHolds extend own ended speaks (contextMetadata context) ghost
        (greeting now context.peerid (contextMetadata context)))
    (hquiet : (∀ peerid, ¬ Concerns item.event peerid) → ∀ context state,
      fact item.connection context state → ended ghost context state) :
    TurnHolds extend own ended speaks (ownerAfter owner item) fact item.connection
      ghost
      (HandleMessage.turn (.incidentPeermanager now (some item.event)) tables) := by
  obtain ⟨connection, event⟩ := item
  have hkept (hevent : ∀ peerid, ¬ Concerns event peerid) :
      Entries owner (Function.update fact connection (ended ghost)) tables :=
    hentries.update (hquiet hevent)
  cases event with
  | readyMessage peerid message =>
      exact readyMessage_turnHolds hentries (hrecords peerid message rfl)
        (hinjective peerid message rfl) now message (hhandle peerid message rfl)
  | incidentNewConnection context =>
      obtain ⟨hnone, hunowned⟩ := hstart context rfl
      rw [ownerAfter_newConnection connection hnone]
      exact newConnection_turnHolds hentries howned hnone hunowned now
        (hgreet context rfl)
  | incidentCompletedPeer completed =>
      rw [ownerAfter_completed]
      exact (hkept (by simp [Concerns])).completedPeer completed
  | incidentCompletedAllPeer =>
      intro peerid holder context state hholder
      cases hholder
  | readyLowMessage message => exact hkept (by simp [Concerns])
  | shutdown => exact hkept (by simp [Concerns])

end Turns

end P2PNetwork.Runtime
