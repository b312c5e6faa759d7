import P2PNetwork.Protocol.HandleMessage

/-!
# The history of a handshake

The flags of a peer are related to the history of its entry: which messages
were received from the peer and enqueued for it since the entry was created.
-/

namespace P2PNetwork.Handshake

open P2PNetwork.EventLoop
open P2PNetwork.Events
open P2PNetwork.Wire

/-! ## The history of an entry -/

inductive Occurrence where
  | received (message : MessagePayload)
  | enqueued (message : MessagePayload)
  deriving DecidableEq

abbrev History := PeerId → List Occurrence

def History.append (history : History) (peerid : PeerId)
    (occurrence : Occurrence) : History :=
  Function.update history peerid (history peerid ++ [occurrence])

/-- The history starts again when an entry is created; an event of a peer that
has one does not. -/
def record : Ghost History HandleMessage HandleInput EventsHandleMessage Bool where
  take history self input :=
    match input with
    | .incidentPeermanager _ (some (.incidentNewConnection context)) =>
        if context.peerid ∈ self.setStatePeers then history
        else Function.update history context.peerid []
    | .incidentPeermanager _ (some (.readyMessage peerid message)) =>
        history.append peerid (.received message)
    | _ => history
  answer history event delivered :=
    match event, delivered with
    | .readyMessage peerid message, true =>
        history.append peerid (.enqueued message)
    | _, _ => history

def Occurrence.isVersionEnqueued : Occurrence → Bool
  | .enqueued (.version _) => true
  | _ => false

def Occurrence.isVerackEnqueued : Occurrence → Bool
  | .enqueued (.verack _) => true
  | _ => false

def versionsEnqueued (history : List Occurrence) : ℕ :=
  history.countP Occurrence.isVersionEnqueued

def veracksEnqueued (history : List Occurrence) : ℕ :=
  history.countP Occurrence.isVerackEnqueued

@[simp]
theorem versionsEnqueued_append (history : List Occurrence)
    (occurrence : Occurrence) :
    versionsEnqueued (history ++ [occurrence]) =
      versionsEnqueued history +
        if occurrence.isVersionEnqueued then 1 else 0 := by
  simp [versionsEnqueued, List.countP_append, List.countP_singleton]

@[simp]
theorem veracksEnqueued_append (history : List Occurrence)
    (occurrence : Occurrence) :
    veracksEnqueued (history ++ [occurrence]) =
      veracksEnqueued history +
        if occurrence.isVerackEnqueued then 1 else 0 := by
  simp [veracksEnqueued, List.countP_append, List.countP_singleton]

/-- A valid version message was received. -/
def VersionReceived (history : List Occurrence) : Prop :=
  ∃ versionMessage : VersionMessage,
    versionMessage.validationVersionMessage = true ∧
      .received (.version versionMessage) ∈ history

/-- A valid version message and after it a verack were received. -/
def HandshakeReceived (history : List Occurrence) : Prop :=
  ∃ (versionMessage : VersionMessage) (verackMessage : VerackMessage),
    versionMessage.validationVersionMessage = true ∧
      List.Sublist [.received (.version versionMessage),
        .received (.verack verackMessage)] history

theorem VersionReceived.append {history : List Occurrence}
    (hreceived : VersionReceived history) (occurrence : Occurrence) :
    VersionReceived (history ++ [occurrence]) := by
  obtain ⟨versionMessage, hvalid, hmem⟩ := hreceived
  exact ⟨versionMessage, hvalid, List.mem_append_left _ hmem⟩

theorem HandshakeReceived.append {history : List Occurrence}
    (hreceived : HandshakeReceived history) (occurrence : Occurrence) :
    HandshakeReceived (history ++ [occurrence]) := by
  obtain ⟨versionMessage, verackMessage, hvalid, hsublist⟩ := hreceived
  exact ⟨versionMessage, verackMessage, hvalid,
    hsublist.trans (List.sublist_append_left _ _)⟩

theorem VersionReceived.verack {history : List Occurrence}
    (hreceived : VersionReceived history) (verackMessage : VerackMessage) :
    HandshakeReceived (history ++ [.received (.verack verackMessage)]) := by
  obtain ⟨versionMessage, hvalid, hmem⟩ := hreceived
  exact ⟨versionMessage, verackMessage, hvalid,
    (List.singleton_sublist.mpr hmem).append (List.Sublist.refl _)⟩

/-! ## What the flags of one peer say -/

structure EntryInvariant (typeConnect : TypeConnection)
    (state : PeerStateMetadata) (history : List Occurrence) : Prop where
  completed : state.completedHandshake ↔
    state.sendVersion ∧ state.recvVersion ∧ state.sendVerack ∧ state.recvVerack
  recvVerack_order : state.recvVerack → state.sendVerack
  sendVerack_order : state.sendVerack → state.sendVersion ∧ state.recvVersion
  incoming_order : typeConnect = .incomingConnection →
    state.sendVersion → state.recvVersion
  outgoing_order : typeConnect = .outgoingConnection →
    state.recvVersion → state.sendVersion
  sendVersion_iff : state.sendVersion ↔ 0 < versionsEnqueued history
  sendVerack_iff : state.sendVerack ↔ veracksEnqueued history = 1
  veracks_le : veracksEnqueued history ≤ 1
  recvVersion_received : state.recvVersion → VersionReceived history
  completed_received : state.completedHandshake → HandshakeReceived history

namespace EntryInvariant

variable {typeConnect : TypeConnection} {state : PeerStateMetadata}
variable {history : List Occurrence}

theorem create : EntryInvariant typeConnect PeerStateMetadata.create [] := by
  constructor <;> simp [PeerStateMetadata.create, versionsEnqueued, veracksEnqueued]

/-- A received message alone says nothing about the flags. -/
theorem received (hentry : EntryInvariant typeConnect state history)
    (message : MessagePayload) :
    EntryInvariant typeConnect state (history ++ [.received message]) where
  completed := hentry.completed
  recvVerack_order := hentry.recvVerack_order
  sendVerack_order := hentry.sendVerack_order
  incoming_order := hentry.incoming_order
  outgoing_order := hentry.outgoing_order
  sendVersion_iff := by
    simpa [Occurrence.isVersionEnqueued] using hentry.sendVersion_iff
  sendVerack_iff := by
    simpa [Occurrence.isVerackEnqueued] using hentry.sendVerack_iff
  veracks_le := by simpa [Occurrence.isVerackEnqueued] using hentry.veracks_le
  recvVersion_received hrecv := (hentry.recvVersion_received hrecv).append _
  completed_received hcompleted := (hentry.completed_received hcompleted).append _

theorem recvVersion (hentry : EntryInvariant typeConnect state history)
    (hoffered : typeConnect = .outgoingConnection → state.sendVersion = true)
    (hsent : state.sendVerack = false) (hreceived : VersionReceived history) :
    EntryInvariant typeConnect { state with recvVersion := true } history := by
  obtain ⟨hcompleted, hrecvVerack, hsendVerack, hincoming, houtgoing, hversions,
    hveracks, hle, _, hhandshake⟩ := hentry
  constructor <;> grind

theorem enqueueVersion (hentry : EntryInvariant typeConnect state history)
    (versionMessage : VersionMessage)
    (hanswer : typeConnect = .incomingConnection → state.recvVersion = true)
    (hsent : state.sendVerack = true → state.sendVersion = true) :
    EntryInvariant typeConnect { state with sendVersion := true }
      (history ++ [.enqueued (.version versionMessage)]) := by
  obtain ⟨hcompleted, hrecvVerack, hsendVerack, hincoming, houtgoing, hversions,
    hveracks, hle, hreceived, hhandshake⟩ := hentry
  constructor
  case recvVersion_received =>
    exact fun hrecv => (hreceived hrecv).append _
  case completed_received =>
    exact fun hcompleted => (hhandshake hcompleted).append _
  all_goals
    simp only [versionsEnqueued_append, veracksEnqueued_append,
      Occurrence.isVersionEnqueued, Occurrence.isVerackEnqueued]
    grind

theorem enqueueVerack (hentry : EntryInvariant typeConnect state history)
    (verackMessage : VerackMessage) (hsendVersion : state.sendVersion = true)
    (hrecvVersion : state.recvVersion = true)
    (hsent : state.sendVerack = false) :
    EntryInvariant typeConnect { state with sendVerack := true }
      (history ++ [.enqueued (.verack verackMessage)]) := by
  obtain ⟨hcompleted, hrecvVerack, hsendVerack, hincoming, houtgoing, hversions,
    hveracks, hle, hreceived, hhandshake⟩ := hentry
  constructor
  case recvVersion_received =>
    exact fun hrecv => (hreceived hrecv).append _
  case completed_received =>
    exact fun hcompleted => (hhandshake hcompleted).append _
  all_goals
    simp only [versionsEnqueued_append, veracksEnqueued_append,
      Occurrence.isVersionEnqueued, Occurrence.isVerackEnqueued]
    grind

theorem recvVerack (hentry : EntryInvariant typeConnect state history)
    (verackMessage : VerackMessage) (hsent : state.sendVerack = true) :
    EntryInvariant typeConnect
      { state with recvVerack := true, completedHandshake := true }
      (history ++ [.received (.verack verackMessage)]) := by
  obtain ⟨hcompleted, hrecvVerack, hsendVerack, hincoming, houtgoing, hversions,
    hveracks, hle, hreceived, hhandshake⟩ := hentry
  have hversion : VersionReceived history := hreceived (hsendVerack hsent).2
  constructor
  case recvVersion_received => exact fun _ => hversion.append _
  case completed_received => exact fun _ => hversion.verack verackMessage
  all_goals
    simp only [versionsEnqueued_append, veracksEnqueued_append,
      Occurrence.isVersionEnqueued, Occurrence.isVerackEnqueued]
    grind

end EntryInvariant

end P2PNetwork.Handshake
