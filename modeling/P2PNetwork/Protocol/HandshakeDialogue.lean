import P2PNetwork.Protocol.HandshakeSafety

/-!
# The dialogue with a peer

The flags of a peer tell what has been sent to it: nothing, a version message,
or a version message and after it a verack.  They also tell what has been heard
from it.  Handling a message keeps this, at every point where another task can
run and however the sends end.
-/

namespace P2PNetwork.Handshake

open P2PNetwork.Events
open P2PNetwork.Handler
open P2PNetwork.Wire

/-- The message of an event of `HandleMessage`. -/
def outgoing : EventsHandleMessage → List MessagePayload
  | .readyMessage _ message => [message]
  | .incidetViolentComplitedPeer _ => []

/-- The version message was built for a peer with the context. -/
def BuiltFor (context : PeerContextMetadata) (version : VersionMessage) : Prop :=
  ∃ now, VersionMessage.buildVersionMessage now context.localAddress
    context.removeAddress context.nonce = .ok version

/-- What has been sent to a peer, by its flags. -/
inductive Stage (context : PeerContextMetadata) (state : PeerStateMetadata) :
    List MessagePayload → Prop where
  | silent (hversion : state.sendVersion = false)
      (hverack : state.sendVerack = false) : Stage context state []
  | greeted {version : VersionMessage} (hversion : state.sendVersion = true)
      (hverack : state.sendVerack = false) (hbuilt : BuiltFor context version) :
      Stage context state [.version version]
  | answered {version : VersionMessage} (hversion : state.sendVersion = true)
      (hverack : state.sendVerack = true) (hbuilt : BuiltFor context version) :
      Stage context state
        [.version version, .verack VerackMessage.buildVerackMessage]

def HasVersion (messages : List MessagePayload) : Prop :=
  ∃ version, .version version ∈ messages

def HasVerack (messages : List MessagePayload) : Prop :=
  ∃ verack, .verack verack ∈ messages

/-- The flags of a peer agree with what has been sent to it and heard from
it. -/
structure Dialogue (context : PeerContextMetadata) (state : PeerStateMetadata)
    (sent heard : List MessagePayload) : Prop where
  stage : Stage context state sent
  recvVersion : state.recvVersion = true → HasVersion heard
  recvVerack : state.recvVerack = true → HasVerack heard
  answering : state.sendVerack = true → state.recvVersion = true
  greeting : context.typeConnect = .incomingConnection →
    state.sendVersion = true → state.recvVersion = true
  completed : state.completedHandshake = true →
    state.sendVerack = true ∧ state.recvVersion = true ∧ state.recvVerack = true

/-- What has been sent to a peer opens the connection, in answer to what has
been heard from it. -/
structure Spoken (context : PeerContextMetadata)
    (sent heard : List MessagePayload) : Prop where
  opening : ∃ version, BuiltFor context version ∧
    sent <+: [.version version, .verack VerackMessage.buildVerackMessage]
  answering : HasVerack sent → HasVersion heard
  greeting : context.typeConnect = .incomingConnection →
    HasVersion sent → HasVersion heard

section Stages

variable {context : PeerContextMetadata} {state state' : PeerStateMetadata}
variable {sent : List MessagePayload}

/-- Only the flags of what was sent matter. -/
theorem Stage.congr (hstage : Stage context state sent)
    (hversion : state'.sendVersion = state.sendVersion)
    (hverack : state'.sendVerack = state.sendVerack) :
    Stage context state' sent := by
  cases hstage with
  | silent hsend hanswer => exact .silent (hversion ▸ hsend) (hverack ▸ hanswer)
  | greeted hsend hanswer hbuilt =>
      exact .greeted (hversion ▸ hsend) (hverack ▸ hanswer) hbuilt
  | answered hsend hanswer hbuilt =>
      exact .answered (hversion ▸ hsend) (hverack ▸ hanswer) hbuilt

/-- A version message is sent to a peer that nothing has been sent to. -/
theorem Stage.sendVersion (hstage : Stage context state sent)
    (hversion : state.sendVersion = false) {version : VersionMessage}
    (hbuilt : BuiltFor context version) :
    Stage context { state with sendVersion := true }
      (sent ++ [.version version]) := by
  cases hstage with
  | silent _ hverack =>
      exact @Stage.greeted _ { state with sendVersion := true } _ rfl hverack hbuilt
  | greeted hsent => cases hversion.symm.trans hsent
  | answered hsent => cases hversion.symm.trans hsent

/-- A verack is sent to a peer that only a version message has been sent to. -/
theorem Stage.sendVerack (hstage : Stage context state sent)
    (hversion : state.sendVersion = true) (hverack : state.sendVerack = false) :
    Stage context { state with sendVerack := true }
      (sent ++ [.verack VerackMessage.buildVerackMessage]) := by
  cases hstage with
  | silent hunsent => cases hversion.symm.trans hunsent
  | greeted _ _ hbuilt =>
      exact @Stage.answered _ { state with sendVerack := true } _ hversion rfl hbuilt
  | answered _ hsent => cases hverack.symm.trans hsent

end Stages

/-! ## A message is heard -/

section Dialogues

variable {context : PeerContextMetadata} {state : PeerStateMetadata}
variable {sent heard : List MessagePayload}

theorem HasVersion.append (hheard : HasVersion heard)
    (more : List MessagePayload) : HasVersion (heard ++ more) := by
  obtain ⟨version, hmem⟩ := hheard
  exact ⟨version, List.mem_append_left _ hmem⟩

theorem HasVerack.append (hheard : HasVerack heard)
    (more : List MessagePayload) : HasVerack (heard ++ more) := by
  obtain ⟨verack, hmem⟩ := hheard
  exact ⟨verack, List.mem_append_left _ hmem⟩

theorem Dialogue.create (context : PeerContextMetadata) :
    Dialogue context PeerStateMetadata.create [] [] where
  stage := .silent rfl rfl
  recvVersion hflag := by cases hflag
  recvVerack hflag := by cases hflag
  answering hflag := by cases hflag
  greeting _ hflag := by cases hflag
  completed hflag := by cases hflag

theorem Dialogue.hear (hdialogue : Dialogue context state sent heard)
    (message : MessagePayload) :
    Dialogue context state sent (heard ++ [message]) :=
  { hdialogue with
    recvVersion := fun hflag => (hdialogue.recvVersion hflag).append _
    recvVerack := fun hflag => (hdialogue.recvVerack hflag).append _ }

/-- A version message is accepted. -/
theorem Dialogue.hearVersion (hdialogue : Dialogue context state sent heard)
    (hheard : HasVersion heard) :
    Dialogue context { state with recvVersion := true } sent heard where
  stage := hdialogue.stage.congr rfl rfl
  recvVersion _ := hheard
  recvVerack := hdialogue.recvVerack
  answering _ := rfl
  greeting _ _ := rfl
  completed hflag := by
    obtain ⟨hanswered, -, hverack⟩ := hdialogue.completed hflag
    exact ⟨hanswered, rfl, hverack⟩

/-- The verack that completes the handshake. -/
theorem Dialogue.complete (hdialogue : Dialogue context state sent heard)
    (hheard : HasVerack heard) (hversion : state.recvVersion = true)
    (hanswered : state.sendVerack = true) :
    Dialogue context { state with recvVerack := true, completedHandshake := true }
      sent heard where
  stage := hdialogue.stage.congr rfl rfl
  recvVersion := hdialogue.recvVersion
  recvVerack _ := hheard
  answering := hdialogue.answering
  greeting := hdialogue.greeting
  completed _ := ⟨hanswered, hversion, rfl⟩

theorem Dialogue.sendVersion (hdialogue : Dialogue context state sent heard)
    (hunsent : state.sendVersion = false) {version : VersionMessage}
    (hbuilt : BuiltFor context version)
    (hgreeting : context.typeConnect = .incomingConnection →
      state.recvVersion = true) :
    Dialogue context { state with sendVersion := true }
      (sent ++ [.version version]) heard where
  stage := hdialogue.stage.sendVersion hunsent hbuilt
  recvVersion := hdialogue.recvVersion
  recvVerack := hdialogue.recvVerack
  answering := hdialogue.answering
  greeting htype _ := hgreeting htype
  completed := hdialogue.completed

theorem Dialogue.sendVerack (hdialogue : Dialogue context state sent heard)
    (hsent : state.sendVersion = true) (hunsent : state.sendVerack = false)
    (hversion : state.recvVersion = true) :
    Dialogue context { state with sendVerack := true }
      (sent ++ [.verack VerackMessage.buildVerackMessage]) heard where
  stage := hdialogue.stage.sendVerack hsent hunsent
  recvVersion := hdialogue.recvVersion
  recvVerack := hdialogue.recvVerack
  answering _ := hversion
  greeting := hdialogue.greeting
  completed hflag := by
    obtain ⟨hanswered, -⟩ := hdialogue.completed hflag
    cases hunsent.symm.trans hanswered

/-- What the dialogue says does not need the flags. -/
theorem Dialogue.spoken (hdialogue : Dialogue context state sent heard) :
    Spoken context sent heard := by
  obtain ⟨hstage, hversion, -, hanswering, hgreeting, -⟩ := hdialogue
  cases hstage with
  | silent =>
      refine ⟨⟨_, ⟨.ok 0, rfl⟩, List.nil_prefix⟩, ?_, ?_⟩
      · rintro ⟨verack, hmem⟩
        cases hmem
      · rintro - ⟨version, hmem⟩
        cases hmem
  | greeted hsent _ hbuilt =>
      refine ⟨⟨_, hbuilt, [_], rfl⟩, ?_, ?_⟩
      · rintro ⟨verack, hmem⟩
        simp at hmem
      · exact fun htype _ => hversion (hgreeting htype hsent)
  | answered hsent hanswered hbuilt =>
      refine ⟨⟨_, hbuilt, List.prefix_rfl⟩, ?_, ?_⟩
      · exact fun _ => hversion (hanswering hanswered)
      · exact fun htype _ => hversion (hgreeting htype hsent)

theorem Spoken.hear (hspoken : Spoken context sent heard)
    (more : List MessagePayload) : Spoken context sent (heard ++ more) where
  opening := hspoken.opening
  answering hverack := (hspoken.answering hverack).append more
  greeting htype hversion := (hspoken.greeting htype hversion).append more

/-- The first of the messages are in place too. -/
theorem Spoken.start (hspoken : Spoken context sent heard)
    {first : List MessagePayload} (hbegins : first <+: sent) :
    Spoken context first heard := by
  obtain ⟨version, hbuilt, hopening⟩ := hspoken.opening
  refine ⟨⟨version, hbuilt, hbegins.trans hopening⟩, ?_, fun htype => ?_⟩
  · rintro ⟨verack, hmem⟩
    exact hspoken.answering ⟨verack, hbegins.subset hmem⟩
  · rintro ⟨version, hmem⟩
    exact hspoken.greeting htype ⟨version, hbegins.subset hmem⟩

end Dialogues

/-! ## Handlers -/

/-- What has been sent after a send. -/
def sendsMore (sent : List MessagePayload) (event : EventsHandleMessage)
    (delivered : Bool) : List MessagePayload :=
  if delivered then sent ++ outgoing event else sent

/-- Every stop and the end of a handler keep the dialogue. -/
def KeepsDialogue (context : PeerContextMetadata)
    (sent heard : List MessagePayload) (handler : HandleMsg) : Prop :=
  handler.Holds sendsMore
    (fun sent state _ => Dialogue context state sent heard)
    (fun sent state _ => Dialogue context state sent heard) sent

section HandleMsg

variable {context : PeerContextMetadata} {state : PeerStateMetadata}
variable {sent heard : List MessagePayload}

theorem violentCompleted_keepsDialogue
    (hdialogue : Dialogue context state sent heard) (peerid : PeerId)
    (reason : ErrorHandle) :
    KeepsDialogue context sent heard (violentCompleted peerid reason state) := by
  refine ⟨hdialogue, fun delivered => ?_⟩
  cases delivered with
  | false => exact hdialogue
  | true => simpa [sendsMore, outgoing] using hdialogue

theorem answerVerack_keepsDialogue
    (hdialogue : Dialogue context state sent heard)
    (hsent : state.sendVersion = true) (hunsent : state.sendVerack = false)
    (hversion : state.recvVersion = true) (peerid : PeerId) :
    KeepsDialogue context sent heard (answerVerack peerid state) := by
  refine ⟨hdialogue, fun delivered => ?_⟩
  cases delivered with
  | false => exact hdialogue
  | true => exact hdialogue.sendVerack hsent hunsent hversion

/-- Handling a message goes on with the dialogue. -/
theorem handleMsg_keepsDialogue (hdialogue : Dialogue context state sent heard)
    (now : Except SystemTimeError UInt64) (peerid : PeerId)
    (message : MessagePayload) :
    KeepsDialogue context sent (heard ++ [message])
      (handleMsg now peerid message context state) := by
  have hheard := hdialogue.hear message
  have haccepted (hvalid : ValidVersion message) :
      Dialogue context { state with recvVersion := true } sent
        (heard ++ [message]) := by
    obtain ⟨version, rfl, -⟩ := hvalid
    exact hheard.hearVersion ⟨version, by simp⟩
  have houtcome :
      HandleOutcome now peerid message context state
        (handleMsg now peerid message context state) :=
    handleMsg_outcome message
  generalize handleMsg now peerid message context state = handler at houtcome ⊢
  cases houtcome with
  | violent reason => exact violentCompleted_keepsDialogue hheard peerid reason
  | invalid => exact hheard
  | unbuilt hvalid => exact haccepted hvalid
  | @completed verack hmessage hawaited =>
      obtain ⟨hversion, -, hanswered, -⟩ := hawaited
      exact hheard.complete ⟨verack, by simp [hmessage]⟩ hversion hanswered
  | answer hvalid hawaited htype hbuild =>
      have hreceived := haccepted hvalid
      obtain ⟨received, rfl, -⟩ := hvalid
      rw [Awaits, htype] at hawaited
      obtain ⟨-, hversion, -, hverack⟩ := hawaited
      refine ⟨hreceived, fun delivered => ?_⟩
      cases delivered with
      | false => exact hreceived
      | true =>
          exact answerVerack_keepsDialogue
            (hreceived.sendVersion hversion ⟨now, hbuild⟩ fun _ => rfl) rfl hverack
            rfl peerid
  | verack hvalid hawaited htype =>
      have hreceived := haccepted hvalid
      obtain ⟨received, rfl, -⟩ := hvalid
      rw [Awaits, htype] at hawaited
      obtain ⟨hversion, -, hverack, -⟩ := hawaited
      exact answerVerack_keepsDialogue hreceived hversion hverack rfl peerid

end HandleMsg

/-- Everything that a handler sends is in place. -/
theorem KeepsDialogue.spoken {context : PeerContextMetadata}
    {sent heard : List MessagePayload} {handler : HandleMsg}
    (hkeeps : KeepsDialogue context sent heard handler) :
    handler.Holds sendsMore
      (fun sent state event => Dialogue context state sent heard ∧
        Spoken context (sent ++ outgoing event) heard)
      (fun sent state _ => Dialogue context state sent heard) sent := by
  induction handler generalizing sent with
  | done state result => exact hkeeps
  | issue state event resume ih =>
      obtain ⟨hdialogue, hresume⟩ := hkeeps
      refine ⟨⟨hdialogue, ?_⟩, fun delivered => ih delivered (hresume delivered)⟩
      have hsent := hresume true
      generalize resume true = later at hsent
      cases later with
      | done state result => exact Dialogue.spoken hsent
      | issue state event resume => exact Dialogue.spoken hsent.1

/-! ## The start of a connection -/

/-- What a new connection does with the flags of its peer: the node speaks first
on the connections that it has dialled. -/
def greeting (now : Except SystemTimeError UInt64) (peerid : PeerId)
    (context : PeerContextMetadata) : HandleMsg :=
  match context.typeConnect with
  | .incomingConnection => .done PeerStateMetadata.create (.ok ())
  | .outgoingConnection =>
      match VersionMessage.buildVersionMessage now context.localAddress
          context.removeAddress context.nonce with
      | .ok version =>
          .issue PeerStateMetadata.create (.readyMessage peerid (.version version))
            fun delivered =>
              if delivered then
                .done { PeerStateMetadata.create with sendVersion := true } (.ok ())
              else .done PeerStateMetadata.create (.error .peerManagerClosed)
      | .error reason =>
          .done PeerStateMetadata.create (.error (.errorCreateVersionMessage reason))

theorem greeting_keepsDialogue (now : Except SystemTimeError UInt64)
    (peerid : PeerId) (context : PeerContextMetadata) :
    KeepsDialogue context [] [] (greeting now peerid context) := by
  have hcreate := Dialogue.create context
  unfold greeting
  cases htype : context.typeConnect with
  | incomingConnection => exact hcreate
  | outgoingConnection =>
      simp only
      cases hbuild : VersionMessage.buildVersionMessage now context.localAddress
          context.removeAddress context.nonce with
      | error reason => exact hcreate
      | ok version =>
          refine ⟨hcreate, fun delivered => ?_⟩
          cases delivered with
          | false => exact hcreate
          | true =>
              refine hcreate.sendVersion rfl ⟨now, hbuild⟩ fun hincoming => ?_
              rw [htype] at hincoming
              cases hincoming

end P2PNetwork.Handshake
