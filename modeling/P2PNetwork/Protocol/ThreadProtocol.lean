import P2PNetwork.Protocol.HandleMessage

/-!
# The protocol thread

The protocol thread supervises `HandleMessage`.  It reports to the initialising
thread on every path but two: when its runtime cannot be built, and when
`HandleMessage` panics.
-/

namespace P2PNetwork.ThreadProtocol

open P2PNetwork.Events
open P2PNetwork.Handshake

inductive ErrorThreadProtocol where
  | errorInputOutput (reason : IoError)
  | errorHandleMessage (reason : ErrorHandleMessage)
  | errorJoinHandleHandleMessage (reason : JoinError)
  deriving DecidableEq

/-- Why the thread left its supervising loop. -/
inductive EventsCriticalCompletionThreadProtocol where
  | incidentConfirmationShutdown
  | incidentChannelInitClosed
  | incidentComplitedHandleMessage (result : Except ErrorHandleMessage Unit)
  | incidentJoinHandleHandleMessage (reason : JoinError)

/-- What the handle of the task of `HandleMessage` yields. -/
abbrev StateHandlemessage := Except JoinError (Except ErrorHandleMessage Unit)

/-- The branch of the init channel. -/
def incidentInit : Option EventsInit → EventsCriticalCompletionThreadProtocol
  | some .shutdown => .incidentConfirmationShutdown
  | none => .incidentChannelInitClosed

def resultStateHandlemessage :
    StateHandlemessage → EventsCriticalCompletionThreadProtocol
  | .ok okHandlemessage => .incidentComplitedHandleMessage okHandlemessage
  | .error errorHandlemessage =>
      .incidentJoinHandleHandleMessage errorHandlemessage

/-- The events sent to `HandleMessage` after the loop. -/
def shutdownSends :
    EventsCriticalCompletionThreadProtocol → List EventsThreadProtocol
  | .incidentConfirmationShutdown | .incidentChannelInitClosed => [.shutdown]
  | .incidentComplitedHandleMessage _ | .incidentJoinHandleHandleMessage _ => []

/-- `HandleMessage` has returned. -/
def resultHandlemessage :
    Except ErrorHandleMessage Unit → Except ErrorThreadProtocol Unit
  | .ok _ => .ok ()
  | .error reason => .error (.errorHandleMessage reason)

/-- `HandleMessage` has ended. -/
def resultState : StateHandlemessage → Except ErrorThreadProtocol Unit
  | .ok result => resultHandlemessage result
  | .error errorJoinhandle =>
      .error (.errorJoinHandleHandleMessage errorJoinhandle)

/-- What the thread returns once `HandleMessage` has ended, and what it reports
before. -/
inductive Complited (handlemessage : StateHandlemessage → Prop) :
    EventsCriticalCompletionThreadProtocol → Except ErrorThreadProtocol Unit →
      List EventsThreadNetworkProtocol → Prop where
  | confirmationShutdown {stateHandlemessage : StateHandlemessage}
      (hhandlemessage : handlemessage stateHandlemessage) :
      Complited handlemessage .incidentConfirmationShutdown
        (resultState stateHandlemessage) [.exitCompletionThreadProtocol]
  | channelInitClosed {stateHandlemessage : StateHandlemessage}
      (hhandlemessage : handlemessage stateHandlemessage) :
      Complited handlemessage .incidentChannelInitClosed
        (resultState stateHandlemessage) [.exitCompletionThreadProtocol]
  | complitedHandleMessage {result : Except ErrorHandleMessage Unit} :
      Complited handlemessage (.incidentComplitedHandleMessage result)
        (resultHandlemessage result) [.exitCompletionThreadProtocol]
  | joinHandleHandleMessage {reason : JoinError} :
      Complited handlemessage (.incidentJoinHandleHandleMessage reason)
        (.error (.errorJoinHandleHandleMessage reason)) []

end P2PNetwork.ThreadProtocol
