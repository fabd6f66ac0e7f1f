import RealtimeChat.Conversations.OwnCalls
import RealtimeChat.Conversations.Unheard
import RealtimeChat.Handlers.Grants

/-! Conversations do not interfere.

A user's calls do not depend on conversations the user is not in, and what others do
in these does not show to the user: neither in what the user can ask for, nor in what
is sent to the user's sockets. -/
namespace RealtimeChat
open Data (Text)
open Zod (Value)
open Async Async.System

/-- The calls on conversations and messages: all but the coming and going of sockets. -/
def Call.IsOperation : Call → Prop
  | .connect _ => False
  | .disconnect _ => False
  | _ => True

/-- The id that the call would give to a new document is in use nowhere. -/
def Call.FreshId : Call → Server → Prop
  | .event _ _ _ id, s => Fresh id s
  | .createConversation _ _ id, s => Fresh id s
  | _, _ => True

/-- The conversations that a call may write to, or whose messages it may change. -/
def Call.WritesTo : Call → Server → ObjectId → Prop
  | .event _ .messageSend args _, _, c => ∃ input,
      sendMessageSchema.parse (args.getD 0 .undefined) = .ok input ∧
        ObjectId.cast input.conversationId = some c
  | .event _ .messageRead args _, _, c => ∃ input,
      messageReadSchema.parse (args.getD 0 .undefined) = .ok input ∧
        ObjectId.cast input.conversationId = some c
  | .event _ .messageDelivered args _, s, c => ∃ input, ∃ m ∈ s.messages.docs,
      messageDeliveredSchema.parse (args.getD 0 .undefined) = .ok input ∧
        ObjectId.cast input.messageId = some m.id ∧ m.conversationId = c
  | _, _, _ => False

/-- The conversation whose room a call tells that its user is typing. -/
def Call.Signals : Call → ObjectId → Prop
  | .event _ (.typing _) args _, c => ∃ input,
      typingSchema.parse (args.getD 0 .undefined) = .ok input ∧
        ObjectId.cast input.conversationId = some c
  | _, _ => False

/-- The users, besides the caller, whom a call would make members of a new conversation. -/
def Call.Invites : Call → ObjectId → Prop
  | .createConversation _ body _, userId => ∃ input, createConversationSchema.parse body = .ok input ∧
      ∃ m ∈ input.members, ObjectId.cast m = some userId
  | _, _ => False

/-- An operation of another user that touches only conversations without the user. -/
structure Call.Apart (call : Call) (userId : ObjectId) (s : Server) : Prop where
  operation : call.IsOperation
  other : call.user ≠ userId
  writes : ∀ c, call.WritesTo s c → ¬ IsMember c userId s
  invites : ¬ call.Invites userId

section
variable (D : Deployment)

/-- Each operation of the user tells the same in any two states that agree for the
user, and they still agree after it. -/
def OwnCallsAlike (userId : ObjectId) : Prop :=
  ∀ (call : Call) (s t : Server), call.IsOperation → call.user = userId →
    call.FreshId s → call.FreshId t → Agree userId s t →
    (chat D).Alike toldBy (Agree userId) (Call.body D call) s t

/-- In every state that a run can reach, an operation of others apart from the user
leaves a state that agrees, for the user, with the one before. -/
def OthersUnseen (userId : ObjectId) : Prop :=
  ∀ (start : Server) (moves : List (Move Call)) (call : Call), Linked start →
    let s := ((chat D).run (Config.start start) moves).world.state
    call.FreshId s → call.Apart userId s →
    Agree userId s ((chat D).alone (Call.body D call) s).2

/-- In every state that a run can reach from private rooms, such an operation sends nothing to
the user's sockets, if it does not signal to conversations of the user that somebody is typing. -/
def OthersUnheard (userId : ObjectId) : Prop :=
  ∀ (start : Server) (moves : List (Move Call)) (call : Call), Linked start → Private D start →
    let s := ((chat D).run (Config.start start) moves).world.state
    call.FreshId s → call.Apart userId s → (∀ c, call.Signals c → ¬ IsMember c userId s) →
    ∀ entry ∈ (chat D).performed (Call.body D call) s,
      ∀ socket ∈ receiversOf entry.1 entry.2, socket.userId ≠ userId

theorem ownCalls_alike (userId : ObjectId) : OwnCallsAlike D userId := by
  intro call s t hoperation huser hs ht h
  subst huser
  cases call with
  | connect socket => exact hoperation.elim
  | disconnect socket => exact hoperation.elim
  | event socket name args id =>
    refine SameFor.bind ?_ fun _ _ _ h => .ret _ h
    cases name with
    | conversationJoin => exact conversationJoin_same _ _ h
    | conversationLeave => exact conversationLeave_same _ _ h
    | messageSend => exact messageSend_same _ _ h hs ht
    | messageDelivered => exact messageDelivered_same _ _ h
    | messageRead => exact messageRead_same _ _ h
    | typing signal => exact broadcastTyping_same _ h signal
  | createConversation userId body id => exact createConversationHandler_same h hs ht body
  | listConversations userId => exact SameFor.bind (listConversations_same h) fun _ _ _ h => .ret _ h
  | getMessageHistory userId id page => exact getMessageHistoryHandler_same h id page

/-- A call that only reads. -/
theorem body_unseen_of_reads {userId : ObjectId} {call : Call} (hA : ∀ a, call.Acts a → a.Idle)
    (hB : ∀ q, call.Asks q → Server.Reads q) (s : Server) :
    Unseen D userId (Call.body D call) s :=
  .of_idle ((body_within D call).mono hA hB) s

theorem body_unseen {userId : ObjectId} {call : Call} {s : Server} (hlinked : Linked s)
    (hfresh : call.FreshId s) (h : call.Apart userId s) : Unseen D userId (Call.body D call) s := by
  obtain ⟨hoperation, hother, hwrites, hinvites⟩ := h
  cases call with
  | connect socket => exact hoperation.elim
  | disconnect socket => exact hoperation.elim
  | event socket name args id =>
    refine Unseen.bind ?_ fun _ _ => .refl userId _
    cases name with
    | conversationJoin => exact conversationJoin_unseen _ hother _ s
    | conversationLeave => exact conversationLeave_unseen _ hother _ s
    | messageSend =>
      exact messageSend_unseen _ hother hfresh fun input hparse c hcast =>
        hwrites c ⟨input, hparse, hcast⟩
    | messageDelivered =>
      exact messageDelivered_unseen _ hlinked fun input hparse m hm hcast =>
        hwrites m.conversationId ⟨input, m, hm, hparse, hcast, rfl⟩
    | messageRead =>
      exact messageRead_unseen _ hlinked fun input hparse c hcast =>
        hwrites c ⟨input, hparse, hcast⟩
    | typing signal =>
      apply Unseen.of_idle
      refine (broadcastTyping_within D socket _ signal).mono (fun a ha => ?_) fun q hq => ?_
      · cases a <;> trivial
      · cases q <;> trivial
  | createConversation caller body id =>
    exact createConversationHandler_unseen hother hfresh fun input hparse m hm hcast =>
      hinvites ⟨input, hparse, m, hm, hcast⟩
  | listConversations caller =>
    apply body_unseen_of_reads
    · intro a ha
      exact ha.elim
    · intro q hq
      cases q <;> trivial
  | getMessageHistory caller id page =>
    apply body_unseen_of_reads
    · intro a ha
      exact ha.elim
    · intro q hq
      cases q <;> trivial

/-- A call that sends nothing at all. -/
theorem body_unheard_of_mute {userId : ObjectId} {call : Call} (h : ∀ a, call.Acts a → a.Mute)
    (s : Server) : Unheard D userId (Call.body D call) s :=
  Unheard.of_mute ((body_within D call).mono h fun _ hq => hq) s

theorem body_unheard {userId : ObjectId} {call : Call} {s : Server} (hprivate : Private D s)
    (hlinked : Linked s) (hfresh : call.FreshId s) (h : call.Apart userId s)
    (hsignals : ∀ c, call.Signals c → ¬ IsMember c userId s) : Unheard D userId (Call.body D call) s := by
  obtain ⟨hoperation, hother, hwrites, -⟩ := h
  cases call with
  | connect socket => exact hoperation.elim
  | disconnect socket => exact hoperation.elim
  | event socket name args id =>
    cases name with
    | messageSend =>
      refine (messageSend_unheard _ hprivate hother hfresh fun input hparse c hcast => ?_).bind
        fun _ _ => nofun
      exact hwrites c ⟨input, hparse, hcast⟩
    | messageDelivered =>
      refine (messageDelivered_unheard _ hprivate hlinked fun input hparse m hm hcast => ?_).bind
        fun _ _ => nofun
      exact hwrites m.conversationId ⟨input, m, hm, hparse, hcast, rfl⟩
    | messageRead =>
      refine (messageRead_unheard _ hprivate hlinked fun input hparse c hcast => ?_).bind
        fun _ _ => nofun
      exact hwrites c ⟨input, hparse, hcast⟩
    | typing signal =>
      refine (broadcastTyping_unheard hprivate signal fun input hparse c hcast => ?_).bind
        fun _ _ => nofun
      exact hsignals c ⟨input, hparse, hcast⟩
    | conversationJoin => exact body_unheard_of_mute D (fun a ha => by cases a <;> trivial) s
    | conversationLeave => exact body_unheard_of_mute D (fun a ha => by cases a <;> trivial) s
  | _ => exact body_unheard_of_mute D (fun a ha => by cases a <;> trivial) s

/-- Rooms that are private stay so. -/
theorem private_run {start : Server} (h : Private D start) (moves : List (Move Call)) :
    Private D ((chat D).run (Config.start start) moves).world.state := by
  have hstart : (confidential D).inv ⟨start, []⟩ := by
    refine ⟨h, fun socket event hnone => ?_⟩
    obtain ⟨pid, room, receivers, -, hmem | ⟨other, hmem⟩⟩ := hnone <;> cases hmem
  exact ((Sound.start hstart).run (chat_upholds_confidential D) moves trivial).1.inv.1

/-- **Noninterference.** Whatever the user asks for, what the user is told and can see
afterwards depends only on what the user could see before; and what others do apart
from the user leaves that as it is, and tells the user nothing. -/
theorem noninterference (userId : ObjectId) :
    OwnCallsAlike D userId ∧ OthersUnseen D userId ∧ OthersUnheard D userId := by
  refine ⟨ownCalls_alike D userId, ?_, ?_⟩
  · intro start moves call hlinked s hfresh hapart
    exact body_unseen D (linked_run D hlinked moves) hfresh hapart
  · intro start moves call hlinked hprivate s hfresh hapart hsignals
    exact body_unheard D (private_run D hprivate moves) (linked_run D hlinked moves) hfresh hapart
      hsignals

end

/-! Two databases that differ in a conversation of others: in the first it has a
message, in the second it does not even exist. -/

def insiders : Conversation := ⟨.ending 3, .oneToOne, none, [.ending 1, .ending 2], none, 0, 0⟩

def withOthers : Server :=
  .boot .empty
    ⟨[insiders, ⟨.ending 5, .oneToOne, none, [.ending 2, .ending 6], none, 0, 0⟩], by decide⟩
    ⟨[⟨.ending 7, .ending 5, .ending 2, "psst".toList, .sent, 0, 0⟩], by decide⟩ 5

def withoutOthers : Server := .boot .empty ⟨[insiders], by decide⟩ .empty 5

/-- Asking for the message of others tells nothing of it. -/
theorem noninterference_probe :
    Agree (.ending 1) withOthers withoutOthers ∧
    (chat .default).Alike toldBy (Agree (.ending 1)) (Call.body .default
      (.event ⟨.ofChar 'a', .ending 1, "ann".toList⟩ .messageDelivered
        [.object [("messageId", .string (ObjectId.ending 7).toString)], .function] (.ending 9)))
      withOthers withoutOthers := by
  have hagree : Agree (.ending 1) withOthers withoutOthers :=
    ⟨rfl, rfl, rfl, fun _ _ _ => Iff.rfl, by decide +kernel, by decide +kernel, by decide +kernel⟩
  exact ⟨hagree, (noninterference .default (.ending 1)).1 _ _ _ trivial rfl
    ⟨by decide, by decide⟩ ⟨by decide, by decide⟩ hagree⟩

end RealtimeChat
