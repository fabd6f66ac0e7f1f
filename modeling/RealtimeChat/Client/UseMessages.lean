import Mathlib.Logic.Function.Basic
import RealtimeChat.Model.Events

/-! The thread that a client shows (`frontend-ui/src/hooks/useMessages.ts`).

For as long as one conversation stays open: from the effect that resets the thread,
calls `load()` and listens to the socket, up to its cleanup. A message arrives in
the shape of `SocketMessagePayload` from the socket and from the history alike. -/
namespace RealtimeChat
open Data (Text)

/-- The state of the hook. -/
structure UseMessages where
  messages : List SocketMessagePayload
  loading : Bool
  error : Option String
  /-- The names of those who are typing, by their ids. -/
  typingUsers : ObjectId → Option Text

namespace UseMessages

/-- The effect starts: the thread is empty, and `load()` has begun. -/
def subscribe (s : UseMessages) : UseMessages :=
  {s with messages := [], typingUsers := fun _ => none, loading := true}

/-! ### `load()` -/

/-- `setMessages([...page.messages].reverse())` -/
def loaded (page : List SocketMessagePayload) (s : UseMessages) : UseMessages :=
  {s with messages := page.reverse, error := none, loading := false}

def loadFailed (message : String) (s : UseMessages) : UseMessages :=
  {s with error := some message, loading := false}

/-! ### Events of the socket -/

section
variable (conversationId : Text)

def onNewMessage (message : SocketMessagePayload) (s : UseMessages) : UseMessages :=
  if message.conversationId.toString ≠ conversationId then s
  else {s with messages := s.messages ++ [message]}

def onDelivered (messageId : ObjectId) (payloadConversationId : Text) (s : UseMessages) :
    UseMessages :=
  if payloadConversationId ≠ conversationId then s
  else {s with messages := s.messages.map fun m =>
    if m.id = messageId ∧ m.status = .sent then {m with status := .delivered} else m}

def onRead (payloadConversationId : Text) (messageIds : List ObjectId) (s : UseMessages) :
    UseMessages :=
  if payloadConversationId ≠ conversationId then s
  else {s with messages := s.messages.map fun m =>
    if m.id ∈ messageIds then {m with status := .read} else m}

/-- `onTypingStart` and `onTypingStop` -/
def onTyping (signal : TypingSignal) (payloadConversationId : Text) (userId : ObjectId)
    (username : Text) (s : UseMessages) : UseMessages :=
  if payloadConversationId ≠ conversationId then s
  else {s with typingUsers := Function.update s.typingUsers userId (match signal with
    | .start => some username
    | .stop => none)}

/-- The listener of an event; the hook does not listen for presence. -/
def on : ServerEvent → UseMessages → UseMessages
  | .messageNew payload => onNewMessage conversationId payload
  | .messageDelivered messageId c _ => onDelivered conversationId messageId c
  | .messageRead c messageIds _ => onRead conversationId c messageIds
  | .typing signal c userId username => onTyping conversationId signal c userId username
  | .userOnline _ => id
  | .userOffline _ => id

end

/-! ### The ids in the thread -/

def ids (s : UseMessages) : List ObjectId := s.messages.map SocketMessagePayload.id

@[simp] theorem ids_loaded (page : List SocketMessagePayload) (s : UseMessages) :
    (s.loaded page).ids = (page.map SocketMessagePayload.id).reverse := List.map_reverse

/-- The message of the conversation that the event announces. -/
def announces (conversationId : Text) : ServerEvent → Option ObjectId
  | .messageNew payload =>
    if payload.conversationId.toString ≠ conversationId then none else some payload.id
  | _ => none

theorem announces_eq_some {conversationId : Text} {e : ServerEvent} {id : ObjectId}
    (h : announces conversationId e = some id) : ∃ payload, e = .messageNew payload ∧ payload.id = id := by
  cases e with
  | messageNew payload =>
    simp only [announces] at h
    split at h
    · cases h
    · exact ⟨payload, rfl, Option.some.inj h⟩
  | _ => cases h

/-- Statuses come and go; a message announced is appended, whether it is there or not. -/
theorem ids_on (conversationId : Text) (e : ServerEvent) (s : UseMessages) :
    (s.on conversationId e).ids = s.ids ++ (announces conversationId e).toList := by
  have hmap : ∀ f : SocketMessagePayload → SocketMessagePayload, (∀ m, (f m).id = m.id) →
      (s.messages.map f).map SocketMessagePayload.id = s.ids ++ [] := by
    intro f hf
    rw [List.map_map, List.append_nil]
    exact List.map_congr_left fun m _ => hf m
  cases e with
  | messageNew payload =>
    simp only [on, onNewMessage, announces]
    split
    · exact (List.append_nil _).symm
    · exact List.map_append
  | messageDelivered messageId c deliveredBy =>
    simp only [on, onDelivered, announces]
    split
    · exact (List.append_nil _).symm
    · apply hmap
      intro m
      split <;> rfl
  | messageRead c messageIds readBy =>
    simp only [on, onRead, announces]
    split
    · exact (List.append_nil _).symm
    · apply hmap
      intro m
      split <;> rfl
  | typing signal c userId username =>
    simp only [on, onTyping, announces]
    split
    · exact (List.append_nil _).symm
    · exact (List.append_nil _).symm
  | userOnline payload => exact (List.append_nil _).symm
  | userOffline payload => exact (List.append_nil _).symm

end UseMessages

end RealtimeChat
