import RealtimeChat.Data.IsoDate
import RealtimeChat.Data.MoveToFront
import RealtimeChat.Model.Events
import RealtimeChat.Services.Conversation

/-! The list of conversations that a client shows (`frontend-ui/src/hooks/useConversations.ts`
and `frontend-ui/src/components/ConversationList.tsx`).

An entry of the list comes from one of two endpoints: `GET /api/conversations` populates
the members and the last message, `POST /api/conversations` leaves their ids. For a
signed-in user, whose token and socket are there. -/
namespace RealtimeChat
open Data (Text toFront)

/-- `User` of `frontend-ui/src/types`. -/
structure ClientUser where
  id : ObjectId
  username : Text
  email : Text
  status : UserStatus
  lastSeen : Text
deriving DecidableEq

def User.toJSON (u : User) : ClientUser := ⟨u.id, u.username, u.email, u.status, IsoDate.toISOString u.lastSeen⟩

/-- A member, populated or an id. -/
inductive ClientMember where
  | user (user : ClientUser)
  | reference (id : ObjectId)
deriving DecidableEq

namespace ClientMember

/-- `m._id`, which an id does not have -/
def id : ClientMember → Option ObjectId
  | .user u => some u.id
  | .reference _ => none

/-- `m.status` -/
def status : ClientMember → Option UserStatus
  | .user u => some u.status
  | .reference _ => none

/-- `m.username` -/
def username : ClientMember → Option Text
  | .user u => some u.username
  | .reference _ => none

end ClientMember

/-- A last message: as populated, as broadcast, or an id. -/
inductive ClientLastMessage where
  | document (message : Message)
  | payload (payload : SocketMessagePayload)
  | reference (id : ObjectId)
deriving DecidableEq

namespace ClientLastMessage

/-- `lastMessage._id` -/
def id : ClientLastMessage → Option ObjectId
  | .document m => some m.id
  | .payload p => some p.id
  | .reference _ => none

/-- `lastMessage.text` -/
def text : ClientLastMessage → Option Text
  | .document m => some m.text
  | .payload p => some p.text
  | .reference _ => none

end ClientLastMessage

/-- `Conversation` of `frontend-ui/src/types`. -/
structure ClientConversation where
  id : ObjectId
  type : ConversationType
  name : Option Text
  members : List ClientMember
  lastMessage : Option ClientLastMessage
  unreadCount : Option Nat
deriving DecidableEq

/-- An item of `listConversationsHandler`: `{ ...conversation.toJSON(), unreadCount }` -/
def ConversationWithUnreadCount.toJSON (c : ConversationWithUnreadCount) : ClientConversation where
  id := c.conversation.conversation.id
  type := c.conversation.conversation.type
  name := c.conversation.conversation.name
  members := c.conversation.members.map fun u => .user u.toJSON
  lastMessage := c.conversation.lastMessage.map .document
  unreadCount := some c.unreadCount

/-- What `createConversationHandler` answers with: the document, nothing populated. -/
def Conversation.toJSON (c : Conversation) : ClientConversation where
  id := c.id
  type := c.type
  name := c.name
  members := c.members.map .reference
  lastMessage := c.lastMessage.map .reference
  unreadCount := none

/-! ### The hook -/

structure UseConversations where
  conversations : List ClientConversation
  loading : Bool
  error : Option String

namespace UseConversations

def mounted : UseConversations := ⟨[], true, none⟩

/-- `refresh()`, up to its request -/
def refresh (s : UseConversations) : UseConversations := {s with loading := true}

/-- `setConversations(list)` -/
def refreshed (list : List ConversationWithUnreadCount) (s : UseConversations) : UseConversations :=
  {s with conversations := list.map ConversationWithUnreadCount.toJSON, error := none, loading := false}

def refreshFailed (message : String) (s : UseConversations) : UseConversations :=
  {s with error := some message, loading := false}

/-- `startConversation(type, members, name)`, answered with `conversation` -/
def startConversation (conversation : Conversation) (s : UseConversations) : UseConversations :=
  {s with conversations :=
    if s.conversations.any (fun c => c.id == conversation.id) then s.conversations
    else conversation.toJSON :: s.conversations}

def bumpConversationWithMessage (message : SocketMessagePayload) (s : UseConversations) :
    UseConversations :=
  {s with
    conversations := toFront (fun c => c.id == message.conversationId)
      (fun c => {c with lastMessage := some (.payload message)}) s.conversations}

@[simp] theorem bump_conversations (message : SocketMessagePayload) (s : UseConversations) :
    (s.bumpConversationWithMessage message).conversations =
      toFront (fun c => c.id == message.conversationId)
        (fun c => {c with lastMessage := some (.payload message)}) s.conversations := rfl

theorem mem_bump {message : SocketMessagePayload} {s : UseConversations} {c : ClientConversation}
    (h : c ∈ (s.bumpConversationWithMessage message).conversations) :
    c ∈ s.conversations ∨ ∃ c' ∈ s.conversations, c = {c' with lastMessage := some (.payload message)} := by
  rw [bump_conversations] at h
  exact Data.mem_toFront h

/-- A member, with what the event says of it. -/
def withPresence (payload : PresenceEvent) : ClientMember → ClientMember
  | .user u => .user <| if u.id = payload.userId then
    {u with status := payload.status, lastSeen := payload.lastSeen} else u
  | .reference id => .reference id

@[simp] theorem withPresence_id (payload : PresenceEvent) (m : ClientMember) :
    (withPresence payload m).id = m.id := by
  cases m with
  | user u =>
    simp only [withPresence, ClientMember.id]
    split <;> rfl
  | reference id => rfl

@[simp] theorem withPresence_username (payload : PresenceEvent) (m : ClientMember) :
    (withPresence payload m).username = m.username := by
  cases m with
  | user u =>
    simp only [withPresence, ClientMember.username]
    split <;> rfl
  | reference id => rfl

/-- The status of the user that the event is about is the event's; all others keep theirs. -/
theorem withPresence_status {payload : PresenceEvent} {m : ClientMember} {id : ObjectId}
    (h : m.id = some id) : (withPresence payload m).status =
      if id = payload.userId then some payload.status else m.status := by
  cases m with
  | user u =>
    obtain rfl := Option.some.inj h
    simp only [withPresence, ClientMember.status]
    split <;> rfl
  | reference id => cases h

def updatePresence (payload : PresenceEvent) (s : UseConversations) : UseConversations :=
  {s with conversations := s.conversations.map fun conv =>
    {conv with members := conv.members.map (withPresence payload)}}

@[simp] theorem updatePresence_conversations (payload : PresenceEvent) (s : UseConversations) :
    (s.updatePresence payload).conversations = s.conversations.map fun conv =>
      {conv with members := conv.members.map (withPresence payload)} := rfl

/-- The listener of an event; the hook listens for messages and presence only. -/
def on : ServerEvent → UseConversations → UseConversations
  | .messageNew payload => bumpConversationWithMessage payload
  | .userOnline payload => updatePresence payload
  | .userOffline payload => updatePresence payload
  | _ => id

/-- The events come in, first to last. -/
def onAll (events : List ServerEvent) (s : UseConversations) : UseConversations :=
  events.foldl (fun s e => s.on e) s

end UseConversations

/-! ### The list as it is shown -/

/-- `text || otherwise` -/
def orText (text : Option Text) (otherwise : Text) : Text :=
  match text with
  | none => otherwise
  | some t => if t.isEmpty then otherwise else t

def getConversationLabel (conversation : ClientConversation) (currentUserId : ObjectId) : Text :=
  if conversation.type = .group then orText conversation.name "Group chat".toList
  else
    let other := conversation.members.find? fun m => m.id != some currentUserId
    orText (other.bind ClientMember.username) "Unknown user".toList

def isOtherMemberOnline (conversation : ClientConversation) (currentUserId : ObjectId) : Bool :=
  conversation.members.any fun m => m.id != some currentUserId && m.status == some .online

end RealtimeChat
