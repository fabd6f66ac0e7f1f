import RealtimeChat.Data.Collection
import RealtimeChat.Model.ObjectId

/-! The documents of the database (`src/models/`).

Times are the milliseconds of `Date.now()`. The fields that no modelled function
reads are left out (`passwordHash`). -/
namespace RealtimeChat
open Data (Text Collection)

inductive UserStatus where
  | online
  | offline
deriving DecidableEq

structure User where
  id : ObjectId
  username : Text
  email : Text
  status : UserStatus
  lastSeen : Nat
deriving DecidableEq

inductive ConversationType where
  | oneToOne
  | group
deriving DecidableEq

structure Conversation where
  id : ObjectId
  type : ConversationType
  name : Option Text
  members : List ObjectId
  lastMessage : Option ObjectId
  createdAt : Nat
  updatedAt : Nat
deriving DecidableEq

inductive MessageStatus where
  | sent
  | delivered
  | read
deriving DecidableEq

/-- `sent < delivered < read` -/
def MessageStatus.rank : MessageStatus → Nat
  | .sent => 0
  | .delivered => 1
  | .read => 2

structure Message where
  id : ObjectId
  conversationId : ObjectId
  senderId : ObjectId
  text : Text
  status : MessageStatus
  createdAt : Nat
  updatedAt : Nat
deriving DecidableEq

abbrev Users := Collection User ObjectId User.id
abbrev Conversations := Collection Conversation ObjectId Conversation.id
abbrev Messages := Collection Message ObjectId Message.id

/-- What `populate(_, 'username email')` puts in the place of a user's id. -/
structure Sender where
  id : ObjectId
  username : Text
  email : Text
deriving DecidableEq

/-- A message with its sender populated; a sender who is not stored is dropped. -/
structure PopulatedMessage where
  message : Message
  sender : Option Sender
deriving DecidableEq

def User.toSender (u : User) : Sender := ⟨u.id, u.username, u.email⟩

end RealtimeChat
