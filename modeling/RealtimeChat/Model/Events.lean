import RealtimeChat.Data.IsoDate
import RealtimeChat.Data.Zod
import RealtimeChat.Model.Documents

/-! What goes over the wire (`src/types/socket.d.ts`), and what can go wrong. -/
namespace RealtimeChat
open Data (Text)

/-- A connected client. `data.user` is the payload of the verified token. -/
structure Socket where
  id : SocketId
  userId : ObjectId
  username : Text
deriving DecidableEq

structure SocketMessagePayload where
  id : ObjectId
  conversationId : ObjectId
  /-- `senderId`, populated; `none` where the sender is not stored. -/
  sender : Option Sender
  text : Text
  status : MessageStatus
  createdAt : Text
  updatedAt : Text
deriving DecidableEq

structure PresenceEvent where
  userId : ObjectId
  username : Text
  status : UserStatus
  lastSeen : Text
deriving DecidableEq

inductive TypingSignal where
  | start
  | stop
deriving DecidableEq

/-- Events emitted by the server. A conversation id that the handler passes on as
the client spelled it is a text. -/
inductive ServerEvent where
  | messageNew (payload : SocketMessagePayload)
  | messageDelivered (messageId : ObjectId) (conversationId : Text) (deliveredBy : ObjectId)
  | messageRead (conversationId : Text) (messageIds : List ObjectId) (readBy : ObjectId)
  | typing (signal : TypingSignal) (conversationId : Text) (userId : ObjectId) (username : Text)
  | userOnline (payload : PresenceEvent)
  | userOffline (payload : PresenceEvent)
deriving DecidableEq

/-- The answer to a client event that ends in a callback. -/
structure SocketAck where
  success : Bool
  message : Option String := none
  data : Option SocketMessagePayload := none
deriving DecidableEq

/-- What a handler can throw. -/
inductive Failure where
  /-- `new AppError(message, statusCode)` -/
  | app (message : String) (statusCode : Nat)
  | zod (errors : List Zod.Issue)
  /-- A call of something that is not a function, or a value that cannot be printed. -/
  | typeError
  /-- Mongoose: a value that is no id or no date. -/
  | castError
  /-- Mongoose: a document its schema rejects. -/
  | validationError
  /-- MongoDB: an `_id` already in use. -/
  | duplicateKey
  /-- The query did not get through. -/
  | queryFailed

end RealtimeChat
