import Mathlib.Data.Finset.Card
import RealtimeChat.Async.Schedule
import RealtimeChat.Data.Keyset
import RealtimeChat.Model.Validators

/-! The state that the handlers share, and what each of their steps does to it.

`Server` is the database, the process-local maps and the socket server's rooms.
`Action` lists what a handler does without awaiting, `Query` what it awaits: one
constructor for each database call that the source makes. `Server.act` and
`Server.answer` say what they do. A query that is refused by the database or by
Mongoose is answered with an error and leaves the state as it is. -/
namespace RealtimeChat
open Data (Text trim utf16Length Collection Descending)
open Zod (Value)

/-- What the deployment and the libraries fix: the limits of `config/env.ts`, how
MongoDB orders documents with equal sort keys, and what the id constructor and
Mongoose make of an object sent in the place of an id. -/
structure Deployment where
  socketRateLimitMax : Nat
  socketRateLimitWindowMs : Nat
  byUpdate : Descending Conversation Conversation.updatedAt
  byCreation : Descending Message Message.createdAt
  isValidObject : List (String × Value) → Bool
  castObject : List (String × Value) → Option ObjectId

namespace Deployment
variable (D : Deployment)

/-- `Types.ObjectId.isValid(v)`: besides the spellings of an id, numbers and
twelve bytes pass. -/
def isValid : Value → Bool
  | .string s => ObjectId.isValid s
  | .number _ => true
  | .bytes n => n == 12
  | .object fields => D.isValidObject fields
  | _ => false

/-- The id that Mongoose casts a query value to. -/
def cast : Value → Option ObjectId
  | .string s => ObjectId.cast s
  | .object fields => D.castObject fields
  | _ => none

end Deployment

/-- The defaults of `config/env.ts`, for clients that send no object in the place of
an id. -/
def Deployment.default : Deployment where
  socketRateLimitMax := 10
  socketRateLimitWindowMs := 10 * 1000
  byUpdate := .stable _ _
  byCreation := .stable _ _
  isValidObject _ := false
  castObject _ := none

/-! ### State -/

structure RateLimitBucket where
  count : Nat
  windowStart : Nat

structure Server where
  users : Users
  conversations : Conversations
  messages : Messages
  /-- `Date.now()` -/
  clock : Nat
  /-- `socketRateLimit.middleware.ts` -/
  buckets : ObjectId → Option RateLimitBucket
  /-- `presence.service.ts` -/
  activeConnections : ObjectId → Option (Finset SocketId)
  /-- The connected sockets, and the ids of all sockets so far. -/
  sockets : List Socket
  socketIds : List SocketId
  /-- Which socket is in which room. A room that is not named by a text is not
  kept: no emit can name it. -/
  rooms : List (Text × Socket)

/-- A server with no connection yet, on the given database. -/
def Server.boot (users : Users) (conversations : Conversations) (messages : Messages)
    (clock : Nat) : Server :=
  { users, conversations, messages, clock, buckets := fun _ => none,
    activeConnections := fun _ => none, sockets := [], socketIds := [], rooms := [] }

/-! ### Process-local state -/

/-- `checkMessageRateLimit(userId)`, at `Date.now() = s.clock` -/
def checkMessageRateLimit (D : Deployment) (userId : ObjectId) (s : Server) : Bool × Server :=
  let now := s.clock
  let fresh := (true, {s with buckets := Function.update s.buckets userId (some ⟨1, now⟩)})
  match s.buckets userId with
  | none => fresh
  | some bucket =>
    if now - bucket.windowStart ≥ D.socketRateLimitWindowMs then fresh
    else if bucket.count ≥ D.socketRateLimitMax then (false, s)
    else (true, {s with
      buckets := Function.update s.buckets userId (some {bucket with count := bucket.count + 1})})

def addConnection (userId : ObjectId) (socketId : SocketId) (s : Server) : Bool × Server :=
  match s.activeConnections userId with
  | some sockets => (sockets.card == 0, {s with
      activeConnections := Function.update s.activeConnections userId
        (some (insert socketId sockets))})
  | none => (true, {s with
      activeConnections := Function.update s.activeConnections userId (some {socketId})})

def removeConnection (userId : ObjectId) (socketId : SocketId) (s : Server) : Bool × Server :=
  match s.activeConnections userId with
  | none => (true, s)
  | some sockets =>
    let left := sockets.erase socketId
    let isLastConnection := left.card == 0
    (isLastConnection, {s with
      activeConnections := Function.update s.activeConnections userId
        (if isLastConnection then none else some left)})

def isUserOnline (userId : ObjectId) (s : Server) : Bool :=
  match s.activeConnections userId with
  | some sockets => decide (0 < sockets.card)
  | none => false

/-! ### Rooms -/

/-- The rooms that `socket.join(v)` names: none where `v` is not a text. -/
def roomsOf : Value → List Text
  | .string s => [s]
  | _ => []

def joinRooms (socket : Socket) (names : List Text) (s : Server) : Server :=
  {s with rooms := names.foldl (fun rooms name =>
    if (name, socket) ∈ rooms then rooms else rooms ++ [(name, socket)]) s.rooms}

def leaveRooms (socket : Socket) (names : List Text) (s : Server) : Server :=
  {s with rooms := s.rooms.filter fun entry => !(entry.2 == socket && names.contains entry.1)}

/-- The connected sockets in a room: those that an emit to it reaches. -/
def inRoom (room : Text) (s : Server) : List Socket :=
  s.sockets.filter fun socket => decide ((room, socket) ∈ s.rooms)

/-! ### The interface of the handlers -/

inductive Action where
  /-- `Date.now()`, `new Date()`, and the clock behind Mongoose's timestamps -/
  | now
  | checkMessageRateLimit (userId : ObjectId)
  | addConnection (userId : ObjectId) (socketId : SocketId)
  | removeConnection (userId : ObjectId) (socketId : SocketId)
  | join (socket : Socket) (rooms : List Text)
  | leave (socket : Socket) (rooms : List Text)
  /-- `socket.nsp.to(room).emit(event)` -/
  | emit (room : Text) (event : ServerEvent)
  /-- `socket.to(room).emit(event)` -/
  | emitFrom (socket : Socket) (room : Text) (event : ServerEvent)
  | ack (response : SocketAck)

/-- An emit yields the sockets it reaches; no handler looks at them. -/
abbrev Action.Reply : Action → Type
  | .now => Nat
  | .checkMessageRateLimit _ => Bool
  | .addConnection _ _ => Bool
  | .removeConnection _ _ => Bool
  | .join _ _ => Unit
  | .leave _ _ => Unit
  | .emit _ _ => List Socket
  | .emitFrom _ _ _ => List Socket
  | .ack _ => Unit

/-- A conversation as `listConversations` returns it, `lastMessage` and `members`
populated. -/
structure PopulatedConversation where
  conversation : Conversation
  lastMessage : Option Message
  members : List User

inductive Query where
  /-- `Conversation.findOne({ _id, members: member })` -/
  | conversationFindOne (id : Value) (member : ObjectId)
  /-- `Conversation.findOne({ type: '1:1', members: { $all, $size } })` -/
  | conversationFindOneToOne (memberIds : List Text)
  /-- `Conversation.create({ type, name, members })`, issued at `now` -/
  | conversationCreate (id : ObjectId) (type : ConversationType) (name : Option Text)
    (memberIds : List Text) (now : Nat)
  /-- `Conversation.find({ members: member })`, sorted and populated -/
  | conversationFind (member : ObjectId)
  /-- `Conversation.find({ members: member }).select('_id')` -/
  | conversationIds (member : ObjectId)
  /-- `conversation.save()` after `conversation.lastMessage = lastMessage` -/
  | conversationSave (id lastMessage : ObjectId) (now : Nat)
  /-- `Message.create({ conversationId, senderId, text, status: 'sent' })`, issued at `now` -/
  | messageCreate (id : ObjectId) (conversationId : Text) (senderId : ObjectId) (text : Text)
    (now : Nat)
  /-- `message.populate('senderId', 'username email')` -/
  | messagePopulate (senderId : ObjectId)
  /-- `Message.findById(id)` -/
  | messageFindById (id : Text)
  /-- `Message.findOne({ _id: id, conversationId })` -/
  | messageFindOne (id conversationId : Text)
  /-- `message.save()` after `message.status = status` -/
  | messageSave (id : ObjectId) (status : MessageStatus) (now : Nat)
  /-- `Message.find({ conversationId, senderId: { $ne }, status: { $ne: 'read' },
  createdAt: { $lte } }).select('_id')` -/
  | messageFindUnread (conversationId : Text) (reader : ObjectId) (upTo : Nat)
  /-- `Message.updateMany({ _id: { $in: ids } }, { $set: { status: 'read' } })` -/
  | messageUpdateMany (ids : List ObjectId) (now : Nat)
  /-- `Message.find(query).sort({ createdAt: -1 }).limit(limit)`, senders populated.
  `before` is the `$lt` of the query, `none` inside for an invalid date. -/
  | messageFind (conversationId : Text) (before : Option (Option Int)) (limit : Nat)
  /-- `Message.aggregate([..])`: how many messages each conversation has that are
  neither the reader's own nor read -/
  | messageAggregate (conversationIds : List ObjectId) (reader : ObjectId)
  /-- `User.findByIdAndUpdate(id, { status, lastSeen? }, { new: true })` -/
  | userUpdate (id : ObjectId) (status : UserStatus) (lastSeen : Option Nat)
  /-- `await` of what is already there -/
  | microtask

abbrev Query.Answer : Query → Type
  | .conversationFindOne _ _ => Option Conversation
  | .conversationFindOneToOne _ => Option Conversation
  | .conversationCreate _ _ _ _ _ => Conversation
  | .conversationFind _ => List PopulatedConversation
  | .conversationIds _ => List ObjectId
  | .conversationSave _ _ _ => Unit
  | .messageCreate _ _ _ _ _ => Message
  | .messagePopulate _ => Option Sender
  | .messageFindById _ => Option Message
  | .messageFindOne _ _ => Option Message
  | .messageSave _ _ _ => Unit
  | .messageFindUnread _ _ _ => List ObjectId
  | .messageUpdateMany _ _ => Unit
  | .messageFind _ _ _ => List PopulatedMessage
  | .messageAggregate _ _ => List (ObjectId × Nat)
  | .userUpdate _ _ _ => Option User
  | .microtask => Unit

/-- A database call may fail on the way; what is already there is always answered. -/
def Query.fallible : Query → Bool
  | .microtask => false
  | _ => true

abbrev chatInterface : Async.Interface where
  Action := Action
  Reply := Action.Reply
  Query := Query
  Answer := Query.Answer

/-- A program of the server's process. -/
abbrev Chat (α : Type) := Async.Program chatInterface Failure α

abbrev perform (a : Action) : Chat a.Reply := Async.Program.perform (I := chatInterface) a

abbrev query (q : Query) : Chat q.Answer := Async.Program.query (I := chatInterface) q

/-! ### What actions do -/

namespace Server

def act (D : Deployment) (a : Action) (s : Server) : a.Reply × Server :=
  match a with
  | .now => (s.clock, s)
  | .checkMessageRateLimit userId => checkMessageRateLimit D userId s
  | .addConnection userId socketId => addConnection userId socketId s
  | .removeConnection userId socketId => removeConnection userId socketId s
  | .join socket rooms => ((), joinRooms socket rooms s)
  | .leave socket rooms => ((), leaveRooms socket rooms s)
  | .emit room _ => (inRoom room s, s)
  | .emitFrom socket room _ => ((inRoom room s).filter (· != socket), s)
  | .ack _ => ((), s)

/-! ### What queries do -/

def populate (senderId : ObjectId) (s : Server) : Option Sender :=
  (s.users.find senderId).map User.toSender

def populateConversation (s : Server) (c : Conversation) : PopulatedConversation :=
  ⟨c, c.lastMessage.bind s.messages.find, c.members.filterMap s.users.find⟩

/-- `{ type: '1:1', members: { $all: memberIds, $size: memberIds.length } }` -/
def matchesOneToOne (memberIds : List ObjectId) (c : Conversation) : Bool :=
  c.type == .oneToOne && memberIds.all (fun m => c.members.contains m) &&
    c.members.length == memberIds.length

/-- `{ conversationId, senderId: { $ne: reader }, status: { $ne: 'read' },
createdAt: { $lte: upTo } }` -/
def matchesUnread (conversationId reader : ObjectId) (upTo : Nat) (m : Message) : Bool :=
  m.conversationId == conversationId && m.senderId != reader && m.status != .read &&
    decide (m.createdAt ≤ upTo)

def findOne (id member : ObjectId) (s : Server) : Option Conversation :=
  (s.conversations.find id).filter fun c => c.members.contains member

def createConversation (c : Conversation) (s : Server) : Except Failure Conversation × Server :=
  match s.conversations.insert c with
  | some conversations => (.ok c, {s with conversations})
  | none => (.error .duplicateKey, s)

/-- Insert a message that its schema accepts. -/
def createMessage (m : Message) (s : Server) : Except Failure Message × Server :=
  if m.text = [] ∨ 5000 < utf16Length m.text then (.error .validationError, s)
  else match s.messages.insert m with
    | some messages => (.ok m, {s with messages})
    | none => (.error .duplicateKey, s)

def saveConversation (id lastMessage : ObjectId) (now : Nat) (s : Server) : Server :=
  {s with
    conversations := s.conversations.modify (fun c => c.id == id)
      (fun c => {c with lastMessage := some lastMessage, updatedAt := now}) fun _ => rfl}

/-- Set the status of some messages, wherever it stood. -/
def setStatus (p : Message → Bool) (status : MessageStatus) (now : Nat) (s : Server) : Server :=
  {s with messages := s.messages.modify p (fun m => {m with status, updatedAt := now}) fun _ => rfl}

/-- One entry for each conversation that has a matching message. -/
def countUnread (conversationIds : List ObjectId) (reader : ObjectId) (s : Server) :
    List (ObjectId × Nat) :=
  let matching := s.messages.docs.filter fun m =>
    conversationIds.contains m.conversationId && m.senderId != reader && m.status != .read
  (matching.map Message.conversationId).dedup.map fun id =>
    (id, matching.countP fun m => m.conversationId == id)

def findPage (D : Deployment) (conversationId : ObjectId) (before : Option Int) (limit : Nat)
    (s : Server) : List PopulatedMessage :=
  let matching := s.messages.docs.filter fun m =>
    m.conversationId == conversationId && before.all fun t => decide ((m.createdAt : Int) < t)
  ((D.byCreation.sort matching).take limit).map fun m => ⟨m, s.populate m.senderId⟩

def updateUser (id : ObjectId) (status : UserStatus) (lastSeen : Option Nat) (s : Server) :
    Option User × Server :=
  let users := s.users.modify (fun u => u.id == id)
    (fun u => {u with status, lastSeen := lastSeen.getD u.lastSeen}) fun _ => rfl
  (users.find id, {s with users})

/-- Answer with what an id denotes, or with a cast error. -/
def casting {α : Type} (id : Option ObjectId) (s : Server)
    (f : ObjectId → Except Failure α × Server) : Except Failure α × Server :=
  match id with
  | some id => f id
  | none => (.error .castError, s)

def answer (D : Deployment) (q : Query) (s : Server) : Except Failure q.Answer × Server :=
  match q with
  | .conversationFindOne id member => casting (D.cast id) s fun id => (.ok (s.findOne id member), s)
  | .conversationFindOneToOne memberIds =>
    match memberIds.mapM ObjectId.cast with
    | some memberIds => (.ok (s.conversations.docs.find? (matchesOneToOne memberIds)), s)
    | none => (.error .castError, s)
  | .conversationCreate id type name memberIds now =>
    match memberIds.mapM ObjectId.cast with
    | some members => s.createConversation ⟨id, type, name.map trim, members, none, now, now⟩
    | none => (.error .validationError, s)
  | .conversationFind member =>
    (.ok ((D.byUpdate.sort (s.conversations.docs.filter fun c => c.members.contains member)).map
      s.populateConversation), s)
  | .conversationIds member =>
    (.ok ((s.conversations.docs.filter fun c => c.members.contains member).map Conversation.id), s)
  | .conversationSave id lastMessage now => (.ok (), s.saveConversation id lastMessage now)
  | .messageCreate id conversationId senderId text now =>
    match ObjectId.cast conversationId with
    | some conversationId =>
      s.createMessage ⟨id, conversationId, senderId, trim text, .sent, now, now⟩
    | none => (.error .validationError, s)
  | .messagePopulate senderId => (.ok (s.populate senderId), s)
  | .messageFindById id => casting (ObjectId.cast id) s fun id => (.ok (s.messages.find id), s)
  | .messageFindOne id conversationId =>
    casting (ObjectId.cast id) s fun id => casting (ObjectId.cast conversationId) s fun c =>
      (.ok ((s.messages.find id).filter fun m => m.conversationId == c), s)
  | .messageSave id status now => (.ok (), s.setStatus (fun m => m.id == id) status now)
  | .messageFindUnread conversationId reader upTo =>
    casting (ObjectId.cast conversationId) s fun c =>
      (.ok ((s.messages.docs.filter (matchesUnread c reader upTo)).map Message.id), s)
  | .messageUpdateMany ids now => (.ok (), s.setStatus (fun m => ids.contains m.id) .read now)
  | .messageFind conversationId before limit =>
    casting (ObjectId.cast conversationId) s fun c =>
      match before with
      | none => (.ok (s.findPage D c none limit), s)
      | some none => (.error .castError, s)
      | some (some t) => (.ok (s.findPage D c (some t) limit), s)
  | .messageAggregate conversationIds reader => (.ok (s.countUnread conversationIds reader), s)
  | .userUpdate id status lastSeen =>
    let updated := s.updateUser id status lastSeen
    (.ok updated.1, updated.2)
  | .microtask => (.ok (), s)

end Server

end RealtimeChat
