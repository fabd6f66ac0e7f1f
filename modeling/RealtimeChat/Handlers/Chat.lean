import RealtimeChat.Handlers.Socket

/-! The whole server: which calls arrive, and which program each one runs.

A call is a socket connecting or disconnecting, an event from a connected socket,
or an authenticated REST request (`src/controllers/conversation.controller.ts`).
`chat` is the server as a system of such calls over the shared `Server` state. -/
namespace RealtimeChat
open Data (Text)
open Zod (Value)

/-- The events the server listens for on a socket, `disconnect` apart. -/
inductive ClientEvent where
  | conversationJoin
  | conversationLeave
  | messageSend
  | messageDelivered
  | messageRead
  | typing (signal : TypingSignal)
deriving DecidableEq

inductive Call where
  | connect (socket : Socket)
  | disconnect (socket : Socket)
  /-- `id` is the `_id` of the message, should one be created. -/
  | event (socket : Socket) (name : ClientEvent) (args : List Value) (id : ObjectId)
  /-- `POST /api/conversations`; `id` as above. -/
  | createConversation (userId : ObjectId) (body : Value) (id : ObjectId)
  /-- `GET /api/conversations` -/
  | listConversations (userId : ObjectId)
  /-- `GET /api/conversations/:id/messages` -/
  | getMessageHistory (userId : ObjectId) (id : Text) (page : PaginationQuery)

/-- What a REST request is answered with. Socket handlers have no response. -/
inductive Response where
  | none
  | conversation (conversation : Conversation)
  | conversations (conversations : List ConversationWithUnreadCount)
  | messages (page : PaginatedMessages)

/-- The status with which `errorHandler` answers an error. -/
def Failure.statusCode : Failure → Nat
  | .app _ code => if code = 0 then 500 else code
  | _ => 500

/-- `validate(schema)` on what the schema found wrong. -/
def rejectInvalid (errors : List Zod.Issue) : Chat Unit :=
  if errors.isEmpty then pure ()
  else throw (.app ("Validation error: " ++ issuesWithPath errors) 400)

def createConversationHandler (id userId : ObjectId) (body : Value) : Chat Response := do
  match createConversationSchema.parse body with
  | .error errors => throw (.app ("Validation error: " ++ issuesWithPath errors) 400)
  | .ok input =>
    let conversation ← createConversation id userId input
    pure (.conversation conversation)

def listConversationsHandler (userId : ObjectId) : Chat Response :=
  .conversations <$> listConversations userId

def getMessageHistoryHandler (D : Deployment) (userId : ObjectId) (id : Text)
    (page : PaginationQuery) : Chat Response := do
  rejectInvalid (paginationQuerySchema page)
  let _ ← assertMembership D (.string id) userId
  let result ← getMessageHistory id page.limit.toNat page.before
  pure (.messages result)

/-- The handler that an event starts, on the first two of its arguments: the
payload, and what stands in the place of the callback. -/
def handle (D : Deployment) (socket : Socket) (name : ClientEvent) (args : List Value)
    (id : ObjectId) : Chat Unit :=
  let payload := args.getD 0 .undefined
  let ack := args.getD 1 .undefined
  match name with
  | .conversationJoin => conversationJoin D socket payload ack
  | .conversationLeave => conversationLeave socket payload ack
  | .messageSend => messageSend D id socket payload ack
  | .messageDelivered => messageDelivered D socket payload ack
  | .messageRead => messageRead D socket payload ack
  | .typing signal => broadcastTyping D socket signal payload

def Call.body (D : Deployment) : Call → Chat Response
  | .connect socket => (fun _ => .none) <$> onConnection socket
  | .disconnect socket => (fun _ => .none) <$> onDisconnect socket
  | .event socket name args id => (fun _ => .none) <$> handle D socket name args id
  | .createConversation userId body id => createConversationHandler id userId body
  | .listConversations userId => listConversationsHandler userId
  | .getMessageHistory userId id page => getMessageHistoryHandler D userId id page

/-- A new socket, in the room named by its own id. -/
def connectSocket (socket : Socket) (s : Server) : Server :=
  {s with
    sockets := s.sockets ++ [socket]
    socketIds := socket.id :: s.socketIds
    rooms := s.rooms ++ [(socket.id.text, socket)]}

/-- A socket that disconnects is taken out of all rooms before the handler runs. -/
def disconnectSocket (socket : Socket) (s : Server) : Server :=
  {s with
    sockets := s.sockets.filter (· != socket)
    rooms := s.rooms.filter fun entry => entry.2 != socket}

/-- Events come from connected sockets only. -/
def Call.accept (call : Call) (s : Server) : Option Server :=
  match call with
  | .connect socket => if socket.id ∈ s.socketIds then none else some (connectSocket socket s)
  | .disconnect socket => if socket ∈ s.sockets then some (disconnectSocket socket s) else none
  | .event socket _ _ _ => if socket ∈ s.sockets then some s else none
  | _ => some s

/-- The server of `src/` as a system. -/
def chat (D : Deployment) : Async.System chatInterface Server Failure Call Response where
  act := Server.act D
  answer := Server.answer D
  fallible := Query.fallible
  fault := .queryFailed
  accept := Call.accept
  body := Call.body D
  pass n s := {s with clock := s.clock + n}

/-- What has happened on the server, latest first. -/
abbrev Log := List (Async.Event chatInterface Failure Call)

end RealtimeChat
