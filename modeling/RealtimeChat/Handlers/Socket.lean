import RealtimeChat.Services.Message
import RealtimeChat.Services.Presence

/-! The socket event handlers (`src/sockets/handlers/`).

An event's arguments arrive as values: the client chooses them, callback
included, so a handler that expects a callback may find anything in its place. -/
namespace RealtimeChat
open Data (Text)
open Zod (Value Issue)

/-- `ack?.(response)`: skipped for `undefined` and `null`, and a type error for
anything else that is not a function. -/
def callAck (ack : Value) (response : SocketAck) : Chat Unit :=
  if ack.isNullish then pure ()
  else match ack with
    | .function => perform (.ack response)
    | _ => throw .typeError

/-- A log line that prints a value the client sent. -/
def logValue (v : Value) : Chat Unit := if v.printable then pure () else throw .typeError

def parseWith {α : Type} (schema : Zod.Schema α) (v : Value) : Chat α :=
  match schema.parse v with
  | .ok input => pure input
  | .error errors => throw (.zod errors)

/-! ### `connection.handler.ts` -/

section
variable (D : Deployment)

def conversationJoin (socket : Socket) (conversationId ack : Value) : Chat Unit :=
  tryCatch (do
    if !(← isConversationMember D conversationId socket.userId) then
      callAck ack { success := false, message := some "Not a member of this conversation" }
    else
      perform (.join socket (roomsOf conversationId))
      query .microtask
      logValue conversationId
      callAck ack { success := true })
    fun _ => callAck ack { success := false, message := some "Failed to join conversation" }

end

def conversationLeave (socket : Socket) (conversationId ack : Value) : Chat Unit :=
  tryCatch (do
    perform (.leave socket (roomsOf conversationId))
    query .microtask
    logValue conversationId
    callAck ack { success := true })
    fun _ => callAck ack { success := false, message := some "Failed to leave conversation" }

/-! ### `message.handler.ts` -/

def toSocketPayload (m : PopulatedMessage) : SocketMessagePayload where
  id := m.message.id
  conversationId := m.message.conversationId
  sender := m.sender
  text := m.message.text
  status := m.message.status
  createdAt := IsoDate.toISOString m.message.createdAt
  updatedAt := IsoDate.toISOString m.message.updatedAt

/-- `ms / 1000` as a template literal prints it. -/
def seconds (ms : Nat) : String :=
  let fraction := (IsoDate.digits 3 ms).reverse.dropWhile (· == '0') |>.reverse
  toString (ms / 1000) ++ (if fraction.isEmpty then "" else "." ++ String.ofList fraction)

def rateLimitMessage (D : Deployment) : String :=
  "Rate limit exceeded: max " ++ toString D.socketRateLimitMax ++ " messages per " ++
    seconds D.socketRateLimitWindowMs ++ "s. Please slow down."

/-- `${e.path.join('.')}: ${e.message}` for each issue, joined with `; ` -/
def issuesWithPath (errors : List Issue) : String :=
  "; ".intercalate (errors.map fun e => ".".intercalate e.path ++ ": " ++ e.message)

def messageSend (D : Deployment) (id : ObjectId) (socket : Socket) (payload ack : Value) :
    Chat Unit :=
  tryCatch (do
    if !(← perform (.checkMessageRateLimit socket.userId)) then
      callAck ack { success := false, message := some (rateLimitMessage D) }
    else
      let input ← parseWith sendMessageSchema payload
      let message ← createMessage id socket.userId input
      let _ ← perform (.emit input.conversationId (.messageNew (toSocketPayload message)))
      callAck ack { success := true, data := some (toSocketPayload message) })
    fun error => match error with
      | .zod errors => callAck ack
          { success := false, message := some ("Validation error: " ++ issuesWithPath errors) }
      | .app message _ => callAck ack { success := false, message := some message }
      | _ => callAck ack { success := false, message := some "Failed to send message" }

/-! ### `receipt.handler.ts` -/

/-- The `catch` block that both receipt handlers have. -/
def receiptError (ack : Value) (message : String) : Failure → Chat Unit
  | .zod errors => callAck ack
      { success := false
        message := some ("Validation error: " ++ "; ".intercalate (errors.map (·.message))) }
  | .app message _ => callAck ack { success := false, message := some message }
  | _ => callAck ack { success := false, message := some message }

section
variable (D : Deployment)

def messageDelivered (socket : Socket) (payload ack : Value) : Chat Unit :=
  tryCatch (do
    let input ← parseWith messageDeliveredSchema payload
    let result ← markMessageDelivered D input.messageId socket.userId
    let _ ← perform (.emit result.conversationId
      (.messageDelivered result.message.id result.conversationId socket.userId))
    callAck ack { success := true })
    (receiptError ack "Failed to mark message delivered")

def messageRead (socket : Socket) (payload ack : Value) : Chat Unit :=
  tryCatch (do
    let input ← parseWith messageReadSchema payload
    let result ← markMessagesRead D input.conversationId input.upToMessageId socket.userId
    let _ ← if result.messageIds.isEmpty then pure [] else perform (.emit result.conversationId
      (.messageRead result.conversationId result.messageIds socket.userId))
    callAck ack { success := true })
    (receiptError ack "Failed to mark messages read")

/-! ### `typing.handler.ts` -/

/-- No callback, and no `catch`: the handler starts it with `void`. -/
def broadcastTyping (socket : Socket) (signal : TypingSignal) (payload : Value) : Chat Unit := do
  match typingSchema.parse payload with
  | .error _ => pure ()
  | .ok input =>
    if !(← isConversationMember D (.string input.conversationId) socket.userId) then pure ()
    else
      let _ ← perform (.emitFrom socket input.conversationId
        (.typing signal input.conversationId socket.userId socket.username))
      pure ()

end

/-! ### `presence.handler.ts` -/

def autoJoinConversationRooms (socket : Socket) : Chat Unit := do
  let roomIds ← getUserConversationRoomIds socket.userId
  if roomIds.isEmpty then pure ()
  else
    perform (.join socket roomIds)
    query .microtask

/-- `roomIds.forEach((roomId) => socket.nsp.to(roomId).emit(event))` -/
def emitToEach (event : ServerEvent) : List Text → Chat Unit
  | [] => pure ()
  | room :: rest => do
    let _ ← perform (.emit room event)
    emitToEach event rest

/-- `(user?.lastSeen ?? new Date()).toISOString()` -/
def lastSeenOf (user : Option User) : Chat Text :=
  match user with
  | some user => pure (IsoDate.toISOString user.lastSeen)
  | none => IsoDate.toISOString <$> perform .now

def handleUserConnect (socket : Socket) : Chat Unit := do
  if !(← perform (.addConnection socket.userId socket.id)) then pure ()
  else
    let user ← setUserOnline socket.userId
    let roomIds ← getUserConversationRoomIds socket.userId
    let lastSeen ← lastSeenOf user
    emitToEach (.userOnline ⟨socket.userId, socket.username, .online, lastSeen⟩) roomIds

def handleUserDisconnect (socket : Socket) : Chat Unit := do
  if !(← perform (.removeConnection socket.userId socket.id)) then pure ()
  else
    let user ← setUserOffline socket.userId
    let roomIds ← getUserConversationRoomIds socket.userId
    let lastSeen ← lastSeenOf user
    emitToEach (.userOffline ⟨socket.userId, socket.username, .offline, lastSeen⟩) roomIds

/-! ### `sockets/index.ts` -/

/-- What the `connection` listener starts: joining the rooms, then presence. -/
def onConnection (socket : Socket) : Chat Unit :=
  tryCatch (do
    autoJoinConversationRooms socket
    handleUserConnect socket)
    fun _ => pure ()

/-- What the `disconnect` listener starts. -/
def onDisconnect (socket : Socket) : Chat Unit :=
  tryCatch (handleUserDisconnect socket) fun _ => pure ()

end RealtimeChat
