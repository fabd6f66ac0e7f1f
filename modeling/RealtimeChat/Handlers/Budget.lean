import RealtimeChat.Async.Budget
import RealtimeChat.Handlers.Auth
import RealtimeChat.Handlers.Chat

/-! How much the server has to do.

No call loops over what it finds: each awaits a fixed number of answers, however many
members, messages and rooms there are and whatever the client has sent. `Call.awaits` is
the table of these numbers, read off the handlers. Together the tasks of a run take no
more steps than twice what the calls let in may await (`chat_rests`), in any order and
with any failures: once no more calls arrive, the server comes to rest, and every call
has ended by then. The same holds of the authentication service (`auth_rests`). -/
namespace RealtimeChat
open Data (Text)
open Zod (Value)
open Async (Config Entry Move asked deeds)
open Async.Program

/-! ### The handlers -/

def ClientEvent.awaits : ClientEvent → Nat
  | .conversationJoin => 2
  | .conversationLeave => 1
  | .messageSend => 4
  | .messageDelivered => 3
  | .messageRead => 4
  | .typing _ => 1

/-- The most answers that a call awaits, on any of its paths. -/
def Call.awaits : Call → Nat
  | .connect _ => 4
  | .disconnect _ => 2
  | .event _ name _ _ => name.awaits
  | .createConversation _ _ _ => 2
  | .listConversations _ => 2
  | .getMessageHistory _ _ _ => 2

theorem callAck_awaits (ack : Value) (r : SocketAck) : (callAck ack r).Awaits 0 := by
  unfold callAck
  split
  · trivial
  · split
    · exact awaits_perform _
    · trivial

theorem logValue_awaits (v : Value) : (logValue v).Awaits 0 := by
  unfold logValue
  split <;> trivial

theorem parseWith_awaits {α : Type} (schema : Zod.Schema α) (v : Value) :
    (parseWith schema v).Awaits 0 := by
  unfold parseWith
  split <;> trivial

theorem isConversationMember_awaits (D : Deployment) (id : Value) (userId : ObjectId) :
    (isConversationMember D id userId).Awaits 1 := by
  unfold isConversationMember
  split
  · trivial
  · exact (awaits_query _).bind fun _ => trivial

theorem assertMembership_awaits (D : Deployment) (id : Value) (userId : ObjectId) :
    (assertMembership D id userId).Awaits 1 := by
  unfold assertMembership
  split
  · trivial
  · apply (awaits_query _).bind
    intro conversation
    cases conversation <;> trivial

theorem createMessage_awaits (id senderId : ObjectId) (input : SendMessageInput) :
    (createMessage id senderId input).Awaits 4 := by
  apply (awaits_query _).bind
  intro conversation
  cases conversation with
  | none => trivial
  | some conversation =>
    intro now
    apply (awaits_query _).bind
    intro message now'
    apply (awaits_query _).bind
    intro _
    exact (awaits_query _).bind fun _ => trivial

theorem markMessageDelivered_awaits (D : Deployment) (messageId : Text) (userId : ObjectId) :
    (markMessageDelivered D messageId userId).Awaits 3 := by
  unfold markMessageDelivered
  split
  · trivial
  · apply (awaits_query _).bind
    intro message
    cases message with
    | none => trivial
    | some message =>
      apply (isConversationMember_awaits D _ _).bind
      intro isMember
      split
      · trivial
      · split
        · exact fun now => (awaits_query _).bind fun _ => trivial
        · trivial

theorem markMessagesRead_awaits (D : Deployment) (conversationId upToMessageId : Text)
    (userId : ObjectId) : (markMessagesRead D conversationId upToMessageId userId).Awaits 4 := by
  unfold markMessagesRead
  split
  · trivial
  · apply (isConversationMember_awaits D _ _).bind
    intro isMember
    split
    · trivial
    · apply (awaits_query _).bind
      intro upToMessage
      cases upToMessage with
      | none => trivial
      | some upToMessage =>
        apply (awaits_query _).bind
        intro messageIds
        split
        · trivial
        · exact fun now => (awaits_query _).bind fun _ => trivial

theorem createConversation_awaits (id userId : ObjectId) (input : CreateConversationInput) :
    (createConversation id userId input).Awaits 2 := by
  unfold createConversation
  split
  · apply (awaits_query _).bind
    intro existing
    cases existing with
    | some existing => trivial
    | none => exact fun now => awaits_query _
  · exact fun now => (awaits_query _).mono (Nat.le_succ 1)

/-- However many rooms there are. -/
theorem emitToEach_awaits (event : ServerEvent) (rooms : List Text) :
    (emitToEach event rooms).Awaits 0 := by
  induction rooms with
  | nil => trivial
  | cons room rest ih => exact fun _ => ih

theorem lastSeenOf_awaits (user : Option User) : (lastSeenOf user).Awaits 0 := by
  cases user with
  | none => exact fun _ => trivial
  | some user => trivial

theorem getUserConversationRoomIds_awaits (userId : ObjectId) :
    (getUserConversationRoomIds userId).Awaits 1 := (awaits_query _).bind fun _ => trivial

/-- Of the two handlers of presence, from where they have written the user. -/
theorem announce_awaits (userId : ObjectId) (user : Option User) (event : Text → ServerEvent) :
    ((getUserConversationRoomIds userId).bind fun roomIds =>
      (lastSeenOf user).bind fun lastSeen => emitToEach (event lastSeen) roomIds).Awaits 1 := by
  refine (getUserConversationRoomIds_awaits userId).bind fun roomIds => ?_
  exact (lastSeenOf_awaits user).bind fun _ => emitToEach_awaits _ _

theorem onConnection_awaits (socket : Socket) : (onConnection socket).Awaits 4 := by
  refine Awaits.tryCatch (m := 4) (Awaits.bind (m := 2) ?_ fun _ => ?_) fun _ => trivial
  · apply (getUserConversationRoomIds_awaits _).bind
    intro roomIds
    split
    · trivial
    · exact fun _ => awaits_query _
  · apply (awaits_perform _).bind
    intro isFirst
    split
    · trivial
    · exact (awaits_query _).bind fun user => announce_awaits _ user _

theorem onDisconnect_awaits (socket : Socket) : (onDisconnect socket).Awaits 2 := by
  refine Awaits.tryCatch (m := 2) ?_ fun _ => trivial
  apply (awaits_perform _).bind
  intro isLast
  split
  · trivial
  · refine Awaits.bind (m := 1) ?_ fun user => announce_awaits _ user _
    exact fun now => awaits_query _

section
variable (D : Deployment) (socket : Socket) (payload ack : Value)

theorem conversationJoin_awaits : (conversationJoin D socket payload ack).Awaits 2 := by
  refine Awaits.tryCatch (m := 2) ?_ fun _ => callAck_awaits _ _
  apply (isConversationMember_awaits D _ _).bind
  intro isMember
  split
  · exact (callAck_awaits _ _).mono (Nat.zero_le 1)
  · intro _
    apply (awaits_query _).bind
    intro _
    exact (logValue_awaits _).bind fun _ => callAck_awaits _ _

theorem conversationLeave_awaits : (conversationLeave socket payload ack).Awaits 1 := by
  refine Awaits.tryCatch (m := 1) ?_ fun _ => callAck_awaits _ _
  intro _
  apply (awaits_query _).bind
  intro _
  exact (logValue_awaits _).bind fun _ => callAck_awaits _ _

theorem messageSend_awaits (id : ObjectId) : (messageSend D id socket payload ack).Awaits 4 := by
  refine Awaits.tryCatch (m := 4) ?_ fun error => ?_
  · apply (awaits_perform _).bind
    intro allowed
    split
    · exact (callAck_awaits _ _).mono (Nat.zero_le 4)
    · refine (parseWith_awaits _ _).bind fun input => ?_
      refine (createMessage_awaits id _ input).bind fun message => ?_
      exact fun _ => callAck_awaits _ _
  · cases error <;> exact callAck_awaits ack _

theorem receiptError_awaits (message : String) (error : Failure) :
    (receiptError ack message error).Awaits 0 := by
  cases error <;> exact callAck_awaits ack _

theorem messageDelivered_awaits : (messageDelivered D socket payload ack).Awaits 3 := by
  refine Awaits.tryCatch (m := 3) ?_ fun error => receiptError_awaits _ _ error
  refine (parseWith_awaits _ _).bind fun input => ?_
  refine (markMessageDelivered_awaits D _ _).bind fun result => ?_
  exact fun _ => callAck_awaits _ _

theorem messageRead_awaits : (messageRead D socket payload ack).Awaits 4 := by
  refine Awaits.tryCatch (m := 4) ?_ fun error => receiptError_awaits _ _ error
  refine (parseWith_awaits _ _).bind fun input => ?_
  refine (markMessagesRead_awaits D _ _ _).bind fun result => ?_
  split
  · exact callAck_awaits _ _
  · exact fun _ => callAck_awaits _ _

theorem broadcastTyping_awaits (signal : TypingSignal) :
    (broadcastTyping D socket signal payload).Awaits 1 := by
  unfold broadcastTyping
  split
  · trivial
  · apply (isConversationMember_awaits D _ _).bind (n := 0)
    intro isMember
    split
    · trivial
    · exact fun _ => trivial

theorem handle_awaits (name : ClientEvent) (args : List Value) (id : ObjectId) :
    (handle D socket name args id).Awaits name.awaits := by
  cases name with
  | conversationJoin => exact conversationJoin_awaits D socket _ _
  | conversationLeave => exact conversationLeave_awaits socket _ _
  | messageSend => exact messageSend_awaits D socket _ _ id
  | messageDelivered => exact messageDelivered_awaits D socket _ _
  | messageRead => exact messageRead_awaits D socket _ _
  | typing signal => exact broadcastTyping_awaits D socket _ signal

end

/-- **No call awaits more than its table says**, whatever its arguments and its answers. -/
theorem body_awaits (D : Deployment) (call : Call) : (Call.body D call).Awaits call.awaits := by
  cases call with
  | connect socket => exact (onConnection_awaits socket).bind fun _ => trivial
  | disconnect socket => exact (onDisconnect_awaits socket).bind fun _ => trivial
  | event socket name args id =>
    have hevent : (Call.body D (.event socket name args id)).Awaits (0 + name.awaits) :=
      (handle_awaits D socket name args id).bind fun _ => trivial
    exact hevent.mono (Nat.le_of_eq (Nat.zero_add _))
  | createConversation userId body id =>
    show (createConversationHandler id userId body).Awaits 2
    unfold createConversationHandler
    split
    · trivial
    · exact (createConversation_awaits id userId _).bind fun _ => trivial
  | listConversations userId =>
    refine Awaits.bind (m := 2) ?_ fun _ => trivial
    apply (awaits_query _).bind
    intro conversations
    split
    · trivial
    · exact (awaits_query _).bind fun _ => trivial
  | getMessageHistory userId id page =>
    refine Awaits.bind (m := 0) ?_ fun _ => ?_
    · unfold rejectInvalid
      split <;> trivial
    · refine (assertMembership_awaits D _ _).bind fun _ => ?_
      refine Awaits.bind (m := 1) ?_ fun _ => trivial
      exact (awaits_query _).bind fun _ => trivial

def AuthCall.awaits : AuthCall → Nat
  | .signup _ _ _ _ => 3
  | .login _ _ => 2

theorem authBody_awaits (L : Library) (call : AuthCall) :
    (AuthCall.body L call).Awaits call.awaits := by
  have hlimiter : ∀ {limited : Bool} {p : Auth AuthResult} {n : Nat}, p.Awaits n →
      (authRateLimiter limited p).Awaits n := by
    intro limited p n hp
    cases limited with
    | true => trivial
    | false => exact hp
  cases call with
  | signup limited body id salt =>
    apply hlimiter
    show (validated (signupSchema L) body (signup L id salt)).Awaits 3
    unfold validated
    split
    · trivial
    · apply (awaits_query _).bind
      intro existing
      cases existing with
      | some existing => trivial
      | none =>
        apply (awaits_query _).bind
        intro passwordHash now
        exact (awaits_query _).bind fun user => fun _ => trivial
  | login limited body =>
    apply hlimiter
    show (validated (loginSchema L) body (login L)).Awaits 2
    unfold validated
    split
    · trivial
    · apply (awaits_query _).bind
      intro user
      cases user with
      | none => trivial
      | some user =>
        apply (awaits_query _).bind
        intro isMatch
        split
        · trivial
        · exact fun _ => trivial

/-! ### Whole runs -/

/-- **What a call costs the server.** In every run, whatever is interleaved with it and
whichever of its awaited steps fail, a call is given no more answers than its table says,
and never more than four. -/
theorem chat_asked (D : Deployment) (s : Server) (moves : List (Move Call)) {pid : Nat}
    {entry : Entry chatInterface Failure Call Response}
    (hentry : ((chat D).run (Config.start s) moves).tasks[pid]? = some entry) :
    asked (deeds pid ((chat D).run (Config.start s) moves).world.log) ≤ entry.call.awaits ∧
      entry.call.awaits ≤ 4 := by
  refine ⟨Async.System.run_asked_le (body_awaits D) s moves hentry, ?_⟩
  rcases entry with ⟨socket | socket | ⟨socket, name, args, id⟩ | _ | _ | _, task⟩
  case event => cases name <;> simp [Call.awaits, ClientEvent.awaits]
  all_goals simp [Call.awaits]

/-- Somebody opens a conversation with somebody else. -/
def opening : Call := .createConversation (.ending 1) (.object [("type", .string "1:1".toList),
  ("members", .array [.string (ObjectId.ending 2).toString])]) (.ending 5)

def openingRun : List (Move Call) := [.arrive opening, .answer 0, .resume 0, .answer 0, .resume 0]

theorem chat_asked_opening :
    asked (deeds 0 ((chat .default).run (Config.start (.boot .empty .empty .empty 5))
      openingRun).world.log) ≤ opening.awaits ∧ opening.awaits ≤ 4 := by
  have hopened : ∃ task, ((chat .default).run (Config.start (.boot .empty .empty .empty 5))
      openingRun).tasks[0]? = some ⟨opening, task⟩ := ⟨_, rfl⟩
  obtain ⟨task, hentry⟩ := hopened
  exact chat_asked .default _ openingRun hentry

/-- **The server comes to rest.** A run takes no more steps than twice what its calls may
await, and where no task has a step left to take, every call has ended. -/
theorem chat_rests (D : Deployment) (s : Server) (moves : List (Move Call)) :
    (chat D).work (Config.start s) moves ≤ 2 * ((Async.System.calls moves).map Call.awaits).sum ∧
      ((∀ pid, (chat D).enabled ((chat D).run (Config.start s) moves) (.answer pid) = false ∧
          (chat D).enabled ((chat D).run (Config.start s) moves) (.resume pid) = false) →
        ∀ entry ∈ ((chat D).run (Config.start s) moves).tasks, entry.task.isDone = true) :=
  ⟨Async.System.run_work (body_awaits D) s moves,
    fun hstuck _ hentry => Async.System.ended_of_stuck hstuck hentry⟩

theorem auth_rests (L : Library) (s : AuthServer) (moves : List (Move AuthCall)) :
    (auth L).work (Config.start s) moves ≤
      2 * ((Async.System.calls moves).map AuthCall.awaits).sum :=
  Async.System.run_work (authBody_awaits L) s moves

end RealtimeChat
