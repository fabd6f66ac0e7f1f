import RealtimeChat.Handlers.Chat

/-! Which actions and queries each call may come to.

The tables `Acts` and `Asks` are read off the handlers; `body_within` checks them
against the programs, for every argument, reply and answer. -/
namespace RealtimeChat
open Data (Text)
open Zod (Value)
open Async (Program)
open Async.Program

/-- The actions of an event's handler. -/
def ClientEvent.Acts : ClientEvent → Action → Prop
  | .conversationJoin, .join _ _ => True
  | .conversationLeave, .leave _ _ => True
  | .messageSend, .now => True
  | .messageSend, .checkMessageRateLimit _ => True
  | .messageSend, .emit _ (.messageNew _) => True
  | .messageDelivered, .now => True
  | .messageDelivered, .emit _ (.messageDelivered _ _ _) => True
  | .messageRead, .now => True
  | .messageRead, .emit _ (.messageRead _ _ _) => True
  | .typing _, .emitFrom _ _ (.typing _ _ _ _) => True
  | .messageSend, .ack _ => True
  | .typing _, .ack _ => False
  | _, .ack response => response.data = none
  | _, _ => False

/-- The queries of an event's handler. -/
def ClientEvent.Asks : ClientEvent → Query → Prop
  | .conversationJoin, .microtask => True
  | .conversationLeave, .microtask => True
  | .messageSend, .messageCreate _ _ _ _ _ => True
  | .messageSend, .conversationSave _ _ _ => True
  | .messageSend, .messagePopulate _ => True
  | .messageDelivered, .messageFindById _ => True
  | .messageDelivered, .messageSave _ _ _ => True
  | .messageRead, .messageFindOne _ _ => True
  | .messageRead, .messageFindUnread _ _ _ => True
  | .messageRead, .messageUpdateMany _ _ => True
  | .conversationLeave, _ => False
  | _, .conversationFindOne _ _ => True
  | _, _ => False

def Call.Acts : Call → Action → Prop
  | .connect _, .join _ _ => True
  | .connect _, .addConnection _ _ => True
  | .connect _, .now => True
  | .connect _, .emit _ (.userOnline _) => True
  | .disconnect _, .removeConnection _ _ => True
  | .disconnect _, .now => True
  | .disconnect _, .emit _ (.userOffline _) => True
  | .event _ name _ _, a => name.Acts a
  | .createConversation _ _ _, .now => True
  | _, _ => False

def Call.Asks : Call → Query → Prop
  | .connect _, .conversationIds _ => True
  | .connect _, .microtask => True
  | .connect _, .userUpdate _ _ _ => True
  | .disconnect _, .conversationIds _ => True
  | .disconnect _, .userUpdate _ _ _ => True
  | .event _ name _ _, q => name.Asks q
  | .createConversation _ _ _, .conversationFindOneToOne _ => True
  | .createConversation _ _ _, .conversationCreate _ _ _ _ _ => True
  | .listConversations _, .conversationFind _ => True
  | .listConversations _, .messageAggregate _ _ => True
  | .getMessageHistory _ _ _, .conversationFindOne _ _ => True
  | .getMessageHistory _ _ _, .messageFind _ _ _ => True
  | _, _ => False

/-! ### What the handlers are made of -/

section Parts
variable {A : Action → Prop} {B : Query → Prop}

theorem callAck_within (ack : Value) (r : SocketAck) (h : A (.ack r)) :
    (callAck ack r).Within A B := by
  unfold callAck
  split
  · trivial
  · split
    · exact (within_perform _).mpr h
    · trivial

theorem logValue_within (v : Value) : (logValue v).Within A B := by
  unfold logValue
  split <;> trivial

theorem parseWith_within {α : Type} (schema : Zod.Schema α) (v : Value) :
    (parseWith schema v).Within A B := by
  unfold parseWith
  split <;> trivial

theorem parseWith_ends {α : Type} {Can : (q : Query) → Except Failure q.Answer → Prop}
    (schema : Zod.Schema α) (v : Value) : (parseWith schema v).Ends Can fun r =>
      ∀ input, r = .ok input → schema.parse v = .ok input := by
  unfold parseWith
  split
  · rename_i input h
    intro input' heq
    cases heq
    exact h
  · exact nofun

theorem isConversationMember_within (D : Deployment) (id : Value) (userId : ObjectId)
    (h : B (.conversationFindOne id userId)) : (isConversationMember D id userId).Within A B := by
  unfold isConversationMember
  split
  · trivial
  · exact ((within_query _).mpr h).bind fun _ => trivial

theorem assertMembership_within (D : Deployment) (id : Value) (userId : ObjectId)
    (h : B (.conversationFindOne id userId)) : (assertMembership D id userId).Within A B := by
  unfold assertMembership
  split
  · trivial
  · apply ((within_query _).mpr h).bind
    intro conversation
    cases conversation <;> trivial

theorem createMessage_within (id senderId : ObjectId) (input : SendMessageInput)
    (hnow : A .now) (hB : ∀ q, ClientEvent.messageSend.Asks q → B q) :
    (createMessage id senderId input).Within A B := by
  apply ((within_query _).mpr (hB (.conversationFindOne _ _) trivial)).bind
  intro conversation
  cases conversation with
  | none => trivial
  | some conversation =>
    apply ((within_perform _).mpr hnow).bind
    intro now
    apply ((within_query _).mpr (hB (.messageCreate _ _ _ _ _) trivial)).bind
    intro message
    apply ((within_perform _).mpr hnow).bind
    intro now
    apply ((within_query _).mpr (hB (.conversationSave _ _ _) trivial)).bind
    intro _
    exact ((within_query _).mpr (hB (.messagePopulate _) trivial)).bind fun _ => trivial

theorem markMessageDelivered_within (D : Deployment) (messageId : Text) (userId : ObjectId)
    (hnow : A .now) (hB : ∀ q, ClientEvent.messageDelivered.Asks q → B q) :
    (markMessageDelivered D messageId userId).Within A B := by
  unfold markMessageDelivered
  split
  · trivial
  · apply ((within_query _).mpr (hB (.messageFindById _) trivial)).bind
    intro message
    cases message with
    | none => trivial
    | some message =>
      apply (isConversationMember_within D _ _ (hB (.conversationFindOne _ _) trivial)).bind
      intro isMember
      split
      · trivial
      · split
        · apply ((within_perform _).mpr hnow).bind
          intro now
          exact ((within_query _).mpr (hB (.messageSave _ _ _) trivial)).bind fun _ => trivial
        · trivial

theorem markMessagesRead_within (D : Deployment) (conversationId upToMessageId : Text)
    (userId : ObjectId) (hnow : A .now) (hB : ∀ q, ClientEvent.messageRead.Asks q → B q) :
    (markMessagesRead D conversationId upToMessageId userId).Within A B := by
  unfold markMessagesRead
  split
  · trivial
  · apply (isConversationMember_within D _ _ (hB (.conversationFindOne _ _) trivial)).bind
    intro isMember
    split
    · trivial
    · apply ((within_query _).mpr (hB (.messageFindOne _ _) trivial)).bind
      intro upToMessage
      cases upToMessage with
      | none => trivial
      | some upToMessage =>
        apply ((within_query _).mpr (hB (.messageFindUnread _ _ _) trivial)).bind
        intro messageIds
        split
        · trivial
        · apply ((within_perform _).mpr hnow).bind
          intro now
          exact ((within_query _).mpr (hB (.messageUpdateMany _ _) trivial)).bind fun _ => trivial

theorem createConversation_within (id userId : ObjectId) (input : CreateConversationInput)
    (hnow : A .now) (hfind : ∀ members, B (.conversationFindOneToOne members))
    (hcreate : ∀ members now, B (.conversationCreate id input.type input.name members now)) :
    (createConversation id userId input).Within A B := by
  have hinsert : ∀ memberIds, ((perform .now).bind fun now =>
      query (.conversationCreate id input.type input.name memberIds now)).Within A B :=
    fun _ => ((within_perform _).mpr hnow).bind fun _ => (within_query _).mpr (hcreate _ _)
  unfold createConversation
  split
  · apply ((within_query _).mpr (hfind _)).bind
    intro existing
    cases existing with
    | some existing => trivial
    | none => exact hinsert _
  · exact hinsert _

theorem emitToEach_within (event : ServerEvent) (rooms : List Text)
    (h : ∀ room, A (.emit room event)) : (emitToEach event rooms).Within A B := by
  induction rooms with
  | nil => trivial
  | cons room rest ih => exact ((within_perform _).mpr (h room)).bind fun _ => ih

theorem lastSeenOf_within (user : Option User) (hnow : A .now) :
    (lastSeenOf user).Within A B := by
  cases user with
  | none => exact ((within_perform _).mpr hnow).bind fun _ => trivial
  | some user => trivial

theorem getUserConversationRoomIds_within (userId : ObjectId) (h : B (.conversationIds userId)) :
    (getUserConversationRoomIds userId).Within A B :=
  ((within_query _).mpr h).bind fun _ => trivial

end Parts

/-! ### Every call -/

theorem onConnection_within (socket : Socket) :
    (onConnection socket).Within (Call.connect socket).Acts (Call.connect socket).Asks := by
  refine Within.tryCatch (Within.bind ?_ fun _ => ?_) fun _ => trivial
  · apply (getUserConversationRoomIds_within _ trivial).bind
    intro roomIds
    split
    · trivial
    · apply ((within_perform _).mpr trivial).bind
      intro _
      exact (within_query _).mpr trivial
  · apply ((within_perform _).mpr trivial).bind
    intro isFirst
    split
    · trivial
    · apply ((within_query _).mpr trivial).bind
      intro user
      apply (getUserConversationRoomIds_within _ trivial).bind
      intro roomIds
      apply (lastSeenOf_within user trivial).bind
      intro lastSeen
      exact emitToEach_within _ _ fun _ => trivial

theorem onDisconnect_within (socket : Socket) :
    (onDisconnect socket).Within (Call.disconnect socket).Acts (Call.disconnect socket).Asks := by
  refine Within.tryCatch ?_ fun _ => trivial
  apply ((within_perform _).mpr trivial).bind
  intro isLast
  split
  · trivial
  · refine Within.bind ?_ fun user => ?_
    · apply ((within_perform _).mpr trivial).bind
      intro now
      exact (within_query _).mpr trivial
    · apply (getUserConversationRoomIds_within _ trivial).bind
      intro roomIds
      apply (lastSeenOf_within user trivial).bind
      intro lastSeen
      exact emitToEach_within _ _ fun _ => trivial

section
variable (D : Deployment) (socket : Socket) (payload ack : Value)

theorem conversationJoin_within : (conversationJoin D socket payload ack).Within
    ClientEvent.conversationJoin.Acts ClientEvent.conversationJoin.Asks := by
  refine Within.tryCatch ?_ fun _ => callAck_within _ _ rfl
  apply (isConversationMember_within D _ _ trivial).bind
  intro isMember
  split
  · exact callAck_within _ _ rfl
  · apply ((within_perform _).mpr trivial).bind
    intro _
    apply ((within_query _).mpr trivial).bind
    intro _
    exact (logValue_within _).bind fun _ => callAck_within _ _ rfl

theorem conversationLeave_within : (conversationLeave socket payload ack).Within
    ClientEvent.conversationLeave.Acts ClientEvent.conversationLeave.Asks := by
  refine Within.tryCatch ?_ fun _ => callAck_within _ _ rfl
  apply ((within_perform _).mpr trivial).bind
  intro _
  apply ((within_query _).mpr trivial).bind
  intro _
  exact (logValue_within _).bind fun _ => callAck_within _ _ rfl

theorem messageSend_within (id : ObjectId) : (messageSend D id socket payload ack).Within
    ClientEvent.messageSend.Acts ClientEvent.messageSend.Asks := by
  refine Within.tryCatch ?_ fun error => ?_
  · apply ((within_perform _).mpr trivial).bind
    intro allowed
    split
    · exact callAck_within _ _ trivial
    · apply (parseWith_within _ _).bind
      intro input
      refine (createMessage_within id _ input trivial fun q h => h).bind fun message => ?_
      exact ((within_perform _).mpr trivial).bind fun _ => callAck_within _ _ trivial
  · cases error <;> exact callAck_within ack _ trivial

theorem receiptError_within {A : Action → Prop} {B : Query → Prop} (h : ∀ r : SocketAck, r.data = none → A (.ack r)) (message : String) (error : Failure) :
    (receiptError ack message error).Within A B := by
  cases error <;> exact callAck_within _ _ (h _ rfl)

theorem messageDelivered_within : (messageDelivered D socket payload ack).Within
    ClientEvent.messageDelivered.Acts ClientEvent.messageDelivered.Asks := by
  refine Within.tryCatch ?_ fun error => receiptError_within _ (fun _ h => h) _ _
  apply (parseWith_within _ _).bind
  intro input
  refine (markMessageDelivered_within D _ _ trivial fun q h => h).bind fun result => ?_
  exact ((within_perform _).mpr trivial).bind fun _ => callAck_within _ _ rfl

theorem messageRead_within : (messageRead D socket payload ack).Within
    ClientEvent.messageRead.Acts ClientEvent.messageRead.Asks := by
  refine Within.tryCatch ?_ fun error => receiptError_within _ (fun _ h => h) _ _
  apply (parseWith_within _ _).bind
  intro input
  refine (markMessagesRead_within D _ _ _ trivial fun q h => h).bind fun result => ?_
  split
  · exact callAck_within _ _ rfl
  · exact ((within_perform _).mpr trivial).bind fun _ => callAck_within _ _ rfl

theorem broadcastTyping_within (signal : TypingSignal) :
    (broadcastTyping D socket signal payload).Within
      (ClientEvent.typing signal).Acts (ClientEvent.typing signal).Asks := by
  unfold broadcastTyping
  split
  · trivial
  · apply (isConversationMember_within D _ _ trivial).bind
    intro isMember
    split
    · trivial
    · exact ((within_perform _).mpr trivial).bind fun _ => trivial

theorem handle_within (name : ClientEvent) (args : List Value) (id : ObjectId) :
    (handle D socket name args id).Within name.Acts name.Asks := by
  cases name with
  | conversationJoin => exact conversationJoin_within D socket _ _
  | conversationLeave => exact conversationLeave_within socket _ _
  | messageSend => exact messageSend_within D socket _ _ id
  | messageDelivered => exact messageDelivered_within D socket _ _
  | messageRead => exact messageRead_within D socket _ _
  | typing signal => exact broadcastTyping_within D socket _ signal

end

/-- **What a call can come to**, whatever its arguments and whatever it is answered. -/
theorem body_within (D : Deployment) (call : Call) :
    (Call.body D call).Within call.Acts call.Asks := by
  cases call with
  | connect socket => exact (onConnection_within socket).bind fun _ => trivial
  | disconnect socket => exact (onDisconnect_within socket).bind fun _ => trivial
  | event socket name args id =>
    exact (handle_within D socket name args id).bind fun _ => trivial
  | createConversation userId body id =>
    show (createConversationHandler id userId body).Within _ _
    unfold createConversationHandler
    split
    · trivial
    · exact (createConversation_within id userId _ trivial (fun _ => trivial)
        fun _ _ => trivial).bind fun _ => trivial
  | listConversations userId =>
    refine Within.bind ?_ fun _ => trivial
    apply ((within_query _).mpr trivial).bind
    intro conversations
    split
    · trivial
    · exact ((within_query _).mpr trivial).bind fun _ => trivial
  | getMessageHistory userId id page =>
    refine Within.bind ?_ fun _ => ?_
    · unfold rejectInvalid
      split <;> trivial
    · apply (assertMembership_within D _ _ trivial).bind
      intro _
      refine Within.bind ?_ fun _ => trivial
      exact ((within_query _).mpr trivial).bind fun _ => trivial

/-! ### Arrivals -/

/-- What an arriving call leaves alone: all but the sockets and the rooms. -/
structure SameBehind (s s' : Server) : Prop where
  users : s'.users = s.users
  conversations : s'.conversations = s.conversations
  messages : s'.messages = s.messages
  clock : s'.clock = s.clock
  buckets : s'.buckets = s.buckets
  activeConnections : s'.activeConnections = s.activeConnections

theorem accept_connect {socket : Socket} {s s' : Server}
    (h : (Call.connect socket).accept s = some s') :
    socket.id ∉ s.socketIds ∧ s' = connectSocket socket s := by
  simp only [Call.accept] at h
  split at h
  · cases h
  · rename_i hnew
    exact ⟨hnew, (Option.some.inj h).symm⟩

theorem accept_disconnect {socket : Socket} {s s' : Server}
    (h : (Call.disconnect socket).accept s = some s') :
    socket ∈ s.sockets ∧ s' = disconnectSocket socket s := by
  simp only [Call.accept] at h
  split at h
  · rename_i hmem
    exact ⟨hmem, (Option.some.inj h).symm⟩
  · cases h

theorem accept_event {socket : Socket} {name : ClientEvent} {args : List Value} {id : ObjectId}
    {s s' : Server} (h : (Call.event socket name args id).accept s = some s') :
    socket ∈ s.sockets ∧ s' = s := by
  simp only [Call.accept] at h
  split at h
  · rename_i hmem
    exact ⟨hmem, (Option.some.inj h).symm⟩
  · cases h

theorem accept_sameBehind {call : Call} {s s' : Server} (h : call.accept s = some s') :
    SameBehind s s' := by
  cases call with
  | connect socket =>
    obtain ⟨_, rfl⟩ := accept_connect h
    exact ⟨rfl, rfl, rfl, rfl, rfl, rfl⟩
  | disconnect socket =>
    obtain ⟨_, rfl⟩ := accept_disconnect h
    exact ⟨rfl, rfl, rfl, rfl, rfl, rfl⟩
  | event socket name args id =>
    obtain ⟨_, rfl⟩ := accept_event h
    exact ⟨rfl, rfl, rfl, rfl, rfl, rfl⟩
  | _ => cases h; exact ⟨rfl, rfl, rfl, rfl, rfl, rfl⟩

end RealtimeChat
