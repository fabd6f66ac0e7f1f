import RealtimeChat.Conversations.View
import RealtimeChat.Handlers.Completion
import RealtimeChat.Handlers.Footprint

/-! What a user's own calls say of the conversations of others: nothing.

Each call is run in two states that agree for the user. What the user is told is the
same, step by step, and the states left behind agree again. Every lookup and every
bulk update of a service turns out to stay inside the user's conversations. -/
namespace RealtimeChat
open Data (Text)
open Zod (Value)
open Async Async.System

/-- What leaves the server: a callback, or an event sent to a room. -/
inductive Told where
  | ack (response : SocketAck)
  | sent (room : Text) (event : ServerEvent)

def toldBy : (a : Action) → a.Reply → Option Told
  | .ack response, _ => some (.ack response)
  | .emit room event, _ => some (.sent room event)
  | .emitFrom _ room event, _ => some (.sent room event)
  | _, _ => none

section
variable (D : Deployment) (userId : ObjectId) {β γ : Type}

/-- From both states the program returns the same, tells the same, and leaves states that
agree. -/
abbrev SameFor (p : Chat β) (s t : Server) : Prop := (chat D).Alike toldBy (Agree userId) p s t

variable {D userId} {s t : Server}

/-- What follows may be met in any two states that agree. -/
theorem SameFor.bind {p : Chat γ} {f : γ → Chat β} (hp : SameFor D userId p s t)
    (hf : ∀ v {s' t'}, Agree userId s' t' → SameFor D userId (f v) s' t') :
    SameFor D userId (p.bind f) s t := Alike.bind hp fun v _ => hf v hp.after

theorem SameFor.tryCatch {p : Chat β} {f : Failure → Chat β} (hp : SameFor D userId p s t)
    (hf : ∀ e {s' t'}, Agree userId s' t' → SameFor D userId (f e) s' t') :
    SameFor D userId (p.tryCatch f) s t := Alike.tryCatch hp fun e _ => hf e hp.after

theorem SameFor.reads {q : Query} {f : q.Answer → Chat β} (hq : Server.Reads q)
    (h : Agree userId s t) (hvalue : (Server.answer D q s).1 = (Server.answer D q t).1)
    (hf : ∀ v, (Server.answer D q s).1 = .ok v → SameFor D userId (f v) s t) :
    SameFor D userId ((query q).bind f) s t := by
  have hs : ((chat D).answer q s).2 = s := Server.answer_reads D hq s
  have ht : ((chat D).answer q t).2 = t := Server.answer_reads D hq t
  refine Alike.query_bind hvalue ?_ fun v hv => ?_
  · rw [hs, ht]
    exact h
  · rw [hs, ht]
    exact hf v hv

theorem SameFor.now {f : Nat → Chat β} (h : Agree userId s t)
    (hf : SameFor D userId (f s.clock) s t) : SameFor D userId ((perform .now).bind f) s t := by
  apply Alike.bind (.perform h.clock.symm h)
  intro v hv
  cases hv
  exact hf

theorem callAck_same (h : Agree userId s t) (ack : Value) (r : SocketAck) :
    SameFor D userId (callAck ack r) s t := by
  unfold callAck
  split
  · exact .ret () h
  · split
    · exact .perform rfl h
    · exact .raise _ h

theorem logValue_same (h : Agree userId s t) (v : Value) : SameFor D userId (logValue v) s t := by
  unfold logValue
  split
  · exact .ret () h
  · exact .raise _ h

theorem parseWith_same (h : Agree userId s t) {α : Type} (schema : Zod.Schema α) (v : Value)
    {f : α → Chat β} (hf : ∀ input, SameFor D userId (f input) s t) :
    SameFor D userId ((parseWith schema v).bind f) s t := by
  unfold parseWith
  split
  · exact hf _
  · exact .raise _ h

theorem messageCreate_same (h : Agree userId s t) {id : ObjectId} (hs : Fresh id s)
    (ht : Fresh id t) (conversationId : Text) (text : Text) (now : Nat) :
    (Server.answer D (.messageCreate id conversationId userId text now) s).1 =
      (Server.answer D (.messageCreate id conversationId userId text now) t).1 ∧
    Agree userId (Server.answer D (.messageCreate id conversationId userId text now) s).2
      (Server.answer D (.messageCreate id conversationId userId text now) t).2 := by
  simp only [Server.answer]
  cases ObjectId.cast conversationId with
  | none => exact ⟨rfl, h⟩
  | some conversationId =>
    exact h.createMessage (m := ⟨id, conversationId, userId, Data.trim text, .sent, now, now⟩) hs ht

/-! ### Membership checks -/

theorem conversationFindOne_same (h : Agree userId s t) (id : Value) :
    (Server.answer D (.conversationFindOne id userId) s).1 =
      (Server.answer D (.conversationFindOne id userId) t).1 := by
  simp only [Server.answer]
  cases D.cast id with
  | none => rfl
  | some id => simp only [Server.casting, h.findOne]

theorem isConversationMember_same (h : Agree userId s t) (id : Value) {f : Bool → Chat β}
    (hf : ∀ isMember, (isMember = true → MemberBy D id userId s) → SameFor D userId (f isMember) s t) :
    SameFor D userId ((isConversationMember D id userId).bind f) s t := by
  unfold isConversationMember
  split
  · exact hf false nofun
  · rw [Program.bind_eq, Program.bind_assoc]
    refine SameFor.reads trivial h (conversationFindOne_same h id) fun found hfound => ?_
    exact hf found.isSome (findOne_answer hfound).mp

theorem assertMembership_same (h : Agree userId s t) (id : Text) {f : Conversation → Chat β}
    (hf : ∀ conversation c, ObjectId.cast id = some c → IsMember c userId s →
      SameFor D userId (f conversation) s t) :
    SameFor D userId ((assertMembership D (.string id) userId).bind f) s t := by
  unfold assertMembership
  split
  · exact .raise _ h
  · rw [Program.bind_eq, Program.bind_assoc]
    refine SameFor.reads trivial h (conversationFindOne_same h _) fun found hfound => ?_
    cases found with
    | none => exact .raise _ h
    | some conversation =>
      obtain ⟨c, hcast, hm⟩ := (findOne_answer hfound).mp rfl
      exact hf conversation c hcast hm

/-! ### Services -/

theorem populate_same (h : Agree userId s t) (senderId : ObjectId) :
    s.populate senderId = t.populate senderId := by
  rw [Server.populate, Server.populate, h.users]

theorem createMessage_same (h : Agree userId s t) {id : ObjectId} (hs : Fresh id s) (ht : Fresh id t)
    (input : SendMessageInput) : SameFor D userId (createMessage id userId input) s t := by
  unfold createMessage
  refine SameFor.reads trivial h (conversationFindOne_same h _) fun found _ => ?_
  cases found with
  | none => exact .raise _ h
  | some conversation =>
    apply SameFor.now h
    obtain ⟨hvalue, hafter⟩ := messageCreate_same (D := D) h hs ht input.conversationId input.text s.clock
    apply Alike.query_bind hvalue hafter
    intro message hmessage
    apply SameFor.now hafter
    obtain ⟨-, -, hinsert⟩ := Server.messageCreate_answer hmessage
    obtain ⟨-, -, hinsert'⟩ := Server.messageCreate_answer (hvalue ▸ hmessage)
    have hsaved := fun now => hafter.saveConversation conversation.id message.id now (by
      rw [Data.Collection.find_insert hinsert, Data.Collection.find_insert hinsert', if_pos rfl,
        if_pos rfl])
    refine Alike.query_bind rfl (hsaved _) fun _ _ => ?_
    refine SameFor.reads trivial (hsaved _) ?_ fun _ _ => .ret _ (hsaved _)
    exact congrArg Except.ok (populate_same (hsaved _) _)

/-- The message is there, in a conversation of the user. -/
theorem messageFindById_same (h : Agree userId s t) (id : ObjectId) :
    (t.messages.find id).filter (fun m => (t.findOne m.conversationId userId).isSome) =
      (s.messages.find id).filter fun m => (s.findOne m.conversationId userId).isSome := by
  have hfind : ∀ (r : Server) m, (r.messages.find id).filter
      (fun m => (r.findOne m.conversationId userId).isSome) = some m ↔
        m ∈ messagesFor userId r ∧ m.id = id := by
    intro r m
    rw [Option.filter_eq_some_iff, Data.Collection.find_eq_some, messagesFor, List.mem_filter,
      sees, and_right_comm]
  apply Option.ext
  intro m
  rw [hfind, hfind, h.messages]

theorem markMessageDelivered_found {messageId : Text} {id : ObjectId}
    (hid : ObjectId.cast messageId = some id) (userId : ObjectId) (s : Server) :
    (chat D).alone (markMessageDelivered D messageId userId) s =
      match (s.messages.find id).filter fun m => (s.findOne m.conversationId userId).isSome with
      | none => (.error (.app "Message not found" 404), s)
      | some message =>
        if message.status = .sent then
          (.ok ⟨{message with status := .delivered, updatedAt := s.clock},
            message.conversationId.toString⟩,
            s.setStatus (fun m => m.id == message.id) .delivered s.clock)
        else (.ok ⟨message, message.conversationId.toString⟩, s) := by
  rw [markMessageDelivered_alone D hid]
  cases s.messages.find id with
  | none => rfl
  | some message =>
    cases hmember : (s.findOne message.conversationId userId).isSome with
    | false =>
      rw [Option.filter_some, if_neg (by rw [hmember]; exact Bool.false_ne_true)]
      simp only [hmember, Bool.not_false, if_true]
    | true =>
      rw [Option.filter_some, if_pos hmember]
      simp only [hmember, Bool.not_true, if_false, Bool.false_eq_true]

/-- A service that reads the clock, and otherwise tells nobody anything. -/
theorem SameFor.of_silent {p : Chat β} (hp : p.Within (· = Action.now) fun _ => True)
    (h : ((chat D).alone p s).1 = ((chat D).alone p t).1 ∧
      Agree userId ((chat D).alone p s).2 ((chat D).alone p t).2) : SameFor D userId p s t := by
  refine Alike.of_silent hp (fun a r ha => ?_) h.1 h.2
  subst ha
  rfl

theorem markMessageDelivered_same (h : Agree userId s t) (messageId : Text) :
    SameFor D userId (markMessageDelivered D messageId userId) s t := by
  apply SameFor.of_silent
  · exact markMessageDelivered_within D messageId userId rfl fun _ _ => trivial
  cases hid : ObjectId.cast messageId with
  | none =>
    rw [markMessageDelivered_invalid D hid, markMessageDelivered_invalid D hid]
    exact ⟨rfl, h⟩
  | some id =>
    rw [markMessageDelivered_found hid, markMessageDelivered_found hid, messageFindById_same h,
      h.clock]
    cases (s.messages.find id).filter fun m => (s.findOne m.conversationId userId).isSome with
    | none => exact ⟨rfl, h⟩
    | some message =>
      by_cases hsent : message.status = .sent
      · simp only [hsent, if_true]
        exact ⟨trivial, h.setStatus (fun k => k == message.id) _ _⟩
      · simp only [hsent, if_false]
        exact ⟨trivial, h⟩

theorem markMessagesRead_same (h : Agree userId s t) (conversationId upToMessageId : Text) :
    SameFor D userId (markMessagesRead D conversationId upToMessageId userId) s t := by
  apply SameFor.of_silent
  · exact markMessagesRead_within D conversationId upToMessageId userId rfl fun _ _ => trivial
  cases hid : ObjectId.cast conversationId with
  | none =>
    rw [markMessagesRead_invalid D (.inl hid), markMessagesRead_invalid D (.inl hid)]
    exact ⟨rfl, h⟩
  | some id =>
    cases hupTo : ObjectId.cast upToMessageId with
    | none =>
      rw [markMessagesRead_invalid D (.inr hupTo), markMessagesRead_invalid D (.inr hupTo)]
      exact ⟨rfl, h⟩
    | some upTo =>
      rw [markMessagesRead_alone D hid hupTo, markMessagesRead_alone D hid hupTo, h.findOne,
        h.clock]
      by_cases hmember : (s.findOne id userId).isSome = true
      · have hm := findOne_isSome.mp hmember
        -- Both the lookup and the bulk update stay inside the conversation.
        have hunread : ∀ bound, t.messages.docs.filter (Server.matchesUnread id userId bound) =
            s.messages.docs.filter (Server.matchesUnread id userId bound) := by
          intro bound
          apply h.filter
          intro m hmatch
          simp only [Server.matchesUnread, Bool.and_eq_true, beq_iff_eq] at hmatch
          exact hmatch.1.1.1 ▸ hm
        simp only [hmember, Bool.not_true, h.find upTo hm, hunread]
        cases (s.messages.find upTo).filter fun m => m.conversationId == id with
        | none => exact ⟨rfl, h⟩
        | some upToMessage =>
          dsimp only
          by_cases hnone : ((s.messages.docs.filter
              (Server.matchesUnread id userId upToMessage.createdAt)).map Message.id).isEmpty = true
          · simp only [hnone, if_true]
            exact ⟨rfl, h⟩
          · simp only [hnone]
            exact ⟨rfl, h.setStatus (fun k => List.contains _ k) _ _⟩
      · simp only [hmember]
        exact ⟨rfl, h⟩

/-! ### Conversations and history -/

theorem findOneToOne_same (h : Agree userId s t) {memberIds : List ObjectId}
    (hmem : userId ∈ memberIds) : t.conversations.docs.find? (Server.matchesOneToOne memberIds) =
      s.conversations.docs.find? (Server.matchesOneToOne memberIds) := by
  have hvisible : ∀ r : Server, r.conversations.docs.find? (Server.matchesOneToOne memberIds) =
      (conversationsFor userId r).find? (Server.matchesOneToOne memberIds) := by
    intro r
    rw [conversationsFor, List.find?_filter]
    congr 1
    funext c
    by_cases hc : Server.matchesOneToOne memberIds c = true
    · have hall := hc
      simp only [Server.matchesOneToOne, Bool.and_eq_true, List.all_eq_true] at hall
      rw [hc, hall.1.2 userId hmem]
      rfl
    · simp [hc]
  rw [hvisible t, hvisible s, h.conversations]

theorem createConversation_same (h : Agree userId s t) {id : ObjectId} (hs : Fresh id s)
    (ht : Fresh id t) (input : CreateConversationInput) :
    SameFor D userId (createConversation id userId input) s t := by
  have hcreate : ∀ memberIds, SameFor D userId ((perform .now).bind fun now =>
      query (.conversationCreate id input.type input.name memberIds now)) s t := by
    intro memberIds
    apply SameFor.now h
    have hboth : (Server.answer D (.conversationCreate id input.type input.name memberIds s.clock) s).1 =
          (Server.answer D (.conversationCreate id input.type input.name memberIds s.clock) t).1 ∧
        Agree userId
          (Server.answer D (.conversationCreate id input.type input.name memberIds s.clock) s).2
          (Server.answer D (.conversationCreate id input.type input.name memberIds s.clock) t).2 := by
      simp only [Server.answer]
      cases memberIds.mapM ObjectId.cast with
      | none => exact ⟨rfl, h⟩
      | some members =>
        exact h.createConversation
          (c := ⟨id, input.type, input.name.map Data.trim, members, none, s.clock, s.clock⟩) rfl hs ht
    exact .query hboth.1 hboth.2
  unfold createConversation
  split
  · refine SameFor.reads trivial h ?_ fun existing _ => ?_
    · simp only [Server.answer]
      cases hcast : (fromSet (userId.toString :: input.members)).mapM ObjectId.cast with
      | none => rfl
      | some memberIds =>
        have hmem : userId ∈ memberIds := (ObjectId.mem_mapM_cast hcast).mpr
          ⟨_, mem_fromSet.mpr (.head _), ObjectId.cast_toString userId⟩
        simp only [findOneToOne_same h hmem]
    · cases existing with
      | some existing => exact .ret _ h
      | none => exact hcreate _
  · exact hcreate _

theorem listConversations_same (h : Agree userId s t) :
    SameFor D userId (listConversations userId) s t := by
  have hpopulate : ∀ c ∈ conversationsFor userId s,
      s.populateConversation c = t.populateConversation c := by
    intro c hc
    rw [Server.populateConversation, Server.populateConversation, h.users]
    congr 1
    cases hlast : c.lastMessage with
    | none => rfl
    | some id => exact (h.lastMessages c hc id hlast).symm
  have hfound : (D.byUpdate.sort (conversationsFor userId s)).map s.populateConversation =
      (D.byUpdate.sort (conversationsFor userId t)).map t.populateConversation := by
    rw [h.conversations]
    apply List.map_congr_left
    intro c hc
    exact hpopulate c ((D.byUpdate.perm _).mem_iff.mp hc)
  unfold listConversations
  refine SameFor.reads trivial h (congrArg Except.ok hfound) fun conversations hvalue => ?_
  split
  · exact .ret _ h
  · refine SameFor.reads trivial h ?_ fun _ _ => .ret _ h
    have hids : ∀ id ∈ conversations.map (·.conversation.id), IsMember id userId s := by
      obtain rfl := Except.ok.inj hvalue
      intro id hid
      obtain ⟨_, hmem, rfl⟩ := List.mem_map.mp hid
      obtain ⟨c, hsorted, rfl⟩ := List.mem_map.mp hmem
      obtain ⟨hc, hm⟩ := mem_conversationsFor.mp ((D.byUpdate.perm _).mem_iff.mp hsorted)
      exact ⟨c, hc, rfl, hm⟩
    simp only [Server.answer, Server.countUnread]
    rw [h.filter]
    intro m hmatch
    simp only [Bool.and_eq_true, List.contains_iff_mem] at hmatch
    exact hids _ hmatch.1.1

theorem getMessageHistory_same (h : Agree userId s t) {conversationId : Text} {id : ObjectId}
    (hid : ObjectId.cast conversationId = some id) (hm : IsMember id userId s) (limit : Nat)
    (before : Option Text) : SameFor D userId (getMessageHistory conversationId limit before) s t := by
  have hpage : ∀ bound limit, s.findPage D id bound limit = t.findPage D id bound limit := by
    intro bound limit
    simp only [Server.findPage]
    rw [h.filter]
    · exact List.map_congr_left fun m _ => by rw [populate_same h]
    · intro m hmatch
      rw [Bool.and_eq_true, beq_iff_eq] at hmatch
      exact hmatch.1 ▸ hm
  unfold getMessageHistory
  refine SameFor.reads trivial h ?_ fun _ _ => .ret _ h
  simp only [Server.answer, hid, Server.casting, hpage]
  rcases cursorOf before with _ | _ | bound <;> rfl

/-! ### Handlers -/

section
variable {socket : Socket} (payload ack : Value)

/-- What is sent to a room does not depend on who is in it. -/
theorem SameFor.emit {room : Text} {event : ServerEvent} {p : Chat β} (hp : SameFor D userId p s t) :
    SameFor D userId ((perform (.emit room event)).bind fun _ => p) s t := by
  apply Alike.perform_discard
  · exact fun _ _ => rfl
  · exact hp

theorem SameFor.emitFrom {room : Text} {event : ServerEvent} {p : Chat β}
    (hp : SameFor D userId p s t) :
    SameFor D userId ((perform (.emitFrom socket room event)).bind fun _ => p) s t := by
  apply Alike.perform_discard
  · exact fun _ _ => rfl
  · exact hp

/-- The end of `conversation:join` and `conversation:leave`. -/
theorem acknowledged_same (h : Agree userId s t) (conversationId ack : Value) :
    SameFor D userId (do
      query .microtask
      logValue conversationId
      callAck ack { success := true }) s t := by
  refine SameFor.reads trivial h rfl fun _ _ => ?_
  exact SameFor.bind (logValue_same h conversationId) fun _ _ _ h => callAck_same h _ _

theorem conversationJoin_same (h : Agree socket.userId s t) :
    SameFor D socket.userId (conversationJoin D socket payload ack) s t := by
  refine SameFor.tryCatch ?_ fun _ _ _ h => callAck_same h _ _
  apply isConversationMember_same h payload
  intro isMember _
  split
  · exact callAck_same h _ _
  · exact SameFor.bind (.perform rfl (h.joinRooms socket _)) fun _ _ _ h =>
      acknowledged_same h payload ack

theorem conversationLeave_same (h : Agree userId s t) :
    SameFor D userId (conversationLeave socket payload ack) s t := by
  refine SameFor.tryCatch ?_ fun _ _ _ h => callAck_same h _ _
  exact SameFor.bind (.perform rfl (h.leaveRooms socket _)) fun _ _ _ h =>
    acknowledged_same h payload ack

theorem messageSend_same (h : Agree socket.userId s t) {id : ObjectId} (hs : Fresh id s)
    (ht : Fresh id t) : SameFor D socket.userId (messageSend D id socket payload ack) s t := by
  refine SameFor.tryCatch ?_ fun error _ _ h => ?_
  · obtain ⟨hvalue, hafter⟩ := h.checkMessageRateLimit D
    apply Alike.bind (.perform hvalue hafter)
    intro allowed _
    have hs' : Fresh id (Server.act D (.checkMessageRateLimit socket.userId) s).2 := hs.act D _
    have ht' : Fresh id (Server.act D (.checkMessageRateLimit socket.userId) t).2 := ht.act D _
    split
    · exact callAck_same hafter _ _
    · apply parseWith_same hafter _ _
      intro input
      apply SameFor.bind (createMessage_same hafter hs' ht' input)
      intro message _ _ h
      exact SameFor.emit (callAck_same h _ _)
  · cases error <;> exact callAck_same h _ _

theorem receiptError_same (h : Agree userId s t) (message : String) (error : Failure) :
    SameFor D userId (receiptError ack message error) s t := by
  cases error <;> exact callAck_same h _ _

theorem messageDelivered_same (h : Agree socket.userId s t) :
    SameFor D socket.userId (messageDelivered D socket payload ack) s t := by
  refine SameFor.tryCatch ?_ fun error _ _ h => receiptError_same ack h _ error
  apply parseWith_same h _ _
  intro input
  apply SameFor.bind (markMessageDelivered_same h _)
  intro result _ _ h
  exact SameFor.emit (callAck_same h _ _)

theorem messageRead_same (h : Agree socket.userId s t) :
    SameFor D socket.userId (messageRead D socket payload ack) s t := by
  refine SameFor.tryCatch ?_ fun error _ _ h => receiptError_same ack h _ error
  apply parseWith_same h _ _
  intro input
  apply SameFor.bind (markMessagesRead_same h _ _)
  intro result _ _ h
  split
  · exact callAck_same h _ _
  · exact SameFor.emit (callAck_same h _ _)

theorem broadcastTyping_same (h : Agree socket.userId s t) (signal : TypingSignal) :
    SameFor D socket.userId (broadcastTyping D socket signal payload) s t := by
  unfold broadcastTyping
  split
  · exact .ret () h
  · apply isConversationMember_same h _
    intro isMember _
    split
    · exact .ret () h
    · exact SameFor.emitFrom (.ret () h)

end

theorem createConversationHandler_same (h : Agree userId s t) {id : ObjectId} (hs : Fresh id s)
    (ht : Fresh id t) (body : Value) :
    SameFor D userId (createConversationHandler id userId body) s t := by
  unfold createConversationHandler
  split
  · exact .raise _ h
  · exact SameFor.bind (createConversation_same h hs ht _) fun _ _ _ h => .ret _ h

theorem getMessageHistoryHandler_same (h : Agree userId s t) (id : Text) (page : PaginationQuery) :
    SameFor D userId (getMessageHistoryHandler D userId id page) s t := by
  unfold getMessageHistoryHandler
  refine SameFor.bind ?_ fun _ _ _ h => ?_
  · unfold rejectInvalid
    split
    · exact .ret () h
    · exact .raise _ h
  · apply assertMembership_same h id
    intro _ c hcast hm
    exact SameFor.bind (getMessageHistory_same h hcast hm _ _) fun _ _ _ h => .ret _ h

end

end RealtimeChat
