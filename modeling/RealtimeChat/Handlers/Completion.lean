import RealtimeChat.Async.Alone
import RealtimeChat.Handlers.Chat

/-! The services, each run to completion.

What a service returns and leaves behind when nothing happens between its awaits and
no query fails. -/
namespace RealtimeChat
open Data (Text)
open Zod (Value)
open Async Async.System

section
variable (D : Deployment) {β : Type}

theorem alone_query_bind (q : Query) (f : q.Answer → Chat β) (s : Server) :
    (chat D).alone ((query q).bind f) s = match Server.answer D q s with
      | (.ok v, t) => (chat D).alone (f v) t
      | (.error e, t) => (.error e, t) := by
  rw [alone_bind_query, show (chat D).answer = Server.answer D from rfl]
  rcases Server.answer D q s with ⟨e | v, t⟩
  · rfl
  · rfl

theorem isConversationMember_alone (conversationId : Text) (userId : ObjectId) (s : Server) :
    (chat D).alone (isConversationMember D (.string conversationId) userId) s =
      (.ok ((ObjectId.cast conversationId).any fun id => (s.findOne id userId).isSome), s) := by
  unfold isConversationMember
  cases hcast : ObjectId.cast conversationId with
  | none =>
    simp only [Deployment.isValid, ObjectId.not_isValid_of_cast hcast]
    rfl
  | some id =>
    simp only [Deployment.isValid, ObjectId.isValid_of_cast hcast]
    show (chat D).alone ((query (.conversationFindOne (.string conversationId) userId)).bind _) s = _
    rw [alone_query_bind]
    simp only [Server.answer, Deployment.cast, hcast, Server.casting]
    rfl

theorem isConversationMember_toString_alone (id userId : ObjectId) (s : Server) :
    (chat D).alone (isConversationMember D (.string id.toString) userId) s =
      (.ok (s.findOne id userId).isSome, s) := by
  rw [isConversationMember_alone, ObjectId.cast_toString]
  rfl

theorem markMessageDelivered_invalid {messageId : Text} (hid : ObjectId.cast messageId = none)
    (userId : ObjectId) (s : Server) : (chat D).alone (markMessageDelivered D messageId userId) s =
      (.error (.app "Invalid message ID" 400), s) := by
  unfold markMessageDelivered
  simp only [ObjectId.not_isValid_of_cast hid]
  rfl

theorem markMessageDelivered_alone {messageId : Text} {id : ObjectId}
    (hid : ObjectId.cast messageId = some id) (userId : ObjectId) (s : Server) :
    (chat D).alone (markMessageDelivered D messageId userId) s =
      match s.messages.find id with
      | none => (.error (.app "Message not found" 404), s)
      | some message =>
        if !(s.findOne message.conversationId userId).isSome then
          (.error (.app "Message not found" 404), s)
        else if message.status = .sent then
          (.ok ⟨{message with status := .delivered, updatedAt := s.clock},
            message.conversationId.toString⟩,
            s.setStatus (fun m => m.id == message.id) .delivered s.clock)
        else (.ok ⟨message, message.conversationId.toString⟩, s) := by
  unfold markMessageDelivered
  simp only [ObjectId.isValid_of_cast hid, Bool.not_true]
  show (chat D).alone ((query (.messageFindById messageId)).bind _) s = _
  rw [alone_query_bind]
  simp only [Server.answer, hid, Server.casting]
  cases hfind : s.messages.find id with
  | none => rfl
  | some message =>
    show (chat D).alone ((isConversationMember D _ userId).bind _) s = _
    rw [alone_bind, isConversationMember_toString_alone]
    show (chat D).alone (if (!(s.findOne message.conversationId userId).isSome) = true then _
      else if message.status = .sent then _ else _) s = _
    by_cases hmember : (!(s.findOne message.conversationId userId).isSome) = true
    · simp only [hmember, if_true]
      rfl
    · by_cases hsent : message.status = .sent
      · simp only [hmember, hsent, if_true]
        rfl
      · simp only [hmember, hsent, if_false]
        rfl

theorem markMessagesRead_invalid {conversationId upToMessageId : Text}
    (h : ObjectId.cast conversationId = none ∨ ObjectId.cast upToMessageId = none)
    (userId : ObjectId) (s : Server) :
    (chat D).alone (markMessagesRead D conversationId upToMessageId userId) s =
      (.error (.app "Invalid ID" 400), s) := by
  have hinvalid : (!ObjectId.isValid conversationId || !ObjectId.isValid upToMessageId) = true := by
    rcases h with h | h
    · simp [ObjectId.not_isValid_of_cast h]
    · simp [ObjectId.not_isValid_of_cast h]
  unfold markMessagesRead
  rw [if_pos hinvalid]
  rfl

theorem markMessagesRead_alone {conversationId upToMessageId : Text} {id upTo : ObjectId}
    (hid : ObjectId.cast conversationId = some id) (hupTo : ObjectId.cast upToMessageId = some upTo)
    (userId : ObjectId) (s : Server) :
    (chat D).alone (markMessagesRead D conversationId upToMessageId userId) s =
      if !(s.findOne id userId).isSome then (.error (.app "Conversation not found" 404), s)
      else match (s.messages.find upTo).filter fun m => m.conversationId == id with
      | none => (.error (.app "Message not found" 404), s)
      | some upToMessage =>
        let messageIds := (s.messages.docs.filter
          (Server.matchesUnread id userId upToMessage.createdAt)).map Message.id
        if messageIds.isEmpty then (.ok ⟨conversationId, messageIds⟩, s)
        else (.ok ⟨conversationId, messageIds⟩,
          s.setStatus (fun m => messageIds.contains m.id) .read s.clock) := by
  unfold markMessagesRead
  simp only [ObjectId.isValid_of_cast hid, ObjectId.isValid_of_cast hupTo]
  show (chat D).alone ((isConversationMember D _ userId).bind _) s = _
  rw [alone_bind, isConversationMember_alone, hid]
  show (chat D).alone (if (!(s.findOne id userId).isSome) = true then _ else _) s = _
  by_cases hmember : (!(s.findOne id userId).isSome) = true
  · simp only [hmember, if_true]
    rfl
  · simp only [hmember]
    show (chat D).alone ((query (.messageFindOne upToMessageId conversationId)).bind _) s = _
    rw [alone_query_bind]
    simp only [Server.answer, hid, hupTo, Server.casting]
    cases hfound : (s.messages.find upTo).filter fun m => m.conversationId == id with
    | none => rfl
    | some upToMessage =>
      show (chat D).alone ((query (.messageFindUnread conversationId userId _)).bind _) s = _
      rw [alone_query_bind]
      simp only [Server.answer, hid, Server.casting]
      show (chat D).alone (if List.isEmpty _ = true then _ else _) s = _
      by_cases hnone : ((s.messages.docs.filter
          (Server.matchesUnread id userId upToMessage.createdAt)).map Message.id).isEmpty = true
      · simp only [hnone, if_true]
        rfl
      · simp only [hnone]
        rfl

theorem listConversations_alone (userId : ObjectId) (s : Server) :
    (chat D).alone (listConversations userId) s =
      let conversations := (D.byUpdate.sort (s.conversations.docs.filter
        fun c => c.members.contains userId)).map s.populateConversation
      (.ok (if conversations.isEmpty then []
        else conversations.map fun c => ⟨c, ((s.countUnread (conversations.map (·.conversation.id))
          userId).lookup c.conversation.id).getD 0⟩), s) := by
  unfold listConversations
  show (chat D).alone ((query (.conversationFind userId)).bind _) s = _
  rw [alone_query_bind]
  simp only [Server.answer]
  show (chat D).alone (if List.isEmpty _ = true then _ else _) s = _
  by_cases hnone : ((D.byUpdate.sort (s.conversations.docs.filter
      fun c => c.members.contains userId)).map s.populateConversation).isEmpty = true
  · simp only [hnone, if_true]
    rfl
  · simp only [hnone]
    rfl

/-- What is listed are the caller's conversations, populated. -/
theorem mem_listed {userId : ObjectId} {s : Server} {list : List ConversationWithUnreadCount}
    (h : ((chat D).alone (listConversations userId) s).1 = .ok list)
    {c : ConversationWithUnreadCount} (hc : c ∈ list) : ∃ stored ∈ s.conversations.docs,
      userId ∈ stored.members ∧ c.conversation = s.populateConversation stored := by
  rw [listConversations_alone] at h
  obtain rfl := Except.ok.inj h
  split at hc
  · cases hc
  · obtain ⟨populated, hpopulated, rfl⟩ := List.mem_map.mp hc
    obtain ⟨stored, hstored, rfl⟩ := List.mem_map.mp hpopulated
    obtain ⟨hmem, hmember⟩ := List.mem_filter.mp ((D.byUpdate.perm _).mem_iff.mp hstored)
    exact ⟨stored, hmem, List.contains_iff_mem.mp hmember, rfl⟩

end

end RealtimeChat
