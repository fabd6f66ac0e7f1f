import RealtimeChat.Services.Conversation

/-! `src/services/message.service.ts` -/
namespace RealtimeChat
open Data (Text)

/-- `id` is the `_id` that Mongoose gives the message. -/
def createMessage (id senderId : ObjectId) (input : SendMessageInput) : Chat PopulatedMessage := do
  match ← query (.conversationFindOne (.string input.conversationId) senderId) with
  | none => throw (.app "Conversation not found" 404)
  | some conversation =>
    let now ← perform .now
    let message ← query (.messageCreate id input.conversationId senderId input.text now)
    let now ← perform .now
    query (.conversationSave conversation.id message.id now)
    let sender ← query (.messagePopulate message.senderId)
    pure ⟨message, sender⟩

structure StatusUpdateResult where
  message : Message
  conversationId : Text

section
variable (D : Deployment)

def markMessageDelivered (messageId : Text) (userId : ObjectId) : Chat StatusUpdateResult := do
  if !ObjectId.isValid messageId then throw (.app "Invalid message ID" 400)
  else
    match ← query (.messageFindById messageId) with
    | none => throw (.app "Message not found" 404)
    | some message =>
      if !(← isConversationMember D (.string message.conversationId.toString) userId) then
        throw (.app "Message not found" 404)
      else if message.status = .sent then
        let now ← perform .now
        query (.messageSave message.id .delivered now)
        pure ⟨{message with status := .delivered, updatedAt := now},
          message.conversationId.toString⟩
      else pure ⟨message, message.conversationId.toString⟩

structure MessagesRead where
  conversationId : Text
  messageIds : List ObjectId

def markMessagesRead (conversationId upToMessageId : Text) (userId : ObjectId) :
    Chat MessagesRead := do
  if !ObjectId.isValid conversationId || !ObjectId.isValid upToMessageId then
    throw (.app "Invalid ID" 400)
  else if !(← isConversationMember D (.string conversationId) userId) then
    throw (.app "Conversation not found" 404)
  else
    match ← query (.messageFindOne upToMessageId conversationId) with
    | none => throw (.app "Message not found" 404)
    | some upToMessage =>
      let messageIds ← query (.messageFindUnread conversationId userId upToMessage.createdAt)
      if messageIds.isEmpty then pure ⟨conversationId, messageIds⟩
      else
        let now ← perform .now
        query (.messageUpdateMany messageIds now)
        pure ⟨conversationId, messageIds⟩

end

end RealtimeChat
