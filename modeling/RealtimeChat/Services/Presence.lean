import RealtimeChat.Model.Server

/-! `src/services/presence.service.ts`; its in-memory map is part of `Model/Server.lean`. -/
namespace RealtimeChat
open Data (Text)

def setUserOnline (userId : ObjectId) : Chat (Option User) := query (.userUpdate userId .online none)

def setUserOffline (userId : ObjectId) : Chat (Option User) := do
  let now ← perform .now
  query (.userUpdate userId .offline (some now))

def getUserConversationRoomIds (userId : ObjectId) : Chat (List Text) := do
  let conversations ← query (.conversationIds userId)
  pure (conversations.map ObjectId.toString)

end RealtimeChat
