import RealtimeChat.Model.Server

/-! `src/services/conversation.service.ts` -/
namespace RealtimeChat
open Data (Text)
open Zod (Value)

/-- `Array.from(new Set(xs))`: each element where it first occurs. -/
def fromSet (xs : List Text) : List Text :=
  xs.foldl (fun seen x => if x ∈ seen then seen else seen ++ [x]) []

theorem mem_fromSet {x : Text} {xs : List Text} : x ∈ fromSet xs ↔ x ∈ xs := by
  have hfold : ∀ seen : List Text, x ∈ xs.foldl (fun seen x =>
      if x ∈ seen then seen else seen ++ [x]) seen ↔ x ∈ seen ∨ x ∈ xs := by
    induction xs with
    | nil => simp
    | cons y rest ih =>
      intro seen
      rw [List.foldl_cons, ih, List.mem_cons]
      by_cases hy : y ∈ seen
      · rw [if_pos hy]
        by_cases hx : x = y
        · simp [hx, hy]
        · simp [hx]
      · rw [if_neg hy, List.mem_append, List.mem_singleton, or_assoc]
  rw [fromSet, hfold, List.mem_nil_iff, false_or]

/-- `id` is the `_id` that Mongoose gives the document, should one be created. -/
def createConversation (id currentUserId : ObjectId) (input : CreateConversationInput) :
    Chat Conversation := do
  let memberIds := fromSet (currentUserId.toString :: input.members)
  let existing ← if input.type = .oneToOne then query (.conversationFindOneToOne memberIds)
    else pure none
  match existing with
  | some existing => pure existing
  | none =>
    let now ← perform .now
    query (.conversationCreate id input.type input.name memberIds now)

structure ConversationWithUnreadCount where
  conversation : PopulatedConversation
  unreadCount : Nat

def listConversations (userId : ObjectId) : Chat (List ConversationWithUnreadCount) := do
  let conversations ← query (.conversationFind userId)
  if conversations.isEmpty then pure []
  else
    let unreadCounts ← query (.messageAggregate (conversations.map (·.conversation.id)) userId)
    pure <| conversations.map fun c => ⟨c, (unreadCounts.lookup c.conversation.id).getD 0⟩

section
variable (D : Deployment)

def assertMembership (conversationId : Value) (userId : ObjectId) : Chat Conversation := do
  if !D.isValid conversationId then throw (.app "Invalid conversation ID" 400)
  else
    match ← query (.conversationFindOne conversationId userId) with
    | none => throw (.app "Conversation not found" 404)
    | some conversation => pure conversation

def isConversationMember (conversationId : Value) (userId : ObjectId) : Chat Bool := do
  if !D.isValid conversationId then pure false
  else
    let conversation ← query (.conversationFindOne conversationId userId)
    pure conversation.isSome

end

structure PaginatedMessages where
  messages : List PopulatedMessage
  hasMore : Bool
  nextCursor : Option Text

/-- `if (before)`: the empty text is no cursor either. -/
def cursorOf (before : Option Text) : Option (Option Int) :=
  (before.filter fun s => !s.isEmpty).map IsoDate.parse

/-- The page cut from the documents found, one more than `limit` having been asked for. -/
def pageOf (messages : List PopulatedMessage) (limit : Nat) : PaginatedMessages :=
  let hasMore := decide (limit < messages.length)
  let page := if hasMore then messages.take limit else messages
  { messages := page, hasMore
    nextCursor := if hasMore then page.getLast?.map fun m => IsoDate.toISOString m.message.createdAt
      else none }

def getMessageHistory (conversationId : Text) (limit : Nat) (before : Option Text) :
    Chat PaginatedMessages := do
  let messages ← query (.messageFind conversationId (cursorOf before) (limit + 1))
  pure (pageOf messages limit)

end RealtimeChat
