import RealtimeChat.Conversations.Membership

/-! What one user can see of the server.

Two states agree for a user if they have the same users, the same conversations of
that user with the same messages, and the same of the process that concerns the
user. They may differ in all else. Every write of one of the user's own calls is
made in both states alike and keeps the agreement. -/
namespace RealtimeChat
open Data (Text Collection)

/-- The conversations of a user. -/
def conversationsFor (userId : ObjectId) (s : Server) : List Conversation :=
  s.conversations.docs.filter fun c => c.members.contains userId

/-- Whether the user is a member of the conversation so named. -/
def sees (userId id : ObjectId) (s : Server) : Bool := (s.findOne id userId).isSome

/-- The messages in conversations of a user. -/
def messagesFor (userId : ObjectId) (s : Server) : List Message :=
  s.messages.docs.filter fun m => sees userId m.conversationId s

/-- The two states are one for the user. -/
structure Agree (userId : ObjectId) (s t : Server) : Prop where
  users : t.users = s.users
  clock : t.clock = s.clock
  bucket : t.buckets userId = s.buckets userId
  rooms : ∀ room socket, socket.userId = userId → ((room, socket) ∈ t.rooms ↔ (room, socket) ∈ s.rooms)
  conversations : conversationsFor userId t = conversationsFor userId s
  messages : messagesFor userId t = messagesFor userId s
  lastMessages : ∀ c ∈ conversationsFor userId s, ∀ id, c.lastMessage = some id →
    t.messages.find id = s.messages.find id

section
variable {userId : ObjectId} {s t : Server}

theorem mem_conversationsFor {c : Conversation} :
    c ∈ conversationsFor userId s ↔ c ∈ s.conversations.docs ∧ userId ∈ c.members := by
  simp only [conversationsFor, List.mem_filter, List.contains_iff_mem]

theorem Agree.refl (userId : ObjectId) (s : Server) : Agree userId s s :=
  ⟨rfl, rfl, rfl, fun _ _ _ => Iff.rfl, rfl, rfl, fun _ _ _ _ => rfl⟩

theorem Agree.trans {u : Server} (h : Agree userId s t) (h' : Agree userId t u) :
    Agree userId s u where
  users := h'.users.trans h.users
  clock := h'.clock.trans h.clock
  bucket := h'.bucket.trans h.bucket
  rooms room socket hs := (h'.rooms room socket hs).trans (h.rooms room socket hs)
  conversations := h'.conversations.trans h.conversations
  messages := h'.messages.trans h.messages
  lastMessages c hc id hid :=
    (h'.lastMessages c (h.conversations ▸ hc) id hid).trans (h.lastMessages c hc id hid)

/-! ### What the user's queries find -/

theorem findOne_eq_some {id : ObjectId} {c : Conversation} :
    s.findOne id userId = some c ↔ c ∈ conversationsFor userId s ∧ c.id = id := by
  rw [Server.findOne, Option.filter_eq_some_iff, Collection.find_eq_some, List.contains_iff_mem,
    mem_conversationsFor, and_right_comm]

theorem Agree.findOne (h : Agree userId s t) (id : ObjectId) :
    t.findOne id userId = s.findOne id userId := by
  apply Option.ext
  intro c
  rw [findOne_eq_some, findOne_eq_some, h.conversations]

theorem Agree.sees (h : Agree userId s t) (id : ObjectId) : sees userId id t = sees userId id s := by
  rw [RealtimeChat.sees, RealtimeChat.sees, h.findOne]

theorem Agree.isMember (h : Agree userId s t) (id : ObjectId) :
    IsMember id userId t ↔ IsMember id userId s := by
  rw [← findOne_isSome, ← findOne_isSome, h.findOne]

/-- Whatever is looked for among the messages of the user's conversations is found alike. -/
theorem Agree.filter (h : Agree userId s t) {p : Message → Bool}
    (hp : ∀ m, p m = true → IsMember m.conversationId userId s) :
    t.messages.docs.filter p = s.messages.docs.filter p := by
  have hvisible : ∀ r : Server, (∀ id, RealtimeChat.sees userId id r = RealtimeChat.sees userId id s) →
      r.messages.docs.filter p = (messagesFor userId r).filter p := by
    intro r hr
    rw [messagesFor, List.filter_filter]
    apply List.filter_congr
    intro m _
    rw [hr, RealtimeChat.sees]
    cases hpm : p m with
    | false => rfl
    | true => rw [findOne_isSome.mpr (hp m hpm), Bool.and_self]
  rw [hvisible t h.sees, hvisible s fun _ => rfl, h.messages]

/-- So is a message of one of the user's conversations, by its id. -/
theorem Agree.find (h : Agree userId s t) (id : ObjectId) {conversationId : ObjectId}
    (hm : IsMember conversationId userId s) :
    (t.messages.find id).filter (fun m => m.conversationId == conversationId) =
      (s.messages.find id).filter (fun m => m.conversationId == conversationId) := by
  have hfind : ∀ (r : Server) m, (r.messages.find id).filter (fun m => m.conversationId == conversationId)
      = some m ↔ m ∈ r.messages.docs.filter fun m => m.id == id && m.conversationId == conversationId := by
    intro r m
    rw [Option.filter_eq_some_iff, Collection.find_eq_some, List.mem_filter, Bool.and_eq_true,
      beq_iff_eq, beq_iff_eq, and_assoc]
  apply Option.ext
  intro m
  rw [hfind, hfind, h.filter]
  intro m hpm
  rw [Bool.and_eq_true, beq_iff_eq, beq_iff_eq] at hpm
  rw [hpm.2]
  exact hm

/-! ### Writes in both states -/

/-- Statuses set: the user still sees the same messages. -/
theorem messagesFor_setStatus (p : Message → Bool) (status : MessageStatus) (now : Nat) (s : Server) :
    messagesFor userId (s.setStatus p status now) =
      (messagesFor userId s).map fun m => if p m then {m with status, updatedAt := now} else m := by
  unfold messagesFor Server.setStatus
  rw [Collection.modify_docs, List.filter_map]
  congr 1
  apply List.filter_congr
  intro m _
  show RealtimeChat.sees userId (if p m = true then _ else m).conversationId s = _
  split <;> rfl

/-- Statuses set by id. -/
theorem Agree.setStatus (h : Agree userId s t) (p : ObjectId → Bool) (status : MessageStatus)
    (now : Nat) : Agree userId (s.setStatus (fun m => p m.id) status now)
      (t.setStatus (fun m => p m.id) status now) := by
  refine ⟨h.users, h.clock, h.bucket, h.rooms, h.conversations, ?_, ?_⟩
  · rw [messagesFor_setStatus, messagesFor_setStatus, h.messages]
  · intro c hc id hid
    simp only [Server.setStatus, Collection.find_modify]
    rw [h.lastMessages c hc id hid]

/-- The id occurs nowhere in the database. -/
structure Fresh (id : ObjectId) (s : Server) : Prop where
  conversations : ∀ c ∈ s.conversations.docs, c.id ≠ id ∧ c.lastMessage ≠ some id
  messages : ∀ m ∈ s.messages.docs, m.id ≠ id ∧ m.conversationId ≠ id

theorem Fresh.act {id : ObjectId} (h : Fresh id s) (D : Deployment) (a : Action) :
    Fresh id (Server.act D a s).2 := by
  obtain ⟨hconversations, hmessages⟩ := h
  exact ⟨by rwa [Server.act_conversations], by rwa [Server.act_messages]⟩

theorem messagesFor_insert {m : Message} {messages : Messages}
    (h : s.messages.insert m = some messages) : messagesFor userId {s with messages} =
      messagesFor userId s ++ [m].filter fun m => RealtimeChat.sees userId m.conversationId s := by
  unfold messagesFor
  rw [(Collection.insert_eq_some h).1, List.filter_append]
  rfl

/-- A message created under an id that is new to both. -/
theorem Agree.createMessage (h : Agree userId s t) {m : Message} (hs : Fresh m.id s)
    (ht : Fresh m.id t) : (s.createMessage m).1 = (t.createMessage m).1 ∧
      Agree userId (s.createMessage m).2 (t.createMessage m).2 := by
  obtain ⟨ms, hms⟩ : ∃ ms, s.messages.insert m = some ms :=
    Collection.insert_of_fresh fun m' hm' => (hs.messages m' hm').1
  obtain ⟨mt, hmt⟩ : ∃ mt, t.messages.insert m = some mt :=
    Collection.insert_of_fresh fun m' hm' => (ht.messages m' hm').1
  unfold Server.createMessage
  split
  · exact ⟨rfl, h⟩
  · rw [hms, hmt]
    refine ⟨rfl, h.users, h.clock, h.bucket, h.rooms, h.conversations, ?_, ?_⟩
    · rw [messagesFor_insert hms, messagesFor_insert hmt, h.messages]
      congr 1
      exact List.filter_congr fun m _ => h.sees m.conversationId
    · intro c hc id hid
      rw [Collection.find_insert hms, Collection.find_insert hmt, h.lastMessages c hc id hid]

theorem conversationsFor_saveConversation (id lastMessage : ObjectId) (now : Nat) (s : Server) :
    conversationsFor userId (s.saveConversation id lastMessage now) =
      (conversationsFor userId s).map fun c =>
        if c.id == id then {c with lastMessage := some lastMessage, updatedAt := now} else c := by
  unfold conversationsFor Server.saveConversation
  rw [Collection.modify_docs, List.filter_map]
  congr 1
  apply List.filter_congr
  intro c _
  show List.contains (if (c.id == id) = true then _ else c).members userId = _
  split <;> rfl

/-- The user sees the same conversations while their members stay. -/
theorem sees_saveConversation (id lastMessage : ObjectId) (now : Nat) (s : Server) (k : ObjectId) :
    sees userId k (s.saveConversation id lastMessage now) = sees userId k s := by
  unfold sees Server.findOne Server.saveConversation
  simp only [Collection.find_modify]
  cases s.conversations.find k with
  | none => rfl
  | some c =>
    simp only [Option.map_some, Option.filter_some]
    by_cases hid : (c.id == id) = true
    · simp only [hid, if_true]
      split <;> rfl
    · simp only [hid]
      rfl

/-- A conversation's last message, set to one that both find. -/
theorem Agree.saveConversation (h : Agree userId s t) (id lastMessage : ObjectId) (now : Nat)
    (hlast : t.messages.find lastMessage = s.messages.find lastMessage) :
    Agree userId (s.saveConversation id lastMessage now) (t.saveConversation id lastMessage now) := by
  refine ⟨h.users, h.clock, h.bucket, h.rooms, ?_, ?_, ?_⟩
  · rw [conversationsFor_saveConversation, conversationsFor_saveConversation, h.conversations]
  · have hmessages : ∀ r : Server, messagesFor userId (r.saveConversation id lastMessage now) =
        messagesFor userId r := fun r =>
      List.filter_congr fun m _ => sees_saveConversation id lastMessage now r m.conversationId
    rw [hmessages, hmessages, h.messages]
  · intro c hc k hk
    rw [conversationsFor_saveConversation] at hc
    obtain ⟨c', hc', rfl⟩ := List.mem_map.mp hc
    split at hk
    · obtain rfl := Option.some.inj hk
      exact hlast
    · exact h.lastMessages c' hc' k hk

theorem conversationsFor_insert {c : Conversation} {conversations : Conversations}
    (h : s.conversations.insert c = some conversations) :
    conversationsFor userId {s with conversations} =
      conversationsFor userId s ++ [c].filter fun c => c.members.contains userId := by
  unfold conversationsFor
  rw [(Collection.insert_eq_some h).1, List.filter_append]

/-- A new conversation has no messages. -/
theorem messagesFor_insertConversation {c : Conversation} {conversations : Conversations}
    (h : s.conversations.insert c = some conversations) (hfresh : Fresh c.id s) :
    messagesFor userId {s with conversations} = messagesFor userId s := by
  apply List.filter_congr
  intro m hm
  unfold RealtimeChat.sees Server.findOne
  rw [Collection.find_insert h, if_neg (hfresh.messages m hm).2.symm]

/-- A conversation created under an id that occurs in neither. -/
theorem Agree.createConversation (h : Agree userId s t) {c : Conversation}
    (hlast : c.lastMessage = none) (hs : Fresh c.id s) (ht : Fresh c.id t) :
    (s.createConversation c).1 = (t.createConversation c).1 ∧
      Agree userId (s.createConversation c).2 (t.createConversation c).2 := by
  obtain ⟨cs, hcs⟩ : ∃ cs, s.conversations.insert c = some cs :=
    Collection.insert_of_fresh fun c' hc' => (hs.conversations c' hc').1
  obtain ⟨ct, hct⟩ : ∃ ct, t.conversations.insert c = some ct :=
    Collection.insert_of_fresh fun c' hc' => (ht.conversations c' hc').1
  unfold Server.createConversation
  rw [hcs, hct]
  refine ⟨rfl, h.users, h.clock, h.bucket, h.rooms, ?_, ?_, ?_⟩
  · rw [conversationsFor_insert hcs, conversationsFor_insert hct, h.conversations]
  · rw [messagesFor_insertConversation hcs hs, messagesFor_insertConversation hct ht, h.messages]
  · intro c' hc' k hk
    rw [conversationsFor_insert hcs, List.mem_append] at hc'
    rcases hc' with hc' | hc'
    · exact h.lastMessages c' hc' k hk
    · rw [List.mem_singleton.mp (List.mem_of_mem_filter hc'), hlast] at hk
      cases hk

/-! ### The process -/

theorem Agree.checkMessageRateLimit (h : Agree userId s t) (D : Deployment) :
    (checkMessageRateLimit D userId s).1 = (checkMessageRateLimit D userId t).1 ∧
      Agree userId (checkMessageRateLimit D userId s).2 (checkMessageRateLimit D userId t).2 := by
  have hset : ∀ b, Agree userId {s with buckets := Function.update s.buckets userId (some b)}
      {t with buckets := Function.update t.buckets userId (some b)} := fun b =>
    ⟨h.users, h.clock, by simp, h.rooms, h.conversations, h.messages, h.lastMessages⟩
  unfold RealtimeChat.checkMessageRateLimit
  simp only [h.clock, h.bucket] at hset ⊢
  cases s.buckets userId with
  | none => exact ⟨rfl, hset ⟨1, s.clock⟩⟩
  | some bucket =>
    dsimp only
    split
    · exact ⟨rfl, hset ⟨1, s.clock⟩⟩
    · split
      · exact ⟨rfl, h⟩
      · exact ⟨rfl, hset {bucket with count := bucket.count + 1}⟩

theorem Agree.joinRooms (h : Agree userId s t) (socket : Socket) (names : List Text) :
    Agree userId (joinRooms socket names s) (joinRooms socket names t) := by
  refine ⟨h.users, h.clock, h.bucket, fun room other hother => ?_, h.conversations, h.messages,
    h.lastMessages⟩
  rw [mem_joinRooms, mem_joinRooms, h.rooms room other hother]

theorem Agree.leaveRooms (h : Agree userId s t) (socket : Socket) (names : List Text) :
    Agree userId (leaveRooms socket names s) (leaveRooms socket names t) := by
  refine ⟨h.users, h.clock, h.bucket, fun room other hother => ?_, h.conversations, h.messages,
    h.lastMessages⟩
  rw [mem_leaveRooms, mem_leaveRooms, h.rooms room other hother]

end

end RealtimeChat
