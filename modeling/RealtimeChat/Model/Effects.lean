import RealtimeChat.Model.Server

/-! What a step can change.

An action touches only the state of the process, a query only the database. What a
query does to the messages and to the conversations is said once, as
`MessagesAfter` and `ConversationsAfter`; every invariant below is derived from
these. -/
namespace RealtimeChat
open Data (Text trim Collection)
open Zod (Value)

/-! ### Rooms -/

theorem mem_joinRooms {socket : Socket} {names : List Text} {s : Server} {entry : Text × Socket} :
    entry ∈ (joinRooms socket names s).rooms ↔
      entry ∈ s.rooms ∨ entry.2 = socket ∧ entry.1 ∈ names := by
  obtain ⟨room, other⟩ := entry
  simp only [joinRooms]
  generalize s.rooms = rooms
  induction names generalizing rooms with
  | nil => simp
  | cons name rest ih =>
    rw [List.foldl_cons, ih]
    split
    · rename_i hin
      constructor
      · intro h'
        rcases h' with h | ⟨hs, hr⟩
        · exact .inl h
        · exact .inr ⟨hs, List.mem_cons_of_mem _ hr⟩
      · intro h'
        rcases h' with h | ⟨rfl, hr⟩
        · exact .inl h
        · rcases List.mem_cons.mp hr with rfl | hr
          · exact .inl hin
          · exact .inr ⟨rfl, hr⟩
    · rw [List.mem_append, List.mem_singleton, List.mem_cons, Prod.mk.injEq]
      grind

theorem mem_inRoom {room : Text} {s : Server} {socket : Socket} (h : socket ∈ inRoom room s) :
    (room, socket) ∈ s.rooms := by
  simpa using (List.mem_filter.mp h).2

theorem mem_leaveRooms {socket : Socket} {names : List Text} {s : Server} {entry : Text × Socket} :
    entry ∈ (leaveRooms socket names s).rooms ↔
      entry ∈ s.rooms ∧ ¬ (entry.2 = socket ∧ entry.1 ∈ names) := by
  simp [leaveRooms, imp_iff_not_or]

namespace Server
variable (D : Deployment)

/-! ### Actions leave the database alone -/

structure SameStore (s s' : Server) : Prop where
  users : s'.users = s.users
  conversations : s'.conversations = s.conversations
  messages : s'.messages = s.messages
  clock : s'.clock = s.clock
  sockets : s'.sockets = s.sockets
  socketIds : s'.socketIds = s.socketIds

theorem checkMessageRateLimit_buckets (userId : ObjectId) (s : Server) :
    ∃ buckets, (checkMessageRateLimit D userId s).2 = {s with buckets} := by
  unfold checkMessageRateLimit
  cases s.buckets userId with
  | none => exact ⟨_, rfl⟩
  | some bucket =>
    by_cases hwindow : s.clock - bucket.windowStart ≥ D.socketRateLimitWindowMs
    · simp only [hwindow, if_true]
      exact ⟨_, rfl⟩
    · by_cases hcount : bucket.count ≥ D.socketRateLimitMax
      · simp only [hwindow, hcount, if_true, if_false]
        exact ⟨s.buckets, rfl⟩
      · simp only [hwindow, hcount, if_false]
        exact ⟨_, rfl⟩

theorem act_sameStore (a : Action) (s : Server) : SameStore s (act D a s).2 := by
  cases a with
  | checkMessageRateLimit userId =>
    obtain ⟨buckets, hb⟩ := checkMessageRateLimit_buckets D userId s
    simp only [act, hb]
    exact ⟨rfl, rfl, rfl, rfl, rfl, rfl⟩
  | addConnection userId socketId =>
    simp only [act, addConnection]
    split <;> exact ⟨rfl, rfl, rfl, rfl, rfl, rfl⟩
  | removeConnection userId socketId =>
    simp only [act, removeConnection]
    split <;> exact ⟨rfl, rfl, rfl, rfl, rfl, rfl⟩
  | _ => exact ⟨rfl, rfl, rfl, rfl, rfl, rfl⟩

@[simp] theorem act_conversations (a : Action) (s : Server) :
    (act D a s).2.conversations = s.conversations :=
  (act_sameStore D a s).conversations

@[simp] theorem act_messages (a : Action) (s : Server) : (act D a s).2.messages = s.messages :=
  (act_sameStore D a s).messages

@[simp] theorem act_sockets (a : Action) (s : Server) : (act D a s).2.sockets = s.sockets :=
  (act_sameStore D a s).sockets

@[simp] theorem act_socketIds (a : Action) (s : Server) :
    (act D a s).2.socketIds = s.socketIds :=
  (act_sameStore D a s).socketIds

/-- Only the two connection actions touch the map of connections. -/
theorem act_activeConnections {a : Action} (h : ∀ userId id, a ≠ .addConnection userId id ∧
    a ≠ .removeConnection userId id) (s : Server) :
    (act D a s).2.activeConnections = s.activeConnections := by
  cases a with
  | addConnection userId id => exact absurd rfl (h userId id).1
  | removeConnection userId id => exact absurd rfl (h userId id).2
  | checkMessageRateLimit userId =>
    obtain ⟨buckets, hb⟩ := checkMessageRateLimit_buckets D userId s
    simp only [act, hb]
  | _ => rfl

/-- Only the rate limiter touches the buckets. -/
theorem act_buckets {a : Action} (h : ∀ userId, a ≠ .checkMessageRateLimit userId) (s : Server) :
    (act D a s).2.buckets = s.buckets := by
  cases a with
  | checkMessageRateLimit userId => exact absurd rfl (h userId)
  | addConnection userId id =>
    simp only [act, addConnection]
    split <;> rfl
  | removeConnection userId id =>
    simp only [act, removeConnection]
    split <;> rfl
  | _ => rfl

/-- Only `join` and `leave` touch the rooms. -/
theorem act_rooms {a : Action} (h : ∀ socket rooms, a ≠ .join socket rooms ∧
    a ≠ .leave socket rooms) (s : Server) : (act D a s).2.rooms = s.rooms := by
  cases a with
  | join socket rooms => exact absurd rfl (h socket rooms).1
  | leave socket rooms => exact absurd rfl (h socket rooms).2
  | checkMessageRateLimit userId =>
    obtain ⟨buckets, hb⟩ := checkMessageRateLimit_buckets D userId s
    simp only [act, hb]
  | addConnection userId id =>
    simp only [act, addConnection]
    split <;> rfl
  | removeConnection userId id =>
    simp only [act, removeConnection]
    split <;> rfl
  | _ => rfl

/-! ### Queries leave the process alone -/

structure SameProcess (s s' : Server) : Prop where
  clock : s'.clock = s.clock
  buckets : s'.buckets = s.buckets
  activeConnections : s'.activeConnections = s.activeConnections
  sockets : s'.sockets = s.sockets
  socketIds : s'.socketIds = s.socketIds
  rooms : s'.rooms = s.rooms

theorem SameProcess.refl (s : Server) : SameProcess s s := ⟨rfl, rfl, rfl, rfl, rfl, rfl⟩

theorem casting_snd {α : Type} (id : Option ObjectId) (s : Server)
    (f : ObjectId → Except Failure α × Server) (h : ∀ o, (f o).2 = s) :
    (casting id s f).2 = s := by
  cases id with
  | none => rfl
  | some o => exact h o

/-- The queries that only read. -/
def Reads : Query → Prop
  | .conversationCreate .. => False
  | .conversationSave .. => False
  | .messageCreate .. => False
  | .messageSave .. => False
  | .messageUpdateMany .. => False
  | .userUpdate .. => False
  | _ => True

theorem answer_reads {q : Query} (h : Reads q) (s : Server) : (answer D q s).2 = s := by
  cases q with
  | conversationFindOneToOne memberIds =>
    simp only [answer]
    split <;> rfl
  | messageFindOne id conversationId =>
    exact casting_snd _ _ _ fun o => casting_snd _ _ _ fun c => rfl
  | messageFind conversationId before limit =>
    apply casting_snd _ _ _
    intro o
    rcases before with _ | _ | t <;> rfl
  | conversationFindOne id member => exact casting_snd _ _ _ fun o => rfl
  | messageFindById id => exact casting_snd _ _ _ fun o => rfl
  | messageFindUnread c reader upTo => exact casting_snd _ _ _ fun o => rfl
  | conversationCreate => exact h.elim
  | conversationSave => exact h.elim
  | messageCreate => exact h.elim
  | messageSave => exact h.elim
  | messageUpdateMany => exact h.elim
  | userUpdate => exact h.elim
  | _ => rfl

theorem answer_sameProcess (q : Query) (s : Server) : SameProcess s (answer D q s).2 := by
  cases q with
  | conversationCreate id type name memberIds now =>
    simp only [answer]
    split
    · simp only [createConversation]
      split <;> exact ⟨rfl, rfl, rfl, rfl, rfl, rfl⟩
    · exact .refl s
  | messageCreate id conversationId senderId text now =>
    simp only [answer]
    split
    · simp only [createMessage]
      split
      · exact .refl s
      · split <;> exact ⟨rfl, rfl, rfl, rfl, rfl, rfl⟩
    · exact .refl s
  | conversationSave id lastMessage now => exact ⟨rfl, rfl, rfl, rfl, rfl, rfl⟩
  | messageSave id status now => exact ⟨rfl, rfl, rfl, rfl, rfl, rfl⟩
  | messageUpdateMany ids now => exact ⟨rfl, rfl, rfl, rfl, rfl, rfl⟩
  | userUpdate id status lastSeen => exact ⟨rfl, rfl, rfl, rfl, rfl, rfl⟩
  | _ =>
    rw [answer_reads D]
    · exact .refl s
    · trivial

/-- Only the update of a status touches the users. -/
theorem answer_users {q : Query} (h : ∀ id status lastSeen, q ≠ .userUpdate id status lastSeen)
    (s : Server) : (answer D q s).2.users = s.users := by
  cases q with
  | userUpdate id status lastSeen => exact absurd rfl (h id status lastSeen)
  | conversationCreate id type name memberIds now =>
    simp only [answer]
    split
    · simp only [createConversation]
      split <;> rfl
    · rfl
  | messageCreate id conversationId senderId text now =>
    simp only [answer]
    split
    · simp only [createMessage]
      split
      · rfl
      · split <;> rfl
    · rfl
  | conversationSave id lastMessage now => rfl
  | messageSave id status now => rfl
  | messageUpdateMany ids now => rfl
  | _ =>
    rw [answer_reads D]
    trivial

/-! ### What a query does to the messages -/

inductive MessagesAfter (s : Server) : (q : Query) → Except Failure q.Answer × Server → Prop
  | same {q : Query} {r : Except Failure q.Answer × Server} (h : r.2.messages = s.messages) :
      MessagesAfter s q r
  | created {id : ObjectId} {spelling : Text} {conversationId senderId : ObjectId} {text : Text}
      {now : Nat} {r : Except Failure Message × Server}
      (hcast : ObjectId.cast spelling = some conversationId)
      (hanswer : r.1 = .ok ⟨id, conversationId, senderId, trim text, .sent, now, now⟩)
      (h : s.messages.insert ⟨id, conversationId, senderId, trim text, .sent, now, now⟩ =
        some r.2.messages) : MessagesAfter s (.messageCreate id spelling senderId text now) r
  | saved {id : ObjectId} {status : MessageStatus} {now : Nat} {r : Except Failure Unit × Server}
      (h : r.2.messages = (s.setStatus (fun m => m.id == id) status now).messages) :
      MessagesAfter s (.messageSave id status now) r
  | updated {ids : List ObjectId} {now : Nat} {r : Except Failure Unit × Server}
      (h : r.2.messages = (s.setStatus (fun m => ids.contains m.id) .read now).messages) :
      MessagesAfter s (.messageUpdateMany ids now) r

theorem answer_messages (q : Query) (s : Server) : MessagesAfter s q (answer D q s) := by
  cases q with
  | messageCreate id conversationId senderId text now =>
    simp only [answer]
    cases hcast : ObjectId.cast conversationId with
    | none => exact .same rfl
    | some c =>
      simp only [createMessage]
      split
      · exact .same rfl
      · cases hinsert : s.messages.insert ⟨id, c, senderId, trim text, .sent, now, now⟩ with
        | none => exact .same rfl
        | some messages => exact .created hcast rfl hinsert
  | conversationCreate id type name memberIds now =>
    simp only [answer]
    split
    · simp only [createConversation]
      split <;> exact .same rfl
    · exact .same rfl
  | messageSave id status now => exact .saved rfl
  | messageUpdateMany ids now => exact .updated rfl
  | conversationSave id lastMessage now => exact .same rfl
  | userUpdate id status lastSeen => exact .same rfl
  | _ =>
    refine .same ?_
    rw [answer_reads D]
    trivial

/-! ### What a query does to the conversations -/

inductive ConversationsAfter (s : Server) : (q : Query) → Except Failure q.Answer × Server → Prop
  | same {q : Query} {r : Except Failure q.Answer × Server}
      (h : r.2.conversations = s.conversations) : ConversationsAfter s q r
  | created {id : ObjectId} {type : ConversationType} {name : Option Text}
      {memberIds : List Text} {now : Nat} {members : List ObjectId}
      {r : Except Failure Conversation × Server}
      (hcast : memberIds.mapM ObjectId.cast = some members)
      (hanswer : r.1 = .ok ⟨id, type, name.map trim, members, none, now, now⟩)
      (h : s.conversations.insert ⟨id, type, name.map trim, members, none, now, now⟩ =
        some r.2.conversations) :
      ConversationsAfter s (.conversationCreate id type name memberIds now) r
  | saved {id lastMessage : ObjectId} {now : Nat} {r : Except Failure Unit × Server}
      (h : r.2.conversations = (s.saveConversation id lastMessage now).conversations) :
      ConversationsAfter s (.conversationSave id lastMessage now) r

theorem answer_conversations (q : Query) (s : Server) : ConversationsAfter s q (answer D q s) := by
  cases q with
  | messageCreate id conversationId senderId text now =>
    simp only [answer]
    split
    · simp only [createMessage]
      split
      · exact .same rfl
      · split <;> exact .same rfl
    · exact .same rfl
  | conversationCreate id type name memberIds now =>
    simp only [answer]
    cases hcast : memberIds.mapM ObjectId.cast with
    | none => exact .same rfl
    | some members =>
      simp only [createConversation]
      cases hinsert : s.conversations.insert ⟨id, type, name.map trim, members, none, now, now⟩ with
      | none => exact .same rfl
      | some conversations => exact .created hcast rfl hinsert
  | messageSave id status now => exact .same rfl
  | messageUpdateMany ids now => exact .same rfl
  | conversationSave id lastMessage now => exact .saved rfl
  | userUpdate id status lastSeen => exact .same rfl
  | _ =>
    refine .same ?_
    rw [answer_reads D]
    trivial

end Server

/-- The same conversation, at two points of its life. -/
structure Conversation.Same (c c' : Conversation) : Prop where
  id : c'.id = c.id
  type : c'.type = c.type
  members : c'.members = c.members

theorem Conversation.Same.trans {a b c : Conversation} (h : a.Same b) (h' : b.Same c) :
    a.Same c :=
  ⟨h'.id.trans h.id, h'.type.trans h.type, h'.members.trans h.members⟩

namespace Server
variable {D : Deployment} {s : Server} {q : Query} {r : Except Failure q.Answer × Server}

theorem mem_saveConversation {id lastMessage : ObjectId} {now : Nat} {c : Conversation} :
    c ∈ (s.saveConversation id lastMessage now).conversations.docs ↔
      ∃ c' ∈ s.conversations.docs,
        (if c'.id == id then {c' with lastMessage := some lastMessage, updatedAt := now} else c') = c := by
  simp only [saveConversation, Collection.mem_modify]

/-- No message is ever lost. -/
theorem MessagesAfter.persists (h : MessagesAfter s q r) {m : Message}
    (hm : m ∈ s.messages.docs) : ∃ m' ∈ r.2.messages.docs, m'.id = m.id := by
  have hset : ∀ p status now, ∃ m' ∈ (s.setStatus p status now).messages.docs, m'.id = m.id := by
    intro p status now
    refine ⟨_, List.mem_map_of_mem hm, ?_⟩
    split <;> rfl
  cases h with
  | same h => exact ⟨m, h ▸ hm, rfl⟩
  | created hcast hanswer h =>
    refine ⟨m, ?_, rfl⟩
    rw [(Collection.insert_eq_some h).1]
    exact List.mem_append_left _ hm
  | saved h =>
    rw [h]
    exact hset _ _ _
  | updated h =>
    rw [h]
    exact hset _ _ _

/-- No conversation is ever lost, or changes its members. -/
theorem ConversationsAfter.persists (h : ConversationsAfter s q r) {c : Conversation}
    (hc : c ∈ s.conversations.docs) : ∃ c' ∈ r.2.conversations.docs, Conversation.Same c c' := by
  cases h with
  | same h => exact ⟨c, h ▸ hc, rfl, rfl, rfl⟩
  | created hcast hanswer h =>
    refine ⟨c, ?_, rfl, rfl, rfl⟩
    rw [(Collection.insert_eq_some h).1]
    exact List.mem_append_left _ hc
  | @saved id lastMessage now _ h =>
    rw [h]
    refine ⟨_, mem_saveConversation.mpr ⟨c, hc, rfl⟩, ?_⟩
    split <;> exact ⟨rfl, rfl, rfl⟩

/-- A conversation was there before, or has just been created and returned. -/
theorem ConversationsAfter.origin (h : ConversationsAfter s q r) {c : Conversation}
    (hc : c ∈ r.2.conversations.docs) : (∃ c' ∈ s.conversations.docs, Conversation.Same c' c) ∨
      ∃ name memberIds now, memberIds.mapM ObjectId.cast = some c.members ∧
        (⟨q, r.1⟩ : (q : Query) × Except Failure q.Answer) =
          ⟨.conversationCreate c.id c.type name memberIds now, .ok c⟩ := by
  cases h with
  | same h => exact .inl ⟨c, h ▸ hc, rfl, rfl, rfl⟩
  | created hcast hanswer h =>
    rw [(Collection.insert_eq_some h).1, List.mem_append, List.mem_singleton] at hc
    rcases hc with hc | rfl
    · exact .inl ⟨c, hc, rfl, rfl, rfl⟩
    · exact .inr ⟨_, _, _, hcast, by rw [hanswer]⟩
  | saved h =>
    rw [h] at hc
    obtain ⟨c', hc', rfl⟩ := mem_saveConversation.mp hc
    refine .inl ⟨c', hc', ?_⟩
    split <;> exact ⟨rfl, rfl, rfl⟩

theorem conversationCreate_answer {id : ObjectId} {type : ConversationType} {name : Option Text}
    {memberIds : List Text} {now : Nat} {c : Conversation}
    (h : (answer D (.conversationCreate id type name memberIds now) s).1 = .ok c) :
    c ∈ (answer D (.conversationCreate id type name memberIds now) s).2.conversations.docs ∧
      c.type = type ∧ memberIds.mapM ObjectId.cast = some c.members := by
  simp only [answer] at h ⊢
  cases hcast : memberIds.mapM ObjectId.cast with
  | none =>
    rw [hcast] at h
    cases h
  | some members =>
    simp only [hcast, createConversation] at h ⊢
    cases hinsert : s.conversations.insert ⟨id, type, name.map trim, members, none, now, now⟩ with
    | none =>
      rw [hinsert] at h
      cases h
    | some conversations =>
      rw [hinsert] at h
      cases h
      refine ⟨?_, rfl, rfl⟩
      rw [(Collection.insert_eq_some hinsert).1]
      exact List.mem_append_right _ (List.mem_singleton_self _)

/-- A message that has been created: what it holds, and that its id was not in use. -/
theorem messageCreate_answer {id senderId : ObjectId} {spelling text : Text} {now : Nat}
    {m : Message} (h : (answer D (.messageCreate id spelling senderId text now) s).1 = .ok m) :
    ObjectId.cast spelling = some m.conversationId ∧
      m = ⟨id, m.conversationId, senderId, trim text, .sent, now, now⟩ ∧
      s.messages.insert m =
        some (answer D (.messageCreate id spelling senderId text now) s).2.messages := by
  simp only [answer] at h ⊢
  cases hcast : ObjectId.cast spelling with
  | none =>
    rw [hcast] at h
    cases h
  | some c =>
    simp only [hcast, createMessage] at h ⊢
    split at h
    · cases h
    · rename_i hvalid
      cases hinsert : s.messages.insert ⟨id, c, senderId, trim text, .sent, now, now⟩ with
      | none =>
        rw [hinsert] at h
        cases h
      | some messages =>
        rw [hinsert] at h
        cases h
        refine ⟨rfl, rfl, ?_⟩
        rw [if_neg hvalid]
        exact hinsert

end Server

end RealtimeChat
