import RealtimeChat.Board.Basic
import RealtimeChat.Handlers.Grants
import RealtimeChat.Messages.Integrity
import RealtimeChat.Receipts.Settled

/-! The server is a board.

What is stored is seen as a board (`Server.board`), conversations as rooms and messages
as posts. Whatever calls arrive and however they are interleaved, each move of the
server leaves the board as it is or takes one step of a board, in the name of the user
whose call is answered, who may take it (`chat_board`). What holds of all boards so
holds of the server: nothing that is said is ever taken back (`board_grown`), what outsiders
do leaves a conversation untouched (`conversation_untouched`), only a reader makes a message
read (`read_by_other`), and nobody else moves a user's presence (`presence_own`). -/
namespace RealtimeChat
open Data (Text trim Collection)
open Zod (Value)
open Async Async.System

/-! ### What is seen -/

def MessageStatus.mark : MessageStatus → Board.Mark
  | .sent => .sent
  | .delivered => .delivered
  | .read => .read

/-- `type`, `name`, `members` as they are listed, and `createdAt` -/
abbrev About := ConversationType × Option Text × List ObjectId × Nat

def Conversation.room (c : Conversation) : Board.Room ObjectId About :=
  ⟨(c.type, c.name, c.members, c.createdAt), {u | u ∈ c.members}⟩

/-- With `text` and `createdAt`. -/
def Message.post (m : Message) : Board.Post ObjectId ObjectId (Text × Nat) :=
  ⟨m.conversationId, m.senderId, m.text, m.createdAt⟩

abbrev ChatBoard := Board ObjectId ObjectId ObjectId (Text × Text) About (Text × Nat) (UserStatus × Nat)

/-- All that is stored, as a board. -/
def Server.board (s : Server) : ChatBoard where
  who u := (s.users.find u).map fun user => (user.username, user.email)
  presence u := (s.users.find u).map fun user => (user.status, user.lastSeen)
  room r := (s.conversations.find r).map Conversation.room
  latest r := (s.conversations.find r).map fun c => (c.lastMessage, c.updatedAt)
  post m := (s.messages.find m).map Message.post
  mark m := (s.messages.find m).map fun m => (m.status.mark, m.updatedAt)

/-- What each call is for. -/
def Call.Does : Call → Board.Act → Prop
  | .connect _, .attends => True
  | .disconnect _, .attends => True
  | .event _ .messageSend _ _, .posts => True
  | .event _ .messageSend _ _, .points => True
  | .event _ .messageDelivered _ _, .delivers => True
  | .event _ .messageRead _ _, .reads => True
  | .createConversation _ _ _, .opens => True
  | _, _ => False

section
variable {D : Deployment} {s s' : Server}

theorem board_eq (husers : s'.users = s.users) (hconversations : s'.conversations = s.conversations)
    (hmessages : s'.messages = s.messages) : s'.board = s.board := by
  simp only [Server.board, husers, hconversations, hmessages]

theorem board_member {r u : ObjectId} : s.board.Member u r ↔ IsMember r u s := by
  constructor
  · intro h
    obtain ⟨room, hroom, hin⟩ := h
    obtain ⟨c, hfind, rfl⟩ := Option.map_eq_some_iff.mp hroom
    obtain ⟨hc, hid⟩ := Collection.find_eq_some.mp hfind
    exact ⟨c, hc, hid, hin⟩
  · intro h
    obtain ⟨c, hc, hid, hin⟩ := h
    exact ⟨c.room, Option.map_eq_some_iff.mpr ⟨c, Collection.find_eq_some.mpr ⟨hc, hid⟩, rfl⟩, hin⟩

/-- A message that is kept is a post. -/
theorem board_post {m : Message} (h : Kept m s) : s.board.post m.id = some m.post := by
  obtain ⟨m', hm', hsame⟩ := h
  refine Option.map_eq_some_iff.mpr ⟨m', Collection.find_eq_some.mpr ⟨hm', hsame.id⟩, ?_⟩
  simp only [Message.post, hsame.conversationId, hsame.senderId, hsame.text, hsame.createdAt]

/-! ### What the writes are seen as -/

/-- What is found under a key, where the document of one key is modified. -/
theorem find_modify_key {α κ : Type} [DecidableEq κ] {key : α → κ} (c : Collection α κ key) (k k' : κ)
    (f : α → α) (hf : ∀ d, key (f d) = key d) : (c.modify (fun d => key d == k) f hf).find k' =
      if k' = k then (c.find k').map f else c.find k' := by
  rw [Collection.find_modify]
  cases hfind : c.find k' with
  | none => split <;> rfl
  | some d =>
    obtain ⟨-, rfl⟩ := Collection.find_eq_some.mp hfind
    by_cases hk : key d = k
    · simp [hk]
    · simp [hk]

theorem board_userUpdate (id : ObjectId) (status : UserStatus) (lastSeen : Option Nat) :
    (s.updateUser id status lastSeen).2.board = s.board ∨ ∃ p,
      (s.updateUser id status lastSeen).2.board =
        {s.board with presence := Function.update s.board.presence id (some p)} := by
  have hfind : ∀ u, (s.updateUser id status lastSeen).2.users.find u =
      if u = id then (s.users.find u).map fun user =>
        {user with status, lastSeen := lastSeen.getD user.lastSeen} else s.users.find u :=
    fun u => find_modify_key s.users id u
      (fun user => {user with status, lastSeen := lastSeen.getD user.lastSeen}) fun _ => rfl
  have hwho : (s.updateUser id status lastSeen).2.board.who = s.board.who := by
    funext u
    simp only [Server.board, hfind]
    split
    · cases s.users.find u <;> rfl
    · rfl
  cases huser : s.users.find id with
  | none =>
    refine .inl (Board.ext hwho ?_ rfl rfl rfl rfl)
    funext u
    simp only [Server.board, hfind]
    split
    · rename_i heq
      rw [heq, huser]
      rfl
    · rfl
  | some user =>
    refine .inr ⟨(status, lastSeen.getD user.lastSeen), Board.ext hwho ?_ rfl rfl rfl rfl⟩
    funext u
    simp only [Server.board, hfind]
    by_cases heq : u = id
    · subst heq
      rw [if_pos rfl, Function.update_self, huser]
      rfl
    · rw [if_neg heq, Function.update_of_ne heq]

theorem board_saveConversation {id : ObjectId} {c : Conversation} (hc : s.conversations.find id = some c)
    (lastMessage : ObjectId) (now : Nat) : (s.saveConversation id lastMessage now).board =
      {s.board with latest := Function.update s.board.latest id (some (some lastMessage, now))} := by
  have hfind : ∀ r, (s.saveConversation id lastMessage now).conversations.find r =
      if r = id then (s.conversations.find r).map fun c =>
        {c with lastMessage := some lastMessage, updatedAt := now} else s.conversations.find r :=
    fun r => find_modify_key s.conversations id r
      (fun c => {c with lastMessage := some lastMessage, updatedAt := now}) fun _ => rfl
  have hroom : (s.saveConversation id lastMessage now).board.room = s.board.room := by
    funext r
    simp only [Server.board, hfind]
    split
    · cases s.conversations.find r <;> rfl
    · rfl
  have hlatest : (s.saveConversation id lastMessage now).board.latest =
      Function.update s.board.latest id (some (some lastMessage, now)) := by
    funext r
    simp only [Server.board, hfind]
    by_cases heq : r = id
    · subst heq
      rw [if_pos rfl, Function.update_self, hc]
      rfl
    · rw [if_neg heq, Function.update_of_ne heq]
  exact Board.ext rfl rfl hroom hlatest rfl rfl

theorem board_setStatus (p : Message → Bool) (status : MessageStatus) (now : Nat) :
    (s.setStatus p status now).board = {s.board with
      mark := fun id => (s.messages.find id).map fun m =>
        if p m then (status.mark, now) else (m.status.mark, m.updatedAt)} := by
  have hfind : ∀ id, (s.setStatus p status now).messages.find id =
      (s.messages.find id).map fun m => if p m then {m with status, updatedAt := now} else m :=
    fun id => Collection.find_modify s.messages p (fun m => {m with status, updatedAt := now})
      (fun _ => rfl) id
  have hpost : (s.setStatus p status now).board.post = s.board.post := by
    funext id
    simp only [Server.board, hfind, Option.map_map]
    congr 1
    funext m
    simp only [Function.comp]
    split <;> rfl
  have hmark : (s.setStatus p status now).board.mark = fun id => (s.messages.find id).map fun m =>
      if p m then (status.mark, now) else (m.status.mark, m.updatedAt) := by
    funext id
    simp only [Server.board, hfind, Option.map_map]
    congr 1
    funext m
    simp only [Function.comp]
    split <;> rfl
  exact Board.ext rfl rfl rfl rfl hpost hmark

theorem board_insertConversation {c : Conversation} {conversations : Conversations}
    (h : s.conversations.insert c = some conversations) :
    {s with conversations}.board = {s.board with
      room := Function.update s.board.room c.id (some c.room)
      latest := Function.update s.board.latest c.id (some (c.lastMessage, c.updatedAt))} := by
  have hfind := Collection.find_insert h
  refine Board.ext rfl rfl ?_ ?_ rfl rfl <;> funext r <;> simp only [Server.board, hfind] <;>
    by_cases heq : c.id = r
  · rw [if_pos heq, ← heq, Function.update_self]
    rfl
  · rw [if_neg heq, Function.update_of_ne (Ne.symm heq)]
  · rw [if_pos heq, ← heq, Function.update_self]
    rfl
  · rw [if_neg heq, Function.update_of_ne (Ne.symm heq)]

theorem board_insertMessage {m : Message} {messages : Messages} (h : s.messages.insert m = some messages) :
    {s with messages}.board = {s.board with
      post := Function.update s.board.post m.id (some m.post)
      mark := Function.update s.board.mark m.id (some (m.status.mark, m.updatedAt))} := by
  have hfind := Collection.find_insert h
  refine Board.ext rfl rfl rfl rfl ?_ ?_ <;> funext id <;> simp only [Server.board, hfind] <;>
    by_cases heq : m.id = id
  · rw [if_pos heq, ← heq, Function.update_self]
    rfl
  · rw [if_neg heq, Function.update_of_ne (Ne.symm heq)]
  · rw [if_pos heq, ← heq, Function.update_self]
    rfl
  · rw [if_neg heq, Function.update_of_ne (Ne.symm heq)]

end

/-! ### What tasks have seen -/

/-- What tasks have been told of messages is still so. -/
structure Seen (w : World chatInterface Server Failure Call) : Prop where
  created : ∀ pid id spelling u text t m,
    .answered pid (.messageCreate id spelling u text t) (.ok m) ∈ w.log →
      Kept m w.state ∧ ObjectId.cast spelling = some m.conversationId ∧ m.senderId = u
  found : ∀ pid spelling m, .answered pid (.messageFindById spelling) (.ok (some m)) ∈ w.log →
    Kept m w.state
  unread : ∀ pid spelling u upTo ids,
    .answered pid (.messageFindUnread spelling u upTo) (.ok ids) ∈ w.log → ∀ id ∈ ids, ∃ m, m.id = id ∧
      Kept m w.state ∧ ObjectId.cast spelling = some m.conversationId ∧ m.senderId ≠ u

section
variable {D : Deployment} {s : Server} {w w' : World chatInterface Server Failure Call}

theorem messageFindUnread_others {spelling : Text} {u : ObjectId} {upTo : Nat} {ids : List ObjectId}
    (h : (Server.answer D (.messageFindUnread spelling u upTo) s).1 = .ok ids) {id : ObjectId}
    (hid : id ∈ ids) : ∃ m, m.id = id ∧ Kept m s ∧ ObjectId.cast spelling = some m.conversationId ∧
      m.senderId ≠ u := by
  simp only [Server.answer, Server.casting] at h
  split at h
  · rename_i c hcast
    obtain rfl := Except.ok.inj h
    obtain ⟨m, hm, rfl⟩ := List.mem_map.mp hid
    obtain ⟨hstored, hmatches⟩ := List.mem_filter.mp hm
    simp only [Server.matchesUnread, Bool.and_eq_true, beq_iff_eq, bne_iff_ne] at hmatches
    obtain ⟨⟨⟨hroom, hauthor⟩, -⟩, -⟩ := hmatches
    exact ⟨m, rfl, ⟨m, hstored, .refl m⟩, hroom ▸ hcast, hauthor⟩
  · cases h

theorem messageCreate_kept {id u : ObjectId} {spelling text : Text} {t : Nat} {m : Message}
    (h : (Server.answer D (.messageCreate id spelling u text t) s).1 = .ok m) :
    Kept m (Server.answer D (.messageCreate id spelling u text t) s).2 ∧
      ObjectId.cast spelling = some m.conversationId ∧ m.senderId = u := by
  obtain ⟨hcast, hfields, hinsert⟩ := Server.messageCreate_answer h
  refine ⟨⟨m, ?_, .refl m⟩, hcast, by rw [hfields]⟩
  rw [(Collection.insert_eq_some hinsert).1]
  exact List.mem_append_right _ (List.mem_singleton_self m)

/-- An entry that tells nothing of messages. -/
theorem Seen.same (h : Seen w) {e : Event chatInterface Failure Call} (hlog : w'.log = e :: w.log)
    (hs : w'.state.messages = w.state.messages) (he : ¬ e.Succeeded) : Seen w' := by
  have hkept : ∀ {m}, Kept m w.state → Kept m w'.state := fun hm => by rwa [Kept, hs]
  refine ⟨fun pid id spelling u text t m hmem => ?_, fun pid spelling m hmem => ?_,
    fun pid spelling u upTo ids hmem id hid => ?_⟩ <;> rw [hlog] at hmem
  · obtain ⟨hm, hrest⟩ := h.created _ _ _ _ _ _ _ (Event.mem_of_succeeded hmem trivial he)
    exact ⟨hkept hm, hrest⟩
  · exact hkept (h.found _ _ _ (Event.mem_of_succeeded hmem trivial he))
  · obtain ⟨m, hm, hstored, hrest⟩ := h.unread _ _ _ _ _ (Event.mem_of_succeeded hmem trivial he) id hid
    exact ⟨m, hm, hkept hstored, hrest⟩

theorem Seen.answer (h : Seen w) (pid : Nat) (q : Query) : Seen ((chat D).respond pid q w) := by
  refine ⟨fun pid' id spelling u text t m hmem => ?_, fun pid' spelling m hmem => ?_,
    fun pid' spelling u upTo ids hmem id hid => ?_⟩
  · rcases List.mem_cons.mp hmem with heq | hmem
    · injection heq with _ hq hanswer
      subst hq
      exact messageCreate_kept (D := D) (eq_of_heq hanswer).symm
    · obtain ⟨hm, hrest⟩ := h.created _ _ _ _ _ _ _ hmem
      exact ⟨hm.answer q, hrest⟩
  · rcases List.mem_cons.mp hmem with heq | hmem
    · injection heq with _ hq hanswer
      subst hq
      exact (messageFindById_kept (D := D) (eq_of_heq hanswer).symm).answer _
    · exact (h.found _ _ _ hmem).answer q
  · rcases List.mem_cons.mp hmem with heq | hmem
    · injection heq with _ hq hanswer
      subst hq
      obtain ⟨m, hm, hstored, hrest⟩ := messageFindUnread_others (D := D) (eq_of_heq hanswer).symm hid
      exact ⟨m, hm, hstored.answer _, hrest⟩
    · obtain ⟨m, hm, hstored, hrest⟩ := h.unread _ _ _ _ _ hmem id hid
      exact ⟨m, hm, hstored.answer q, hrest⟩

theorem seen_preserved (D : Deployment) : (chat D).Preserves Call.law Seen where
  acts h _ _ := h.same rfl (Server.act_messages D _ _) id
  answers h _ _ := h.answer _ _
  rejects h _ _ := h.same rfl rfl id
  arrives h _ ha := h.same rfl (accept_sameBehind ha).messages id
  passes h := ⟨h.created, h.found, h.unread⟩

/-! ### What an answer is seen as -/

/-- The law of a call, and what it needs to have been granted. -/
def Call.warrant (call : Call) : Law chatInterface Failure := fun before d =>
  call.law before d ∧ granted call.user before d

theorem Admitted.member (hi : Informed D w) {pid : Nat} {u r : ObjectId} {spelling : Text}
    (h : Admitted u spelling (deeds pid w.log)) (hcast : ObjectId.cast spelling = some r) :
    w.state.board.Member u r := by
  obtain ⟨c, hc⟩ := h
  obtain ⟨hcast', hmember⟩ := hi.members _ _ _ _ (mem_deeds_answered.mp hc)
  cases hcast.symm.trans hcast'
  exact board_member.mpr hmember

theorem userUpdate_board (u : ObjectId) (status : UserStatus) (lastSeen : Option Nat) :
    (Server.answer D (.userUpdate u status lastSeen) s).2.board = s.board ∨
      Board.Step u s.board .attends (Server.answer D (.userUpdate u status lastSeen) s).2.board := by
  show (s.updateUser u status lastSeen).2.board = _ ∨ Board.Step u _ _ (s.updateUser u status lastSeen).2.board
  rcases board_userUpdate u status lastSeen with hsame | ⟨p, hp⟩
  · exact .inl hsame
  · rw [hp]
    exact .inr .attends

theorem conversationCreate_board {u id : ObjectId} {type : ConversationType} {name : Option Text}
    {memberIds : List Text} {now : Nat} (hself : u.toString ∈ memberIds) :
    (Server.answer D (.conversationCreate id type name memberIds now) s).2.board = s.board ∨
      Board.Step u s.board .opens
        (Server.answer D (.conversationCreate id type name memberIds now) s).2.board := by
  simp only [Server.answer]
  cases hcast : memberIds.mapM ObjectId.cast with
  | none => exact .inl rfl
  | some members =>
    simp only [Server.createConversation]
    cases hinsert : s.conversations.insert ⟨id, type, name.map trim, members, none, now, now⟩ with
    | none => exact .inl rfl
    | some conversations =>
      dsimp only
      rw [board_insertConversation hinsert]
      refine .inr (.opens now ?_ ?_)
      · exact Option.map_eq_none_iff.mpr
          (Collection.find_eq_none.mpr (Collection.insert_eq_some hinsert).2)
      · exact (ObjectId.mem_mapM_cast hcast).mpr ⟨_, hself, ObjectId.cast_toString u⟩

theorem messageCreate_board {u id : ObjectId} {spelling text : Text} {now : Nat}
    (hmember : ∀ {r}, ObjectId.cast spelling = some r → s.board.Member u r) :
    (Server.answer D (.messageCreate id spelling u text now) s).2.board = s.board ∨
      Board.Step u s.board .posts (Server.answer D (.messageCreate id spelling u text now) s).2.board := by
  simp only [Server.answer]
  cases hcast : ObjectId.cast spelling with
  | none => exact .inl rfl
  | some r =>
    simp only [Server.createMessage]
    split
    · exact .inl rfl
    · cases hinsert : s.messages.insert ⟨id, r, u, trim text, .sent, now, now⟩ with
      | none => exact .inl rfl
      | some messages =>
        dsimp only
        rw [board_insertMessage hinsert]
        refine .inr (.posts _ now ?_ (hmember hcast))
        exact Option.map_eq_none_iff.mpr
          (Collection.find_eq_none.mpr (Collection.insert_eq_some hinsert).2)

theorem conversationSave_board {u r : ObjectId} {m : Message} {now : Nat} (hm : Kept m s)
    (hroom : m.conversationId = r) (hauthor : m.senderId = u) (hmember : s.board.Member u r) :
    Board.Step u s.board .points (Server.answer D (.conversationSave r m.id now) s).2.board := by
  show Board.Step u _ _ (s.saveConversation r m.id now).board
  obtain rfl := hroom
  have hfound := hmember
  obtain ⟨room, hfound, -⟩ := hfound
  obtain ⟨c, hc, -⟩ := Option.map_eq_some_iff.mp hfound
  rw [board_saveConversation hc]
  exact .points now (board_post hm) hauthor hmember

theorem messageSave_board {u : ObjectId} {m : Message} {now : Nat} (hm : Kept m s)
    (hmember : s.board.Member u m.conversationId) :
    Board.Step u s.board .delivers (Server.answer D (.messageSave m.id .delivered now) s).2.board := by
  show Board.Step u _ _ (s.setStatus (fun m' => m'.id == m.id) .delivered now).board
  rw [board_setStatus]
  have hmark : (fun id => (s.messages.find id).map fun m' => if (m'.id == m.id) = true then
      (MessageStatus.delivered.mark, now) else (m'.status.mark, m'.updatedAt)) =
      Function.update s.board.mark m.id (some (.delivered, now)) := by
    funext id
    cases hfind : s.messages.find id with
    | none =>
      have hne : id ≠ m.id := by
        rintro rfl
        obtain ⟨m', hm', hsame⟩ := hm
        exact Collection.find_eq_none.mp hfind m' hm' hsame.id
      rw [Function.update_of_ne hne]
      simp only [Server.board, hfind, Option.map_none]
    | some m' =>
      obtain ⟨-, rfl⟩ := Collection.find_eq_some.mp hfind
      by_cases heq : m'.id = m.id
      · simp only [heq, Option.map_some, beq_self_eq_true, if_true, Function.update_self]
        rfl
      · rw [Function.update_of_ne heq]
        simp only [Server.board, hfind, Option.map_some, beq_iff_eq, heq, if_false]
  rw [hmark]
  exact .delivers now (board_post hm) hmember

theorem messageUpdateMany_board {u r : ObjectId} {ids : List ObjectId} {now : Nat}
    (hids : ∀ id ∈ ids, ∃ m, m.id = id ∧ Kept m s ∧ m.conversationId = r ∧ m.senderId ≠ u)
    (hmember : s.board.Member u r) :
    Board.Step u s.board .reads (Server.answer D (.messageUpdateMany ids now) s).2.board := by
  show Board.Step u _ _ (s.setStatus (fun m => ids.contains m.id) .read now).board
  rw [board_setStatus]
  have hmark : (fun id => (s.messages.find id).map fun m => if ids.contains m.id = true then
      (MessageStatus.read.mark, now) else (m.status.mark, m.updatedAt)) =
      fun id => if id ∈ ids then some (.read, now) else s.board.mark id := by
    funext id
    cases hfind : s.messages.find id with
    | none =>
      have hnot : id ∉ ids := by
        intro hid
        obtain ⟨m, rfl, ⟨m', hm', hsame⟩, -⟩ := hids id hid
        exact Collection.find_eq_none.mp hfind m' hm' hsame.id
      rw [if_neg hnot]
      simp only [Server.board, hfind, Option.map_none]
    | some m =>
      obtain ⟨-, rfl⟩ := Collection.find_eq_some.mp hfind
      by_cases hid : m.id ∈ ids
      · simp only [Option.map_some, List.contains_iff_mem.mpr hid, hid, if_true]
        rfl
      · simp only [Server.board, hfind, Option.map_some, List.contains_iff_mem, hid, if_false]
  rw [hmark]
  refine .reads now hmember fun id hid => ?_
  obtain ⟨m, rfl, hm, hroom, hauthor⟩ := hids id hid
  exact ⟨m.post, board_post hm, hroom, hauthor⟩

/-- **What an answer is seen as**: nothing, or one step that the call may take. -/
theorem answer_board {pid : Nat} {call : Call} {q : Query} (hi : Informed D w) (hs : Seen w)
    (h : call.warrant (deeds pid w.log) (.answered q (Server.answer D q w.state).1)) :
    (Server.answer D q w.state).2.board = w.state.board ∨
      Board.May Call.user Call.Does call w.state.board (Server.answer D q w.state).2.board := by
  obtain ⟨hlaw, hgrant⟩ := h
  have hasks := Call.law_asks hlaw
  cases q with
  | userUpdate u status lastSeen =>
    obtain rfl : u = call.user := hgrant
    have hdoes : call.Does .attends := by
      cases call with
      | event socket name args id => cases name <;> exact hasks.elim
      | _ => trivial
    exact (userUpdate_board _ status lastSeen).imp_right fun hstep => ⟨_, hdoes, hstep⟩
  | conversationCreate id type name memberIds now =>
    have hdoes : call.Does .opens := by
      cases call with
      | event socket name args id => cases name <;> exact hasks.elim
      | _ => trivial
    exact (conversationCreate_board hgrant).imp_right fun hstep => ⟨_, hdoes, hstep⟩
  | messageCreate id spelling u text now =>
    obtain ⟨socket, args, id', rfl, hsend⟩ := Call.law_ofSend hlaw trivial
    obtain ⟨input, c, -, rfl, rfl, rfl, rfl, hdeeds⟩ := hsend
    have hadmitted : Admitted socket.userId input.conversationId (deeds pid w.log) := by
      rw [hdeeds]
      exact ⟨c, .tail _ (.head _)⟩
    exact (messageCreate_board fun hcast => hadmitted.member hi hcast).imp_right
      fun hstep => ⟨.posts, trivial, hstep⟩
  | conversationSave k lastMessage now =>
    obtain ⟨socket, args, id', rfl, hsend⟩ := Call.law_ofSend hlaw trivial
    obtain ⟨input, c, t, m, -, rfl, rfl, hdeeds⟩ := hsend
    have hcreated : .answered (.messageCreate id' input.conversationId socket.userId input.text t)
        (.ok m) ∈ deeds pid w.log := by
      rw [hdeeds]
      exact .tail _ (.head _)
    have hfound : .answered (.conversationFindOne (.string input.conversationId) socket.userId)
        (.ok (some c)) ∈ deeds pid w.log := by
      rw [hdeeds]
      exact .tail _ (.tail _ (.tail _ (.head _)))
    obtain ⟨hm, hcast, hauthor⟩ := hs.created _ _ _ _ _ _ _ (mem_deeds_answered.mp hcreated)
    obtain ⟨hcast', hmember⟩ := hi.members _ _ _ _ (mem_deeds_answered.mp hfound)
    exact .inr ⟨.points, trivial, conversationSave_board hm (Option.some.inj (hcast.symm.trans hcast'))
      hauthor (board_member.mpr hmember)⟩
  | messageSave k status now =>
    have hdoes : call.Does .delivers := by
      cases call with
      | event socket name args id => cases name <;> trivial
      | _ => exact hasks.elim
    obtain ⟨rfl, spelling, m, hfound, rfl, hadmitted⟩ := hgrant
    have hm := hs.found _ _ _ (mem_deeds_answered.mp hfound)
    exact .inr ⟨.delivers, hdoes, messageSave_board hm (hadmitted.member hi (ObjectId.cast_toString _))⟩
  | messageUpdateMany ids now =>
    have hdoes : call.Does .reads := by
      cases call with
      | event socket name args id => cases name <;> trivial
      | _ => exact hasks.elim
    obtain ⟨spelling, upTo, hunread, c, hfound⟩ := hgrant
    obtain ⟨hcast, hmember⟩ := hi.members _ _ _ _ (mem_deeds_answered.mp hfound)
    refine .inr ⟨.reads, hdoes, messageUpdateMany_board (fun id hid => ?_) (board_member.mpr hmember)⟩
    obtain ⟨m, hid, hm, hcast', hauthor⟩ :=
      hs.unread _ _ _ _ _ (mem_deeds_answered.mp hunread) id hid
    exact ⟨m, hid, hm, Option.some.inj (hcast'.symm.trans hcast), hauthor⟩
  | _ =>
    refine .inl (congrArg Server.board ?_)
    exact Server.answer_reads D (by trivial) w.state

theorem chat_refines (D : Deployment) : (chat D).Refines Call.warrant
    (fun w => Informed D w ∧ Seen w) Server.board (Board.May Call.user Call.Does) where
  preserves := ((informed_preserved D).and (seen_preserved D)).strict fun h => h.1
  acts a s := board_eq (Server.act_sameStore D a s).users (Server.act_conversations D a s)
    (Server.act_messages D a s)
  accepts ha := board_eq (accept_sameBehind ha).users (accept_sameBehind ha).conversations
    (accept_sameBehind ha).messages
  passes _ _ := rfl
  answers hi _ h := answer_board hi.1 hi.2 h

theorem body_warranted (D : Deployment) (call : Call) : (Call.body D call).Obeys call.warrant
    (fun before _ => call.ending before ∧ True) [] :=
  (body_obeys D call).and (body_granted D call)

end

/-! ### In every run -/

section
variable {D : Deployment} {s : Server} {moves : List (Move Call)}

abbrev Warranted (c : Config chatInterface Server Failure Call Response) : Prop :=
  Obedient Call.warrant (fun call before _ => call.ending before ∧ True) c

theorem warranted_run (D : Deployment) (s : Server) (moves : List (Move Call)) :
    Warranted ((chat D).run (Config.start s) moves) :=
  (Obedient.start s).run (chat D) (body_warranted D) moves

theorem seen_run (D : Deployment) (s : Server) (moves : List (Move Call)) :
    Informed D ((chat D).run (Config.start s) moves).world ∧
      Seen ((chat D).run (Config.start s) moves).world := by
  refine (chat_refines D).preserves.run (body_warranted D) (Obedient.start s) ?_ moves
  constructor <;> constructor <;> simp [Config.start]

/-- From any state of a run to any later one. -/
theorem board_steps (D : Deployment) (s : Server) (moves more : List (Move Call)) : ∃ calls,
    Steps (Board.May Call.user Call.Does)
      ((chat D).run (Config.start s) moves).world.state.board calls
      ((chat D).run (Config.start s) (moves ++ more)).world.state.board ∧
    ∀ call ∈ calls, .arrive call ∈ moves ++ more := by
  obtain ⟨calls, hsteps, harrived⟩ := (chat_refines D).run (body_warranted D)
    (warranted_run D s moves) (seen_run D s moves) more
  rw [← (chat D).run_append] at hsteps harrived
  refine ⟨calls, hsteps, fun call hmem => ?_⟩
  obtain ⟨pid, hlog⟩ := harrived call hmem
  exact run_arrived hlog

/-- What a task has been told was so at some moment, and the board has only grown since. -/
theorem answered_grown {pid : Nat} {q : Query} {v : q.Answer}
    (h : .answered pid q (.ok v) ∈ ((chat D).run (Config.start s) moves).world.log) :
    ∃ before, (Server.answer D q ((chat D).run (Config.start s) before).world.state).1 = .ok v ∧
      ((chat D).run (Config.start s) before).world.state.board.Grown
        ((chat D).run (Config.start s) moves).world.state.board ∧
      (Server.answer D q ((chat D).run (Config.start s) before).world.state).2.board.Grown
        ((chat D).run (Config.start s) moves).world.state.board := by
  obtain ⟨later, earlier, hlog⟩ := List.append_of_mem h
  obtain ⟨before, ⟨rest, rfl⟩, -, hanswer⟩ := (chat D).run_answer hlog
  obtain ⟨calls, hsteps, -⟩ := board_steps D s before ([.answer pid] ++ rest)
  obtain ⟨calls', hsteps', -⟩ := board_steps D s (before ++ [.answer pid]) rest
  rw [← List.append_assoc] at hsteps
  refine ⟨before, congrArg Prod.fst hanswer, Board.grown_steps hsteps, ?_⟩
  have hafter : (Server.answer D q ((chat D).run (Config.start s) before).world.state).2 =
      ((chat D).run (Config.start s) (before ++ [.answer pid])).world.state := congrArg Prod.snd hanswer
  rw [hafter]
  exact Board.grown_steps hsteps'

end

/-- **The server is a board**: in any run, whatever is interleaved and whatever fails, a move leaves
what is stored as it is, or it is the answer to a call, and changes what is stored by one step that
the user of the call may take. -/
theorem chat_board (D : Deployment) (users : Users) (conversations : Conversations)
    (messages : Messages) (clock : Nat) (moves : List (Move Call)) (m : Move Call) :
    let c := (chat D).run (Config.start (Server.boot users conversations messages clock)) moves
    ((chat D).step c m).world.state.board = c.world.state.board ∨
      ∃ pid call task, m = .answer pid ∧ c.tasks[pid]? = some ⟨call, task⟩ ∧
        Board.May Call.user Call.Does call c.world.state.board
          ((chat D).step c m).world.state.board :=
  (chat_refines D).step (warranted_run D _ moves) (seen_run D _ moves) m

/-- **Nothing that has been said is lost or changed**: a user stays who he is, a conversation keeps
its members, and a message what it says, from any moment of any run on. -/
theorem board_grown (D : Deployment) (users : Users) (conversations : Conversations)
    (messages : Messages) (clock : Nat) (moves more : List (Move Call)) :
    let s := Server.boot users conversations messages clock
    ((chat D).run (Config.start s) moves).world.state.board.Grown
      ((chat D).run (Config.start s) (moves ++ more)).world.state.board := by
  obtain ⟨calls, hsteps, -⟩ := board_steps D (Server.boot users conversations messages clock) moves more
  exact Board.grown_steps hsteps

/-! ### What is seen and what is stored -/

section
variable {s s' : Server}

theorem mark_injective : Function.Injective MessageStatus.mark := by
  intro a b h
  cases a <;> cases b <;> first | rfl | cases h

/-- A message is what is seen of it. -/
theorem mem_of_board {m : Message} : m ∈ s.messages.docs ↔
    s.board.post m.id = some m.post ∧ s.board.mark m.id = some (m.status.mark, m.updatedAt) := by
  constructor
  · intro hm
    have hfind := Collection.find_eq_some.mpr (⟨hm, rfl⟩ : m ∈ s.messages.docs ∧ m.id = m.id)
    simp only [Server.board, hfind, Option.map_some, and_self]
  · intro h
    obtain ⟨hpost, hmark⟩ := h
    obtain ⟨m', hfind, hsame⟩ := Option.map_eq_some_iff.mp hpost
    simp only [Server.board, hfind, Option.map_some, Option.some.injEq, Prod.mk.injEq] at hmark
    obtain ⟨hm', hid⟩ := Collection.find_eq_some.mp hfind
    obtain ⟨id, conversationId, senderId, text, status, createdAt, updatedAt⟩ := m
    obtain ⟨id', conversationId', senderId', text', status', createdAt', updatedAt'⟩ := m'
    simp only [Message.post, Board.Post.mk.injEq, Prod.mk.injEq] at hsame
    obtain ⟨rfl, rfl, rfl, rfl⟩ := hsame
    obtain ⟨hstatus, rfl⟩ := hmark
    obtain rfl := mark_injective hstatus
    obtain rfl : id' = id := hid
    exact hm'

/-- A user is what is seen of him. -/
theorem user_of_board {user : User} : user ∈ s.users.docs ↔
    s.board.who user.id = some (user.username, user.email) ∧
      s.board.presence user.id = some (user.status, user.lastSeen) := by
  constructor
  · intro huser
    have hfind := Collection.find_eq_some.mpr (⟨huser, rfl⟩ : user ∈ s.users.docs ∧ user.id = user.id)
    simp only [Server.board, hfind, Option.map_some, and_self]
  · intro h
    obtain ⟨hwho, hpresence⟩ := h
    obtain ⟨user', hfind, hsame⟩ := Option.map_eq_some_iff.mp hwho
    simp only [Server.board, hfind, Option.map_some, Option.some.injEq, Prod.mk.injEq] at hpresence
    obtain ⟨huser', hid⟩ := Collection.find_eq_some.mp hfind
    obtain ⟨id, username, email, status, lastSeen⟩ := user
    obtain ⟨id', username', email', status', lastSeen'⟩ := user'
    obtain ⟨rfl, rfl⟩ := Prod.mk.inj hsame
    obtain ⟨rfl, rfl⟩ := hpresence
    obtain rfl : id' = id := hid
    exact huser'

/-- A conversation is what is seen of it. -/
theorem conversation_of_board {c : Conversation} : c ∈ s.conversations.docs ↔
    s.board.room c.id = some c.room ∧ s.board.latest c.id = some (c.lastMessage, c.updatedAt) := by
  constructor
  · intro hc
    have hfind := Collection.find_eq_some.mpr (⟨hc, rfl⟩ : c ∈ s.conversations.docs ∧ c.id = c.id)
    simp only [Server.board, hfind, Option.map_some, and_self]
  · intro h
    obtain ⟨hroom, hlatest⟩ := h
    obtain ⟨c', hfind, hsame⟩ := Option.map_eq_some_iff.mp hroom
    simp only [Server.board, hfind, Option.map_some, Option.some.injEq, Prod.mk.injEq] at hlatest
    obtain ⟨hc', hid⟩ := Collection.find_eq_some.mp hfind
    obtain ⟨id, type, name, members, lastMessage, createdAt, updatedAt⟩ := c
    obtain ⟨id', type', name', members', lastMessage', createdAt', updatedAt'⟩ := c'
    simp only [Conversation.room, Board.Room.mk.injEq, Prod.mk.injEq] at hsame
    obtain ⟨⟨rfl, rfl, rfl, rfl⟩, -⟩ := hsame
    obtain ⟨rfl, rfl⟩ := hlatest
    obtain rfl : id' = id := hid
    exact hc'

end

/-- **Outsiders touch nothing**: as long as only others call, whatever they call, a conversation and
the messages in it are stored as they were, every field of them. -/
theorem conversation_untouched (D : Deployment) (users : Users) (conversations : Conversations)
    (messages : Messages) (clock : Nat) (moves : List (Move Call)) (c : Conversation)
    (hc : c ∈ conversations.docs) (hout : ∀ call, .arrive call ∈ moves → call.user ∉ c.members) :
    let s := ((chat D).run (Config.start (Server.boot users conversations messages clock)) moves).world.state
    c ∈ s.conversations.docs ∧
      ∀ m : Message, m.conversationId = c.id → (m ∈ s.messages.docs ↔ m ∈ messages.docs) := by
  obtain ⟨calls, hsteps, harrived⟩ := board_steps D (Server.boot users conversations messages clock) [] moves
  obtain ⟨hroom, hlatest⟩ := conversation_of_board.mp
    (show c ∈ (Server.boot users conversations messages clock).conversations.docs from hc)
  have hsame := Board.sameRoom_steps hsteps hroom fun call hmem => hout call (harrived call hmem)
  refine ⟨conversation_of_board.mpr ⟨hsame.room.trans hroom, hsame.latest.trans hlatest⟩, fun m hm => ?_⟩
  have hstart : m ∈ messages.docs ↔ (Server.boot users conversations messages clock).board.post m.id =
      some m.post ∧ (Server.boot users conversations messages clock).board.mark m.id =
        some (m.status.mark, m.updatedAt) :=
    @mem_of_board (Server.boot users conversations messages clock) m
  rw [mem_of_board, hstart]
  constructor
  · intro h
    obtain ⟨hpost, hmark⟩ := h
    have hpost' := hsame.nothing hpost hm
    exact ⟨hpost', (hsame.post hpost' hm).2.symm.trans hmark⟩
  · intro h
    obtain ⟨hpost, hmark⟩ := h
    obtain ⟨hpost', hmark'⟩ := hsame.post hpost hm
    exact ⟨hpost', hmark'.trans hmark⟩

/-- Two members of one conversation talk (`capitalRun`, `Rooms/Announce.lean`), and there is another
conversation. -/
def otherConversation : Conversation :=
  ⟨.ending 11, .oneToOne, none, [.ending 3, .ending 6], some (.ending 5), 0, 0⟩

def otherMessages : Messages :=
  ⟨[⟨.ending 5, .ending 11, .ending 3, "hello".toList, .sent, 0, 0⟩], by decide⟩

def bothConversations : Conversations :=
  ⟨[⟨.ending 10, .oneToOne, none, [.ending 1, .ending 2], none, 0, 0⟩, otherConversation], by decide⟩

theorem capitalRun_callers {call : Call} (h : .arrive call ∈ capitalRun) :
    call.user = .ending 1 ∨ call.user = .ending 2 := by
  simp only [capitalRun, List.mem_cons, Move.arrive.injEq, reduceCtorEq, List.not_mem_nil, or_false,
    false_or] at h
  rcases h with rfl | rfl | rfl
  · exact .inr rfl
  · exact .inl rfl
  · exact .inl rfl

theorem conversation_untouched_capitals :
    let s := ((chat .default).run (Config.start (Server.boot .empty bothConversations otherMessages 0))
      capitalRun).world.state
    otherConversation ∈ s.conversations.docs ∧ ∀ m : Message,
      m.conversationId = otherConversation.id → (m ∈ s.messages.docs ↔ m ∈ otherMessages.docs) := by
  refine conversation_untouched .default .empty bothConversations otherMessages 0 capitalRun
    otherConversation (.tail _ (.head _)) fun call h => ?_
  rcases capitalRun_callers h with huser | huser <;> rw [huser] <;> decide

/-- **Nobody reads for another**: a message that has come to be read in a run has been marked by a
`message:read` of a member of its conversation who has not sent it. -/
theorem read_by_other (D : Deployment) (users : Users) (conversations : Conversations)
    (messages : Messages) (clock : Nat) (moves : List (Move Call)) (m : Message)
    (hm : m ∈ ((chat D).run (Config.start (Server.boot users conversations messages clock))
      moves).world.state.messages.docs) (hread : m.status = .read) :
    (∃ m' ∈ messages.docs, m'.Same m ∧ m'.status = .read) ∨
      ∃ socket args id, .arrive (.event socket .messageRead args id) ∈ moves ∧
        socket.userId ≠ m.senderId ∧ IsMember m.conversationId socket.userId
          ((chat D).run (Config.start (Server.boot users conversations messages clock)) moves).world.state := by
  obtain ⟨calls, hsteps, harrived⟩ := board_steps D (Server.boot users conversations messages clock) [] moves
  obtain ⟨hpost, hmark⟩ := mem_of_board.mp hm
  rw [hread] at hmark
  rcases Board.read_steps hsteps hpost hmark with ⟨hpost', t, hmark'⟩ | ⟨call, hmem, hdoes, hmember, hauthor⟩
  · left
    obtain ⟨m', hfind, hsame⟩ := Option.map_eq_some_iff.mp hpost'
    obtain ⟨hm', hid⟩ := Collection.find_eq_some.mp hfind
    simp only [Server.board, hfind, Option.map_some, Option.some.injEq, Prod.mk.injEq] at hmark'
    simp only [Message.post, Board.Post.mk.injEq, Prod.mk.injEq] at hsame
    obtain ⟨hroom, hauthor, htext, htime⟩ := hsame
    exact ⟨m', hm', ⟨hid.symm, hroom.symm, hauthor.symm, htext.symm, htime.symm⟩,
      mark_injective hmark'.1⟩
  · right
    have harrive := harrived call hmem
    cases call with
    | event socket name args id =>
      cases name with
      | messageRead => exact ⟨socket, args, id, harrive, hauthor.symm, board_member.mp hmember⟩
      | _ => exact hdoes.elim
    | _ => exact hdoes.elim

def heardMessage (status : MessageStatus) : Message :=
  ⟨.ending 5, .ending 10, .ending 2, "hi".toList, status, 0, 0⟩

def heardArgs : List Value :=
  [.object [("conversationId", .string (ObjectId.ending 10).toString),
    ("upToMessageId", .string (ObjectId.ending 5).toString)], .function]

/-- A message that somebody else has sent is read. -/
def receiptRun : List (Move Call) :=
  [.arrive (.connect writer), .arrive (.event writer .messageRead heardArgs (.ending 4)),
    .answer 1, .resume 1, .answer 1, .resume 1, .answer 1, .resume 1, .answer 1]

def unreadServer : Server :=
  .boot .empty (.single ⟨.ending 10, .oneToOne, none, [.ending 1, .ending 2], none, 0, 0⟩)
    (.single (heardMessage .sent)) 0

theorem receiptRun_read : ((chat .default).run (Config.start unreadServer)
    receiptRun).world.state.messages.docs = [heardMessage .read] := rfl

theorem read_by_other_reading :
    (∃ m' ∈ [heardMessage .sent], m'.Same (heardMessage .read) ∧ m'.status = .read) ∨
      ∃ socket args id, .arrive (.event socket .messageRead args id) ∈ receiptRun ∧
        socket.userId ≠ (heardMessage .read).senderId ∧
        IsMember (heardMessage .read).conversationId socket.userId
          ((chat .default).run (Config.start unreadServer) receiptRun).world.state :=
  read_by_other .default .empty _ (.single (heardMessage .sent)) 0 receiptRun (heardMessage .read)
    (receiptRun_read ▸ List.mem_singleton_self _) rfl

/-- **Nobody speaks for another's presence**: as long as only others call, a user's status and the
time at which he was last seen stay as they were. -/
theorem presence_own (D : Deployment) (users : Users) (conversations : Conversations)
    (messages : Messages) (clock : Nat) (moves : List (Move Call)) (user : User) (huser : user ∈ users.docs)
    (hothers : ∀ call, .arrive call ∈ moves → call.user ≠ user.id) :
    user ∈ ((chat D).run (Config.start (Server.boot users conversations messages clock))
      moves).world.state.users.docs := by
  obtain ⟨calls, hsteps, harrived⟩ := board_steps D (Server.boot users conversations messages clock) [] moves
  obtain ⟨hwho, hpresence⟩ := user_of_board.mp
    (show user ∈ (Server.boot users conversations messages clock).users.docs from huser)
  have hsame := Board.presence_steps hsteps fun call hmem => hothers call (harrived call hmem)
  have hgrown := Board.grown_steps hsteps
  exact user_of_board.mpr ⟨(congrFun hgrown.who user.id).trans hwho, hsame.trans hpresence⟩

def away : User := ⟨.ending 3, "cat".toList, "cat@chat.io".toList, .offline, 0⟩

theorem presence_own_capitals : away ∈ ((chat .default).run (Config.start (Server.boot (.single away)
    bothConversations otherMessages 0)) capitalRun).world.state.users.docs := by
  refine presence_own .default (.single away) bothConversations otherMessages 0 capitalRun away (.head _)
    fun call h => ?_
  rcases capitalRun_callers h with huser | huser <;> rw [huser] <;> decide

end RealtimeChat
