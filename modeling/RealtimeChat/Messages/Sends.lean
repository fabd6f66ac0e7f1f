import RealtimeChat.Conversations.Membership
import RealtimeChat.Handlers.Lawful

/-! What the sends of a run leave behind.

A message that a task has stored stays, with its text and its time (`Booked`). The
clock readings of a run are in order (`Timed`), and what a task has been told of
memberships and senders still holds (`Informed`). Each is an invariant of the world
that is checked for one entry of the log at a time. -/
namespace RealtimeChat
open Data (Text trim Collection)
open Zod (Value)
open Async Async.System
open Server (answer_messages answer_conversations)

/-- The same message, at two points of its life. -/
structure Message.Same (m m' : Message) : Prop where
  id : m'.id = m.id
  conversationId : m'.conversationId = m.conversationId
  senderId : m'.senderId = m.senderId
  text : m'.text = m.text
  createdAt : m'.createdAt = m.createdAt

theorem Message.Same.refl (m : Message) : m.Same m := ⟨rfl, rfl, rfl, rfl, rfl⟩

theorem Message.Same.trans {a b c : Message} (h : a.Same b) (h' : b.Same c) : a.Same c :=
  ⟨h'.id.trans h.id, h'.conversationId.trans h.conversationId, h'.senderId.trans h.senderId,
    h'.text.trans h.text, h'.createdAt.trans h.createdAt⟩

/-- The message is stored, whatever has become of its status. -/
def Kept (m : Message) (s : Server) : Prop := ∃ m' ∈ s.messages.docs, m.Same m'

/-- The task has stored the message, its insert having been issued at `t`. -/
def Inserted (pid : Nat) (m : Message) (t : Nat) (log : Log) : Prop :=
  ∃ id spelling senderId text, .answered pid (.messageCreate id spelling senderId text t) (.ok m) ∈ log

section
variable {D : Deployment} {s : Server}

theorem same_setStatus (m : Message) (p : Message → Bool) (status : MessageStatus) (now : Nat) :
    m.Same (if p m then {m with status, updatedAt := now} else m) := by
  split <;> exact ⟨rfl, rfl, rfl, rfl, rfl⟩

theorem Kept.setStatus {m : Message} (h : Kept m s) (p : Message → Bool) (status : MessageStatus)
    (now : Nat) : Kept m (s.setStatus p status now) := by
  obtain ⟨m', hm', hsame⟩ := h
  exact ⟨_, List.mem_map_of_mem hm', hsame.trans (same_setStatus m' p status now)⟩

/-- No query changes what a message says, or loses it. -/
theorem Kept.answer {m : Message} (h : Kept m s) (q : Query) : Kept m (Server.answer D q s).2 := by
  cases answer_messages D q s with
  | same hsame =>
    rw [Kept, hsame]
    exact h
  | created _ _ hinsert =>
    obtain ⟨m', hm', hsame⟩ := h
    refine ⟨m', ?_, hsame⟩
    rw [(Collection.insert_eq_some hinsert).1]
    exact List.mem_append_left _ hm'
  | saved hset =>
    rw [Kept, hset]
    exact h.setStatus _ _ _
  | updated hset =>
    rw [Kept, hset]
    exact h.setStatus _ _ _

/-- There is one message to an id. -/
theorem Kept.common {m m' : Message} (h : Kept m s) (h' : Kept m' s) (hid : m.id = m'.id) :
    ∃ d, m.Same d ∧ m'.Same d := by
  obtain ⟨d, hd, hsame⟩ := h
  obtain ⟨d', hd', hsame'⟩ := h'
  have heq : d = d' := s.messages.eq_of_key hd hd' (by rw [hsame.id, hsame'.id, hid])
  exact ⟨d, hsame, heq ▸ hsame'⟩

/-- A message was there before, or has just been created and returned. -/
theorem stored_origin {q : Query} {m : Message} (hm : m ∈ (Server.answer D q s).2.messages.docs) :
    (∃ m' ∈ s.messages.docs, m'.Same m) ∨ ∃ id spelling senderId text t,
      (⟨q, (Server.answer D q s).1⟩ : (q : Query) × Except Failure q.Answer) =
        ⟨.messageCreate id spelling senderId text t, .ok m⟩ := by
  have hset : ∀ {p status now}, m ∈ (s.setStatus p status now).messages.docs →
      ∃ m' ∈ s.messages.docs, m'.Same m := by
    intro p status now h
    obtain ⟨m', hm', rfl⟩ := List.mem_map.mp h
    exact ⟨m', hm', same_setStatus m' _ _ _⟩
  cases answer_messages D q s with
  | same h => exact .inl ⟨m, h ▸ hm, .refl m⟩
  | created _ hanswer h =>
    rw [(Collection.insert_eq_some h).1, List.mem_append, List.mem_singleton] at hm
    rcases hm with hm | rfl
    · exact .inl ⟨m, hm, .refl m⟩
    · exact .inr ⟨_, _, _, _, _, by rw [hanswer]⟩
  | saved h => exact .inl (hset (h ▸ hm))
  | updated h => exact .inl (hset (h ▸ hm))

end

/-! ### The messages of a run -/

/-- The stored messages are those of the start and those that tasks have stored since. -/
structure Booked (start : Messages) (w : World chatInterface Server Failure Call) : Prop where
  made : ∀ pid id spelling senderId text t m,
    .answered pid (.messageCreate id spelling senderId text t) (.ok m) ∈ w.log →
      ObjectId.cast spelling = some m.conversationId ∧
        m = ⟨id, m.conversationId, senderId, trim text, .sent, t, t⟩
  old : ∀ m ∈ start.docs, Kept m w.state
  inserted : ∀ pid m t, Inserted pid m t w.log → Kept m w.state
  origin : ∀ m ∈ w.state.messages.docs, (∃ m' ∈ start.docs, m'.Same m) ∨
    ∃ pid m' t, Inserted pid m' t w.log ∧ m'.Same m

section
variable {D : Deployment} {start : Messages} {w w' : World chatInterface Server Failure Call}

theorem Inserted.cons {pid : Nat} {m : Message} {t : Nat} {log : Log}
    {e : Event chatInterface Failure Call} (h : Inserted pid m t log) : Inserted pid m t (e :: log) := by
  obtain ⟨id, spelling, senderId, text, hmem⟩ := h
  exact ⟨id, spelling, senderId, text, .tail _ hmem⟩

/-- An entry that stores no message. -/
theorem Inserted.of_cons {pid : Nat} {m : Message} {t : Nat} {log : Log}
    {e : Event chatInterface Failure Call} (h : Inserted pid m t (e :: log))
    (he : ∀ pid id spelling senderId text t m,
      e ≠ .answered pid (.messageCreate id spelling senderId text t) (.ok m)) :
    Inserted pid m t log := by
  obtain ⟨id, spelling, senderId, text, hmem⟩ := h
  exact ⟨id, spelling, senderId, text, (List.mem_cons.mp hmem).resolve_left fun h => he _ _ _ _ _ _ _ h.symm⟩

theorem Booked.same (h : Booked start w) {e : Event chatInterface Failure Call}
    (he : ∀ pid id spelling senderId text t m,
      e ≠ .answered pid (.messageCreate id spelling senderId text t) (.ok m))
    (hlog : w'.log = e :: w.log) (hmessages : w'.state.messages = w.state.messages) :
    Booked start w' := by
  refine ⟨fun pid id spelling senderId text t m hmem => ?_, fun m hm => ?_, fun pid m t hins => ?_,
    fun m hm => ?_⟩
  · rw [hlog] at hmem
    exact h.made _ _ _ _ _ _ _ ((List.mem_cons.mp hmem).resolve_left fun h => he _ _ _ _ _ _ _ h.symm)
  · rw [Kept, hmessages]
    exact h.old m hm
  · rw [Kept, hmessages]
    exact h.inserted pid m t ((hlog ▸ hins).of_cons he)
  · rcases h.origin m (hmessages ▸ hm) with hold | ⟨pid, m', t, hins, hsame⟩
    · exact .inl hold
    · exact .inr ⟨pid, m', t, hlog ▸ hins.cons, hsame⟩

theorem booked_preserved (D : Deployment) (start : Messages) :
    (chat D).Preserves Call.law (Booked start) where
  acts h _ _ := h.same (by simp) rfl (Server.act_messages D _ _)
  rejects h _ _ := by
    refine h.same ?_ rfl rfl
    intro pid id spelling senderId text t m heq
    injection heq with _ hq hanswer
    subst hq
    cases eq_of_heq hanswer
  arrives h _ ha := h.same (by simp) rfl (accept_sameBehind ha).messages
  passes h := ⟨h.made, h.old, h.inserted, h.origin⟩
  answers := by
    intro pid call q w h _ _
    refine ⟨fun pid' id spelling senderId text t m hmem => ?_, fun m hm => (h.old m hm).answer q,
      fun pid' m t hins => ?_, fun m hm => ?_⟩
    · rcases List.mem_cons.mp hmem with heq | hmem
      · injection heq with _ hq hanswer
        subst hq
        obtain ⟨hcast, hfields, -⟩ := Server.messageCreate_answer (D := D) (eq_of_heq hanswer).symm
        exact ⟨hcast, hfields⟩
      · exact h.made _ _ _ _ _ _ _ hmem
    · obtain ⟨id, spelling, senderId, text, hmem⟩ := hins
      rcases List.mem_cons.mp hmem with heq | hmem
      · injection heq with _ hq hanswer
        subst hq
        obtain ⟨_, _, hinsert⟩ := Server.messageCreate_answer (eq_of_heq hanswer).symm
        refine ⟨m, ?_, .refl m⟩
        show m ∈ (Server.answer D _ w.state).2.messages.docs
        rw [(Collection.insert_eq_some hinsert).1]
        exact List.mem_append_right _ (List.mem_singleton_self m)
      · exact (h.inserted pid' m t ⟨id, spelling, senderId, text, hmem⟩).answer q
    · rcases stored_origin hm with ⟨m', hm', hsame⟩ | ⟨id, spelling, senderId, text, t, heq⟩
      · rcases h.origin m' hm' with ⟨m₀, hm₀, hsame₀⟩ | ⟨pid', m₀, t, hins, hsame₀⟩
        · exact .inl ⟨m₀, hm₀, hsame₀.trans hsame⟩
        · exact .inr ⟨pid', m₀, t, hins.cons, hsame₀.trans hsame⟩
      · obtain ⟨rfl, hanswer⟩ := Sigma.mk.inj heq
        refine .inr ⟨pid, m, t, ⟨id, spelling, senderId, text, ?_⟩, .refl m⟩
        rw [← eq_of_heq hanswer]
        exact .head _

/-- **What is stored**, in every run: what was there, and what tasks have stored. -/
theorem booked_run (D : Deployment) (s : Server) (moves : List (Move Call)) :
    Booked s.messages ((chat D).run (Config.start s) moves).world := by
  refine preserved_run (booked_preserved D s.messages)
    ⟨by simp, fun m hm => ⟨m, hm, .refl m⟩, ?_, ?_⟩ moves
  · intro pid m t h
    obtain ⟨_, _, _, _, h⟩ := h
    cases h
  · exact fun m hm => .inl ⟨m, hm, .refl m⟩

/-! ### What tasks have been told -/

theorem populate_answer (D : Deployment) (q : Query) (s : Server) (id : ObjectId) :
    (Server.answer D q s).2.populate id = s.populate id := by
  by_cases hq : ∃ u status lastSeen, q = .userUpdate u status lastSeen
  · obtain ⟨u, status, lastSeen, rfl⟩ := hq
    simp only [Server.answer, Server.updateUser, Server.populate, Collection.find_modify,
      Option.map_map]
    congr 1
    funext u'
    simp only [Function.comp]
    split <;> rfl
  · rw [Server.populate, Server.answer_users D fun u status lastSeen h => hq ⟨u, status, lastSeen, h⟩,
      Server.populate]

theorem findOne_found {D : Deployment} {s : Server} {v : Value} {userId : ObjectId}
    {conversation : Conversation}
    (h : (Server.answer D (.conversationFindOne v userId) s).1 = .ok (some conversation)) :
    D.cast v = some conversation.id ∧ IsMember conversation.id userId s := by
  simp only [Server.answer, Server.casting] at h
  split at h
  · rename_i id hcast
    obtain ⟨hfind, hmember⟩ := Option.filter_eq_some_iff.mp (Except.ok.inj h)
    obtain ⟨hmem, hid⟩ := Collection.find_eq_some.mp hfind
    exact ⟨hid ▸ hcast, conversation, hmem, rfl, by simpa using hmember⟩
  · cases h

/-- What tasks have been answered about memberships and senders still holds. -/
structure Informed (D : Deployment) (w : World chatInterface Server Failure Call) : Prop where
  members : ∀ pid v u c, .answered pid (.conversationFindOne v u) (.ok (some c)) ∈ w.log →
    D.cast v = some c.id ∧ IsMember c.id u w.state
  senders : ∀ pid u sender, .answered pid (.messagePopulate u) (.ok sender) ∈ w.log →
    sender = w.state.populate u

theorem Informed.same {D : Deployment} (h : Informed D w) {e : Event chatInterface Failure Call}
    (he : ¬ e.Succeeded) (hlog : w'.log = e :: w.log)
    (husers : w'.state.users = w.state.users)
    (hconversations : w'.state.conversations = w.state.conversations) : Informed D w' := by
  refine ⟨fun pid v u c hmem => ?_, fun pid u sender hmem => ?_⟩
  · rw [hlog] at hmem
    have hold := Event.mem_of_succeeded hmem trivial he
    obtain ⟨hcast, hmember⟩ := h.members pid v u c hold
    exact ⟨hcast, MembersStay.of_conversations hconversations _ _ hmember⟩
  · rw [hlog] at hmem
    have hold := Event.mem_of_succeeded hmem trivial he
    rw [Server.populate, husers]
    exact h.senders pid u sender hold

theorem informed_preserved (D : Deployment) : (chat D).Preserves Call.law (Informed D) where
  acts h _ _ := h.same id rfl (Server.act_sameStore D _ _).users
    (Server.act_conversations D _ _)
  rejects h _ _ := h.same id rfl rfl rfl
  arrives h _ ha := h.same id rfl (accept_sameBehind ha).users
    (accept_sameBehind ha).conversations
  passes h := ⟨h.members, h.senders⟩
  answers := by
    intro pid call q w h _ _
    have hstay : MembersStay w.state (Server.answer D q w.state).2 := .answer q w.state
    refine ⟨fun pid' v u c hmem => ?_, fun pid' u sender hmem => ?_⟩
    · rcases List.mem_cons.mp hmem with heq | hmem
      · injection heq with _ hq hanswer
        subst hq
        obtain ⟨hcast, hmember⟩ := findOne_found (D := D) (eq_of_heq hanswer).symm
        exact ⟨hcast, hstay _ _ hmember⟩
      · obtain ⟨hcast, hmember⟩ := h.members pid' v u c hmem
        exact ⟨hcast, hstay _ _ hmember⟩
    · show sender = (Server.answer D q w.state).2.populate u
      rw [populate_answer]
      rcases List.mem_cons.mp hmem with heq | hmem
      · injection heq with _ hq hanswer
        subst hq
        exact Except.ok.inj (eq_of_heq hanswer)
      · exact h.senders pid' u sender hmem

/-! ### What lies behind an announcement -/

section
variable {c : Config chatInterface Server Failure Call Response} {pid : Nat} {later earlier : Log}

theorem Behaved.announced (h : Behaved c) {room : Text} {payload : SocketMessagePayload}
    {receivers : List Socket}
    (hlog : c.world.log = later ++ .acted pid (.emit room (.messageNew payload)) receivers :: earlier) :
    ∃ socket args id task input conversation t m t' sender,
      c.tasks[pid]? = some ⟨.event socket .messageSend args id, task⟩ ∧
      sendMessageSchema.parse (args.getD 0 .undefined) = .ok input ∧
      room = input.conversationId ∧ payload = toSocketPayload ⟨m, sender⟩ ∧
      deeds pid earlier = Sending.populated socket.userId input id conversation t m t' sender := by
  obtain ⟨socket, args, id, task, hentry, hlaw⟩ := h.sent hlog rfl trivial
  obtain ⟨input, conversation, t, m, t', sender, hparse, hroom, hevent, hdeeds⟩ := hlaw
  exact ⟨socket, args, id, task, input, conversation, t, m, t', sender, hentry, hparse, hroom,
    ServerEvent.messageNew.inj hevent, hdeeds⟩

/-- Its message has been stored, and its sender looked up. -/
theorem announced_inserted {log : Log} {e : Event chatInterface Failure Call}
    (hlog : log = later ++ e :: earlier) {userId id : ObjectId} {input : SendMessageInput}
    {conversation : Conversation} {t t' : Nat} {m : Message} {sender : Option Sender}
    (h : deeds pid earlier = Sending.populated userId input id conversation t m t' sender) :
    .answered pid (.messageCreate id input.conversationId userId input.text t) (.ok m) ∈ log ∧
      .answered pid (.messagePopulate m.senderId) (.ok sender) ∈ log := by
  have hmem : ∀ {q : Query} {r : Except Failure q.Answer}, .answered q r ∈
      Sending.populated userId input id conversation t m t' sender → .answered pid q r ∈ log := by
    intro q r hd
    rw [hlog]
    rw [← h, mem_deeds_answered] at hd
    exact List.mem_append_right _ (.tail _ hd)
  exact ⟨hmem (.tail _ (.tail _ (.tail _ (.head _)))), hmem (.head _)⟩

end

/-! ### The clock -/

/-- A clock reading is no earlier than any before it. -/
def Later : Event chatInterface Failure Call → Log → Prop
  | .acted _ .now t, earlier => ∀ pid t', .acted pid .now t' ∈ earlier → t' ≤ t
  | _, _ => True

structure Timed (start : Nat) (w : World chatInterface Server Failure Call) : Prop where
  running : start ≤ w.state.clock
  read : ∀ pid t, .acted pid .now t ∈ w.log → start ≤ t ∧ t ≤ w.state.clock
  each : Each Later w.log

theorem Timed.le {n : Nat} (h : Timed n w) {above below : Log} (hlog : w.log = above ++ below)
    {pid pid' : Nat} {t t' : Nat} (ht : .acted pid .now t ∈ above)
    (ht' : .acted pid' .now t' ∈ below) : t' ≤ t := by
  obtain ⟨front, back, rfl⟩ := List.append_of_mem ht
  rw [List.append_assoc, List.cons_append] at hlog
  have hlater : Later (.acted pid .now t) (back ++ below) := (Each.at (hlog ▸ h.each)).1
  exact hlater pid' t' (List.mem_append_right _ ht')

theorem Timed.same {n : Nat} (h : Timed n w) {e : Event chatInterface Failure Call}
    (he : ∀ pid t, e ≠ .acted pid .now t) (hlog : w'.log = e :: w.log)
    (hclock : w'.state.clock = w.state.clock) : Timed n w' := by
  refine ⟨hclock ▸ h.running, fun pid t hmem => ?_, ?_⟩
  · rw [hlog] at hmem
    rw [hclock]
    exact h.read pid t ((List.mem_cons.mp hmem).resolve_left fun h => he pid t h.symm)
  · rw [hlog]
    refine ⟨?_, h.each⟩
    cases e with
    | acted pid a r =>
      cases a with
      | now => exact absurd rfl (he pid r)
      | _ => trivial
    | _ => trivial

theorem timed_preserved (D : Deployment) (n : Nat) : (chat D).Preserves Call.law (Timed n) where
  acts := by
    intro pid call a w h _ _
    by_cases ha : a = .now
    · subst ha
      refine ⟨h.running, fun pid' t hmem => ?_, fun pid' t hmem => (h.read pid' t hmem).2, h.each⟩
      rcases List.mem_cons.mp hmem with heq | hmem
      · cases heq
        exact ⟨h.running, Nat.le_refl _⟩
      · exact h.read pid' t hmem
    · refine h.same ?_ rfl (Server.act_sameStore D a w.state).clock
      intro pid' t heq
      injection heq with _ h'
      exact ha h'
  answers h _ _ := h.same (by simp) rfl (Server.answer_sameProcess D _ _).clock
  rejects h _ _ := h.same (by simp) rfl rfl
  arrives h _ ha := h.same (by simp) rfl (accept_sameBehind ha).clock
  passes h := ⟨Nat.le_add_right_of_le h.running,
    fun pid t hmem => ⟨(h.read pid t hmem).1, Nat.le_add_right_of_le (h.read pid t hmem).2⟩, h.each⟩

/-- **The clock of a run** never runs back. -/
theorem timed_run (D : Deployment) (s : Server) (moves : List (Move Call)) :
    Timed s.clock ((chat D).run (Config.start s) moves).world :=
  preserved_run (timed_preserved D s.clock) ⟨Nat.le_refl _, by simp, trivial⟩ moves

end

end RealtimeChat
