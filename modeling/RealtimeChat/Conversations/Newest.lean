import RealtimeChat.Conversations.LastMessage
import RealtimeChat.Messages.Order

/-! Whether a conversation's last message is its newest.

`createMessage` points the conversation to its message some time after it has stored
it, whatever the pointer says by then. Once no send is in flight every message has had
its turn, and the pointer is that of the turn that came last (`newest_iff`). -/
namespace RealtimeChat
open Data (Text Collection)
open Zod (Value)
open Async Async.System
open Server (answer_conversations)

/-- Every conversation that has messages points to one of the greatest `createdAt`. -/
def Newest (s : Server) : Prop :=
  ∀ c ∈ s.conversations.docs, (∃ m ∈ s.messages.docs, m.conversationId = c.id) →
    ∃ last ∈ s.messages.docs, c.lastMessage = some last.id ∧ last.conversationId = c.id ∧
      ∀ m ∈ s.messages.docs, m.conversationId = c.id → m.createdAt ≤ last.createdAt

/-- A database to start from: messages are in conversations that exist, and of the past. -/
structure WellPointed (s : Server) : Prop where
  newest : Newest s
  placed : ∀ m ∈ s.messages.docs, ∃ c ∈ s.conversations.docs, c.id = m.conversationId
  past : ∀ m ∈ s.messages.docs, m.createdAt ≤ s.clock

def Call.sends : Call → Bool
  | .event _ .messageSend _ _ => true
  | _ => false

/-- No send is in flight. -/
def SendsDone (c : Config chatInterface Server Failure Call Response) : Prop :=
  ∀ entry ∈ c.tasks, entry.call.sends = true → entry.task.isDone = true

instance (c : Config chatInterface Server Failure Call Response) : Decidable (SendsDone c) :=
  inferInstanceAs (Decidable (∀ entry ∈ c.tasks, _ → _))

def saveFailed : Event chatInterface Failure Call → Bool
  | .answered _ (.conversationSave _ _ _) (.error _) => true
  | _ => false

/-- No conversation has failed to be pointed to a message. -/
def SavesSucceed (log : Log) : Prop := ∀ e ∈ log, saveFailed e = false

instance (log : Log) : Decidable (SavesSucceed log) :=
  inferInstanceAs (Decidable (∀ e ∈ log, _))

/-- Which tasks have pointed the conversation to which messages, latest first. -/
def pointers (conversationId : ObjectId) : Log → List (Nat × ObjectId)
  | [] => []
  | .answered pid (.conversationSave id lastMessage _) (.ok ()) :: earlier =>
    if id = conversationId then (pid, lastMessage) :: pointers conversationId earlier
    else pointers conversationId earlier
  | _ :: earlier => pointers conversationId earlier

/-- The last task to point a conversation to its message has not been overtaken: no task
that did so before had issued its insert in a later millisecond. -/
def PointedInTurn (log : Log) : Prop :=
  ∀ conversationId last rest, pointers conversationId log = last :: rest →
    ∀ before ∈ rest, ∀ t t', IssuedAt last.1 conversationId t log →
      IssuedAt before.1 conversationId t' log → t' ≤ t

/-! ### What the conversations point to -/

theorem pointers_cons {e : Event chatInterface Failure Call}
    (he : ∀ pid id lastMessage t, e ≠ .answered pid (.conversationSave id lastMessage t) (.ok ()))
    (conversationId : ObjectId) (log : Log) :
    pointers conversationId (e :: log) = pointers conversationId log := by
  cases e with
  | answered pid q r =>
    cases q with
    | conversationSave id lastMessage t =>
      cases r with
      | ok u => exact absurd rfl (he pid id lastMessage t)
      | error e => rfl
    | _ => rfl
  | _ => rfl

theorem mem_pointers {conversationId : ObjectId} {log : Log} {p : Nat × ObjectId} :
    p ∈ pointers conversationId log ↔
      ∃ t, .answered p.1 (.conversationSave conversationId p.2 t) (.ok ()) ∈ log := by
  fun_induction pointers conversationId log with
  | case1 => simp
  | case2 pid lastMessage t earlier ih =>
    rw [List.mem_cons, ih]
    constructor
    · intro h
      rcases h with rfl | ⟨t', h⟩
      · exact ⟨t, .head _⟩
      · exact ⟨t', .tail _ h⟩
    · intro h
      obtain ⟨t', h⟩ := h
      rcases List.mem_cons.mp h with heq | h
      · cases heq
        exact .inl rfl
      · exact .inr ⟨t', h⟩
  | case3 pid id lastMessage t earlier hid ih =>
    rw [ih]
    refine exists_congr fun t' => ?_
    rw [List.mem_cons, or_iff_right]
    intro heq
    cases heq
    exact hid rfl
  | case4 e earlier he ih =>
    rw [ih]
    refine exists_congr fun t' => ?_
    rw [List.mem_cons, or_iff_right]
    exact fun heq => he _ _ _ _ heq.symm

/-- A conversation points to what it was pointed to last, or still to what it did at the
start. -/
structure Pointing (D : Deployment) (start : Conversations)
    (w : World chatInterface Server Failure Call) : Prop where
  informed : Informed D w
  stays : ∀ c₀ ∈ start.docs, ∃ c ∈ w.state.conversations.docs, c.id = c₀.id
  stored : ∀ id, pointers id w.log ≠ [] → ∃ c ∈ w.state.conversations.docs, c.id = id
  pointed : ∀ c ∈ w.state.conversations.docs, ∀ p rest, pointers c.id w.log = p :: rest →
    c.lastMessage = some p.2
  unpointed : ∀ c ∈ w.state.conversations.docs, pointers c.id w.log = [] → ∀ c₀ ∈ start.docs,
    c₀.id = c.id → c.lastMessage = c₀.lastMessage

section
variable {D : Deployment} {start : Conversations} {w w' : World chatInterface Server Failure Call}

/-- An entry that points no conversation to anything. -/
theorem Pointing.same (h : Pointing D start w) (hinformed : Informed D w')
    (hlog : ∀ id, pointers id w'.log = pointers id w.log)
    (hconversations : w'.state.conversations = w.state.conversations) : Pointing D start w' := by
  refine ⟨hinformed, ?_, ?_, ?_, ?_⟩
  · rw [hconversations]
    exact h.stays
  · intro id hne
    rw [hconversations]
    exact h.stored id (hlog id ▸ hne)
  · intro c hc p rest hp
    exact h.pointed c (hconversations ▸ hc) p rest (hlog c.id ▸ hp)
  · intro c hc hp
    exact h.unpointed c (hconversations ▸ hc) (hlog c.id ▸ hp)

/-- A new conversation, and none is pointed to anything. -/
theorem Pointing.insert (h : Pointing D start w) (hinformed : Informed D w')
    (hlog : ∀ id, pointers id w'.log = pointers id w.log) {new : Conversation}
    (hinsert : w.state.conversations.insert new = some w'.state.conversations) :
    Pointing D start w' := by
  obtain ⟨hdocs, hfresh⟩ := Collection.insert_eq_some hinsert
  have hold : ∀ c ∈ w.state.conversations.docs, c ∈ w'.state.conversations.docs := by
    intro c hc
    rw [hdocs]
    exact List.mem_append_left _ hc
  have hcases : ∀ c ∈ w'.state.conversations.docs, c ∈ w.state.conversations.docs ∨ c = new := by
    intro c hc
    rw [hdocs, List.mem_append, List.mem_singleton] at hc
    exact hc
  refine ⟨hinformed, fun c₀ hc₀ => ?_, fun id hne => ?_, fun c hc p rest hp => ?_,
    fun c hc hp c₀ hc₀ hid => ?_⟩
  · obtain ⟨c, hc, hid⟩ := h.stays c₀ hc₀
    exact ⟨c, hold c hc, hid⟩
  · obtain ⟨c, hc, hid⟩ := h.stored id (hlog id ▸ hne)
    exact ⟨c, hold c hc, hid⟩
  · rw [hlog] at hp
    rcases hcases c hc with hc | rfl
    · exact h.pointed c hc p rest hp
    · obtain ⟨c', hc', hid⟩ := h.stored c.id (by simp [hp])
      exact absurd hid (hfresh c' hc')
  · rw [hlog] at hp
    rcases hcases c hc with hc | rfl
    · exact h.unpointed c hc hp c₀ hc₀ hid
    · obtain ⟨c', hc', hid'⟩ := h.stays c₀ hc₀
      exact absurd (hid'.trans hid) (hfresh c' hc')

/-- One conversation is pointed to a message. -/
theorem Pointing.save (h : Pointing D start w) (hinformed : Informed D w') {pid : Nat}
    {k lastMessage : ObjectId} {t : Nat}
    (hlog : w'.log = .answered pid (.conversationSave k lastMessage t) (.ok ()) :: w.log)
    (hstored : ∃ c ∈ w.state.conversations.docs, c.id = k)
    (hconversations : w'.state.conversations = (w.state.saveConversation k lastMessage t).conversations) :
    Pointing D start w' := by
  have hpointers : ∀ id, pointers id w'.log =
      if k = id then (pid, lastMessage) :: pointers id w.log else pointers id w.log := by
    intro id
    rw [hlog, pointers]
  have hmem : ∀ c, c ∈ w'.state.conversations.docs ↔ ∃ c' ∈ w.state.conversations.docs,
      (if c'.id == k then {c' with lastMessage := some lastMessage, updatedAt := t} else c') = c := by
    intro c
    rw [hconversations]
    exact Server.mem_saveConversation
  have hkeep : ∀ c' ∈ w.state.conversations.docs, ∃ c ∈ w'.state.conversations.docs, c.id = c'.id := by
    intro c' hc'
    refine ⟨_, (hmem _).mpr ⟨c', hc', rfl⟩, ?_⟩
    split <;> rfl
  refine ⟨hinformed, fun c₀ hc₀ => ?_, fun id hne => ?_, fun c hc p rest hp => ?_,
    fun c hc hp c₀ hc₀ hid => ?_⟩
  · obtain ⟨c', hc', hid⟩ := h.stays c₀ hc₀
    obtain ⟨c, hc, hid'⟩ := hkeep c' hc'
    exact ⟨c, hc, hid'.trans hid⟩
  · have hold : ∃ c' ∈ w.state.conversations.docs, c'.id = id := by
      rw [hpointers] at hne
      split at hne
      · rename_i hk
        exact hk ▸ hstored
      · exact h.stored id hne
    obtain ⟨c', hc', hid⟩ := hold
    obtain ⟨c, hc, hid'⟩ := hkeep c' hc'
    exact ⟨c, hc, hid'.trans hid⟩
  · rw [hpointers] at hp
    obtain ⟨c', hc', rfl⟩ := (hmem c).mp hc
    by_cases hk : c'.id = k
    · subst hk
      simp only [beq_self_eq_true, if_true] at hp ⊢
      rw [← (List.cons.inj hp).1]
    · have hne : (c'.id == k) = false := by simpa using hk
      rw [hne, if_neg Bool.false_ne_true] at hp ⊢
      rw [if_neg (Ne.symm hk)] at hp
      exact h.pointed c' hc' p rest hp
  · rw [hpointers] at hp
    obtain ⟨c', hc', rfl⟩ := (hmem c).mp hc
    by_cases hk : c'.id = k
    · subst hk
      simp at hp
    · have hne : (c'.id == k) = false := by simpa using hk
      rw [hne, if_neg Bool.false_ne_true] at hp hid ⊢
      rw [if_neg (Ne.symm hk)] at hp
      exact h.unpointed c' hc' hp c₀ hc₀ hid

theorem pointing_preserved (D : Deployment) (start : Conversations) :
    (chat D).Preserves Call.law (Pointing D start) where
  acts := by
    intro pid call a w h harrived hlaw
    exact h.same ((informed_preserved D).acts h.informed harrived hlaw)
      (fun id => pointers_cons (by simp) id _) (Server.act_conversations D _ _)
  rejects := by
    intro pid call q w h harrived hlaw
    refine h.same ((informed_preserved D).rejects h.informed harrived hlaw) ?_ rfl
    refine fun id => pointers_cons (fun pid' k lastMessage t heq => ?_) id _
    injection heq with _ hq hanswer
    subst hq
    cases eq_of_heq hanswer
  arrives := by
    intro pid call s w h hfresh ha
    exact h.same ((informed_preserved D).arrives h.informed hfresh ha)
      (fun id => pointers_cons (by simp) id _) (accept_sameBehind ha).conversations
  passes h := h.same ((informed_preserved D).passes h.informed) (fun _ => rfl) rfl
  answers := by
    intro pid call q w h harrived hlaw
    have hinformed := (informed_preserved D).answers h.informed harrived hlaw
    by_cases hq : ∃ k lastMessage t, q = .conversationSave k lastMessage t
    · obtain ⟨k, lastMessage, t, rfl⟩ := hq
      refine h.save hinformed rfl ?_ rfl
      -- The conversation that is saved is one that the task has found.
      obtain ⟨socket, args, id, rfl, hsent⟩ := Call.law_ofSend hlaw trivial
      obtain ⟨input, c, t₀, m, -, rfl, -, hdeeds⟩ := hsent
      have hfound : .answered (.conversationFindOne (.string input.conversationId) socket.userId)
          (.ok (some c)) ∈ deeds pid w.log := by
        rw [hdeeds]
        exact .tail _ (.tail _ (.tail _ (.head _)))
      obtain ⟨-, c', hc', hid, -⟩ := h.informed.members _ _ _ _ (mem_deeds_answered.mp hfound)
      exact ⟨c', hc', hid⟩
    · have hlog : ∀ id, pointers id ((chat D).respond pid q w).log = pointers id w.log := by
        refine fun id => pointers_cons (fun pid' k lastMessage t heq => ?_) id _
        injection heq with _ hq'
        exact hq ⟨k, lastMessage, t, hq'⟩
      cases answer_conversations D q w.state with
      | same hsame => exact h.same hinformed hlog hsame
      | created hcast hanswer hinsert => exact h.insert hinformed hlog hinsert
      | saved hsaved => exact absurd ⟨_, _, _, rfl⟩ hq

/-- **What conversations point to**, in every run. -/
theorem pointing_run (D : Deployment) (s : Server) (moves : List (Move Call)) :
    Pointing D s.conversations ((chat D).run (Config.start s) moves).world := by
  refine preserved_run (pointing_preserved D s.conversations) ⟨⟨?_, ?_⟩, ?_, ?_, ?_, ?_⟩ moves
  · intro pid v u c hmem
    cases hmem
  · intro pid u sender hmem
    cases hmem
  · exact fun c hc => ⟨c, hc, rfl⟩
  · exact fun id hne => absurd rfl hne
  · intro c hc p rest hp
    cases hp
  · intro c hc _ c₀ hc₀ hid
    rw [s.conversations.eq_of_key hc hc₀ hid.symm]

end

/-! ### Whose messages they are -/

section
variable {D : Deployment} {start : Messages} {c : Config chatInterface Server Failure Call Response}
  {pid : Nat}

/-- The message that a task points its conversation to is the one that it has stored. -/
theorem Behaved.saved (h : Behaved c) (hb : Booked start c.world) (hi : Informed D c.world)
    {id lastMessage : ObjectId} {t' : Nat} {r : Except Failure Unit}
    (hmem : .answered pid (.conversationSave id lastMessage t') r ∈ c.world.log) :
    ∃ m t, Inserted pid m t c.world.log ∧ m.id = lastMessage ∧ m.conversationId = id ∧
      IssuedAt pid id t c.world.log := by
  obtain ⟨later, earlier, hlog⟩ := List.append_of_mem hmem
  obtain ⟨socket, args, k, task, -, hlaw⟩ := h.sent hlog rfl trivial
  obtain ⟨input, conversation, t, m, -, rfl, rfl, hdeeds⟩ := hlaw
  obtain ⟨new, hnew⟩ : ∃ new, deeds pid c.world.log =
      new ++ Sending.created socket.userId input k conversation t m := by
    refine ⟨deeds pid later ++ [.answered (.conversationSave conversation.id m.id t') r, .acted .now t'], ?_⟩
    rw [hlog, deeds_append, deeds_answered, List.append_assoc]
    exact congrArg _ (congrArg _ hdeeds)
  have hinserted : .answered pid (.messageCreate k input.conversationId socket.userId input.text t)
      (.ok m) ∈ c.world.log := by
    rw [← mem_deeds_answered, hnew]
    exact List.mem_append_right _ (.head _)
  have hfound : .answered pid (.conversationFindOne (.string input.conversationId) socket.userId)
      (.ok (some conversation)) ∈ c.world.log := by
    rw [← mem_deeds_answered, hnew]
    exact List.mem_append_right _ (.tail _ (.tail _ (.head _)))
  obtain ⟨hcast, -⟩ := hb.made _ _ _ _ _ _ _ hinserted
  obtain ⟨hcast', -⟩ := hi.members _ _ _ _ hfound
  have hid : m.conversationId = conversation.id := Option.some.inj (hcast.symm.trans hcast')
  refine ⟨m, t, ⟨_, _, _, _, hinserted⟩, rfl, hid, input.conversationId, socket.userId, conversation,
    new ++ [.answered (.messageCreate k input.conversationId socket.userId input.text t) (.ok m)],
    Sending.admitted socket.userId, hcast', ?_⟩
  rw [hnew, List.append_assoc]
  rfl

/-- A message that a task has stored is that of a send, issued at its time. -/
theorem Behaved.inserted (h : Behaved c) (hb : Booked start c.world) {m : Message} {t : Nat}
    (hm : Inserted pid m t c.world.log) :
    (∃ socket args id task, c.tasks[pid]? = some ⟨.event socket .messageSend args id, task⟩) ∧
      m.createdAt = t ∧ IssuedAt pid m.conversationId t c.world.log := by
  obtain ⟨k, spelling, senderId, text, hmem⟩ := hm
  obtain ⟨hcast, hfields⟩ := hb.made _ _ _ _ _ _ _ hmem
  obtain ⟨later, earlier, hlog⟩ := List.append_of_mem hmem
  obtain ⟨socket, args, id, task, hentry, hlaw⟩ := h.sent hlog rfl trivial
  obtain ⟨input, conversation, -, -, rfl, -, -, hdeeds⟩ := hlaw
  refine ⟨⟨socket, args, id, task, hentry⟩, by rw [hfields], input.conversationId, socket.userId,
    conversation, deeds pid later ++ [.answered (.messageCreate k input.conversationId senderId text t) (.ok m)],
    Sending.admitted socket.userId, hcast, ?_⟩
  rw [hlog, deeds_append, deeds_answered, List.append_assoc]
  exact congrArg _ (congrArg _ hdeeds)

/-- A task has pointed the conversation to its message, once it is done. -/
theorem Behaved.inserted_pointed (h : Behaved c) (hb : Booked start c.world) (hi : Informed D c.world)
    (hdone : SendsDone c) (hsaved : SavesSucceed c.world.log) {m : Message} {t : Nat}
    (hm : Inserted pid m t c.world.log) : (pid, m.id) ∈ pointers m.conversationId c.world.log := by
  obtain ⟨⟨socket, args, id, task, hentry⟩, -, hissued⟩ := h.inserted hb hm
  obtain ⟨_, hended⟩ := h.ended hentry (hdone _ (List.mem_of_getElem? hentry) rfl)
  obtain ⟨k, spelling, senderId, text, hmem⟩ := hm
  obtain ⟨conversationId, t', r, hsave⟩ := hended k spelling senderId text t m (mem_deeds_answered.mpr hmem)
  rw [mem_deeds_answered] at hsave
  obtain ⟨m', t₁, -, -, -, hissued'⟩ := h.saved hb hi hsave
  obtain ⟨rfl, -⟩ := h.issued_once hentry hissued hissued'
  rcases r with e | _
  · cases hsaved _ hsave
  · exact mem_pointers.mpr ⟨t', hsave⟩

/-- A pointer is to a stored message, and its task has issued one insert there, that one's. -/
theorem Behaved.pointer (h : Behaved c) (hb : Booked start c.world) (hi : Informed D c.world)
    {p : Nat × ObjectId} {id : ObjectId} (hp : p ∈ pointers id c.world.log) :
    ∃ m ∈ c.world.state.messages.docs, m.id = p.2 ∧ m.conversationId = id ∧
      IssuedAt p.1 id m.createdAt c.world.log ∧
      ∀ t, IssuedAt p.1 id t c.world.log → t = m.createdAt := by
  obtain ⟨t', hmem⟩ := mem_pointers.mp hp
  obtain ⟨m₀, t, hinserted, hid, hconversation, hissued⟩ := h.saved hb hi hmem
  obtain ⟨⟨_, _, _, _, hentry⟩, rfl, -⟩ := h.inserted hb hinserted
  obtain ⟨m, hm, hsame⟩ := hb.inserted _ _ _ hinserted
  rw [← hsame.createdAt] at hissued
  exact ⟨m, hm, hsame.id.trans hid, hsame.conversationId.trans hconversation, hissued,
    fun t ht => (h.issued_once hentry ht hissued).2⟩

end

/-- The conversation points to a message in it that none there is newer than. -/
def NewestIn (c : Conversation) (s : Server) : Prop :=
  ∃ last ∈ s.messages.docs, c.lastMessage = some last.id ∧ last.conversationId = c.id ∧
    ∀ m ∈ s.messages.docs, m.conversationId = c.id → m.createdAt ≤ last.createdAt

section
variable {D : Deployment} {s : Server} {c : Config chatInterface Server Failure Call Response}
  (hbehaved : Behaved c) (hbooked : Booked s.messages c.world)
  (hpointing : Pointing D s.conversations c.world) (hdone : SendsDone c)
  (hsaved : SavesSucceed c.world.log) {conversation : Conversation}
  (hconversation : conversation ∈ c.world.state.conversations.docs)
include hbehaved hbooked hpointing hdone hsaved hconversation

/-- Where no task has stored a message, all is as it was. -/
theorem newest_of_unpointed (hstart : WellPointed s)
    (hpointers : pointers conversation.id c.world.log = [])
    (hexists : ∃ m ∈ c.world.state.messages.docs, m.conversationId = conversation.id) :
    NewestIn conversation c.world.state := by
  have hold : ∀ m ∈ c.world.state.messages.docs, m.conversationId = conversation.id →
      ∃ m₀ ∈ s.messages.docs, m₀.Same m := by
    intro m hm hmc
    rcases hbooked.origin m hm with hold | ⟨pid, m', t, hinserted, hsame⟩
    · exact hold
    · have hp := hbehaved.inserted_pointed hbooked hpointing.informed hdone hsaved hinserted
      rw [← hsame.conversationId, hmc, hpointers] at hp
      cases hp
  obtain ⟨m₁, hm₁, hc₁⟩ := hexists
  obtain ⟨m₀, hm₀, hsame₀⟩ := hold m₁ hm₁ hc₁
  obtain ⟨c₀, hc₀, hid₀⟩ := hstart.placed m₀ hm₀
  have hid : c₀.id = conversation.id := by
    rw [hid₀, ← hsame₀.conversationId, hc₁]
  obtain ⟨last₀, hlast₀, hpointer, hplace, hle⟩ := hstart.newest c₀ hc₀ ⟨m₀, hm₀, hid₀.symm⟩
  obtain ⟨last, hlast, hsame⟩ := hbooked.old last₀ hlast₀
  refine ⟨last, hlast, ?_, ?_, fun m hm hmc => ?_⟩
  · rw [hpointing.unpointed conversation hconversation hpointers c₀ hc₀ hid, hpointer, hsame.id]
  · rw [hsame.conversationId, hplace, hid]
  · obtain ⟨m', hm', hsame'⟩ := hold m hm hmc
    rw [hsame'.createdAt, hsame.createdAt]
    apply hle m' hm'
    rw [hid, ← hmc, hsame'.conversationId]

/-- The message of the last pointer is as new as those of the start and of the other tasks. -/
theorem newest_of_pointed (htimed : Timed s.clock c.world) (hstart : WellPointed s)
    {last : Nat × ObjectId} {rest : List (Nat × ObjectId)}
    (hpointers : pointers conversation.id c.world.log = last :: rest)
    (hturn : ∀ before ∈ rest, ∀ t t', IssuedAt last.1 conversation.id t c.world.log →
      IssuedAt before.1 conversation.id t' c.world.log → t' ≤ t) :
    NewestIn conversation c.world.state := by
  obtain ⟨m, hm, hmid, hmc, hissued, -⟩ :=
    hbehaved.pointer hbooked hpointing.informed (hpointers ▸ List.mem_cons_self)
  refine ⟨m, hm, ?_, hmc, fun m' hm' hmc' => ?_⟩
  · rw [hpointing.pointed conversation hconversation last rest hpointers, hmid]
  · rcases hbooked.origin m' hm' with ⟨m₀, hm₀, hsame⟩ | ⟨pid, m₀, t, hinserted, hsame⟩
    · rw [hsame.createdAt]
      exact (hstart.past m₀ hm₀).trans (htimed.read _ _ hissued.mem).1
    · obtain ⟨⟨_, _, _, _, hentry⟩, rfl, hissued'⟩ := hbehaved.inserted hbooked hinserted
      have hp := hbehaved.inserted_pointed hbooked hpointing.informed hdone hsaved hinserted
      have hplace : m₀.conversationId = conversation.id := by
        rw [← hmc', hsame.conversationId]
      rw [hplace] at hp hissued'
      rw [hsame.createdAt]
      rw [hpointers] at hp
      rcases List.mem_cons.mp hp with heq | hp
      · rw [← heq] at hissued
        exact (hbehaved.issued_once hentry hissued' hissued).2.le
      · exact hturn _ hp _ _ hissued hissued'

end

/-- **The last message is the newest** once no send is in flight, if none has failed to
point its conversation to its message, exactly when the pointers have been written in the
order in which the inserts were issued, or at least the last of them was. -/
theorem newest_iff (D : Deployment) (s : Server) (hstart : WellPointed s) (moves : List (Move Call))
    (hdone : SendsDone ((chat D).run (Config.start s) moves))
    (hsaved : SavesSucceed ((chat D).run (Config.start s) moves).world.log) :
    Newest ((chat D).run (Config.start s) moves).world.state ↔
      PointedInTurn ((chat D).run (Config.start s) moves).world.log := by
  have hbehaved := behaved_run D s moves
  have hbooked := booked_run D s moves
  have htimed := timed_run D s moves
  have hpointing := pointing_run D s moves
  generalize (chat D).run (Config.start s) moves = c at *
  constructor
  · intro h id last rest hlast before hbefore t t' hi hi'
    obtain ⟨m, hm, hmid, hmc, -, htime⟩ :=
      hbehaved.pointer hbooked hpointing.informed (hlast ▸ List.mem_cons_self)
    obtain ⟨m', hm', -, hmc', -, htime'⟩ :=
      hbehaved.pointer hbooked hpointing.informed (hlast ▸ List.mem_cons_of_mem last hbefore)
    obtain ⟨conversation, hconversation, rfl⟩ := hpointing.stored id (by simp [hlast])
    obtain ⟨newest, hnewest, hpointer, -, hle⟩ := h conversation hconversation ⟨m, hm, hmc⟩
    have hid := (hpointing.pointed conversation hconversation last rest hlast).symm.trans hpointer
    rw [c.world.state.messages.eq_of_key hnewest hm
      ((Option.some.inj hid).symm.trans hmid.symm)] at hle
    rw [htime t hi, htime' t' hi']
    exact hle m' hm' hmc'
  · intro h conversation hconversation hexists
    cases hpointers : pointers conversation.id c.world.log with
    | nil =>
      exact newest_of_unpointed hbehaved hbooked hpointing hdone hsaved hconversation hstart hpointers hexists
    | cons last rest =>
      exact newest_of_pointed hbehaved hbooked hpointing hdone hsaved hconversation htimed hstart hpointers
        (h conversation.id last rest hpointers)

theorem orderServer_wellPointed : WellPointed orderServer := by
  refine ⟨fun c _ h => ?_, nofun, nofun⟩
  obtain ⟨m, hm, -⟩ := h
  cases hm

theorem newest_iff_overtaking :
    Newest overtakingRun.world.state ↔ PointedInTurn overtakingRun.world.log :=
  newest_iff .default orderServer orderServer_wellPointed overtakingMoves (by decide +kernel)
    (by decide +kernel)

/-- Bob's message is the newer one, and Ann's the one that is pointed to. -/
theorem overtaking_outdates : WellPointed orderServer ∧ SendsDone overtakingRun ∧
    SavesSucceed overtakingRun.world.log ∧ ¬ Newest overtakingRun.world.state := by
  refine ⟨orderServer_wellPointed, by decide +kernel, by decide +kernel, fun h => ?_⟩
  obtain ⟨c, hc, hid, hpointer⟩ : ∃ c ∈ overtakingRun.world.state.conversations.docs,
      c.id = .ending 10 ∧ c.lastMessage = some (.ending 4) :=
    ⟨_, List.mem_of_getElem? (i := 0) rfl, rfl, rfl⟩
  obtain ⟨m, hm, hmc, hmid, htime⟩ : ∃ m ∈ overtakingRun.world.state.messages.docs,
      m.conversationId = .ending 10 ∧ m.id = .ending 5 ∧ m.createdAt = 1 :=
    ⟨_, List.mem_of_getElem? (i := 0) rfl, rfl, rfl, rfl⟩
  obtain ⟨m', hm', hmid', htime'⟩ : ∃ m ∈ overtakingRun.world.state.messages.docs,
      m.id = .ending 4 ∧ m.createdAt = 0 := ⟨_, List.mem_of_getElem? (i := 1) rfl, rfl, rfl⟩
  obtain ⟨last, hlast, hlastId, -, hle⟩ := h c hc ⟨m, hm, hmc.trans hid.symm⟩
  have heq : last.id = m'.id := (Option.some.inj (hpointer.symm.trans hlastId)).symm.trans hmid'.symm
  have hle := hle m hm (hmc.trans hid.symm)
  rw [overtakingRun.world.state.messages.eq_of_key hlast hm' heq, htime, htime'] at hle
  exact absurd hle (by decide)

end RealtimeChat
