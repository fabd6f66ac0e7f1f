import RealtimeChat.Conversations.Membership

/-! The last message of a conversation.

`createMessage` stores a message and then points its conversation to it. A message
stays where it was posted, so in every run the last message of a conversation is one
of its own (`linked_run`). -/
namespace RealtimeChat
open Data (Text Collection)
open Zod (Value)
open Async Async.System
open Server (answer_messages answer_conversations)

/-- The message is stored, in that conversation. -/
def Posted (id conversationId : ObjectId) (s : Server) : Prop :=
  ∃ m ∈ s.messages.docs, m.id = id ∧ m.conversationId = conversationId

/-- Every conversation's last message is one of its own. -/
def Linked (s : Server) : Prop :=
  ∀ c ∈ s.conversations.docs, ∀ id, c.lastMessage = some id → Posted id c.id s

section
variable {D : Deployment} {s : Server}

theorem Posted.answer {id conversationId : ObjectId} (h : Posted id conversationId s) (q : Query) :
    Posted id conversationId (Server.answer D q s).2 := by
  obtain ⟨m, hm, hid, hc⟩ := h
  have hset : ∀ p status now, Posted id conversationId (s.setStatus p status now) := by
    intro p status now
    refine ⟨_, List.mem_map_of_mem hm, ?_⟩
    split <;> exact ⟨hid, hc⟩
  cases answer_messages D q s with
  | same h => exact ⟨m, h ▸ hm, hid, hc⟩
  | created hcast hanswer h =>
    refine ⟨m, ?_, hid, hc⟩
    rw [(Collection.insert_eq_some h).1]
    exact List.mem_append_left _ hm
  | saved h =>
    unfold Posted
    rw [h]
    exact hset _ _ _
  | updated h =>
    unfold Posted
    rw [h]
    exact hset _ _ _

/-- Links stay right unless a conversation is pointed to a message that is not its own. -/
theorem Linked.answer (h : Linked s) {q : Query}
    (hsave : ∀ id lastMessage now, q = .conversationSave id lastMessage now →
      Posted lastMessage id s) : Linked (Server.answer D q s).2 := by
  intro c hc id hid
  apply Posted.answer
  cases answer_conversations D q s with
  | same hsame => exact h c (hsame ▸ hc) id hid
  | created hcast hanswer hinsert =>
    rw [(Collection.insert_eq_some hinsert).1, List.mem_append, List.mem_singleton] at hc
    rcases hc with hc | rfl
    · exact h c hc id hid
    · cases hid
  | @saved k lastMessage now _ hsaved =>
    rw [hsaved] at hc
    obtain ⟨c', hc', rfl⟩ := Server.mem_saveConversation.mp hc
    split at hid
    · rename_i hk
      obtain rfl := Option.some.inj hid
      rw [if_pos hk]
      exact (beq_iff_eq.mp hk) ▸ hsave k lastMessage now rfl
    · rename_i hk
      rw [if_neg hk]
      exact h c' hc' id hid

/-! ### In every run -/

def links : Discipline chatInterface Server Failure Call where
  inv w := Linked w.state
  rel w w' := ∀ id conversationId, Posted id conversationId w.state → Posted id conversationId w'.state
  assume _ := True
  refl _ _ _ h := h
  trans h h' id c hp := h' id c (h id c hp)
  earlier _ := trivial

variable {pid : Nat} {w : World chatInterface Server Failure Call}

/-- A step that leaves the stored conversations and messages alone. -/
theorem links_keeps_same {w' : World chatInterface Server Failure Call} (hi : Linked w.state)
    (hc : w'.state.conversations = w.state.conversations)
    (hm : w'.state.messages = w.state.messages) : links.Keeps w w' := by
  have hposted : ∀ id c, Posted id c w.state → Posted id c w'.state := by
    intro id c hp
    rw [Posted, hm]
    exact hp
  refine ⟨hposted, fun c hmem id hid => ?_⟩
  exact hposted _ _ (hi c (hc ▸ hmem) id hid)

theorem links_keeps_act (hi : Linked w.state) (a : Action) :
    links.Keeps w ((chat D).perform pid a w) :=
  links_keeps_same hi (Server.act_conversations D a _) (Server.act_messages D a _)

theorem links_keeps_reject (hi : Linked w.state) (q : Query) :
    links.Keeps w ((chat D).reject pid q w) := links_keeps_same hi rfl rfl

theorem links_keeps_respond (hi : Linked w.state) {q : Query}
    (hsave : ∀ id lastMessage now, q = .conversationSave id lastMessage now →
      Posted lastMessage id w.state) : links.Keeps w ((chat D).respond pid q w) :=
  ⟨fun _ _ h => h.answer q, hi.answer hsave⟩

theorem links_steady_of_within {β : Type} {p : Chat β} {A : Action → Prop}
    (hp : p.Within A fun q : Query => ∀ id lastMessage now, q ≠ .conversationSave id lastMessage now) :
    (chat D).Steady links p := by
  refine Steady.of_within (fun pid a w _ hi => ?_) (fun pid q w hq hi => ?_)
    (fun pid q w hi => ?_) hp
  · exact links_keeps_act hi a
  · exact links_keeps_respond hi fun id lastMessage now h => absurd h (hq id lastMessage now)
  · exact links_keeps_reject hi q

theorem findOne_answer_id {spelling : Text} {userId : ObjectId} {c : Conversation}
    (h : (Server.answer D (.conversationFindOne (.string spelling) userId) s).1 = .ok (some c)) :
    ObjectId.cast spelling = some c.id := by
  simp only [Server.answer, Deployment.cast, Server.casting] at h
  split at h
  · rename_i id hcast
    have hfind := Option.filter_eq_some_iff.mp (Except.ok.inj h)
    rw [hcast, (Collection.find_eq_some.mp hfind.1).2]
  · cases h

theorem messageCreate_posted {id senderId conversationId : ObjectId} {spelling text : Text}
    {now : Nat} {m : Message}
    (h : (Server.answer D (.messageCreate id spelling senderId text now) s).1 = .ok m)
    (hcast : ObjectId.cast spelling = some conversationId) :
    Posted m.id conversationId (Server.answer D (.messageCreate id spelling senderId text now) s).2 := by
  obtain ⟨hcast', -, hinsert⟩ := Server.messageCreate_answer h
  refine ⟨m, ?_, rfl, Option.some.inj (hcast'.symm.trans hcast)⟩
  rw [(Collection.insert_eq_some hinsert).1]
  exact List.mem_append_right _ (List.mem_singleton_self _)

theorem createMessage_steady (id senderId : ObjectId) (input : SendMessageInput) :
    (chat D).Steady links (createMessage id senderId input) := by
  intro pid b w hk
  unfold createMessage
  refine (safe_bind _ _ _ _ _).mpr (Safe.of_query hk ?_ ?_ ?_ fun e _ _ _ h => .refl h.keeps.inv)
  · exact fun w₁ hw₁ _ => links_keeps_respond hw₁.inv (by simp)
  · exact fun w₁ hw₁ _ => links_keeps_reject hw₁.inv _
  intro found w₁ w₂ hw₁ hfound _ hw₂
  cases found with
  | none => exact .refl hw₂.inv
  | some conversation =>
    have hcast := findOne_answer_id hfound
    have hnow : links.Keeps w₂ ((chat D).perform pid .now w₂) := links_keeps_act hw₂.inv _
    refine (safe_bind _ _ _ _ _).mpr ((safe_bind _ _ _ _ _).mpr ?_)
    refine Safe.of_query hnow ?_ ?_ ?_ fun e _ _ _ h => .refl h.keeps.inv
    · exact fun w₃ hw₃ _ => links_keeps_respond hw₃.inv (by simp)
    · exact fun w₃ hw₃ _ => links_keeps_reject hw₃.inv _
    intro message w₃ w₄ hw₃ hmessage hstep hw₄
    -- Stored, in the conversation that was found: and so it stays.
    have hposted : Posted message.id conversation.id w₄.state := by
      apply hw₄.rel
      exact messageCreate_posted hmessage hcast
    have hnow' : links.Keeps w₄ ((chat D).perform pid .now w₄) := links_keeps_act hw₄.inv _
    refine (safe_bind _ _ _ _ _).mpr ((safe_bind _ _ _ _ _).mpr ?_)
    refine Safe.of_query hnow' ?_ ?_ ?_ fun e _ _ _ h => .refl h.keeps.inv
    · intro w₅ hw₅ _
      apply links_keeps_respond hw₅.inv
      intro id lastMessage now hq
      obtain ⟨rfl, rfl, -⟩ := Query.conversationSave.inj hq
      exact hw₅.rel _ _ (hnow'.rel _ _ hposted)
    · exact fun w₅ hw₅ _ => links_keeps_reject hw₅.inv _
    intro _ _ w₆ _ _ _ hw₆
    have hrest : (chat D).Steady links ((query (.messagePopulate message.senderId)).bind
        fun sender => (.ret ⟨message, sender⟩ : Chat PopulatedMessage)) :=
      links_steady_of_within (A := fun _ => True)
        (((Program.within_query _).mpr (by simp)).bind fun _ => trivial)
    exact hrest pid w₆ w₆ (.refl hw₆.inv)

variable (D)

theorem body_links (call : Call) : (chat D).Steady links (Call.body D call) := by
  have hwithin : (∀ id lastMessage now, ¬ call.Asks (.conversationSave id lastMessage now)) →
      (chat D).Steady links (Call.body D call) := fun h =>
    links_steady_of_within ((body_within D call).mono (fun _ h => h)
      fun q hq id lastMessage now he => h id lastMessage now (he ▸ hq))
  cases call with
  | event socket name args id =>
    cases name with
    | messageSend =>
      refine Steady.bind (Steady.tryCatch ?_ fun error => ?_) fun _ => .ret _
      · refine Steady.bind ?_ fun allowed => ?_
        · exact links_steady_of_within (A := fun _ => True) ((Program.within_perform _).mpr trivial)
        · split
          · exact links_steady_of_within (callAck_within (A := fun _ => True) _ _ trivial)
          · refine Steady.bind ?_ fun input => Steady.bind (createMessage_steady _ _ _) fun _ => ?_
            · exact links_steady_of_within (parseWith_within (A := fun _ => True) _ _)
            · refine links_steady_of_within (A := fun _ => True) ?_
              exact ((Program.within_perform _).mpr trivial).bind fun _ => callAck_within _ _ trivial
      · cases error <;>
          exact links_steady_of_within (callAck_within (A := fun _ => True) _ _ trivial)
    | _ => exact hwithin fun _ _ _ h => h
  | _ => exact hwithin fun _ _ _ h => h

theorem chat_upholds_links : (chat D).Upholds links fun _ _ _ _ => True := by
  refine Upholds.of_steady (fun pid call w s hi ha => ?_) (body_links D) fun n w hi => ?_
  · have hsame := accept_sameBehind ha
    exact links_keeps_same hi hsame.conversations hsame.messages
  · exact links_keeps_same hi rfl rfl

/-- In every run, a conversation's last message is one of its own. -/
theorem linked_run {s : Server} (h : Linked s) (moves : List (Move Call)) :
    Linked ((chat D).run (Config.start s) moves).world.state := by
  have hstart : (chat D).Sound links (fun _ _ _ _ => True) (Config.start s) := .start h
  exact (hstart.run (chat_upholds_links D) moves trivial).2.inv

end

end RealtimeChat
