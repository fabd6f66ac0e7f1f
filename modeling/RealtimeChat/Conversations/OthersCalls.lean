import RealtimeChat.Conversations.LastMessage
import RealtimeChat.Conversations.View
import RealtimeChat.Handlers.Completion

/-! What the calls of others leave of what a user can see.

Every write of a call goes to the caller's own bucket and rooms, to one
conversation, or to messages of one conversation. If the user is not a member of
that conversation, the state afterwards agrees with the state before. -/
namespace RealtimeChat
open Data (Text Collection)
open Zod (Value)
open Async Async.System
open Server (Reads)

section
variable {userId : ObjectId} {s : Server}

/-! ### Writes the user does not see -/

theorem checkMessageRateLimit_unseen (D : Deployment) {other : ObjectId} (hother : other ≠ userId)
    (s : Server) : Agree userId s (checkMessageRateLimit D other s).2 := by
  have hset : ∀ b, Agree userId s {s with buckets := Function.update s.buckets other (some b)} :=
    fun b => ⟨rfl, rfl, Function.update_of_ne hother.symm _ _, fun _ _ _ => Iff.rfl, rfl, rfl,
      fun _ _ _ _ => rfl⟩
  unfold checkMessageRateLimit
  cases s.buckets other with
  | none => exact hset ⟨1, s.clock⟩
  | some bucket =>
    dsimp only
    split
    · exact hset ⟨1, s.clock⟩
    · split
      · exact .refl userId s
      · exact hset {bucket with count := bucket.count + 1}

/-- Rooms entered or left by the sockets of others. -/
theorem Agree.of_rooms {rooms : List (Text × Socket)}
    (h : ∀ room socket, socket.userId = userId → ((room, socket) ∈ rooms ↔ (room, socket) ∈ s.rooms)) :
    Agree userId s {s with rooms} :=
  ⟨rfl, rfl, rfl, h, rfl, rfl, fun _ _ _ _ => rfl⟩

theorem joinRooms_unseen {socket : Socket} (hother : socket.userId ≠ userId) (names : List Text)
    (s : Server) : Agree userId s (joinRooms socket names s) := by
  apply Agree.of_rooms
  intro room own hown
  have hne : own ≠ socket := fun he => hother (he ▸ hown)
  have hmem : (room, own) ∈ (joinRooms socket names s).rooms ↔ _ := mem_joinRooms
  exact hmem.trans (by simp only [hne, false_and, or_false])

theorem leaveRooms_unseen {socket : Socket} (hother : socket.userId ≠ userId) (names : List Text)
    (s : Server) : Agree userId s (leaveRooms socket names s) := by
  apply Agree.of_rooms
  intro room own hown
  have hne : own ≠ socket := fun he => hother (he ▸ hown)
  have hmem : (room, own) ∈ (leaveRooms socket names s).rooms ↔ _ := mem_leaveRooms
  exact hmem.trans (by simp only [hne, false_and, not_false_eq_true, and_true])

theorem setStatus_unseen (hlinked : Linked s) {p : Message → Bool} {status : MessageStatus} {now : Nat}
    (hp : ∀ m ∈ s.messages.docs, p m = true → ¬ IsMember m.conversationId userId s) :
    Agree userId s (s.setStatus p status now) := by
  have hsame : ∀ m ∈ s.messages.docs, IsMember m.conversationId userId s →
      (if p m = true then {m with status, updatedAt := now} else m) = m :=
    fun m hm hmember => if_neg fun h => hp m hm h hmember
  refine ⟨rfl, rfl, rfl, fun _ _ _ => Iff.rfl, rfl, ?_, ?_⟩
  · rw [messagesFor_setStatus]
    refine (List.map_congr_left fun m hm => ?_).trans (List.map_id _)
    obtain ⟨hstored, hsees⟩ := List.mem_filter.mp hm
    exact hsame m hstored (findOne_isSome.mp hsees)
  · intro c hc id hid
    obtain ⟨hstored, hmember⟩ := mem_conversationsFor.mp hc
    obtain ⟨m, hm, rfl, hmc⟩ := hlinked c hstored id hid
    have hfind : s.messages.find m.id = some m := Collection.find_eq_some.mpr ⟨hm, rfl⟩
    simp only [Server.setStatus, Collection.find_modify, hfind, Option.map_some]
    rw [hsame m hm ⟨c, hstored, hmc.symm, hmember⟩]

theorem createMessage_unseen {m : Message} (hfresh : Fresh m.id s)
    (hm : ¬ IsMember m.conversationId userId s) : Agree userId s (s.createMessage m).2 := by
  unfold Server.createMessage
  split
  · exact .refl userId s
  · cases hinsert : s.messages.insert m with
    | none => exact .refl userId s
    | some messages =>
      refine ⟨rfl, rfl, rfl, fun _ _ _ => Iff.rfl, rfl, ?_, ?_⟩
      · have hunseen : sees userId m.conversationId s = false :=
          Bool.eq_false_iff.mpr fun h => hm (findOne_isSome.mp h)
        rw [messagesFor_insert hinsert, List.filter_singleton, hunseen, cond_false, List.append_nil]
      · intro c hc id hid
        have hne : m.id ≠ id := by
          intro he
          exact (hfresh.conversations c (mem_conversationsFor.mp hc).1).2 (he ▸ hid)
        rw [Collection.find_insert hinsert, if_neg hne]

theorem saveConversation_unseen {id lastMessage : ObjectId} {now : Nat} (hid : ¬ IsMember id userId s) :
    Agree userId s (s.saveConversation id lastMessage now) := by
  refine ⟨rfl, rfl, rfl, fun _ _ _ => Iff.rfl, ?_, ?_, fun _ _ _ _ => rfl⟩
  · rw [conversationsFor_saveConversation]
    refine (List.map_congr_left fun c hc => ?_).trans (List.map_id _)
    apply if_neg
    intro he
    obtain ⟨hstored, hmember⟩ := mem_conversationsFor.mp hc
    exact hid ⟨c, hstored, beq_iff_eq.mp he, hmember⟩
  · exact List.filter_congr fun m _ => sees_saveConversation id lastMessage now s m.conversationId

theorem createConversation_unseen {c : Conversation} (hfresh : Fresh c.id s)
    (hc : userId ∉ c.members) : Agree userId s (s.createConversation c).2 := by
  unfold Server.createConversation
  cases hinsert : s.conversations.insert c with
  | none => exact .refl userId s
  | some conversations =>
    have hnot : c.members.contains userId = false :=
      Bool.eq_false_iff.mpr fun h => hc (List.contains_iff_mem.mp h)
    have hfor : conversationsFor userId {s with conversations} = conversationsFor userId s := by
      rw [conversationsFor_insert hinsert, List.filter_singleton, hnot, cond_false, List.append_nil]
    exact ⟨rfl, rfl, rfl, fun _ _ _ => Iff.rfl, hfor, messagesFor_insertConversation hinsert hfresh,
      fun _ _ _ _ => rfl⟩

end

/-! ### Programs the user does not see -/

section
variable (D : Deployment) (userId : ObjectId) {β γ : Type}

/-- The program leaves what the user can see as it is. -/
abbrev Unseen (p : Chat β) (s : Server) : Prop := Agree userId s ((chat D).alone p s).2

variable {D userId} {s : Server}

theorem Unseen.bind {p : Chat γ} {f : γ → Chat β} (hp : Unseen D userId p s)
    (hf : ∀ v, ((chat D).alone p s).1 = .ok v → Unseen D userId (f v) ((chat D).alone p s).2) :
    Unseen D userId (p.bind f) s :=
  bind_keeps (chat D) (R := Agree userId) (fun _ _ _ => Agree.trans) hp hf

theorem Unseen.tryCatch {p : Chat β} {f : Failure → Chat β} (hp : Unseen D userId p s)
    (hf : ∀ e s', Unseen D userId (f e) s') : Unseen D userId (p.tryCatch f) s :=
  tryCatch_keeps (chat D) (R := Agree userId) (fun _ _ _ => Agree.trans) hp fun e _ => hf e _

/-- What neither writes to the database nor touches what the user can see of the process. -/
theorem Unseen.of_within {A : Action → Prop} (hA : ∀ a s, A a → Agree userId s (Server.act D a s).2)
    {p : Chat β} (hp : p.Within A Reads) (s : Server) : Unseen D userId p s := by
  refine alone_keeps (chat D) (R := Agree userId) (Agree.refl userId) (fun _ _ _ => Agree.trans) hA (fun q s hq => ?_) hp s
  rw [show ((chat D).answer q s).2 = s from Server.answer_reads D hq s]
  exact .refl userId s

/-- The actions that change nothing. -/
def Action.Idle : Action → Prop
  | .now | .emit _ _ | .emitFrom _ _ _ | .ack _ => True
  | _ => False

theorem Unseen.of_idle {p : Chat β} (hp : p.Within Action.Idle Reads) (s : Server) :
    Unseen D userId p s := by
  apply Unseen.of_within (fun a s ha => ?_) hp
  cases a with
  | now | emit | emitFrom | ack => exact .refl userId s
  | _ => cases ha

theorem callAck_unseen (ack : Value) (r : SocketAck) (s : Server) :
    Unseen D userId (callAck ack r) s := .of_idle (callAck_within ack r trivial) s

theorem Unseen.reads {q : Query} {f : q.Answer → Chat β} (hq : Reads q)
    (hf : ∀ v, (Server.answer D q s).1 = .ok v → Unseen D userId (f v) s) :
    Unseen D userId ((query q).bind f) s := by
  have hs : (Server.answer D q s).2 = s := Server.answer_reads D hq s
  unfold Unseen
  rw [alone_query_bind]
  rcases hanswer : Server.answer D q s with ⟨e | v, s'⟩
  · rw [hanswer] at hs
    exact hs ▸ .refl userId s
  · rw [hanswer] at hs hf
    obtain rfl : s' = s := hs
    exact hf v rfl

theorem Unseen.parse {α : Type} {schema : Zod.Schema α} {v : Value} {f : α → Chat β}
    (hf : ∀ input, schema.parse v = .ok input → Unseen D userId (f input) s) :
    Unseen D userId ((parseWith schema v).bind f) s := by
  unfold parseWith
  split
  · exact hf _ (by assumption)
  · exact .refl userId s

/-- A write, and what follows it. -/
theorem Unseen.writes {q : Query} {f : q.Answer → Chat β} (hq : Agree userId s (Server.answer D q s).2)
    (hf : ∀ v, (Server.answer D q s).1 = .ok v → Unseen D userId (f v) (Server.answer D q s).2) :
    Unseen D userId ((query q).bind f) s := by
  refine Unseen.bind ?_ fun v hv => ?_
  · unfold Unseen
    rw [alone_query]
    exact hq
  · rw [alone_query] at hv ⊢
    exact hf v hv

/-! ### Services -/

theorem createMessage_service_unseen {id senderId : ObjectId} {input : SendMessageInput}
    (hfresh : Fresh id s)
    (hc : ∀ c, ObjectId.cast input.conversationId = some c → ¬ IsMember c userId s) :
    Unseen D userId (createMessage id senderId input) s := by
  unfold createMessage
  refine Unseen.reads trivial fun found hfound => ?_
  cases found with
  | none => exact .refl userId s
  | some conversation =>
    have hcast := findOne_answer_id hfound
    have hcreate : Agree userId s (Server.answer D
        (.messageCreate id input.conversationId senderId input.text s.clock) s).2 := by
      simp only [Server.answer, hcast]
      exact createMessage_unseen (m := ⟨id, _, _, _, _, _, _⟩) hfresh (hc _ hcast)
    show Unseen D userId ((query (.messageCreate id input.conversationId senderId input.text
      s.clock)).bind _) s
    apply Unseen.writes hcreate
    intro message _
    refine Unseen.writes (q := .conversationSave _ _ _) (saveConversation_unseen ?_) fun _ _ => ?_
    · rw [hcreate.isMember]
      exact hc _ hcast
    · exact Unseen.reads trivial fun _ _ => .refl userId _

theorem markMessageDelivered_unseen (hlinked : Linked s) {messageId : Text} {caller : ObjectId}
    (hm : ∀ m ∈ s.messages.docs, ObjectId.cast messageId = some m.id →
      ¬ IsMember m.conversationId userId s) :
    Unseen D userId (markMessageDelivered D messageId caller) s := by
  unfold Unseen
  cases hid : ObjectId.cast messageId with
  | none =>
    rw [markMessageDelivered_invalid D hid]
    exact .refl userId s
  | some id =>
    rw [markMessageDelivered_alone D hid]
    cases hfind : s.messages.find id with
    | none => exact .refl userId s
    | some message =>
      obtain ⟨hmem, rfl⟩ := Collection.find_eq_some.mp hfind
      dsimp only
      split
      · exact .refl userId s
      · split
        · apply setStatus_unseen hlinked
          intro m hstored hp
          exact hm m hstored (by rw [hid, beq_iff_eq.mp hp])
        · exact .refl userId s

theorem markMessagesRead_unseen (hlinked : Linked s) {conversationId upToMessageId : Text}
    {caller : ObjectId}
    (hc : ∀ c, ObjectId.cast conversationId = some c → ¬ IsMember c userId s) :
    Unseen D userId (markMessagesRead D conversationId upToMessageId caller) s := by
  unfold Unseen
  cases hid : ObjectId.cast conversationId with
  | none =>
    rw [markMessagesRead_invalid D (.inl hid)]
    exact .refl userId s
  | some id =>
    cases hupTo : ObjectId.cast upToMessageId with
    | none =>
      rw [markMessagesRead_invalid D (.inr hupTo)]
      exact .refl userId s
    | some upTo =>
      rw [markMessagesRead_alone D hid hupTo]
      split
      · exact .refl userId s
      · split
        · exact .refl userId s
        · dsimp only
          split
          · exact .refl userId s
          · apply setStatus_unseen hlinked
            -- Two messages with one id are one, so all that is marked is in the conversation.
            intro m hstored hp
            obtain ⟨m', hm', heq⟩ := List.mem_map.mp (List.contains_iff_mem.mp hp)
            obtain ⟨hstored', hmatch⟩ := List.mem_filter.mp hm'
            obtain rfl := s.messages.eq_of_key hstored' hstored heq
            simp only [Server.matchesUnread, Bool.and_eq_true, beq_iff_eq] at hmatch
            rw [hmatch.1.1.1]
            exact hc id hid

theorem createConversation_service_unseen {id caller : ObjectId} {input : CreateConversationInput}
    (hother : caller ≠ userId) (hfresh : Fresh id s)
    (hmembers : ∀ m ∈ input.members, ObjectId.cast m ≠ some userId) :
    Unseen D userId (createConversation id caller input) s := by
  have hcreate : ∀ s', Fresh id s' → Unseen D userId ((perform .now).bind fun now =>
      query (.conversationCreate id input.type input.name
        (fromSet (caller.toString :: input.members)) now)) s' := by
    intro s' hfresh'
    show Agree userId s' ((chat D).alone (query (.conversationCreate id input.type input.name
      (fromSet (caller.toString :: input.members)) s'.clock)) s').2
    rw [alone_query]
    show Agree userId s' (Server.answer D _ s').2
    simp only [Server.answer]
    cases hcast : (fromSet (caller.toString :: input.members)).mapM ObjectId.cast with
    | none => exact .refl userId s'
    | some members =>
      apply createConversation_unseen hfresh'
      intro hmem
      obtain ⟨spelling, hspelling, hdenotes⟩ := (ObjectId.mem_mapM_cast hcast).mp hmem
      rcases List.mem_cons.mp (mem_fromSet.mp hspelling) with rfl | hinput
      · rw [ObjectId.cast_toString] at hdenotes
        exact hother (Option.some.inj hdenotes)
      · exact hmembers spelling hinput hdenotes
  unfold createConversation
  split
  · refine Unseen.reads trivial fun existing _ => ?_
    cases existing with
    | some existing => exact .refl userId s
    | none => exact hcreate s hfresh
  · exact hcreate s hfresh

/-! ### Handlers -/

section
variable {socket : Socket} {payload : Value} (ack : Value)

theorem acknowledged_unseen (conversationId ack : Value) (s : Server) :
    Unseen D userId (do
      query .microtask
      logValue conversationId
      callAck ack { success := true }) s := by
  apply Unseen.of_idle
  apply ((Program.within_query _).mpr trivial).bind
  intro _
  exact (logValue_within _).bind fun _ => callAck_within _ _ trivial

theorem conversationJoin_unseen (hother : socket.userId ≠ userId) (payload : Value) (s : Server) :
    Unseen D userId (conversationJoin D socket payload ack) s := by
  refine Unseen.tryCatch (Unseen.bind ?_ fun isMember _ => ?_) fun _ => callAck_unseen ack _
  · exact .of_idle (isConversationMember_within D payload _ trivial) s
  · split
    · exact callAck_unseen ack _ _
    · refine Unseen.bind ?_ fun _ _ => acknowledged_unseen payload ack _
      exact joinRooms_unseen hother _ _

theorem conversationLeave_unseen (hother : socket.userId ≠ userId) (payload : Value) (s : Server) :
    Unseen D userId (conversationLeave socket payload ack) s := by
  refine Unseen.tryCatch (Unseen.bind ?_ fun _ _ => ?_) fun _ => callAck_unseen ack _
  · exact leaveRooms_unseen hother _ _
  · exact acknowledged_unseen payload ack _

theorem emitted_unseen (room : Text) (event : ServerEvent) (r : SocketAck) (s : Server) :
    Unseen D userId ((perform (.emit room event)).bind fun _ => callAck ack r) s :=
  .of_idle (((Program.within_perform _).mpr trivial).bind fun _ => callAck_within ack r trivial) s

theorem messageSend_unseen (hother : socket.userId ≠ userId) {id : ObjectId} (hfresh : Fresh id s)
    (hc : ∀ input, sendMessageSchema.parse payload = .ok input →
      ∀ c, ObjectId.cast input.conversationId = some c → ¬ IsMember c userId s) :
    Unseen D userId (messageSend D id socket payload ack) s := by
  have hlimited := checkMessageRateLimit_unseen D hother s
  refine Unseen.tryCatch (Unseen.bind hlimited fun allowed _ => ?_) fun error s' => ?_
  · split
    · exact callAck_unseen ack _ _
    · apply Unseen.parse
      intro input hparse
      refine Unseen.bind ?_ fun _ _ => emitted_unseen ack _ _ _ _
      apply createMessage_service_unseen (hfresh.act D (.checkMessageRateLimit socket.userId))
      intro c hcast
      exact fun h => hc input hparse c hcast ((hlimited.isMember c).mp h)
  · cases error <;> exact callAck_unseen ack _ _

theorem messageDelivered_unseen (hlinked : Linked s)
    (hm : ∀ input, messageDeliveredSchema.parse payload = .ok input → ∀ m ∈ s.messages.docs,
      ObjectId.cast input.messageId = some m.id → ¬ IsMember m.conversationId userId s) :
    Unseen D userId (messageDelivered D socket payload ack) s := by
  refine Unseen.tryCatch (Unseen.parse fun input hparse => ?_) fun error s' => ?_
  · refine Unseen.bind ?_ fun _ _ => emitted_unseen ack _ _ _ _
    exact markMessageDelivered_unseen hlinked (hm input hparse)
  · cases error <;> exact callAck_unseen ack _ _

theorem messageRead_unseen (hlinked : Linked s)
    (hc : ∀ input, messageReadSchema.parse payload = .ok input →
      ∀ c, ObjectId.cast input.conversationId = some c → ¬ IsMember c userId s) :
    Unseen D userId (messageRead D socket payload ack) s := by
  refine Unseen.tryCatch (Unseen.parse fun input hparse => ?_) fun error s' => ?_
  · refine Unseen.bind ?_ fun result _ => ?_
    · exact markMessagesRead_unseen hlinked (hc input hparse)
    · split
      · exact callAck_unseen ack _ _
      · exact emitted_unseen ack _ _ _ _
  · cases error <;> exact callAck_unseen ack _ _

end

theorem createConversationHandler_unseen {id caller : ObjectId} {body : Value}
    (hother : caller ≠ userId) (hfresh : Fresh id s)
    (hmembers : ∀ input, createConversationSchema.parse body = .ok input →
      ∀ m ∈ input.members, ObjectId.cast m ≠ some userId) :
    Unseen D userId (createConversationHandler id caller body) s := by
  unfold createConversationHandler
  split
  · exact .refl userId s
  · rename_i input hparse
    refine Unseen.bind ?_ fun _ _ => .refl userId _
    exact createConversation_service_unseen hother hfresh (hmembers input hparse)

end

end RealtimeChat
