import RealtimeChat.Conversations.Membership

/-! Who receives what.

Rooms are named by texts that clients choose, and a socket that has joined a room
receives whatever is emitted to that name. That no broadcast reaches an outsider
rests on two things: a socket is only ever put into a room whose name denotes a
conversation of its user (`Private`), and every emit goes to a room whose name
denotes the conversation the event is about (`Addressed`). -/
namespace RealtimeChat
open Data (Text)
open Zod (Value)
open Async Async.System

/-- The user of the socket may learn of the event. -/
def Entitled (D : Deployment) (socket : Socket) (s : Server) : ServerEvent → Prop
  | .messageNew payload => IsMember payload.conversationId socket.userId s
  | .messageDelivered _ conversationId _ => MemberBy D (.string conversationId) socket.userId s
  | .messageRead conversationId _ _ => MemberBy D (.string conversationId) socket.userId s
  | .typing _ conversationId _ _ => MemberBy D (.string conversationId) socket.userId s
  | .userOnline payload => ∃ id, IsMember id socket.userId s ∧ IsMember id payload.userId s
  | .userOffline payload => ∃ id, IsMember id socket.userId s ∧ IsMember id payload.userId s

/-- The socket has received the event. -/
def Delivered (log : Log) (socket : Socket)
    (event : ServerEvent) : Prop :=
  ∃ pid room receivers, socket ∈ receivers ∧ (.acted pid (.emit room event) receivers ∈ log ∨
    ∃ sender, .acted pid (.emitFrom sender room event) receivers ∈ log)

/-- Besides the room of its own id, a socket is in rooms of its user's conversations only. -/
def Private (D : Deployment) (s : Server) : Prop :=
  ∀ entry ∈ s.rooms, entry.1 = entry.2.id.text ∨ MemberBy D (.string entry.1) entry.2.userId s

/-- The room belongs to what the event is about. -/
def Addressed (room : Text) (s : Server) : ServerEvent → Prop
  | .messageNew payload => ObjectId.cast room = some payload.conversationId
  | .messageDelivered _ conversationId _ => conversationId = room ∧ ObjectId.isValid room = true
  | .messageRead conversationId _ _ => conversationId = room ∧ ObjectId.isValid room = true
  | .typing _ conversationId _ _ => conversationId = room ∧ ObjectId.isValid room = true
  | .userOnline payload => ∃ id, room = ObjectId.toString id ∧ IsMember id payload.userId s
  | .userOffline payload => ∃ id, room = ObjectId.toString id ∧ IsMember id payload.userId s

/-- What a handler has to know when it joins a room or emits to one. -/
def Permitted (D : Deployment) (s : Server) : Action → Prop
  | .join socket rooms => ∀ room ∈ rooms, MemberBy D (.string room) socket.userId s
  | .emit room event => Addressed room s event
  | .emitFrom _ room event => Addressed room s event
  | _ => True

section
variable {D : Deployment}

theorem Entitled.stays {socket : Socket} {s s' : Server} (hs : MembersStay s s')
    {event : ServerEvent} (h : Entitled D socket s event) : Entitled D socket s' event := by
  have hshared : ∀ {a b}, (∃ id, IsMember id a s ∧ IsMember id b s) →
      ∃ id, IsMember id a s' ∧ IsMember id b s' := fun ⟨id, ha, hb⟩ => ⟨id, hs _ _ ha, hs _ _ hb⟩
  cases event with
  | messageNew payload => exact hs _ _ h
  | messageDelivered messageId conversationId deliveredBy => exact MemberBy.stays h hs
  | messageRead conversationId messageIds readBy => exact MemberBy.stays h hs
  | typing signal conversationId userId username => exact MemberBy.stays h hs
  | userOnline payload => exact hshared h
  | userOffline payload => exact hshared h

theorem Addressed.stays {room : Text} {s s' : Server} (hs : MembersStay s s')
    {event : ServerEvent} (h : Addressed room s event) : Addressed room s' event := by
  cases event with
  | userOnline payload =>
    obtain ⟨id, hroom, hm⟩ := h
    exact ⟨id, hroom, hs _ _ hm⟩
  | userOffline payload =>
    obtain ⟨id, hroom, hm⟩ := h
    exact ⟨id, hroom, hs _ _ hm⟩
  | _ => exact h

/-- The room of an event is not the room of a socket's own id. -/
theorem Addressed.isValid {room : Text} {s : Server} {event : ServerEvent}
    (h : Addressed room s event) : ObjectId.isValid room = true := by
  cases event with
  | messageNew payload => exact ObjectId.isValid_of_cast h
  | messageDelivered messageId conversationId deliveredBy => exact h.2
  | messageRead conversationId messageIds readBy => exact h.2
  | typing signal conversationId userId username => exact h.2
  | userOnline payload =>
    obtain ⟨id, rfl, _⟩ := h
    exact id.isValid_toString
  | userOffline payload =>
    obtain ⟨id, rfl, _⟩ := h
    exact id.isValid_toString

/-- In private rooms, whoever receives an event that is addressed to its room is entitled
to it. -/
theorem Addressed.entitled {room : Text} {s : Server} {event : ServerEvent} {socket : Socket}
    (h : Addressed room s event) (hs : Private D s) (hin : (room, socket) ∈ s.rooms) :
    Entitled D socket s event := by
  have hmember : MemberBy D (.string room) socket.userId s := by
    refine (hs _ hin).resolve_left fun hown : room = socket.id.text => ?_
    have hvalid := h.isValid
    rw [hown, SocketId.isValid_text] at hvalid
    cases hvalid
  obtain ⟨id, hcast, hm⟩ := hmember
  have hcast : ObjectId.cast room = some id := hcast
  have hshared : ∀ {userId}, (∃ id, room = ObjectId.toString id ∧ IsMember id userId s) →
      ∃ id, IsMember id socket.userId s ∧ IsMember id userId s := by
    intro userId h'
    obtain ⟨id', rfl, hm'⟩ := h'
    rw [ObjectId.cast_toString] at hcast
    exact ⟨id, hm, Option.some.inj hcast ▸ hm'⟩
  cases event with
  | messageNew payload =>
    have hcast' : ObjectId.cast room = some payload.conversationId := h
    rw [hcast] at hcast'
    cases hcast'
    exact hm
  | messageDelivered messageId conversationId deliveredBy =>
    obtain ⟨rfl, _⟩ := h
    exact ⟨id, hcast, hm⟩
  | messageRead conversationId messageIds readBy =>
    obtain ⟨rfl, _⟩ := h
    exact ⟨id, hcast, hm⟩
  | typing signal conversationId userId username =>
    obtain ⟨rfl, _⟩ := h
    exact ⟨id, hcast, hm⟩
  | userOnline payload => exact hshared h
  | userOffline payload => exact hshared h

theorem Private.stays {s s' : Server} (h : Private D s) (hs : MembersStay s s')
    (hrooms : s'.rooms = s.rooms) : Private D s' := by
  intro entry hentry
  rw [hrooms] at hentry
  exact (h entry hentry).imp_right fun hm => hm.stays hs

end

/-! ### What every step keeps -/

/-- Rooms are private, and nothing has reached a socket that was not entitled to it. -/
def confidential (D : Deployment) : Discipline chatInterface Server Failure Call where
  inv w := Private D w.state ∧
    ∀ socket event, Delivered w.log socket event → Entitled D socket w.state event
  rel w w' := MembersStay w.state w'.state
  assume _ := True
  refl w := .refl w.state
  trans h h' := h.trans h'
  earlier := id

section
variable {D : Deployment} {pid : Nat} {w w' : World chatInterface Server Failure Call}

/-- A step that sends nothing. -/
theorem confidential_keeps {e : Event chatInterface Failure Call} (hi : (confidential D).inv w)
    (hs : MembersStay w.state w'.state) (hp : Private D w'.state) (hlog : w'.log = e :: w.log)
    (he : ∀ socket event, Delivered [e] socket event → Entitled D socket w'.state event) :
    (confidential D).Keeps w w' := by
  refine ⟨hs, hp, fun socket event h => ?_⟩
  obtain ⟨pid, room, receivers, hmem, hsent⟩ := h
  rw [hlog] at hsent
  by_cases hnew : Delivered [e] socket event
  · exact he socket event hnew
  · refine Entitled.stays hs (hi.2 socket event ⟨pid, room, receivers, hmem, ?_⟩)
    refine hsent.imp (fun h => ?_) fun ⟨sender, h⟩ => ⟨sender, ?_⟩
    · refine (List.mem_cons.mp h).resolve_left fun hh => hnew ?_
      exact ⟨pid, room, receivers, hmem, .inl (hh ▸ List.mem_singleton_self _)⟩
    · refine (List.mem_cons.mp h).resolve_left fun hh => hnew ?_
      exact ⟨pid, room, receivers, hmem, .inr ⟨sender, hh ▸ List.mem_singleton_self _⟩⟩

theorem Private.act {a : Action} {s : Server} (h : Private D s) (hg : Permitted D s a) :
    Private D (Server.act D a s).2 := by
  have hs : MembersStay s (Server.act D a s).2 :=
    .of_conversations (Server.act_conversations D a s)
  cases a with
  | join socket rooms =>
    intro entry hentry
    rcases mem_joinRooms.mp hentry with hold | ⟨rfl, hroom⟩
    · exact (h entry hold).imp_right fun hm => hm.stays hs
    · exact .inr ((hg _ hroom).stays hs)
  | leave socket rooms =>
    intro entry hentry
    exact (h entry (List.mem_of_mem_filter hentry)).imp_right fun hm => hm.stays hs
  | _ => exact h.stays hs (Server.act_rooms D (by simp) s)

theorem confidential_keeps_act {a : Action} (hi : (confidential D).inv w)
    (hg : Permitted D w.state a) : (confidential D).Keeps w ((chat D).perform pid a w) := by
  have hs : MembersStay w.state (Server.act D a w.state).2 :=
    .of_conversations (Server.act_conversations D a w.state)
  apply confidential_keeps hi hs (hi.1.act hg) rfl
  intro socket event h
  obtain ⟨pid', room, receivers, hmem, hsent | ⟨sender, hsent⟩⟩ := h
  · injection List.mem_singleton.mp hsent with _ ha hr
    subst ha
    obtain rfl := eq_of_heq hr
    exact Addressed.entitled (Addressed.stays hs hg) (hi.1.act hg) (mem_inRoom hmem)
  · injection List.mem_singleton.mp hsent with _ ha hr
    subst ha
    obtain rfl := eq_of_heq hr
    exact Addressed.entitled (Addressed.stays hs hg) (hi.1.act hg)
      (mem_inRoom (List.mem_of_mem_filter hmem))

theorem not_delivered_answered {pid : Nat} {q : Query} {r : Except Failure q.Answer}
    {socket : Socket} {event : ServerEvent} :
    ¬ Delivered [.answered pid q r] socket event := by
  rintro ⟨_, _, _, _, h | ⟨_, h⟩⟩ <;> cases List.mem_singleton.mp h

theorem confidential_keeps_answer (q : Query) (hi : (confidential D).inv w) :
    (confidential D).Keeps w ((chat D).respond pid q w) := by
  have hs : MembersStay w.state (Server.answer D q w.state).2 := .answer q w.state
  exact confidential_keeps hi hs (hi.1.stays hs (Server.answer_sameProcess D q w.state).rooms) rfl
    fun _ _ h => (not_delivered_answered h).elim

theorem confidential_keeps_reject (q : Query) (hi : (confidential D).inv w) :
    (confidential D).Keeps w ((chat D).reject pid q w) :=
  confidential_keeps hi (.refl _) hi.1 rfl fun _ _ h => (not_delivered_answered h).elim

/-- A program that joins no room and emits nothing. -/
theorem confidential_steady_of_within {β : Type} {p : Chat β} {B : Query → Prop}
    (hp : p.Within (fun a : Action => ∀ s, Permitted D s a) B) : (chat D).Steady (confidential D) p :=
  Steady.of_within (fun _ _ _ ha hi => confidential_keeps_act hi (ha _))
    (fun _ q _ _ hi => confidential_keeps_answer q hi) (fun _ q _ hi => confidential_keeps_reject q hi)
    hp

theorem callAck_confidential (ack : Value) (r : SocketAck) :
    (chat D).Steady (confidential D) (callAck ack r) :=
  confidential_steady_of_within (B := fun _ => True) (callAck_within _ _ fun _ => trivial)

/-! ### The handlers -/

/-- A handler that ends with an emit and a callback. -/
theorem emit_confidential (room : Text) (event : ServerEvent) (h : ∀ s, Addressed room s event)
    (ack : Value) (r : SocketAck) : (chat D).Steady (confidential D)
      ((perform (.emit room event)).bind fun _ => callAck ack r) := by
  refine Steady.bind (fun pid b w hk => ?_) fun _ => callAck_confidential ack r
  exact hk.trans (confidential_keeps_act hk.inv (h w.state))

theorem receiptError_confidential (ack : Value) (message : String) (error : Failure) :
    (chat D).Steady (confidential D) (receiptError ack message error) :=
  confidential_steady_of_within (B := fun _ => True)
    (receiptError_within ack (fun _ _ _ => trivial) message error)

theorem parseWith_confidential {α : Type} (schema : Zod.Schema α) (v : Value) :
    (chat D).Steady (confidential D) (parseWith schema v) :=
  confidential_steady_of_within (B := fun _ => True) (parseWith_within schema v)

theorem conversationJoin_confidential (socket : Socket) (conversationId ack : Value) :
    (chat D).Steady (confidential D) (conversationJoin D socket conversationId ack) := by
  refine Steady.tryCatch (fun pid b w hk => ?_) fun _ => callAck_confidential _ _
  refine (safe_bind _ _ _ _ _).mpr ((isConversationMember_member (fun h => h)
    (fun _ q _ _ hi => confidential_keeps_answer q hi) (fun _ q _ hi => confidential_keeps_reject q hi)
    conversationId socket.userId hk).mono ?_)
  intro r b w h'
  obtain ⟨hk, hmember⟩ := h'
  rcases r with e | isMember
  · exact hk
  · show (chat D).Safe (confidential D) pid _ (if (!isMember) = true then _ else _) b w
    split
    · exact callAck_confidential _ _ pid b w hk
    · rename_i hyes
      have hjoin : (confidential D).Keeps w
          ((chat D).perform pid (.join socket (roomsOf conversationId)) w) := by
        apply confidential_keeps_act hk.inv
        intro room hroom
        cases conversationId with
        | string s =>
          rw [List.mem_singleton.mp hroom]
          exact hmember (by simpa using hyes)
        | _ => cases hroom
      refine Steady.bind (p := query .microtask) ?_ (fun _ => ?_) pid b _ (hk.trans hjoin)
      · exact confidential_steady_of_within (B := fun _ => True)
          ((Program.within_query _).mpr trivial)
      · refine Steady.bind ?_ fun _ => callAck_confidential _ _
        exact confidential_steady_of_within (B := fun _ => True) (logValue_within _)

theorem createMessage_ends (id senderId : ObjectId) (input : SendMessageInput) :
    (createMessage id senderId input).Ends (chat D).Gives fun r => ∀ m, r = .ok m →
      ObjectId.cast input.conversationId = some m.message.conversationId := by
  unfold createMessage
  refine Program.Ends.bind_of (fun conversation => ?_) (by simp)
  cases conversation with
  | none => exact nofun
  | some conversation =>
    refine Program.Ends.bind_of (fun now => ?_) (by simp)
    refine (Program.ends_bind _ _).mpr ((Program.ends_query _ _).mpr ?_)
    intro result hgives
    rcases result with e | message
    · exact nofun
    · have hcast : ObjectId.cast input.conversationId = some message.conversationId := by
        rcases hgives with h | ⟨s, h⟩
        · cases h
        · exact (Server.messageCreate_answer (D := D) h.symm).1
      refine Program.Ends.bind_of (fun now => ?_) (by simp)
      refine Program.Ends.bind_of (fun _ => ?_) (by simp)
      refine Program.Ends.bind_of (fun sender => ?_) (by simp)
      intro m hm
      cases hm
      exact hcast

theorem messageSend_confidential (id : ObjectId) (socket : Socket) (payload ack : Value) :
    (chat D).Steady (confidential D) (messageSend D id socket payload ack) := by
  refine Steady.tryCatch ?_ fun error => ?_
  · refine Steady.bind ?_ fun allowed => ?_
    · exact confidential_steady_of_within (B := fun _ => True)
        ((Program.within_perform _).mpr fun _ => trivial)
    · split
      · exact callAck_confidential _ _
      · apply Steady.bind (parseWith_confidential _ _)
        intro input
        refine Steady.bind_ends ?_ (createMessage_ends id socket.userId input) fun message hcast => ?_
        · exact confidential_steady_of_within (B := fun _ => True)
            (createMessage_within id _ input (fun _ => trivial) fun _ _ => trivial)
        · exact emit_confidential input.conversationId (.messageNew (toSocketPayload message))
            (fun _ => hcast message rfl) _ _
  · cases error <;> exact callAck_confidential _ _

theorem markMessageDelivered_ends (messageId : Text) (userId : ObjectId) :
    (markMessageDelivered D messageId userId).Ends (chat D).Gives fun r => ∀ result, r = .ok result →
      ObjectId.isValid result.conversationId = true := by
  unfold markMessageDelivered
  split
  · exact nofun
  · refine Program.Ends.bind_of (fun message => ?_) (by simp)
    cases message with
    | none => exact nofun
    | some message =>
      have hvalid := message.conversationId.isValid_toString
      refine Program.Ends.bind_of (fun isMember => ?_) (by simp)
      split
      · exact nofun
      · split
        · refine Program.Ends.bind_of (fun now => ?_) (by simp)
          refine Program.Ends.bind_of (fun _ => ?_) (by simp)
          intro result h
          cases h
          exact hvalid
        · intro result h
          cases h
          exact hvalid

theorem messageDelivered_confidential (socket : Socket) (payload ack : Value) :
    (chat D).Steady (confidential D) (messageDelivered D socket payload ack) := by
  refine Steady.tryCatch ?_ fun error => receiptError_confidential _ _ error
  apply Steady.bind (parseWith_confidential _ _)
  intro input
  refine Steady.bind_ends ?_ (markMessageDelivered_ends input.messageId socket.userId)
    fun result hvalid => ?_
  · exact confidential_steady_of_within (B := fun _ => True)
      (markMessageDelivered_within D _ _ (fun _ => trivial) fun _ _ => trivial)
  · exact emit_confidential result.conversationId (.messageDelivered result.message.id _ socket.userId)
      (fun _ => ⟨rfl, hvalid result rfl⟩) _ _

theorem markMessagesRead_ends (conversationId upToMessageId : Text) (userId : ObjectId) :
    (markMessagesRead D conversationId upToMessageId userId).Ends (chat D).Gives fun r =>
      ∀ result, r = .ok result → ObjectId.isValid result.conversationId = true := by
  unfold markMessagesRead
  split
  · exact nofun
  · rename_i hinput
    have hvalid : ObjectId.isValid conversationId = true := by simp_all
    refine Program.Ends.bind_of (fun isMember => ?_) (by simp)
    split
    · exact nofun
    · refine Program.Ends.bind_of (fun upToMessage => ?_) (by simp)
      cases upToMessage with
      | none => exact nofun
      | some upToMessage =>
        refine Program.Ends.bind_of (fun messageIds => ?_) (by simp)
        split
        · intro result h
          cases h
          exact hvalid
        · refine Program.Ends.bind_of (fun now => ?_) (by simp)
          refine Program.Ends.bind_of (fun _ => ?_) (by simp)
          intro result h
          cases h
          exact hvalid

theorem messageRead_confidential (socket : Socket) (payload ack : Value) :
    (chat D).Steady (confidential D) (messageRead D socket payload ack) := by
  refine Steady.tryCatch ?_ fun error => receiptError_confidential _ _ error
  apply Steady.bind (parseWith_confidential _ _)
  intro input
  refine Steady.bind_ends ?_ (markMessagesRead_ends input.conversationId input.upToMessageId
    socket.userId) fun result hvalid => ?_
  · exact confidential_steady_of_within (B := fun _ => True)
      (markMessagesRead_within D _ _ _ (fun _ => trivial) fun _ _ => trivial)
  · split
    · exact callAck_confidential _ _
    · exact emit_confidential result.conversationId (.messageRead _ result.messageIds socket.userId)
        (fun _ => ⟨rfl, hvalid result rfl⟩) _ _

theorem broadcastTyping_confidential (socket : Socket) (signal : TypingSignal) (payload : Value) :
    (chat D).Steady (confidential D) (broadcastTyping D socket signal payload) := by
  unfold broadcastTyping
  split
  · exact .ret ()
  · rename_i input hparse
    refine Steady.bind ?_ fun isMember => ?_
    · exact confidential_steady_of_within (B := fun _ => True)
        (isConversationMember_within D _ _ trivial)
    · split
      · exact .ret ()
      · refine Steady.bind (fun pid b w hk => ?_) fun _ => .ret ()
        exact hk.trans (confidential_keeps_act (a := .emitFrom socket input.conversationId _) hk.inv
          ⟨rfl, typing_isValid hparse⟩)

/-- Each room belongs to a conversation of the user. -/
def RoomsOf (userId : ObjectId) (rooms : List Text) (s : Server) : Prop :=
  ∀ room ∈ rooms, ∃ id, room = ObjectId.toString id ∧ IsMember id userId s

theorem RoomsOf.stays {userId : ObjectId} {rooms : List Text} {s s' : Server}
    (h : RoomsOf userId rooms s) (hs : MembersStay s s') : RoomsOf userId rooms s' := by
  intro room hroom
  obtain ⟨id, hid, hm⟩ := h room hroom
  exact ⟨id, hid, hs _ _ hm⟩

theorem getUserConversationRoomIds_rooms (userId : ObjectId)
    {b w : World chatInterface Server Failure Call} (hk : (confidential D).Keeps b w) :
    (chat D).Safe (confidential D) pid (fun r b w => (confidential D).Keeps b w ∧
      ∀ rooms, r = .ok rooms → RoomsOf userId rooms w.state)
      (getUserConversationRoomIds userId) b w := by
  refine (safe_bind _ _ _ _ _).mpr (Safe.of_query hk ?_ ?_ ?_ ?_)
  · exact fun w₁ hw₁ _ => confidential_keeps_answer _ hw₁.inv
  · exact fun w₁ hw₁ _ => confidential_keeps_reject _ hw₁.inv
  · intro ids w₁ w₂ _ hids hstep hw₂
    refine ⟨.refl hw₂.inv, fun rooms hrooms room hroom => ?_⟩
    cases hrooms
    obtain ⟨id, hid, rfl⟩ := List.mem_map.mp hroom
    have hmember := (conversationIds_answer (D := D) hids id).mp hid
    exact ⟨id, rfl, hw₂.rel _ _ (hstep.rel _ _ hmember)⟩
  · exact fun e w₁ w₂ _ h => ⟨.refl h.keeps.inv, nofun⟩

theorem emitToEach_confidential {userId : ObjectId} {event : ServerEvent}
    (hevent : ∀ room s, (∃ id, room = ObjectId.toString id ∧ IsMember id userId s) →
      Addressed room s event) {rooms : List Text} {b w : World chatInterface Server Failure Call}
    (hrooms : RoomsOf userId rooms w.state) (hk : (confidential D).Keeps b w) :
    (chat D).Safe (confidential D) pid (fun _ b w => (confidential D).Keeps b w)
      (emitToEach event rooms) b w := by
  induction rooms generalizing w with
  | nil => exact hk
  | cons room rest ih =>
    have hemit : (confidential D).Keeps w ((chat D).perform pid (.emit room event) w) :=
      confidential_keeps_act hk.inv (hevent room _ (hrooms room List.mem_cons_self))
    refine ih (RoomsOf.stays (fun room hroom => ?_) hemit.rel) (hk.trans hemit)
    exact hrooms room (List.mem_cons_of_mem _ hroom)

/-- The announcement that ends both presence handlers: the rooms are the user's own when
they are looked up, and still are when the event goes out. -/
theorem announce_confidential {userId : ObjectId} (user : Option User) {event : Text → ServerEvent}
    (hevent : ∀ lastSeen room s, (∃ id, room = ObjectId.toString id ∧ IsMember id userId s) →
      Addressed room s (event lastSeen)) : (chat D).Steady (confidential D)
      ((getUserConversationRoomIds userId).bind fun roomIds =>
        (lastSeenOf user).bind fun lastSeen => emitToEach (event lastSeen) roomIds) := by
  intro pid b w hk
  refine (safe_bind _ _ _ _ _).mpr ((getUserConversationRoomIds_rooms userId hk).mono ?_)
  intro r b w h'
  obtain ⟨hk, hrooms⟩ := h'
  rcases r with e | roomIds
  · exact hk
  · have hlastSeen : (lastSeenOf user).Within (fun a : Action => ∀ s, Permitted D s a) fun _ => True :=
      lastSeenOf_within user fun _ => trivial
    refine (safe_bind _ _ _ _ _).mpr ((Safe.of_within (fun _ _ _ ha hi => ?_) (fun _ q _ _ hi => ?_)
      (fun _ q _ hi => ?_) hlastSeen (fun w w' h hrel => RoomsOf.stays h hrel) hk
      (hrooms roomIds rfl)).mono ?_)
    · exact confidential_keeps_act hi (ha _)
    · exact confidential_keeps_answer q hi
    · exact confidential_keeps_reject q hi
    · intro r b w h'
      obtain ⟨hk, hrooms⟩ := h'
      rcases r with e | lastSeen
      · exact hk
      · exact emitToEach_confidential (hevent lastSeen) hrooms hk

theorem autoJoinConversationRooms_confidential (socket : Socket) :
    (chat D).Steady (confidential D) (autoJoinConversationRooms socket) := by
  intro pid b w hk
  refine (safe_bind _ _ _ _ _).mpr ((getUserConversationRoomIds_rooms socket.userId hk).mono ?_)
  intro r b w h
  obtain ⟨hk, hrooms⟩ := h
  rcases r with e | roomIds
  · exact hk
  · show (chat D).Safe (confidential D) pid _ (if roomIds.isEmpty = true then _ else _) b w
    split
    · exact hk
    · have hjoin : (confidential D).Keeps w ((chat D).perform pid (.join socket roomIds) w) := by
        apply confidential_keeps_act hk.inv
        intro room hroom
        obtain ⟨id, rfl, hm⟩ := hrooms roomIds rfl room hroom
        exact ⟨id, id.cast_toString, hm⟩
      refine confidential_steady_of_within (p := query .microtask) (B := fun _ => True) ?_
        pid b _ (hk.trans hjoin)
      exact (Program.within_query _).mpr trivial

theorem onConnection_confidential (socket : Socket) :
    (chat D).Steady (confidential D) (onConnection socket) := by
  refine Steady.tryCatch ?_ fun _ => .ret ()
  apply Steady.bind (autoJoinConversationRooms_confidential socket)
  intro _
  refine Steady.bind ?_ fun isFirst => ?_
  · exact confidential_steady_of_within (B := fun _ => True)
      ((Program.within_perform _).mpr fun _ => trivial)
  · split
    · exact .ret ()
    · refine Steady.bind ?_ fun user => announce_confidential user fun _ _ _ h => h
      exact confidential_steady_of_within (B := fun _ => True)
        ((Program.within_query _).mpr trivial)

theorem onDisconnect_confidential (socket : Socket) :
    (chat D).Steady (confidential D) (onDisconnect socket) := by
  refine Steady.tryCatch ?_ fun _ => .ret ()
  refine Steady.bind ?_ fun isLast => ?_
  · exact confidential_steady_of_within (B := fun _ => True)
      ((Program.within_perform _).mpr fun _ => trivial)
  · split
    · exact .ret ()
    · refine Steady.bind ?_ fun user => announce_confidential user fun _ _ _ h => h
      refine confidential_steady_of_within (B := fun _ => True) ?_
      exact ((Program.within_perform _).mpr fun _ => trivial).bind fun _ =>
        (Program.within_query _).mpr trivial

theorem body_confidential (call : Call) : (chat D).Steady (confidential D) (Call.body D call) := by
  have hwithin : (∀ a s, call.Acts a → Permitted D s a) →
      (chat D).Steady (confidential D) (Call.body D call) := fun h =>
    confidential_steady_of_within ((body_within D call).mono (fun a ha s => h a s ha) fun _ hq => hq)
  cases call with
  | connect socket => exact (onConnection_confidential socket).bind fun _ => .ret _
  | disconnect socket => exact (onDisconnect_confidential socket).bind fun _ => .ret _
  | event socket name args id =>
    refine Steady.bind ?_ fun _ => .ret _
    cases name with
    | conversationJoin => exact conversationJoin_confidential socket _ _
    | conversationLeave =>
      refine confidential_steady_of_within ((conversationLeave_within socket _ _).mono ?_ fun _ h => h)
      intro a ha s
      cases a <;> trivial
    | messageSend => exact messageSend_confidential id socket _ _
    | messageDelivered => exact messageDelivered_confidential socket _ _
    | messageRead => exact messageRead_confidential socket _ _
    | typing signal => exact broadcastTyping_confidential socket signal _
  | createConversation userId body id =>
    apply hwithin
    intro a s ha
    cases a <;> trivial
  | _ => exact hwithin fun _ _ ha => ha.elim

/-- An arriving socket is in the room of its own id, a leaving one in none. -/
theorem confidential_keeps_arrival {call : Call} {s : Server} (hi : (confidential D).inv w)
    (ha : call.accept w.state = some s) : (confidential D).Keeps w (arrival pid call s w) := by
  have hs : MembersStay w.state s := .of_conversations (accept_sameBehind ha).conversations
  refine confidential_keeps hi hs ?_ rfl ?_
  · show Private D s
    cases call with
    | connect socket =>
      obtain ⟨_, rfl⟩ := accept_connect ha
      intro entry hentry
      rcases List.mem_append.mp hentry with hold | hnew
      · exact (hi.1 entry hold).imp_right fun hm => hm.stays hs
      · rw [List.mem_singleton.mp hnew]
        exact .inl rfl
    | disconnect socket =>
      obtain ⟨_, rfl⟩ := accept_disconnect ha
      exact fun entry hentry =>
        (hi.1 entry (List.mem_of_mem_filter hentry)).imp_right fun hm => hm.stays hs
    | event socket name args id =>
      obtain ⟨_, rfl⟩ := accept_event ha
      exact hi.1
    | _ =>
      cases ha
      exact hi.1
  · rintro socket event ⟨_, _, _, _, h | ⟨_, h⟩⟩ <;> cases List.mem_singleton.mp h

end

theorem chat_upholds_confidential (D : Deployment) :
    (chat D).Upholds (confidential D) fun _ _ _ _ => True :=
  Upholds.of_steady (fun _ _ _ _ hi ha => confidential_keeps_arrival hi ha) body_confidential
    fun _ _ hi => ⟨.of_conversations rfl, hi⟩

/-- **Confidentiality of broadcasts**: in every run of the server, on any database,
whatever the clients send, a socket only ever receives what its user may learn of. -/
theorem delivered_entitled (D : Deployment) (users : Users) (conversations : Conversations)
    (messages : Messages) (clock : Nat) (moves : List (Move Call)) (socket : Socket)
    (event : ServerEvent) (h : Delivered ((chat D).run (Config.start
      (Server.boot users conversations messages clock)) moves).world.log socket event) :
    Entitled D socket ((chat D).run (Config.start
      (Server.boot users conversations messages clock)) moves).world.state event := by
  have hstart : (confidential D).inv ⟨Server.boot users conversations messages clock, []⟩ := by
    constructor
    · intro entry hentry
      cases hentry
    · rintro _ _ ⟨_, _, _, _, h | ⟨_, h⟩⟩ <;> cases h
  exact ((Sound.start hstart).run (chat_upholds_confidential D) moves trivial).1.inv.2 socket event h

/-! Two users in one conversation. -/

def sender : Socket := ⟨.ofChar 'a', .ending 1, "ann".toList⟩

def receiver : Socket := ⟨.ofChar 'b', .ending 2, "bob".toList⟩

def typingEvent : ServerEvent :=
  .typing .start (ObjectId.ending 3).toString (.ending 1) "ann".toList

def typingRun : List (Move Call) :=
  [.arrive (.connect receiver), .answer 0, .resume 0, .arrive (.connect sender),
    .arrive (.event sender (.typing .start)
      [.object [("conversationId", .string (ObjectId.ending 3).toString)]] (.ending 9)),
    .answer 2, .resume 2]

theorem delivered_entitled_typing : Entitled .default receiver ((chat .default).run (Config.start
    (.boot .empty ⟨[⟨.ending 3, .oneToOne, none, [.ending 1, .ending 2], none, 0, 0⟩], by decide⟩
      .empty 0)) typingRun).world.state typingEvent :=
  delivered_entitled .default _ _ _ _ typingRun receiver typingEvent
    ⟨2, (ObjectId.ending 3).toString, [receiver], by decide, .inr ⟨sender, List.mem_of_mem_head? rfl⟩⟩

end RealtimeChat
