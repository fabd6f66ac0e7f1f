import RealtimeChat.Handlers.Grants
import RealtimeChat.Messages.Stored

/-! What stands behind an event that is told, and behind a response.

An event names a user: who has written, received, read, typed or come. Whichever handler
tells of it, what the event says has been found out by the task itself before, and the
user is the one in whose name the call is made (`body_vouched`). A request, too, is
answered with what the task has found, in the conversations of its user
(`body_answering`). -/
namespace RealtimeChat
open Data (Text)
open Zod (Value)
open Async Async.System
open Async.Program

/-- What the call has done by the time that it tells the room of the event: which call it is, and
what it has found out. -/
def Vouched (call : Call) (before : Deeds) (room : Text) : ServerEvent → Prop
  | .messageNew payload => ∃ socket args id input t m sender,
    call = .event socket .messageSend args id ∧
      sendMessageSchema.parse (args.getD 0 .undefined) = .ok input ∧ Admitted socket.userId room before ∧
      .answered (.messageCreate id room socket.userId input.text t) (.ok m) ∈ before ∧
      .answered (.messagePopulate m.senderId) (.ok sender) ∈ before ∧
      payload = toSocketPayload ⟨m, sender⟩
  | .messageDelivered id c u => ∃ socket args k input m,
    call = .event socket .messageDelivered args k ∧
      messageDeliveredSchema.parse (args.getD 0 .undefined) = .ok input ∧ u = socket.userId ∧ c = room ∧
      Admitted u c before ∧ .answered (.messageFindById input.messageId) (.ok (some m)) ∈ before ∧
      m.id = id ∧ m.conversationId.toString = c
  | .messageRead c ids u => ∃ socket args k input upTo,
    call = .event socket .messageRead args k ∧
      messageReadSchema.parse (args.getD 0 .undefined) = .ok input ∧ u = socket.userId ∧
      c = input.conversationId ∧ c = room ∧ Admitted u c before ∧
      .answered (.messageFindUnread c u upTo) (.ok ids) ∈ before
  | .typing signal c u username => ∃ socket args k input,
    call = .event socket (.typing signal) args k ∧
      typingSchema.parse (args.getD 0 .undefined) = .ok input ∧ u = socket.userId ∧
      username = socket.username ∧ c = input.conversationId ∧ c = room ∧ Admitted u c before
  | .userOnline p => ∃ socket, call = .connect socket ∧ p.userId = socket.userId ∧ p.status = .online
  | .userOffline p => ∃ socket, call = .disconnect socket ∧ p.userId = socket.userId ∧
    p.status = .offline

/-- Nothing is told that is not vouched for. -/
def vouching (call : Call) : Law chatInterface Failure
  | before, .acted (.emit room event) _ => Vouched call before room event
  | before, .acted (.emitFrom _ room event) _ => Vouched call before room event
  | _, _ => True

section
variable {call : Call} {before : Deeds}

theorem vouching_callAck (ack : Value) (response : SocketAck) :
    (callAck ack response).Obeys (vouching call) (fun _ _ => True) before :=
  .of_within (callAck_within (A := fun a => ∃ response, a = .ack response) (B := fun _ => False) ack
    response ⟨response, rfl⟩) (fun _ _ _ ⟨_, ha⟩ => ha ▸ trivial) fun _ _ _ h => h.elim

theorem vouching_receiptError (ack : Value) (message : String) (e : Failure) :
    (receiptError ack message e).Obeys (vouching call) (fun _ _ => True) before := by
  cases e <;> exact vouching_callAck ack _

/-- The end of a handler that has something to tell. -/
theorem vouching_emit {room : Text} {event : ServerEvent} (h : Vouched call before room event)
    (ack : Value) (response : SocketAck) :
    ((perform (.emit room event)).bind fun _ => callAck ack response).Obeys (vouching call)
      (fun _ _ => True) before :=
  obeys_bind.mpr fun _ => ⟨h, vouching_callAck ack response⟩

/-- A `try` block with nothing to tell in its `catch` block. -/
theorem vouching_caught {ack : Value} {message : String} {p : Chat Unit}
    (h : p.Obeys (vouching call) (fun _ _ => True) before) :
    (p.tryCatch (receiptError ack message)).Obeys (vouching call) (fun _ _ => True) before := by
  apply obeys_tryCatch.mpr
  apply h.mono
  intro before result _
  rcases result with e | v
  · exact vouching_receiptError ack message e
  · trivial

end

section
variable (D : Deployment) (socket : Socket) (args : List Value) (id : ObjectId) (ack : Value)

theorem messageDelivered_vouched : (messageDelivered D socket (args.getD 0 .undefined) ack).Obeys
    (vouching (.event socket .messageDelivered args id)) (fun _ _ => True) [] := by
  have hlast : ∀ (result : StatusUpdateResult) (before : Deeds),
      Vouched (.event socket .messageDelivered args id) before result.conversationId
        (.messageDelivered result.message.id result.conversationId socket.userId) →
      ((perform (.emit result.conversationId (.messageDelivered result.message.id
        result.conversationId socket.userId))).bind fun _ => callAck ack { success := true }).Obeys
          (vouching (.event socket .messageDelivered args id)) (fun _ _ => True) before :=
    fun result before h => vouching_emit h ack _
  apply vouching_caught
  refine obeys_bind.mpr (parseWith_obeys (fun input hparse => ?_) fun _ => trivial)
  refine obeys_bind.mpr ?_
  show (markMessageDelivered D _ _).Obeys _ _ _
  unfold markMessageDelivered
  split
  · trivial
  · refine obeys_bind.mpr (obeys_query.mpr fun r => ⟨trivial, ?_⟩)
    rcases r with e | _ | m
    · trivial
    · trivial
    · refine obeys_bind.mpr ((isConversationMember_admits D _ fun _ _ => trivial).mono
        fun after isMember h => ?_)
      obtain ⟨hafter, hmember⟩ := h
      rcases isMember with e | _ | _
      · trivial
      · trivial
      · have hfound : .answered (.messageFindById input.messageId) (.ok (some m)) ∈ after :=
          hafter.subset (.head _)
        show (if m.status = .sent then _ else _ : Chat StatusUpdateResult).Obeys _ _ _
        split
        · refine obeys_bind.mpr fun now => ⟨trivial, obeys_bind.mpr (obeys_query.mpr fun r => ⟨trivial, ?_⟩)⟩
          rcases r with e | _
          · trivial
          · refine hlast _ _ ⟨socket, args, id, input, m, rfl, hparse, rfl, rfl, ?_, ?_, rfl, rfl⟩
            · exact (hmember rfl).after ⟨[_, _], rfl⟩
            · exact .tail _ (.tail _ hfound)
        · exact hlast _ _ ⟨socket, args, id, input, m, rfl, hparse, rfl, rfl, hmember rfl, hfound, rfl, rfl⟩

theorem messageRead_vouched : (messageRead D socket (args.getD 0 .undefined) ack).Obeys
    (vouching (.event socket .messageRead args id)) (fun _ _ => True) [] := by
  apply vouching_caught
  refine obeys_bind.mpr (parseWith_obeys (fun input hparse => ?_) fun _ => trivial)
  refine obeys_bind.mpr ?_
  show (markMessagesRead D _ _ _).Obeys _ _ _
  unfold markMessagesRead
  split
  · trivial
  · refine obeys_bind.mpr ((isConversationMember_admits D _ fun _ _ => trivial).mono
      fun after isMember h => ?_)
    obtain ⟨-, hmember⟩ := h
    rcases isMember with e | _ | _
    · trivial
    · trivial
    · refine obeys_bind.mpr (obeys_query.mpr fun r => ⟨trivial, ?_⟩)
      rcases r with e | _ | m
      · trivial
      · trivial
      · refine obeys_bind.mpr (obeys_query.mpr fun r => ⟨trivial, ?_⟩)
        rcases r with e | ids
        · trivial
        · show (if ids.isEmpty then _ else _ : Chat MessagesRead).Obeys _ _ _
          cases ids with
          | nil => exact vouching_callAck ack _
          | cons i rest =>
            refine obeys_bind.mpr fun now => ⟨trivial, obeys_bind.mpr (obeys_query.mpr fun r => ⟨trivial, ?_⟩)⟩
            rcases r with e | _
            · trivial
            · refine obeys_bind.mpr fun receivers => ⟨⟨socket, args, id, input, m.createdAt, rfl, hparse, rfl,
                rfl, rfl, ?_, ?_⟩, vouching_callAck ack _⟩
              · exact (hmember rfl).after ⟨[_, _, _, _], rfl⟩
              · exact .tail _ (.tail _ (.head _))

theorem broadcastTyping_vouched (signal : TypingSignal) :
    (broadcastTyping D socket signal (args.getD 0 .undefined)).Obeys
      (vouching (.event socket (.typing signal) args id)) (fun _ _ => True) [] := by
  unfold broadcastTyping
  split
  · trivial
  · rename_i input hparse
    refine obeys_bind.mpr ((isConversationMember_admits D _ fun _ _ => trivial).mono
      fun after isMember h => ?_)
    rcases isMember with e | _ | _
    · trivial
    · trivial
    · exact obeys_bind.mpr fun receivers =>
        ⟨⟨socket, args, id, input, rfl, hparse, rfl, rfl, rfl, rfl, h.2 rfl⟩, trivial⟩

end

/-- The call that tells that the socket's user is there, or no longer. -/
def presenceCall (socket : Socket) : UserStatus → Call
  | .online => .connect socket
  | .offline => .disconnect socket

/-- An event of presence is told of the socket's own user. -/
theorem telling_vouching {socket : Socket} (status : UserStatus) {before : Deeds}
    {d : Deed chatInterface Failure} (h : Attending.telling socket status before d) :
    vouching (presenceCall socket status) before d := by
  rcases d with ⟨a, r⟩ | ⟨q, r⟩
  · cases a with
    | emit room event =>
      obtain ⟨p, rfl, hp, hstatus, -⟩ := h
      cases status with
      | online => exact ⟨socket, rfl, hp, hstatus⟩
      | offline => exact ⟨socket, rfl, hp, hstatus⟩
    | emitFrom other room event => exact h.elim
    | _ => trivial
  · trivial

/-- A handler that returns nothing. -/
theorem vouching_none {call : Call} {p : Chat Unit}
    (h : p.Obeys (vouching call) (fun _ _ => True) []) :
    (p.bind fun _ => (.ret .none : Chat Response)).Obeys (vouching call) (fun _ _ => True) [] :=
  obeys_none (E := fun _ => True) h

/-- **Nothing is told that is not vouched for**, whatever the call is answered. -/
theorem body_vouched (D : Deployment) (call : Call) :
    (Call.body D call).Obeys (vouching call) (fun _ _ => True) [] := by
  -- The calls that tell of nothing.
  have hsilent : (∀ room event, ¬ call.Acts (.emit room event)) →
      (∀ other room event, ¬ call.Acts (.emitFrom other room event)) →
      (Call.body D call).Obeys (vouching call) (fun _ _ => True) [] := by
    intro hemit hemitFrom
    refine .of_within (body_within D call) (fun _ a r ha => ?_) fun _ _ _ _ => trivial
    cases a with
    | emit room event => exact absurd ha (hemit room event)
    | emitFrom other room event => exact absurd ha (hemitFrom other room event)
    | _ => trivial
  cases call with
  | connect socket =>
    refine vouching_none (((onConnection_obeys socket).weaken fun before d h => ?_).mono
      fun _ _ _ => trivial)
    rcases d with ⟨a, r⟩ | ⟨q, r⟩
    · cases a with
      | emit room event => exact telling_vouching .online h
      | emitFrom other room event => exact h.elim
      | _ => trivial
    · trivial
  | disconnect socket =>
    refine vouching_none (((onDisconnect_obeys socket).weaken fun before d h => ?_).mono
      fun _ _ _ => trivial)
    rcases d with ⟨a, r⟩ | ⟨q, r⟩
    · cases a with
      | emit room event => exact telling_vouching .offline h
      | emitFrom other room event => exact h.elim
      | _ => trivial
    · trivial
  | event socket name args id =>
    cases name with
    | messageSend =>
      refine vouching_none (((messageSend_obeys D id socket _ _).weaken fun before d h => ?_).mono
        fun _ _ _ => trivial)
      rcases d with ⟨a, r⟩ | ⟨q, r⟩
      · cases a with
        | emit room event =>
          obtain ⟨input, conversation, t, m, t', sender, hparse, rfl, rfl, rfl⟩ := h
          refine ⟨socket, args, id, input, t, m, sender, rfl, hparse, ⟨conversation, ?_⟩, ?_, .head _, rfl⟩
          · simp [Sending.populated, Sending.saved, Sending.created, Sending.found]
          · simp [Sending.populated, Sending.saved, Sending.created]
        | emitFrom other room event => exact h.elim
        | _ => trivial
      · trivial
    | messageDelivered => exact vouching_none (messageDelivered_vouched D socket args id _)
    | messageRead => exact vouching_none (messageRead_vouched D socket args id _)
    | typing signal => exact vouching_none (broadcastTyping_vouched D socket args id signal)
    | _ => exact hsilent (fun _ _ h => h) fun _ _ _ h => h
  | _ => exact hsilent (fun _ _ h => h) fun _ _ _ h => h

/-! ### What a request is answered with -/

/-- What the task has found out by the time that it responds. -/
def Answering (call : Call) (before : Deeds) : Response → Prop
  | .none => True
  | .conversation c => ∃ userId body id memberIds, call = .createConversation userId body id ∧
    userId.toString ∈ memberIds ∧
      (.answered (.conversationFindOneToOne memberIds) (.ok (some c)) ∈ before ∨
        ∃ k type name now, .answered (.conversationCreate k type name memberIds now) (.ok c) ∈ before)
  | .conversations list => ∃ userId found, call = .listConversations userId ∧
    .answered (.conversationFind userId) (.ok found) ∈ before ∧ list.map (·.conversation) = found
  | .messages page => ∃ userId id request cursor limit found, call = .getMessageHistory userId id request ∧
    Admitted userId id before ∧ .answered (.messageFind id cursor limit) (.ok found) ∈ before ∧
      ∀ p ∈ page.messages, p ∈ found

def answering (call : Call) (before : Deeds) (r : Except Failure Response) : Prop :=
  ∀ response, r = .ok response → Answering call before response

/-- Any law at all. -/
abbrev lawless : Law chatInterface Failure := fun _ _ => True

theorem lawless_query {α : Type} {before : Deeds} {E : Deeds → Except Failure α → Prop} {q : Query}
    {f : q.Answer → Chat α} (hok : ∀ v, (f v).Obeys lawless E (.answered q (.ok v) :: before))
    (herror : ∀ e, E (.answered q (.error e) :: before) (.error e)) :
    ((query q).bind f).Obeys lawless E before := by
  refine obeys_bind.mpr (obeys_query.mpr fun r => ⟨trivial, ?_⟩)
  rcases r with e | v
  · exact herror e
  · exact hok v

theorem assertMembership_admits (D : Deployment) (spelling : Text) {userId : ObjectId} {before : Deeds} :
    (assertMembership D (.string spelling) userId).Obeys lawless (fun after r =>
      ∀ c, r = .ok c → Admitted userId spelling after) before := by
  unfold assertMembership
  split
  · exact nofun
  · refine lawless_query (fun conversation => ?_) fun _ => nofun
    cases conversation with
    | none => exact nofun
    | some c => exact fun _ _ => ⟨c, .head _⟩

theorem createConversation_answering (id userId : ObjectId) (input : CreateConversationInput) (body : Value) :
    (createConversation id userId input).Obeys lawless (fun after r =>
      ∀ c, r = .ok c → Answering (.createConversation userId body id) after (.conversation c)) [] := by
  have hself : userId.toString ∈ fromSet (userId.toString :: input.members) :=
    mem_fromSet.mpr (.head _)
  have hcreate : ∀ before : Deeds, ((perform .now).bind fun now =>
      query (.conversationCreate id input.type input.name
        (fromSet (userId.toString :: input.members)) now)).Obeys lawless (fun after r => ∀ c, r = .ok c →
          Answering (.createConversation userId body id) after (.conversation c)) before := by
    intro before
    refine obeys_bind.mpr fun now => ⟨trivial, obeys_query.mpr fun r => ⟨trivial, ?_⟩⟩
    rintro c rfl
    exact ⟨userId, body, id, _, rfl, hself, .inr ⟨_, _, _, _, .head _⟩⟩
  unfold createConversation
  split
  · refine lawless_query (fun existing => ?_) fun _ => nofun
    cases existing with
    | none => exact hcreate _
    | some existing =>
      rintro c h
      cases h
      exact ⟨userId, body, id, _, rfl, hself, .inl (.head _)⟩
  · exact hcreate _

/-- **Nothing is answered that has not been found**, to whom may have it. -/
theorem body_answering (D : Deployment) (call : Call) :
    (Call.body D call).Obeys lawless (answering call) [] := by
  -- The calls without a response.
  have hnone : ∀ p : Chat Unit, (p.bind fun _ => (.ret .none : Chat Response)).Obeys lawless
      (answering call) [] := by
    intro p
    refine Obeys.bind_of (fun _ _ => ?_) fun _ _ => nofun
    rintro response h
    cases h
    trivial
  cases call with
  | connect socket => exact hnone _
  | disconnect socket => exact hnone _
  | event socket name args id => exact hnone _
  | createConversation userId body id =>
    show (createConversationHandler id userId body).Obeys _ _ _
    unfold createConversationHandler
    split
    · exact nofun
    · rename_i input hparse
      refine obeys_bind.mpr ((createConversation_answering id userId input body).mono fun after r h => ?_)
      rcases r with e | c
      · exact nofun
      · rintro response hresponse
        cases hresponse
        exact h c rfl
  | listConversations userId =>
    refine obeys_bind.mpr (lawless_query (fun found => ?_) fun _ => nofun)
    split
    · rename_i hempty
      rintro response h
      cases h
      exact ⟨userId, found, rfl, .head _, (List.isEmpty_iff.mp hempty).symm⟩
    · refine lawless_query (fun unreadCounts => ?_) fun _ => nofun
      rintro response h
      cases h
      refine ⟨userId, found, rfl, .tail _ (.head _), ?_⟩
      rw [List.map_map]
      exact List.map_id found
  | getMessageHistory userId id request =>
    refine Obeys.bind_of (fun _ before => ?_) fun _ _ => nofun
    refine obeys_bind.mpr ((assertMembership_admits D id).mono fun after r hadmitted => ?_)
    rcases r with e | c
    · exact nofun
    · refine obeys_bind.mpr (lawless_query (fun found => ?_) fun _ => nofun)
      rintro response h
      cases h
      exact ⟨userId, id, request, _, _, found, rfl, (hadmitted c rfl).after (List.suffix_cons _ _),
        .head _, fun p hp => mem_pageOf hp⟩

end RealtimeChat
