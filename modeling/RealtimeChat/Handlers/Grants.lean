import RealtimeChat.Async.Refinement
import RealtimeChat.Handlers.Lawful

/-! What a call has found out before it changes what is stored.

`Lawful.lean` says in which order a call does what it does. Here it is said for each write
what of the task's own deeds allows it, with the user in whose name the call is made:
a status is not changed, nor a conversation opened, on the word of the client alone. -/
namespace RealtimeChat
open Data (Text)
open Zod (Value)
open Async Async.System
open Async.Program

/-- In whose name a call is made. -/
def Call.user : Call → ObjectId
  | .connect socket => socket.userId
  | .disconnect socket => socket.userId
  | .event socket _ _ _ => socket.userId
  | .createConversation userId _ _ => userId
  | .listConversations userId => userId
  | .getMessageHistory userId _ _ => userId

/-- The task has been told that the user is a member of what the text denotes. -/
def Admitted (userId : ObjectId) (spelling : Text) (before : Deeds) : Prop :=
  ∃ c, .answered (.conversationFindOne (.string spelling) userId) (.ok (some c)) ∈ before

/-- What allows the writes of a call, those of `message:send` apart. -/
def granted (userId : ObjectId) : Law chatInterface Failure
  | _, .answered (.conversationCreate _ _ _ memberIds _) _ => userId.toString ∈ memberIds
  | _, .answered (.userUpdate u _ _) _ => u = userId
  | before, .answered (.messageSave k status _) _ => status = .delivered ∧
    ∃ spelling m, .answered (.messageFindById spelling) (.ok (some m)) ∈ before ∧ k = m.id ∧
      Admitted userId m.conversationId.toString before
  | before, .answered (.messageUpdateMany ids _) _ => ∃ spelling upTo,
    .answered (.messageFindUnread spelling userId upTo) (.ok ids) ∈ before ∧
      Admitted userId spelling before
  | _, _ => True

section
variable {userId : ObjectId} {before : Deeds}

/-- A query that needs no grant. -/
def Query.free : Query → Prop
  | .conversationCreate _ _ _ _ _ => False
  | .userUpdate _ _ _ => False
  | .messageSave _ _ _ => False
  | .messageUpdateMany _ _ => False
  | _ => True

theorem granted_acted (a : Action) (r : a.Reply) : granted userId before (.acted a r) := trivial

theorem granted_free {q : Query} (h : q.free) (r : Except Failure q.Answer) :
    granted userId before (.answered q r) := by
  cases q <;> trivial

theorem granted_of_within {α : Type} {A : Action → Prop} {p : Chat α} (h : p.Within A Query.free) :
    p.Obeys (granted userId) (fun _ _ => True) before :=
  .of_within h (fun _ a r _ => granted_acted a r)
    fun _ _ r hq => granted_free hq r

theorem receiptError_granted (ack : Value) (message : String) (e : Failure) :
    (receiptError ack message e).Obeys (granted userId) (fun _ _ => True) before :=
  granted_of_within (A := fun _ => True) (receiptError_within ack (fun _ _ => trivial) message e)

theorem callAck_granted (ack : Value) (response : SocketAck) :
    (callAck ack response).Obeys (granted userId) (fun _ _ => True) before :=
  granted_of_within (A := fun _ => True) (callAck_within ack response trivial)

/-- A `try` block with nothing to grant in its `catch` block. -/
theorem granted_caught {ack : Value} {message : String} {p : Chat Unit}
    (h : p.Obeys (granted userId) (fun _ _ => True) before) :
    (p.tryCatch (receiptError ack message)).Obeys (granted userId) (fun _ _ => True) before := by
  apply obeys_tryCatch.mpr
  apply h.mono
  intro before result _
  rcases result with e | v
  · exact receiptError_granted ack message e
  · trivial

/-- A membership check that said yes, under any law that lets it be made. -/
theorem isConversationMember_admits (D : Deployment) (spelling : Text) {L : Law chatInterface Failure}
    (hL : ∀ before r, L before (.answered (.conversationFindOne (.string spelling) userId) r)) :
    (isConversationMember D (.string spelling) userId).Obeys L (fun after r =>
      before <:+ after ∧ (r = .ok true → Admitted userId spelling after)) before := by
  unfold isConversationMember
  split
  · refine ⟨List.suffix_refl _, fun h => ?_⟩
    cases h
  · refine obeys_bind.mpr (obeys_query.mpr fun r => ⟨hL _ r, ?_⟩)
    rcases r with e | _ | c
    · refine ⟨List.suffix_cons _ _, fun h => ?_⟩
      cases h
    · refine ⟨List.suffix_cons _ _, fun h => ?_⟩
      cases h
    · exact ⟨List.suffix_cons _ _, fun _ => ⟨c, .head _⟩⟩

theorem isConversationMember_granted (D : Deployment) (spelling : Text) :
    (isConversationMember D (.string spelling) userId).Obeys (granted userId) (fun after r =>
      before <:+ after ∧ (r = .ok true → Admitted userId spelling after)) before :=
  isConversationMember_admits D spelling fun _ _ => trivial

theorem Admitted.after {spelling : Text} {after : Deeds} (h : Admitted userId spelling before)
    (hafter : before <:+ after) : Admitted userId spelling after := by
  obtain ⟨c, hc⟩ := h
  exact ⟨c, hafter.subset hc⟩

theorem createConversation_granted (id : ObjectId) (input : CreateConversationInput) :
    (createConversation id userId input).Obeys (granted userId) (fun _ _ => True) before := by
  have hself : userId.toString ∈ fromSet (userId.toString :: input.members) :=
    mem_fromSet.mpr (.head _)
  have hcreate : ∀ before : Deeds, ((perform .now).bind fun now =>
      query (.conversationCreate id input.type input.name
        (fromSet (userId.toString :: input.members)) now)).Obeys (granted userId)
          (fun _ _ => True) before :=
    fun before => obeys_bind.mpr fun now => ⟨trivial, obeys_query.mpr fun r => ⟨hself, trivial⟩⟩
  unfold createConversation
  split
  · refine obeys_bind.mpr (obeys_query.mpr fun r => ⟨trivial, ?_⟩)
    rcases r with e | _ | existing
    · trivial
    · exact hcreate _
    · trivial
  · exact hcreate _

theorem messageDelivered_granted (D : Deployment) (socket : Socket) (payload ack : Value) :
    (messageDelivered D socket payload ack).Obeys (granted socket.userId) (fun _ _ => True) before := by
  have hlast : ∀ (result : StatusUpdateResult) (before : Deeds),
      ((perform (.emit result.conversationId (.messageDelivered result.message.id
        result.conversationId socket.userId))).bind fun _ => callAck ack { success := true }).Obeys
          (granted socket.userId) (fun _ _ => True) before :=
    fun result before => obeys_bind.mpr fun r => ⟨trivial, callAck_granted ack _⟩
  apply granted_caught
  refine obeys_bind.mpr (parseWith_obeys (fun input _ => ?_) fun _ => trivial)
  refine obeys_bind.mpr ?_
  show (markMessageDelivered D _ _).Obeys _ _ _
  unfold markMessageDelivered
  split
  · trivial
  · refine obeys_bind.mpr (obeys_query.mpr fun r => ⟨trivial, ?_⟩)
    rcases r with e | _ | m
    · trivial
    · trivial
    · refine obeys_bind.mpr ((isConversationMember_granted D _).mono fun after isMember h => ?_)
      obtain ⟨hafter, hmember⟩ := h
      rcases isMember with e | _ | _
      · trivial
      · trivial
      · show (if m.status = .sent then _ else _ : Chat StatusUpdateResult).Obeys _ _ _
        split
        · refine obeys_bind.mpr fun now => ⟨trivial, obeys_bind.mpr (obeys_query.mpr fun r => ⟨?_, ?_⟩)⟩
          · exact ⟨rfl, _, m, .tail _ (hafter.subset (.head _)), rfl, (hmember rfl).after (List.suffix_cons _ _)⟩
          · rcases r with e | _
            · trivial
            · exact hlast _ _
        · exact hlast _ _

theorem messageRead_granted (D : Deployment) (socket : Socket) (payload ack : Value) :
    (messageRead D socket payload ack).Obeys (granted socket.userId) (fun _ _ => True) before := by
  apply granted_caught
  refine obeys_bind.mpr (parseWith_obeys (fun input _ => ?_) fun _ => trivial)
  refine obeys_bind.mpr ?_
  show (markMessagesRead D _ _ _).Obeys _ _ _
  unfold markMessagesRead
  split
  · trivial
  · refine obeys_bind.mpr ((isConversationMember_granted D _).mono fun after isMember h => ?_)
    obtain ⟨-, hmember⟩ := h
    rcases isMember with e | _ | _
    · trivial
    · trivial
    · refine obeys_bind.mpr (obeys_query.mpr fun r => ⟨trivial, ?_⟩)
      rcases r with e | _ | m
      · trivial
      · trivial
      · refine obeys_bind.mpr (obeys_query.mpr fun r => ⟨trivial, ?_⟩)
        rcases r with e | ids
        · trivial
        · show (if ids.isEmpty then _ else _ : Chat MessagesRead).Obeys _ _ _
          cases ids with
          | nil => exact callAck_granted ack _
          | cons i rest =>
            refine obeys_bind.mpr fun now => ⟨trivial, obeys_bind.mpr (obeys_query.mpr fun r => ⟨?_, ?_⟩)⟩
            · exact ⟨_, _, .tail _ (.head _), (hmember rfl).after ⟨[_, _, _], rfl⟩⟩
            · rcases r with e | _
              · trivial
              · exact obeys_bind.mpr fun receivers => ⟨trivial, callAck_granted ack _⟩

theorem telling_granted {socket : Socket} {status : UserStatus} {before : Deeds}
    {d : Deed chatInterface Failure} (h : Attending.telling socket status before d) :
    granted socket.userId before d := by
  rcases d with ⟨a, r⟩ | ⟨q, r⟩
  · trivial
  · cases q with
    | userUpdate u status' lastSeen => exact h.1
    | _ => first | exact h.elim | trivial

end

/-- A handler that returns nothing. -/
theorem granted_none {userId : ObjectId} {p : Chat Unit}
    (h : p.Obeys (granted userId) (fun _ _ => True) []) :
    (p.bind fun _ => (.ret .none : Chat Response)).Obeys (granted userId) (fun _ _ => True) [] :=
  obeys_none (E := fun _ => True) h

/-- **No call writes without a grant**, whatever it is answered. -/
theorem body_granted (D : Deployment) (call : Call) :
    (Call.body D call).Obeys (granted call.user) (fun _ _ => True) [] := by
  have hfree : (∀ q, call.Asks q → q.free) →
      (Call.body D call).Obeys (granted call.user) (fun _ _ => True) [] :=
    fun h => granted_of_within ((body_within D call).mono (fun _ h => h) h)
  cases call with
  | connect socket =>
    refine granted_none (((onConnection_obeys socket).weaken fun before d h => ?_).mono
      fun _ _ _ => trivial)
    rcases d with ⟨a, r⟩ | ⟨q, r⟩
    · trivial
    · cases q with
      | userUpdate u status' lastSeen => exact h.1
      | _ => first | exact h.elim | trivial
  | disconnect socket =>
    refine granted_none (((onDisconnect_obeys socket).weaken fun before d h => ?_).mono
      fun _ _ _ => trivial)
    rcases d with ⟨a, r⟩ | ⟨q, r⟩
    · trivial
    · exact telling_granted h
  | event socket name args id =>
    cases name with
    | messageDelivered => exact granted_none (messageDelivered_granted D socket _ _)
    | messageRead => exact granted_none (messageRead_granted D socket _ _)
    | _ => exact hfree fun q h => by cases q <;> trivial
  | createConversation userId body id =>
    show (createConversationHandler id userId body).Obeys _ _ _
    unfold createConversationHandler
    split
    · trivial
    · refine obeys_bind.mpr ((createConversation_granted id _).mono fun before result _ => ?_)
      rcases result with e | c <;> trivial
  | _ => exact hfree fun q h => by cases q <;> trivial

end RealtimeChat
