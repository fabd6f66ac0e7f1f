import RealtimeChat.Handlers.Lawful

/-! What a receipt is told as.

The laws of `Lawful.lean` say little of `message:delivered`, and nothing of the name
under which a `message:read` is broadcast. The laws here say both: a receipt that has
changed a message is broadcast, to the room of the message's conversation or to the one
that the request has named. -/
namespace RealtimeChat
open Data (Text)
open Zod (Value)
open Async Async.System
open Async.Program

/-! ### `message:delivered` -/

namespace Delivering
variable (userId : ObjectId)

def law : Law chatInterface Failure
  | before, .answered (.messageSave id status _) _ => ∃ messageId m,
    .answered (.messageFindById messageId) (.ok (some m)) ∈ before ∧ m.status = .sent ∧
      id = m.id ∧ status = .delivered
  | before, .acted (.emit room event) _ => ∃ messageId m,
    .answered (.messageFindById messageId) (.ok (some m)) ∈ before ∧
      room = m.conversationId.toString ∧ event = .messageDelivered m.id room userId ∧
      (m.status = .sent → ∃ now, .answered (.messageSave m.id .delivered now) (.ok ()) ∈ before)
  | _, .answered (.messageFindById _) _ => True
  | _, .answered (.conversationFindOne _ _) _ => True
  | _, .acted .now _ => True
  | _, .acted (.ack _) _ => True
  | _, _ => False

/-- What has been saved has been told. -/
def told (before : Deeds) : Prop :=
  ∀ id status now, .answered (.messageSave id status now) (.ok ()) ∈ before →
    ∃ messageId m receivers, .answered (.messageFindById messageId) (.ok (some m)) ∈ before ∧
      m.id = id ∧ .acted (.emit m.conversationId.toString
        (.messageDelivered id m.conversationId.toString userId)) receivers ∈ before

variable {userId}

theorem told_acted {before : Deeds} (h : told userId before) (a : Action) (r : a.Reply) :
    told userId (.acted a r :: before) := by
  intro id status now hmem
  obtain ⟨messageId, m, receivers, hfind, hid, hemit⟩ :=
    h id status now ((List.mem_cons.mp hmem).resolve_left nofun)
  exact ⟨messageId, m, receivers, .tail _ hfind, hid, .tail _ hemit⟩

end Delivering

/-! ### `message:read` -/

namespace Naming
variable (userId : ObjectId) (payload : Value)

def law : Law chatInterface Failure
  | _, .answered (.messageFindUnread spelling _ _) _ =>
    ∃ input, messageReadSchema.parse payload = .ok input ∧ spelling = input.conversationId
  | before, .answered (.messageUpdateMany ids _) _ => ∃ input reader upTo,
    messageReadSchema.parse payload = .ok input ∧
      .answered (.messageFindUnread input.conversationId reader upTo) (.ok ids) ∈ before
  | before, .acted (.emit room event) _ => ∃ input ids now,
    messageReadSchema.parse payload = .ok input ∧ room = input.conversationId ∧
      event = .messageRead room ids userId ∧ .answered (.messageUpdateMany ids now) (.ok ()) ∈ before
  | _, .answered (.conversationFindOne _ _) _ => True
  | _, .answered (.messageFindOne _ _) _ => True
  | _, .acted .now _ => True
  | _, .acted (.ack _) _ => True
  | _, _ => False

/-- What has been updated has been told under the name that the request gives. -/
def told (before : Deeds) : Prop :=
  ∀ ids now, .answered (.messageUpdateMany ids now) (.ok ()) ∈ before →
    ∃ input receivers, messageReadSchema.parse payload = .ok input ∧
      .acted (.emit input.conversationId (.messageRead input.conversationId ids userId))
        receivers ∈ before

variable {userId payload}

theorem told_acted {before : Deeds} (h : told userId payload before) (a : Action) (r : a.Reply) :
    told userId payload (.acted a r :: before) := by
  intro ids now hmem
  obtain ⟨input, receivers, hparse, hemit⟩ := h ids now ((List.mem_cons.mp hmem).resolve_left nofun)
  exact ⟨input, receivers, hparse, .tail _ hemit⟩

end Naming

/-- The frame of both handlers: whatever the `try` block comes to, an answer follows. -/
theorem receipt_caught {α : Type} {L : Law chatInterface Failure} {E : Deeds → Prop}
    (hlaw : ∀ before r, L before (.acted (.ack r) ()))
    (hend : ∀ before, E before → ∀ r : SocketAck, E (.acted (.ack r) () :: before))
    (ack : Value) (message : String) {p : Chat α} {next : α → Chat Unit} {before : Deeds}
    (h : p.Obeys L (fun before result => match result with
      | .ok v => (next v).Obeys L (fun before _ => E before) before
      | .error _ => E before) before) :
    ((p.bind next).tryCatch (receiptError ack message)).Obeys L (fun before _ => E before) before := by
  have hcatch : ∀ e before, E before →
      (receiptError ack message e).Obeys L (fun before _ => E before) before := fun e before h =>
    receiptError_obeys (fun before r _ => hlaw before r) hend h ack message e
  apply obeys_caught
  refine obeys_bind.mpr (h.mono fun before result h => ?_)
  rcases result with e | v
  · exact ⟨h, fun e _ => hcatch e before h⟩
  · exact (show (next v).Obeys L (fun before _ => E before) before from h).mono
      fun before result h => ⟨h, fun e _ => hcatch e before h⟩

theorem isConversationMember_obeys (D : Deployment) {v : Value} {userId : ObjectId}
    {L : Law chatInterface Failure} {E : Deeds → Except Failure Bool → Prop} {before : Deeds}
    (hlaw : ∀ r, L before (.answered (.conversationFindOne v userId) r)) (hinvalid : E before (.ok false))
    (herror : ∀ e, E (.answered (.conversationFindOne v userId) (.error e) :: before) (.error e))
    (hanswer : ∀ c, E (.answered (.conversationFindOne v userId) (.ok c) :: before) (.ok c.isSome)) :
    (isConversationMember D v userId).Obeys L E before := by
  unfold isConversationMember
  split
  · exact hinvalid
  · refine obeys_bind.mpr (obeys_query.mpr fun r => ⟨hlaw r, ?_⟩)
    rcases r with e | c
    · exact herror e
    · exact hanswer c

theorem messageDelivered_told (D : Deployment) (socket : Socket) (payload ack : Value) :
    (messageDelivered D socket payload ack).Obeys (Delivering.law socket.userId)
      (fun before _ => Delivering.told socket.userId before) [] := by
  refine receipt_caught (E := Delivering.told socket.userId) (fun _ _ => trivial)
    (fun _ h _ => Delivering.told_acted h _ _) ack _ ?_
  have hlast : ∀ {before : Deeds}, Delivering.told socket.userId before →
      (callAck ack { success := true }).Obeys (Delivering.law socket.userId)
        (fun before _ => Delivering.told socket.userId before) before := fun h =>
    (callAck_obeys ack trivial h (Delivering.told_acted h _ _)).mono fun _ _ h => h.1
  have hnone : ∀ {before : Deeds},
      (∀ id status now r, .answered (.messageSave id status now) r ∉ before) →
      Delivering.told socket.userId before := fun h id status now hmem => absurd hmem (h _ _ _ _)
  refine parseWith_obeys (fun input _ => ?_) fun errors => hnone (by simp)
  refine obeys_bind.mpr ?_
  unfold markMessageDelivered
  split
  · exact hnone (by simp)
  · refine obeys_bind.mpr (obeys_query.mpr fun r => ⟨trivial, ?_⟩)
    rcases r with e | _ | m
    · exact hnone (by simp)
    · exact hnone (by simp)
    · refine obeys_bind.mpr (isConversationMember_obeys D (fun _ => trivial) (hnone (by simp))
        (fun e => hnone (by simp)) fun c => ?_)
      cases c with
      | none => exact hnone (by simp)
      | some c =>
        show (if m.status = .sent then _ else _ : Chat StatusUpdateResult).Obeys _ _ _
        split
        · rename_i hsent
          refine obeys_bind.mpr fun now => ⟨trivial, obeys_bind.mpr (obeys_query.mpr fun r => ?_)⟩
          refine ⟨⟨_, m, .tail _ (.tail _ (.head _)), hsent, rfl, rfl⟩, ?_⟩
          rcases r with e | _
          · intro id status now hmem
            simp at hmem
          · refine obeys_bind.mpr fun receivers => ⟨?_, hlast ?_⟩
            · exact ⟨_, m, .tail _ (.tail _ (.tail _ (.head _))), rfl, rfl, fun _ => ⟨now, .head _⟩⟩
            · intro id status now hmem
              obtain ⟨rfl, -⟩ : id = m.id ∧ _ := by simpa using hmem
              exact ⟨_, m, receivers, .tail _ (.tail _ (.tail _ (.tail _ (.head _)))), rfl, .head _⟩
        · rename_i hsent
          refine obeys_bind.mpr fun receivers => ⟨?_, hlast (hnone (by simp))⟩
          exact ⟨_, m, .tail _ (.head _), rfl, rfl, fun h => absurd h hsent⟩

theorem messageRead_told (D : Deployment) (socket : Socket) (payload ack : Value) :
    (messageRead D socket payload ack).Obeys (Naming.law socket.userId payload)
      (fun before _ => Naming.told socket.userId payload before) [] := by
  refine receipt_caught (E := Naming.told socket.userId payload) (fun _ _ => trivial)
    (fun _ h _ => Naming.told_acted h _ _) ack _ ?_
  have hlast : ∀ {before : Deeds}, Naming.told socket.userId payload before →
      (callAck ack { success := true }).Obeys (Naming.law socket.userId payload)
        (fun before _ => Naming.told socket.userId payload before) before := fun h =>
    (callAck_obeys ack trivial h (Naming.told_acted h _ _)).mono fun _ _ h => h.1
  have hnone : ∀ {before : Deeds},
      (∀ ids now, .answered (.messageUpdateMany ids now) (.ok ()) ∉ before) →
      Naming.told socket.userId payload before := fun h ids now hmem => absurd hmem (h _ _)
  refine parseWith_obeys (fun input hparse => ?_) fun errors => hnone (by simp)
  refine obeys_bind.mpr ?_
  unfold markMessagesRead
  split
  · exact hnone (by simp)
  · refine obeys_bind.mpr (isConversationMember_obeys D (fun _ => trivial) (hnone (by simp))
      (fun e => hnone (by simp)) fun c => ?_)
    cases c with
    | none => exact hnone (by simp)
    | some c =>
      refine obeys_bind.mpr (obeys_query.mpr fun r => ⟨trivial, ?_⟩)
      rcases r with e | _ | m
      · exact hnone (by simp)
      · exact hnone (by simp)
      · refine obeys_bind.mpr (obeys_query.mpr fun r => ⟨⟨input, hparse, rfl⟩, ?_⟩)
        rcases r with e | ids
        · exact hnone (by simp)
        · show (if ids.isEmpty then _ else _ : Chat MessagesRead).Obeys _ _ _
          cases ids with
          | nil => exact hlast (hnone (by simp))
          | cons i rest =>
            refine obeys_bind.mpr fun now => ⟨trivial, obeys_bind.mpr (obeys_query.mpr fun r => ?_)⟩
            refine ⟨⟨input, _, _, hparse, .tail _ (.head _)⟩, ?_⟩
            rcases r with e | _
            · exact hnone (by simp)
            · refine obeys_bind.mpr fun receivers => ⟨?_, hlast ?_⟩
              · exact ⟨input, i :: rest, now, hparse, rfl, rfl, .head _⟩
              · intro ids now hmem
                obtain ⟨rfl, -⟩ : ids = i :: rest ∧ _ := by simpa using hmem
                exact ⟨input, receivers, hparse, .head _⟩

/-! ### Every call -/

def Call.receipt : Call → Law chatInterface Failure
  | .event socket .messageDelivered _ _ => Delivering.law socket.userId
  | .event socket .messageRead args _ => Naming.law socket.userId (args.getD 0 .undefined)
  | call => Tabled call.Acts call.Asks

def Call.told : Call → Deeds → Prop
  | .event socket .messageDelivered _ _ => Delivering.told socket.userId
  | .event socket .messageRead args _ => Naming.told socket.userId (args.getD 0 .undefined)
  | _ => fun _ => True

theorem body_told (D : Deployment) (call : Call) :
    (Call.body D call).Obeys call.receipt (fun before _ => call.told before) [] := by
  cases call with
  | event socket name args id =>
    cases name with
    | messageDelivered => exact obeys_none (messageDelivered_told D socket _ _)
    | messageRead => exact obeys_none (messageRead_told D socket _ _)
    | _ => exact body_tabled D _
  | _ => exact body_tabled D _

/-- Every task has told what it has changed, and will go on so. -/
abbrev Telling (c : Config chatInterface Server Failure Call Response) : Prop :=
  Obedient Call.receipt (fun call before _ => call.told before) c

theorem telling_run (D : Deployment) (s : Server) (moves : List (Move Call)) :
    Telling ((chat D).run (Config.start s) moves) :=
  (Obedient.start s).run (chat D) (body_told D) moves

end RealtimeChat
