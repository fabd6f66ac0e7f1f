import RealtimeChat.Conversations.OthersCalls
import RealtimeChat.Rooms.Confidential

/-! What the calls of others send to a user: nothing, where the conversation is not the user's.

Each call sends its event to one room. The sockets of a user are in rooms of the user's own
conversations only (`Private`), and what the call has written before it sends has put none of
them into another room. -/
namespace RealtimeChat
open Data (Text)
open Zod (Value)
open Async Async.System

/-- The sockets that an action has sent an event to. -/
def receiversOf : (a : Action) → a.Reply → List Socket
  | .emit _ _, receivers => receivers
  | .emitFrom _ _ _, receivers => receivers
  | _, _ => []

/-- No socket of the user is in the room. -/
def Shut (userId : ObjectId) (room : Text) (s : Server) : Prop :=
  ∀ socket, socket.userId = userId → (room, socket) ∉ s.rooms

section
variable (D : Deployment) (userId : ObjectId) {β γ : Type}

/-- Nothing that the program sends goes to a socket of the user. -/
abbrev Unheard (p : Chat β) (s : Server) : Prop :=
  (chat D).Performs (fun a r => ∀ socket ∈ receiversOf a r, socket.userId ≠ userId) p s

variable {D userId} {s t : Server} {room : Text}

theorem Private.shut (h : Private D s) (hvalid : ObjectId.isValid room = true)
    (hnot : ∀ c, ObjectId.cast room = some c → ¬ IsMember c userId s) : Shut userId room s := by
  intro socket hsocket hin
  rcases h _ hin with hown | hmember
  · have hroom : room = socket.id.text := hown
    rw [hroom, SocketId.isValid_text] at hvalid
    cases hvalid
  · obtain ⟨c, hcast, hmember⟩ := hmember
    exact hnot c hcast (hsocket ▸ hmember)

theorem Shut.agree (h : Shut userId room s) (hagree : Agree userId s t) : Shut userId room t :=
  fun socket hsocket hin => h socket hsocket ((hagree.rooms room socket hsocket).mp hin)

theorem Shut.emit (h : Shut userId room s) (event : ServerEvent) :
    Unheard D userId (perform (.emit room event)) s :=
  (performs_perform _).mpr fun socket hsocket hown => h socket hown (mem_inRoom hsocket)

theorem Shut.emitFrom (h : Shut userId room s) (sender : Socket) (event : ServerEvent) :
    Unheard D userId (perform (.emitFrom sender room event)) s :=
  (performs_perform _).mpr fun socket hsocket hown =>
    h socket hown (mem_inRoom (List.mem_of_mem_filter hsocket))

/-- The actions that send nothing. -/
def Action.Mute : Action → Prop
  | .emit _ _ | .emitFrom _ _ _ => False
  | _ => True

theorem Unheard.of_mute {B : Query → Prop} {p : Chat β} (hp : p.Within Action.Mute B) (s : Server) :
    Unheard D userId p s := by
  refine Performs.of_within hp (fun a r ha socket hsocket => ?_) s
  cases a with
  | emit room event => exact ha.elim
  | emitFrom sender room event => exact ha.elim
  | _ => cases hsocket

theorem callAck_unheard (ack : Value) (r : SocketAck) (s : Server) :
    Unheard D userId (callAck ack r) s :=
  Unheard.of_mute (callAck_within (B := fun _ => True) ack r trivial) s

theorem Unheard.parse {α : Type} {schema : Zod.Schema α} {v : Value} {f : α → Chat β}
    (hf : ∀ input, schema.parse v = .ok input → Unheard D userId (f input) s) :
    Unheard D userId ((parseWith schema v).bind f) s := by
  unfold parseWith
  split
  · exact hf _ (by assumption)
  · exact nofun

/-- The end of a handler that has an event to send. -/
theorem emitted_unheard (h : Shut userId room s) (event : ServerEvent) (ack : Value) (r : SocketAck) :
    Unheard D userId ((perform (.emit room event)).bind fun _ => callAck ack r) s :=
  (h.emit event).bind fun _ _ => callAck_unheard ack r _

/-! ### Handlers -/

variable {socket : Socket} {payload : Value} (ack : Value)

theorem receiptError_unheard (message : String) (error : Failure) (s : Server) :
    Unheard D userId (receiptError ack message error) s :=
  Unheard.of_mute (receiptError_within (B := fun _ => True) ack (fun _ _ => trivial) message error) s

theorem messageSend_unheard (hprivate : Private D s) (hother : socket.userId ≠ userId) {id : ObjectId}
    (hfresh : Fresh id s)
    (hc : ∀ input, sendMessageSchema.parse payload = .ok input →
      ∀ c, ObjectId.cast input.conversationId = some c → ¬ IsMember c userId s) :
    Unheard D userId (messageSend D id socket payload ack) s := by
  have hlimited := checkMessageRateLimit_unseen D hother s
  refine Performs.tryCatch ?_ fun error t => ?_
  · refine Performs.bind ((performs_perform _).mpr fun _ hsocket => by cases hsocket) fun allowed _ => ?_
    split
    · exact callAck_unheard ack _ _
    · apply Unheard.parse
      intro input hparse
      refine Performs.bind ?_ fun message _ => emitted_unheard ?_ _ ack _
      · exact Unheard.of_mute (createMessage_within (B := fun _ => True) id _ input trivial
          fun _ _ => trivial) _
      · have hshut := hprivate.shut (sendMessage_isValid hparse) (hc input hparse)
        refine hshut.agree (hlimited.trans (createMessage_service_unseen ?_ fun c hcast hmember => ?_))
        · exact hfresh.act D (.checkMessageRateLimit socket.userId)
        · exact hc input hparse c hcast ((hlimited.isMember c).mp hmember)
  · cases error <;> exact callAck_unheard ack _ t

/-- The room that `message:delivered` is sent to is the one of the message. -/
theorem markMessageDelivered_room {messageId : Text} {caller : ObjectId} {result : StatusUpdateResult}
    (h : ((chat D).alone (markMessageDelivered D messageId caller) s).1 = .ok result) :
    ∃ m ∈ s.messages.docs, ObjectId.cast messageId = some m.id ∧
      result.conversationId = m.conversationId.toString := by
  cases hid : ObjectId.cast messageId with
  | none =>
    rw [markMessageDelivered_invalid D hid] at h
    cases h
  | some id =>
    rw [markMessageDelivered_alone D hid] at h
    cases hfind : s.messages.find id with
    | none =>
      rw [hfind] at h
      cases h
    | some m =>
      obtain ⟨hm, rfl⟩ := Data.Collection.find_eq_some.mp hfind
      rw [hfind] at h
      dsimp only at h
      split at h
      · cases h
      · split at h <;> cases h <;> exact ⟨m, hm, rfl, rfl⟩

theorem messageDelivered_unheard (hprivate : Private D s) (hlinked : Linked s)
    (hm : ∀ input, messageDeliveredSchema.parse payload = .ok input → ∀ m ∈ s.messages.docs,
      ObjectId.cast input.messageId = some m.id → ¬ IsMember m.conversationId userId s) :
    Unheard D userId (messageDelivered D socket payload ack) s := by
  refine Performs.tryCatch (Unheard.parse fun input hparse => ?_) fun error t =>
    receiptError_unheard ack _ error t
  refine Performs.bind ?_ fun result hresult => emitted_unheard ?_ _ ack _
  · exact Unheard.of_mute (markMessageDelivered_within (B := fun _ => True) D _ _ trivial fun _ _ => trivial) _
  · obtain ⟨m, hstored, hcast, hroom⟩ := markMessageDelivered_room hresult
    have hshut : Shut userId m.conversationId.toString s := by
      refine hprivate.shut m.conversationId.isValid_toString fun c hc => ?_
      obtain rfl := Option.some.inj (hc.symm.trans m.conversationId.cast_toString)
      exact hm input hparse m hstored hcast
    rw [hroom]
    exact hshut.agree (markMessageDelivered_unseen hlinked (hm input hparse))

/-- The room that `message:read` is sent to is the one that was asked for. -/
theorem markMessagesRead_room {conversationId upToMessageId : Text} {caller : ObjectId}
    {result : MessagesRead}
    (h : ((chat D).alone (markMessagesRead D conversationId upToMessageId caller) s).1 = .ok result) :
    result.conversationId = conversationId ∧ ObjectId.isValid conversationId = true := by
  cases hid : ObjectId.cast conversationId with
  | none =>
    rw [markMessagesRead_invalid D (.inl hid)] at h
    cases h
  | some id =>
    cases hupTo : ObjectId.cast upToMessageId with
    | none =>
      rw [markMessagesRead_invalid D (.inr hupTo)] at h
      cases h
    | some upTo =>
      rw [markMessagesRead_alone D hid hupTo] at h
      split at h
      · cases h
      · split at h
        · cases h
        · dsimp only at h
          split at h <;> cases h <;> exact ⟨rfl, ObjectId.isValid_of_cast hid⟩

theorem messageRead_unheard (hprivate : Private D s) (hlinked : Linked s)
    (hc : ∀ input, messageReadSchema.parse payload = .ok input →
      ∀ c, ObjectId.cast input.conversationId = some c → ¬ IsMember c userId s) :
    Unheard D userId (messageRead D socket payload ack) s := by
  refine Performs.tryCatch (Unheard.parse fun input hparse => ?_) fun error t =>
    receiptError_unheard ack _ error t
  refine Performs.bind ?_ fun result hresult => ?_
  · exact Unheard.of_mute (markMessagesRead_within (B := fun _ => True) D _ _ _ trivial fun _ _ => trivial) _
  · split
    · exact callAck_unheard ack _ _
    · apply emitted_unheard
      obtain ⟨hroom, hvalid⟩ := markMessagesRead_room hresult
      have hshut := hprivate.shut hvalid (hc input hparse)
      rw [hroom]
      exact hshut.agree (markMessagesRead_unseen hlinked (hc input hparse))

theorem broadcastTyping_unheard (hprivate : Private D s) (signal : TypingSignal)
    (hc : ∀ input, typingSchema.parse payload = .ok input →
      ∀ c, ObjectId.cast input.conversationId = some c → ¬ IsMember c userId s) :
    Unheard D userId (broadcastTyping D socket signal payload) s := by
  unfold broadcastTyping
  split
  · exact nofun
  · rename_i input hparse
    have hcheck := isConversationMember_within (A := Action.Mute) (B := Server.Reads) D
      (.string input.conversationId) socket.userId trivial
    refine Performs.bind (Unheard.of_mute hcheck s) fun isMember _ => ?_
    split
    · exact nofun
    · have hshut := hprivate.shut (typing_isValid hparse) (hc input hparse)
      have hidle : Unseen D userId (isConversationMember D (.string input.conversationId)
          socket.userId) s :=
        .of_idle (isConversationMember_within D _ _ trivial) s
      exact ((hshut.agree hidle).emitFrom socket _).bind fun _ _ => nofun

end

end RealtimeChat
