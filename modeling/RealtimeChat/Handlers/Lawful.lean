import RealtimeChat.Async.Deeds
import RealtimeChat.Handlers.Footprint

/-! What each call does, and in which order.

The tables of `Footprint.lean` say which actions and queries a call may come to.
The laws here say after what. A law is read off the handler, branch by branch, with
all that the task has done before; `body_obeys` checks every law against the
program, and `lawful_run` makes it a fact about every run. -/
namespace RealtimeChat
open Data (Text)
open Zod (Value)
open Async Async.System
open Async.Program

/-- What a task of the server has done, latest first. -/
abbrev Deeds := List (Deed chatInterface Failure)

/-- Nothing is known but the tables. -/
def Tabled (A : Action → Prop) (B : Query → Prop) : Law chatInterface Failure
  | _, .acted a _ => A a
  | _, .answered q _ => B q

/-! ### `message:send` -/

namespace Sending
variable (userId : ObjectId) (input : SendMessageInput) (id : ObjectId)

/-- The rate limit has let the message through. -/
def admitted : Deeds := [.acted (.checkMessageRateLimit userId) true]

/-- The conversation has been found, with the sender among its members. -/
def found (c : Conversation) : Deeds :=
  .answered (.conversationFindOne (.string input.conversationId) userId) (.ok (some c)) ::
    admitted userId

/-- The insert has been issued at `t`, and carried out. -/
def created (c : Conversation) (t : Nat) (m : Message) : Deeds :=
  .answered (.messageCreate id input.conversationId userId input.text t) (.ok m) ::
    .acted .now t :: found userId input c

/-- The conversation points to the message. -/
def saved (c : Conversation) (t : Nat) (m : Message) (t' : Nat) : Deeds :=
  .answered (.conversationSave c.id m.id t') (.ok ()) :: .acted .now t' ::
    created userId input id c t m

def populated (c : Conversation) (t : Nat) (m : Message) (t' : Nat) (sender : Option Sender) :
    Deeds :=
  .answered (.messagePopulate m.senderId) (.ok sender) :: saved userId input id c t m t'

/-- `message:new` has been emitted. -/
def announced (c : Conversation) (t : Nat) (m : Message) (t' : Nat) (sender : Option Sender)
    (receivers : List Socket) : Deeds :=
  .acted (.emit input.conversationId (.messageNew (toSocketPayload ⟨m, sender⟩))) receivers ::
    populated userId input id c t m t' sender

/-- The latest deed is one after which the message is refused. -/
def Refused : Deeds → Prop
  | .acted (.checkMessageRateLimit _) _ :: _ => True
  | .answered (.conversationFindOne _ _) _ :: _ => True
  | .answered (.messageCreate _ _ _ _ _) (.error _) :: _ => True
  | .answered (.conversationSave _ _ _) (.error _) :: _ => True
  | .answered (.messagePopulate _) (.error _) :: _ => True
  | _ => False

def law (payload : Value) : Law chatInterface Failure
  | before, .acted (.checkMessageRateLimit u) _ => before = [] ∧ u = userId
  | before, .answered (.conversationFindOne v u) _ => before = admitted userId ∧
    ∃ input, sendMessageSchema.parse payload = .ok input ∧ v = .string input.conversationId ∧
      u = userId
  | before, .acted .now _ => ∃ input, sendMessageSchema.parse payload = .ok input ∧
    ((∃ c, before = found userId input c) ∨ ∃ c t m, before = created userId input id c t m)
  | before, .answered (.messageCreate k spelling u text t) _ =>
    ∃ input c, sendMessageSchema.parse payload = .ok input ∧ k = id ∧
      spelling = input.conversationId ∧ u = userId ∧ text = input.text ∧
      before = .acted .now t :: found userId input c
  | before, .answered (.conversationSave k lastMessage t') _ =>
    ∃ input c t m, sendMessageSchema.parse payload = .ok input ∧ k = c.id ∧ lastMessage = m.id ∧
      before = .acted .now t' :: created userId input id c t m
  | before, .answered (.messagePopulate u) _ =>
    ∃ input c t m t', sendMessageSchema.parse payload = .ok input ∧ u = m.senderId ∧
      before = saved userId input id c t m t'
  | before, .acted (.emit room event) _ =>
    ∃ input c t m t' sender, sendMessageSchema.parse payload = .ok input ∧
      room = input.conversationId ∧ event = .messageNew (toSocketPayload ⟨m, sender⟩) ∧
      before = populated userId input id c t m t' sender
  | before, .acted (.ack response) _ =>
    (response.success = false ∧ response.data = none ∧ Refused before) ∨
    ∃ input c t m t' sender receivers, sendMessageSchema.parse payload = .ok input ∧
      response = { success := true, data := some (toSocketPayload ⟨m, sender⟩) } ∧
      before = announced userId input id c t m t' sender receivers
  | _, _ => False

/-- A message that has been stored has been made the last message, or that has failed. -/
def ending (before : Deeds) : Prop :=
  ∀ k spelling u text t m, .answered (.messageCreate k spelling u text t) (.ok m) ∈ before →
    ∃ c t' r, .answered (.conversationSave c m.id t') r ∈ before

end Sending

/-- An answer to the client. It can only fail if what stands in the place of the callback
can never be called. -/
theorem callAck_obeys {L : Law chatInterface Failure} {E : Deeds → Prop} {before : Deeds}
    (ack : Value) {r : SocketAck} (hlaw : L before (.acted (.ack r) ())) (hend : E before)
    (hend' : E (.acted (.ack r) () :: before)) :
    (callAck ack r).Obeys L (fun before result => E before ∧ ∀ e, result = .error e →
      e = .typeError ∧ ∀ r', callAck ack r' = .raise .typeError) before := by
  cases ack with
  | undefined => exact ⟨hend, nofun⟩
  | null => exact ⟨hend, nofun⟩
  | function => exact fun _ => ⟨hlaw, hend', nofun⟩
  | _ =>
    refine ⟨hend, fun e he => ⟨?_, fun _ => rfl⟩⟩
    cases he
    rfl

theorem parseWith_obeys {α : Type} {schema : Zod.Schema α} {v : Value}
    {L : Law chatInterface Failure} {E : Deeds → Except Failure α → Prop} {before : Deeds}
    (hok : ∀ input, schema.parse v = .ok input → E before (.ok input))
    (herror : ∀ errors, E before (.error (.zod errors))) :
    (parseWith schema v).Obeys L E before := by
  unfold parseWith
  split
  · rename_i input h
    exact hok input h
  · exact herror _

/-- Where each way out of the `try` block ends well, and so does the `catch` block on it. -/
theorem obeys_caught {α : Type} {L : Law chatInterface Failure} {E : Deeds → Prop} {before : Deeds}
    {p : Chat α} {f : Failure → Chat α} (h : p.Obeys L (fun before result => E before ∧
      ∀ e, result = .error e → (f e).Obeys L (fun before _ => E before) before) before) :
    (p.tryCatch f).Obeys L (fun before _ => E before) before := by
  apply obeys_tryCatch.mpr
  apply h.mono
  intro before result h
  rcases result with e | v
  · exact h.2 e rfl
  · exact h.1

/-- All that counts of the `catch` block is that it answers with some message. -/
theorem obeys_refused {L : Law chatInterface Failure} {E : Deeds → Prop} {before : Deeds}
    {p : Chat Unit} {f : Failure → Chat Unit} (ack : Value)
    (hf : ∀ e, ∃ message, f e = callAck ack { success := false, message := some message })
    (h : ∀ f : Failure → Chat Unit,
      (∀ e, ∃ message, f e = callAck ack { success := false, message := some message }) →
      p.Obeys L (fun before result => E before ∧
        ∀ e, result = .error e → (f e).Obeys L (fun before _ => E before) before) before) :
    (p.tryCatch f).Obeys L (fun before _ => E before) before :=
  obeys_caught (h f hf)

namespace Sending
variable {userId id : ObjectId} {input : SendMessageInput} {payload : Value} {before : Deeds}

theorem ending_acted (h : ending before) (a : Action) (r : a.Reply) :
    ending (.acted a r :: before) := by
  intro k spelling u text t m hmem
  rcases List.mem_cons.mp hmem with heq | hmem
  · cases heq
  · obtain ⟨c, t', r', hsave⟩ := h k spelling u text t m hmem
    exact ⟨c, t', r', .tail _ hsave⟩

/-- The message that the task has stored has been saved, and no other follows. -/
theorem ending_saved {c : Conversation} {t t' : Nat} {m : Message} {r : Except Failure Unit} {new : Deeds}
    (hnew : ∀ k spelling u text t m, .answered (.messageCreate k spelling u text t) (.ok m) ∉ new) :
    ending (new ++ .answered (.conversationSave c.id m.id t') r :: .acted .now t' ::
      created userId input id c t m) := by
  intro k spelling u text t₁ m₁ hmem
  refine ⟨c.id, t', r, ?_⟩
  rcases List.mem_append.mp hmem with hmem | hmem
  · exact absurd hmem (hnew _ _ _ _ _ _)
  · simp only [created, found, admitted, List.mem_cons, reduceCtorEq, false_or, Deed.answered.injEq,
      Query.messageCreate.injEq, List.not_mem_nil, or_false, false_and] at hmem
    obtain ⟨⟨rfl, rfl, rfl, rfl, rfl⟩, hm⟩ := hmem
    cases eq_of_heq hm
    exact List.mem_append_right _ (.head _)

/-- What `createMessage` has done, when it returns and when it throws. -/
theorem createMessage_obeys (hparse : sendMessageSchema.parse payload = .ok input) :
    (createMessage id userId input).Obeys (law userId id payload) (fun before result =>
      (∀ message, result = .ok message → ∃ c t m t' sender, message = ⟨m, sender⟩ ∧
        before = populated userId input id c t m t' sender) ∧
      ∀ e, result = .error e → Refused before ∧ ending before) (admitted userId) := by
  have hthrown : ∀ {before : Deeds} {result : Except Failure PopulatedMessage} {e : Failure},
      result = .error e → Refused before → ending before →
      (∀ message, result = .ok message → ∃ c t m t' sender, message = ⟨m, sender⟩ ∧
        before = populated userId input id c t m t' sender) ∧
      ∀ e, result = .error e → Refused before ∧ ending before := by
    intro before result e hresult hrefused hend
    refine ⟨fun message hok => ?_, fun _ _ => ⟨hrefused, hend⟩⟩
    rw [hresult] at hok
    cases hok
  apply obeys_bind.mpr
  apply obeys_query.mpr
  intro r
  refine ⟨⟨rfl, input, hparse, rfl, rfl⟩, ?_⟩
  have hnone : ∀ r, ending (.answered (.conversationFindOne (.string input.conversationId) userId) r ::
      admitted userId) := by
    simp [ending, admitted]
  rcases r with e | _ | c
  · exact hthrown rfl trivial (hnone _)
  · exact hthrown rfl trivial (hnone _)
  · apply obeys_bind.mpr
    intro t
    refine ⟨⟨input, hparse, .inl ⟨c, rfl⟩⟩, ?_⟩
    apply obeys_bind.mpr
    apply obeys_query.mpr
    intro r
    refine ⟨⟨input, c, hparse, rfl, rfl, rfl, rfl, rfl⟩, ?_⟩
    rcases r with e | m
    · exact hthrown rfl trivial (by simp [ending, admitted])
    · apply obeys_bind.mpr
      intro t'
      refine ⟨⟨input, hparse, .inr ⟨c, t, m, rfl⟩⟩, ?_⟩
      apply obeys_bind.mpr
      apply obeys_query.mpr
      intro r
      refine ⟨⟨input, c, t, m, hparse, rfl, rfl, rfl⟩, ?_⟩
      rcases r with e | _
      · exact hthrown rfl trivial (@ending_saved _ _ _ c t t' m _ [] (by simp))
      · apply obeys_bind.mpr
        apply obeys_query.mpr
        intro r
        refine ⟨⟨input, c, t, m, t', hparse, rfl, rfl⟩, ?_⟩
        rcases r with e | sender
        · exact hthrown rfl trivial (@ending_saved _ _ _ c t t' m _ [_] (by simp))
        · refine ⟨fun message hok => ?_, nofun⟩
          cases hok
          exact ⟨c, t, m, t', sender, rfl, rfl⟩

end Sending

theorem messageSend_obeys (D : Deployment) (id : ObjectId) (socket : Socket) (payload ack : Value) :
    (messageSend D id socket payload ack).Obeys (Sending.law socket.userId id payload)
      (fun before _ => Sending.ending before) [] := by
  unfold messageSend
  refine obeys_refused ack (fun e => ?_) fun f hanswers => ?_
  · cases e <;> exact ⟨_, rfl⟩
  -- The ways out: an error after which the message is refused, and an answer to the client.
  have hrefuse : ∀ {α : Type} {before} (e : Failure) (result : Except Failure α), result = .error e →
      Sending.Refused before → Sending.ending before → Sending.ending before ∧
        ∀ e, result = .error e → (f e).Obeys (Sending.law socket.userId id payload)
          (fun before _ => Sending.ending before) before := by
    intro α before e result _ hrefused hend
    refine ⟨hend, fun e' _ => ?_⟩
    obtain ⟨message, hf⟩ := hanswers e'
    rw [hf]
    exact (callAck_obeys ack (.inl ⟨rfl, rfl, hrefused⟩) hend (Sending.ending_acted hend _ _)).mono
      fun _ _ h => h.1
  have hanswer : ∀ {before} (r : SocketAck), Sending.law socket.userId id payload before
      (.acted (.ack r) ()) → Sending.ending before →
      (callAck ack r).Obeys (Sending.law socket.userId id payload) (fun before result =>
        Sending.ending before ∧ ∀ e, result = .error e →
          (f e).Obeys (Sending.law socket.userId id payload)
            (fun before _ => Sending.ending before) before) before := by
    intro before r hlaw hend
    apply (callAck_obeys ack hlaw hend (Sending.ending_acted hend _ _)).mono
    intro before result h
    refine ⟨h.1, fun e he => ?_⟩
    obtain ⟨message, hf⟩ := hanswers e
    rw [hf, (h.2 e he).2]
    exact h.1
  apply obeys_bind.mpr
  intro allowed
  refine ⟨⟨rfl, rfl⟩, ?_⟩
  cases allowed with
  | false => exact hanswer _ (.inl ⟨rfl, rfl, trivial⟩) (by simp [Sending.ending])
  | true =>
    apply obeys_bind.mpr
    apply parseWith_obeys
    · intro input hparse
      apply obeys_bind.mpr
      apply (Sending.createMessage_obeys hparse).mono
      intro before result h
      rcases result with e | message
      · obtain ⟨hrefused, hend⟩ := h.2 e rfl
        exact hrefuse e _ rfl hrefused hend
      · obtain ⟨c, t, m, t', sender, rfl, rfl⟩ := h.1 message rfl
        apply obeys_bind.mpr
        intro receivers
        refine ⟨⟨input, c, t, m, t', sender, hparse, rfl, rfl, rfl⟩, ?_⟩
        apply hanswer
        · exact .inr ⟨input, c, t, m, t', sender, receivers, hparse, rfl, rfl⟩
        · exact Sending.ending_acted (@Sending.ending_saved _ _ _ c t t' m _ [_] (by simp)) _ _
    · intro errors
      exact hrefuse _ _ rfl trivial (by simp [Sending.ending])

/-! ### `message:read` -/

namespace Reading
variable (userId : ObjectId)

def law : Law chatInterface Failure
  | before, .answered (.conversationFindOne _ _) _ => before = []
  | before, .answered (.messageFindOne _ _) _ =>
    ∃ v u c, before = [.answered (.conversationFindOne v u) (.ok (some c))]
  | before, .answered (.messageFindUnread _ _ _) _ =>
    ∃ id c m rest, before = .answered (.messageFindOne id c) (.ok (some m)) :: rest
  | before, .acted .now _ => ∃ c u t ids rest, ids ≠ [] ∧
    before = .answered (.messageFindUnread c u t) (.ok ids) :: rest
  | before, .answered (.messageUpdateMany ids now) _ => ∃ c u t rest, ids ≠ [] ∧
    before = .acted .now now :: .answered (.messageFindUnread c u t) (.ok ids) :: rest
  | before, .acted (.emit _ event) _ => ∃ c ids now rest, event = .messageRead c ids userId ∧
    before = .answered (.messageUpdateMany ids now) (.ok ()) :: rest
  | _, .acted (.ack response) _ => response.data = none
  | _, _ => False

/-- What has been updated has been told. -/
def reported (before : Deeds) : Prop :=
  ∀ ids now, .answered (.messageUpdateMany ids now) (.ok ()) ∈ before →
    ∃ room c r, .acted (.emit room (.messageRead c ids userId)) r ∈ before

variable {userId}

theorem reported_acted {before : Deeds} (h : reported userId before) (a : Action) (r : a.Reply) :
    reported userId (.acted a r :: before) := by
  intro ids now hmem
  obtain ⟨room, c, receivers, hemit⟩ := h ids now ((List.mem_cons.mp hmem).resolve_left nofun)
  exact ⟨room, c, receivers, .tail _ hemit⟩

end Reading

theorem receiptError_obeys {L : Law chatInterface Failure} {E : Deeds → Prop} {before : Deeds}
    (hlaw : ∀ before (r : SocketAck), r.data = none → L before (.acted (.ack r) ()))
    (hend : ∀ before, E before → ∀ r : SocketAck, E (.acted (.ack r) () :: before)) (h : E before)
    (ack : Value) (message : String) (e : Failure) :
    (receiptError ack message e).Obeys L (fun before _ => E before) before := by
  have hack : ∀ r : SocketAck, r.data = none →
      (callAck ack r).Obeys L (fun before _ => E before) before := fun r hr =>
    (callAck_obeys ack (hlaw before r hr) h (hend before h r)).mono fun _ _ h => h.1
  cases e <;> exact hack _ rfl

theorem messageRead_obeys (D : Deployment) (socket : Socket) (payload ack : Value) :
    (messageRead D socket payload ack).Obeys (Reading.law socket.userId)
      (fun before _ => Reading.reported socket.userId before) [] := by
  have hcatch : ∀ e before, Reading.reported socket.userId before →
      (receiptError ack "Failed to mark messages read" e).Obeys (Reading.law socket.userId)
        (fun before _ => Reading.reported socket.userId before) before :=
    fun e before h => receiptError_obeys (E := Reading.reported socket.userId) (fun _ _ h => h)
      (fun _ h _ => Reading.reported_acted h _ _) h ack _ e
  apply obeys_caught
  refine obeys_bind.mpr ?_
  have hend : ∀ {α : Type} (result : Except Failure α) {before : Deeds},
      Reading.reported socket.userId before → Reading.reported socket.userId before ∧
        ∀ e, result = .error e → (receiptError ack "Failed to mark messages read" e).Obeys
          (Reading.law socket.userId) (fun before _ => Reading.reported socket.userId before) before :=
    fun _ _ h => ⟨h, fun e _ => hcatch e _ h⟩
  have hlast : ∀ {before : Deeds}, Reading.reported socket.userId before →
      (callAck ack { success := true }).Obeys (Reading.law socket.userId) (fun before result =>
        Reading.reported socket.userId before ∧ ∀ e, result = .error e →
          (receiptError ack "Failed to mark messages read" e).Obeys (Reading.law socket.userId)
            (fun before _ => Reading.reported socket.userId before) before) before :=
    fun h => (callAck_obeys ack rfl h (Reading.reported_acted h _ _)).mono
      fun _ result h => hend result h.1
  apply parseWith_obeys
  · intro input _
    refine obeys_bind.mpr ?_
    show (markMessagesRead D _ _ _).Obeys _ _ _
    unfold markMessagesRead
    split
    · exact hend _ (by simp [Reading.reported])
    · refine obeys_bind.mpr ?_
      unfold isConversationMember
      split
      · exact hend _ (by simp [Reading.reported])
      · refine obeys_bind.mpr (obeys_query.mpr fun r => ⟨rfl, ?_⟩)
        rcases r with e | _ | c
        · exact hend _ (by simp [Reading.reported])
        · exact hend _ (by simp [Reading.reported])
        · refine obeys_bind.mpr (obeys_query.mpr fun r => ⟨⟨_, _, c, rfl⟩, ?_⟩)
          rcases r with e | _ | m
          · exact hend _ (by simp [Reading.reported])
          · exact hend _ (by simp [Reading.reported])
          · refine obeys_bind.mpr (obeys_query.mpr fun r => ⟨⟨_, _, m, _, rfl⟩, ?_⟩)
            rcases r with e | ids
            · exact hend _ (by simp [Reading.reported])
            · show (if ids.isEmpty then _ else _ : Chat MessagesRead).Obeys _ _ _
              cases ids with
              | nil => exact hlast (by simp [Reading.reported])
              | cons i rest =>
                refine obeys_bind.mpr fun now => ⟨⟨_, _, _, i :: rest, _, by simp, rfl⟩, ?_⟩
                refine obeys_bind.mpr (obeys_query.mpr fun r => ⟨⟨_, _, _, _, by simp, rfl⟩, ?_⟩)
                rcases r with e | _
                · exact hend _ (by simp [Reading.reported])
                · refine obeys_bind.mpr fun receivers => ⟨⟨_, _, _, _, rfl, rfl⟩, hlast ?_⟩
                  intro ids now hmem
                  obtain ⟨hids, -⟩ : ids = i :: rest ∧ _ := by simpa using hmem
                  rw [hids]
                  exact ⟨_, _, receivers, .head _⟩
  · exact fun errors => hend _ (by simp [Reading.reported])

/-! ### `connection` and `disconnect` -/

/-- The socket's handler has changed whether its user counts as connected. -/
def changed (socket : Socket) : UserStatus → Deed chatInterface Failure
  | .online => .acted (.addConnection socket.userId socket.id) true
  | .offline => .acted (.removeConnection socket.userId socket.id) true

/-- The event that tells of a presence. -/
def presenceEvent : UserStatus → PresenceEvent → ServerEvent
  | .online => .userOnline
  | .offline => .userOffline

namespace Attending
variable (socket : Socket)

/-- What follows a change: the status is written, and then told. -/
def telling (status : UserStatus) : Law chatInterface Failure
  | before, .answered (.userUpdate u status' _) _ =>
    u = socket.userId ∧ status' = status ∧ changed socket status ∈ before
  | _, .answered (.conversationIds u) _ => u = socket.userId
  | _, .acted .now _ => True
  | before, .acted (.emit _ event) _ => ∃ p, event = presenceEvent status p ∧
    p.userId = socket.userId ∧ p.status = status ∧ changed socket status ∈ before
  | _, _ => False

def connecting : Law chatInterface Failure
  | before, .acted (.join other rooms) _ => other = socket ∧ ∃ ids,
    rooms = ids.map ObjectId.toString ∧
      before = [.answered (.conversationIds socket.userId) (.ok ids)]
  | _, .answered .microtask _ => True
  | _, .acted (.addConnection u id) _ => u = socket.userId ∧ id = socket.id
  | before, d => telling socket .online before d

def disconnecting : Law chatInterface Failure
  | _, .acted (.removeConnection u id) _ => u = socket.userId ∧ id = socket.id
  | before, d => telling socket .offline before d

/-- After a change, the status has been written, or the write has failed. -/
def ending (status : UserStatus) (before : Deeds) : Prop :=
  changed socket status ∈ before → ∃ lastSeen r,
    .answered (.userUpdate socket.userId status lastSeen) r ∈ before

end Attending

theorem Attending.ending_of_unchanged {socket : Socket} {status : UserStatus} {before : Deeds}
    (h : changed socket status ∉ before) : Attending.ending socket status before :=
  fun hmem => absurd hmem h

theorem emitToEach_obeys {L : Law chatInterface Failure} {P : Deeds → Prop} (event : ServerEvent)
    (h : ∀ before room r, P before → L before (.acted (.emit room event) r) ∧
      P (.acted (.emit room event) r :: before)) (rooms : List Text) {before : Deeds}
    (hbefore : P before) : (emitToEach event rooms).Obeys L (fun before _ => P before) before := by
  induction rooms generalizing before with
  | nil => exact hbefore
  | cons room rest ih =>
    apply obeys_bind.mpr
    intro r
    obtain ⟨hlaw, hnext⟩ := h before room r hbefore
    exact ⟨hlaw, ih hnext⟩

/-- From the write of the status on. -/
theorem told_obeys {L : Law chatInterface Failure} {socket : Socket} {status : UserStatus}
    (hL : ∀ before d, Attending.telling socket status before d → L before d)
    {lastSeen : Option Nat} {before : Deeds} (hchanged : changed socket status ∈ before) :
    ((query (.userUpdate socket.userId status lastSeen)).bind fun user =>
      (getUserConversationRoomIds socket.userId).bind fun roomIds =>
        (lastSeenOf user).bind fun lastSeen => emitToEach
          (presenceEvent status ⟨socket.userId, socket.username, status, lastSeen⟩) roomIds).Obeys L
      (fun before _ => Attending.ending socket status before) before := by
  have hend : ∀ {r : Except Failure (Option User)} new, Attending.ending socket status
      (new ++ .answered (.userUpdate socket.userId status lastSeen) r :: before) :=
    fun new _ => ⟨lastSeen, _, List.mem_append_right _ (.head _)⟩
  refine obeys_bind.mpr (obeys_query.mpr fun r => ⟨hL _ _ ⟨rfl, rfl, hchanged⟩, ?_⟩)
  rcases r with e | user
  · exact hend []
  · refine obeys_bind.mpr (obeys_bind.mpr (obeys_query.mpr fun r => ⟨hL _ _ rfl, ?_⟩))
    rcases r with e | ids
    · exact hend [_]
    · have hemit : ∀ lastSeen' new, (emitToEach (presenceEvent status
          ⟨socket.userId, socket.username, status, lastSeen'⟩) (ids.map ObjectId.toString)).Obeys L
          (fun before _ => Attending.ending socket status before)
          (new ++ .answered (.userUpdate socket.userId status lastSeen) (.ok user) :: before) := by
        intro lastSeen' new
        apply (emitToEach_obeys (P := fun b => ∃ new, b = new ++
          .answered (.userUpdate socket.userId status lastSeen) (.ok user) :: before) _ ?_ _
          ⟨new, rfl⟩).mono
        · intro b _ h
          obtain ⟨new, rfl⟩ := h
          exact hend new
        · intro b room r h
          obtain ⟨new, rfl⟩ := h
          refine ⟨hL _ _ ⟨_, rfl, rfl, rfl, ?_⟩, _ :: new, rfl⟩
          exact List.mem_append_right _ (.tail _ hchanged)
      cases user with
      | some user => exact hemit _ [_]
      | none => exact obeys_bind.mpr fun now => ⟨hL _ _ trivial, hemit _ [_, _]⟩

theorem onConnection_obeys (socket : Socket) :
    (onConnection socket).Obeys (Attending.connecting socket)
      (fun before _ => Attending.ending socket .online before) [] := by
  have htelling : ∀ before d, Attending.telling socket .online before d →
      Attending.connecting socket before d := by
    intro before d h
    rcases d with ⟨a, r⟩ | ⟨q, r⟩
    · cases a <;> first | exact h | exact h.elim
    · cases q <;> first | exact h | exact h.elim
  apply obeys_caught
  have hjoined : ∀ {before : Deeds}, changed socket .online ∉ before →
      (handleUserConnect socket).Obeys (Attending.connecting socket) (fun before result =>
        Attending.ending socket .online before ∧ ∀ e, result = .error e →
          ((fun _ => pure () : Failure → Chat Unit) e).Obeys (Attending.connecting socket)
            (fun before _ => Attending.ending socket .online before) before) before := by
    intro before hnone
    refine obeys_bind.mpr fun isFirst => ⟨⟨rfl, rfl⟩, ?_⟩
    cases isFirst with
    | false =>
      refine ⟨Attending.ending_of_unchanged fun h => ?_, nofun⟩
      rcases List.mem_cons.mp h with h | h
      · cases h
      · exact hnone h
    | true =>
      exact (told_obeys htelling (.head _)).mono fun before result h => ⟨h, fun _ _ => h⟩
  refine obeys_bind.mpr (obeys_bind.mpr (obeys_bind.mpr (obeys_query.mpr fun r => ⟨rfl, ?_⟩)))
  rcases r with e | ids
  · refine ⟨Attending.ending_of_unchanged ?_, fun _ _ => Attending.ending_of_unchanged ?_⟩ <;>
      simp [changed]
  · show (if (ids.map ObjectId.toString).isEmpty then _ else _ : Chat Unit).Obeys _ _ _
    split
    · exact hjoined (by simp [changed])
    · refine obeys_bind.mpr fun _ => ⟨⟨rfl, ids, rfl, rfl⟩, obeys_query.mpr fun r => ⟨trivial, ?_⟩⟩
      rcases r with e | _
      · refine ⟨Attending.ending_of_unchanged ?_, fun _ _ => Attending.ending_of_unchanged ?_⟩ <;>
          simp [changed]
      · exact hjoined (by simp [changed])

theorem onDisconnect_obeys (socket : Socket) :
    (onDisconnect socket).Obeys (Attending.disconnecting socket)
      (fun before _ => Attending.ending socket .offline before) [] := by
  have htelling : ∀ before d, Attending.telling socket .offline before d →
      Attending.disconnecting socket before d := by
    intro before d h
    rcases d with ⟨a, r⟩ | ⟨q, r⟩
    · cases a <;> first | exact h | exact h.elim
    · cases q <;> exact h
  apply obeys_caught
  refine obeys_bind.mpr fun isLast => ⟨⟨rfl, rfl⟩, ?_⟩
  cases isLast with
  | false => exact ⟨Attending.ending_of_unchanged (by simp [changed]), nofun⟩
  | true =>
    refine obeys_bind.mpr (obeys_bind.mpr fun now => ⟨htelling _ _ trivial, ?_⟩)
    show (query (.userUpdate socket.userId .offline (some now))).Obeys _ _ _
    apply obeys_bind.mp
    exact (told_obeys htelling (.tail _ (.head _))).mono fun before result h => ⟨h, fun _ _ => h⟩

/-! ### `conversation:join` and `conversation:leave` -/

namespace Visiting
variable (socket : Socket) (payload : Value)

def joining : Law chatInterface Failure
  | before, .answered (.conversationFindOne v u) _ => v = payload ∧ u = socket.userId ∧ before = []
  | before, .acted (.join other rooms) _ => other = socket ∧ rooms = roomsOf payload ∧
    ∃ c, before = [.answered (.conversationFindOne payload socket.userId) (.ok (some c))]
  | _, .answered .microtask _ => True
  | _, .acted (.ack response) _ => response.data = none
  | _, _ => False

def leaving : Law chatInterface Failure
  | before, .acted (.leave other rooms) _ => other = socket ∧ rooms = roomsOf payload ∧ before = []
  | _, .answered .microtask _ => True
  | _, .acted (.ack response) _ => response.data = none
  | _, _ => False

/-- A member who asked to join has been joined. -/
def joined (before : Deeds) : Prop :=
  ∀ c, .answered (.conversationFindOne payload socket.userId) (.ok (some c)) ∈ before →
    .acted (.join socket (roomsOf payload)) () ∈ before

end Visiting

/-- Both handlers once they have acted on the rooms. -/
theorem acknowledge_obeys {L : Law chatInterface Failure} {P : Deeds → Prop}
    (hack : ∀ before (r : SocketAck), r.data = none → L before (.acted (.ack r) ()))
    (hmicrotask : ∀ before r, L before (.answered .microtask r))
    (hstays : ∀ before d, P before → P (d :: before)) (payload ack : Value) (message : String)
    {before : Deeds} (hbefore : P before) :
    ((query .microtask).bind fun _ => (logValue payload).bind fun _ =>
      callAck ack { success := true }).Obeys L (fun before result => P before ∧
        ∀ e, result = .error e → (callAck ack { success := false, message := some message }).Obeys L
          (fun before _ => P before) before) before := by
  have hcatch : ∀ {before}, P before →
      (callAck ack { success := false, message := some message }).Obeys L (fun before _ => P before)
        before := fun h =>
    (callAck_obeys ack (hack _ _ rfl) h (hstays _ _ h)).mono fun _ _ h => h.1
  refine obeys_bind.mpr (obeys_query.mpr fun r => ⟨hmicrotask before r, ?_⟩)
  have hnext : P (.answered .microtask r :: before) := hstays _ _ hbefore
  rcases r with e | _
  · exact ⟨hnext, fun _ _ => hcatch hnext⟩
  · refine obeys_bind.mpr ?_
    unfold logValue
    split
    · exact (callAck_obeys ack (hack _ _ rfl) hnext (hstays _ _ hnext)).mono
        fun before _ h => ⟨h.1, fun _ _ => hcatch h.1⟩
    · exact ⟨hnext, fun _ _ => hcatch hnext⟩

theorem conversationJoin_obeys (D : Deployment) (socket : Socket) (payload ack : Value) :
    (conversationJoin D socket payload ack).Obeys (Visiting.joining socket payload)
      (fun before _ => Visiting.joined socket payload before) [] := by
  have hcatch : ∀ {before : Deeds} (r : SocketAck), r.data = none →
      Visiting.joined socket payload before → (callAck ack r).Obeys (Visiting.joining socket payload)
        (fun before _ => Visiting.joined socket payload before) before := by
    intro before r hr h
    refine (callAck_obeys ack hr h ?_).mono fun _ _ h => h.1
    exact fun c hmem => .tail _ (h c ((List.mem_cons.mp hmem).resolve_left nofun))
  apply obeys_caught
  refine obeys_bind.mpr ?_
  unfold isConversationMember
  split
  · exact (hcatch _ rfl (by simp [Visiting.joined])).mono
      fun before result h => ⟨h, fun _ _ => hcatch _ rfl h⟩
  · refine obeys_bind.mpr (obeys_query.mpr fun r => ⟨⟨rfl, rfl, rfl⟩, ?_⟩)
    rcases r with e | _ | c
    · have hend : Visiting.joined socket payload
          [.answered (.conversationFindOne payload socket.userId) (.error e)] := by
        simp [Visiting.joined]
      exact ⟨hend, fun _ _ => hcatch _ rfl hend⟩
    · exact (hcatch _ rfl (by simp [Visiting.joined])).mono
        fun before result h => ⟨h, fun _ _ => hcatch _ rfl h⟩
    · refine obeys_bind.mpr fun _ => ⟨⟨rfl, rfl, c, rfl⟩, ?_⟩
      refine (acknowledge_obeys (P := fun before =>
        .acted (.join socket (roomsOf payload)) () ∈ before) (fun _ _ h => h) (fun _ _ => trivial)
        (fun _ _ h => .tail _ h) payload ack "Failed to join conversation" (.head _)).mono ?_
      intro before result h
      exact ⟨fun _ _ => h.1, fun e he => (h.2 e he).mono fun _ _ h _ _ => h⟩

theorem conversationLeave_obeys (socket : Socket) (payload ack : Value) :
    (conversationLeave socket payload ack).Obeys (Visiting.leaving socket payload)
      (fun _ _ => True) [] := by
  apply obeys_caught
  refine obeys_bind.mpr fun _ => ⟨⟨rfl, rfl, rfl⟩, ?_⟩
  exact acknowledge_obeys (P := fun _ => True) (fun _ _ h => h) (fun _ _ => trivial)
    (fun _ _ h => h) payload ack _ trivial

/-! ### Every call -/

def Call.law : Call → Law chatInterface Failure
  | .connect socket => Attending.connecting socket
  | .disconnect socket => Attending.disconnecting socket
  | .event socket .messageSend args id => Sending.law socket.userId id (args.getD 0 .undefined)
  | .event socket .messageRead _ _ => Reading.law socket.userId
  | .event socket .conversationJoin args _ => Visiting.joining socket (args.getD 0 .undefined)
  | .event socket .conversationLeave args _ => Visiting.leaving socket (args.getD 0 .undefined)
  | call => Tabled call.Acts call.Asks

def Call.ending : Call → Deeds → Prop
  | .connect socket => Attending.ending socket .online
  | .disconnect socket => Attending.ending socket .offline
  | .event _ .messageSend _ _ => Sending.ending
  | .event socket .conversationJoin args _ => Visiting.joined socket (args.getD 0 .undefined)
  | _ => fun _ => True

theorem body_tabled (D : Deployment) (call : Call) :
    (Call.body D call).Obeys (Tabled call.Acts call.Asks) (fun _ _ => True) [] :=
  .of_within (body_within D call) (fun _ _ _ h => h) fun _ _ _ h => h

/-- A handler that returns nothing. -/
theorem obeys_none {L : Law chatInterface Failure} {E : Deeds → Prop} {p : Chat Unit}
    (h : p.Obeys L (fun before _ => E before) []) :
    (p.bind fun _ => (.ret .none : Chat Response)).Obeys L (fun before _ => E before) [] := by
  apply obeys_bind.mpr
  apply h.mono
  intro before result h
  rcases result with e | v
  · exact h
  · exact h

/-- **What each call does, and in which order**, whatever it is answered. -/
theorem body_obeys (D : Deployment) (call : Call) :
    (Call.body D call).Obeys call.law (fun before _ => call.ending before) [] := by
  cases call with
  | connect socket => exact obeys_none (onConnection_obeys socket)
  | disconnect socket => exact obeys_none (onDisconnect_obeys socket)
  | event socket name args id =>
    cases name with
    | messageSend => exact obeys_none (messageSend_obeys D id socket _ _)
    | messageRead => exact obeys_none ((messageRead_obeys D socket _ _).mono fun _ _ _ => trivial)
    | conversationJoin => exact obeys_none (conversationJoin_obeys D socket _ _)
    | conversationLeave => exact obeys_none (conversationLeave_obeys socket _ _)
    | _ => exact body_tabled D _
  | _ => exact body_tabled D _

/-- A law allows nothing beyond the tables. -/
theorem Call.law_acts {call : Call} {before : Deeds} {a : Action} {r : a.Reply}
    (h : call.law before (.acted a r)) : call.Acts a := by
  cases call with
  | event socket name args id =>
    cases name with
    | messageSend =>
      cases a with
      | emit room event =>
        obtain ⟨_, _, _, _, _, _, _, _, rfl, _⟩ := h
        trivial
      | _ => trivial
    | messageRead =>
      cases a with
      | emit room event =>
        obtain ⟨_, _, _, _, rfl, _⟩ := h
        trivial
      | ack response => exact h
      | _ => trivial
    | conversationJoin => cases a <;> first | exact h | trivial
    | conversationLeave => cases a <;> first | exact h | trivial
    | _ => exact h
  | connect socket =>
    cases a with
    | emit room event =>
      obtain ⟨_, rfl, _⟩ := h
      trivial
    | _ => trivial
  | disconnect socket =>
    cases a with
    | emit room event =>
      obtain ⟨_, rfl, _⟩ := h
      trivial
    | _ => trivial
  | _ => exact h

theorem Call.law_asks {call : Call} {before : Deeds} {q : Query} {r : Except Failure q.Answer}
    (h : call.law before (.answered q r)) : call.Asks q := by
  cases call with
  | event socket name args id =>
    cases name with
    | messageSend => cases q <;> trivial
    | messageRead => cases q <;> trivial
    | conversationJoin => cases q <;> trivial
    | conversationLeave => cases q <;> trivial
    | _ => exact h
  | connect socket => cases q <;> trivial
  | disconnect socket => cases q <;> trivial
  | _ => exact h

/-- What only `message:send` does. -/
def OfSend : Deed chatInterface Failure → Prop
  | .acted (.checkMessageRateLimit _) _ => True
  | .acted (.emit _ (.messageNew _)) _ => True
  | .acted (.ack response) _ => response.data ≠ none
  | .answered (.messageCreate _ _ _ _ _) _ => True
  | .answered (.conversationSave _ _ _) _ => True
  | .answered (.messagePopulate _) _ => True
  | _ => False

theorem Call.law_ofSend {call : Call} {before : Deeds} {d : Deed chatInterface Failure}
    (h : call.law before d) (hd : OfSend d) : ∃ socket args id,
      call = .event socket .messageSend args id ∧
        Sending.law socket.userId id (args.getD 0 .undefined) before d := by
  rcases d with ⟨a, r⟩ | ⟨q, r⟩
  · have hacts := Call.law_acts h
    cases call with
    | event socket name args id =>
      cases name with
      | messageSend => exact ⟨socket, args, id, rfl, h⟩
      | _ =>
        cases a with
        | emit room event => cases event <;> first | exact hd.elim | exact hacts.elim
        | ack response => first | exact absurd hacts hd | exact hacts.elim
        | _ => first | exact hd.elim | exact hacts.elim
    | _ =>
      cases a with
      | emit room event => cases event <;> first | exact hd.elim | exact hacts.elim
      | _ => first | exact hd.elim | exact hacts.elim
  · have hasks := Call.law_asks h
    cases call with
    | event socket name args id =>
      cases name with
      | messageSend => exact ⟨socket, args, id, rfl, h⟩
      | _ => cases q <;> first | exact hd.elim | exact hasks.elim
    | _ => cases q <;> first | exact hd.elim | exact hasks.elim

/-! ### In every run -/

/-- Every task of the server has done what its law allows, and will go on so. -/
abbrev Behaved (c : Config chatInterface Server Failure Call Response) : Prop :=
  Obedient Call.law (fun call before _ => call.ending before) c

theorem behaved_run (D : Deployment) (s : Server) (moves : List (Move Call)) :
    Behaved ((chat D).run (Config.start s) moves) :=
  (Obedient.start s).run (chat D) (body_obeys D) moves

/-- An invariant that every entry keeps, made by its law, holds in every run. -/
theorem preserved_run {D : Deployment} {inv : World chatInterface Server Failure Call → Prop}
    (h : (chat D).Preserves Call.law inv) {s : Server} (hstart : inv ⟨s, []⟩)
    (moves : List (Move Call)) : inv ((chat D).run (Config.start s) moves).world :=
  h.run (body_obeys D) (Obedient.start s) hstart moves

/-- An entry that only `message:send` makes, and how it came to it. -/
theorem Behaved.sent {c : Config chatInterface Server Failure Call Response} (h : Behaved c)
    {e : Event chatInterface Failure Call} {d : Deed chatInterface Failure} {later earlier : Log}
    (hlog : c.world.log = later ++ e :: earlier) (he : e.deed = some d) (hd : OfSend d) :
    ∃ socket args id task, c.tasks[e.pid]? = some ⟨.event socket .messageSend args id, task⟩ ∧
      Sending.law socket.userId id (args.getD 0 .undefined) (deeds e.pid earlier) d := by
  obtain ⟨call, task, hentry, hlaw⟩ := h.law hlog he
  obtain ⟨socket, args, id, rfl, hsent⟩ := Call.law_ofSend hlaw hd
  exact ⟨socket, args, id, task, hentry, hsent⟩

end RealtimeChat
