import RealtimeChat.Client.Session
import RealtimeChat.Receipts.Settled
import RealtimeChat.Rooms.Confidential
import RealtimeChat.Rooms.Visits

/-! Whether a thread shows the statuses that are stored.

A message comes into the thread with the status `sent` that it was created with, and
moves on with every receipt that finds it there. A receipt that is broadcast before
the message is announced finds nothing and is never repeated, one under another name
of the conversation is not looked at, and a save that overtakes an update changes
what is stored behind the thread. Where none of this happens, the thread and the
database agree at rest (`statuses_shown`). -/
namespace RealtimeChat
open Data (Text Collection)
open Zod (Value)
open Async Async.System

/-! ### One thread -/

/-- What an event makes of the status of a message in the thread. -/
def ServerEvent.onStatus (conversationId : Text) (id : ObjectId) :
    ServerEvent → MessageStatus → MessageStatus
  | .messageDelivered messageId c _, status =>
    if c = conversationId ∧ messageId = id ∧ status = .sent then .delivered else status
  | .messageRead c messageIds _, status =>
    if c = conversationId ∧ id ∈ messageIds then .read else status
  | _, status => status

/-- The status of a message that was `sent` before these events. -/
def statusAfter (conversationId : Text) (id : ObjectId) (events : List ServerEvent) : MessageStatus :=
  events.foldl (fun status e => e.onStatus conversationId id status) .sent

/-- The event is a receipt of the message. -/
def ServerEvent.isReceiptOf (id : ObjectId) : ServerEvent → Bool
  | .messageDelivered messageId _ _ => messageId == id
  | .messageRead _ messageIds _ => messageIds.contains id
  | _ => false

/-- The thread once these events have come. -/
def UseMessages.onAll (conversationId : Text) (thread : UseMessages) (events : List ServerEvent) :
    UseMessages :=
  events.foldl (fun thread e => thread.on conversationId e) thread

section
variable {conversationId : Text} {id : ObjectId} {events : List ServerEvent} {e : ServerEvent}

@[simp] theorem statusAfter_concat : statusAfter conversationId id (events ++ [e]) =
    e.onStatus conversationId id (statusAfter conversationId id events) :=
  List.foldl_concat ..

@[simp] theorem UseMessages.onAll_concat {thread : UseMessages} :
    thread.onAll conversationId (events ++ [e]) = (thread.onAll conversationId events).on conversationId e :=
  List.foldl_concat ..

theorem onStatus_of_not_receipt (h : e.isReceiptOf id = false) (status : MessageStatus) :
    e.onStatus conversationId id status = status := by
  cases e with
  | messageDelivered messageId c deliveredBy =>
    exact if_neg fun h' => beq_eq_false_iff_ne.mp h h'.2.1
  | messageRead c messageIds readBy =>
    refine if_neg fun h' => ?_
    rw [ServerEvent.isReceiptOf, List.contains_iff_mem.mpr h'.2] at h
    cases h
  | _ => rfl

/-- No receipt has come. -/
theorem statusAfter_of_none (h : ∀ e ∈ events, e.isReceiptOf id = false) :
    statusAfter conversationId id events = .sent := by
  induction events using List.reverseRecOn with
  | nil => rfl
  | append_singleton front e ih =>
    rw [statusAfter_concat, ih fun e he => h e (List.mem_append_left _ he)]
    exact onStatus_of_not_receipt (h e (List.mem_append_right _ (.head _))) _

/-- Which receipts a status is owed to. -/
theorem statusAfter_spec : (statusAfter conversationId id events = .read ↔
      ∃ messageIds userId, .messageRead conversationId messageIds userId ∈ events ∧ id ∈ messageIds) ∧
    (statusAfter conversationId id events = .delivered →
      ∃ userId, .messageDelivered id conversationId userId ∈ events) ∧
    ((∃ userId, .messageDelivered id conversationId userId ∈ events) →
      statusAfter conversationId id events ≠ .sent) := by
  induction events using List.reverseRecOn with
  | nil => simp [statusAfter]
  | append_singleton front e ih =>
    rw [statusAfter_concat]
    generalize statusAfter conversationId id front = status at ih ⊢
    cases e with
    | messageDelivered messageId c deliveredBy =>
      simp only [ServerEvent.onStatus, List.mem_append, List.mem_singleton]
      by_cases hhere : c = conversationId ∧ messageId = id
      · obtain ⟨rfl, rfl⟩ := hhere
        cases status <;> grind
      · rw [if_neg fun h => hhere ⟨h.1, h.2.1⟩]
        grind
    | messageRead c messageIds readBy =>
      simp only [ServerEvent.onStatus, List.mem_append, List.mem_singleton]
      by_cases hhere : c = conversationId ∧ id ∈ messageIds
      · obtain ⟨rfl, hid⟩ := hhere
        rw [if_pos ⟨rfl, hid⟩]
        grind
      · rw [if_neg hhere]
        grind
    | _ => simpa [ServerEvent.onStatus] using ih

/-- A message among those of which some have been given a status. -/
theorem mem_map_status {messages : List SocketMessagePayload} {P : SocketMessagePayload → Prop}
    [DecidablePred P] {status : MessageStatus} {m : SocketMessagePayload}
    (h : m ∈ messages.map fun m' => if P m' then {m' with status := status} else m') :
    ∃ m' ∈ messages, m'.id = m.id ∧ m.status = if P m' then status else m'.status := by
  obtain ⟨m', hm', rfl⟩ := List.mem_map.mp h
  refine ⟨m', hm', ?_⟩
  by_cases hP : P m'
  · simp [hP]
  · simp [hP]

/-- Where an entry of the thread comes from. -/
theorem UseMessages.mem_on {thread : UseMessages} {m : SocketMessagePayload}
    (h : m ∈ (thread.on conversationId e).messages) :
    (e = .messageNew m ∧ m.conversationId.toString = conversationId) ∨
      ∃ m' ∈ thread.messages, m'.id = m.id ∧ m.status = e.onStatus conversationId m.id m'.status := by
  cases e with
  | messageNew payload =>
    simp only [on, onNewMessage] at h
    split at h
    · exact .inr ⟨m, h, rfl, rfl⟩
    · rename_i hhere
      rcases List.mem_append.mp h with h | h
      · exact .inr ⟨m, h, rfl, rfl⟩
      · obtain rfl := List.mem_singleton.mp h
        exact .inl ⟨rfl, not_not.mp hhere⟩
  | messageDelivered messageId c deliveredBy =>
    simp only [on, onDelivered] at h
    split at h
    · rename_i hother
      exact .inr ⟨m, h, rfl, (if_neg fun h' => hother h'.1).symm⟩
    · rename_i hhere
      obtain ⟨m', hm', hid, hstatus⟩ := mem_map_status h
      refine .inr ⟨m', hm', hid, hstatus.trans ?_⟩
      simp [ServerEvent.onStatus, not_not.mp hhere, hid, eq_comm]
  | messageRead c messageIds readBy =>
    simp only [on, onRead] at h
    split at h
    · rename_i hother
      exact .inr ⟨m, h, rfl, (if_neg fun h' => hother h'.1).symm⟩
    · rename_i hhere
      obtain ⟨m', hm', hid, hstatus⟩ := mem_map_status h
      refine .inr ⟨m', hm', hid, hstatus.trans ?_⟩
      simp [ServerEvent.onStatus, not_not.mp hhere, hid]
  | typing signal c userId username =>
    simp only [on, onTyping] at h
    split at h <;> exact .inr ⟨m, h, rfl, rfl⟩
  | userOnline payload => exact .inr ⟨m, h, rfl, rfl⟩
  | userOffline payload => exact .inr ⟨m, h, rfl, rfl⟩

end

/-! ### What the socket is sent -/

theorem sentTo_cases (socket : Socket) (e : Event chatInterface Failure Call) (log : Log) :
    sentTo socket (e :: log) = sentTo socket log ∨ ∃ pid room event receivers, socket ∈ receivers ∧
      (e = .acted pid (.emit room event) receivers ∨
        ∃ other, e = .acted pid (.emitFrom other room event) receivers) ∧
      sentTo socket (e :: log) = sentTo socket log ++ [event] := by
  unfold sentTo
  rw [List.reverse_cons, List.filterMap_append]
  cases e with
  | acted pid a receivers =>
    cases a with
    | emit room event =>
      by_cases h : socket ∈ receivers
      · exact .inr ⟨pid, room, event, receivers, h, .inl rfl, by simp [h]⟩
      · exact .inl (by simp [h])
    | emitFrom other room event =>
      by_cases h : socket ∈ receivers
      · exact .inr ⟨pid, room, event, receivers, h, .inr ⟨other, rfl⟩, by simp [h]⟩
      · exact .inl (by simp [h])
    | _ => exact .inl (List.append_nil _)
  | _ => exact .inl (List.append_nil _)

theorem mem_sentTo {socket : Socket} {event : ServerEvent} {log : Log} :
    event ∈ sentTo socket log ↔ Delivered log socket event := by
  constructor
  · intro h
    obtain ⟨e, he, hevent⟩ := List.mem_filterMap.mp h
    rw [List.mem_reverse] at he
    cases e with
    | acted pid a receivers =>
      cases a with
      | emit room event' =>
        obtain ⟨hmem, heq⟩ := Option.ite_none_right_eq_some.mp hevent
        cases heq
        exact ⟨pid, room, receivers, hmem, .inl he⟩
      | emitFrom other room event' =>
        obtain ⟨hmem, heq⟩ := Option.ite_none_right_eq_some.mp hevent
        cases heq
        exact ⟨pid, room, receivers, hmem, .inr ⟨other, he⟩⟩
      | _ => cases hevent
    | _ => cases hevent
  · intro h
    obtain ⟨pid, room, receivers, hmem, h | ⟨other, h⟩⟩ := h
    · exact List.mem_filterMap.mpr ⟨_, List.mem_reverse.mpr h, if_pos hmem⟩
    · exact List.mem_filterMap.mpr ⟨_, List.mem_reverse.mpr h, if_pos hmem⟩

/-- Only typing signals go to everybody but their sender. -/
theorem Call.acts_emitFrom {call : Call} {other : Socket} {room : Text} {event : ServerEvent}
    (h : call.Acts (.emitFrom other room event)) :
    ∃ signal c userId username, event = .typing signal c userId username := by
  cases call with
  | event socket name args id =>
    cases name <;> cases event <;> first | exact ⟨_, _, _, _, rfl⟩ | exact h.elim
  | _ => exact h.elim

/-- Nothing takes the socket out of the room. -/
def Remains (room : Text) (socket : Socket) (log : Log) : Prop :=
  ∀ pid call, .arrived pid call ∈ log →
    call ≠ .disconnect socket ∧ call.visits .conversationLeave socket room = false

/-- The socket is in the room, and has received whatever has been broadcast to it. -/
structure Listening (room : Text) (socket : Socket)
    (w : World chatInterface Server Failure Call) : Prop where
  connected : socket ∈ w.state.sockets
  joined : (room, socket) ∈ w.state.rooms
  reached : ∀ pid event receivers, .acted pid (.emit room event) receivers ∈ w.log → socket ∈ receivers

section
variable {D : Deployment} {room : Text} {socket : Socket}
  {w w' : World chatInterface Server Failure Call}

theorem Remains.earlier {new log : Log} (h : Remains room socket (new ++ log)) :
    Remains room socket log := fun pid call hmem => h pid call (List.mem_append_right new hmem)

theorem Listening.cons (hi : Listening room socket w) {e : Event chatInterface Failure Call}
    (hlog : w'.log = e :: w.log) (hsockets : socket ∈ w'.state.sockets)
    (hrooms : (room, socket) ∈ w'.state.rooms)
    (he : ∀ pid event receivers, e = .acted pid (.emit room event) receivers → socket ∈ receivers) :
    Listening room socket w' := by
  refine ⟨hsockets, hrooms, fun pid event receivers hmem => ?_⟩
  rw [hlog] at hmem
  rcases List.mem_cons.mp hmem with heq | hmem
  · exact he pid event receivers heq.symm
  · exact hi.reached pid event receivers hmem

theorem Listening.act (hi : Listening room socket w) {pid : Nat} {call : Call} {a : Action}
    (harrived : .arrived pid call ∈ w.log)
    (hlaw : call.law (deeds pid w.log) (.acted a (Server.act D a w.state).1))
    (hremains : Remains room socket w.log) : Listening room socket ((chat D).perform pid a w) := by
  have hsockets : socket ∈ ((chat D).perform pid a w).state.sockets := by
    rw [show ((chat D).perform pid a w).state.sockets = w.state.sockets from
      Server.act_sockets D a w.state]
    exact hi.connected
  cases a with
  | join other rooms =>
    exact hi.cons rfl hsockets (mem_joinRooms.mpr (.inl hi.joined)) (by simp)
  | leave other rooms =>
    refine hi.cons rfl hsockets (mem_leaveRooms.mpr ⟨hi.joined, fun h => ?_⟩) (by simp)
    obtain ⟨rfl, hroom⟩ := h
    obtain ⟨args, id, rfl, rfl, _⟩ := Call.law_leave hlaw
    have hleave := (hremains pid _ harrived).2
    rw [Call.visits_iff.mpr ⟨args, id, rfl, mem_roomsOf.mp hroom⟩] at hleave
    cases hleave
  | emit room' event =>
    refine hi.cons rfl hsockets hi.joined fun pid' event' receivers heq => ?_
    cases heq
    exact List.mem_filter.mpr ⟨hi.connected, decide_eq_true hi.joined⟩
  | _ =>
    refine hi.cons rfl hsockets ?_ (by simp)
    show (room, socket) ∈ (Server.act D _ w.state).2.rooms
    rw [Server.act_rooms D (by simp)]
    exact hi.joined

theorem Listening.answer (hi : Listening room socket w) (pid : Nat) (q : Query) :
    Listening room socket ((chat D).respond pid q w) := by
  have hsame := Server.answer_sameProcess D q w.state
  refine hi.cons rfl ?_ ?_ (by simp)
  · show socket ∈ (Server.answer D q w.state).2.sockets
    rw [hsame.sockets]
    exact hi.connected
  · show (room, socket) ∈ (Server.answer D q w.state).2.rooms
    rw [hsame.rooms]
    exact hi.joined

theorem Listening.arrive (hi : Listening room socket w) {pid : Nat} {call : Call} {s : Server}
    (ha : (chat D).accept call w.state = some s) (hremains : call ≠ .disconnect socket) :
    Listening room socket (arrival pid call s w) := by
  cases call with
  | connect other =>
    obtain ⟨_, rfl⟩ := accept_connect ha
    exact hi.cons rfl (List.mem_append_left _ hi.connected) (List.mem_append_left _ hi.joined)
      (by simp)
  | disconnect other =>
    obtain ⟨_, rfl⟩ := accept_disconnect ha
    have hne : socket ≠ other := fun h => hremains (by rw [h])
    exact hi.cons rfl (List.mem_filter.mpr ⟨hi.connected, bne_iff_ne.mpr hne⟩)
      (List.mem_filter.mpr ⟨hi.joined, bne_iff_ne.mpr hne⟩) (by simp)
  | event other name args id =>
    obtain ⟨_, rfl⟩ := @accept_event other name args id _ _ ha
    exact hi.cons rfl hi.connected hi.joined (by simp)
  | _ =>
    cases ha
    exact hi.cons rfl hi.connected hi.joined (by simp)

theorem listening_preserved (D : Deployment) (room : Text) (socket : Socket) :
    (chat D).Preserves Call.law fun w => Remains room socket w.log → Listening room socket w where
  acts hi harrived hlaw hremains :=
    have hbefore := @Remains.earlier _ _ [_] _ hremains
    (hi hbefore).act harrived hlaw hbefore
  answers hi _ _ hremains := (hi (@Remains.earlier _ _ [_] _ hremains)).answer _ _
  rejects hi _ _ hremains :=
    have hold := hi (@Remains.earlier _ _ [_] _ hremains)
    hold.cons rfl hold.connected hold.joined (by simp)
  arrives hi _ ha hremains :=
    (hi (@Remains.earlier _ _ [_] _ hremains)).arrive ha (hremains _ _ (.head _)).1
  passes h hremains := ⟨(h hremains).connected, (h hremains).joined, (h hremains).reached⟩

theorem listening_run {s : Server} (hconnected : socket ∈ s.sockets) (hjoined : (room, socket) ∈ s.rooms)
    (moves : List (Move Call))
    (hremains : Remains room socket ((chat D).run (Config.start s) moves).world.log) :
    Listening room socket ((chat D).run (Config.start s) moves).world :=
  preserved_run (listening_preserved D room socket) (fun _ => ⟨hconnected, hjoined, by simp⟩) moves
    hremains

end

/-! ### What may not happen -/

/-- The conversation that a request to send or to mark messages names. -/
def Call.names : Call → Option Text
  | .event _ .messageSend args _ =>
    ((sendMessageSchema.parse (args.getD 0 .undefined)).toOption).map SendMessageInput.conversationId
  | .event _ .messageRead args _ =>
    ((messageReadSchema.parse (args.getD 0 .undefined)).toOption).map MessageReadInput.conversationId
  | _ => none

/-- The entry announces the message. -/
def Announces (id : ObjectId) : Event chatInterface Failure Call → Bool
  | .acted _ (.emit _ (.messageNew payload)) _ => payload.id == id
  | _ => false

/-- The entry broadcasts a receipt of the message. -/
def Receipts (id : ObjectId) : Event chatInterface Failure Call → Bool
  | .acted _ (.emit _ event) _ => event.isReceiptOf id
  | _ => false

/-- Where the message is announced, no receipt of it has been broadcast. -/
def AnnouncedFirst (id : ObjectId) (e : Event chatInterface Failure Call) (earlier : Log) : Prop :=
  Announces id e = true → ∀ e' ∈ earlier, Receipts id e' = false

instance (id : ObjectId) (e : Event chatInterface Failure Call) (earlier : Log) :
    Decidable (AnnouncedFirst id e earlier) :=
  inferInstanceAs (Decidable (_ → _))

/-- No receipt of the message comes before its announcement, those who send it and who mark
it name the conversation as the server prints it, and no save of it overtakes an update. -/
structure InStep (id : ObjectId) (conversationId : Text) (log : Log) : Prop where
  announced : Each (AnnouncedFirst id) log
  named : ∀ pid call spelling, .arrived pid call ∈ log → call.names = some spelling →
    (∃ e ∈ log, e.pid = pid ∧ (Announces id e || Receipts id e) = true) → spelling = conversationId
  saved : ¬ OvertakenAt id log

/-! ### The messages sent -/

/-- A message that a run has announced: it was not there at the start, and is stored. -/
theorem announced_stored {D : Deployment} {s : Server} {moves : List (Move Call)} {pid : Nat}
    {room : Text} {payload : SocketMessagePayload} {receivers : List Socket}
    (h : .acted pid (.emit room (.messageNew payload)) receivers ∈
      ((chat D).run (Config.start s) moves).world.log) :
    (∃ call m, .arrived pid call ∈ ((chat D).run (Config.start s) moves).world.log ∧
      call.names = some room ∧ payload.id = m.id ∧
      payload.conversationId = m.conversationId ∧ Kept m ((chat D).run (Config.start s) moves).world.state) ∧
    payload.status = .sent ∧ statusOf payload.id s = none := by
  have hbehaved := behaved_run D s moves
  have hbooked := booked_run D s moves
  obtain ⟨later, earlier, hlog⟩ := List.append_of_mem h
  obtain ⟨socket, args, id, task, input, conversation, t, m, t', sender, hentry, hparse, rfl, rfl, hdeeds⟩ :=
    hbehaved.announced hlog
  obtain ⟨hcreated, _⟩ := announced_inserted hlog hdeeds
  obtain ⟨_, hmade⟩ := hbooked.made _ _ _ _ _ _ _ hcreated
  refine ⟨⟨_, m, hbehaved.arrived pid _ hentry, ?_, rfl, rfl,
    hbooked.inserted pid m t ⟨_, _, _, _, hcreated⟩⟩, ?_, ?_⟩
  · simp only [Call.names, hparse, Except.toOption, Option.map_some]
  · show m.status = .sent
    rw [hmade]
  · -- It was created under an id that was not in use.
    obtain ⟨after, older, hcreation⟩ := List.append_of_mem hcreated
    obtain ⟨before, _, _, hanswer⟩ := (chat D).run_answer hcreation
    obtain ⟨_, _, hinsert⟩ := Server.messageCreate_answer (D := D) (Prod.mk.inj hanswer).1
    have hfresh := (Collection.insert_eq_some hinsert).2
    show statusOf m.id s = none
    rw [statusOf, Option.map_eq_none_iff, Option.eq_none_iff_forall_ne_some]
    intro m₀ hm₀
    obtain ⟨hmem, hid⟩ := Collection.find_eq_some.mp hm₀
    obtain ⟨m₁, hm₁, hsame⟩ := (booked_run D s before).old m₀ hmem
    exact hfresh m₁ hm₁ (hsame.id.trans hid)

section
variable {D : Deployment} {start : Server} {moves : List (Move Call)} {socket : Socket}
  {conversationId : Text}

/-- In a run, only typing signals go to everybody but their sender. -/
theorem emitFrom_typing {pid : Nat} {other : Socket} {room : Text} {event : ServerEvent}
    {receivers : List Socket} (h : .acted pid (.emitFrom other room event) receivers ∈
      ((chat D).run (Config.start start) moves).world.log) :
    ∃ signal c userId username, event = .typing signal c userId username := by
  obtain ⟨later, earlier, hlog⟩ := List.append_of_mem h
  obtain ⟨call, task, _, hlaw⟩ := (behaved_run D start moves).law hlog rfl
  exact Call.acts_emitFrom (Call.law_acts hlaw)

/-- Who tells of receipts and of messages: an emit to a room. -/
theorem delivered_emit {event : ServerEvent}
    (h : Delivered ((chat D).run (Config.start start) moves).world.log socket event)
    (hevent : ∀ signal c userId username, event ≠ .typing signal c userId username) :
    ∃ pid room receivers, socket ∈ receivers ∧ .acted pid (.emit room event) receivers ∈
      ((chat D).run (Config.start start) moves).world.log := by
  obtain ⟨pid, room, receivers, hmem, h | ⟨other, h⟩⟩ := h
  · exact ⟨pid, room, receivers, hmem, h⟩
  · obtain ⟨signal, c, userId, username, rfl⟩ := emitFrom_typing h
    exact absurd rfl (hevent signal c userId username)

/-- A message in the thread was there at the start, or has been announced since and shows
what the receipts since then make of it. -/
theorem mem_onAll {thread : UseMessages} {log : Log} {id : ObjectId}
    (hannounced : Each (AnnouncedFirst id) log)
    (hsent : ∀ pid room payload receivers,
      .acted pid (.emit room (.messageNew payload)) receivers ∈ log → payload.status = .sent)
    (htyping : ∀ pid other room event receivers, .acted pid (.emitFrom other room event) receivers ∈ log →
      ∃ signal c userId username, event = .typing signal c userId username)
    {m : SocketMessagePayload} (hid : m.id = id)
    (hm : m ∈ (thread.onAll conversationId (sentTo socket log)).messages) :
    id ∈ thread.ids ∨ m.status = statusAfter conversationId id (sentTo socket log) := by
  induction log generalizing m with
  | nil => exact .inl (hid ▸ List.mem_map_of_mem hm)
  | cons e log ih =>
    have hearlier := @ih hannounced.2 (fun _ _ _ _ h => hsent _ _ _ _ (.tail _ h))
      fun _ _ _ _ _ h => htyping _ _ _ _ _ (.tail _ h)
    rcases sentTo_cases socket e log with h | ⟨pid, room, event, receivers, _, he, h⟩
    · rw [h] at hm ⊢
      exact hearlier hid hm
    · rw [h, UseMessages.onAll_concat] at hm
      rw [h, statusAfter_concat]
      rcases UseMessages.mem_on hm with ⟨rfl, _⟩ | ⟨m', hm', hsame, hstatus⟩
      · rcases he with rfl | ⟨other, rfl⟩
        · -- It comes in as `sent`, and no receipt has come before it.
          refine .inr ((hsent pid room m receivers (.head _)).trans (Eq.symm ?_))
          refine (onStatus_of_not_receipt rfl _).trans (statusAfter_of_none fun e' he' => ?_)
          obtain ⟨pid', room', receivers', _, he' | ⟨other, he'⟩⟩ := mem_sentTo.mp he'
          · exact hannounced.1 (beq_iff_eq.mpr hid) _ he'
          · obtain ⟨_, _, _, _, rfl⟩ := htyping _ _ _ _ _ (.tail _ he')
            rfl
        · obtain ⟨_, _, _, _, heq⟩ := htyping _ _ _ _ _ (.head _)
          cases heq
      · refine (hearlier (hsame.trans hid) hm').imp_right fun hold => ?_
        rw [hstatus, hold, hid]

theorem ids_onAll {thread : UseMessages} {events : List ServerEvent} :
    (thread.onAll conversationId events).ids = thread.ids ++ Session.announced conversationId events := by
  induction events using List.reverseRecOn with
  | nil => exact (List.append_nil _).symm
  | append_singleton front e ih =>
    rw [UseMessages.onAll_concat, UseMessages.ids_on, ih, announced_concat, List.append_assoc]

end

/-! ### The client -/

/-- The message is in the thread, with the status that is stored for it. -/
def ShownAsStored (id : ObjectId) (s : Server) (thread : UseMessages) : Prop :=
  id ∈ thread.ids ∧ ∀ m ∈ thread.messages, m.id = id → statusOf id s = some m.status

namespace Session

/-- The client has joined the room, and its history has come: what the thread shows is
stored. Nothing is in flight, and what is sent from now on has yet to come. -/
structure Loaded (start : Server) (socket : Socket) (conversationId : Text) (s : Session) : Prop where
  server : s.server = Config.start start
  connected : socket ∈ start.sockets
  joined : (conversationId, socket) ∈ start.rooms
  loaded : ∃ page, s.load = .loaded page
  early : s.early = []
  late : s.late = []
  stored : ∀ id ∈ s.thread.ids, statusOf id start ≠ none

/-- Since its history has come, the thread has changed by the events of the socket only. -/
structure Heard (D : Deployment) (start : Server) (socket : Socket) (conversationId : Text)
    (thread : UseMessages) (s : Session) : Prop where
  server : ∃ moves, s.server = (chat D).run (Config.start start) moves
  loaded : ∃ page, s.load = .loaded page
  early : s.early = []
  heard : s.late <+: sentTo socket s.server.world.log
  thread : s.thread = thread.onAll conversationId s.late

section
variable {D : Deployment} {start : Server} {socket : Socket} {conversationId : Text}
  {thread : UseMessages} {s : Session}

theorem Loaded.heard (h : s.Loaded start socket conversationId) :
    s.Heard D start socket conversationId s.thread := by
  refine ⟨⟨[], h.server⟩, h.loaded, h.early, ?_, ?_⟩
  · rw [h.late]
    exact List.nil_prefix
  · rw [h.late]
    rfl

theorem Heard.advanced (h : s.Heard D start socket conversationId thread) (m : Move Call)
    (request : Option Nat) :
    Heard D start socket conversationId thread
      {s with server := (chat D).step s.server m, request} := by
  obtain ⟨moves, hmoves⟩ := h.server
  refine ⟨⟨moves ++ [m], ?_⟩, h.loaded, h.early, ?_, h.thread⟩
  · rw [run_append, ← hmoves]
    rfl
  · obtain ⟨new, hlog⟩ := (chat D).step_log s.server m
    obtain ⟨more, hmore⟩ := sentTo_append socket new s.server.world.log
    show s.late <+: sentTo socket ((chat D).step s.server m).world.log
    rw [hlog, hmore]
    exact h.heard.trans (List.prefix_append _ _)

theorem Heard.event (h : s.Heard D start socket conversationId thread) :
    (s.step D socket conversationId 0 .event).Heard D start socket conversationId thread := by
  obtain ⟨server, request, load, early, late, shown⟩ := s
  obtain ⟨hserver, ⟨page, rfl⟩, rfl, hheard, hthread⟩ := h
  obtain rfl : shown = thread.onAll conversationId late := hthread
  simp only [step]
  split
  · exact ⟨hserver, ⟨page, rfl⟩, rfl, hheard, rfl⟩
  · rename_i e he
    refine ⟨hserver, ⟨page, rfl⟩, rfl, ?_, UseMessages.onAll_concat.symm⟩
    obtain ⟨rest, hrest⟩ := hheard
    rw [List.nil_append, Nat.zero_add, ← hrest, List.getElem?_append_right (Nat.le_refl _),
      Nat.sub_self] at he
    cases rest with
    | nil => cases he
    | cons e' rest =>
      obtain rfl : e' = e := Option.some.inj he
      exact ⟨rest, (List.append_cons late e' rest).symm.trans hrest⟩

theorem Heard.step (h : s.Heard D start socket conversationId thread) (m : SessionMove) :
    (s.step D socket conversationId 0 m).Heard D start socket conversationId thread := by
  obtain ⟨page, hpage⟩ := h.loaded
  cases m with
  | server move => exact h.advanced move s.request
  | request =>
    simp only [Session.step]
    split
    · exact h
    · exact h.advanced _ _
  | event => exact h.event
  | response =>
    simp only [Session.step, hpage]
    exact h
  | failure message =>
    simp only [Session.step, hpage]
    exact h

theorem Heard.run (h : s.Heard D start socket conversationId thread) (moves : List SessionMove) :
    (s.run D socket conversationId 0 moves).Heard D start socket conversationId thread := by
  induction moves generalizing s with
  | nil => exact h
  | cons m rest ih => exact ih (h.step m)

end

end Session

/-- Two statuses that are owed to the same receipts. -/
theorem status_unique {shown stored : MessageStatus} {R R' S S' : Prop}
    (hshown : (shown = .read ↔ R') ∧ (shown = .delivered → S') ∧ (S' → shown ≠ .sent))
    (hstored : (stored = .read ↔ R) ∧ (stored = .delivered → S) ∧ (S → stored ≠ .sent))
    (hread : R ↔ R') (htold : S' → S ∨ R) (hsaved : S → S') : stored = shown := by
  cases shown <;> cases stored <;> simp_all

/-- At rest, what is stored of a message that was sent in the run is what the receipts that
a listening socket has received make of it. -/
theorem stored_statusAfter {D : Deployment} {start : Server} {moves : List (Move Call)} {socket : Socket}
    {conversationId : Text}
    (hdone : ∀ entry ∈ ((chat D).run (Config.start start) moves).tasks, entry.task.isDone = true)
    (hlistening : Listening conversationId socket ((chat D).run (Config.start start) moves).world)
    {m : Message} (hkept : Kept m ((chat D).run (Config.start start) moves).world.state)
    (hinStep : InStep m.id conversationId ((chat D).run (Config.start start) moves).world.log)
    (hhere : m.conversationId.toString = conversationId) (hnew : statusOf m.id start = none) :
    statusOf m.id ((chat D).run (Config.start start) moves).world.state =
      some (statusAfter conversationId m.id
        (sentTo socket ((chat D).run (Config.start start) moves).world.log)) := by
  obtain ⟨stored, hstored⟩ := Option.ne_none_iff_exists'.mp hkept.statusOf_ne
  rw [hstored]
  refine congrArg some (status_unique statusAfter_spec (status_settled hinStep.saved hnew hstored)
    ⟨fun hread => ?_, fun hread => ?_⟩ (fun htold => ?_) fun hsaved => ?_)
  · obtain ⟨pid, _, args, _, input, ids, userId, receivers, harrived, hparse, hemit, hid⟩ :=
      readIn_told hdone hread
    have hspelling : input.conversationId = conversationId := by
      refine hinStep.named pid _ _ harrived ?_ ⟨_, hemit, rfl, ?_⟩
      · simp only [Call.names, hparse, Except.toOption, Option.map_some]
      · exact List.contains_iff_mem.mpr hid
    rw [hspelling] at hemit
    exact ⟨ids, userId, mem_sentTo.mpr ⟨pid, conversationId, receivers,
      hlistening.reached pid _ receivers hemit, .inl hemit⟩, hid⟩
  · obtain ⟨ids, userId, hmem, hid⟩ := hread
    obtain ⟨pid, room, receivers, _, hemit⟩ := delivered_emit (mem_sentTo.mp hmem) (by simp)
    exact told_readIn hemit hid
  · obtain ⟨userId, hmem⟩ := htold
    obtain ⟨pid, room, receivers, _, hemit⟩ := delivered_emit (mem_sentTo.mp hmem) (by simp)
    exact told_savedIn hemit hnew
  · obtain ⟨pid, userId, receivers, m', hemit, hm', hkept'⟩ := savedIn_told hdone hsaved
    rw [hkept'.conversation hkept hm', hhere] at hemit
    exact ⟨userId, mem_sentTo.mpr ⟨pid, conversationId, receivers,
      hlistening.reached pid _ receivers hemit, .inl hemit⟩⟩

/-- **What a thread shows at rest.** From a client that has joined and loaded on, in every
interleaving of all handlers and of what the socket receives, as long as the client stays:
once no handler is in flight and all that was sent has come, the thread has every message
sent since, with the status that is stored for it, if no receipt has overtaken its
announcement, those who have sent and marked it have named the conversation as the server
prints it, and no save of it has overtaken an update. -/
theorem statuses_shown (D : Deployment) {start : Server} {socket : Socket} {conversationId : Text}
    {opened : Session} (hloaded : opened.Loaded start socket conversationId) (moves : List SessionMove)
    (hcomplete : Session.Complete socket 0 (opened.run D socket conversationId 0 moves))
    (hdone : ∀ entry ∈ (opened.run D socket conversationId 0 moves).server.tasks,
      entry.task.isDone = true)
    (hremains : Remains conversationId socket
      (opened.run D socket conversationId 0 moves).server.world.log)
    {pid : Nat} {room : Text} {payload : SocketMessagePayload} {receivers : List Socket}
    (hsent : .acted pid (.emit room (.messageNew payload)) receivers ∈
      (opened.run D socket conversationId 0 moves).server.world.log)
    (hhere : payload.conversationId.toString = conversationId)
    (hinStep : InStep payload.id conversationId
      (opened.run D socket conversationId 0 moves).server.world.log) :
    ShownAsStored payload.id (opened.run D socket conversationId 0 moves).server.world.state
      (opened.run D socket conversationId 0 moves).thread := by
  obtain ⟨⟨serverMoves, hserver⟩, _, hearly, _, hthread⟩ := (hloaded.heard (D := D)).run moves
  have hall := hcomplete.2
  rw [hearly, List.nil_append, List.drop_zero] at hall
  rw [hthread, hall]
  rw [hserver] at hdone hremains hsent hinStep ⊢
  have hlistening := listening_run hloaded.connected hloaded.joined serverMoves hremains
  obtain ⟨⟨call, m₀, harrived, hnames, hid, hconversation, hkept⟩, _, hnew⟩ := announced_stored hsent
  obtain rfl := hinStep.named pid call room harrived hnames
    ⟨_, hsent, rfl, by rw [Announces, beq_self_eq_true, Bool.true_or]⟩
  refine ⟨?_, fun m hm hm₀ => ?_⟩
  · rw [ids_onAll]
    refine List.mem_append_right _ (List.mem_filterMap.mpr ⟨.messageNew payload, ?_, ?_⟩)
    · exact mem_sentTo.mpr ⟨pid, room, receivers, hlistening.reached pid _ receivers hsent, .inl hsent⟩
    · rw [UseMessages.announces, if_neg (not_not.mpr hhere)]
  · have hstatus := (mem_onAll hinStep.announced (fun _ _ _ _ h => (announced_stored h).2.1)
      (fun _ _ _ _ _ h => emitFrom_typing h) hm₀ hm).resolve_left fun hold =>
        hloaded.stored _ hold hnew
    rw [hconversation] at hhere
    rw [hid] at hnew hinStep hstatus ⊢
    rw [stored_statusAfter hdone hlistening hkept hinStep hhere hnew, hstatus]

/-! A conversation of three. One writes, one reads, and the thread is the third's. -/

def author : Socket := ⟨.ofChar 'a', .ending 1, "ann".toList⟩

def watcher : Socket := ⟨.ofChar 'b', .ending 2, "bob".toList⟩

def marker : Socket := ⟨.ofChar 'c', .ending 7, "carl".toList⟩

def trio : Text := (ObjectId.ending 3).toString

def trioServer : Server :=
  joinRooms watcher [trio] (connectSocket watcher (connectSocket marker (connectSocket author
    (.boot .empty (.single ⟨.ending 3, .group, some "trio".toList,
      [.ending 1, .ending 2, .ending 7], none, 0, 0⟩) .empty 0))))

def trioThread (moves : List SessionMove) : Session :=
  Session.run .default watcher trio 0
    ⟨Config.start trioServer, none, .loaded [], [], [], ⟨[], false, none, fun _ => none⟩⟩ moves

def authorSends : Call :=
  .event author .messageSend
    [.object [("conversationId", .string trio), ("text", .string "hi".toList)], .function] (.ending 4)

def markerReads : Call :=
  .event marker .messageRead [.object [("conversationId", .string trio),
    ("upToMessageId", .string (ObjectId.ending 4).toString)], .function] (.ending 5)

/-- The message is read once it has been announced. -/
def calmRun : List SessionMove :=
  let moves : List (Move Call) :=
    [.arrive authorSends] ++ Move.rounds 0 4 ++ [.arrive markerReads] ++ Move.rounds 1 4
  moves.map .server ++ [.event, .event]

/-- The message is found in the history and read while its sender's handler is still saving
the conversation. -/
def rushedRun : List SessionMove :=
  let moves : List (Move Call) := [.arrive authorSends] ++ Move.rounds 0 2 ++
    [.arrive (.getMessageHistory marker.userId trio ⟨50, none⟩)] ++ Move.rounds 1 2 ++
    [.arrive markerReads] ++ Move.rounds 2 4 ++ Move.rounds 0 2
  moves.map .server ++ [.event, .event]

theorem trio_loaded : Session.Loaded trioServer watcher trio (trioThread []) :=
  ⟨rfl, by decide +kernel, by decide +kernel, ⟨[], rfl⟩, rfl, rfl, by simp [trioThread, Session.run,
    UseMessages.ids]⟩

def greeting : SocketMessagePayload :=
  toSocketPayload ⟨⟨.ending 4, .ending 3, .ending 1, "hi".toList, .sent, 0, 0⟩, none⟩

theorem statuses_shown_calm : ShownAsStored greeting.id (trioThread calmRun).server.world.state
    (trioThread calmRun).thread := by
  have harrivals : arrivals (trioThread calmRun).server.world.log = [markerReads, authorSends] := rfl
  have hsent : (Event.acted 0 (.emit trio (.messageNew greeting)) [watcher] :
      Event chatInterface Failure Call) ∈ (trioThread calmRun).server.world.log :=
    List.mem_of_getElem? (i := 9) rfl
  refine statuses_shown .default trio_loaded calmRun ⟨by decide +kernel, by decide +kernel⟩
    (by decide +kernel) (fun pid call hmem => ?_) hsent (by decide +kernel) ⟨?_, ?_, fun h => ?_⟩
  · have hcall : call ∈ arrivals (trioThread calmRun).server.world.log := mem_arrivals hmem
    rw [harrivals, List.mem_cons, List.mem_singleton] at hcall
    rcases hcall with rfl | rfl <;> exact ⟨nofun, rfl⟩
  · show Each (AnnouncedFirst greeting.id) (trioThread calmRun).server.world.log
    decide +kernel
  · intro pid call spelling hmem hnames _
    have hall : ∀ call ∈ arrivals (trioThread calmRun).server.world.log, call.names = some trio := by
      decide +kernel
    rw [hall call (mem_arrivals hmem)] at hnames
    exact (Option.some.inj hnames).symm
  · -- Nobody has marked anything as delivered.
    obtain ⟨moves, hserver⟩ := ((trio_loaded.heard (D := .default)).run calmRun).server
    have hsaved : SavedIn greeting.id (trioThread calmRun).server.world.log := h.savedIn
    rw [show (trioThread calmRun).server = _ from hserver] at hsaved harrivals
    obtain ⟨pid, socket, args, k, hmem⟩ := hsaved.arrived
    have hcall := mem_arrivals hmem
    rw [harrivals, List.mem_cons, List.mem_singleton] at hcall
    rcases hcall with hcall | hcall <;> cases hcall

set_option maxRecDepth 2000 in
/-- Before the message is announced, it has been read. -/
theorem rushedRun_differs : Session.Loaded trioServer watcher trio (trioThread []) ∧
    Session.Complete watcher 0 (trioThread rushedRun) ∧
    (∀ entry ∈ (trioThread rushedRun).server.tasks, entry.task.isDone = true) ∧
    Remains trio watcher (trioThread rushedRun).server.world.log ∧
    (Event.acted 0 (.emit trio (.messageNew greeting)) [watcher] :
      Event chatInterface Failure Call) ∈ (trioThread rushedRun).server.world.log ∧
    ¬ ShownAsStored greeting.id (trioThread rushedRun).server.world.state
      (trioThread rushedRun).thread := by
  refine ⟨trio_loaded, ⟨by decide +kernel, by decide +kernel⟩, by decide +kernel,
    fun pid call hmem => ?_, List.mem_of_getElem? (i := 1) rfl, fun h => ?_⟩
  · have hcall := mem_arrivals hmem
    rw [show arrivals (trioThread rushedRun).server.world.log =
      [markerReads, .getMessageHistory marker.userId trio ⟨50, none⟩, authorSends] from rfl] at hcall
    simp only [List.mem_cons, List.not_mem_nil, or_false] at hcall
    rcases hcall with rfl | rfl | rfl <;> exact ⟨nofun, rfl⟩
  · have hshown : ∃ m ∈ (trioThread rushedRun).thread.messages, m.id = greeting.id ∧ m.status = .sent := by
      decide +kernel
    have hstored : statusOf greeting.id (trioThread rushedRun).server.world.state = some .read := by
      decide +kernel
    obtain ⟨m, hm, hid, hsent⟩ := hshown
    have hsame := h.2 m hm hid
    rw [hstored, hsent] at hsame
    cases hsame

end RealtimeChat
