import RealtimeChat.Board.Refinement
import RealtimeChat.Handlers.Vouched
import RealtimeChat.Rooms.Confidential

/-! Whether what is told is so.

Confidentiality says who is told. Here it is said that what they are told can be relied
on: the task that sends an event to a socket has been started by the very call that the event
tells of, made by the user whom it names, who is a member of the conversation that it is
about, and what it says of messages is what is stored (`delivered_authentic`). No client can
speak for another. -/
namespace RealtimeChat
open Data (Text Collection)
open Zod (Value)
open Async Async.System

/-- The payload shows the stored message, its status and the time of that apart. -/
structure Message.Shows (m : Message) (s : Server) (payload : SocketMessagePayload) : Prop
    extends Tells payload m s where
  createdAt : payload.createdAt = IsoDate.toISOString m.createdAt

/-- The call is the one that the event tells of, by the user whom it names, and what it says
is so. -/
def Authentic (D : Deployment) (s : Server) (call : Call) : ServerEvent → Prop
  | .messageNew payload => ∃ socket args id input, call = .event socket .messageSend args id ∧
    sendMessageSchema.parse (args.getD 0 .undefined) = .ok input ∧ payload.id = id ∧
    payload.text = input.text ∧ ∃ m ∈ s.messages.docs, m.senderId = socket.userId ∧ m.Shows s payload ∧
      IsMember m.conversationId m.senderId s
  | .messageDelivered id c u => ∃ socket args k input, call = .event socket .messageDelivered args k ∧
    messageDeliveredSchema.parse (args.getD 0 .undefined) = .ok input ∧ u = socket.userId ∧
    ObjectId.cast input.messageId = some id ∧
    ∃ m ∈ s.messages.docs, m.id = id ∧ m.conversationId.toString = c ∧ IsMember m.conversationId u s
  | .messageRead c ids u => ∃ socket args k input, call = .event socket .messageRead args k ∧
    messageReadSchema.parse (args.getD 0 .undefined) = .ok input ∧ u = socket.userId ∧
    c = input.conversationId ∧ ∃ r, D.cast (.string c) = some r ∧ IsMember r u s ∧
      ∀ id ∈ ids, ∃ m ∈ s.messages.docs, m.id = id ∧ m.conversationId = r ∧ m.senderId ≠ u
  | .typing signal c u username => ∃ socket args k input, call = .event socket (.typing signal) args k ∧
    typingSchema.parse (args.getD 0 .undefined) = .ok input ∧ u = socket.userId ∧
    username = socket.username ∧ c = input.conversationId ∧ MemberBy D (.string c) u s
  | .userOnline p => ∃ socket, call = .connect socket ∧ p.userId = socket.userId ∧ p.status = .online
  | .userOffline p => ∃ socket, call = .disconnect socket ∧ p.userId = socket.userId ∧
    p.status = .offline

/-- The task has sent the event to the socket. -/
def DeliveredBy (pid : Nat) (log : Log) (socket : Socket) (event : ServerEvent) : Prop :=
  ∃ room receivers, socket ∈ receivers ∧ (.acted pid (.emit room event) receivers ∈ log ∨
    ∃ sender, .acted pid (.emitFrom sender room event) receivers ∈ log)

/-! ### What stays -/

section
variable {s s' : Server}

theorem kept_iff_post {m : Message} : Kept m s ↔ s.board.post m.id = some m.post := by
  refine ⟨board_post, fun h => ?_⟩
  obtain ⟨m', hfind, hsame⟩ := Option.map_eq_some_iff.mp h
  obtain ⟨hm', hid⟩ := Collection.find_eq_some.mp hfind
  simp only [Message.post, Board.Post.mk.injEq, Prod.mk.injEq] at hsame
  obtain ⟨hconversation, hsender, htext, hcreated⟩ := hsame
  exact ⟨m', hm', hid, hconversation, hsender, htext, hcreated⟩

theorem Kept.grown {m : Message} (h : Kept m s) (hgrown : s.board.Grown s'.board) : Kept m s' :=
  kept_iff_post.mpr (hgrown.post (kept_iff_post.mp h))

theorem populate_who (u : ObjectId) :
    s.populate u = (s.board.who u).map fun who => ⟨u, who.1, who.2⟩ := by
  simp only [Server.populate, Server.board, Option.map_map]
  cases hfind : s.users.find u with
  | none => rfl
  | some user =>
    obtain ⟨-, rfl⟩ := Collection.find_eq_some.mp hfind
    rfl

theorem populate_grown (hgrown : s.board.Grown s'.board) (u : ObjectId) :
    s'.populate u = s.populate u := by
  rw [populate_who, populate_who, hgrown.who]

end

section
variable {D : Deployment} {w : World chatInterface Server Failure Call} {pid : Nat}
  {later earlier : Log} {call : Call} {room : Text} {event : ServerEvent}

/-- A payload made of a message that is kept. -/
theorem Kept.shows {m : Message} {s : Server} (h : Kept m s) {sender : Option Sender}
    (hsender : sender = s.populate m.senderId) :
    ∃ m' ∈ s.messages.docs, m.Same m' ∧ m'.Shows s (toSocketPayload ⟨m, sender⟩) := by
  obtain ⟨m', hm', hsame⟩ := h
  refine ⟨m', hm', hsame, ⟨hsame.id.symm, hsame.conversationId.symm, ?_, hsame.text.symm⟩, ?_⟩
  · rw [hsame.senderId]
    exact hsender
  · rw [hsame.createdAt]
    rfl

/-- A message that is found by its id has it. -/
theorem messageFindById_id {s : Server} {spelling : Text} {m : Message}
    (h : (Server.answer D (.messageFindById spelling) s).1 = .ok (some m)) :
    ObjectId.cast spelling = some m.id := by
  simp only [Server.answer] at h
  cases hcast : ObjectId.cast spelling with
  | none =>
    rw [hcast] at h
    cases h
  | some id =>
    rw [hcast] at h
    rw [(Collection.find_eq_some.mp (Except.ok.inj h)).2]

/-- What a task has found out before it tells of it still holds. -/
theorem Vouched.authentic (hinformed : Informed D w) (hseen : Seen w) (hlog : w.log = later ++ earlier)
    (hgiven : ∀ {q : Query} {v : q.Answer}, .answered pid q (.ok v) ∈ w.log →
      ∃ s, (Server.answer D q s).1 = .ok v)
    (h : Vouched call (deeds pid earlier) room event) : Authentic D w.state call event := by
  have hmem : ∀ {q : Query} {r : Except Failure q.Answer}, .answered q r ∈ deeds pid earlier →
      .answered pid q r ∈ w.log := fun hd =>
    hlog ▸ List.mem_append_right later (mem_deeds_answered.mp hd)
  have hmember : ∀ {u : ObjectId} {c : Text}, Admitted u c (deeds pid earlier) →
      ∃ k, D.cast (.string c) = some k ∧ IsMember k u w.state := by
    intro u c h
    obtain ⟨k, hk⟩ := h
    obtain ⟨hcast, hmember⟩ := hinformed.members _ _ _ _ (hmem hk)
    exact ⟨k.id, hcast, hmember⟩
  cases event with
  | messageNew payload =>
    obtain ⟨socket, args, id, input, t, m, sender, rfl, hparse, hadmitted, hcreated, hpopulated, rfl⟩ := h
    obtain ⟨hkept, hcast, hsender⟩ := hseen.created _ _ _ _ _ _ _ (hmem hcreated)
    obtain ⟨m', hm', hsame, hshows⟩ := hkept.shows (hinformed.senders _ _ _ (hmem hpopulated))
    obtain ⟨k, hk, hin⟩ := hmember hadmitted
    have hroom : k = m'.conversationId :=
      (Option.some.inj (hk.symm.trans hcast)).trans hsame.conversationId.symm
    have hauthor : m'.senderId = socket.userId := hsame.senderId.trans hsender
    obtain ⟨s, hanswer⟩ := hgiven (hmem hcreated)
    obtain ⟨-, hfields, -⟩ := Server.messageCreate_answer hanswer
    have htext : m.text = input.text :=
      (congrArg Message.text hfields).trans (sendMessage_clean hparse).trimmed
    refine ⟨socket, args, id, input, rfl, hparse, congrArg Message.id hfields, htext, m', hm', hauthor,
      hshows, ?_⟩
    rw [hauthor, ← hroom]
    exact hin
  | messageDelivered id c u =>
    obtain ⟨socket, args, k, input, m, rfl, hparse, rfl, rfl, hadmitted, hfound, rfl, rfl⟩ := h
    obtain ⟨m', hm', hsame⟩ := hseen.found _ _ _ (hmem hfound)
    obtain ⟨r, hr, hin⟩ := hmember hadmitted
    have hroom : m.conversationId = r :=
      Option.some.inj (m.conversationId.cast_toString.symm.trans hr)
    obtain ⟨s, hanswer⟩ := hgiven (hmem hfound)
    refine ⟨socket, args, k, input, rfl, hparse, rfl, messageFindById_id hanswer, m', hm', hsame.id,
      congrArg ObjectId.toString hsame.conversationId, ?_⟩
    rw [hsame.conversationId, hroom]
    exact hin
  | messageRead c ids u =>
    obtain ⟨socket, args, k, input, upTo, rfl, hparse, rfl, rfl, rfl, hadmitted, hfound⟩ := h
    obtain ⟨r, hr, hin⟩ := hmember hadmitted
    refine ⟨socket, args, k, input, rfl, hparse, rfl, rfl, r, hr, hin, fun id hid => ?_⟩
    obtain ⟨m, rfl, ⟨m', hm', hsame⟩, hcast, hauthor⟩ := hseen.unread _ _ _ _ _ (hmem hfound) id hid
    refine ⟨m', hm', hsame.id, ?_, hsame.senderId ▸ hauthor⟩
    exact hsame.conversationId.trans (Option.some.inj (hcast.symm.trans hr))
  | typing signal c u username =>
    obtain ⟨socket, args, k, input, rfl, hparse, rfl, rfl, rfl, rfl, hadmitted⟩ := h
    exact ⟨socket, args, k, input, rfl, hparse, rfl, rfl, rfl, hmember hadmitted⟩
  | userOnline p => exact h
  | userOffline p => exact h

end

/-- The room and the event, where the action tells of one. -/
def Action.tells : Action → Option (Text × ServerEvent)
  | .emit room event => some (room, event)
  | .emitFrom _ room event => some (room, event)
  | _ => none

theorem acted_authentic (D : Deployment) (s : Server) (moves : List (Move Call)) {pid : Nat}
    {a : Action} {r : a.Reply} {room : Text} {event : ServerEvent} (ha : a.tells = some (room, event))
    (hmem : .acted pid a r ∈ ((chat D).run (Config.start s) moves).world.log) :
    ∃ call, .arrived pid call ∈ ((chat D).run (Config.start s) moves).world.log ∧
      Authentic D ((chat D).run (Config.start s) moves).world.state call event := by
  have hobedient : Obedient vouching (fun _ _ _ => True) ((chat D).run (Config.start s) moves) :=
    (Obedient.start s).run (chat D) (body_vouched D) moves
  obtain ⟨hinformed, hseen⟩ := seen_run D s moves
  obtain ⟨later, earlier, hlog⟩ := List.append_of_mem hmem
  obtain ⟨call, task, hentry, hlaw⟩ := hobedient.law hlog rfl
  have hvouched : Vouched call (deeds pid earlier) room event := by
    cases a with
    | emit room' event' =>
      cases ha
      exact hlaw
    | emitFrom other room' event' =>
      cases ha
      exact hlaw
    | _ => cases ha
  refine ⟨call, hobedient.arrived pid _ hentry, hvouched.authentic hinformed hseen
    (hlog.trans (List.append_cons later _ earlier)) fun hanswered => ?_⟩
  obtain ⟨before, hanswer, -⟩ := answered_grown hanswered
  exact ⟨_, hanswer⟩

/-- **Nobody speaks for another**: in every run, whatever a task sends to a socket, the call that
has started the task is the one that the event tells of, by the user whom the event names, and what
it says is so. -/
theorem delivered_authentic (D : Deployment) (s : Server) (moves : List (Move Call)) (pid : Nat)
    (socket : Socket) (event : ServerEvent)
    (h : DeliveredBy pid ((chat D).run (Config.start s) moves).world.log socket event) :
    ∃ call, .arrived pid call ∈ ((chat D).run (Config.start s) moves).world.log ∧
      Authentic D ((chat D).run (Config.start s) moves).world.state call event := by
  obtain ⟨room, receivers, -, hmem | ⟨other, hmem⟩⟩ := h
  · exact acted_authentic D s moves rfl hmem
  · exact acted_authentic D s moves rfl hmem

theorem delivered_authentic_typing : ∃ call,
    .arrived 2 call ∈ ((chat .default).run (Config.start (.boot .empty
      (.single ⟨.ending 3, .oneToOne, none, [.ending 1, .ending 2], none, 0, 0⟩) .empty 0))
        typingRun).world.log ∧
      Authentic .default ((chat .default).run (Config.start (.boot .empty
        (.single ⟨.ending 3, .oneToOne, none, [.ending 1, .ending 2], none, 0, 0⟩) .empty 0))
          typingRun).world.state call typingEvent :=
  delivered_authentic .default _ typingRun 2 receiver typingEvent
    ⟨(ObjectId.ending 3).toString, [receiver], .head _, .inr ⟨sender, .head _⟩⟩

end RealtimeChat
