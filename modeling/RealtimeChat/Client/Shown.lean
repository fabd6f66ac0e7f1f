import RealtimeChat.Async.Fate
import RealtimeChat.Client.ChatPage
import RealtimeChat.Client.Statuses
import RealtimeChat.Rooms.Authentic

/-! Whether a page can be believed.

What a page shows has come from the server, in the answer to a request for a history or
as an event, and has since passed through selections, late answers and receipts. It
still is what is stored, of the conversation that is open and no other, and the user is a
member of that (`page_truthful`). -/
namespace RealtimeChat
open Data (Text)
open Zod (Value)
open Async Async.System
open Async.Program

/-- The page shows messages of the open conversation as they are stored, and members of it as
typing, who have said so of this conversation. -/
structure ChatPage.Truthful (D : Deployment) (socket : Socket) (p : ChatPage) : Prop where
  messages : ∀ id, p.conversationId = some id → ∀ shown ∈ p.thread.messages,
    ObjectId.cast id = some shown.conversationId ∧
      IsMember shown.conversationId socket.userId p.server.world.state ∧
      ∃ m ∈ p.server.world.state.messages.docs, m.Shows p.server.world.state shown
  typing : ∀ id, p.conversationId = some id → ∀ userId username,
    p.thread.typingUsers userId = some username →
      MemberBy D (.string id) socket.userId p.server.world.state ∧
      MemberBy D (.string id) userId p.server.world.state ∧
      ∃ pid other args k input, .arrived pid (.event other (.typing .start) args k) ∈ p.server.world.log ∧
        other.userId = userId ∧ other.username = username ∧
        typingSchema.parse (args.getD 0 .undefined) = .ok input ∧ input.conversationId = id

/-! ### Histories -/

/-- What is found is of the conversation that was asked for, with its sender. -/
theorem messageFind_there {D : Deployment} {s : Server} {spelling : Text}
    {before : Option (Option Int)} {limit : Nat} {found : List PopulatedMessage}
    (h : (Server.answer D (.messageFind spelling before limit) s).1 = .ok found)
    {p : PopulatedMessage} (hp : p ∈ found) :
    ObjectId.cast spelling = some p.message.conversationId ∧
      p.sender = s.populate p.message.senderId := by
  have hpage : ∀ id bound, p ∈ s.findPage D id bound limit →
      p.message.conversationId = id ∧ p.sender = s.populate p.message.senderId := by
    intro id bound hmem
    obtain ⟨m, hm, rfl⟩ := List.mem_map.mp hmem
    have hmatching := (D.byCreation.perm _).mem_iff.mp (List.mem_of_mem_take hm)
    obtain ⟨hid, -⟩ := Bool.and_eq_true_iff.mp (List.mem_filter.mp hmatching).2
    exact ⟨beq_iff_eq.mp hid, rfl⟩
  simp only [Server.answer, Server.casting] at h
  split at h
  · rename_i id hcast
    rcases before with _ | _ | bound
    · obtain ⟨rfl, hsender⟩ := hpage id none (Except.ok.inj h ▸ hp)
      exact ⟨hcast, hsender⟩
    · cases h
    · obtain ⟨rfl, hsender⟩ := hpage id (some bound) (Except.ok.inj h ▸ hp)
      exact ⟨hcast, hsender⟩
  · cases h

/-- A history, at any time after it was read. -/
theorem history_shows (D : Deployment) (s : Server) (moves : List (Move Call)) {pid : Nat}
    {userId : ObjectId} {id : Text} {request : PaginationQuery} {page : PaginatedMessages}
    (h : ((chat D).run (Config.start s) moves).tasks[pid]? =
      some ⟨.getMessageHistory userId id request, .done (.ok (.messages page))⟩)
    {p : PopulatedMessage} (hp : p ∈ page.messages) :
    ObjectId.cast id = some p.message.conversationId ∧
      IsMember p.message.conversationId userId ((chat D).run (Config.start s) moves).world.state ∧
      ∃ m ∈ ((chat D).run (Config.start s) moves).world.state.messages.docs,
        m.Shows ((chat D).run (Config.start s) moves).world.state (toSocketPayload p) := by
  have hanswering : Obedient (fun _ => lawless) answering ((chat D).run (Config.start s) moves) :=
    (Obedient.start s).run (chat D) (body_answering D) moves
  obtain ⟨userId', id', request', cursor, limit, found, hcall, ⟨c, hc⟩, hfound, hcut⟩ :=
    hanswering.obeys pid _ h _ rfl
  injection hcall with huser hid hrequest
  subst huser hid hrequest
  obtain ⟨before, hanswer, hgrown, -⟩ := answered_grown (mem_deeds_answered.mp hfound)
  obtain ⟨hcast, hsender⟩ := messageFind_there hanswer (hcut p hp)
  obtain ⟨hmember, hin⟩ := (seen_run D s moves).1.members _ _ _ _ (mem_deeds_answered.mp hc)
  obtain ⟨m, hm, -, hshows⟩ := ((messageFind_kept hanswer (hcut p hp)).grown hgrown).shows
    (hsender.trans (populate_grown hgrown _).symm)
  refine ⟨hcast, ?_, m, hm, hshows⟩
  rw [Option.some.inj (hcast.symm.trans hmember)]
  exact hin

/-! ### Threads -/

/-- The same message, under another status. -/
def SocketMessagePayload.Restated (a b : SocketMessagePayload) : Prop := b = {a with status := b.status}

theorem Message.Shows.restated {m : Message} {s : Server} {a b : SocketMessagePayload}
    (h : m.Shows s a) (hab : a.Restated b) : m.Shows s b := by
  rw [hab]
  exact ⟨⟨h.id, h.conversationId, h.sender, h.text⟩, h.createdAt⟩

/-- Where an entry of the thread comes from. -/
theorem UseMessages.mem_on_restated {id : Text} {e : ServerEvent} {thread : UseMessages}
    {shown : SocketMessagePayload} (h : shown ∈ (thread.on id e).messages) :
    (e = .messageNew shown ∧ shown.conversationId.toString = id) ∨
      ∃ before ∈ thread.messages, before.Restated shown := by
  have hmap : ∀ {f : SocketMessagePayload → SocketMessagePayload}, (∀ m : SocketMessagePayload, m.Restated (f m)) →
      shown ∈ thread.messages.map f → ∃ before ∈ thread.messages, before.Restated shown := by
    intro f hf hmem
    obtain ⟨m, hm, rfl⟩ := List.mem_map.mp hmem
    exact ⟨m, hm, hf m⟩
  cases e with
  | messageNew payload =>
    simp only [on, onNewMessage] at h
    split at h
    · exact .inr ⟨shown, h, rfl⟩
    · rename_i hhere
      rcases List.mem_append.mp h with h | h
      · exact .inr ⟨shown, h, rfl⟩
      · obtain rfl := List.mem_singleton.mp h
        exact .inl ⟨rfl, not_not.mp hhere⟩
  | messageDelivered messageId c deliveredBy =>
    simp only [on, onDelivered] at h
    split at h
    · exact .inr ⟨shown, h, rfl⟩
    · refine .inr (hmap (fun m => ?_) h)
      split <;> rfl
  | messageRead c messageIds readBy =>
    simp only [on, onRead] at h
    split at h
    · exact .inr ⟨shown, h, rfl⟩
    · refine .inr (hmap (fun m => ?_) h)
      split <;> rfl
  | typing signal c userId username =>
    simp only [on, onTyping] at h
    split at h <;> exact .inr ⟨shown, h, rfl⟩
  | userOnline payload => exact .inr ⟨shown, h, rfl⟩
  | userOffline payload => exact .inr ⟨shown, h, rfl⟩

/-- Whoever is shown as typing has been before, or has just begun. -/
theorem UseMessages.typing_on {id : Text} {e : ServerEvent} {thread : UseMessages} {userId : ObjectId}
    {username : Text} (h : (thread.on id e).typingUsers userId = some username) :
    e = .typing .start id userId username ∨ thread.typingUsers userId = some username := by
  cases e with
  | typing signal c u name =>
    simp only [on, onTyping] at h
    split at h
    · exact .inr h
    · rename_i hhere
      by_cases hu : userId = u
      · subst hu
        simp only [Function.update_self] at h
        cases signal with
        | start =>
          obtain rfl := Option.some.inj h
          exact .inl (by rw [not_not.mp hhere])
        | stop => cases h
      · simp only [Function.update_of_ne hu] at h
        exact .inr h
  | messageNew payload =>
    simp only [on, onNewMessage] at h
    split at h <;> exact .inr h
  | messageDelivered messageId c deliveredBy =>
    simp only [on, onDelivered] at h
    split at h <;> exact .inr h
  | messageRead c messageIds readBy =>
    simp only [on, onRead] at h
    split at h <;> exact .inr h
  | userOnline payload => exact .inr h
  | userOffline payload => exact .inr h

/-! ### Sessions -/

/-- The message has been announced to the socket, or read for the history that it has asked for. -/
def Obtained (socket : Socket) (id : Text) (c : Config chatInterface Server Failure Call Response)
    (origin : SocketMessagePayload) : Prop :=
  .messageNew origin ∈ sentTo socket c.world.log ∧ origin.conversationId.toString = id ∨
    ∃ pid : Nat, ∃ page, c.tasks[pid]? =
      some ⟨Session.historyRequest socket id, .done (.ok (.messages page))⟩ ∧
      origin ∈ page.messages.map toSocketPayload

/-- All that the thread shows has been obtained. -/
structure Session.Backed (D : Deployment) (start : Server) (socket : Socket) (id : Text)
    (s : Session) : Prop where
  server : ∃ moves, s.server = (chat D).run (Config.start start) moves
  request : ∀ pid, s.request = some pid →
    .arrived pid (Session.historyRequest socket id) ∈ s.server.world.log
  messages : ∀ shown ∈ s.thread.messages, ∃ origin : SocketMessagePayload, origin.Restated shown ∧
    Obtained socket id s.server origin
  typing : ∀ userId username, s.thread.typingUsers userId = some username →
    .typing .start id userId username ∈ sentTo socket s.server.world.log

section
variable {D : Deployment} {start : Server} {socket : Socket} {id : Text} {missed : Nat} {s : Session}

theorem sentTo_step {c : Config chatInterface Server Failure Call Response} {event : ServerEvent}
    (h : event ∈ sentTo socket c.world.log) (m : Move Call) :
    event ∈ sentTo socket ((chat D).step c m).world.log := by
  obtain ⟨new, hlog⟩ := (chat D).step_log c m
  obtain ⟨more, hmore⟩ := sentTo_append socket new c.world.log
  rw [hlog, hmore]
  exact List.mem_append_left _ h

theorem Obtained.step {c : Config chatInterface Server Failure Call Response}
    {origin : SocketMessagePayload} (h : Obtained socket id c origin) (m : Move Call) :
    Obtained socket id ((chat D).step c m) origin := by
  rcases h with ⟨hsent, hid⟩ | ⟨pid, page, hdone, horigin⟩
  · exact .inl ⟨sentTo_step hsent m, hid⟩
  · exact .inr ⟨pid, page, (chat D).run_done hdone [m], horigin⟩

theorem Session.Backed.opened {moves : List (Move Call)} (thread : UseMessages) :
    (Session.opened ((chat D).run (Config.start start) moves) thread).Backed D start socket id :=
  ⟨⟨moves, rfl⟩, nofun, nofun, nofun⟩

/-- A step of the server. -/
theorem Session.Backed.advance (h : s.Backed D start socket id) (m : Move Call) {request : Option Nat}
    (hrequest : ∀ pid, request = some pid → s.request = some pid ∨
      .arrived pid (Session.historyRequest socket id) ∈ ((chat D).step s.server m).world.log) :
    ({s with server := (chat D).step s.server m, request} : Session).Backed D start socket id := by
  obtain ⟨⟨moves, hmoves⟩, hasked, hmessages, htyping⟩ := h
  refine ⟨⟨moves ++ [m], ?_⟩, fun pid hpid => ?_, fun shown hshown => ?_, fun u name hname => ?_⟩
  · rw [System.run_append, ← hmoves]
    rfl
  · rcases hrequest pid hpid with hold | hnew
    · obtain ⟨new, hlog⟩ := (chat D).step_log s.server m
      rw [hlog]
      exact List.mem_append_right _ (hasked pid hold)
    · exact hnew
  · obtain ⟨origin, hrestated, hobtained⟩ := hmessages shown hshown
    exact ⟨origin, hrestated, hobtained.step m⟩
  · exact sentTo_step (htyping u name hname) m

/-- A request arrives, whatever the state. -/
theorem arrived_request (D : Deployment) (c : Config chatInterface Server Failure Call Response)
    {call : Call} (haccept : call.accept c.world.state = some c.world.state) :
    .arrived c.tasks.length call ∈ ((chat D).step c (.arrive call)).world.log := by
  obtain ⟨new, hlog, -⟩ := (chat D).settle_acted c.tasks.length ((chat D).body call)
    (arrival c.tasks.length call c.world.state c.world)
  have hstep : ((chat D).step c (.arrive call)).world = ((chat D).settle c.tasks.length ((chat D).body call)
      (arrival c.tasks.length call c.world.state c.world)).2 := by
    simp only [System.step, show (chat D).accept call c.world.state = _ from haccept]
  rw [hstep, hlog]
  exact List.mem_append_right _ (.head _)

theorem Session.Backed.event (h : s.Backed D start socket id) :
    (s.step D socket id missed .event).Backed D start socket id := by
  simp only [Session.step]
  split
  · exact h
  · rename_i e he
    have hsent : e ∈ sentTo socket s.server.world.log := List.mem_of_getElem? he
    have hmessages : ∀ shown ∈ (s.thread.on id e).messages, ∃ origin : SocketMessagePayload,
        origin.Restated shown ∧ Obtained socket id s.server origin := by
      intro shown hshown
      rcases UseMessages.mem_on_restated hshown with ⟨rfl, hid⟩ | ⟨before, hbefore, hrestated⟩
      · exact ⟨shown, rfl, .inl ⟨hsent, hid⟩⟩
      · obtain ⟨origin, horigin, hobtained⟩ := h.messages before hbefore
        exact ⟨origin, hrestated.trans (by rw [horigin]), hobtained⟩
    have htyping : ∀ userId username, (s.thread.on id e).typingUsers userId = some username →
        .typing .start id userId username ∈ sentTo socket s.server.world.log := by
      intro userId username hname
      rcases UseMessages.typing_on hname with rfl | hold
      · exact hsent
      · exact h.typing userId username hold
    split <;> exact ⟨h.server, h.request, hmessages, htyping⟩

theorem Session.Backed.response (h : s.Backed D start socket id) :
    (s.step D socket id missed .response).Backed D start socket id := by
  simp only [Session.step]
  split
  · rename_i call result hload hdone
    refine ⟨h.server, h.request, fun shown hshown => ⟨shown, rfl, .inr ?_⟩, h.typing⟩
    obtain ⟨pid, hpid, hentry⟩ := Option.bind_eq_some_iff.mp hdone
    obtain ⟨moves, hmoves⟩ := h.server
    have harrived := h.request pid hpid
    rw [hmoves] at hentry harrived
    -- The task is the one that the request has started.
    obtain rfl := ((Present.start start).run (chat D) moves).unique harrived
      ((behaved_run D start moves).arrived pid _ hentry)
    exact ⟨pid, result, hmoves ▸ hentry, List.mem_reverse.mp hshown⟩
  · exact h

theorem Session.Backed.step (h : s.Backed D start socket id) (m : SessionMove) :
    (s.step D socket id missed m).Backed D start socket id := by
  cases m with
  | server move => exact h.advance move fun _ => .inl
  | request =>
    simp only [Session.step]
    split
    · exact h
    · refine h.advance _ fun pid hpid => .inr ?_
      obtain rfl := Option.some.inj hpid
      exact arrived_request D s.server rfl
  | event => exact h.event
  | response => exact h.response
  | failure message =>
    simp only [Session.step]
    split
    · exact ⟨h.server, h.request, h.messages, h.typing⟩
    · exact h

theorem Session.Backed.run (h : s.Backed D start socket id) (moves : List SessionMove) :
    (s.run D socket id missed moves).Backed D start socket id := by
  induction moves generalizing s with
  | nil => exact h
  | cons m rest ih => exact ih (h.step m)

/-- Of a page too, whatever was open before. -/
theorem ChatPage.backed (D : Deployment) (start : Server) (socket : Socket) (moves : List ChatPageMove)
    (id : Text) (h : ((ChatPage.mounted start).run D socket moves).conversationId = some id) :
    ∃ s : Session, ((ChatPage.mounted start).run D socket moves).server = s.server ∧
      ((ChatPage.mounted start).run D socket moves).thread.seen = s.thread.seen ∧
      s.Backed D start socket id := by
  obtain ⟨before, after, rfl, hclosed, hafter⟩ := ChatPage.last_selected rfl moves h
  obtain ⟨sessionMoves, hfollows⟩ := ChatPage.select_run hclosed after hafter
  obtain ⟨serverMoves, hserver⟩ := ChatPage.run_server D socket (ChatPage.mounted start) before
  rw [hserver] at hfollows
  rw [ChatPage.run_append]
  exact ⟨_, hfollows.server, hfollows.thread, (Session.Backed.opened _).run sessionMoves⟩

end

/-! ### Every page -/

section
variable {D : Deployment} {users : Users} {conversations : Conversations} {messages : Messages} {clock : Nat}

/-- Whoever is sent something may learn of it, in a run that starts with no one connected. -/
theorem sentTo_entitled {moves : List (Move Call)} {socket : Socket} {event : ServerEvent}
    (h : event ∈ sentTo socket ((chat D).run (Config.start
      (Server.boot users conversations messages clock)) moves).world.log) :
    Entitled D socket ((chat D).run (Config.start
      (Server.boot users conversations messages clock)) moves).world.state event := by
  have hstart : (confidential D).inv ⟨Server.boot users conversations messages clock, []⟩ := by
    refine ⟨nofun, fun socket event hnone => ?_⟩
    obtain ⟨pid, room, receivers, -, hmem | ⟨other, hmem⟩⟩ := hnone <;> cases hmem
  exact ((Sound.start hstart).run (chat_upholds_confidential D) moves trivial).1.inv.2 socket event
    (mem_sentTo.mp h)

theorem sentTo_authentic {start : Server} {moves : List (Move Call)} {socket : Socket} {event : ServerEvent}
    (h : event ∈ sentTo socket ((chat D).run (Config.start start) moves).world.log) :
    ∃ pid call, .arrived pid call ∈ ((chat D).run (Config.start start) moves).world.log ∧
      Authentic D ((chat D).run (Config.start start) moves).world.state call event := by
  obtain ⟨pid, room, receivers, -, hmem | ⟨other, hmem⟩⟩ := mem_sentTo.mp h
  · exact ⟨pid, acted_authentic D start moves rfl hmem⟩
  · exact ⟨pid, acted_authentic D start moves rfl hmem⟩

/-- What has been obtained is stored, and the user is a member. -/
theorem Obtained.shows {moves : List (Move Call)} {socket : Socket} {id : Text}
    {origin : SocketMessagePayload}
    (h : Obtained socket id ((chat D).run (Config.start
      (Server.boot users conversations messages clock)) moves) origin) :
    ObjectId.cast id = some origin.conversationId ∧
      IsMember origin.conversationId socket.userId ((chat D).run (Config.start
        (Server.boot users conversations messages clock)) moves).world.state ∧
      ∃ m ∈ ((chat D).run (Config.start
        (Server.boot users conversations messages clock)) moves).world.state.messages.docs,
        m.Shows ((chat D).run (Config.start
          (Server.boot users conversations messages clock)) moves).world.state origin := by
  rcases h with ⟨hsent, rfl⟩ | ⟨pid, page, hdone, horigin⟩
  · obtain ⟨-, -, -, -, -, -, -, -, -, -, -, m, hm, -, hshows, -⟩ := sentTo_authentic hsent
    exact ⟨origin.conversationId.cast_toString, sentTo_entitled hsent, m, hm, hshows⟩
  · obtain ⟨p, hp, rfl⟩ := List.mem_map.mp horigin
    exact history_shows D _ moves hdone hp

variable (D users conversations messages clock)

/-- **What a page shows is so.** Whatever is opened on it and in whichever order answers and
events come: it shows messages as they are stored, of the open conversation alone, and as
typing those of its members who have said so; and its user is a member too. -/
theorem page_truthful (socket : Socket) (moves : List ChatPageMove) :
    ((ChatPage.mounted (Server.boot users conversations messages clock)).run D socket moves).Truthful
      D socket := by
  have hbacked := ChatPage.backed D (Server.boot users conversations messages clock) socket moves
  generalize (ChatPage.mounted (Server.boot users conversations messages clock)).run D socket moves = p
    at hbacked ⊢
  constructor
  · intro id hid shown hshown
    obtain ⟨s, hserver, hthread, hs⟩ := hbacked id hid
    obtain ⟨moves, hmoves⟩ := hs.server
    have hmessages : p.thread.messages = s.thread.messages := by
      rw [← UseMessages.seen_messages, hthread, UseMessages.seen_messages]
    obtain ⟨origin, hrestated, hobtained⟩ := hs.messages shown (hmessages ▸ hshown)
    rw [hmoves] at hobtained
    obtain ⟨hcast, hmember, m, hm, hshows⟩ := hobtained.shows
    have hsame : shown.conversationId = origin.conversationId := by rw [hrestated]
    rw [hserver, hmoves, hsame]
    exact ⟨hcast, hmember, m, hm, hshows.restated hrestated⟩
  · intro id hid userId username hname
    obtain ⟨s, hserver, hthread, hs⟩ := hbacked id hid
    obtain ⟨moves, hmoves⟩ := hs.server
    have htyping : p.thread.typingUsers = s.thread.typingUsers := by
      rw [← UseMessages.seen_typingUsers, hthread, UseMessages.seen_typingUsers]
    have hsent := hs.typing userId username (htyping ▸ hname)
    rw [hmoves] at hsent
    obtain ⟨pid, call, harrived, other, args, k, input, rfl, hparse, rfl, rfl, hid, hmember⟩ :=
      sentTo_authentic hsent
    rw [hserver, hmoves]
    exact ⟨sentTo_entitled hsent, hmember, pid, other, args, k, input, harrived, rfl, rfl, hparse, hid.symm⟩

end

end RealtimeChat
