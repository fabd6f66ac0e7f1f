import RealtimeChat.Client.Shown
import RealtimeChat.Client.UseConversations
import RealtimeChat.Conversations.LastMessage

/-! Whether the list of conversations can be believed
(`frontend-ui/src/hooks/useConversations.ts`).

The list is made of the answers to requests of two kinds, any number of which may be under
way at a time, and of the events that come in between. An answer may be older than what it
replaces. Whatever the order, each conversation is in the list once, it is one of the
user's, and its last message is one of its own (`sidebar_truthful`). -/
namespace RealtimeChat
open Data (Text Collection toFront)
open Zod (Value)
open Async Async.System

/-- The literal that stands for the type. -/
def ConversationType.literal : ConversationType → Text
  | .oneToOne => "1:1".toList
  | .group => "group".toList

/-- A request of the hook. -/
inductive ListRequest where
  /-- Of `refresh()` -/
  | list
  /-- Of `startConversation(type, members, name)` -/
  | create (type : ConversationType) (members : List Text) (name : Option Text)

/-- `JSON.stringify({ type, members, name })` -/
def createBody (type : ConversationType) (members : List Text) (name : Option Text) : Value :=
  .object ([("type", .string type.literal), ("members", .array (members.map .string))] ++
    name.toList.map fun name => ("name", .string name))

/-- The request at the server; `id` is for a conversation to be created. -/
def ListRequest.call (userId id : ObjectId) : ListRequest → Call
  | .list => .listConversations userId
  | .create type members name => .createConversation userId (createBody type members name) id

/-- A request that has not come to its end. -/
structure ListCall where
  request : ListRequest
  /-- The task that answers it, once it has reached the server. -/
  task : Option Nat

/-- What the task has returned. -/
def ListCall.result (call : ListCall) (server : Config chatInterface Server Failure Call Response) :
    Option Response :=
  match call.task.bind fun pid => server.tasks[pid]? with
  | some ⟨_, .done (.ok response)⟩ => some response
  | _ => none

/-- The server, and the hook of a client with a socket of its own. -/
structure Sidebar where
  server : Config chatInterface Server Failure Call Response
  hook : UseConversations
  calls : List ListCall
  /-- How many of the events sent to the socket have come. -/
  heard : Nat

inductive SidebarMove where
  /-- Any step of the server, other clients' calls included. -/
  | server (move : Move Call)
  | refresh
  | startConversation (type : ConversationType) (members : List Text) (name : Option Text)
  /-- A request reaches the server. -/
  | request (call : Nat) (id : ObjectId)
  | response (call : Nat)
  /-- The request fails: an error response, or none. -/
  | failure (call : Nat) (message : String)
  /-- The next event of the socket comes. -/
  | event

namespace Sidebar

/-- The effect calls `refresh()` at once. -/
def mounted (start : Server) : Sidebar :=
  ⟨Config.start start, UseConversations.mounted.refresh, [⟨.list, none⟩], 0⟩

section
variable (D : Deployment) (socket : Socket)

def request (i : Nat) (id : ObjectId) (p : Sidebar) : Sidebar :=
  match p.calls[i]? with
  | some ⟨request, none⟩ => {p with
      server := (chat D).step p.server (.arrive (request.call socket.userId id))
      calls := p.calls.set i ⟨request, some p.server.tasks.length⟩}
  | _ => p

/-- The `await` goes on with the answer. -/
def response (i : Nat) (p : Sidebar) : Sidebar :=
  match p.calls[i]? with
  | none => p
  | some call =>
    match call.request, call.result p.server with
    | .list, some (.conversations list) => {p with
        calls := p.calls.eraseIdx i, hook := p.hook.refreshed list}
    | .create _ _ _, some (.conversation conversation) => {p with
        calls := p.calls.eraseIdx i, hook := p.hook.startConversation conversation}
    | _, _ => p

/-- `refresh` catches the error, `startConversation` leaves it to its caller. -/
def failure (i : Nat) (message : String) (p : Sidebar) : Sidebar :=
  match p.calls[i]? with
  | none => p
  | some ⟨.list, _⟩ => {p with calls := p.calls.eraseIdx i, hook := p.hook.refreshFailed message}
  | some ⟨.create _ _ _, _⟩ => {p with calls := p.calls.eraseIdx i}

def event (p : Sidebar) : Sidebar :=
  match (sentTo socket p.server.world.log)[p.heard]? with
  | none => p
  | some e => {p with heard := p.heard + 1, hook := p.hook.on e}

def step (p : Sidebar) : SidebarMove → Sidebar
  | .server move => {p with server := (chat D).step p.server move}
  | .refresh => {p with hook := p.hook.refresh, calls := p.calls ++ [⟨.list, none⟩]}
  | .startConversation type members name => {p with calls := p.calls ++ [⟨.create type members name, none⟩]}
  | .request i id => p.request D socket i id
  | .response i => p.response i
  | .failure i message => p.failure i message
  | .event => p.event socket

def run (p : Sidebar) : List SidebarMove → Sidebar
  | [] => p
  | m :: rest => run (p.step D socket m) rest

end

end Sidebar

/-! ### What an entry shows -/

def ClientUser.toSender (u : ClientUser) : Sender := ⟨u.id, u.username, u.email⟩

/-- The last message is stored in the conversation, and what is shown of it is so. -/
def ClientLastMessage.Of (conversationId : ObjectId) (s : Server) : ClientLastMessage → Prop
  | .document m => m.conversationId = conversationId ∧ Kept m s
  | .payload p => p.conversationId = conversationId ∧ ∃ m ∈ s.messages.docs, m.Shows s p
  | .reference id => Posted id conversationId s

/-- The entry shows the stored conversation. Its members come by id, or with what is stored of
each who is; which of its messages is the last, and what its members' statuses are, may have
changed. -/
structure Conversation.Shows (d : Conversation) (s : Server) (c : ClientConversation) : Prop where
  id : c.id = d.id
  type : c.type = d.type
  name : c.name = d.name
  members : c.members = d.members.map .reference ∨ ∃ users : List ClientUser,
    c.members = users.map .user ∧ users.map ClientUser.toSender = d.members.filterMap s.populate
  lastMessage : ∀ last, c.lastMessage = some last → last.Of d.id s

/-- The entry shows a conversation of the user's. -/
def Listed (userId : ObjectId) (s : Server) (c : ClientConversation) : Prop :=
  ∃ d ∈ s.conversations.docs, userId ∈ d.members ∧ d.Shows s c

/-- Each entry shows a conversation of the user's, and each another one. -/
structure UseConversations.Truthful (userId : ObjectId) (s : Server) (hook : UseConversations) : Prop where
  once : (hook.conversations.map ClientConversation.id).Nodup
  listed : ∀ c ∈ hook.conversations, Listed userId s c

section
variable {D : Deployment} {s s' : Server} {userId : ObjectId} {c : ClientConversation}

theorem kept_of_mem {m : Message} (h : m ∈ s.messages.docs) : Kept m s := ⟨m, h, rfl, rfl, rfl, rfl, rfl⟩

theorem Posted.grown {id conversationId : ObjectId} (h : Posted id conversationId s)
    (hgrown : s.board.Grown s'.board) : Posted id conversationId s' := by
  obtain ⟨m, hm, rfl, rfl⟩ := h
  obtain ⟨m', hm', hsame⟩ := (kept_of_mem hm).grown hgrown
  exact ⟨m', hm', hsame.id, hsame.conversationId⟩

theorem Message.Shows.grown {m : Message} {payload : SocketMessagePayload} (hm : m ∈ s.messages.docs)
    (h : m.Shows s payload) (hgrown : s.board.Grown s'.board) :
    ∃ m' ∈ s'.messages.docs, m'.Shows s' payload := by
  obtain ⟨m', hm', hsame⟩ := (kept_of_mem hm).grown hgrown
  refine ⟨m', hm', ⟨h.id.trans hsame.id.symm, h.conversationId.trans hsame.conversationId.symm, ?_,
    h.text.trans hsame.text.symm⟩, ?_⟩
  · rw [hsame.senderId, populate_grown hgrown]
    exact h.sender
  · rw [hsame.createdAt]
    exact h.createdAt

theorem ClientLastMessage.Of.grown {id : ObjectId} {last : ClientLastMessage} (h : last.Of id s)
    (hgrown : s.board.Grown s'.board) : last.Of id s' := by
  cases last with
  | document m => exact ⟨h.1, h.2.grown hgrown⟩
  | payload p =>
    obtain ⟨hid, m, hm, hshows⟩ := h
    exact ⟨hid, hshows.grown hm hgrown⟩
  | reference id => exact Posted.grown h hgrown

/-- A stored conversation stays, and stays what it is. -/
theorem Conversation.grown {d : Conversation} (hd : d ∈ s.conversations.docs)
    (hgrown : s.board.Grown s'.board) : ∃ d' ∈ s'.conversations.docs, d.Same d' ∧ d'.name = d.name := by
  have hroom : s.board.room d.id = some d.room := (conversation_of_board.mp hd).1
  obtain ⟨d', hfind, hsame⟩ := Option.map_eq_some_iff.mp (hgrown.room hroom)
  obtain ⟨hd', hid⟩ := Collection.find_eq_some.mp hfind
  simp only [Conversation.room, Board.Room.mk.injEq, Prod.mk.injEq] at hsame
  obtain ⟨⟨htype, hname, hmembers, -⟩, -⟩ := hsame
  exact ⟨d', hd', ⟨hid, htype, hmembers⟩, hname⟩

/-- What is stored only grows, and an entry keeps showing it. -/
theorem Listed.grown (h : Listed userId s c) (hgrown : s.board.Grown s'.board) : Listed userId s' c := by
  obtain ⟨d, hd, hmember, hshows⟩ := h
  obtain ⟨d', hd', hsame, hname⟩ := Conversation.grown hd hgrown
  have hpopulate : s'.populate = s.populate := funext (populate_grown hgrown)
  refine ⟨d', hd', hsame.members ▸ hmember, hshows.id.trans hsame.id.symm,
    hshows.type.trans hsame.type.symm, hshows.name.trans hname.symm, ?_, fun last hlast => ?_⟩
  · rw [hsame.members, hpopulate]
    exact hshows.members
  · rw [hsame.id]
    exact (hshows.lastMessage last hlast).grown hgrown

/-! ### The answers -/

theorem Linked.document (h : Linked s) {d : Conversation} (hd : d ∈ s.conversations.docs) {m : Message}
    (hm : d.lastMessage.bind s.messages.find = some m) : m.conversationId = d.id ∧ Kept m s := by
  obtain ⟨id, hlast, hfind⟩ := Option.bind_eq_some_iff.mp hm
  obtain ⟨hmem, hid⟩ := Collection.find_eq_some.mp hfind
  obtain ⟨m', hmem', hid', hconversation⟩ := h d hd id hlast
  obtain rfl := s.messages.eq_of_key hmem hmem' (hid.trans hid'.symm)
  exact ⟨hconversation, kept_of_mem hmem⟩

/-- As `GET /api/conversations` populates it. -/
theorem listed_populated (h : Linked s) {d : Conversation} (hd : d ∈ s.conversations.docs)
    (hmember : userId ∈ d.members) (unreadCount : Nat) :
    Listed userId s (ConversationWithUnreadCount.toJSON ⟨s.populateConversation d, unreadCount⟩) := by
  refine ⟨d, hd, hmember, rfl, rfl, rfl, .inr ⟨(d.members.filterMap s.users.find).map User.toJSON, ?_, ?_⟩,
    fun last hlast => ?_⟩
  · rw [List.map_map]
    rfl
  · rw [List.map_map, List.map_filterMap]
    rfl
  · obtain ⟨m, hm, rfl⟩ := Option.map_eq_some_iff.mp hlast
    exact h.document hd hm

/-- As `POST /api/conversations` returns it. -/
theorem listed_reference (h : Linked s) {d : Conversation} (hd : d ∈ s.conversations.docs)
    (hmember : userId ∈ d.members) : Listed userId s d.toJSON := by
  refine ⟨d, hd, hmember, rfl, rfl, rfl, .inl rfl, fun last hlast => ?_⟩
  obtain ⟨id, hid, rfl⟩ := Option.map_eq_some_iff.mp hlast
  exact h d hd id hid

/-- The list that a task returns is what it has read. -/
theorem listConversations_read (moves : List (Move Call)) {pid : Nat} {list : List ConversationWithUnreadCount}
    (h : ((chat D).run (Config.start s) moves).tasks[pid]? =
      some ⟨.listConversations userId, .done (.ok (.conversations list))⟩) :
    .answered pid (.conversationFind userId) (.ok (list.map (·.conversation))) ∈
      ((chat D).run (Config.start s) moves).world.log := by
  have hanswering : Obedient (fun _ => lawless) answering ((chat D).run (Config.start s) moves) :=
    (Obedient.start s).run (chat D) (body_answering D) moves
  obtain ⟨userId', found, hcall, hfound, hlist⟩ := hanswering.obeys pid _ h _ rfl
  cases hcall
  rw [hlist]
  exact mem_deeds_answered.mp hfound

theorem listConversations_truthful (hook : UseConversations) (hlinked : Linked s) (moves : List (Move Call)) {pid : Nat}
    {list : List ConversationWithUnreadCount}
    (h : ((chat D).run (Config.start s) moves).tasks[pid]? =
      some ⟨.listConversations userId, .done (.ok (.conversations list))⟩) :
    (hook.refreshed list).Truthful userId ((chat D).run (Config.start s) moves).world.state := by
  obtain ⟨before, hanswer, hgrown, -⟩ := answered_grown (listConversations_read moves h)
  generalize hs' : ((chat D).run (Config.start s) before).world.state = s' at hanswer hgrown
  have hlinked' : Linked s' := hs' ▸ linked_run D hlinked before
  have hread : (D.byUpdate.sort (s'.conversations.docs.filter fun c => c.members.contains userId)).map
      s'.populateConversation = list.map (·.conversation) := Except.ok.inj hanswer
  constructor
  · have hids : (hook.refreshed list).conversations.map ClientConversation.id =
        (D.byUpdate.sort (s'.conversations.docs.filter fun c => c.members.contains userId)).map
          Conversation.id := by
      show (list.map ConversationWithUnreadCount.toJSON).map ClientConversation.id = _
      rw [List.map_map]
      have hmap := congrArg (List.map fun c : PopulatedConversation => c.conversation.id) hread
      rw [List.map_map, List.map_map] at hmap
      exact hmap.symm
    rw [hids, ((D.byUpdate.perm _).map _).nodup_iff]
    exact s'.conversations.distinct.sublist (List.filter_sublist.map _)
  · intro c hc
    obtain ⟨item, hitem, rfl⟩ := List.mem_map.mp hc
    obtain ⟨d, hd, hpopulated⟩ := List.mem_map.mp (hread ▸ List.mem_map_of_mem hitem)
    obtain ⟨hstored, hmember⟩ := List.mem_filter.mp ((D.byUpdate.perm _).mem_iff.mp hd)
    obtain ⟨conversation, unreadCount⟩ := item
    obtain rfl : s'.populateConversation d = conversation := hpopulated
    exact (listed_populated hlinked' hstored (List.contains_iff_mem.mp hmember) unreadCount).grown hgrown

/-- The conversation that a task has returned, found or created. -/
theorem createConversation_listed (hlinked : Linked s) (moves : List (Move Call)) {pid : Nat}
    {body : Value} {id : ObjectId} {d : Conversation}
    (h : ((chat D).run (Config.start s) moves).tasks[pid]? =
      some ⟨.createConversation userId body id, .done (.ok (.conversation d))⟩) :
    Listed userId ((chat D).run (Config.start s) moves).world.state d.toJSON := by
  have hanswering : Obedient (fun _ => lawless) answering ((chat D).run (Config.start s) moves) :=
    (Obedient.start s).run (chat D) (body_answering D) moves
  obtain ⟨userId', body', id', memberIds, hcall, hself, hanswered⟩ := hanswering.obeys pid _ h _ rfl
  cases hcall
  rcases hanswered with hfound | ⟨k, type, name, now, hcreated⟩
  · obtain ⟨before, hanswer, hgrown, -⟩ := answered_grown (mem_deeds_answered.mp hfound)
    have hlinked' := linked_run D hlinked before
    generalize ((chat D).run (Config.start s) before).world.state = s' at hanswer hgrown hlinked'
    simp only [Server.answer] at hanswer
    split at hanswer
    · rename_i members hcast
      have hfind := Except.ok.inj hanswer
      have hmatches := List.find?_some hfind
      simp only [Server.matchesOneToOne, Bool.and_eq_true, List.all_eq_true, List.contains_iff_mem] at hmatches
      obtain ⟨⟨-, hall⟩, -⟩ := hmatches
      have hmember : userId ∈ members :=
        (ObjectId.mem_mapM_cast hcast).mpr ⟨_, hself, ObjectId.cast_toString userId⟩
      exact (listed_reference hlinked' (List.mem_of_find?_eq_some hfind) (hall _ hmember)).grown hgrown
    · cases hanswer
  · obtain ⟨before, hanswer, -, hgrown⟩ := answered_grown (mem_deeds_answered.mp hcreated)
    have hlinked' := (linked_run D hlinked before).answer (D := D)
      (q := .conversationCreate k type name memberIds now) (by simp)
    obtain ⟨hstored, -, hcast⟩ := Server.conversationCreate_answer hanswer
    have hmember : userId ∈ d.members :=
      (ObjectId.mem_mapM_cast hcast).mpr ⟨_, hself, ObjectId.cast_toString userId⟩
    exact (listed_reference hlinked' hstored hmember).grown hgrown

/-! ### The events -/

section
variable {hook : UseConversations}

theorem UseConversations.Truthful.grown (h : hook.Truthful userId s) (hgrown : s.board.Grown s'.board) :
    hook.Truthful userId s' := ⟨h.once, fun c hc => (h.listed c hc).grown hgrown⟩

theorem UseConversations.Truthful.presence (h : hook.Truthful userId s) (payload : PresenceEvent) :
    (hook.updatePresence payload).Truthful userId s := by
  obtain ⟨honce, hlisted⟩ := h
  constructor
  · rw [updatePresence_conversations, List.map_map]
    exact honce
  · intro c hc
    obtain ⟨c', hc', rfl⟩ := List.mem_map.mp hc
    obtain ⟨d, hd, hmember, hshows⟩ := hlisted c' hc'
    refine ⟨d, hd, hmember, hshows.id, hshows.type, hshows.name, ?_, hshows.lastMessage⟩
    dsimp only
    rcases hshows.members with hreferences | ⟨users, husers, hsame⟩
    · rw [hreferences, List.map_map]
      exact .inl rfl
    · refine .inr ⟨users.map fun u => if u.id = payload.userId then
        {u with status := payload.status, lastSeen := payload.lastSeen} else u, ?_, ?_⟩
      · rw [husers, List.map_map, List.map_map]
        rfl
      · rw [← hsame, List.map_map]
        refine List.map_congr_left fun u _ => ?_
        rw [Function.comp_apply]
        split <;> rfl

/-- The message is put under the conversation that it is stored in. -/
theorem UseConversations.Truthful.bump (h : hook.Truthful userId s) {payload : SocketMessagePayload}
    (hstored : ∃ m ∈ s.messages.docs, m.Shows s payload) :
    (hook.bumpConversationWithMessage payload).Truthful userId s := by
  obtain ⟨honce, hlisted⟩ := h
  constructor
  · rw [bump_conversations]
    refine (Data.map_toFront_perm ClientConversation.id _ ?_).nodup_iff.mpr honce
    exact fun _ _ _ => rfl
  · rw [bump_conversations]
    rcases Data.toFront_cases (fun c : ClientConversation => c.id == payload.conversationId)
        (fun c => {c with lastMessage := some (.payload payload)}) hook.conversations with
      ⟨-, hsame⟩ | ⟨front, c, back, hsplit, hid, hmoved⟩
    · rw [hsame]
      exact hlisted
    · rw [hmoved]
      intro c' hc'
      rcases List.mem_cons.mp hc' with rfl | hc'
      · obtain ⟨d, hd, hmember, hshows⟩ := hlisted c (hsplit ▸ List.mem_append_right _ List.mem_cons_self)
        refine ⟨d, hd, hmember, hshows.id, hshows.type, hshows.name, hshows.members, fun last hlast => ?_⟩
        obtain rfl := Option.some.inj hlast
        exact ⟨(beq_iff_eq.mp hid).symm.trans hshows.id, hstored⟩
      · rw [hsplit] at hlisted
        exact hlisted c' (((List.sublist_cons_self c back).append_left front).subset hc')

theorem UseConversations.Truthful.on (h : hook.Truthful userId s) {e : ServerEvent}
    (hstored : ∀ payload, e = .messageNew payload → ∃ m ∈ s.messages.docs, m.Shows s payload) :
    (hook.on e).Truthful userId s := by
  cases e with
  | messageNew payload => exact h.bump (hstored payload rfl)
  | userOnline payload => exact h.presence payload
  | userOffline payload => exact h.presence payload
  | _ => exact h

/-- A conversation that is in the list already is not put there again. -/
theorem UseConversations.Truthful.startConversation (h : hook.Truthful userId s) {d : Conversation}
    (hd : Listed userId s d.toJSON) : (hook.startConversation d).Truthful userId s := by
  obtain ⟨honce, hlisted⟩ := h
  unfold UseConversations.startConversation
  split
  · exact ⟨honce, hlisted⟩
  · rename_i hnew
    refine ⟨List.nodup_cons.mpr ⟨fun hmem => ?_, honce⟩, fun c hc => ?_⟩
    · obtain ⟨c, hc, hid⟩ := List.mem_map.mp hmem
      exact hnew (List.any_eq_true.mpr ⟨c, hc, beq_iff_eq.mpr hid⟩)
    · rcases List.mem_cons.mp hc with rfl | hc
      · exact hd
      · exact hlisted c hc

end

end

/-! ### Every sidebar -/

/-- The list is right, and what is under way has been asked for. -/
structure Sidebar.Sound (D : Deployment) (start : Server) (socket : Socket) (p : Sidebar) : Prop where
  server : ∃ moves, p.server = (chat D).run (Config.start start) moves
  asked : ∀ call ∈ p.calls, ∀ pid, call.task = some pid →
    ∃ id, .arrived pid (call.request.call socket.userId id) ∈ p.server.world.log
  truthful : p.hook.Truthful socket.userId p.server.world.state

section
variable {D : Deployment} {start : Server} {socket : Socket} {p : Sidebar}

theorem Sidebar.Sound.grown (h : p.Sound D start socket) (m : Move Call) :
    p.server.world.state.board.Grown ((chat D).step p.server m).world.state.board := by
  obtain ⟨moves, hmoves⟩ := h.server
  obtain ⟨_, hsteps, -⟩ := board_steps D start moves [m]
  rw [System.run_append, ← hmoves] at hsteps
  exact Board.grown_steps hsteps

/-- A step of the server. -/
theorem Sidebar.Sound.advance (h : p.Sound D start socket) (m : Move Call) {calls : List ListCall}
    (hcalls : ∀ call ∈ calls, call ∈ p.calls ∨ ∀ pid, call.task = some pid → ∃ id,
      .arrived pid (call.request.call socket.userId id) ∈ ((chat D).step p.server m).world.log) :
    ({p with server := (chat D).step p.server m, calls} : Sidebar).Sound D start socket := by
  obtain ⟨moves, hmoves⟩ := h.server
  refine ⟨⟨moves ++ [m], ?_⟩, fun call hcall pid hpid => ?_, h.truthful.grown (h.grown m)⟩
  · rw [System.run_append, ← hmoves]
    rfl
  · rcases hcalls call hcall with hold | hnew
    · obtain ⟨id, harrived⟩ := h.asked call hold pid hpid
      obtain ⟨new, hlog⟩ := (chat D).step_log p.server m
      rw [hlog]
      exact ⟨id, List.mem_append_right _ harrived⟩
    · exact hnew pid hpid

/-- A call that has come to its end is no longer under way. -/
theorem Sidebar.Sound.settle (h : p.Sound D start socket) (i : Nat) {hook : UseConversations}
    (hhook : hook.Truthful socket.userId p.server.world.state) :
    ({p with calls := p.calls.eraseIdx i, hook} : Sidebar).Sound D start socket :=
  ⟨h.server, fun call hcall => h.asked call (List.mem_of_mem_eraseIdx hcall), hhook⟩

/-- The task is the one that the request has started. -/
theorem Sidebar.Sound.result (h : p.Sound D start socket) {moves : List (Move Call)}
    (hmoves : p.server = (chat D).run (Config.start start) moves) {i : Nat} {call : ListCall}
    (hcall : p.calls[i]? = some call) {response : Response} (hresponse : call.result p.server = some response) :
    ∃ (pid : Nat) (id : ObjectId), call.task = some pid ∧
      ((chat D).run (Config.start start) moves).tasks[pid]? =
        some ⟨call.request.call socket.userId id, .done (.ok response)⟩ := by
  unfold ListCall.result at hresponse
  split at hresponse
  · rename_i call' response' htask
    obtain rfl := Option.some.inj hresponse
    obtain ⟨pid, hpid, hentry⟩ := Option.bind_eq_some_iff.mp htask
    obtain ⟨id, harrived⟩ := h.asked call (List.mem_of_getElem? hcall) pid hpid
    rw [hmoves] at harrived hentry
    obtain rfl := ((Present.start start).run (chat D) moves).unique harrived
      ((behaved_run D start moves).arrived pid _ hentry)
    exact ⟨pid, id, hpid, hentry⟩
  · cases hresponse

theorem Sidebar.Sound.response (h : p.Sound D start socket) (hlinked : Linked start) (i : Nat) :
    (p.response i).Sound D start socket := by
  obtain ⟨moves, hmoves⟩ := h.server
  unfold Sidebar.response
  split
  · exact h
  · rename_i call hcall
    split
    · rename_i list hrequest hlist
      obtain ⟨pid, id, -, hdone⟩ := h.result hmoves hcall hlist
      rw [hrequest] at hdone
      refine h.settle i ?_
      rw [hmoves]
      exact listConversations_truthful p.hook hlinked moves hdone
    · rename_i type members name conversation hrequest hconversation
      obtain ⟨pid, id, -, hdone⟩ := h.result hmoves hcall hconversation
      rw [hrequest] at hdone
      refine h.settle i (h.truthful.startConversation ?_)
      rw [hmoves]
      exact createConversation_listed hlinked moves hdone
    · exact h

theorem Sidebar.Sound.event (h : p.Sound D start socket) : (p.event socket).Sound D start socket := by
  unfold Sidebar.event
  split
  · exact h
  · rename_i e he
    refine ⟨h.server, h.asked, h.truthful.on fun payload hpayload => ?_⟩
    obtain ⟨moves, hmoves⟩ := h.server
    have hsent := List.mem_of_getElem? he
    rw [hpayload, hmoves] at hsent
    obtain ⟨-, -, -, -, -, -, -, -, -, -, -, m, hm, -, hshows, -⟩ := sentTo_authentic hsent
    rw [hmoves]
    exact ⟨m, hm, hshows⟩

theorem Sidebar.Sound.step (h : p.Sound D start socket) (hlinked : Linked start) (m : SidebarMove) :
    (p.step D socket m).Sound D start socket := by
  cases m with
  | server move => exact h.advance move fun _ => .inl
  | refresh =>
    refine ⟨h.server, fun call hcall pid hpid => ?_, h.truthful.once, h.truthful.listed⟩
    rcases List.mem_append.mp hcall with hcall | hcall
    · exact h.asked call hcall pid hpid
    · obtain rfl := List.mem_singleton.mp hcall
      cases hpid
  | startConversation type members name =>
    refine ⟨h.server, fun call hcall pid hpid => ?_, h.truthful.once, h.truthful.listed⟩
    rcases List.mem_append.mp hcall with hcall | hcall
    · exact h.asked call hcall pid hpid
    · obtain rfl := List.mem_singleton.mp hcall
      cases hpid
  | request i id =>
    simp only [Sidebar.step, Sidebar.request]
    split
    · rename_i request hcall
      refine h.advance _ fun call hmem => ?_
      rcases List.mem_or_eq_of_mem_set hmem with hold | rfl
      · exact .inl hold
      · refine .inr fun pid hpid => ?_
        obtain rfl := Option.some.inj hpid
        exact ⟨id, arrived_request D p.server (by cases request <;> rfl)⟩
    · exact h
  | response i => exact h.response hlinked i
  | failure i message =>
    simp only [Sidebar.step, Sidebar.failure]
    split
    · exact h
    · exact h.settle i ⟨h.truthful.once, h.truthful.listed⟩
    · exact h.settle i h.truthful
  | event => exact h.event

theorem Sidebar.Sound.mounted (D : Deployment) (start : Server) (socket : Socket) :
    (Sidebar.mounted start).Sound D start socket := by
  refine ⟨⟨[], rfl⟩, fun call hcall pid hpid => ?_, List.nodup_nil, nofun⟩
  obtain rfl := List.mem_singleton.mp hcall
  cases hpid

theorem Sidebar.Sound.run (h : p.Sound D start socket) (hlinked : Linked start)
    (moves : List SidebarMove) : (p.run D socket moves).Sound D start socket := by
  induction moves generalizing p with
  | nil => exact h
  | cons m rest ih => exact ih (h.step hlinked m)

end

/-- **What the sidebar shows is so.** Whatever is asked for and started, and in whichever order
answers and events come: each entry shows a conversation of the user's, with the members that it
has and a last message that is one of its own, and none is shown twice. -/
theorem sidebar_truthful (D : Deployment) (start : Server) (hlinked : Linked start) (socket : Socket)
    (moves : List SidebarMove) :
    let p := (Sidebar.mounted start).run D socket moves
    p.hook.Truthful socket.userId p.server.world.state :=
  ((Sidebar.Sound.mounted D start socket).run hlinked moves).truthful

/-! The list has been read when a conversation is started, and comes after that. -/

def startedMoves : List SidebarMove :=
  [.request 0 (.ending 7), .server (.answer 0), .server (.resume 0), .server (.answer 0),
    .server (.resume 0), .startConversation .group [(ObjectId.ending 5).toString] (some "team".toList),
    .request 1 (.ending 8), .server (.answer 1), .server (.resume 1), .response 1]

def started (moves : List SidebarMove) : Sidebar :=
  (Sidebar.mounted switchServer).run .default reader (startedMoves ++ moves)

example : (started []).hook.conversations.map ClientConversation.id = [.ending 8] ∧
    (started [.response 0]).hook.conversations.map ClientConversation.id = [.ending 3, .ending 4] := by
  decide +kernel

theorem switchServer_linked : Linked switchServer := by
  intro c hc id hid
  rcases List.mem_cons.mp hc with rfl | hc
  · cases hid
  · rw [List.mem_singleton.mp hc] at hid
    cases hid

theorem sidebar_truthful_started : (started [.response 0]).hook.Truthful reader.userId
    (started [.response 0]).server.world.state := by
  have htruthful := sidebar_truthful .default switchServer switchServer_linked reader (startedMoves ++ [.response 0])
  exact htruthful

end RealtimeChat
