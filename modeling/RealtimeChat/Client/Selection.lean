import RealtimeChat.Handlers.Lawful
import RealtimeChat.Rooms.History

/-! The rooms of a client that goes from one conversation to another.

The server joins a new socket to the rooms of all its user's conversations. The client
joins once more the conversation that it opens, and leaves the one that it closes
(`frontend-ui/src/hooks/useMessages.ts`): it so leaves a room that it was to stay in.
The rooms are all kept exactly if what has been closed has been joined again since
(`rooms_kept_iff`). -/
namespace RealtimeChat
open Data (Text)
open Zod (Value)
open Async Async.System

/-! ### The client -/

/-- The server, and a client of it that has connected. -/
structure Browser where
  server : Config chatInterface Server Failure Call Response
  /-- `activeConversationId` -/
  active : Option ObjectId
  /-- The joins and leaves that are on their way to the server, in the order emitted. -/
  outbox : List (ClientEvent × ObjectId)

inductive BrowserMove where
  /-- Any step of the server, other clients' calls included. -/
  | server (move : Move Call)
  | select (conversationId : Option ObjectId)
  /-- The next join or leave reaches the server. -/
  | deliver

namespace Browser

/-- `socket?.emit('conversation:leave', conversationId)` in the cleanup of the effect -/
def cleanup (active : Option ObjectId) : List (ClientEvent × ObjectId) :=
  active.toList.map fun id => (.conversationLeave, id)

/-- `socket?.emit('conversation:join', conversationId)` in the effect -/
def effect (active : Option ObjectId) : List (ClientEvent × ObjectId) :=
  active.toList.map fun id => (.conversationJoin, id)

section
variable (D : Deployment) (socket : Socket)

/-- The server's steps that the client brings about itself, and its going. -/
def ofClient : Move Call → Bool
  | .arrive (.event other .conversationJoin _ _) => other == socket
  | .arrive (.event other .conversationLeave _ _) => other == socket
  | .arrive (.disconnect other) => other == socket
  | _ => false

/-- There is no callback, and no message to be created under the id. -/
def arrivalOf (request : ClientEvent × ObjectId) : Call :=
  .event socket request.1 [.string request.2.toString] request.2

/-- The effect runs again only if the id has changed. -/
def step (b : Browser) : BrowserMove → Browser
  | .server move => if ofClient socket move then b else {b with server := (chat D).step b.server move}
  | .select next =>
    if next = b.active then b
    else {b with active := next, outbox := b.outbox ++ cleanup b.active ++ effect next}
  | .deliver =>
    match b.outbox with
    | [] => b
    | request :: rest =>
      {b with server := (chat D).step b.server (.arrive (arrivalOf socket request)), outbox := rest}

def run (b : Browser) : List BrowserMove → Browser
  | [] => b
  | m :: rest => run (b.step D socket m) rest

/-- The server runs, with the client connecting to it, and then the client makes its
selections. -/
def browse (start : Server) (before : List (Move Call)) (moves : List BrowserMove) : Browser :=
  run D socket ⟨(chat D).run (Config.start start) before, none, []⟩ moves

end

/-- The conversations that a sequence of selections closes. -/
def closed : Option ObjectId → List BrowserMove → List ObjectId
  | _, [] => []
  | active, .select next :: rest => (if next = active then [] else active.toList) ++ closed next rest
  | active, _ :: rest => closed active rest

/-- The connect handler of the socket has been told of `home`, the conversations of its user,
and has joined it to their rooms. It has not left any since. -/
structure AutoJoined (socket : Socket) (home : List ObjectId) (log : Log) : Prop where
  connected : IsConnected socket log
  joined : ∃ pid, .answered pid (.conversationIds socket.userId) (.ok home) ∈ log ∧
    .acted pid (.join socket (home.map ObjectId.toString)) () ∈ log
  stayed : ∀ pid args id, .arrived pid (.event socket .conversationLeave args id) ∉ log

/-- The room has been left, and joined again since. -/
def Rejoined (room : Text) (socket : Socket) (log : Log) : Prop :=
  (∃ pid rooms r, .acted pid (.leave socket rooms) r ∈ log ∧ room ∈ rooms) ∧
    JoinedSince room socket log

end Browser

/-! ### Leaving -/

/-- A leave takes effect as soon as it arrives. -/
theorem leave_acts {D : Deployment} {c : Config chatInterface Server Failure Call Response}
    {socket : Socket} (hmem : socket ∈ c.world.state.sockets) (room : Text) (id : ObjectId) :
    ∃ pid, .acted pid (.leave socket [room]) () ∈ ((chat D).step c
      (.arrive (.event socket .conversationLeave [.string room] id))).world.log := by
  have haccept : (chat D).accept (.event socket .conversationLeave [.string room] id) c.world.state =
      some c.world.state := if_pos hmem
  obtain ⟨next, hbody⟩ : ∃ next, (chat D).body (.event socket .conversationLeave [.string room] id) =
      .act (.leave socket [room]) next := ⟨_, rfl⟩
  refine ⟨c.tasks.length, ?_⟩
  simp only [System.step, haccept, hbody, settle]
  exact (chat D).mem_settle (.head _)

/-- Whoever leaves has asked for it. -/
theorem Behaved.left {c : Config chatInterface Server Failure Call Response} (h : Behaved c)
    {pid : Nat} {socket : Socket} {rooms : List Text} {r : Unit}
    (hmem : .acted pid (.leave socket rooms) r ∈ c.world.log) :
    ∃ args id, .arrived pid (.event socket .conversationLeave args id) ∈ c.world.log ∧
      rooms = roomsOf (args.getD 0 .undefined) := by
  obtain ⟨later, earlier, hlog⟩ := List.append_of_mem hmem
  obtain ⟨call, task, hentry, hlaw⟩ := h.law hlog rfl
  have hacts := Call.law_acts hlaw
  cases call with
  | event other name args id =>
    cases name with
    | conversationLeave =>
      obtain ⟨rfl, rfl, -⟩ := hlaw
      exact ⟨args, id, h.arrived pid _ hentry, rfl⟩
    | _ => exact hacts.elim
  | _ => exact hacts.elim

/-! ### Every sequence of selections -/

namespace Browser

/-- A client, at any point of it: `left` are the conversations that it has closed. -/
structure Sound (D : Deployment) (start : Server) (socket : Socket) (before : Log)
    (left : List ObjectId) (b : Browser) : Prop where
  server : ∃ moves, b.server = (chat D).run (Config.start start) moves
  connected : hasLeft socket b.server.world.log = false
  grown : ∃ new, b.server.world.log = new ++ before
  requests : ∀ request ∈ b.outbox, request.1 = .conversationJoin ∨
    request.1 = .conversationLeave ∧ request.2 ∈ left
  arrived : ∀ pid args i, .arrived pid (.event socket .conversationLeave args i) ∈ b.server.world.log →
    ∃ id ∈ left, args = [.string id.toString]
  delivered : ∀ id ∈ left, (.conversationLeave, id) ∈ b.outbox ∨
    ∃ pid, .acted pid (.leave socket [id.toString]) () ∈ b.server.world.log

section
variable {D : Deployment} {start : Server} {socket : Socket} {before : Log} {left : List ObjectId}
  {b : Browser}

/-- A step of the server that is not the going of the socket. -/
theorem hasLeft_step {c : Config chatInterface Server Failure Call Response} {m : Move Call}
    (h : hasLeft socket c.world.log = false) (hm : m ≠ .arrive (.disconnect socket)) :
    hasLeft socket ((chat D).step c m).world.log = false := by
  rw [Bool.eq_false_iff, ne_eq, hasLeft_iff] at h ⊢
  intro hleft
  obtain ⟨pid, harrived⟩ := hleft
  rcases (chat D).step_arrived harrived with hold | rfl
  · exact h ⟨pid, hold⟩
  · exact hm rfl

/-- The server takes a step, and some requests of the client have reached it. -/
theorem Sound.advance (h : b.Sound D start socket before left) {move : Move Call}
    {outbox : List (ClientEvent × ObjectId)} (hgoing : move ≠ .arrive (.disconnect socket))
    (hout : ∀ request ∈ outbox, request ∈ b.outbox)
    (harrives : ∀ args i, move = .arrive (.event socket .conversationLeave args i) →
      ∃ id ∈ left, args = [.string id.toString])
    (hdelivers : ∀ id, (.conversationLeave, id) ∈ b.outbox → (.conversationLeave, id) ∈ outbox ∨
      ∃ pid, .acted pid (.leave socket [id.toString]) () ∈ ((chat D).step b.server move).world.log) :
    Sound D start socket before left {b with server := (chat D).step b.server move, outbox} := by
  obtain ⟨moves, hmoves⟩ := h.server
  obtain ⟨new, hgrown⟩ := h.grown
  obtain ⟨new', hlog⟩ := (chat D).step_log b.server move
  refine ⟨⟨moves ++ [move], ?_⟩, hasLeft_step h.connected hgoing, ⟨new' ++ new, ?_⟩,
    fun request hr => h.requests request (hout request hr), fun pid args i harrived => ?_, fun id hid => ?_⟩
  · rw [run_append, ← hmoves]
    rfl
  · rw [hlog, hgrown, List.append_assoc]
  · rcases (chat D).step_arrived harrived with hold | rfl
    · exact h.arrived pid args i hold
    · exact harrives args i rfl
  · rcases h.delivered id hid with hsent | ⟨pid, hacted⟩
    · exact hdelivers id hsent
    · refine .inr ⟨pid, ?_⟩
      rw [hlog]
      exact List.mem_append_right _ hacted

/-- The client closes some conversations, and asks to leave them and to join others. -/
theorem Sound.request (h : b.Sound D start socket before left) (gone opened : List ObjectId)
    (active : Option ObjectId) : Sound D start socket before (left ++ gone)
      {b with
        active
        outbox := b.outbox ++ gone.map (.conversationLeave, ·) ++ opened.map (.conversationJoin, ·) } where
  server := h.server
  connected := h.connected
  grown := h.grown
  requests request hr := by
    rcases List.mem_append.mp hr with hr | hr
    · rcases List.mem_append.mp hr with hr | hr
      · exact (h.requests request hr).imp_right fun h => ⟨h.1, List.mem_append_left _ h.2⟩
      · obtain ⟨id, hid, rfl⟩ := List.mem_map.mp hr
        exact .inr ⟨rfl, List.mem_append_right _ hid⟩
    · obtain ⟨id, -, rfl⟩ := List.mem_map.mp hr
      exact .inl rfl
  arrived pid args i hmem := by
    obtain ⟨id, hid, hargs⟩ := h.arrived pid args i hmem
    exact ⟨id, List.mem_append_left _ hid, hargs⟩
  delivered id hid := by
    rcases List.mem_append.mp hid with hid | hid
    · refine (h.delivered id hid).imp_left fun hr => ?_
      exact List.mem_append_left _ (List.mem_append_left _ hr)
    · exact .inl (List.mem_append_left _ (List.mem_append_right _ (List.mem_map_of_mem hid)))

theorem Sound.step (h : b.Sound D start socket before left) (hsockets : socket ∈ b.server.world.state.sockets)
    (m : BrowserMove) : (b.step D socket m).Sound D start socket before
      (left ++ closed b.active [m]) := by
  cases m with
  | server move =>
    simp only [Browser.step, closed, List.append_nil]
    split
    · exact h
    · rename_i hof
      refine h.advance (fun heq => ?_) (fun _ hr => hr) (fun args i heq => ?_) fun id hid => .inl hid
      · subst heq
        simp [ofClient] at hof
      · subst heq
        simp [ofClient] at hof
  | select next =>
    simp only [Browser.step, closed, List.append_nil]
    split
    · rw [List.append_nil]
      exact h
    · exact h.request b.active.toList next.toList next
  | deliver =>
    simp only [Browser.step, closed, List.append_nil]
    split
    · exact h
    · rename_i request rest houtbox
      have hrequest := h.requests request (houtbox ▸ List.mem_cons_self)
      refine h.advance nofun (fun r hr => houtbox ▸ List.mem_cons_of_mem _ hr) (fun args i heq => ?_)
        fun id hid => ?_
      · simp only [arrivalOf, Move.arrive.injEq, Call.event.injEq] at heq
        obtain ⟨-, hname, rfl, rfl⟩ := heq
        rw [hname] at hrequest
        exact ⟨request.2, (hrequest.resolve_left nofun).2, rfl⟩
      · rw [houtbox] at hid
        rcases List.mem_cons.mp hid with rfl | hid
        · exact .inr (leave_acts hsockets id.toString id)
        · exact .inl hid

theorem closed_cons (m : BrowserMove) (rest : List BrowserMove) :
    closed b.active (m :: rest) = closed b.active [m] ++ closed (b.step D socket m).active rest := by
  cases m with
  | server move =>
    simp only [Browser.step, closed, List.nil_append]
    split <;> rfl
  | select next =>
    simp only [Browser.step, closed, List.append_nil]
    split
    · rename_i h
      rw [h]
    · rfl
  | deliver =>
    simp only [Browser.step, closed, List.nil_append]
    split <;> rfl

variable {users : Users} {conversations : Conversations} {messages : Messages} {clock : Nat}

theorem Sound.here (h : b.Sound D (.boot users conversations messages clock) socket before left)
    (hconnect : IsConnected socket before) : socket ∈ b.server.world.state.sockets := by
  obtain ⟨moves, hmoves⟩ := h.server
  obtain ⟨new, hgrown⟩ := h.grown
  obtain ⟨⟨pid, harrived⟩, -⟩ := hconnect
  have hrecorded := run_recorded D users conversations messages clock moves
  rw [← hmoves] at hrecorded
  refine (hrecorded.sockets socket).mpr ⟨⟨pid, ?_⟩, h.connected⟩
  rw [hgrown]
  exact List.mem_append_right _ harrived

theorem Sound.run (h : b.Sound D (.boot users conversations messages clock) socket before left)
    (hconnect : IsConnected socket before) (moves : List BrowserMove) :
    (b.run D socket moves).Sound D (.boot users conversations messages clock) socket before
      (left ++ closed b.active moves) := by
  induction moves generalizing b left with
  | nil => exact (List.append_nil left).symm ▸ h
  | cons m rest ih =>
    rw [@closed_cons D socket, ← List.append_assoc]
    exact ih (h.step (h.here hconnect) m)

/-- What the client has not closed, it is in: it was joined, and nobody has left it. -/
theorem Sound.unclosed (h : b.Sound D (.boot users conversations messages clock) socket before left)
    {home : List ObjectId} (hjoined : AutoJoined socket home before) {id : ObjectId} (hid : id ∈ home)
    (hopen : id ∉ left) : JoinedSince id.toString socket b.server.world.log := by
  obtain ⟨moves, hmoves⟩ := h.server
  obtain ⟨new, hgrown⟩ := h.grown
  obtain ⟨pid, -, hmem⟩ := hjoined.joined
  have hbehaved := behaved_run D (.boot users conversations messages clock) moves
  rw [← hmoves] at hbehaved
  obtain ⟨later, earlier, hlog⟩ : ∃ later earlier, b.server.world.log = later ++
      .acted pid (.join socket (home.map ObjectId.toString)) () :: earlier := by
    apply List.append_of_mem
    rw [hgrown]
    exact List.mem_append_right _ hmem
  refine ⟨later, pid, _, (), earlier, hlog, List.mem_map_of_mem hid, fun pid' rooms r hleave hroom => ?_⟩
  have hleave' : .acted pid' (.leave socket rooms) r ∈ b.server.world.log := by
    rw [hlog]
    exact List.mem_append_left _ hleave
  obtain ⟨args, i, harrived, rfl⟩ := hbehaved.left hleave'
  obtain ⟨other, hother, rfl⟩ := h.arrived pid' args i harrived
  obtain rfl : id = other := by
    have hspelled : id.toString = other.toString := List.mem_singleton.mp hroom
    have hcast := congrArg ObjectId.cast hspelled
    rw [ObjectId.cast_toString, ObjectId.cast_toString] at hcast
    exact Option.some.inj hcast
  exact hopen hother

end

/-- **The rooms of a client.** Once all joins and leaves of the client have reached the
server, its socket is in the room of every conversation that it was joined to on
connecting, if and only if each of these that it has closed has been joined again since it
was last left. -/
theorem rooms_kept_iff (D : Deployment) (users : Users) (conversations : Conversations)
    (messages : Messages) (clock : Nat) (socket : Socket) (home : List ObjectId)
    (before : List (Move Call)) (moves : List BrowserMove)
    (hjoined : AutoJoined socket home
      ((chat D).run (Config.start (.boot users conversations messages clock)) before).world.log)
    (hreached : (browse D socket (.boot users conversations messages clock) before moves).outbox = []) :
    (∀ id ∈ home, (id.toString, socket) ∈
      (browse D socket (.boot users conversations messages clock) before moves).server.world.state.rooms) ↔
    ∀ id ∈ home, id ∈ closed none moves → Rejoined id.toString socket
      (browse D socket (.boot users conversations messages clock) before moves).server.world.log := by
  have hstart : Sound D (.boot users conversations messages clock) socket
      ((chat D).run (Config.start (.boot users conversations messages clock)) before).world.log []
      ⟨(chat D).run (Config.start (.boot users conversations messages clock)) before, none, []⟩ :=
    ⟨⟨before, rfl⟩, hjoined.connected.2, ⟨[], rfl⟩, nofun,
      fun pid args i h => absurd h (hjoined.stayed pid args i), nofun⟩
  have hsound := hstart.run hjoined.connected moves
  rw [browse] at hreached ⊢
  generalize Browser.run D socket _ moves = b at *
  obtain ⟨all, hall⟩ := hsound.server
  have hrecorded := run_recorded D users conversations messages clock all
  rw [← hall] at hrecorded
  have hroom : ∀ id : ObjectId, (id.toString, socket) ∈ b.server.world.state.rooms ↔
      JoinedSince id.toString socket b.server.world.log := by
    intro id
    rw [hrecorded.rooms socket id.toString hsound.connected (ObjectId.isValid_toString id), joinedLast_iff]
  constructor
  · intro h id hid hclosed
    refine ⟨?_, (hroom id).mp (h id hid)⟩
    rcases hsound.delivered id hclosed with hsent | ⟨pid, hleft⟩
    · rw [hreached] at hsent
      cases hsent
    · exact ⟨pid, _, _, hleft, List.mem_singleton_self _⟩
  · intro h id hid
    apply (hroom id).mpr
    by_cases hclosed : id ∈ closed none moves
    · exact (h id hid hclosed).2
    · exact hsound.unclosed hjoined hid hclosed

end Browser

/-! A member of two conversations opens the first and then the second. -/

def sidebarUser : Socket := ⟨.ofChar 'a', .ending 1, "ann".toList⟩

def sidebarServer : Server := .boot .empty
  ⟨[⟨.ending 10, .oneToOne, none, [.ending 1, .ending 2], none, 0, 0⟩,
    ⟨.ending 11, .oneToOne, none, [.ending 1, .ending 3], none, 0, 0⟩], by decide⟩ .empty 0

def sidebarMoves : List (Move Call) :=
  [.arrive (.connect sidebarUser)] ++ Move.rounds 0 4

def sidebarSelections : List BrowserMove :=
  [.select (some (.ending 10)), .deliver, .server (.answer 1), .server (.resume 1),
    .server (.answer 1), .server (.resume 1), .select (some (.ending 11)), .deliver, .deliver,
    .server (.answer 2), .server (.resume 2), .server (.answer 3), .server (.resume 3),
    .server (.answer 3), .server (.resume 3)]

def sidebar : Browser :=
  .browse .default sidebarUser sidebarServer sidebarMoves sidebarSelections

theorem sidebar_joined : Browser.AutoJoined sidebarUser [.ending 10, .ending 11]
    ((chat .default).run (Config.start sidebarServer) sidebarMoves).world.log := by
  have harrivals : arrivals ((chat .default).run (Config.start sidebarServer) sidebarMoves).world.log =
      [.connect sidebarUser] := rfl
  refine ⟨⟨⟨0, List.mem_of_getElem? (i := 9) rfl⟩, rfl⟩, ⟨0, List.mem_of_getElem? (i := 8) rfl,
    List.mem_of_getElem? (i := 7) rfl⟩, fun pid args id h => ?_⟩
  have harrived := mem_arrivals h
  rw [harrivals] at harrived
  cases List.mem_singleton.mp harrived

theorem rooms_kept_iff_sidebar :
    (∀ id ∈ [ObjectId.ending 10, .ending 11], (id.toString, sidebarUser) ∈ sidebar.server.world.state.rooms) ↔
      ∀ id ∈ [ObjectId.ending 10, .ending 11], id ∈ Browser.closed none sidebarSelections →
        Browser.Rejoined id.toString sidebarUser sidebar.server.world.log :=
  Browser.rooms_kept_iff .default .empty _ .empty 0 sidebarUser _ sidebarMoves sidebarSelections
    sidebar_joined (by decide +kernel)

/-- No join or leave is in flight, and the room of the first conversation is gone. -/
theorem sidebar_leaves : Browser.AutoJoined sidebarUser [.ending 10, .ending 11]
      ((chat .default).run (Config.start sidebarServer) sidebarMoves).world.log ∧
    sidebar.outbox = [] ∧ (∀ entry ∈ sidebar.server.tasks, entry.task.isDone = true) ∧
    ¬ ∀ id ∈ [ObjectId.ending 10, .ending 11],
      (id.toString, sidebarUser) ∈ sidebar.server.world.state.rooms :=
  ⟨sidebar_joined, by decide +kernel⟩

end RealtimeChat
