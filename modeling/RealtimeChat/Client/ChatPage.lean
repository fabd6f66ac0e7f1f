import RealtimeChat.Client.Session
import RealtimeChat.Messages.Stored

/-! The page of a signed-in user, over all the conversations that are opened on it
(`frontend-ui/src/pages/ChatPage.tsx`, `frontend-ui/src/hooks/useMessages.ts`).

A `Session` is one conversation from its opening on. Here the user goes from one
conversation to another while requests for the histories of earlier ones are still under
way, and writes messages whose callbacks come when something else is open. None of this
is seen: from the last selection on, the page is a session of its own (`page_session`).

`notifyTyping` and its timer are left out of the moves: they emit, and show nothing on the page
itself (`Client/TypingTimer.lean`). -/
namespace RealtimeChat
open Data (Text trim)
open Zod (Value)
open Async Async.System

/-- A call of `load()` that has not come to its end. -/
structure LoadCall where
  conversationId : Text
  /-- The variable of the effect that has made the call; the cleanup of the effect sets it. -/
  cancelled : Bool
  /-- The task that answers the request, once that has reached the server. -/
  request : Option Nat

/-- The server, and the page of a client with a socket of its own. -/
structure ChatPage where
  server : Config chatInterface Server Failure Call Response
  /-- The conversation that the effect has last run for. -/
  conversationId : Option Text
  thread : UseMessages
  loads : List LoadCall
  /-- What has been emitted and has not reached the server, in order. -/
  outbox : List (ClientEvent × List Value)
  /-- The tasks of the messages sent whose callbacks have not been called. -/
  unacknowledged : List Nat
  /-- How many of the events sent to the socket have come. -/
  heard : Nat

inductive ChatPageMove where
  /-- Any step of the server, other clients' calls included. -/
  | server (move : Move Call)
  /-- The effect runs after a selection. -/
  | select (next : Option Text)
  | sendMessage (text : Text)
  | markRead (upToMessageId : Text)
  /-- The next event emitted reaches the server, with an id for a message to be created. -/
  | deliver (id : ObjectId)
  /-- The request of one of the calls of `load()` reaches the server. -/
  | request (call : Nat)
  | response (call : Nat)
  /-- The request fails: an error response, or none. -/
  | failure (call : Nat) (message : String)
  /-- The next event of the socket comes. -/
  | event
  /-- The callback of a message sent is called. -/
  | acknowledge (pid : Nat)

/-- The first response that the task has called its callback with. -/
def ackOf (pid : Nat) (log : Log) : Option SocketAck :=
  log.reverse.findSome? fun
    | .acted p (.ack response) _ => if p = pid then some response else none
    | _ => none

/-- `ack.message || 'Failed to send message'` -/
def refusal (response : SocketAck) : String :=
  match response.message with
  | some message => if message.isEmpty then "Failed to send message" else message
  | none => "Failed to send message"

namespace UseMessages

/-- The effect without a conversation resets the thread and leaves the rest as it was. -/
def reset (s : UseMessages) : UseMessages := {s with messages := [], typingUsers := fun _ => none}

/-- The callback of `message:send` -/
def acknowledged (response : SocketAck) (s : UseMessages) : UseMessages :=
  if response.success then s else {s with error := some (refusal response)}

end UseMessages

namespace ChatPage

/-- Before the effect has run for any conversation. -/
def mounted (start : Server) : ChatPage :=
  ⟨Config.start start, none, ⟨[], false, none, fun _ => none⟩, [], [], [], 0⟩

/-- The cleanup of the effect, and the effect. -/
def select (next : Option Text) (p : ChatPage) : ChatPage :=
  let loads := p.loads.map fun load => {load with cancelled := true}
  let left := p.conversationId.toList.map fun id => (.conversationLeave, [.string id])
  match next with
  | none => {p with
      conversationId := none, thread := p.thread.reset, loads, outbox := p.outbox ++ left}
  | some id => {p with
      conversationId := some id
      thread := p.thread.subscribe
      loads := loads ++ [⟨id, false, none⟩]
      outbox := p.outbox ++ left ++ [(.conversationJoin, [.string id])]}

def sendMessage (text : Text) (p : ChatPage) : ChatPage :=
  match p.conversationId with
  | none => p
  | some id =>
    if trim text = [] then p
    else {p with outbox := p.outbox ++ [(.messageSend, [sendPayload id (trim text), .function])]}

def markRead (upToMessageId : Text) (p : ChatPage) : ChatPage :=
  match p.conversationId with
  | none => p
  | some id => {p with
      outbox := p.outbox ++ [(.messageRead, [.object [("conversationId", .string id),
        ("upToMessageId", .string upToMessageId)]])]}

section
variable (D : Deployment) (socket : Socket)

/-- A socket that is not connected keeps what is emitted until it is. -/
def deliver (id : ObjectId) (p : ChatPage) : ChatPage :=
  match p.outbox with
  | [] => p
  | (name, args) :: rest =>
    if socket ∈ p.server.world.state.sockets then
      {p with
        server := (chat D).step p.server (.arrive (.event socket name args id))
        outbox := rest
        unacknowledged := if name = .messageSend then p.unacknowledged ++ [p.server.tasks.length]
          else p.unacknowledged}
    else p

def request (call : Nat) (p : ChatPage) : ChatPage :=
  match p.loads[call]? with
  | some ⟨id, cancelled, none⟩ => {p with
      server := (chat D).step p.server (.arrive (Session.historyRequest socket id))
      loads := p.loads.set call ⟨id, cancelled, some p.server.tasks.length⟩}
  | _ => p

/-- The `await` in `load()` goes on with a page. -/
def response (call : Nat) (p : ChatPage) : ChatPage :=
  match p.loads[call]? with
  | none => p
  | some load =>
    match load.request.bind fun pid => p.server.tasks[pid]? with
    | some ⟨_, .done (.ok (.messages result))⟩ => {p with
        loads := p.loads.eraseIdx call
        thread := if load.cancelled then p.thread
          else p.thread.loaded (result.messages.map toSocketPayload)}
    | _ => p

def failure (call : Nat) (message : String) (p : ChatPage) : ChatPage :=
  match p.loads[call]? with
  | none => p
  | some load => {p with
      loads := p.loads.eraseIdx call
      thread := if load.cancelled then p.thread else p.thread.loadFailed message}

/-- The listeners are those of the conversation that is open. -/
def event (p : ChatPage) : ChatPage :=
  match (sentTo socket p.server.world.log)[p.heard]? with
  | none => p
  | some e => {p with
      heard := p.heard + 1
      thread := match p.conversationId with
        | none => p.thread
        | some id => p.thread.on id e}

def acknowledge (pid : Nat) (p : ChatPage) : ChatPage :=
  if pid ∈ p.unacknowledged then
    match ackOf pid p.server.world.log with
    | none => p
    | some response => {p with
        unacknowledged := p.unacknowledged.erase pid
        thread := p.thread.acknowledged response}
  else p

def step (p : ChatPage) : ChatPageMove → ChatPage
  | .server move => {p with server := (chat D).step p.server move}
  | .select next => if next = p.conversationId then p else p.select next
  | .sendMessage text => p.sendMessage text
  | .markRead upToMessageId => p.markRead upToMessageId
  | .deliver id => p.deliver D socket id
  | .request call => p.request D socket call
  | .response call => p.response call
  | .failure call message => p.failure call message
  | .event => p.event socket
  | .acknowledge pid => p.acknowledge pid

def run (p : ChatPage) : List ChatPageMove → ChatPage
  | [] => p
  | m :: rest => run (p.step D socket m) rest

end

end ChatPage

/-! ### The session that a page is -/

/-- What is shown: the error is not. -/
def UseMessages.seen (s : UseMessages) : UseMessages := {s with error := none}

@[simp] theorem UseMessages.seen_messages (s : UseMessages) : s.seen.messages = s.messages := rfl

@[simp] theorem UseMessages.seen_typingUsers (s : UseMessages) : s.seen.typingUsers = s.typingUsers := rfl

theorem UseMessages.seen_on (conversationId : Text) (e : ServerEvent) (s : UseMessages) :
    (s.on conversationId e).seen = s.seen.on conversationId e := by
  cases e with
  | messageNew payload =>
    simp only [on, onNewMessage]
    split <;> rfl
  | messageDelivered messageId c deliveredBy =>
    simp only [on, onDelivered]
    split <;> rfl
  | messageRead c messageIds readBy =>
    simp only [on, onRead]
    split <;> rfl
  | typing signal c userId username =>
    simp only [on, onTyping]
    split <;> rfl
  | userOnline payload => rfl
  | userOffline payload => rfl

theorem UseMessages.seen_acknowledged (response : SocketAck) (s : UseMessages) :
    (s.acknowledged response).seen = s.seen := by
  unfold acknowledged
  split <;> rfl

/-- The call of `load()` of the conversation that is open, until it settles. -/
def Session.calls (conversationId : Text) (s : Session) : List LoadCall :=
  match s.load with
  | .pending => [⟨conversationId, false, s.request⟩]
  | _ => []

/-- The page shows what the session shows, and has heard what the session has. -/
structure ChatPage.Follows (conversationId : Text) (missed : Nat) (s : Session) (p : ChatPage) : Prop where
  opened : p.conversationId = some conversationId
  server : p.server = s.server
  thread : p.thread.seen = s.thread.seen
  heard : p.heard = missed + (s.early ++ s.late).length
  loads : p.loads.filter (fun load => !load.cancelled) = s.calls conversationId

/-- A list around one of its elements. -/
theorem split_at {α : Type} {l : List α} {i : Nat} {a : α} (h : l[i]? = some a) :
    ∃ front back, l = front ++ a :: back ∧ l.eraseIdx i = front ++ back ∧
      ∀ a', l.set i a' = front ++ a' :: back := by
  obtain ⟨hlt, rfl⟩ := List.getElem?_eq_some_iff.mp h
  refine ⟨l.take i, l.drop (i + 1), ?_, List.eraseIdx_eq_take_drop_succ l i, fun a' => ?_⟩
  · rw [List.getElem_cons_drop, List.take_append_drop]
  · exact List.set_eq_take_append_cons_drop.trans (if_pos hlt)

section
variable {D : Deployment} {socket : Socket} {conversationId : Text} {missed : Nat} {s : Session}
  {p : ChatPage}

/-- A call that has not been cancelled is the one of the session. -/
theorem ChatPage.Follows.current (h : p.Follows conversationId missed s) {i : Nat} {load : LoadCall}
    (hload : p.loads[i]? = some load) (hcurrent : load.cancelled = false) :
    s.load = .pending ∧ load = ⟨conversationId, false, s.request⟩ ∧
      (p.loads.eraseIdx i).filter (fun load => !load.cancelled) = [] ∧
      ∀ load', load'.cancelled = false →
        (p.loads.set i load').filter (fun load => !load.cancelled) = [load'] := by
  obtain ⟨front, back, hsplit, herase, hset⟩ := split_at hload
  have hcalls := h.loads
  rw [hsplit, List.filter_append, List.filter_cons_of_pos (by simp [hcurrent])] at hcalls
  cases hpending : s.load with
  | pending =>
    rw [Session.calls, hpending] at hcalls
    obtain ⟨hfront, htail⟩ | ⟨-, hnil⟩ := List.append_eq_singleton_iff.mp hcalls
    · obtain ⟨rfl, hback⟩ := List.cons.inj htail
      refine ⟨rfl, rfl, ?_, fun load' hload' => ?_⟩
      · rw [herase, List.filter_append, hfront, hback]
        rfl
      · rw [hset, List.filter_append, hfront, List.filter_cons_of_pos (by simp [hload']), hback]
        rfl
    · cases hnil
  | _ =>
    rw [Session.calls, hpending] at hcalls
    exact absurd hcalls (by simp)

/-- A call that has been cancelled is none of the session's. -/
theorem ChatPage.Follows.stale (h : p.Follows conversationId missed s) {i : Nat} {load : LoadCall}
    (hload : p.loads[i]? = some load) (hstale : load.cancelled = true) :
    (p.loads.eraseIdx i).filter (fun load => !load.cancelled) = s.calls conversationId ∧
      ∀ load', load'.cancelled = true →
        (p.loads.set i load').filter (fun load => !load.cancelled) = s.calls conversationId := by
  obtain ⟨front, back, hsplit, herase, hset⟩ := split_at hload
  have hcalls := h.loads
  rw [hsplit, List.filter_append, List.filter_cons_of_neg (by simp [hstale])] at hcalls
  refine ⟨?_, fun load' hload' => ?_⟩
  · rw [herase, List.filter_append, hcalls]
  · rw [hset, List.filter_append, List.filter_cons_of_neg (by simp [hload']), hcalls]

theorem ChatPage.Follows.advance (h : p.Follows conversationId missed s) (m : Move Call)
    (outbox : List (ClientEvent × List Value)) (unacknowledged : List Nat) :
    ({p with server := (chat D).step p.server m, outbox, unacknowledged} : ChatPage).Follows
      conversationId missed {s with server := (chat D).step s.server m} :=
  ⟨h.opened, congrArg ((chat D).step · m) h.server, h.thread, h.heard, h.loads⟩

theorem ChatPage.Follows.request (h : p.Follows conversationId missed s) (i : Nat) :
    ∃ moves, (p.request D socket i).Follows conversationId missed
      (s.run D socket conversationId missed moves) := by
  have hserver : ∀ m, (chat D).step p.server m = (chat D).step s.server m := fun m => by rw [h.server]
  unfold ChatPage.request
  split
  · rename_i id cancelled hload
    cases cancelled with
    | true =>
      -- The request of an earlier conversation: any other step of the server.
      obtain ⟨-, hset⟩ := h.stale hload rfl
      exact ⟨[.server (.arrive (Session.historyRequest socket id))], h.opened,
        hserver (.arrive (Session.historyRequest socket _)), h.thread, h.heard, hset _ rfl⟩
    | false =>
      obtain ⟨hpending, hcall, -, hset⟩ := h.current hload rfl
      obtain ⟨rfl, -, hrequest⟩ := LoadCall.mk.injEq _ _ _ _ _ _ ▸ hcall
      refine ⟨[.request], ?_⟩
      simp only [Session.run, Session.step, ← hrequest]
      refine ⟨h.opened, hserver (.arrive (Session.historyRequest socket _)), h.thread, h.heard, ?_⟩
      rw [hset _ rfl, Session.calls, hpending, h.server]
  · exact ⟨[], h⟩

theorem ChatPage.Follows.response (h : p.Follows conversationId missed s) (i : Nat) :
    ∃ moves, (p.response i).Follows conversationId missed
      (s.run D socket conversationId missed moves) := by
  unfold ChatPage.response
  split
  · exact ⟨[], h⟩
  · rename_i load hload
    split
    · rename_i call result hdone
      cases hcancelled : load.cancelled with
      | true =>
        obtain ⟨herase, -⟩ := h.stale hload hcancelled
        exact ⟨[], h.opened, h.server, h.thread, h.heard, herase⟩
      | false =>
        obtain ⟨hpending, rfl, herase, -⟩ := h.current hload hcancelled
        refine ⟨[.response], ?_⟩
        rw [h.server] at hdone
        simp only [Session.run, Session.step, hpending, hdone]
        refine ⟨h.opened, h.server, ?_, h.heard, herase⟩
        have hthread := congrArg (UseMessages.loaded (result.messages.map toSocketPayload)) h.thread
        exact hthread
    · exact ⟨[], h⟩

theorem ChatPage.Follows.failure (h : p.Follows conversationId missed s) (i : Nat) (message : String) :
    ∃ moves, (p.failure i message).Follows conversationId missed
      (s.run D socket conversationId missed moves) := by
  unfold ChatPage.failure
  split
  · exact ⟨[], h⟩
  · rename_i load hload
    cases hcancelled : load.cancelled with
    | true =>
      obtain ⟨herase, -⟩ := h.stale hload hcancelled
      exact ⟨[], h.opened, h.server, h.thread, h.heard, herase⟩
    | false =>
      obtain ⟨hpending, rfl, herase, -⟩ := h.current hload hcancelled
      refine ⟨[.failure message], ?_⟩
      simp only [Session.run, Session.step, hpending]
      refine ⟨h.opened, h.server, ?_, h.heard, herase⟩
      have hthread := congrArg (fun t : UseMessages => {t with loading := false}) h.thread
      exact hthread

theorem ChatPage.Follows.event (h : p.Follows conversationId missed s) :
    ∃ moves, (p.event socket).Follows conversationId missed
      (s.run D socket conversationId missed moves) := by
  unfold ChatPage.event
  split
  · exact ⟨[], h⟩
  · rename_i e he
    refine ⟨[.event], ?_⟩
    rw [h.heard, h.server] at he
    have hthread : (p.thread.on conversationId e).seen = (s.thread.on conversationId e).seen := by
      rw [UseMessages.seen_on, UseMessages.seen_on, h.thread]
    simp only [Session.run, Session.step, he, h.opened]
    cases hload : s.load <;> refine ⟨rfl, h.server, hthread, ?_, ?_⟩
    all_goals first
      | (simp only [h.heard, List.length_append, List.length_singleton]; omega)
      | (rw [h.loads, Session.calls, Session.calls, hload])

theorem ChatPage.Follows.step (h : p.Follows conversationId missed s) (m : ChatPageMove)
    (hm : ∀ next, m = .select next → next = some conversationId) :
    ∃ moves, (p.step D socket m).Follows conversationId missed
      (s.run D socket conversationId missed moves) := by
  cases m with
  | server move => exact ⟨[.server move], h.advance move _ _⟩
  | select next =>
    obtain rfl := hm next rfl
    exact ⟨[], by rwa [ChatPage.step, if_pos h.opened.symm]⟩
  | sendMessage text =>
    refine ⟨[], ?_⟩
    simp only [ChatPage.step, ChatPage.sendMessage, h.opened]
    split
    · exact h
    · exact ⟨rfl, h.server, h.thread, h.heard, h.loads⟩
  | markRead upToMessageId =>
    refine ⟨[], ?_⟩
    simp only [ChatPage.step, ChatPage.markRead, h.opened]
    exact ⟨rfl, h.server, h.thread, h.heard, h.loads⟩
  | deliver id =>
    simp only [ChatPage.step, ChatPage.deliver]
    split
    · exact ⟨[], h⟩
    · split
      · exact ⟨[.server _], h.advance _ _ _⟩
      · exact ⟨[], h⟩
  | request call => exact h.request call
  | response call => exact h.response call
  | failure call message => exact h.failure call message
  | event => exact h.event
  | acknowledge pid =>
    refine ⟨[], ?_⟩
    simp only [ChatPage.step, ChatPage.acknowledge]
    split
    · split
      · exact h
      · exact ⟨h.opened, h.server, (UseMessages.seen_acknowledged _ _).trans h.thread, h.heard, h.loads⟩
    · exact h

/-- A move selects another conversation, or leaves open what is open, and comes to a step of
the server or to none. -/
theorem ChatPage.step_cases (D : Deployment) (socket : Socket) (p : ChatPage) (m : ChatPageMove) :
    (∃ next, m = .select next ∧ next ≠ p.conversationId ∧ p.step D socket m = p.select next) ∨
      (∀ next, m = .select next → next = p.conversationId) ∧
        (p.step D socket m).conversationId = p.conversationId ∧
        ((p.step D socket m).server = p.server ∨
          ∃ move, (p.step D socket m).server = (chat D).step p.server move) := by
  cases m with
  | server move => exact .inr ⟨nofun, rfl, .inr ⟨move, rfl⟩⟩
  | select next =>
    by_cases hnext : next = p.conversationId
    · rw [ChatPage.step, if_pos hnext]
      exact .inr ⟨fun _ heq => ChatPageMove.select.inj heq ▸ hnext, rfl, .inl rfl⟩
    · exact .inl ⟨next, rfl, hnext, if_neg hnext⟩
  | sendMessage text =>
    simp only [ChatPage.step, ChatPage.sendMessage]
    split
    · exact .inr ⟨nofun, rfl, .inl rfl⟩
    · split <;> exact .inr ⟨nofun, rfl, .inl rfl⟩
  | markRead upToMessageId =>
    simp only [ChatPage.step, ChatPage.markRead]
    split <;> exact .inr ⟨nofun, rfl, .inl rfl⟩
  | deliver id =>
    simp only [ChatPage.step, ChatPage.deliver]
    split
    · exact .inr ⟨nofun, rfl, .inl rfl⟩
    · rename_i name args rest houtbox
      split
      · exact .inr ⟨nofun, rfl, .inr ⟨.arrive (.event socket name args id), rfl⟩⟩
      · exact .inr ⟨nofun, rfl, .inl rfl⟩
  | request call =>
    simp only [ChatPage.step, ChatPage.request]
    split
    · rename_i id cancelled hload
      exact .inr ⟨nofun, rfl, .inr ⟨.arrive (Session.historyRequest socket id), rfl⟩⟩
    · exact .inr ⟨nofun, rfl, .inl rfl⟩
  | response call =>
    simp only [ChatPage.step, ChatPage.response]
    split
    · exact .inr ⟨nofun, rfl, .inl rfl⟩
    · split <;> exact .inr ⟨nofun, rfl, .inl rfl⟩
  | failure call message =>
    simp only [ChatPage.step, ChatPage.failure]
    split <;> exact .inr ⟨nofun, rfl, .inl rfl⟩
  | event =>
    simp only [ChatPage.step, ChatPage.event]
    split <;> exact .inr ⟨nofun, rfl, .inl rfl⟩
  | acknowledge pid =>
    simp only [ChatPage.step, ChatPage.acknowledge]
    split
    · split <;> exact .inr ⟨nofun, rfl, .inl rfl⟩
    · exact .inr ⟨nofun, rfl, .inl rfl⟩

/-- What is selected is opened, whatever is still under way of what was open before. -/
theorem ChatPage.select_follows (p : ChatPage) (id : Text) :
    (p.select (some id)).Follows id p.heard (.opened p.server p.thread) := by
  refine ⟨rfl, rfl, rfl, rfl, ?_⟩
  have hnone : (p.loads.map fun load => {load with cancelled := true}).filter
      (fun load => !load.cancelled) = [] := by
    simp
  simp only [ChatPage.select, List.filter_append, hnone]
  rfl

theorem Session.run_run (s : Session) (a b : List SessionMove) :
    (s.run D socket conversationId missed a).run D socket conversationId missed b =
      s.run D socket conversationId missed (a ++ b) := by
  induction a generalizing s with
  | nil => rfl
  | cons m rest ih => exact ih _

/-- While nothing else is selected, the session goes on with the page. -/
theorem ChatPage.Follows.run (h : p.Follows conversationId missed s) (moves : List ChatPageMove)
    (hmoves : ∀ next, .select next ∈ moves → next = some conversationId) :
    ∃ sessionMoves, (p.run D socket moves).Follows conversationId missed
      (s.run D socket conversationId missed sessionMoves) := by
  induction moves generalizing p s with
  | nil => exact ⟨[], h⟩
  | cons m rest ih =>
    obtain ⟨first, hfirst⟩ := h.step m fun next hm => hmoves next (hm ▸ .head _)
    obtain ⟨more, hmore⟩ := ih hfirst fun next hm => hmoves next (.tail _ hm)
    exact ⟨first ++ more, by rwa [← Session.run_run]⟩

theorem ChatPage.select_run (hclosed : p.conversationId ≠ some conversationId) (after : List ChatPageMove)
    (hafter : ∀ next, .select next ∈ after → next = some conversationId) :
    ∃ sessionMoves, (p.run D socket (.select (some conversationId) :: after)).Follows conversationId p.heard
      ((Session.opened p.server p.thread).run D socket conversationId p.heard sessionMoves) := by
  simp only [ChatPage.run, ChatPage.step, if_neg (Ne.symm hclosed)]
  exact (p.select_follows conversationId).run after hafter

theorem ChatPage.run_append (p : ChatPage) (a b : List ChatPageMove) :
    p.run D socket (a ++ b) = (p.run D socket a).run D socket b := by
  induction a generalizing p with
  | nil => rfl
  | cons m rest ih => exact ih _

/-- The server of a page is in a run of its own. -/
theorem ChatPage.run_server (D : Deployment) (socket : Socket) (p : ChatPage) (moves : List ChatPageMove) :
    ∃ serverMoves, (p.run D socket moves).server = (chat D).run p.server serverMoves := by
  induction moves generalizing p with
  | nil => exact ⟨[], rfl⟩
  | cons m rest ih =>
    obtain ⟨more, hmore⟩ := ih (p.step D socket m)
    rcases p.step_cases D socket m with ⟨next, -, -, hselect⟩ | ⟨-, -, hsame | ⟨move, hmove⟩⟩
    · refine ⟨more, hmore.trans ?_⟩
      rw [hselect]
      cases next <;> rfl
    · exact ⟨more, by rw [ChatPage.run, hmore, hsame]⟩
    · exact ⟨move :: more, by rw [ChatPage.run, hmore, hmove]; rfl⟩

/-- What is open has been selected, and nothing else has since. -/
theorem ChatPage.last_selected (hclosed : p.conversationId = none) (moves : List ChatPageMove) {id : Text}
    (h : (p.run D socket moves).conversationId = some id) :
    ∃ before after, moves = before ++ .select (some id) :: after ∧
      (p.run D socket before).conversationId ≠ some id ∧ ∀ next, .select next ∈ after → next = some id := by
  -- From the end: what is open after the last move has been opened by it, or before it.
  induction moves using List.reverseRecOn with
  | nil => cases hclosed.symm.trans h
  | append_singleton rest m ih =>
    rw [ChatPage.run_append] at h
    rcases (p.run D socket rest).step_cases D socket m with ⟨next, rfl, hne, hselect⟩ | ⟨hstays, hopen, -⟩
    · rw [ChatPage.run, hselect] at h
      obtain rfl : next = some id := by cases next <;> exact h
      exact ⟨rest, [], rfl, Ne.symm hne, nofun⟩
    · have hid : (p.run D socket rest).conversationId = some id := hopen.symm.trans h
      obtain ⟨before, after, rfl, hbefore, hafter⟩ := ih hid
      refine ⟨before, after ++ [m], List.append_assoc _ _ _, hbefore, fun next hnext => ?_⟩
      rcases List.mem_append.mp hnext with hnext | hnext
      · exact hafter next hnext
      · exact (hstays next (List.mem_singleton.mp hnext).symm).trans hid

end

/-- **A page is a session.** Whatever has been opened before, with whatever histories still
under way and whatever callbacks to come: what the page shows of the conversation that is
open, a session shows that was opened with the last selection, on the server and the thread of
that moment. -/
theorem page_session (D : Deployment) (start : Server) (socket : Socket) (moves : List ChatPageMove)
    {conversationId : Text}
    (h : ((ChatPage.mounted start).run D socket moves).conversationId = some conversationId) :
    ∃ before after sessionMoves, moves = before ++ .select (some conversationId) :: after ∧
      (∀ next, .select next ∈ after → next = some conversationId) ∧
      let p := (ChatPage.mounted start).run D socket before
      p.conversationId ≠ some conversationId ∧
        ((ChatPage.mounted start).run D socket moves).Follows conversationId p.heard
          ((Session.opened p.server p.thread).run D socket conversationId p.heard sessionMoves) := by
  obtain ⟨before, after, rfl, hclosed, hafter⟩ := ChatPage.last_selected rfl moves h
  obtain ⟨sessionMoves, hfollows⟩ := ChatPage.select_run hclosed after hafter
  refine ⟨before, after, sessionMoves, rfl, hafter, hclosed, ?_⟩
  rw [ChatPage.run_append]
  exact hfollows

/-! The history of one conversation, which has a message, comes when another is open, or when the
conversation has been opened again. -/

def firstOpened : Text := (ObjectId.ending 3).toString

def thenOpened : Text := (ObjectId.ending 4).toString

def switchServer : Server :=
  .boot .empty ⟨[⟨.ending 3, .oneToOne, none, [.ending 1, .ending 2], none, 0, 0⟩,
      ⟨.ending 4, .group, none, [.ending 1, .ending 2, .ending 5], none, 0, 0⟩], by decide⟩
    (.single ⟨.ending 6, .ending 3, .ending 1, "hi".toList, .sent, 1, 1⟩) 2

/-- The server has read the history of the first conversation. -/
def switchMoves : List ChatPageMove :=
  [.select (some firstOpened), .request 0, .server (.answer 0), .server (.resume 0),
    .server (.answer 0), .server (.resume 0)]

def switched (moves : List ChatPageMove) : ChatPage :=
  (ChatPage.mounted switchServer).run .default reader (switchMoves ++ moves)

example : (switched [.response 0]).thread.messages.length = 1 ∧
    (switched [.select (some thenOpened), .response 0]).thread.messages = [] ∧
    (switched [.select (some thenOpened), .select (some firstOpened), .response 0]).thread.messages =
      [] := by decide +kernel

theorem page_session_switched : ∃ before after sessionMoves,
    switchMoves ++ [.select (some thenOpened), .response 0] =
        before ++ .select (some thenOpened) :: after ∧
      (∀ next, .select next ∈ after → next = some thenOpened) ∧
      let p := (ChatPage.mounted switchServer).run .default reader before
      p.conversationId ≠ some thenOpened ∧
        (switched [.select (some thenOpened), .response 0]).Follows thenOpened p.heard
          ((Session.opened p.server p.thread).run .default reader thenOpened p.heard sessionMoves) :=
  page_session .default switchServer reader (switchMoves ++ [.select (some thenOpened), .response 0]) rfl

end RealtimeChat
