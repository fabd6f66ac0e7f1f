import RealtimeChat.Async.Potential
import RealtimeChat.Client.Session
import RealtimeChat.Handlers.Lawful

/-! Whether clients that confirm what they show ever come to rest.

A client that has a conversation open confirms its last message each time that its
thread is set anew (`frontend-ui/src/components/ChatWindow.tsx`), and the server tells
all of them of each confirmation that it has found something to mark for, upon which
they set their threads anew. What ends the loop is that a message is marked once. A
handler that marks none, since others have been faster, still tells everybody; but
such a handler found its messages unread before the last of them was marked, and there
are only so many of those (`feedback_terminates`). -/
namespace RealtimeChat
open Data (Text Collection)
open Zod (Value)
open Async Async.System

/-! ### The clients -/

/-- A client that has a conversation open. -/
structure ChatWindow where
  socket : Socket
  conversationId : Text
  thread : UseMessages
  /-- How many of the events sent to the socket have come. -/
  heard : Nat
  /-- The array of messages is a new one, and the effect has yet to run on it. -/
  changed : Bool
  /-- The `upToMessageId` of each `message:read` that is on its way to the server. -/
  outbox : List ObjectId

namespace ChatWindow

/-- The listeners that call `setMessages`, which makes a new array whatever it holds. -/
def setsMessages (conversationId : Text) : ServerEvent → Bool
  | .messageNew payload => payload.conversationId.toString == conversationId
  | .messageDelivered _ c _ => c == conversationId
  | .messageRead c _ _ => c == conversationId
  | _ => false

def hear (e : ServerEvent) (client : ChatWindow) : ChatWindow :=
  {client with
    thread := client.thread.on client.conversationId e
    heard := client.heard + 1
    changed := client.changed || setsMessages client.conversationId e}

/-- `load()` has its page. -/
def loaded (page : List SocketMessagePayload) (client : ChatWindow) : ChatWindow :=
  {client with thread := client.thread.loaded page, changed := true}

/-- The last message, if it is there and `getSenderId(last) !== currentUserId` -/
def lastOfOthers (client : ChatWindow) : Option ObjectId :=
  match client.thread.messages.getLast? with
  | none => none
  | some last =>
    match last.sender with
    | none => none
    | some sender => if sender.id = client.socket.userId then none else some last.id

/-- The effect on `[messages]`, with `markRead` for `onVisibleLastMessage` -/
def effect (client : ChatWindow) : ChatWindow :=
  {client with changed := false, outbox := client.outbox ++ client.lastOfOthers.toList}

/-- There is no callback, and no message to be created under the id. -/
def request (client : ChatWindow) (upToMessageId : ObjectId) : Call :=
  .event client.socket .messageRead [.object [("conversationId", .string client.conversationId),
    ("upToMessageId", .string upToMessageId.toString)]] upToMessageId

end ChatWindow

/-- The server, and any clients. -/
structure Feedback where
  server : Config chatInterface Server Failure Call Response
  clients : List ChatWindow

inductive FeedbackMove where
  /-- A query of some handler is answered or fails, or a handler is resumed. -/
  | server (move : Move Call)
  /-- The next event of its socket reaches a client. -/
  | hear (client : Nat)
  /-- `getMessages` returns to a client that waits for it. -/
  | load (client : Nat) (page : List SocketMessagePayload)
  | effect (client : Nat)
  /-- The next `message:read` of a client reaches the server. -/
  | deliver (client : Nat)

namespace Feedback

/-- A step that is there to be taken. -/
def step (D : Deployment) (f : Feedback) : FeedbackMove → Option Feedback
  | .server move =>
    if (chat D).enabled f.server move then some {f with server := (chat D).step f.server move}
    else none
  | .hear i =>
    match f.clients[i]? with
    | none => none
    | some client =>
      match (sentTo client.socket f.server.world.log)[client.heard]? with
      | none => none
      | some e => some {f with clients := f.clients.set i (client.hear e)}
  | .load i page =>
    match f.clients[i]? with
    | none => none
    | some client =>
      if client.thread.loading then some {f with clients := f.clients.set i (client.loaded page)}
      else none
  | .effect i =>
    match f.clients[i]? with
    | none => none
    | some client =>
      if client.changed then some {f with clients := f.clients.set i client.effect} else none
  | .deliver i =>
    match f.clients[i]? with
    | none => none
    | some client =>
      match client.outbox with
      | [] => none
      | upToMessageId :: rest => some
          { server := (chat D).step f.server (.arrive (client.request upToMessageId))
            clients := f.clients.set i {client with outbox := rest} }

/-- Some time passes, and a step is taken. -/
def Steps (D : Deployment) (f f' : Feedback) : Prop :=
  ∃ (n : Nat) (m : FeedbackMove), step D {f with server := (chat D).step f.server (.pass n)} m = some f'

end Feedback

def Call.reads : Call → Bool
  | .event _ .messageRead _ _ => true
  | _ => false

/-- Nothing but `message:read` is in flight on the server. -/
def OnlyReads (c : Config chatInterface Server Failure Call Response) : Prop :=
  ∀ entry ∈ c.tasks, entry.task.isDone = false → entry.call.reads = true

instance (c : Config chatInterface Server Failure Call Response) : Decidable (OnlyReads c) :=
  inferInstanceAs (Decidable (∀ _ ∈ _, _))

/-! ### What there is to spend -/

namespace Feedback

/-- Whether to mark these messages as read changes any. -/
def marks (ids : List ObjectId) (s : Server) : Bool :=
  s.messages.docs.any fun m => ids.contains m.id && m.status != .read

section
-- `n`: how many clients there are.
variable (n : Nat) (marks : List ObjectId → Bool)

/-- To mark messages. If that changes any, the level falls, and else everybody is told. -/
def updating (ids : List ObjectId) : Nat :=
  if ids = [] then 0 else if marks ids then 2 else 11 * n + 2

def asking : Query → Nat
  | .conversationFindOne _ _ => 8
  | .messageFindOne _ _ => 6
  | .messageFindUnread _ _ _ => 4
  | .messageUpdateMany ids _ => updating n marks ids
  | _ => 0

def spare : Deeds → Nat
  | [] => 8
  | .answered (.conversationFindOne _ _) _ :: _ => 6
  | .answered (.messageFindOne _ _) _ :: _ => 4
  | .answered (.messageFindUnread _ _ _) (.ok ids) :: _ => updating n marks ids
  | .acted .now _ :: .answered (.messageFindUnread _ _ _) (.ok ids) :: _ => updating n marks ids
  | .answered (.messageUpdateMany _ _) (.ok _) :: _ => 11 * n
  | _ => 0

end

/-- What a client has still to hear, to load, to show and to send. -/
def load (log : Log) (client : ChatWindow) : Nat :=
  11 * ((sentTo client.socket log).length - client.heard) + 11 * client.thread.loading.toNat +
    10 * client.changed.toNat + 9 * client.outbox.length

/-- The level is the number of messages that are not read. -/
def potential (clients : List ChatWindow) : Potential chatInterface Server Failure Call where
  level s := s.messages.docs.countP fun m => m.status != .read
  spare s := spare clients.length fun ids => marks ids s
  asking s := asking clients.length fun ids => marks ids s
  load w := (clients.map (load w.log)).sum

def measure (f : Feedback) : ℕ ×ₗ ℕ := (potential f.clients).measure f.server

/-! ### Who is reached -/

section
variable {log : Log} {e : Event chatInterface Failure Call}

theorem sentTo_length_cons (socket : Socket) :
    (sentTo socket (e :: log)).length ≤ (sentTo socket log).length + 1 := by
  unfold sentTo
  rw [List.reverse_cons, List.filterMap_append, List.length_append]
  exact Nat.add_le_add_left (List.length_filterMap_le _ _) _

/-- An entry that is no emit. -/
theorem sentTo_cons (he : ∀ pid room event r, e ≠ .acted pid (.emit room event) r)
    (he' : ∀ pid other room event r, e ≠ .acted pid (.emitFrom other room event) r) (socket : Socket) :
    sentTo socket (e :: log) = sentTo socket log := by
  unfold sentTo
  rw [List.reverse_cons, List.filterMap_append, List.filterMap_cons_none, List.filterMap_nil,
    List.append_nil]
  cases e with
  | acted pid a r =>
    cases a with
    | emit room event => exact absurd rfl (he pid room event r)
    | emitFrom other room event => exact absurd rfl (he' pid other room event r)
    | _ => rfl
  | _ => rfl

theorem load_cons_le (client : ChatWindow) : load (e :: log) client ≤ load log client + 11 := by
  have hlength := @sentTo_length_cons log e client.socket
  unfold load
  omega

theorem loads_cons_le (clients : List ChatWindow) :
    (clients.map (load (e :: log))).sum ≤ (clients.map (load log)).sum + 11 * clients.length := by
  induction clients with
  | nil => exact Nat.le_refl _
  | cons client rest ih =>
    have hclient := @load_cons_le log e client
    simp only [List.map_cons, List.sum_cons, List.length_cons]
    omega

theorem loads_cons (he : ∀ pid room event r, e ≠ .acted pid (.emit room event) r)
    (he' : ∀ pid other room event r, e ≠ .acted pid (.emitFrom other room event) r)
    (clients : List ChatWindow) :
    (clients.map (load (e :: log))).sum = (clients.map (load log)).sum := by
  congr 1
  refine List.map_congr_left fun client _ => ?_
  rw [load, load, sentTo_cons he he']

end

/-! ### What is marked -/

section
variable {D : Deployment} {s : Server}

theorem unread_of_found {conversationId : Text} {reader : ObjectId} {upTo : Nat} {ids : List ObjectId}
    (h : (Server.answer D (.messageFindUnread conversationId reader upTo) s).1 = .ok ids) (hne : ids ≠ []) :
    marks ids s = true := by
  simp only [Server.answer, Server.casting] at h
  split at h
  · rename_i c _
    obtain rfl := Except.ok.inj h
    obtain ⟨id, hid⟩ := List.exists_mem_of_ne_nil _ hne
    obtain ⟨m, hm, rfl⟩ := List.mem_map.mp hid
    obtain ⟨hstored, hunread⟩ := List.mem_filter.mp hm
    refine List.any_eq_true.mpr ⟨m, hstored, ?_⟩
    simp only [Server.matchesUnread, Bool.and_eq_true] at hunread
    simp only [Bool.and_eq_true, List.contains_iff_mem]
    exact ⟨hid, hunread.1.2⟩
  · cases h

/-- To mark messages that are not read lowers the level. -/
theorem level_lt {ids : List ObjectId} {now : Nat} (h : marks ids s = true) :
    ((s.setStatus (fun m => ids.contains m.id) .read now).messages.docs.countP fun m => m.status != .read) <
      s.messages.docs.countP fun m => m.status != .read := by
  obtain ⟨m, hm, hunread⟩ := List.any_eq_true.mp h
  obtain ⟨hid, hstatus⟩ := Bool.and_eq_true_iff.mp hunread
  obtain ⟨before, after, hdocs⟩ := List.append_of_mem hm
  have hle : ∀ l : List Message, (l.countP fun m => (if ids.contains m.id then
      {m with status := .read, updatedAt := now} else m).status != .read) ≤
        l.countP fun m => m.status != .read := by
    intro l
    refine List.countP_mono_left fun m _ hm => ?_
    split at hm
    · cases hm
    · exact hm
  have hbefore := hle before
  have hafter := hle after
  simp only [Server.setStatus, Collection.modify_docs, List.countP_map, hdocs, List.countP_append,
    List.countP_cons, Function.comp_def, hid, hstatus]
  simp only [if_true, bne_self_eq_false, Bool.false_eq_true, if_false]
  omega

def statuses (s : Server) : List (ObjectId × MessageStatus) :=
  s.messages.docs.map fun m => (m.id, m.status)

theorem same_of_statuses {s' : Server} (h : statuses s' = statuses s) (clients : List ChatWindow) :
    (potential clients).Same s s' := by
  have hlevel : ∀ s : Server, (s.messages.docs.countP fun m => m.status != .read) =
      (statuses s).countP fun entry => entry.2 != .read := by
    intro s
    rw [statuses, List.countP_map]
    rfl
  have hmarks : (fun ids => marks ids s') = fun ids => marks ids s := by
    have hany : ∀ (ids : List ObjectId) (s : Server), marks ids s =
        (statuses s).any fun entry => ids.contains entry.1 && entry.2 != .read := by
      intro ids s
      rw [statuses, List.any_map]
      rfl
    funext ids
    rw [hany, hany, h]
  refine ⟨?_, ?_, ?_⟩
  · show (s'.messages.docs.countP fun m => m.status != .read) = s.messages.docs.countP _
    rw [hlevel, hlevel, h]
  · show spare clients.length _ = spare clients.length _
    rw [hmarks]
  · show asking clients.length _ = asking clients.length _
    rw [hmarks]

theorem same_of_messages {s' : Server} (h : s'.messages = s.messages) (clients : List ChatWindow) :
    (potential clients).Same s s' :=
  same_of_statuses (by rw [statuses, h, statuses]) clients

/-- To mark messages that are read changes no status. -/
theorem statuses_setStatus {ids : List ObjectId} {now : Nat} (h : marks ids s = false) :
    statuses (s.setStatus (fun m => ids.contains m.id) .read now) = statuses s := by
  simp only [statuses, Server.setStatus, Collection.modify_docs, List.map_map]
  refine List.map_congr_left fun m hm => ?_
  simp only [Function.comp]
  split
  · rename_i hid
    have hread := List.any_eq_false.mp h m hm
    have hstatus : m.status = .read := by
      rw [hid, Bool.true_and] at hread
      simpa using hread
    rw [hstatus]
  · rfl

end

/-! ### Every step pays -/

theorem law_of_reads {call : Call} (h : call.reads = true) :
    ∃ userId, call.law = Reading.law userId := by
  cases call with
  | event socket name args id =>
    cases name with
    | messageRead => exact ⟨socket.userId, rfl⟩
    | _ => cases h
  | _ => cases h

section
variable {n : Nat} {found : List ObjectId → Bool} {userId : ObjectId} {before : Deeds}

theorem asking_le_spare {q : Query} {r : Except Failure q.Answer}
    (h : Reading.law userId before (.answered q r)) : asking n found q ≤ spare n found before := by
  cases q with
  | conversationFindOne v u =>
    obtain rfl := h
    exact Nat.le_refl _
  | messageFindOne id c =>
    obtain ⟨_, _, _, rfl⟩ := h
    exact Nat.le_refl _
  | messageFindUnread c u t =>
    obtain ⟨_, _, _, _, rfl⟩ := h
    exact Nat.le_refl _
  | messageUpdateMany ids now =>
    obtain ⟨_, _, _, _, -, rfl⟩ := h
    exact Nat.le_refl _
  | _ => exact h.elim

/-- An action leaves what the rest needs. -/
theorem spare_acted_le {a : Action} {r : a.Reply} (h : Reading.law userId before (.acted a r)) :
    spare n found (.acted a r :: before) ≤ spare n found before := by
  cases a with
  | now =>
    obtain ⟨_, _, _, _, _, -, rfl⟩ := h
    exact Nat.le_refl _
  | emit room event => exact Nat.zero_le _
  | ack response => exact Nat.zero_le _
  | _ => exact h.elim

end

/-- What an answer leaves to spend, unless it lowers the level. -/
theorem spare_answered_lt {D : Deployment} {s : Server} {q : Query} {n : Nat} {userId : ObjectId}
    {before : Deeds} {r : Except Failure q.Answer} (hlaw : Reading.law userId before (.answered q r))
    (hr : r = (Server.answer D q s).1 ∨ ∃ e, r = .error e)
    (hmarks : ∀ ids now, q = .messageUpdateMany ids now → marks ids s = true → ∃ e, r = .error e) :
    spare n (fun ids => marks ids s) (.answered q r :: before) + 1 < asking n (fun ids => marks ids s) q := by
  cases q with
  | conversationFindOne v u => exact Nat.lt_add_one 7
  | messageFindOne id c => exact Nat.lt_add_one 5
  | messageFindUnread c u t =>
    rcases r with e | ids
    · exact Nat.lt_add_of_pos_left (by decide)
    · show updating n (fun ids => marks ids s) ids + 1 < 4
      unfold updating
      split
      · decide
      · rename_i hne
        rcases hr with hr | ⟨e, hr⟩
        · rw [if_pos (unread_of_found hr.symm hne)]
          decide
        · cases hr
  | messageUpdateMany ids now =>
    obtain ⟨_, _, _, _, hne, -⟩ := hlaw
    show _ < updating n (fun ids => marks ids s) ids
    unfold updating
    rw [if_neg hne]
    rcases r with e | _
    · show 0 + 1 < _
      split <;> omega
    · split
      · rename_i hfresh
        obtain ⟨e, he⟩ := hmarks ids now rfl hfresh
        cases he
      · exact Nat.lt_add_one (11 * n + 1)
  | _ => exact hlaw.elim

/-- An answer to a read that marks nothing changes no status. -/
theorem same_of_unmarked {D : Deployment} {s : Server} {q : Query} {userId : ObjectId} {before : Deeds}
    {r : Except Failure q.Answer} (hlaw : Reading.law userId before (.answered q r))
    (h : ¬ ∃ ids now, q = .messageUpdateMany ids now ∧ marks ids s = true)
    (clients : List ChatWindow) : (potential clients).Same s (Server.answer D q s).2 := by
  by_cases hq : ∃ ids now, q = .messageUpdateMany ids now
  · obtain ⟨ids, now, rfl⟩ := hq
    refine same_of_statuses (statuses_setStatus ?_) clients
    exact Bool.eq_false_iff.mpr fun hmarks => h ⟨ids, now, rfl, hmarks⟩
  · have hreads : Server.Reads q := by
      cases q with
      | messageUpdateMany ids now => exact absurd ⟨ids, now, rfl⟩ hq
      | _ => trivial
    exact same_of_messages (congrArg Server.messages (Server.answer_reads D hreads s)) clients

theorem potential_paid (D : Deployment) (clients : List ChatWindow) :
    (potential clients).Paid (chat D) Call.law fun call => call.reads = true where
  asks := by
    intro call before q r s hreads hlaw
    obtain ⟨userId, hcall⟩ := law_of_reads hreads
    rw [hcall] at hlaw
    exact asking_le_spare hlaw
  acts := by
    intro pid call a w hreads hlaw
    obtain ⟨userId, hcall⟩ := law_of_reads hreads
    rw [hcall] at hlaw
    refine ⟨same_of_messages (Server.act_messages D a w.state) clients, ?_⟩
    have hle := @spare_acted_le clients.length (fun ids => marks ids w.state) _ _ _ _ hlaw
    show _ + (clients.map (load (_ :: w.log))).sum ≤ _ + (clients.map (load w.log)).sum
    cases a with
    | emit room event =>
      -- All that is left goes to those who hear of it.
      obtain ⟨_, _, _, _, -, hbefore⟩ := hlaw
      rw [hbefore]
      show 0 + _ ≤ 11 * clients.length + _
      rw [Nat.zero_add, Nat.add_comm]
      exact loads_cons_le clients
    | now =>
      rw [loads_cons (by simp) (by simp)]
      exact Nat.add_le_add_right hle _
    | ack response =>
      rw [loads_cons (by simp) (by simp)]
      exact Nat.add_le_add_right hle _
    | _ => exact hlaw.elim
  answers := by
    intro pid call q w hreads hlaw
    obtain ⟨userId, hcall⟩ := law_of_reads hreads
    rw [hcall] at hlaw
    have hload : (clients.map (load ((chat D).respond pid q w).log)).sum = (clients.map (load w.log)).sum :=
      loads_cons (by simp) (by simp) clients
    by_cases hfresh : ∃ ids now, q = .messageUpdateMany ids now ∧ marks ids w.state = true
    · obtain ⟨ids, now, rfl, hmarks⟩ := hfresh
      exact .inl (level_lt hmarks)
    · refine .inr ⟨same_of_unmarked hlaw hfresh clients, ?_⟩
      have hpaid := spare_answered_lt (D := D) (s := w.state) (n := clients.length) hlaw (.inl rfl)
        fun ids now hq hmarks => absurd ⟨ids, now, hq, hmarks⟩ hfresh
      show _ + 1 + (clients.map (load _)).sum < _ + (clients.map (load w.log)).sum
      rw [hload]
      exact Nat.add_lt_add_right hpaid _
  rejects := by
    intro pid call q w hreads hlaw
    obtain ⟨userId, hcall⟩ := law_of_reads hreads
    rw [hcall] at hlaw
    have hpaid := spare_answered_lt (D := D) (s := w.state) (n := clients.length) hlaw (.inr ⟨_, rfl⟩)
      fun _ _ _ _ => ⟨_, rfl⟩
    have hload := @loads_cons w.log (.answered pid q (.error (chat D).fault)) (by simp) (by simp) clients
    show _ + 1 + (clients.map (load (_ :: w.log))).sum < _ + (clients.map (load w.log)).sum
    rw [hload]
    exact Nat.add_lt_add_right hpaid _

/-! ### What a client pays -/

/-- To hear of something is to load nothing. -/
theorem loading_on (conversationId : Text) (e : ServerEvent) (thread : UseMessages) :
    (thread.on conversationId e).loading = thread.loading := by
  cases e with
  | messageNew payload =>
    simp only [UseMessages.on, UseMessages.onNewMessage]
    split <;> rfl
  | messageDelivered messageId c deliveredBy =>
    simp only [UseMessages.on, UseMessages.onDelivered]
    split <;> rfl
  | messageRead c messageIds readBy =>
    simp only [UseMessages.on, UseMessages.onRead]
    split <;> rfl
  | typing signal c userId username =>
    simp only [UseMessages.on, UseMessages.onTyping]
    split <;> rfl
  | userOnline payload => rfl
  | userOffline payload => rfl

section
variable {log : Log} {client : ChatWindow}

theorem load_hear_lt {e : ServerEvent} (h : (sentTo client.socket log)[client.heard]? = some e) :
    load log (client.hear e) < load log client := by
  have hlt : client.heard < (sentTo client.socket log).length := (List.getElem?_eq_some_iff.mp h).1
  have hchanged := Bool.toNat_le (client.changed || ChatWindow.setsMessages client.conversationId e)
  simp only [load, ChatWindow.hear, loading_on]
  omega

theorem load_loaded_lt (h : client.thread.loading = true) (page : List SocketMessagePayload) :
    load log (client.loaded page) < load log client := by
  simp only [load, ChatWindow.loaded, UseMessages.loaded, h, Bool.toNat_true, Bool.toNat_false]
  omega

theorem load_effect_lt (h : client.changed = true) : load log client.effect < load log client := by
  have hlast : client.lastOfOthers.toList.length ≤ 1 := by
    cases client.lastOfOthers <;> simp
  simp only [load, ChatWindow.effect, List.length_append, h, Bool.toNat_true, Bool.toNat_false]
  omega

end

/-! ### Every step lowers the measure -/

section
variable {c : Config chatInterface Server Failure Call Response} {clients : List ChatWindow}

theorem loads_set {log : Log} {i : Nat} {client : ChatWindow} (h : clients[i]? = some client)
    (client' : ChatWindow) : ((clients.set i client').map (load log)).sum + load log client =
      (clients.map (load log)).sum + load log client' := by
  induction clients generalizing i with
  | nil => cases h
  | cons first rest ih =>
    cases i with
    | zero =>
      obtain rfl := Option.some.inj h
      simp only [List.set_cons_zero, List.map_cons, List.sum_cons]
      omega
    | succ i =>
      have hrest := ih h
      simp only [List.set_cons_succ, List.map_cons, List.sum_cons]
      omega

/-- Of what there is to spend, a client has its load. -/
theorem total_set {i : Nat} {client : ChatWindow} (h : clients[i]? = some client)
    (client' : ChatWindow) : (potential (clients.set i client')).total c + load c.world.log client =
      (potential clients).total c + load c.world.log client' := by
  have hweight : ∀ pid, (potential (clients.set i client')).weightAt c pid =
      (potential clients).weightAt c pid := by
    intro pid
    unfold Potential.weightAt
    cases c.tasks[pid]? with
    | none => rfl
    | some entry =>
      show (potential (clients.set i client')).weight _ _ entry.task = (potential clients).weight _ _ entry.task
      cases entry.task with
      | blocked q next =>
        show asking (clients.set i client').length _ q = asking clients.length _ q
        rw [List.length_set]
      | ready p =>
        show spare (clients.set i client').length _ _ + 1 = spare clients.length _ _ + 1
        rw [List.length_set]
      | done r => rfl
  have hloads := @loads_set _ c.world.log _ _ h client'
  simp only [Potential.total, hweight]
  show _ + ((clients.set i client').map _).sum + _ = _ + (clients.map _).sum + _
  omega

end

/-- What the steps of the loop keep. -/
structure Sound (f : Feedback) : Prop where
  behaved : Behaved f.server
  reads : OnlyReads f.server

section
variable {D : Deployment} {f : Feedback}

/-- A step of the server that lets nothing but `message:read` in. -/
theorem Sound.step_server (h : f.Sound) {m : Move Call} (hm : ∀ call, m = .arrive call → call.reads = true)
    (clients : List ChatWindow) : Sound ⟨(chat D).step f.server m, clients⟩ := by
  refine ⟨h.behaved.step (chat D) (body_obeys D) m, fun entry hentry hdone => ?_⟩
  rcases (chat D).step_task hentry with harrive | ⟨old, hold, hcall, hnot⟩
  · exact hm _ harrive
  · rw [← hcall]
    exact h.reads old hold (hnot hdone)

section
variable {i : Nat} {client : ChatWindow} (hi : f.clients[i]? = some client)
include hi

/-- A client hears, loads or shows something. -/
theorem measure_set_lt {client' : ChatWindow}
    (hlt : load f.server.world.log client' < load f.server.world.log client) :
    measure {f with clients := f.clients.set i client'} < f.measure := by
  refine Prod.Lex.toLex_lt_toLex.mpr (.inr ⟨rfl, ?_⟩)
  have htotal := @total_set f.server _ _ _ hi client'
  show (potential (f.clients.set i client')).total f.server < (potential f.clients).total f.server
  omega

/-- What a handler may spend is less than what it was to send its request. -/
theorem measure_deliver_lt (h : f.Sound) {upToMessageId : ObjectId} {rest : List ObjectId}
    (hout : client.outbox = upToMessageId :: rest) :
    measure ⟨(chat D).step f.server (.arrive (client.request upToMessageId)),
      f.clients.set i {client with outbox := rest}⟩ < f.measure := by
  have hsent : ∀ log, load log {client with outbox := rest} + 9 = load log client := by
    intro log
    simp only [load, hout, List.length_cons]
    omega
  rcases ha : (client.request upToMessageId).accept f.server.world.state with _ | s
  · have hnone : (chat D).accept (client.request upToMessageId) f.server.world.state = none := ha
    have hsame : (chat D).step f.server (.arrive (client.request upToMessageId)) = f.server := by
      simp only [System.step, hnone]
    rw [hsame]
    have hlog := hsent f.server.world.log
    exact measure_set_lt hi (by omega)
  · obtain ⟨-, rfl⟩ := accept_event ha
    have hreads : (client.request upToMessageId).reads = true := rfl
    obtain ⟨hlevel, htotal⟩ := (potential_paid D f.clients).arrive h.behaved hreads (body_obeys D _) ha
      (.refl _ _) (Nat.le_of_eq (loads_cons (by simp) (by simp) f.clients))
    have hset := total_set (c := (chat D).step f.server (.arrive (client.request upToMessageId))) hi
      {client with outbox := rest}
    have hlog := hsent ((chat D).step f.server (.arrive (client.request upToMessageId))).world.log
    have hspare : (potential f.clients).spare f.server.world.state [] = 8 := rfl
    refine Prod.Lex.toLex_lt_toLex.mpr (.inr ⟨hlevel, ?_⟩)
    show (potential (f.clients.set i _)).total
      ((chat D).step f.server (.arrive (client.request upToMessageId))) < (potential f.clients).total f.server
    omega

end

theorem Sound.step (h : f.Sound) {m : FeedbackMove} {f' : Feedback} (hm : f.step D m = some f') :
    f'.Sound ∧ f'.measure < f.measure := by
  cases m with
  | server move =>
    simp only [Feedback.step] at hm
    split at hm
    · rename_i henabled
      obtain rfl := Option.some.inj hm
      refine ⟨h.step_server ?_ f.clients, (potential_paid D f.clients).step h.behaved h.reads henabled⟩
      rintro call rfl
      cases henabled
    · cases hm
  | hear i =>
    simp only [Feedback.step] at hm
    split at hm
    · cases hm
    · rename_i hi
      split at hm
      · cases hm
      · rename_i hnext
        obtain rfl := Option.some.inj hm
        exact ⟨⟨h.behaved, h.reads⟩, measure_set_lt hi (load_hear_lt hnext)⟩
  | load i page =>
    simp only [Feedback.step] at hm
    split at hm
    · cases hm
    · rename_i hi
      split at hm
      · rename_i hloading
        obtain rfl := Option.some.inj hm
        exact ⟨⟨h.behaved, h.reads⟩, measure_set_lt hi (load_loaded_lt hloading page)⟩
      · cases hm
  | effect i =>
    simp only [Feedback.step] at hm
    split at hm
    · cases hm
    · rename_i hi
      split at hm
      · rename_i hchanged
        obtain rfl := Option.some.inj hm
        exact ⟨⟨h.behaved, h.reads⟩, measure_set_lt hi (load_effect_lt hchanged)⟩
      · cases hm
  | deliver i =>
    simp only [Feedback.step] at hm
    split at hm
    · cases hm
    · rename_i hi
      split at hm
      · cases hm
      · rename_i hout
        obtain rfl := Option.some.inj hm
        refine ⟨h.step_server ?_ _, measure_deliver_lt hi h hout⟩
        rintro call ⟨⟩
        rfl

/-- Time changes no status. -/
theorem Sound.steps (h : f.Sound) {f' : Feedback} (hsteps : Steps D f f') :
    f'.Sound ∧ f'.measure < f.measure := by
  obtain ⟨n, m, hm⟩ := hsteps
  have hmessages : ((chat D).pass n f.server.world.state).messages = f.server.world.state.messages := rfl
  have hpass : measure {f with server := (chat D).step f.server (.pass n)} = f.measure :=
    Potential.measure_pass (same_of_messages hmessages f.clients) rfl
  rw [← hpass]
  refine (h.step_server ?_ f.clients).step hm
  rintro call ⟨⟩

theorem Sound.acc (h : f.Sound) : Acc (fun f' f => Steps D f f') f := by
  induction hf : f.measure using WellFoundedLT.induction generalizing f with
  | ind level ih =>
    refine .intro f fun f' hsteps => ?_
    obtain ⟨hsound, hlt⟩ := h.steps hsteps
    exact ih f'.measure (hf ▸ hlt) hsound rfl

end

end Feedback

/-- **The loop comes to rest.** Clients have conversations open, and nothing but
`message:read` is in flight on the server, whatever has been before. Every run of the
loop is finite, in any order of its steps, as each of them lowers the measure. -/
theorem feedback_terminates (D : Deployment) (s : Server) (before : List (Move Call))
    (clients : List ChatWindow) (hreads : OnlyReads ((chat D).run (Config.start s) before)) :
    Acc (fun f' f => Feedback.Steps D f f') ⟨(chat D).run (Config.start s) before, clients⟩ ∧
      ∀ f, Relation.ReflTransGen (Feedback.Steps D) ⟨(chat D).run (Config.start s) before, clients⟩ f →
        ∀ f', Feedback.Steps D f f' → f'.measure < f.measure := by
  have hstart : Feedback.Sound ⟨(chat D).run (Config.start s) before, clients⟩ :=
    ⟨behaved_run D s before, hreads⟩
  refine ⟨hstart.acc, fun f hf => ?_⟩
  have hsound : f.Sound := by
    induction hf with
    | refl => exact hstart
    | tail _ hlast ih => exact (ih.steps hlast).1
  exact fun f' hsteps => (hsound.steps hsteps).2

/-! Two clients confirm one message at once. -/

def loopReader : Socket := ⟨.ofChar 'b', .ending 2, "bob".toList⟩
def loopWriter : Socket := ⟨.ofChar 'a', .ending 1, "ann".toList⟩

def loopServer : Server := .boot .empty
  (.single ⟨.ending 3, .oneToOne, none, [.ending 1, .ending 2], none, 0, 0⟩)
  (.single ⟨.ending 4, .ending 3, .ending 1, "hi".toList, .sent, 0, 0⟩) 5

/-- The client loads its history, and has confirmed the message before. -/
def loopClient (socket : Socket) : ChatWindow :=
  ⟨socket, (ObjectId.ending 3).toString, ⟨[], true, none, fun _ => none⟩, 0, true, [.ending 4]⟩

def loopMoves : List (Move Call) :=
  [.arrive (.connect loopWriter)] ++ Move.rounds 0 4 ++ [.arrive (.connect loopReader)] ++
    Move.rounds 1 4 ++ [.arrive ((loopClient loopReader).request (.ending 4))] ++ Move.rounds 2 1

theorem feedback_terminates_two :
    let start : Feedback :=
      ⟨(chat .default).run (Config.start loopServer) loopMoves, [loopClient loopReader, loopClient loopWriter]⟩
    Acc (fun f' f => Feedback.Steps .default f f') start ∧
      ∀ f, Relation.ReflTransGen (Feedback.Steps .default) start f →
        ∀ f', Feedback.Steps .default f f' → f'.measure < f.measure :=
  feedback_terminates .default loopServer loopMoves _ (by decide +kernel)

end RealtimeChat
