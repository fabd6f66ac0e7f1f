import RealtimeChat.Client.UseMessages
import RealtimeChat.Rooms.Announce

/-! Whether a thread that is opened shows every message once.

The history comes over HTTP, new messages over the socket, and nothing orders the
one after the other. `load()` puts the page in the place of what the socket has
brought before it, and what the socket brings after it is appended unseen. So all is
well exactly if the page holds what came before it and nothing that comes after it
(`shownOnce_iff`). -/
namespace RealtimeChat
open Data (Text)
open Async Async.System

/-! ### A page and a stream -/

/-- A page put in the place of what came before it, and followed by what comes after it,
has everything once exactly if it has what came before and nothing of what comes after. -/
theorem overwritten_once_iff {α : Type} [DecidableEq α] {page early late : List α}
    (hpage : page.Nodup) (hstream : (early ++ late).Nodup) :
    (∀ x, x ∈ page ∨ x ∈ early ++ late → (page.reverse ++ late).count x = 1) ↔
      (∀ x ∈ early, x ∈ page) ∧ ∀ x ∈ late, x ∉ page := by
  have hcount : ∀ x, (page.reverse ++ late).count x =
      (if x ∈ page then 1 else 0) + (if x ∈ late then 1 else 0) := by
    intro x
    rw [List.count_append, List.count_reverse, hpage.count,
      (List.Nodup.of_append_right hstream).count]
  constructor
  · intro h
    refine ⟨fun x hx => ?_, fun x hx hin => ?_⟩
    · have hlate : x ∉ late := fun hl => List.disjoint_of_nodup_append hstream hx hl
      have hone := h x (.inr (List.mem_append_left _ hx))
      rw [hcount, if_neg hlate] at hone
      by_contra hout
      rw [if_neg hout] at hone
      omega
    · have hone := h x (.inl hin)
      rw [hcount, if_pos hin, if_pos hx] at hone
      omega
  · intro ⟨hearly, hlate⟩ x hx
    rw [hcount]
    by_cases hl : x ∈ late
    · rw [if_neg (hlate x hl), if_pos hl]
    · have hin : x ∈ page := by
        rcases hx with hx | hx
        · exact hx
        · exact hearly x ((List.mem_append.mp hx).resolve_right hl)
      rw [if_pos hin, if_neg hl]

/-! ### Sessions -/

/-- How far `load()` has come. -/
inductive Load where
  | pending
  | loaded (page : List SocketMessagePayload)
  | failed

def Load.settled : Load → Bool
  | .pending => false
  | _ => true

def Load.page : Load → List SocketMessagePayload
  | .loaded page => page
  | _ => []

/-- The server, and a client that has opened a conversation. -/
structure Session where
  server : Config chatInterface Server Failure Call Response
  /-- The task that answers the history request, once that has reached the server. -/
  request : Option Nat
  load : Load
  /-- What has come over the socket until `load()` settled, and since. -/
  early : List ServerEvent
  late : List ServerEvent
  thread : UseMessages

inductive SessionMove where
  /-- Any step of the server, other clients' calls included. -/
  | server (move : Move Call)
  /-- The history request reaches the server. -/
  | request
  /-- The next event of the socket reaches the client. -/
  | event
  /-- The response to the history request reaches the client. -/
  | response
  /-- The history request fails: an error response, or none. -/
  | failure (message : String)

/-- The events sent to the socket, first to last. A socket receives them in this order. -/
def sentTo (socket : Socket) (log : Log) : List ServerEvent :=
  log.reverse.filterMap fun
    | .acted _ (.emit _ event) receivers => if socket ∈ receivers then some event else none
    | .acted _ (.emitFrom _ _ event) receivers => if socket ∈ receivers then some event else none
    | _ => none

namespace Session

/-- The effect starts. -/
def opened (server : Config chatInterface Server Failure Call Response) (thread : UseMessages) :
    Session := ⟨server, none, .pending, [], [], thread.subscribe⟩

section
-- `missed`: how many of the socket's events had come before the effect listened.
variable (D : Deployment) (socket : Socket) (conversationId : Text) (missed : Nat)

/-- `getMessages(token, conversationId, { limit: 50 })` -/
def historyRequest : Call := .getMessageHistory socket.userId conversationId ⟨50, none⟩

def step (s : Session) : SessionMove → Session
  | .server move => {s with server := (chat D).step s.server move}
  | .request =>
    match s.request with
    | some _ => s
    | none => {s with
        server := (chat D).step s.server (.arrive (historyRequest socket conversationId))
        request := some s.server.tasks.length}
  | .event =>
    match (sentTo socket s.server.world.log)[missed + (s.early ++ s.late).length]? with
    | none => s
    | some e =>
      let thread := s.thread.on conversationId e
      match s.load with
      | .pending => {s with early := s.early ++ [e], thread}
      | _ => {s with late := s.late ++ [e], thread}
  | .response =>
    match s.load, s.request.bind fun pid => s.server.tasks[pid]? with
    | .pending, some ⟨_, .done (.ok (.messages result))⟩ =>
      let page := result.messages.map toSocketPayload
      {s with load := .loaded page, thread := s.thread.loaded page}
    | _, _ => s
  | .failure message =>
    match s.load with
    | .pending => {s with load := .failed, thread := s.thread.loadFailed message}
    | _ => s

def run (s : Session) : List SessionMove → Session
  | [] => s
  | m :: rest => run (s.step D socket conversationId missed m) rest

end

/-- The ids of the conversation's messages that the events announce. -/
def announced (conversationId : Text) (events : List ServerEvent) : List ObjectId :=
  events.filterMap (UseMessages.announces conversationId)

/-- `load()` has settled, and all that was sent has come. -/
def Complete (socket : Socket) (missed : Nat) (s : Session) : Prop :=
  s.load.settled = true ∧ s.early ++ s.late = (sentTo socket s.server.world.log).drop missed

/-- Every message in the page, and every message whose `message:new` has come, is in the
thread exactly once. -/
def ShownOnce (conversationId : Text) (s : Session) : Prop :=
  ∀ id, id ∈ s.load.page.map SocketMessagePayload.id ∨ id ∈ announced conversationId (s.early ++ s.late) →
    s.thread.ids.count id = 1

/-- The page, if one has come, has every message whose `message:new` came before it, and none
whose `message:new` has come after it. -/
def InTime (conversationId : Text) (s : Session) : Prop :=
  ∀ page, s.load = .loaded page →
    (∀ id ∈ announced conversationId s.early, id ∈ page.map SocketMessagePayload.id) ∧
    ∀ id ∈ announced conversationId s.late, id ∉ page.map SocketMessagePayload.id

end Session

/-! ### What the server sends -/

section
variable {D : Deployment}

theorem sentTo_append (socket : Socket) (new log : Log) :
    ∃ more, sentTo socket (new ++ log) = sentTo socket log ++ more := by
  unfold sentTo
  rw [List.reverse_append, List.filterMap_append]
  exact ⟨_, rfl⟩

/-- No message is announced to a socket twice. -/
theorem Announced.nodup {w : World chatInterface Server Failure Call} (hi : Announced w)
    (socket : Socket) (conversationId : Text) :
    (Session.announced conversationId (sentTo socket w.log)).Nodup := by
  rw [List.nodup_iff_count_le_one]
  intro id
  refine Nat.le_trans ?_ (hi.copies_le_one socket id)
  unfold Session.announced sentTo
  rw [List.filterMap_filterMap, List.count_filterMap, List.countP_reverse]
  apply List.countP_mono_left
  intro e _ h
  have hreceives : ∀ event (receivers : List Socket), ((if socket ∈ receivers then some event
      else none).bind (UseMessages.announces conversationId) == some id) = true →
      ∃ payload, event = .messageNew payload ∧ payload.id = id ∧ socket ∈ receivers := by
    intro event receivers h
    rw [beq_iff_eq] at h
    obtain ⟨event', hif, hid⟩ := Option.bind_eq_some_iff.mp h
    obtain ⟨hmem, heq⟩ := Option.ite_none_right_eq_some.mp hif
    obtain rfl := Option.some.inj heq
    obtain ⟨payload, rfl, hpayload⟩ := UseMessages.announces_eq_some hid
    exact ⟨payload, rfl, hpayload, hmem⟩
  cases e with
  | acted pid a r =>
    cases a with
    | emit room event =>
      obtain ⟨payload, rfl, rfl, hmem⟩ := hreceives event r h
      simp [Receives, hmem]
    | emitFrom other room event =>
      obtain ⟨payload, rfl, rfl, hmem⟩ := hreceives event r h
      simp [Receives, hmem]
    | _ => cases h
  | _ => cases h

/-! ### What the server answers -/

/-- A page has no message twice. -/
def Paged (r : Except Failure Response) : Prop :=
  ∀ page, r = .ok (.messages page) → (page.messages.map fun m => m.message.id).Nodup

theorem findPage_nodup (s : Server) (id : ObjectId) (before : Option Int) (limit : Nat) :
    ((s.findPage D id before limit).map fun m => m.message.id).Nodup := by
  simp only [Server.findPage, List.map_map]
  apply List.Nodup.sublist ((List.take_sublist _ _).map _)
  apply (((D.byCreation.perm _).map _).nodup_iff).mpr
  exact s.messages.distinct.sublist (List.filter_sublist.map _)

theorem pageOf_nodup {found : List PopulatedMessage} (limit : Nat)
    (h : (found.map fun m => m.message.id).Nodup) :
    ((pageOf found limit).messages.map fun m => m.message.id).Nodup := by
  simp only [pageOf]
  split
  · exact h.sublist ((List.take_sublist _ _).map _)
  · exact h

theorem messageFind_nodup {conversationId : Text} {before : Option (Option Int)} {limit : Nat}
    {r : Except Failure (List PopulatedMessage)}
    (h : Gives (chat D) (.messageFind conversationId before limit) r) {found : List PopulatedMessage}
    (hr : r = .ok found) : (found.map fun m => m.message.id).Nodup := by
  subst hr
  rcases h with h | ⟨s, h⟩
  · cases h
  · have hanswer : (Server.answer D (.messageFind conversationId before limit) s).1 = .ok found := h.symm
    simp only [Server.answer, Server.casting] at hanswer
    split at hanswer
    · rcases before with _ | _ | bound
      · obtain rfl := Except.ok.inj hanswer
        exact findPage_nodup s _ _ _
      · cases hanswer
      · obtain rfl := Except.ok.inj hanswer
        exact findPage_nodup s _ _ _
    · cases hanswer

theorem body_paged (D : Deployment) (call : Call) : (Call.body D call).Ends (Gives (chat D)) Paged := by
  cases call with
  | getMessageHistory userId id page =>
    refine Program.Ends.bind_of (fun _ => ?_) fun _ => nofun
    refine Program.Ends.bind_of (fun _ => ?_) fun _ => nofun
    refine (Program.ends_bind _ _).mpr ((Program.ends_bind _ _).mpr ?_)
    apply (Program.ends_query _ _).mpr
    intro r hr
    cases r with
    | error e => exact nofun
    | ok found =>
      intro result h
      cases h
      exact pageOf_nodup _ (messageFind_nodup hr rfl)
  | createConversation userId body id =>
    show (createConversationHandler id userId body).Ends _ _
    unfold createConversationHandler
    split
    · exact nofun
    · exact Program.Ends.bind_of (fun _ => nofun) fun _ => nofun
  | _ => exact Program.Ends.bind_of (fun _ => nofun) fun _ => nofun

theorem paged_run (D : Deployment) (s : Server) (moves : List (Move Call)) {pid : Nat} {call : Call}
    {r : Except Failure Response}
    (h : ((chat D).run (Config.start s) moves).tasks[pid]? = some ⟨call, .done r⟩) : Paged r :=
  ended_run (body_paged D) s moves h

/-! ### Every session -/

section
variable (D : Deployment) (start : Server) (socket : Socket) (conversationId : Text) (missed : Nat)

/-- A session, at any point of it. -/
structure Session.Sound (s : Session) : Prop where
  server : ∃ moves, s.server = (chat D).run (Config.start start) moves
  /-- What has come is the beginning of what was sent. -/
  heard : s.early ++ s.late <+: (sentTo socket s.server.world.log).drop missed
  pending : s.load = .pending → s.late = []
  page : (s.load.page.map SocketMessagePayload.id).Nodup
  thread : s.thread.ids = match s.load with
    | .loaded page => (page.map SocketMessagePayload.id).reverse ++ announced conversationId s.late
    | _ => announced conversationId (s.early ++ s.late)

variable {D start socket conversationId missed} {s : Session}

theorem Session.Sound.opened {moves : List (Move Call)} (thread : UseMessages) :
    Session.Sound D start socket conversationId missed
      (.opened ((chat D).run (Config.start start) moves) thread) :=
  ⟨⟨moves, rfl⟩, List.nil_prefix, fun _ => rfl, List.nodup_nil, rfl⟩

/-- A step of the server: it may have sent more. -/
theorem Session.Sound.advanced (h : s.Sound D start socket conversationId missed) (m : Move Call)
    (request : Option Nat) :
    Session.Sound D start socket conversationId missed
      {s with server := (chat D).step s.server m, request} := by
  obtain ⟨⟨moves, hmoves⟩, hheard, hpending, hpage, hthread⟩ := h
  refine ⟨⟨moves ++ [m], ?_⟩, ?_, hpending, hpage, hthread⟩
  · rw [run_append, ← hmoves]
    rfl
  · obtain ⟨new, hlog⟩ := (chat D).step_log s.server m
    obtain ⟨more, hmore⟩ := sentTo_append socket new s.server.world.log
    show s.early ++ s.late <+: (sentTo socket ((chat D).step s.server m).world.log).drop missed
    rw [hlog, hmore, List.drop_append]
    exact hheard.trans (List.prefix_append _ _)

theorem announced_append (a b : List ServerEvent) : Session.announced conversationId (a ++ b) =
    Session.announced conversationId a ++ Session.announced conversationId b :=
  List.filterMap_append

theorem announced_concat (events : List ServerEvent) (e : ServerEvent) :
    Session.announced conversationId (events ++ [e]) =
      Session.announced conversationId events ++ (UseMessages.announces conversationId e).toList := by
  have hlast : Session.announced conversationId [e] =
      (UseMessages.announces conversationId e).toList := by
    simp only [Session.announced, List.filterMap_cons, List.filterMap_nil]
    cases UseMessages.announces conversationId e <;> rfl
  rw [announced_append, hlast]

/-- The next event of the socket is the next of those sent. -/
theorem Session.Sound.next (h : s.Sound D start socket conversationId missed) {e : ServerEvent}
    (he : (sentTo socket s.server.world.log)[missed + (s.early ++ s.late).length]? = some e) :
    s.early ++ s.late ++ [e] <+: (sentTo socket s.server.world.log).drop missed := by
  rw [← List.getElem?_drop] at he
  obtain ⟨rest, hrest⟩ := h.heard
  rw [← hrest, List.getElem?_append_right (Nat.le_refl _), Nat.sub_self] at he
  cases rest with
  | nil => cases he
  | cons e' rest =>
    obtain rfl : e' = e := Option.some.inj he
    exact ⟨rest, by rw [List.append_assoc]; exact hrest⟩

theorem Session.Sound.event (h : s.Sound D start socket conversationId missed) :
    (s.step D socket conversationId missed .event).Sound D start socket conversationId missed := by
  obtain ⟨server, request, load, early, late, thread⟩ := s
  simp only [Session.step]
  split
  · exact h
  · rename_i e he
    have hnext : early ++ late ++ [e] <+: (sentTo socket server.world.log).drop missed := h.next he
    have hids := UseMessages.ids_on conversationId e thread
    obtain ⟨hserver, hheard, hpending, hpage, hthread⟩ := h
    cases load with
    | pending =>
      obtain rfl : late = [] := hpending rfl
      replace hthread : thread.ids = announced conversationId (early ++ []) := hthread
      rw [List.append_nil] at hnext hthread
      refine ⟨hserver, ?_, fun _ => rfl, hpage, ?_⟩
      · show early ++ [e] ++ [] <+: _
        rw [List.append_nil]
        exact hnext
      · show (thread.on conversationId e).ids = announced conversationId (early ++ [e] ++ [])
        rw [hids, hthread, List.append_nil, announced_concat]
    | failed =>
      replace hthread : thread.ids = announced conversationId (early ++ late) := hthread
      refine ⟨hserver, ?_, nofun, hpage, ?_⟩
      · rw [← List.append_assoc]
        exact hnext
      · show (thread.on conversationId e).ids = announced conversationId (early ++ (late ++ [e]))
        rw [hids, hthread, ← List.append_assoc, announced_concat]
    | loaded page =>
      replace hthread : thread.ids = _ ++ announced conversationId late := hthread
      refine ⟨hserver, ?_, nofun, hpage, ?_⟩
      · rw [← List.append_assoc]
        exact hnext
      · show (thread.on conversationId e).ids = _ ++ announced conversationId (late ++ [e])
        rw [hids, hthread, announced_concat, List.append_assoc]

theorem Session.Sound.response (h : s.Sound D start socket conversationId missed) :
    (s.step D socket conversationId missed .response).Sound D start socket conversationId missed := by
  simp only [Session.step]
  split
  · rename_i call result hload hdone
    obtain ⟨pid, _, htask⟩ := Option.bind_eq_some_iff.mp hdone
    obtain ⟨⟨moves, hmoves⟩, hheard, hpending, hpage, hthread⟩ := h
    rw [hmoves] at htask
    have hnodup := paged_run D start moves htask result rfl
    have hids : (result.messages.map toSocketPayload).map SocketMessagePayload.id =
        result.messages.map fun m => m.message.id := by
      rw [List.map_map]
      rfl
    refine ⟨⟨moves, hmoves⟩, hheard, nofun, ?_, ?_⟩
    · show ((result.messages.map toSocketPayload).map SocketMessagePayload.id).Nodup
      rw [hids]
      exact hnodup
    · show (s.thread.loaded (result.messages.map toSocketPayload)).ids = _ ++ announced _ s.late
      rw [UseMessages.ids_loaded, hpending hload]
      exact (List.append_nil _).symm
  · exact h

theorem Session.Sound.failure (h : s.Sound D start socket conversationId missed) (message : String) :
    (s.step D socket conversationId missed (.failure message)).Sound D start socket conversationId
      missed := by
  simp only [Session.step]
  split
  · rename_i hload
    obtain ⟨hserver, hheard, _, _, hthread⟩ := h
    rw [hload] at hthread
    exact ⟨hserver, hheard, nofun, List.nodup_nil, hthread⟩
  · exact h

theorem Session.Sound.step (h : s.Sound D start socket conversationId missed) (m : SessionMove) :
    (s.step D socket conversationId missed m).Sound D start socket conversationId missed := by
  cases m with
  | server move => exact h.advanced move s.request
  | request =>
    simp only [Session.step]
    split
    · exact h
    · exact h.advanced _ _
  | event => exact h.event
  | response => exact h.response
  | failure message => exact h.failure message

theorem Session.Sound.run (h : s.Sound D start socket conversationId missed)
    (moves : List SessionMove) :
    (s.run D socket conversationId missed moves).Sound D start socket conversationId missed := by
  induction moves generalizing s with
  | nil => exact h
  | cons m rest ih => exact ih (h.step m)

theorem Session.Sound.once_iff (h : s.Sound D start socket conversationId missed) :
    s.ShownOnce conversationId ↔ s.InTime conversationId := by
  obtain ⟨⟨moves, hmoves⟩, hheard, _, hpage, hthread⟩ := h
  have hstream : (announced conversationId s.early ++ announced conversationId s.late).Nodup := by
    rw [← announced_append]
    have hall := (announced_run D start moves).nodup socket conversationId
    rw [← hmoves] at hall
    exact hall.sublist ((hheard.sublist.trans (List.drop_sublist _ _)).filterMap _)
  unfold ShownOnce InTime
  rw [hthread, announced_append]
  cases hload : s.load with
  | loaded page =>
    rw [hload] at hpage
    apply (overwritten_once_iff hpage hstream).trans
    exact ⟨fun hin page' heq => by cases heq; exact hin, fun hin => hin page rfl⟩
  | pending | failed =>
    refine ⟨fun _ => nofun, fun _ id hid => ?_⟩
    rcases hid with hid | hid
    · cases hid
    · exact List.count_eq_one_of_mem hstream hid

variable (D start socket conversationId missed)

/-- **What a thread shows.** However the steps of the server, the events of the socket and the
history request interleave, every message of the page or of an event that has come is in
the thread exactly once if and only if the page has all that came before it and nothing
that has come after it. -/
theorem shownOnce_iff (before : List (Move Call)) (thread : UseMessages) (moves : List SessionMove) :
    ((Session.opened ((chat D).run (Config.start start) before) thread).run D socket conversationId
      missed moves).ShownOnce conversationId ↔
    ((Session.opened ((chat D).run (Config.start start) before) thread).run D socket conversationId
      missed moves).InTime conversationId := by
  have hopened : Session.Sound D start socket conversationId missed
      (.opened ((chat D).run (Config.start start) before) thread) := .opened thread
  exact (hopened.run moves).once_iff

end

end

/-! A conversation of two, both connected. One of them opens it while the other
writes to it. -/

def openServer : Server :=
  .boot .empty ⟨[⟨.ending 3, .oneToOne, none, [.ending 1, .ending 2], none, 0, 0⟩], by decide⟩
    .empty 0

def openMoves : List (Move Call) :=
  [.arrive (.connect reader), .answer 0, .resume 0, .arrive (.connect writer)]

def openThread (moves : List SessionMove) : Session :=
  (Session.opened ((chat .default).run (Config.start openServer) openMoves)
    ⟨[], false, none, fun _ => none⟩).run .default reader (ObjectId.ending 3).toString 0 moves

def writing : Move Call :=
  .arrive (.event writer .messageSend
    [.object [("conversationId", .string (ObjectId.ending 3).toString),
      ("text", .string "hi".toList)], .function] (.ending 4))

/-- The history is read before the message is stored, and comes after its announcement. -/
def lostRun : List SessionMove :=
  [.request, .server (.answer 2), .server (.resume 2), .server (.answer 2), .server writing,
    .server (.answer 3), .server (.resume 3), .server (.answer 3), .server (.resume 3),
    .server (.answer 3), .server (.resume 3), .server (.answer 3), .server (.resume 3), .event,
    .server (.resume 2), .response]

/-- The history is read after the message is stored, and comes before its announcement. -/
def doubledRun : List SessionMove :=
  [.server writing, .server (.answer 2), .server (.resume 2), .server (.answer 2), .request,
    .server (.answer 3), .server (.resume 3), .server (.answer 3), .server (.resume 3), .response,
    .server (.resume 2), .server (.answer 2), .server (.resume 2), .server (.answer 2),
    .server (.resume 2), .event]

theorem thread_loses_and_doubles :
    (Session.Complete reader 0 (openThread lostRun) ∧
      ¬ (openThread lostRun).ShownOnce (ObjectId.ending 3).toString) ∧
    (Session.Complete reader 0 (openThread doubledRun) ∧
      ¬ (openThread doubledRun).ShownOnce (ObjectId.ending 3).toString) := by
  refine ⟨⟨⟨by decide +kernel, by decide +kernel⟩, fun h => ?_⟩,
    ⟨⟨by decide +kernel, by decide +kernel⟩, fun h => ?_⟩⟩
  · have hlost := h (.ending 4) (.inr (by decide +kernel))
    revert hlost
    decide +kernel
  · have hdoubled := h (.ending 4) (.inr (by decide +kernel))
    revert hdoubled
    decide +kernel

end RealtimeChat
