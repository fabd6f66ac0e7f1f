import RealtimeChat.Conversations.Membership
import RealtimeChat.Handlers.Lawful

/-! Whether a socket is where it last asked to be.

A `conversation:leave` takes effect as it arrives. A `conversation:join` first waits
for the database, and puts its socket into the room whenever the answer comes: a
join that has been overtaken by a leave undoes it. A socket is in the room at rest
exactly if some join got through that had not been carried out before the last leave
(`run_visited`), and this is not what it asked for last (`settled_iff`). -/
namespace RealtimeChat
open Data (Text)
open Zod (Value)
open Async Async.System

/-- The call is such an event of the socket, for a conversation so spelled. -/
def Call.visits (name : ClientEvent) (socket : Socket) (room : Text) : Call → Bool
  | .event other name' args _ =>
    other == socket && name' == name && (roomsOf (args.getD 0 .undefined)).contains room
  | _ => false

/-- The latest of the socket's joins and leaves of the room to arrive was a join. -/
def askedLast (room : Text) (socket : Socket) : Log → Bool
  | [] => false
  | .arrived _ call :: earlier => call.visits .conversationJoin socket room ||
    (!call.visits .conversationLeave socket room && askedLast room socket earlier)
  | _ :: earlier => askedLast room socket earlier

/-- What had happened when the latest leave arrived. -/
def beforeLeave (room : Text) (socket : Socket) : Log → Log
  | [] => []
  | .arrived _ call :: earlier =>
    if call.visits .conversationLeave socket room then earlier else beforeLeave room socket earlier
  | _ :: earlier => beforeLeave room socket earlier

/-- The task has carried out the join that it was asked for. -/
def HasJoined (room : Text) (socket : Socket) (pid : Nat) (log : Log) : Prop :=
  .acted pid (.join socket [room]) () ∈ log

/-- The task is a join of the room, and its query has been answered with the conversation. -/
def GotThrough (room : Text) (socket : Socket) (pid : Nat) (log : Log) : Prop :=
  (∃ call, .arrived pid call ∈ log ∧ call.visits .conversationJoin socket room = true) ∧
    ∃ c, .answered pid (.conversationFindOne (.string room) socket.userId) (.ok (some c)) ∈ log

/-- A join got through that had not been carried out before the latest leave arrived: it
came after the leave, or was still waiting. -/
def LetIn (room : Text) (socket : Socket) (log : Log) : Prop :=
  ∃ pid, GotThrough room socket pid log ∧ ¬ HasJoined room socket pid (beforeLeave room socket log)

/-- The socket neither connects nor disconnects. -/
def Stays (socket : Socket) (log : Log) : Prop :=
  ∀ pid, .arrived pid (.connect socket) ∉ log ∧ .arrived pid (.disconnect socket) ∉ log

/-- Every leave has been carried out, and the socket is in the room exactly if a join has
been since the latest leave arrived. -/
structure Visited (room : Text) (socket : Socket)
    (w : World chatInterface Server Failure Call) : Prop where
  left : ∀ pid call, .arrived pid call ∈ w.log →
    call.visits .conversationLeave socket room = true → .acted pid (.leave socket [room]) () ∈ w.log
  rooms : Stays socket w.log → ((room, socket) ∈ w.state.rooms ↔ ∃ pid,
    HasJoined room socket pid w.log ∧ ¬ HasJoined room socket pid (beforeLeave room socket w.log))

theorem mem_roomsOf {room : Text} {v : Value} : room ∈ roomsOf v ↔ v = .string room := by
  cases v with
  | string s => simp [roomsOf, eq_comm]
  | _ => simp [roomsOf]

theorem Call.visits_iff {name : ClientEvent} {socket : Socket} {room : Text} {call : Call} :
    call.visits name socket room = true ↔
      ∃ args id, call = .event socket name args id ∧ args.getD 0 .undefined = .string room := by
  cases call with
  | event other name' args id =>
    simp only [visits, Bool.and_eq_true, beq_iff_eq, List.contains_iff_mem, mem_roomsOf]
    constructor
    · intro h
      obtain ⟨⟨rfl, rfl⟩, hargs⟩ := h
      exact ⟨args, id, rfl, hargs⟩
    · intro h
      obtain ⟨args', id', hcall, hargs⟩ := h
      cases hcall
      exact ⟨⟨rfl, rfl⟩, hargs⟩
  | _ => simp [visits]

/-- Who joins: a socket that has connected, or one that has asked to and was let in. -/
theorem Call.law_join {call : Call} {before : Deeds} {socket : Socket} {rooms : List Text} {r : Unit}
    (h : call.law before (.acted (.join socket rooms) r)) : call = .connect socket ∨
      ∃ args id c, call = .event socket .conversationJoin args id ∧
        rooms = roomsOf (args.getD 0 .undefined) ∧ before =
          [.answered (.conversationFindOne (args.getD 0 .undefined) socket.userId) (.ok (some c))] := by
  cases call with
  | connect other =>
    obtain ⟨rfl, _⟩ := h
    exact .inl rfl
  | event other name args id =>
    cases name with
    | conversationJoin =>
      obtain ⟨rfl, rfl, c, hbefore⟩ := h
      exact .inr ⟨args, id, c, rfl, rfl, hbefore⟩
    | _ => exact h.elim
  | _ => exact h.elim

theorem Call.law_leave {call : Call} {before : Deeds} {socket : Socket} {rooms : List Text} {r : Unit}
    (h : call.law before (.acted (.leave socket rooms) r)) :
    ∃ args id, call = .event socket .conversationLeave args id ∧
      rooms = roomsOf (args.getD 0 .undefined) ∧ before = [] := by
  cases call with
  | event other name args id =>
    cases name with
    | conversationLeave =>
      obtain ⟨rfl, rfl, hbefore⟩ := h
      exact ⟨args, id, rfl, rfl, hbefore⟩
    | _ => exact h.elim
  | connect other => exact h.elim
  | _ => exact h.elim

section
variable {D : Deployment} {room : Text} {socket : Socket} {pid : Nat} {call : Call}
  {w w' : World chatInterface Server Failure Call}

theorem Stays.earlier {new log : Log} (h : Stays socket (new ++ log)) : Stays socket log := fun pid =>
  ⟨fun hmem => (h pid).1 (List.mem_append_right new hmem),
    fun hmem => (h pid).2 (List.mem_append_right new hmem)⟩

theorem beforeLeave_suffix (log : Log) : ∃ new, log = new ++ beforeLeave room socket log := by
  fun_induction beforeLeave room socket log with
  | case1 => exact ⟨[], rfl⟩
  | case2 pid call earlier hleave => exact ⟨[_], rfl⟩
  | case3 pid call earlier hleave ih =>
    obtain ⟨new, hnew⟩ := ih
    exact ⟨.arrived pid call :: new, congrArg (.arrived pid call :: ·) hnew⟩
  | case4 e earlier he ih =>
    obtain ⟨new, hnew⟩ := ih
    exact ⟨e :: new, congrArg (e :: ·) hnew⟩

theorem beforeLeave_cons {e : Event chatInterface Failure Call} (he : ∀ pid call,
      e = .arrived pid call → call.visits .conversationLeave socket room = false) (log : Log) :
    beforeLeave room socket (e :: log) = beforeLeave room socket log := by
  cases e with
  | arrived pid call => simp [beforeLeave, he pid call rfl]
  | _ => rfl

/-- An entry that is no leave of the room, and joins nobody to it. -/
theorem Visited.cons (hi : Visited room socket w) {e : Event chatInterface Failure Call}
    (hlog : w'.log = e :: w.log) (he : ∀ pid call, e = .arrived pid call →
      call.visits .conversationLeave socket room = false)
    (hjoin : ∀ pid, e ≠ .acted pid (.join socket [room]) ())
    (hrooms : Stays socket w'.log → ((room, socket) ∈ w'.state.rooms ↔ (room, socket) ∈ w.state.rooms)) :
    Visited room socket w' := by
  have hjoined : ∀ pid, HasJoined room socket pid (e :: w.log) ↔ HasJoined room socket pid w.log := by
    intro pid
    rw [HasJoined, List.mem_cons]
    exact or_iff_right fun h => hjoin pid h.symm
  refine ⟨fun pid call hmem hleave => ?_, fun hstays => ?_⟩
  · rw [hlog] at hmem ⊢
    rcases List.mem_cons.mp hmem with h | hmem
    · rw [he pid call h.symm] at hleave
      cases hleave
    · exact .tail _ (hi.left pid call hmem hleave)
  · rw [hrooms hstays]
    rw [hlog] at hstays ⊢
    simp only [hjoined, beforeLeave_cons he]
    exact hi.rooms (@Stays.earlier _ [e] _ hstays)

theorem Visited.act (hi : Visited room socket w) {a : Action} (harrived : .arrived pid call ∈ w.log)
    (hlaw : call.law (deeds pid w.log) (.acted a (Server.act D a w.state).1)) :
    Visited room socket ((chat D).perform pid a w) := by
  cases a with
  | join other rooms =>
    by_cases hhere : other = socket ∧ room ∈ rooms
    · obtain ⟨rfl, hroom⟩ := hhere
      refine ⟨fun pid' call' hmem hleave => ?_, fun hstays => ?_⟩
      · exact .tail _ (hi.left pid' call' ((List.mem_cons.mp hmem).resolve_left nofun) hleave)
      · rcases Call.law_join hlaw with rfl | ⟨args, id, c, rfl, rfl, hbefore⟩
        · exact absurd (.tail _ harrived) (hstays pid).1
        · rw [mem_roomsOf] at hroom
          refine iff_of_true (mem_joinRooms.mpr (.inr ⟨rfl, ?_⟩)) ⟨pid, ?_, fun hmem => ?_⟩
          · rw [hroom]
            exact List.mem_singleton_self room
          · rw [hroom]
            exact .head _
          · -- It has joined only now.
            obtain ⟨new, hnew⟩ := @beforeLeave_suffix room other w.log
            have hold : .acted pid (.join other [room]) () ∈ w.log := by
              rw [hnew]
              exact List.mem_append_right new hmem
            rw [← mem_deeds_acted, hbefore] at hold
            cases List.mem_singleton.mp hold
    · refine hi.cons rfl (by simp) (fun pid' heq => hhere ?_) fun _ => ?_
      · cases heq
        exact ⟨rfl, List.mem_singleton_self room⟩
      · exact mem_joinRooms.trans (or_iff_left fun h => hhere ⟨h.1.symm, h.2⟩)
  | leave other rooms =>
    obtain ⟨args, id, rfl, rfl, hbefore⟩ := Call.law_leave hlaw
    refine hi.cons rfl (by simp) (by simp) fun _ => mem_leaveRooms.trans (and_iff_left fun h => ?_)
    -- This leave has been carried out as it arrived.
    obtain ⟨rfl, hroom⟩ := h
    have hold := hi.left pid _ harrived (Call.visits_iff.mpr ⟨args, id, rfl, mem_roomsOf.mp hroom⟩)
    rw [← mem_deeds_acted, hbefore] at hold
    cases hold
  | _ =>
    refine hi.cons rfl (by simp) (by simp) fun _ => ?_
    show (room, socket) ∈ (Server.act D _ w.state).2.rooms ↔ _
    rw [Server.act_rooms D (by simp)]

theorem Visited.answered (hi : Visited room socket w) {q : Query} {r : Except Failure q.Answer}
    {s : Server} (hs : Server.SameProcess w.state s) :
    Visited room socket ⟨s, .answered pid q r :: w.log⟩ :=
  hi.cons rfl (by simp) (by simp) fun _ => by rw [hs.rooms]

theorem Visited.arrival (hi : Visited room socket w) {s : Server}
    (ha : call.accept w.state = some s)
    (hleave : call.visits .conversationLeave socket room = false) :
    Visited room socket (arrival pid call s w) := by
  refine hi.cons rfl (fun _ _ h => by cases h; exact hleave) (by simp) fun hstays => ?_
  cases call with
  | connect other =>
    obtain ⟨_, rfl⟩ := accept_connect ha
    show (room, socket) ∈ w.state.rooms ++ [(other.id.text, other)] ↔ _
    rw [List.mem_append, List.mem_singleton]
    refine or_iff_left fun h => (hstays pid).1 ?_
    rw [(Prod.mk.inj h).2]
    exact .head _
  | disconnect other =>
    obtain ⟨_, rfl⟩ := accept_disconnect ha
    show (room, socket) ∈ w.state.rooms.filter (fun entry => entry.2 != other) ↔ _
    rw [List.mem_filter]
    refine and_iff_left (bne_iff_ne.mpr fun h => (hstays pid).2 ?_)
    rw [show socket = other from h]
    exact .head _
  | event other name args id =>
    obtain ⟨_, rfl⟩ := accept_event ha
    rfl
  | _ =>
    cases ha
    rfl

/-- A leave, carried out as it arrives. -/
theorem Visited.leave (hi : Visited room socket w) (r : Unit)
    (hleave : call.visits .conversationLeave socket room = true) :
    Visited room socket ⟨leaveRooms socket [room] w.state,
      .acted pid (.leave socket [room]) r :: .arrived pid call :: w.log⟩ := by
  refine ⟨fun pid' call' hmem hleave' => ?_, fun _ => ?_⟩
  · have hmem := (List.mem_cons.mp hmem).resolve_left nofun
    rcases List.mem_cons.mp hmem with h | hmem
    · cases h
      exact .head _
    · exact .tail _ (.tail _ (hi.left pid' call' hmem hleave'))
  · refine iff_of_false (fun h => ?_) fun h => ?_
    · exact (mem_leaveRooms.mp h).2 ⟨rfl, List.mem_singleton_self room⟩
    · obtain ⟨pid', hjoined, hnot⟩ := h
      rw [beforeLeave, beforeLeave, if_pos hleave] at hnot
      · exact hnot ((List.mem_cons.mp ((List.mem_cons.mp hjoined).resolve_left nofun)).resolve_left nofun)
      · simp

theorem Visited.settle {p : Chat Response} (hi : Visited room socket w)
    (harrived : .arrived pid call ∈ w.log)
    (hp : p.Obeys call.law (fun before _ => call.ending before) (deeds pid w.log)) :
    Visited room socket ((chat D).settle pid p w).2 :=
  settle_invariant (L := Call.law) (E := fun call before _ => call.ending before)
    (fun hi harrived hlaw => hi.act harrived hlaw) hi harrived hp

theorem Visited.step {c : Config chatInterface Server Failure Call Response} (hb : Behaved c)
    (hi : Visited room socket c.world) (m : Move Call) :
    Visited room socket ((chat D).step c m).world := by
  have hstep := (chat D).step_stepped c m
  generalize (chat D).step c m = c' at hstep ⊢
  cases hstep with
  | idle => exact hi
  | @arrive call s ha =>
    have hfresh := hb.fresh call s
    have hbody : (Call.body D call).Obeys call.law (fun before _ => call.ending before)
        (deeds c.tasks.length (Async.System.arrival c.tasks.length call s c.world).log) := by
      rw [hfresh]
      exact body_obeys D call
    by_cases hleave : call.visits .conversationLeave socket room = true
    · obtain ⟨args, id, rfl, hroom⟩ := Call.visits_iff.mp hleave
      obtain ⟨_, rfl⟩ := @accept_event socket .conversationLeave args id _ _ ha
      -- The first thing that a leave does is to leave.
      obtain ⟨next, hnext⟩ : ∃ next, Call.body D (.event socket .conversationLeave args id) =
          .act (.leave socket (roomsOf (args.getD 0 .undefined))) next := ⟨_, rfl⟩
      rw [hnext] at hbody
      rw [show (chat D).body (.event socket .conversationLeave args id) = _ from hnext]
      show Visited room socket ((chat D).settle c.tasks.length (next ()) ((chat D).perform _ _ _)).2
      refine Visited.settle ?_ (.tail _ (.head _)) ?_
      · rw [hroom]
        exact hi.leave () hleave
      · rw [System.perform, deeds_acted]
        exact (hbody _).2
    · exact (hi.arrival ha (Bool.eq_false_iff.mpr hleave)).settle (.head _) hbody
  | answer he => exact hi.answered (Server.answer_sameProcess D _ c.world.state)
  | fail he hf => exact hi.answered (.refl c.world.state)
  | resume he => exact hi.settle (hb.arrived _ _ he) (hb.obeys _ _ he)
  | pass n => exact ⟨hi.left, hi.rooms⟩

end

/-- **Who is in a room**, while the socket is connected: whoever a join has put there since
the latest leave arrived. -/
theorem run_visited (D : Deployment) (s : Server) (moves : List (Move Call)) {room : Text}
    {socket : Socket} (hout : (room, socket) ∉ s.rooms) :
    Visited room socket ((chat D).run (Config.start s) moves).world := by
  induction moves using List.reverseRecOn with
  | nil => exact ⟨by simp [run, Config.start], fun _ => by simpa [run, Config.start, HasJoined] using hout⟩
  | append_singleton front m ih =>
    rw [(chat D).run_append]
    exact ih.step (behaved_run D s front) m

/-- A conversation that a query has found is still the user's. -/
structure Found (D : Deployment) (w : World chatInterface Server Failure Call) : Prop where
  member : ∀ pid v userId c, .answered pid (.conversationFindOne v userId) (.ok (some c)) ∈ w.log →
    MemberBy D v userId w.state

theorem Found.cons {D : Deployment} {w w' : World chatInterface Server Failure Call} (hi : Found D w)
    {e : Event chatInterface Failure Call} (hlog : w'.log = e :: w.log)
    (hs : MembersStay w.state w'.state) (he : ∀ pid v userId c,
      e = .answered pid (.conversationFindOne v userId) (.ok (some c)) → MemberBy D v userId w.state) :
    Found D w' := by
  refine ⟨fun pid v userId c hmem => ?_⟩
  rw [hlog] at hmem
  rcases List.mem_cons.mp hmem with h | hmem
  · exact (he pid v userId c h.symm).stays hs
  · exact (hi.member pid v userId c hmem).stays hs

theorem run_found (D : Deployment) (s : Server) (moves : List (Move Call)) :
    Found D ((chat D).run (Config.start s) moves).world := by
  refine preserved_run ⟨?_, ?_, ?_, ?_, ?_⟩ ⟨by simp⟩ moves
  · exact fun hi _ _ => hi.cons rfl (.of_conversations (Server.act_conversations _ _ _)) (by simp)
  · intro pid call q w hi _ _
    refine hi.cons rfl (.answer q w.state) fun pid' v userId c heq => ?_
    injection heq with _ hq hanswer
    subst hq
    exact (findOne_answer (eq_of_heq hanswer)).mp rfl
  · intro pid call q w hi _ _
    refine hi.cons rfl (.refl w.state) fun pid' v userId c heq => ?_
    injection heq with _ hq hanswer
    subst hq
    cases eq_of_heq hanswer
  · exact fun hi _ ha => hi.cons rfl (.of_conversations (accept_sameBehind ha).conversations) (by simp)
  · exact fun hi => ⟨hi.member⟩

section
variable {D : Deployment} {room : Text} {socket : Socket} {pid : Nat}
  {c : Config chatInterface Server Failure Call Response}

theorem GotThrough.of_hasJoined (hb : Behaved c) (hstays : Stays socket c.world.log)
    (h : HasJoined room socket pid c.world.log) : GotThrough room socket pid c.world.log := by
  obtain ⟨later, earlier, hlog⟩ := List.append_of_mem h
  obtain ⟨call, task, hentry, hlaw⟩ := hb.law hlog rfl
  have harrived := hb.arrived pid _ hentry
  rcases Call.law_join hlaw with rfl | ⟨args, id, c', rfl, hroom, hbefore⟩
  · exact absurd harrived (hstays pid).1
  · have hargs := mem_roomsOf.mp (hroom ▸ List.mem_singleton_self room)
    have hfound : .answered (.conversationFindOne (args.getD 0 .undefined) socket.userId)
        (.ok (some c')) ∈ deeds pid earlier := by
      rw [show deeds pid earlier = _ from hbefore]
      exact .head _
    rw [hargs, mem_deeds_answered] at hfound
    refine ⟨⟨_, harrived, Call.visits_iff.mpr ⟨args, id, rfl, hargs⟩⟩, c', ?_⟩
    rw [hlog]
    exact List.mem_append_right later (.tail _ hfound)

theorem GotThrough.hasJoined (hb : Behaved c) (hpresent : Present c)
    (hdone : ∀ entry ∈ c.tasks, entry.task.isDone = true)
    (h : GotThrough room socket pid c.world.log) : HasJoined room socket pid c.world.log := by
  obtain ⟨⟨call, harrived, hvisits⟩, c', hfound⟩ := h
  obtain ⟨args, id, rfl, hargs⟩ := Call.visits_iff.mp hvisits
  obtain ⟨task, hentry⟩ := hpresent pid _ harrived
  obtain ⟨_, hended⟩ := hb.ended hentry (hdone _ (List.mem_of_getElem? hentry))
  have hjoined : Visiting.joined socket (args.getD 0 .undefined) (deeds pid c.world.log) := hended
  rw [hargs] at hjoined
  exact mem_deeds_acted.mp (hjoined c' (mem_deeds_answered.mpr hfound))

end

/-- Whichever request came last, it was the last to matter: if a leave, every join that got
through had been carried out when it arrived; if a member's join, one got through that had
not been. -/
def InTurn (D : Deployment) (room : Text) (socket : Socket)
    (w : World chatInterface Server Failure Call) : Prop :=
  (askedLast room socket w.log = false → ¬ LetIn room socket w.log) ∧
    (MemberBy D (.string room) socket.userId w.state → askedLast room socket w.log = true →
      LetIn room socket w.log)

/-- **Where a socket ends up.** In any run of the server, from any state in which the socket
is not in the room, once no handler is in flight: the socket is in the room exactly if it
is a member's and asked last to join, if and only if the requests were carried out in turn. -/
theorem settled_iff (D : Deployment) (s : Server) (moves : List (Move Call)) (room : Text)
    (socket : Socket) (hout : (room, socket) ∉ s.rooms)
    (hstays : Stays socket ((chat D).run (Config.start s) moves).world.log)
    (hdone : ∀ entry ∈ ((chat D).run (Config.start s) moves).tasks, entry.task.isDone = true) :
    ((room, socket) ∈ ((chat D).run (Config.start s) moves).world.state.rooms ↔
      MemberBy D (.string room) socket.userId
        ((chat D).run (Config.start s) moves).world.state ∧
      askedLast room socket ((chat D).run (Config.start s) moves).world.log = true) ↔
      InTurn D room socket ((chat D).run (Config.start s) moves).world := by
  have hvisited := (run_visited D s moves hout).rooms hstays
  have hfound := run_found D s moves
  have hbehaved := behaved_run D s moves
  have hpresent := (Present.start s).run (chat D) moves
  generalize (chat D).run (Config.start s) moves = c at *
  have hin : (room, socket) ∈ c.world.state.rooms ↔ LetIn room socket c.world.log := by
    refine hvisited.trans (exists_congr fun pid => and_congr_left fun _ => ?_)
    exact ⟨.of_hasJoined hbehaved hstays, fun h => h.hasJoined hbehaved hpresent hdone⟩
  have hmember : LetIn room socket c.world.log →
      MemberBy D (.string room) socket.userId c.world.state := by
    intro h
    obtain ⟨pid, ⟨_, c', hanswered⟩, _⟩ := h
    exact hfound.member pid _ _ c' hanswered
  rw [hin, InTurn]
  constructor
  · intro h
    refine ⟨fun hleft hlet => ?_, fun hm hasked => h.mpr ⟨hm, hasked⟩⟩
    rw [(h.mp hlet).2] at hleft
    cases hleft
  · intro h
    refine ⟨fun hlet => ⟨hmember hlet, ?_⟩, fun hasked => h.2 hasked.1 hasked.2⟩
    by_contra hleft
    exact h.1 (Bool.eq_false_iff.mpr hleft) hlet

/-! A conversation opened and closed again before the database has answered. -/

def comer : Socket := ⟨.ofChar 'a', .ending 1, "ann".toList⟩

def visitedServer : Server := connectSocket comer (.boot .empty
  (.single ⟨.ending 10, .oneToOne, none, [.ending 1, .ending 2], none, 0, 0⟩) .empty 0)

def visit (name : ClientEvent) : Move Call :=
  .arrive (.event comer name [.string (ObjectId.ending 10).toString, .function] (.ending 5))

def hastyVisit : List (Move Call) :=
  [visit .conversationJoin, visit .conversationLeave, .answer 1, .resume 1, .answer 0, .resume 0,
    .answer 0, .resume 0]

def hastyRun : Config chatInterface Server Failure Call Response :=
  (chat .default).run (Config.start visitedServer) hastyVisit

theorem hastyRun_stays : Stays comer hastyRun.world.log := by
  have harrivals : arrivals hastyRun.world.log =
      [.event comer .conversationLeave [.string (ObjectId.ending 10).toString, .function] (.ending 5),
        .event comer .conversationJoin [.string (ObjectId.ending 10).toString, .function]
          (.ending 5)] := rfl
  refine fun pid => ⟨fun h => ?_, fun h => ?_⟩ <;>
    · have hmem := mem_arrivals h
      rw [harrivals] at hmem
      simp at hmem

theorem settled_iff_hasty :
    ((((ObjectId.ending 10).toString, comer) ∈ hastyRun.world.state.rooms ↔
      MemberBy .default (.string (ObjectId.ending 10).toString) comer.userId hastyRun.world.state ∧
        askedLast (ObjectId.ending 10).toString comer hastyRun.world.log = true) ↔
      InTurn .default (ObjectId.ending 10).toString comer hastyRun.world) :=
  settled_iff .default visitedServer hastyVisit (ObjectId.ending 10).toString comer
    (by decide +kernel) hastyRun_stays (by decide +kernel)

/-- The socket has asked to leave last, and all is done; it is still in the room. -/
theorem hasty_remains : (∀ entry ∈ hastyRun.tasks, entry.task.isDone = true) ∧
    ¬ (((ObjectId.ending 10).toString, comer) ∈ hastyRun.world.state.rooms ↔
      MemberBy .default (.string (ObjectId.ending 10).toString) comer.userId hastyRun.world.state ∧
        askedLast (ObjectId.ending 10).toString comer hastyRun.world.log = true) := by
  refine ⟨by decide +kernel, fun h => ?_⟩
  have hin : ((ObjectId.ending 10).toString, comer) ∈ hastyRun.world.state.rooms := by
    decide +kernel
  have hleft : askedLast (ObjectId.ending 10).toString comer hastyRun.world.log = false := by
    decide +kernel
  rw [(h.mp hin).2] at hleft
  cases hleft

end RealtimeChat
