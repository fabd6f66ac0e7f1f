import RealtimeChat.Async.Discipline
import RealtimeChat.Async.Trace
import RealtimeChat.Handlers.Footprint
import RealtimeChat.Presence.Connections

/-! The rooms, read off the log.

Which sockets are in a room is what the joins and leaves under its very name add up
to: the latest one decides. So the sockets that an emit reaches are known from what
happened before it (`run_recorded`). -/
namespace RealtimeChat
open Data (Text)
open Async Async.System

/-- The socket has connected and not yet disconnected. -/
def IsConnected (socket : Socket) (log : Log) : Prop :=
  (∃ pid, .arrived pid (.connect socket) ∈ log) ∧ hasLeft socket log = false

/-- The latest join or leave of the socket under this very name was a join. -/
def joinedLast (room : Text) (socket : Socket) : Log → Bool
  | [] => false
  | .acted _ (.join other rooms) _ :: earlier =>
    (other == socket && rooms.contains room) || joinedLast room socket earlier
  | .acted _ (.leave other rooms) _ :: earlier =>
    !(other == socket && rooms.contains room) && joinedLast room socket earlier
  | _ :: earlier => joinedLast room socket earlier

/-- An emit to the room of a conversation reaches the sockets that are connected and
have last joined it. -/
def Reaches : Event chatInterface Failure Call → Log → Prop
  | .acted _ (.emit room _) receivers, earlier => ObjectId.isValid room = true →
    ∀ socket, socket ∈ receivers ↔ IsConnected socket earlier ∧ joinedLast room socket earlier = true
  | _, _ => True

/-- Sockets and rooms are what the log says. -/
structure Recorded (w : World chatInterface Server Failure Call) : Prop where
  known : ∀ pid socket, .arrived pid (.connect socket) ∈ w.log → socket.id ∈ w.state.socketIds
  left : ∀ socket, hasLeft socket w.log = true → ∃ pid, .arrived pid (.connect socket) ∈ w.log
  sockets : ∀ socket, socket ∈ w.state.sockets ↔ IsConnected socket w.log
  rooms : ∀ socket room, hasLeft socket w.log = false → ObjectId.isValid room = true →
    ((room, socket) ∈ w.state.rooms ↔ joinedLast room socket w.log = true)
  reached : Each Reaches w.log

def roomHistory : Discipline chatInterface Server Failure Call where
  inv := Recorded
  rel _ _ := True
  assume _ := True
  refl _ := trivial
  trans _ _ := trivial
  earlier := id

/-! ### Entries that change neither -/

section
variable {e : Event chatInterface Failure Call} {log : Log}

theorem connect_mem_cons {pid : Nat} {socket : Socket} (he : ∀ pid call, e ≠ .arrived pid call) :
    .arrived pid (.connect socket) ∈ e :: log ↔ .arrived pid (.connect socket) ∈ log := by
  rw [List.mem_cons, or_iff_right]
  exact fun h => he pid (.connect socket) h.symm

theorem hasLeft_cons (he : ∀ pid call, e ≠ .arrived pid call) (socket : Socket) :
    hasLeft socket (e :: log) = hasLeft socket log := by
  cases e with
  | arrived pid call => exact absurd rfl (he pid call)
  | _ => rfl

theorem isConnected_cons (he : ∀ pid call, e ≠ .arrived pid call) (socket : Socket) :
    IsConnected socket (e :: log) ↔ IsConnected socket log := by
  simp only [IsConnected, connect_mem_cons he, hasLeft_cons he]

theorem joinedLast_cons (he : ∀ pid socket rooms r, e ≠ .acted pid (.join socket rooms) r ∧
    e ≠ .acted pid (.leave socket rooms) r) (room : Text) (socket : Socket) :
    joinedLast room socket (e :: log) = joinedLast room socket log := by
  cases e with
  | acted pid a r =>
    cases a with
    | join other rooms => exact absurd rfl (he pid other rooms r).1
    | leave other rooms => exact absurd rfl (he pid other rooms r).2
    | _ => rfl
  | _ => rfl

end

/-- A join of the room has been carried out, and no leave of it since. -/
def JoinedSince (room : Text) (socket : Socket) (log : Log) : Prop :=
  ∃ later pid rooms r earlier, log = later ++ .acted pid (.join socket rooms) r :: earlier ∧
    room ∈ rooms ∧ ∀ pid' rooms' r', .acted pid' (.leave socket rooms') r' ∈ later → room ∉ rooms'

theorem joinedSince_cons {room : Text} {socket : Socket} {log : Log}
    {e : Event chatInterface Failure Call} : JoinedSince room socket (e :: log) ↔
      (∃ pid rooms r, e = .acted pid (.join socket rooms) r ∧ room ∈ rooms) ∨
      (JoinedSince room socket log ∧
        ∀ pid rooms r, e = .acted pid (.leave socket rooms) r → room ∉ rooms) := by
  constructor
  · intro h
    obtain ⟨later, pid, rooms, r, earlier, hlog, hroom, hnone⟩ := h
    cases later with
    | nil => exact .inl ⟨pid, rooms, r, (List.cons.inj hlog).1, hroom⟩
    | cons e' later =>
      obtain ⟨rfl, rfl⟩ := List.cons.inj hlog
      refine .inr ⟨⟨later, pid, rooms, r, earlier, rfl, hroom, ?_⟩, ?_⟩
      · exact fun pid' rooms' r' hmem => hnone pid' rooms' r' (.tail _ hmem)
      · exact fun pid' rooms' r' heq => hnone pid' rooms' r' (heq ▸ .head _)
  · intro h
    rcases h with ⟨pid, rooms, r, rfl, hroom⟩ | ⟨⟨later, pid, rooms, r, earlier, rfl, hroom, hnone⟩, he⟩
    · exact ⟨[], pid, rooms, r, log, rfl, hroom, by simp⟩
    · refine ⟨e :: later, pid, rooms, r, earlier, rfl, hroom, fun pid' rooms' r' hmem => ?_⟩
      rcases List.mem_cons.mp hmem with heq | hmem
      · exact he pid' rooms' r' heq.symm
      · exact hnone pid' rooms' r' hmem

theorem joinedLast_iff {room : Text} {socket : Socket} {log : Log} :
    joinedLast room socket log = true ↔ JoinedSince room socket log := by
  fun_induction joinedLast room socket log with
  | case1 => simp [JoinedSince]
  | case2 pid other rooms r earlier ih =>
    rw [joinedSince_cons, ← ih, Bool.or_eq_true, Bool.and_eq_true, beq_iff_eq, List.contains_iff_mem]
    refine or_congr ?_ (and_iff_left nofun).symm
    constructor
    · intro h
      exact ⟨pid, rooms, r, by rw [h.1], h.2⟩
    · intro h
      obtain ⟨pid', rooms', r', heq, hroom⟩ := h
      cases heq
      exact ⟨rfl, hroom⟩
  | case3 pid other rooms r earlier ih =>
    rw [joinedSince_cons, ← ih, or_iff_right nofun, Bool.and_eq_true, Bool.not_eq_true',
      Bool.and_eq_false_iff, beq_eq_false_iff_ne, List.contains_eq_mem, decide_eq_false_iff_not, and_comm]
    refine and_congr_right fun _ => ?_
    constructor
    · intro h pid' rooms' r' heq
      cases heq
      exact h.resolve_left fun hne => hne rfl
    · intro h
      by_cases hs : other = socket
      · subst hs
        exact .inr (h pid rooms r rfl)
      · exact .inl hs
  | case4 e earlier hjoin hleave ih =>
    rw [joinedSince_cons, ← ih, or_iff_right]
    · exact (and_iff_left fun pid rooms r heq => absurd heq (hleave pid socket rooms r)).symm
    · intro h
      obtain ⟨pid, rooms, r, heq, -⟩ := h
      exact hjoin pid socket rooms r heq

/-! ### Every step keeps the record -/

section
variable {D : Deployment} {pid : Nat} {w w' : World chatInterface Server Failure Call}

/-- A step that is no arrival and leaves the sockets alone. -/
theorem recorded_step {e : Event chatInterface Failure Call} (hi : Recorded w)
    (he : ∀ pid call, e ≠ .arrived pid call) (hlog : w'.log = e :: w.log)
    (hsockets : w'.state.sockets = w.state.sockets)
    (hids : w'.state.socketIds = w.state.socketIds) (hreach : Reaches e w.log)
    (hrooms : ∀ socket room, hasLeft socket w.log = false → ObjectId.isValid room = true →
      ((room, socket) ∈ w'.state.rooms ↔ joinedLast room socket (e :: w.log) = true)) :
    roomHistory.Keeps w w' := by
  refine ⟨trivial, ?_, ?_, ?_, ?_, ?_⟩
  · intro pid socket h
    rw [hlog, connect_mem_cons he] at h
    rw [hids]
    exact hi.known pid socket h
  · intro socket h
    rw [hlog, hasLeft_cons he] at h
    obtain ⟨pid, hpid⟩ := hi.left socket h
    exact ⟨pid, by rw [hlog]; exact List.mem_cons_of_mem _ hpid⟩
  · intro socket
    rw [hlog, isConnected_cons he, hsockets]
    exact hi.sockets socket
  · intro socket room h
    rw [hlog, hasLeft_cons he] at h
    rw [hlog]
    exact hrooms socket room h
  · rw [hlog]
    exact ⟨hreach, hi.reached⟩

theorem Recorded.reaches (hi : Recorded w) (a : Action) :
    Reaches (.acted pid a (Server.act D a w.state).1) w.log := by
  cases a with
  | emit room event =>
    intro hroom socket
    simp only [Server.act, inRoom, List.mem_filter, decide_eq_true_eq, hi.sockets]
    exact and_congr_right fun hc => hi.rooms socket room hc.2 hroom
  | _ => trivial

theorem roomHistory_keeps_act (a : Action) (hi : Recorded w) :
    roomHistory.Keeps w ((chat D).perform pid a w) := by
  refine recorded_step hi (by simp) rfl (Server.act_sockets D a w.state)
    (Server.act_socketIds D a w.state) (hi.reaches a) fun socket room hleft hroom => ?_
  have hbefore := hi.rooms socket room hleft hroom
  cases a with
  | join other rooms =>
    apply mem_joinRooms.trans
    simp only [joinedLast, Bool.or_eq_true, Bool.and_eq_true, beq_iff_eq, List.contains_iff_mem]
    rw [hbefore, or_comm, eq_comm]
  | leave other rooms =>
    apply mem_leaveRooms.trans
    simp only [joinedLast, Bool.and_eq_true, Bool.not_eq_true', Bool.and_eq_false_iff,
      beq_eq_false_iff_ne, List.contains_eq_mem, decide_eq_false_iff_not]
    rw [hbefore, and_comm, not_and_or, eq_comm, ne_eq]
  | _ =>
    rw [joinedLast_cons (by simp)]
    show (room, socket) ∈ (Server.act D _ w.state).2.rooms ↔ _
    rw [Server.act_rooms D (by simp)]
    exact hbefore

theorem roomHistory_keeps_answered {q : Query} {r : Except Failure q.Answer} {s : Server}
    (hi : Recorded w) (hs : Server.SameProcess w.state s) :
    roomHistory.Keeps w ⟨s, .answered pid q r :: w.log⟩ := by
  refine recorded_step hi (by simp) rfl hs.sockets hs.socketIds trivial fun socket room hleft hroom => ?_
  rw [joinedLast_cons (by simp)]
  show (room, socket) ∈ s.rooms ↔ _
  rw [hs.rooms]
  exact hi.rooms socket room hleft hroom

/-- Actions and queries keep the record whatever they are. -/
theorem roomHistory_steady {β : Type} (p : Chat β) : (chat D).Steady roomHistory p := by
  refine Steady.of_within (fun pid a w _ hi => ?_) (fun pid q w _ hi => ?_) (fun pid q w hi => ?_)
    (Program.Within.trivial p)
  · exact roomHistory_keeps_act a hi
  · exact roomHistory_keeps_answered hi (Server.answer_sameProcess D q w.state)
  · exact roomHistory_keeps_answered hi (.refl w.state)

/-- The arrival of a call that is no connect and no disconnect. -/
theorem Recorded.arrived (hi : Recorded w) {call : Call}
    (hcall : ∀ socket, call ≠ .connect socket ∧ call ≠ .disconnect socket) :
    Recorded (arrival pid call w.state w) := by
  have hconnect : ∀ {pid' socket}, .arrived pid' (.connect socket) ∈
      (.arrived pid call :: w.log : Log) ↔
      .arrived pid' (.connect socket) ∈ w.log := by
    intro pid' socket
    rw [List.mem_cons, or_iff_right]
    intro h
    injection h with _ h
    exact (hcall socket).1 h.symm
  have hleft : ∀ socket, hasLeft socket (.arrived pid call :: w.log) = hasLeft socket w.log := by
    intro socket
    cases call with
    | disconnect other => exact absurd rfl (hcall other).2
    | _ => rfl
  refine ⟨?_, ?_, ?_, ?_, trivial, hi.reached⟩
  · exact fun pid' socket h => hi.known pid' socket (hconnect.mp h)
  · intro socket h
    obtain ⟨pid', h'⟩ := hi.left socket (hleft socket ▸ h)
    exact ⟨pid', hconnect.mpr h'⟩
  · intro socket
    rw [arrival, IsConnected, hleft]
    simp only [hconnect]
    exact hi.sockets socket
  · intro socket room h
    exact hi.rooms socket room (hleft socket ▸ h)

/-- A new socket is in no room that has a conversation's name. -/
theorem Recorded.connect (hi : Recorded w) {socket : Socket} (hnew : socket.id ∉ w.state.socketIds) :
    Recorded (arrival pid (.connect socket) (connectSocket socket w.state) w) where
  known pid' other h := by
    rcases List.mem_cons.mp h with h | h
    · injection h with _ hcall
      injection hcall with hsocket
      rw [hsocket]
      exact List.mem_cons_self
    · exact List.mem_cons_of_mem _ (hi.known pid' other h)
  left other h := by
    obtain ⟨pid', h'⟩ := hi.left other h
    exact ⟨pid', List.mem_cons_of_mem _ h'⟩
  sockets other := by
    have hfresh : hasLeft socket w.log = false := by
      apply Bool.eq_false_iff.mpr
      intro h
      obtain ⟨pid, hpid⟩ := hi.left socket h
      exact hnew (hi.known pid socket hpid)
    show other ∈ w.state.sockets ++ [socket] ↔ _
    rw [List.mem_append, List.mem_singleton, hi.sockets]
    constructor
    · intro hall
      rcases hall with ⟨⟨pid', h⟩, hleft⟩ | rfl
      · exact ⟨⟨pid', List.mem_cons_of_mem _ h⟩, hleft⟩
      · exact ⟨⟨pid, List.mem_cons_self⟩, hfresh⟩
    · intro hall
      obtain ⟨⟨pid', h⟩, hleft⟩ := hall
      rcases List.mem_cons.mp h with h | h
      · injection h with _ hcall
        injection hcall with hsocket
        exact .inr hsocket
      · exact .inl ⟨⟨pid', h⟩, hleft⟩
  rooms other room hleft hroom := by
    show (room, other) ∈ w.state.rooms ++ [(socket.id.text, socket)] ↔ _
    rw [List.mem_append, List.mem_singleton, hi.rooms other room hleft hroom]
    apply or_iff_left
    intro h
    rw [(Prod.mk.inj h).1, SocketId.isValid_text] at hroom
    cases hroom
  reached := ⟨trivial, hi.reached⟩

/-- A socket that goes is in no room any more. -/
theorem Recorded.disconnect (hi : Recorded w) {socket : Socket} (hmem : socket ∈ w.state.sockets) :
    Recorded (arrival pid (.disconnect socket) (disconnectSocket socket w.state) w) := by
  have hcons : ∀ other, hasLeft other (.arrived pid (.disconnect socket) :: w.log) =
      (socket == other || hasLeft other w.log) := fun _ => rfl
  have hold : ∀ {pid' other}, .arrived pid' (.connect other) ∈
      (.arrived pid (.disconnect socket) :: w.log : Log) ↔
      .arrived pid' (.connect other) ∈ w.log := by
    simp
  refine ⟨?_, ?_, ?_, ?_, trivial, hi.reached⟩
  · exact fun pid' other h => hi.known pid' other (hold.mp h)
  · intro other h
    rw [arrival, hcons, Bool.or_eq_true, beq_iff_eq] at h
    rcases h with rfl | h
    · obtain ⟨⟨pid', h⟩, _⟩ := (hi.sockets socket).mp hmem
      exact ⟨pid', hold.mpr h⟩
    · obtain ⟨pid', h'⟩ := hi.left other h
      exact ⟨pid', hold.mpr h'⟩
  · intro other
    show other ∈ w.state.sockets.filter (· != socket) ↔ _
    rw [List.mem_filter, hi.sockets, arrival, IsConnected, IsConnected, hcons]
    simp only [hold, Bool.or_eq_false_iff, bne_iff_ne, beq_eq_false_iff_ne, ne_eq, and_assoc]
    rw [and_comm (a := hasLeft other w.log = false), eq_comm (a := socket)]
  · intro other room hleft hroom
    rw [arrival, hcons, Bool.or_eq_false_iff, beq_eq_false_iff_ne] at hleft
    show (room, other) ∈ w.state.rooms.filter (fun entry => entry.2 != socket) ↔ _
    rw [List.mem_filter, hi.rooms other room hleft.2 hroom]
    exact and_iff_left (bne_iff_ne.mpr hleft.1.symm)

theorem roomHistory_keeps_arrival {call : Call} {s : Server} (hi : Recorded w)
    (ha : call.accept w.state = some s) : roomHistory.Keeps w (arrival pid call s w) := by
  refine ⟨trivial, ?_⟩
  cases call with
  | connect socket =>
    obtain ⟨hnew, rfl⟩ := accept_connect ha
    exact hi.connect hnew
  | disconnect socket =>
    obtain ⟨hmem, rfl⟩ := accept_disconnect ha
    exact hi.disconnect hmem
  | event socket name args id =>
    obtain ⟨_, rfl⟩ := accept_event ha
    exact hi.arrived (by simp)
  | _ =>
    cases ha
    exact hi.arrived (by simp)

end

theorem chat_upholds_roomHistory (D : Deployment) :
    (chat D).Upholds roomHistory fun _ _ _ _ => True :=
  Upholds.of_steady (fun _ _ _ _ hi ha => roomHistory_keeps_arrival hi ha)
    (fun _ => roomHistory_steady _) fun _ _ hi =>
      ⟨trivial, hi.known, hi.left, hi.sockets, hi.rooms, hi.reached⟩

/-- **The record**: in every run from a server without connections, the rooms, and
whom each emit has reached, are what the log says. -/
theorem run_recorded (D : Deployment) (users : Users) (conversations : Conversations)
    (messages : Messages) (clock : Nat) (moves : List (Move Call)) :
    Recorded ((chat D).run (Config.start
      (Server.boot users conversations messages clock)) moves).world := by
  have hstart : Recorded ⟨Server.boot users conversations messages clock, []⟩ := by
    refine ⟨by simp, by simp [hasLeft, arrivals], ?_, ?_, trivial⟩
    · simp [Server.boot, IsConnected]
    · simp [Server.boot, joinedLast]
  exact ((Sound.start hstart).run (chat_upholds_roomHistory D) moves trivial).1.inv

end RealtimeChat
