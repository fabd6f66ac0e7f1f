import RealtimeChat.Rooms.Confidential
import RealtimeChat.Rooms.History

/-! Whether users see themselves typing.

A typing signal is sent to everyone in the room but the socket it came from. The
same user may be there with another socket, which is not left out; apart from that,
no socket hears of its own user (`noEcho_iff`). -/
namespace RealtimeChat
open Data (Text)
open Zod (Value)
open Async Async.System

/-- The user who is typing, or has stopped. -/
def ServerEvent.typist : ServerEvent → Option ObjectId
  | .typing _ _ userId _ => some userId
  | _ => none

/-- Typing is told of in the name of the socket's user, to the others in the room, and
in no other way. -/
def Attribution : Event chatInterface Failure Call → Log → Prop
  | .acted _ (.emit _ event) _, _ => event.typist = none
  | .acted _ (.emitFrom socket room event) receivers, earlier =>
    event.typist = some socket.userId ∧ ∀ other, other ∈ receivers ↔
      other ≠ socket ∧ IsConnected other earlier ∧ joinedLast room other earlier = true
  | _, _ => True

/-- What a handler owes for it. -/
def Attributed : Action → Prop
  | .emit _ event => event.typist = none
  | .emitFrom socket room event =>
    event.typist = some socket.userId ∧ ObjectId.isValid room = true
  | _ => True

def attributing : Discipline chatInterface Server Failure Call where
  inv w := Recorded w ∧ Each Attribution w.log
  rel _ _ := True
  assume _ := True
  refl _ := trivial
  trans _ _ := trivial
  earlier := id

section
variable {D : Deployment} {pid : Nat} {w : World chatInterface Server Failure Call}

theorem Recorded.attribution (hi : Recorded w) {a : Action} (ha : Attributed a) :
    Attribution (.acted pid a (Server.act D a w.state).1) w.log := by
  cases a with
  | emit room event => exact ha
  | emitFrom socket room event =>
    refine ⟨ha.1, fun other => ?_⟩
    simp only [Server.act, inRoom, List.mem_filter, decide_eq_true_eq, bne_iff_ne, hi.sockets]
    rw [and_comm]
    exact and_congr_right fun _ => and_congr_right fun hc => hi.rooms other room hc.2 ha.2
  | _ => trivial

/-- Only the typing handlers send anything that tells of typing. -/
theorem Call.Acts.attributed {call : Call} {a : Action} (h : call.Acts a)
    (hcall : ∀ socket signal args id, call ≠ .event socket (.typing signal) args id) :
    Attributed a := by
  cases call with
  | event socket name args id =>
    cases name with
    | typing signal => exact absurd rfl (hcall socket signal args id)
    | _ =>
      cases a with
      | emit room event => cases event <;> first | rfl | exact h.elim
      | emitFrom other room event => exact h.elim
      | _ => trivial
  | _ =>
    cases a with
    | emit room event => cases event <;> first | rfl | exact h.elim
    | emitFrom other room event => exact h.elim
    | _ => trivial

theorem broadcastTyping_attributed (socket : Socket) (signal : TypingSignal) (payload : Value) :
    (broadcastTyping D socket signal payload).Within Attributed fun _ => True := by
  unfold broadcastTyping
  split
  · trivial
  · rename_i input hparse
    apply (isConversationMember_within D _ _ trivial).bind
    intro isMember
    split
    · trivial
    · exact ((Program.within_perform _).mpr ⟨rfl, typing_isValid hparse⟩).bind fun _ => trivial

theorem body_attributed (call : Call) :
    (Call.body D call).Within Attributed fun _ => True := by
  by_cases htyping : ∃ socket signal args id, call = .event socket (.typing signal) args id
  · obtain ⟨socket, signal, args, id, rfl⟩ := htyping
    exact (broadcastTyping_attributed socket signal _).bind fun _ => trivial
  · refine (body_within D call).mono (fun a ha => ha.attributed ?_) fun _ _ => trivial
    intro socket signal args id hcall
    exact htyping ⟨socket, signal, args, id, hcall⟩

end

theorem chat_upholds_attributing (D : Deployment) :
    (chat D).Upholds attributing fun _ _ _ _ => True := by
  refine Upholds.of_steady ?_ (fun call => ?_) fun n w hi => ?_
  · intro pid call w s hi ha
    exact ⟨trivial, (roomHistory_keeps_arrival hi.1 ha).inv, trivial, hi.2⟩
  · refine Steady.of_within ?_ ?_ ?_ (body_attributed call)
    · intro pid a w ha hi
      exact ⟨trivial, (roomHistory_keeps_act a hi.1).inv, hi.1.attribution ha, hi.2⟩
    · intro pid q w _ hi
      exact ⟨trivial, (roomHistory_keeps_answered hi.1 (Server.answer_sameProcess D q w.state)).inv,
        trivial, hi.2⟩
    · intro pid q w hi
      exact ⟨trivial, (roomHistory_keeps_answered hi.1 (.refl w.state)).inv, trivial, hi.2⟩
  · exact ⟨trivial, ((chat_upholds_roomHistory D).passes n w hi.1).inv, hi.2⟩

/-- No socket is told that its own user is typing. -/
def NoEcho (log : Log) : Prop :=
  ∀ socket event, Delivered log socket event → event.typist ≠ some socket.userId

/-- As one socket of a user tells a room of typing, no other connected socket of this user
is in the room. -/
def OnlyTab : Event chatInterface Failure Call → Log → Prop
  | .acted _ (.emitFrom socket room _) _, earlier => ∀ other, other.userId = socket.userId →
    other ≠ socket → IsConnected other earlier → joinedLast room other earlier = false
  | _, _ => True

theorem delivered_cons {e : Event chatInterface Failure Call} {log : Log} {socket : Socket}
    {event : ServerEvent} :
    Delivered (e :: log) socket event ↔ Delivered [e] socket event ∨ Delivered log socket event := by
  constructor
  · intro h
    obtain ⟨pid, room, receivers, hmem, h | ⟨sender, h⟩⟩ := h
    · exact (List.mem_cons.mp h).imp
        (fun h => ⟨pid, room, receivers, hmem, .inl (List.mem_singleton.mpr h)⟩)
        fun h => ⟨pid, room, receivers, hmem, .inl h⟩
    · exact (List.mem_cons.mp h).imp
        (fun h => ⟨pid, room, receivers, hmem, .inr ⟨sender, List.mem_singleton.mpr h⟩⟩)
        fun h => ⟨pid, room, receivers, hmem, .inr ⟨sender, h⟩⟩
  · intro h
    rcases h with ⟨pid, room, receivers, hmem, h | ⟨sender, h⟩⟩ |
      ⟨pid, room, receivers, hmem, h | ⟨sender, h⟩⟩
    · obtain rfl := List.mem_singleton.mp h
      exact ⟨pid, room, receivers, hmem, .inl List.mem_cons_self⟩
    · obtain rfl := List.mem_singleton.mp h
      exact ⟨pid, room, receivers, hmem, .inr ⟨sender, List.mem_cons_self⟩⟩
    · exact ⟨pid, room, receivers, hmem, .inl (List.mem_cons_of_mem e h)⟩
    · exact ⟨pid, room, receivers, hmem, .inr ⟨sender, List.mem_cons_of_mem e h⟩⟩

theorem noEcho_cons {e : Event chatInterface Failure Call} {log : Log} :
    NoEcho (e :: log) ↔ NoEcho [e] ∧ NoEcho log := by
  simp only [NoEcho, @delivered_cons e log, or_imp, forall_and]

/-- One entry brings an echo where the typist has another socket in the room. -/
theorem Attribution.noEcho_single {e : Event chatInterface Failure Call} {log : Log}
    (h : Attribution e log) : NoEcho [e] ↔ OnlyTab e log := by
  cases e with
  | acted pid a receivers =>
    cases a with
    | emitFrom socket room event =>
      obtain ⟨htypist, hreceivers⟩ := h
      constructor
      · intro hnone other huser hne hconnected
        apply Bool.eq_false_iff.mpr
        intro hjoined
        refine hnone other event ⟨pid, room, receivers, (hreceivers other).mpr
          ⟨hne, hconnected, hjoined⟩, .inr ⟨socket, List.mem_singleton_self _⟩⟩ ?_
        rw [htypist, huser]
      · intro honly other event' hdelivered htypist'
        obtain ⟨_, _, _, hmem, h | ⟨_, h⟩⟩ := hdelivered <;> cases List.mem_singleton.mp h
        obtain ⟨hne, hconnected, hjoined⟩ := (hreceivers other).mp hmem
        rw [htypist, Option.some_inj] at htypist'
        rw [honly other htypist'.symm hne hconnected] at hjoined
        cases hjoined
    | emit room event =>
      refine iff_of_true (fun other event' hdelivered htypist => ?_) trivial
      obtain ⟨_, _, _, _, h' | ⟨_, h'⟩⟩ := hdelivered <;> cases List.mem_singleton.mp h'
      rw [show event.typist = none from h] at htypist
      cases htypist
    | _ =>
      refine iff_of_true (fun other event' hdelivered _ => ?_) trivial
      obtain ⟨_, _, _, _, h' | ⟨_, h'⟩⟩ := hdelivered <;> cases List.mem_singleton.mp h'
  | _ =>
    refine iff_of_true (fun other event' hdelivered _ => ?_) trivial
    obtain ⟨_, _, _, _, h' | ⟨_, h'⟩⟩ := hdelivered <;> cases List.mem_singleton.mp h'

/-- **Who sees themselves typing.** In any run of the server, from any database, no socket
is told of its own user's typing exactly if, whenever a socket tells a room, its user
is not there with another one. -/
theorem noEcho_iff (D : Deployment) (users : Users) (conversations : Conversations)
    (messages : Messages) (clock : Nat) (moves : List (Move Call)) :
    NoEcho ((chat D).run (Config.start
      (Server.boot users conversations messages clock)) moves).world.log ↔
      Each OnlyTab ((chat D).run (Config.start
        (Server.boot users conversations messages clock)) moves).world.log := by
  have hstart : attributing.inv ⟨Server.boot users conversations messages clock, []⟩ :=
    ⟨run_recorded D users conversations messages clock [], trivial⟩
  have hattributed := ((Sound.start hstart).run (chat_upholds_attributing D) moves trivial).1.inv.2
  generalize ((chat D).run (Config.start
    (Server.boot users conversations messages clock)) moves).world.log = log at hattributed ⊢
  induction log with
  | nil =>
    refine iff_of_true (fun socket event hdelivered _ => ?_) trivial
    obtain ⟨_, _, _, _, h | ⟨_, h⟩⟩ := hdelivered <;> cases h
  | cons e earlier ih =>
    exact noEcho_cons.trans (and_congr hattributed.1.noEcho_single (ih hattributed.2))

/-! Two tabs of one user, both in the room of a conversation. -/

def firstTab : Socket := ⟨.ofChar 'a', .ending 1, "ann".toList⟩

def secondTab : Socket := ⟨.ofChar 'b', .ending 1, "ann".toList⟩

def tabsRun : List (Move Call) :=
  [.arrive (.connect firstTab), .answer 0, .resume 0, .arrive (.connect secondTab), .answer 1,
    .resume 1, .arrive (.event firstTab (.typing .start)
      [.object [("conversationId", .string (ObjectId.ending 3).toString)]] (.ending 9)),
    .answer 2, .resume 2]

theorem tabs_echo : ¬ NoEcho ((chat .default).run (Config.start (.boot .empty
    ⟨[⟨.ending 3, .oneToOne, none, [.ending 1, .ending 2], none, 0, 0⟩], by decide⟩
      .empty 0)) tabsRun).world.log :=
  fun h => h secondTab (.typing .start (ObjectId.ending 3).toString (.ending 1) "ann".toList)
    ⟨2, (ObjectId.ending 3).toString, [secondTab], by decide,
      .inr ⟨firstTab, List.mem_of_mem_head? rfl⟩⟩ rfl

end RealtimeChat
