import RealtimeChat.Async.Discipline
import RealtimeChat.Handlers.Footprint

/-! Which event handlers end in a rejected promise.

A rejected promise of an event handler reaches the process and shuts the server
down. Each handler that takes a callback calls it on every way out, its `catch`
block included, so what stands in the place of the callback decides alone. The
typing handlers take no callback and catch nothing: they are rejected exactly when
their membership query fails (`fulfilled_iff`). -/
namespace RealtimeChat
open Data (Text)
open Zod (Value)
open Async Async.System
open Async.Program (Ends)

/-- Whether `ack?.(..)` goes through: a function, or nothing. -/
def isCallback : Value → Bool
  | .function => true
  | v => v.isNullish

/-- The events of a socket that the server listens for, `disconnect` included. -/
def Call.fromSocket : Call → Bool
  | .event _ _ _ _ => true
  | .disconnect _ => true
  | _ => false

/-- No query of the task has failed. -/
def Unfailed (pid : Nat) (log : Log) : Prop :=
  ∀ q e, .answered pid q (.error e) ∉ log

/-- The handler has a callback that can be called, or none; a typing handler has had no
failed query. -/
def Harmless (pid : Nat) (log : Log) : Call → Prop
  | .event _ (.typing _) _ _ => Unfailed pid log
  | .event _ _ args _ => isCallback (args.getD 1 .undefined) = true
  | _ => True

def Fulfilled {α : Type} (r : Except Failure α) : Prop := ∃ v, r = .ok v

/-- No event handler that has finished has left its promise rejected. -/
def NoneRejected (c : Config chatInterface Server Failure Call Response) : Prop :=
  ∀ (pid : Nat) call r, c.tasks[pid]? = some ⟨call, .done r⟩ → call.fromSocket = true → Fulfilled r

/-! ### Handlers with a callback -/

/-- The promise is fulfilled exactly if the callback can be called. -/
def Decided (ack : Value) (r : Except Failure Unit) : Prop := Fulfilled r ↔ isCallback ack = true

/-- Without a callback that can be called, the promise is not fulfilled. -/
def Guarded (ack : Value) (r : Except Failure Unit) : Prop := isCallback ack = false → ¬ Fulfilled r

variable {Can : (q : Query) → Except Failure q.Answer → Prop}

theorem callAck_ends (ack : Value) (r : SocketAck) : (callAck ack r).Ends Can (Decided ack) := by
  unfold callAck
  cases ack with
  | undefined => exact ⟨fun _ => rfl, fun _ => ⟨(), rfl⟩⟩
  | null => exact ⟨fun _ => rfl, fun _ => ⟨(), rfl⟩⟩
  | function => exact fun _ => ⟨fun _ => rfl, fun _ => ⟨(), rfl⟩⟩
  | _ => exact ⟨nofun, nofun⟩

theorem callAck_guarded (ack : Value) (r : SocketAck) : (callAck ack r).Ends Can (Guarded ack) :=
  (callAck_ends ack r).mono fun r h hack hr => by
    rw [h.mp hr] at hack
    cases hack

theorem guarded_error (ack : Value) (e : Failure) : Guarded ack (.error e) := fun _ => nofun

theorem bind_guarded {α : Type} {ack : Value} (p : Chat α) {f : α → Chat Unit}
    (hf : ∀ v, (f v).Ends Can (Guarded ack)) : (p.bind f).Ends Can (Guarded ack) :=
  .bind_of hf (guarded_error ack)

/-- If every way out of the `try` block and of the `catch` block calls the callback, it decides. -/
theorem tryCatch_decided {ack : Value} {p : Chat Unit} {f : Failure → Chat Unit}
    (hp : p.Ends Can (Guarded ack)) (hf : ∀ e, (f e).Ends Can (Decided ack)) :
    (p.tryCatch f).Ends Can (Decided ack) := by
  refine (Program.ends_tryCatch p f).mpr (hp.mono ?_)
  intro r h
  rcases r with e | v
  · exact hf e
  · refine ⟨fun _ => ?_, fun _ => ⟨v, rfl⟩⟩
    cases hack : isCallback ack with
    | true => rfl
    | false => exact absurd ⟨v, rfl⟩ (h hack)

section
variable (D : Deployment) (socket : Socket) (payload ack : Value)

theorem conversationJoin_decided :
    (conversationJoin D socket payload ack).Ends Can (Decided ack) := by
  refine tryCatch_decided (bind_guarded _ fun isMember => ?_) fun _ => callAck_ends ack _
  split
  · exact callAck_guarded ack _
  · refine bind_guarded _ fun _ => bind_guarded _ fun _ => bind_guarded _ fun _ => ?_
    exact callAck_guarded ack _

theorem conversationLeave_decided :
    (conversationLeave socket payload ack).Ends Can (Decided ack) := by
  refine tryCatch_decided ?_ fun _ => callAck_ends ack _
  refine bind_guarded _ fun _ => bind_guarded _ fun _ => bind_guarded _ fun _ => ?_
  exact callAck_guarded ack _

theorem messageSend_decided (id : ObjectId) :
    (messageSend D id socket payload ack).Ends Can (Decided ack) := by
  refine tryCatch_decided (bind_guarded _ fun allowed => ?_) fun error => ?_
  · split
    · exact callAck_guarded ack _
    · refine bind_guarded _ fun input => bind_guarded _ fun message => bind_guarded _ fun _ => ?_
      exact callAck_guarded ack _
  · cases error <;> exact callAck_ends ack _

theorem receiptError_ends (message : String) (error : Failure) :
    (receiptError ack message error).Ends Can (Decided ack) := by
  cases error <;> exact callAck_ends ack _

theorem messageDelivered_decided :
    (messageDelivered D socket payload ack).Ends Can (Decided ack) := by
  refine tryCatch_decided ?_ (receiptError_ends ack _)
  refine bind_guarded _ fun input => bind_guarded _ fun result => bind_guarded _ fun _ => ?_
  exact callAck_guarded ack _

theorem messageRead_decided : (messageRead D socket payload ack).Ends Can (Decided ack) := by
  refine tryCatch_decided ?_ (receiptError_ends ack _)
  refine bind_guarded _ fun input => bind_guarded _ fun result => ?_
  split
  · exact bind_guarded _ fun _ => callAck_guarded ack _
  · exact bind_guarded _ fun _ => callAck_guarded ack _

end

theorem onDisconnect_fulfilled (socket : Socket) : (onDisconnect socket).Ends Can Fulfilled :=
  .tryCatch_of (fun v => ⟨v, rfl⟩) fun _ => ⟨(), rfl⟩

/-! ### Typing -/

section
variable (D : Deployment) {pid : Nat} {w w' : World chatInterface Server Failure Call}

theorem unfailed_meanwhile (hw : (free : Discipline chatInterface Server Failure Call).Meanwhile
    pid w w') : Unfailed pid w'.log ↔ Unfailed pid w.log :=
  forall_congr' fun _ => forall_congr' fun _ => not_congr (hw.mem_own rfl)

theorem unfailed_cons {e : Event chatInterface Failure Call}
    {log : Log} (he : ¬ ∃ q error, e = .answered pid q (.error error)) :
    Unfailed pid (e :: log) ↔ Unfailed pid log := by
  refine forall_congr' fun q => forall_congr' fun error => not_congr ?_
  exact ⟨fun h => List.mem_of_ne_of_mem (fun h' => he ⟨q, error, h'.symm⟩) h, .tail _⟩

/-- A membership check raises exactly the failure of its query. -/
theorem isConversationMember_safe (id : Value) (userId : ObjectId) (hw : Unfailed pid w.log)
    (b : World chatInterface Server Failure Call) :
    (chat D).Safe free pid (fun r _ w => Fulfilled r ↔ Unfailed pid w.log)
      (isConversationMember D id userId) b w := by
  unfold isConversationMember
  split
  · exact ⟨fun _ => hw, fun _ => ⟨_, rfl⟩⟩
  · refine (safe_bind _ _ _ _ _).mpr (Safe.of_query (free_keeps _ _) (fun _ _ _ => free_keeps _ _)
      (fun _ _ _ => free_keeps _ _) ?_ ?_)
    · intro found w₁ w₂ hw₁ hfound _ hw₂
      refine ⟨fun _ => (unfailed_meanwhile hw₂).mpr ?_, fun _ => ⟨_, rfl⟩⟩
      refine (unfailed_cons ?_).mpr ((unfailed_meanwhile hw₁).mpr hw)
      intro h'
      obtain ⟨q, error, he⟩ := h'
      injection he with _ hq hanswer
      subst hq
      rw [eq_of_heq hanswer] at hfound
      cases hfound
    · intro e w₁ w₂ hw₁ hfailed
      obtain ⟨new, hlog⟩ := hfailed.logged
      refine ⟨nofun, fun h => absurd ?_ (h (.conversationFindOne id userId) e)⟩
      rw [hlog]
      exact List.mem_append_right _ (.head _)

theorem broadcastTyping_safe (socket : Socket) (signal : TypingSignal) (payload : Value)
    (hw : Unfailed pid w.log) (b : World chatInterface Server Failure Call) :
    (chat D).Safe free pid (fun r _ w => Fulfilled r ↔ Unfailed pid w.log)
      (broadcastTyping D socket signal payload) b w := by
  unfold broadcastTyping
  split
  · exact ⟨fun _ => hw, fun _ => ⟨_, rfl⟩⟩
  · refine (safe_bind _ _ _ _ _).mpr ((isConversationMember_safe D _ _ hw b).mono ?_)
    intro result b w h
    rcases result with e | isMember
    · exact ⟨nofun, fun hu => absurd (h.mpr hu) nofun⟩
    · have hu := h.mp ⟨isMember, rfl⟩
      show (chat D).Safe free pid _ (if (!isMember) = true then _ else _) b w
      split
      · exact ⟨fun _ => hu, fun _ => ⟨_, rfl⟩⟩
      · exact ⟨fun _ => (unfailed_cons (by rintro ⟨_, _, ⟨⟩⟩)).mpr hu, fun _ => ⟨_, rfl⟩⟩

/-! ### Every run -/

/-- How a finished call from a socket has ended. -/
def Concluded (pid : Nat) (call : Call) (r : Except Failure Response)
    (w : World chatInterface Server Failure Call) : Prop :=
  call.fromSocket = true → (Fulfilled r ↔ Harmless pid w.log call)

theorem harmless_meanwhile {call : Call}
    (hw : (free : Discipline chatInterface Server Failure Call).Meanwhile pid w w') :
    Harmless pid w'.log call ↔ Harmless pid w.log call := by
  cases call with
  | event socket name args id =>
    cases name with
    | typing signal => exact unfailed_meanwhile hw
    | _ => exact Iff.rfl
  | _ => exact Iff.rfl

theorem handle_safe (socket : Socket) (name : ClientEvent) (args : List Value) (id : ObjectId)
    (hw : Unfailed pid w.log) (b : World chatInterface Server Failure Call) :
    (chat D).Safe free pid (fun r _ w => Fulfilled r ↔ Harmless pid w.log (.event socket name args id))
      (handle D socket name args id) b w := by
  cases name with
  | conversationJoin => exact Safe.of_ends (conversationJoin_decided D socket _ _) b w
  | conversationLeave => exact Safe.of_ends (conversationLeave_decided socket _ _) b w
  | messageSend => exact Safe.of_ends (messageSend_decided D socket _ _ id) b w
  | messageDelivered => exact Safe.of_ends (messageDelivered_decided D socket _ _) b w
  | messageRead => exact Safe.of_ends (messageRead_decided D socket _ _) b w
  | typing signal => exact broadcastTyping_safe D socket signal _ hw b

/-- A handler of a socket event concludes its call as it ends itself. -/
theorem concluded_of_handler {call : Call} {p : Chat Unit} {b w : World chatInterface Server Failure Call}
    (hp : (chat D).Safe free pid (fun r _ w => Fulfilled r ↔ Harmless pid w.log call) p b w) :
    (chat D).Safe free pid (free.Ended (Concluded pid call)) ((fun _ => Response.none) <$> p) b w := by
  refine (safe_bind _ _ _ _ _).mpr (hp.mono ?_)
  intro result b w h
  rcases result with e | v
  · exact fun _ => ⟨free_keeps b w, fun _ => ⟨nofun, fun hh => absurd (h.mpr hh) nofun⟩⟩
  · exact fun _ => ⟨free_keeps b w, fun _ => ⟨fun _ => h.mp ⟨v, rfl⟩, fun _ => ⟨_, rfl⟩⟩⟩

theorem chat_upholds_concluded : (chat D).Upholds free Concluded := by
  refine ⟨fun pid call w s _ hfresh _ => ?_, fun _ _ _ => free_keeps _ _, fun pid call r w w' h hw => ?_⟩
  · have hother : call.fromSocket = false → (chat D).Safe free pid
        (free.Ended (Concluded pid call)) (Call.body D call) w (arrival pid call s w) := by
      intro hc
      refine (free_safe _ _ _).mono fun r b w _ _ => ⟨free_keeps b w, fun h => ?_⟩
      rw [hc] at h
      cases h
    cases call with
    | event socket name args id =>
      refine concluded_of_handler D (handle_safe D socket name args id (fun q e hmem => ?_) w)
      rcases List.mem_cons.mp hmem with he | hmem
      · cases he
      · exact hfresh _ hmem rfl
    | disconnect socket =>
      refine concluded_of_handler D ((Safe.of_ends (onDisconnect_fulfilled socket) _ _).mono ?_)
      exact fun r b w h => ⟨fun _ => trivial, fun _ => h⟩
    | _ => exact hother rfl
  · exact fun hc => (h hc).trans (harmless_meanwhile hw).symm

/-- **Which promises are fulfilled.** In every run of the server, from any state and with any
pattern of failing queries, the promise of a finished event handler is fulfilled exactly if
what stands in the place of its callback can be called or is absent, and, for a typing
event, its membership query has not failed. -/
theorem fulfilled_iff (s : Server) (moves : List (Move Call)) {pid : Nat} {call : Call}
    {r : Except Failure Response} (hcall : call.fromSocket = true)
    (hdone : ((chat D).run (Config.start s) moves).tasks[pid]? = some ⟨call, .done r⟩) :
    Fulfilled r ↔ Harmless pid ((chat D).run (Config.start s) moves).world.log call := by
  have hstart : (chat D).Sound free Concluded (Config.start s) := .start trivial
  exact (hstart.run (chat_upholds_concluded D) moves trivial).2.tasks pid _ hdone hcall

end

/-! One socket, one bad callback and one failing query. -/

def talker : Socket := ⟨.ofChar 'a', .ending 1, "ann".toList⟩

def quietServer : Server := .boot .empty .empty .empty 5

/-- Leaving a room, with a number in the place of the callback. -/
def numberForCallback : List (Move Call) :=
  [.arrive (.connect talker),
    .arrive (.event talker .conversationLeave [.string "room".toList, .number 5] (.ending 9)),
    .answer 1, .resume 1]

/-- Typing in some conversation, while the database does not answer. -/
def typingUnanswered : List (Move Call) :=
  [.arrive (.connect talker),
    .arrive (.event talker (.typing .start)
      [.object [("conversationId", .string (ObjectId.ending 3).toString)]] (.ending 9)),
    .fail 1, .resume 1]

theorem fulfilled_iff_typing : ¬ Harmless 1
    ((chat .default).run (Config.start quietServer) typingUnanswered).world.log
    (.event talker (.typing .start)
      [.object [("conversationId", .string (ObjectId.ending 3).toString)]] (.ending 9)) :=
  fun h => absurd ((fulfilled_iff .default quietServer typingUnanswered (r := .error .queryFailed)
    rfl rfl).mpr h) nofun

theorem rejected_twice :
    ¬ NoneRejected ((chat .default).run (Config.start quietServer) numberForCallback) ∧
      ¬ NoneRejected ((chat .default).run (Config.start quietServer) typingUnanswered) :=
  ⟨fun h => absurd (h 1 _ (.error .typeError) rfl rfl) nofun,
    fun h => absurd (h 1 _ (.error .queryFailed) rfl rfl) nofun⟩

end RealtimeChat
